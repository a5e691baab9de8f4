import AgentDb.Executor.Cancel
import AgentDb.Lib.TxLog
import AgentDb.Model
import AgentDb.Safety.Sql

/-!
# The target database

A session on the target as the executors see it: requests and the answers they get. What a
request does to the data is the engine's own (`txClass`, `refuses`, `steps`), what comes back
over the wire is up to the target and the network (`Answer`). A lost connection ends the session;
what still waits for a commit is then rolled back.
-/

namespace AgentDb
namespace Executor

open Safety

/-! ### Transaction rules -/

/-- How a statement stands to the transaction it runs in. -/
inductive TxClass
  | ordinary
  | implicitCommit
  | start
  | commit
  | rollback
  | rollbackTo (savepoint : ℕ)
  deriving DecidableEq, Repr

/-- The transaction rules of the engines. MySQL commits around DDL, privilege and administrative
statements. -/
def txClass (engine : Engine) : Statement → TxClass
  | .other .startTransaction => .start
  | .other .commit => .commit
  | .other .rollback => .rollback
  | .other (.rollbackTo savepoint) => .rollbackTo savepoint
  | .createTableAs _ | .ddl _ | .grant | .revoke | .other .administrative =>
      if engine = .mysql then .implicitCommit else .ordinary
  | _ => .ordinary

/-- What an engine refuses whatever else it would answer: SQLite has no nested transaction and
ends none that is not there, and no engine rolls back to a savepoint outside a transaction. -/
def refuses (engine : Engine) (inTransaction : Bool) : TxClass → Bool
  | .start => engine = .sqlite && inTransaction
  | .commit | .rollback => engine = .sqlite && !inTransaction
  | .rollbackTo _ => !inTransaction
  | .ordinary | .implicitCommit => false

/-- The steps an executed statement takes. `number` stands for its effect, if it has one. -/
def steps (engine : Engine) (number : ℕ) (changes : Bool) : TxClass → List (TxLog.Step ℕ)
  | .ordinary => if changes then [.write number] else []
  | .implicitCommit => .commit :: if changes then [.write number] else []
  | .start => if engine = .mysql then [.commit, .begin] else [.begin]
  | .commit => [.commit]
  | .rollback => [.rollback]
  | .rollbackTo savepoint => [.undo fun n => n < savepoint]

/-- The steps of a refused statement: MySQL has committed before it looks at the statement. -/
def refusedSteps : TxClass → List (TxLog.Step ℕ)
  | .implicitCommit => [.commit]
  | _ => []

/-! ### Requests -/

/-- What a request comes back as. Without an answer the target may have `applied` it or not. -/
inductive Answer
  | ok (affected : ℕ)
  | refused (error : String)
  | lost (error : String) (applied : Bool)
  | interrupted (cause : Interrupt) (applied : Bool)
  deriving DecidableEq

/-- What the caller is told by an answer: not whether an unanswered request was applied. -/
def Answer.told : Answer → Answer
  | .lost error _ => .lost error false
  | .interrupted cause _ => .interrupted cause false
  | answer => answer

@[simp] theorem Answer.told_eq_ok {answer : Answer} {n : ℕ} :
    answer.told = .ok n ↔ answer = .ok n := by
  cases answer <;> simp [told]

theorem Answer.told_eq_lost {answer : Answer} {error : String} :
    (∃ applied, answer.told = .lost error applied) ↔ ∃ applied, answer = .lost error applied := by
  cases answer <;> simp [told]

/-- A session: whether it is still connected, and its effects. -/
structure Target extends TxLog ℕ where
  connected : Bool := true

/-- A request of a class on a session. -/
structure Request where
  engine : Engine
  class_ : TxClass
  number : ℕ
  changes : Bool

namespace Request

variable (r : Request)

/-- The session after the target has executed the request. -/
def execute (t : Target) : Target :=
  { t with toTxLog := t.toTxLog.run (steps r.engine r.number r.changes r.class_) }

/-- The session after the target has refused the request. -/
def refuse (t : Target) : Target :=
  { t with toTxLog := t.toTxLog.run (refusedSteps r.class_) }

/-- The session after the target has executed or refused the request by its own rules. -/
def process (t : Target) : Target :=
  if refuses r.engine t.inTransaction r.class_ then r.refuse t else r.execute t

/-- The outcome of a request whose future is still waiting for it. -/
def send (answer : Answer) (t : Target) : Guarded ℕ × Target :=
  if t.connected then
    match answer with
    | .ok affected =>
        if refuses r.engine t.inTransaction r.class_ then
          (.done (.error (.db "refused by the target")), r.refuse t)
        else (.done (.ok affected), r.execute t)
    | .refused error => (.done (.error (.db error)), r.refuse t)
    | .lost error applied =>
        (.done (.error (.db error)),
          { (if applied then r.process t else t) with connected := false })
    | .interrupted cause applied =>
        (.dropped cause, { (if applied then r.process t else t) with connected := false })
  else (.done (.error (.db "the connection is closed")), t)

variable {r : Request} {answer : Answer} {t t' : Target} {n : ℕ}

/-- **A request succeeds only when it is acknowledged**, and then it has been executed. -/
theorem send_eq_ok (h : r.send answer t = (.done (.ok n), t')) :
    answer = .ok n ∧ t' = r.execute t := by
  unfold send at h
  by_cases hconnected : t.connected
  · rw [if_pos hconnected] at h
    cases answer with
    | ok affected =>
      by_cases hrefuses : refuses r.engine t.inTransaction r.class_
      · simp [hrefuses] at h
      · simp only [hrefuses, Bool.false_eq_true, if_false, Prod.mk.injEq, Guarded.done.injEq,
          Except.ok.injEq] at h
        exact ⟨by rw [h.1], h.2.symm⟩
    | _ => cases h
  · rw [if_neg hconnected] at h
    cases h

/-- The outcome of a request depends on what the caller is told alone. -/
theorem send_told : (r.send answer.told t).1 = (r.send answer t).1 := by
  unfold send
  by_cases hconnected : t.connected
  · rw [if_pos hconnected, if_pos hconnected]
    cases answer <;> rfl
  · rw [if_neg hconnected, if_neg hconnected]

end Request

/-- The requests an executor makes itself. -/
def control (engine : Engine) (class_ : TxClass) : Request where
  engine
  class_
  number := 0
  changes := false

end Executor
end AgentDb
