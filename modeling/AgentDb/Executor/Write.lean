import AgentDb.Executor.Target
import AgentDb.Operations.Runtime

/-!
# The write path: `executor/write.rs`

An approved write is one statement between `BEGIN` and `COMMIT`, under the guard of `Cancel`. Its
result tells whether the commit was acknowledged; what the target did is in the session it
leaves. The two are compared in `writeFuture_cases`: an error of the driver says that nothing
persists, except where a statement that commits on its own lost the connection.
-/

namespace AgentDb
namespace Executor

open Operations

/-! ### Futures over a session -/

section Futures

variable {α β : Type}

/-- `?` inside a guarded future. -/
def andThen (step : Guarded α × Target) (next : α → Target → Guarded β × Target) :
    Guarded β × Target :=
  match step with
  | (.done (.ok a), t) => next a t
  | (.done (.error e), t) => (.done (.error e), t)
  | (.dropped cause, t) => (.dropped cause, t)

/-- `map_err` inside a guarded future. -/
def mapErr (f : AppError → AppError) (step : Guarded α × Target) : Guarded α × Target :=
  match step with
  | (.done result, t) => (.done (result.mapError f), t)
  | (.dropped cause, t) => (.dropped cause, t)

@[simp] theorem andThen_ok (a : α) (t : Target) (next : α → Target → Guarded β × Target) :
    andThen (.done (.ok a), t) next = next a t := rfl

@[simp] theorem andThen_error (e : AppError) (t : Target) (next : α → Target → Guarded β × Target) :
    andThen (.done (.error e), t) next = (.done (.error e), t) := rfl

@[simp] theorem andThen_dropped (cause : Interrupt) (t : Target)
    (next : α → Target → Guarded β × Target) :
    andThen (.dropped cause, t) next = (.dropped cause, t) := rfl

/-- After a request that is answered, the next one finds the same session, whatever the unseen
part of the answer is. -/
theorem andThen_told {r : Request} {answer : Answer} {t : Target}
    {next next' : ℕ → Target → Guarded β × Target} (h : ∀ n t, (next n t).1 = (next' n t).1) :
    (andThen (r.send answer.told t) next).1 = (andThen (r.send answer t) next').1 := by
  generalize hout : r.send answer t = out
  generalize hout' : r.send answer.told t = out'
  obtain ⟨guarded, u⟩ := out
  obtain ⟨guarded', u'⟩ := out'
  have hsame : guarded' = guarded := by
    have htold : (r.send answer.told t).1 = (r.send answer t).1 := Request.send_told
    rw [hout, hout'] at htold
    exact htold
  subst hsame
  cases guarded' with
  | dropped cause => rfl
  | done result =>
    cases result with
    | error e => rfl
    | ok n =>
      obtain ⟨-, rfl⟩ := Request.send_eq_ok hout
      obtain ⟨-, rfl⟩ := Request.send_eq_ok hout'
      exact h n _

end Futures

/-- The text of a driver error, without the prefix of `AppError`. -/
def driverText : AppError → String
  | .db error => error
  | error => error.toText

/-- The engine's name in messages. -/
def engineName : Engine → String
  | .postgres => "PostgreSQL"
  | .mysql => "MySQL"
  | .sqlite => "SQLite"
  | .mongodb => "MongoDB"

/-- `ExecOutcome`, with the two numbers of the result page that are recorded. -/
structure ExecOutcome where
  rowCount : Option ℕ := none
  durationMs : Option ℕ := none
  affected : Option ℕ := none
  committed : Bool
  deriving DecidableEq

/-- What the target answers to the three requests of a write. -/
structure WriteAnswers where
  begin : Answer
  execute : Answer
  commit : Answer

/-- What the caller is told by the answers. -/
def WriteAnswers.told (answers : WriteAnswers) : WriteAnswers where
  begin := answers.begin.told
  execute := answers.execute.told
  commit := answers.commit.told

/-- The error of a commit that was not acknowledged. -/
def commitUnacknowledged (engine : Engine) (error : AppError) : AppError :=
  .outcomeUnknown (engineName engine ++ " commit acknowledgement failed: " ++ driverText error)

/-- The future of `run_write`. -/
def writeFuture (statement : Request) (answers : WriteAnswers) (t : Target) :
    Guarded ℕ × Target :=
  andThen ((control statement.engine .start).send answers.begin t) fun _ t =>
    andThen (statement.send answers.execute t) fun affected t =>
      andThen (mapErr (commitUnacknowledged statement.engine)
        ((control statement.engine .commit).send answers.commit t)) fun _ t =>
          (.done (.ok affected), t)

/-- `run_write`. -/
def runWrite (statement : Request) (allowWrites : Bool) (grant : ExecutionGrant)
    (cancellationId : Uuid) (answers : WriteAnswers) (t : Target) :
    AppResult ExecOutcome × Target :=
  if cancellationId ≠ grant.operationId then
    (.error (.blocked "write cancellation scope does not match its approved operation"), t)
  else if ¬ allowWrites then
    (.error (.blocked "writes are disabled for this connection (allow_writes = 0)"), t)
  else
    let (guarded, t) := writeFuture statement answers t
    ((guardRegistered guarded).map fun affected => { affected := some affected, committed := true },
      t)

/-! ### What the result says of the target -/

/-- The connection is lost while a statement that commits on its own is being executed. -/
def LosesImplicitCommit (statement : Request) (answers : WriteAnswers) : Prop :=
  (∃ affected, answers.begin = .ok affected) ∧ statement.class_ = .implicitCommit ∧
    statement.changes ∧ ∃ error applied, answers.execute = .lost error applied

theorem LosesImplicitCommit.of_told {statement : Request} {answers answers' : WriteAnswers}
    (htold : answers.told = answers'.told) (h : LosesImplicitCommit statement answers) :
    LosesImplicitCommit statement answers' := by
  obtain ⟨⟨affected, hbegin⟩, hclass, hchanges, error, hlost⟩ := h
  obtain ⟨hbegin', hexecute', -⟩ := WriteAnswers.mk.inj htold
  refine ⟨⟨affected, ?_⟩, hclass, hchanges, error, ?_⟩
  · rw [← Answer.told_eq_ok, ← hbegin', hbegin]
    rfl
  · rw [← Answer.told_eq_lost, ← hexecute', Answer.told_eq_lost]
    exact hlost

/-- The four ends of a write, with what they say of the commit and of the data. -/
inductive WriteEnd (statement : Request) (answers : WriteAnswers) : Guarded ℕ × Target → Prop
  | committed (affected : ℕ) (t : Target)
      (acknowledged : ∃ m n, answers = ⟨.ok m, .ok affected, .ok n⟩) :
      WriteEnd statement answers (.done (.ok affected), t)
  | failed (error : String) (t : Target)
      (persists : t.persisted ≠ [] ↔ LosesImplicitCommit statement answers ∧
        answers.execute ≠ answers.execute.told) :
      WriteEnd statement answers (.done (.error (.db error)), t)
  | unacknowledged (error : AppError) (t : Target) (hno : ¬ LosesImplicitCommit statement answers) :
      WriteEnd statement answers (.done (.error (commitUnacknowledged statement.engine error)), t)
  | dropped (cause : Interrupt) (t : Target) (hno : ¬ LosesImplicitCommit statement answers) :
      WriteEnd statement answers (.dropped cause, t)

section Ends

variable {statement : Request} {answers : WriteAnswers}

/-- A session just begun. -/
def begun : Target where
  inTransaction := true

/-- `BEGIN` on a fresh session succeeds with the acknowledgement, and changes no data. -/
theorem begin_cases (engine : Engine) (answer : Answer) :
    (∃ affected, answer = .ok affected ∧
        (control engine .start).send answer {} = (.done (.ok affected), begun)) ∨
      (¬ ∃ affected, answer = .ok affected) ∧ ∃ t : Target, t.persisted = [] ∧
        ((∃ error, (control engine .start).send answer {} = (.done (.error (.db error)), t)) ∨
          ∃ cause, (control engine .start).send answer {} = (.dropped cause, t)) := by
  have hrefuses : refuses engine false .start = false := by simp [refuses]
  have hexecute : (control engine .start).execute {} = begun := by
    cases engine <;> rfl
  have hprocess : (control engine .start).process {} = begun := by
    rw [Request.process]
    exact (if_neg (by simp [control, refuses])).trans hexecute
  cases answer with
  | ok affected =>
    refine .inl ⟨affected, rfl, ?_⟩
    have hsend : (control engine .start).send (.ok affected) {} =
        (.done (.ok affected), (control engine .start).execute {}) := by
      simp [Request.send, control, refuses]
    rw [hsend, hexecute]
  | refused error => exact .inr ⟨by simp, {}, rfl, .inl ⟨error, rfl⟩⟩
  | lost error applied =>
    refine .inr ⟨by simp, { (if applied then (control engine .start).process {} else {}) with
      connected := false }, ?_, .inl ⟨error, rfl⟩⟩
    rw [hprocess]
    cases applied <;> rfl
  | interrupted cause applied =>
    refine .inr ⟨by simp, { (if applied then (control engine .start).process {} else {}) with
      connected := false }, ?_, .inr ⟨cause, rfl⟩⟩
    rw [hprocess]
    cases applied <;> rfl

/-- What the statement has persisted before the commit: only its own effect, and only when it
commits on its own. -/
theorem persisted_process (statement : Request) :
    (statement.process begun).persisted ≠ [] ↔
      statement.class_ = .implicitCommit ∧ statement.changes := by
  unfold Request.process Request.execute Request.refuse begun
  cases hclass : statement.class_ with
  | implicitCommit =>
    cases hchanges : statement.changes <;> simp [refuses, steps, TxLog.apply]
  | ordinary => cases statement.changes <;> simp [refuses, steps, TxLog.apply]
  | start =>
    by_cases hsqlite : statement.engine = .sqlite
    · simp [refuses, refusedSteps, hsqlite]
    · by_cases hmysql : statement.engine = .mysql <;>
        simp [refuses, steps, hsqlite, hmysql, TxLog.apply]
  | commit => simp [refuses, steps, TxLog.apply]
  | rollback => simp [refuses, steps, TxLog.apply]
  | rollbackTo savepoint => simp [refuses, steps, TxLog.apply]

theorem persisted_refuse (statement : Request) : (statement.refuse begun).persisted = [] := by
  unfold Request.refuse begun
  cases hclass : statement.class_ <;> simp [refusedSteps, TxLog.apply]

/-- **Every write ends in one of the four ways.** -/
theorem writeFuture_cases (statement : Request) (answers : WriteAnswers) :
    WriteEnd statement answers (writeFuture statement answers {}) := by
  have hnot : (∀ e applied, answers.execute ≠ .lost e applied) →
      ¬ LosesImplicitCommit statement answers := fun h hloses => by
    obtain ⟨-, -, -, e, applied, he⟩ := hloses
    exact h e applied he
  rcases begin_cases statement.engine answers.begin with
    ⟨affected, hbegin, hsend⟩ | ⟨hbegin, t, ht, ⟨e, hsend⟩ | ⟨cause, hsend⟩⟩
  · rw [writeFuture, hsend, andThen_ok]
    cases hexecute : answers.execute with
    | ok n =>
      have hno := hnot fun e applied => by simp [hexecute]
      have hok : statement.send (.ok n) begun = (.done (.error (.db "refused by the target")),
          statement.refuse begun) ∨
          statement.send (.ok n) begun = (.done (.ok n), statement.execute begun) := by
        unfold Request.send
        by_cases hrefuses : refuses statement.engine begun.inTransaction statement.class_
        · left
          simp [begun] at hrefuses ⊢
          simp [hrefuses]
        · right
          simp [begun] at hrefuses ⊢
          simp [hrefuses]
      rcases hok with hok | hok
      · rw [hok, andThen_error]
        refine .failed _ _ (iff_of_false ?_ fun h => hno h.1)
        exact not_not.2 (persisted_refuse statement)
      · rw [hok, andThen_ok]
        generalize hcommit :
          (control statement.engine .commit).send answers.commit (statement.execute begun) = out
        obtain ⟨guarded, t⟩ := out
        cases guarded with
        | dropped cause => exact .dropped cause t hno
        | done result =>
          cases result with
          | error e => exact .unacknowledged e t hno
          | ok m =>
            refine .committed n t ⟨affected, m, ?_⟩
            rw [← hbegin, ← hexecute, ← (Request.send_eq_ok hcommit).1]
    | refused e =>
      refine .failed e _ (iff_of_false (not_not.2 (persisted_refuse statement)) fun h => ?_)
      exact hnot (fun e applied => by simp [hexecute]) h.1
    | lost e applied =>
      refine .failed e _ ?_
      cases applied with
      | false =>
        exact iff_of_false (not_not.2 rfl) fun h => h.2 (by rw [hexecute]; rfl)
      | true =>
        refine (persisted_process statement).trans ?_
        constructor
        · rintro ⟨hclass, hchanges⟩
          exact ⟨⟨⟨affected, hbegin⟩, hclass, hchanges, e, true, hexecute⟩,
            by simp [hexecute, Answer.told]⟩
        · rintro ⟨⟨-, hclass, hchanges, -⟩, -⟩
          exact ⟨hclass, hchanges⟩
    | interrupted cause applied =>
      exact .dropped cause _ (hnot fun e applied => by simp [hexecute])
  · rw [writeFuture, hsend, andThen_error]
    exact .failed e t (iff_of_false (not_not.2 ht) fun h => hbegin h.1.1)
  · rw [writeFuture, hsend, andThen_dropped]
    exact .dropped cause t fun h => hbegin h.1

/-- The result of a write depends on what the caller is told alone. -/
theorem writeFuture_told (statement : Request) (answers : WriteAnswers) (t : Target) :
    (writeFuture statement answers.told t).1 = (writeFuture statement answers t).1 := by
  refine andThen_told fun _ t => andThen_told fun affected t => ?_
  generalize hcommit : (control statement.engine .commit).send answers.commit t = out
  generalize hcommit' : (control statement.engine .commit).send answers.told.commit t = out'
  have hsame : out'.1 = out.1 := by
    rw [← hcommit, ← hcommit']
    exact Request.send_told
  obtain ⟨guarded, u⟩ := out
  obtain ⟨guarded', u'⟩ := out'
  obtain rfl : guarded' = guarded := hsame
  cases guarded' with
  | dropped cause => rfl
  | done result => cases result <;> rfl

variable {answers' : WriteAnswers}

theorem writeFuture_of_told (htold : answers'.told = answers.told) :
    (writeFuture statement answers' {}).1 = (writeFuture statement answers {}).1 := by
  rw [← writeFuture_told, htold, writeFuture_told]

/-- A driver error says what persists. -/
theorem persisted_of_failed {error : String}
    (h : (writeFuture statement answers {}).1 = .done (.error (.db error))) :
    (writeFuture statement answers {}).2.persisted ≠ [] ↔
      LosesImplicitCommit statement answers ∧ answers.execute ≠ answers.execute.told := by
  have hend := writeFuture_cases statement answers
  generalize writeFuture statement answers {} = out at h hend ⊢
  cases hend with
  | failed error t persists => exact persists
  | unacknowledged e t => cases h
  | _ => cases h

/-- A write that reports success was answered at each of its three requests. -/
theorem answers_of_committed {affected : ℕ}
    (h : (writeFuture statement answers {}).1 = .done (.ok affected)) :
    ∃ m n, answers = ⟨.ok m, .ok affected, .ok n⟩ := by
  have hend := writeFuture_cases statement answers
  generalize writeFuture statement answers {} = out at h hend
  cases hend with
  | committed affected t acknowledged =>
    cases h
    exact acknowledged
  | _ => cases h

/-- A statement that commits on its own and loses the connection is reported as a driver error. -/
theorem failed_of_loses (h : LosesImplicitCommit statement answers) :
    ∃ error, (writeFuture statement answers {}).1 = .done (.error (.db error)) := by
  have hend := writeFuture_cases statement answers
  generalize hout : writeFuture statement answers {} = out at hend ⊢
  cases hend with
  | committed affected t acknowledged =>
    obtain ⟨-, -, -, error, applied, hlost⟩ := h
    obtain ⟨m, n, rfl⟩ := acknowledged
    cases hlost
  | failed error t => exact ⟨error, rfl⟩
  | unacknowledged error t hno => exact absurd h hno
  | dropped cause t hno => exact absurd h hno

end Ends

end Executor
end AgentDb
