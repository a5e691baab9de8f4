import Mathlib.Tactic

/-!
# Effects under transaction control

What becomes of the effects of a sequence of statements when some of the statements begin, commit
and roll back the transaction the others run in. A `TxLog` holds the effects that wait for a
commit and those that persist. Outside a transaction an effect persists at once.

`fate` follows one pending effect through the steps after it; `mem_persisted_run` and
`mem_pending_run` say that following each effect on its own gives what the whole run leaves.
-/

variable {E : Type*}

/-- The effects of a session. -/
structure TxLog (E : Type*) where
  inTransaction : Bool := false
  pending : List E := []
  persisted : List E := []

namespace TxLog

/-- A step of a session. `undo` drops the pending effects it does not keep. -/
inductive Step (E : Type*)
  | write (effect : E)
  | begin
  | commit
  | rollback
  | undo (keep : E → Bool)

def apply (log : TxLog E) : Step E → TxLog E
  | .write e =>
      if log.inTransaction then { log with pending := log.pending ++ [e] }
      else { log with persisted := log.persisted ++ [e] }
  | .begin => { log with inTransaction := true }
  | .commit => { inTransaction := false, pending := [], persisted := log.persisted ++ log.pending }
  | .rollback => { inTransaction := false, pending := [], persisted := log.persisted }
  | .undo keep => { log with pending := log.pending.filter keep }

def run (log : TxLog E) (steps : List (Step E)) : TxLog E := steps.foldl apply log

@[simp] theorem run_nil (log : TxLog E) : log.run [] = log := rfl

@[simp] theorem run_cons (log : TxLog E) (step : Step E) (steps : List (Step E)) :
    log.run (step :: steps) = (log.apply step).run steps := rfl

@[simp] theorem run_append (log : TxLog E) (steps more : List (Step E)) :
    log.run (steps ++ more) = (log.run steps).run more := List.foldl_append

/-- What can become of a pending effect. -/
inductive Fate
  | waits
  | persists
  | isDropped
  deriving DecidableEq

/-- What becomes of the pending effect `e` over the steps after it. -/
def fate (e : E) : List (Step E) → Fate
  | [] => .waits
  | .commit :: _ => .persists
  | .rollback :: _ => .isDropped
  | .undo keep :: steps => if keep e then fate e steps else .isDropped
  | .write _ :: steps | .begin :: steps => fate e steps

/-- An effect written at one place of the steps, and the steps around it. -/
def WritesAt (e : E) (pre post steps : List (Step E)) : Prop := steps = pre ++ .write e :: post

theorem writesAt_cons {e : E} {step : Step E} {pre post steps : List (Step E)} :
    WritesAt e pre post (step :: steps) ↔
      (pre = [] ∧ step = .write e ∧ steps = post) ∨
        ∃ pre', pre = step :: pre' ∧ WritesAt e pre' post steps := by
  unfold WritesAt
  cases pre with
  | nil => simp
  | cons s pre =>
    simp only [List.cons_append, List.cons.injEq, reduceCtorEq, false_and, false_or]
    constructor
    · rintro ⟨rfl, rfl⟩
      exact ⟨pre, ⟨rfl, rfl⟩, rfl⟩
    · rintro ⟨pre', ⟨rfl, rfl⟩, rfl⟩
      exact ⟨rfl, rfl⟩

variable {log : TxLog E} {e : E} {steps : List (Step E)}

/-- The effects that persist after a step. -/
theorem mem_persisted_apply {step : Step E} :
    e ∈ (log.apply step).persisted ↔ e ∈ log.persisted ∨
      (step = .commit ∧ e ∈ log.pending) ∨ (step = .write e ∧ ¬ log.inTransaction) := by
  cases step with
  | write e' =>
    by_cases htx : log.inTransaction
    · simp [apply, htx]
    · simp [apply, htx, eq_comm]
  | commit => simp [apply]
  | _ => simp [apply]

/-- The effects that wait after a step. -/
theorem mem_pending_apply {step : Step E} :
    e ∈ (log.apply step).pending ↔ (e ∈ log.pending ∧ fate e [step] = .waits) ∨
      (step = .write e ∧ log.inTransaction) := by
  cases step with
  | write e' =>
    by_cases htx : log.inTransaction
    · simp [apply, htx, fate, eq_comm]
    · simp [apply, htx, fate]
  | undo keep => by_cases hkeep : keep e <;> simp [apply, fate, hkeep]
  | _ => simp [apply, fate]

/-- **What persists after a run**: what did before, what waited and is committed, and what is
written outside a transaction or committed after it is written. -/
theorem mem_persisted_run : e ∈ (log.run steps).persisted ↔
    e ∈ log.persisted ∨ (e ∈ log.pending ∧ fate e steps = .persists) ∨
      ∃ pre post, WritesAt e pre post steps ∧
        ((log.run pre).inTransaction = false ∨ fate e post = .persists) := by
  induction steps generalizing log with
  | nil => simp [fate, WritesAt]
  | cons step steps ih =>
    have hsplit : (∃ pre post, WritesAt e pre post (step :: steps) ∧
        ((log.run pre).inTransaction = false ∨ fate e post = .persists)) ↔
        (step = .write e ∧ (log.inTransaction = false ∨ fate e steps = .persists)) ∨
          ∃ pre post, WritesAt e pre post steps ∧
            (((log.apply step).run pre).inTransaction = false ∨ fate e post = .persists) := by
      constructor
      · rintro ⟨pre, post, hat, hpersists⟩
        rcases writesAt_cons.1 hat with ⟨rfl, hstep, rfl⟩ | ⟨pre', rfl, hat'⟩
        · exact .inl ⟨hstep, hpersists⟩
        · exact .inr ⟨pre', post, hat', hpersists⟩
      · rintro (⟨hstep, hpersists⟩ | ⟨pre, post, hat, hpersists⟩)
        · exact ⟨[], steps, writesAt_cons.2 (.inl ⟨rfl, hstep, rfl⟩), hpersists⟩
        · exact ⟨step :: pre, post, writesAt_cons.2 (.inr ⟨pre, rfl, hat⟩), hpersists⟩
    rw [run_cons, ih, hsplit, mem_persisted_apply, mem_pending_apply]
    have hfate : fate e (step :: steps) = .persists ↔ step = .commit ∨
        (fate e [step] = .waits ∧ fate e steps = .persists) := by
      cases step with
      | undo keep => by_cases hkeep : keep e <;> simp [fate, hkeep]
      | _ => simp [fate]
    rw [hfate]
    -- from here on the parts are propositional
    generalize (∃ pre post, WritesAt e pre post steps ∧ _) = later
    generalize fate e steps = f
    generalize fate e [step] = g
    cases htx : log.inTransaction
    · simp only [Bool.false_eq_true, not_false_eq_true, and_true, and_false, or_false, true_or]
      grind
    · simp only [not_true_eq_false, and_true, and_false, or_false, Bool.true_eq_false, false_or]
      grind

/-- **What waits after a run**: what waited and still does, and what is written in a transaction
and still waits. -/
theorem mem_pending_run : e ∈ (log.run steps).pending ↔
    (e ∈ log.pending ∧ fate e steps = .waits) ∨
      ∃ pre post, WritesAt e pre post steps ∧ (log.run pre).inTransaction = true ∧
        fate e post = .waits := by
  induction steps generalizing log with
  | nil => simp [fate, WritesAt]
  | cons step steps ih =>
    have hsplit : (∃ pre post, WritesAt e pre post (step :: steps) ∧
        (log.run pre).inTransaction = true ∧ fate e post = .waits) ↔
        (step = .write e ∧ log.inTransaction = true ∧ fate e steps = .waits) ∨
          ∃ pre post, WritesAt e pre post steps ∧
            ((log.apply step).run pre).inTransaction = true ∧ fate e post = .waits := by
      constructor
      · rintro ⟨pre, post, hat, hwaits⟩
        rcases writesAt_cons.1 hat with ⟨rfl, hstep, rfl⟩ | ⟨pre', rfl, hat'⟩
        · exact .inl ⟨hstep, hwaits⟩
        · exact .inr ⟨pre', post, hat', hwaits⟩
      · rintro (⟨hstep, hwaits⟩ | ⟨pre, post, hat, hwaits⟩)
        · exact ⟨[], steps, writesAt_cons.2 (.inl ⟨rfl, hstep, rfl⟩), hwaits⟩
        · exact ⟨step :: pre, post, writesAt_cons.2 (.inr ⟨pre, rfl, hat⟩), hwaits⟩
    rw [run_cons, ih, hsplit, mem_pending_apply]
    have hfate : fate e (step :: steps) = .waits ↔ fate e [step] = .waits ∧
        fate e steps = .waits := by
      cases step with
      | undo keep => by_cases hkeep : keep e <;> simp [fate, hkeep]
      | _ => simp [fate]
    rw [hfate]
    generalize (∃ pre post, WritesAt e pre post steps ∧ _) = later
    generalize fate e steps = f
    generalize fate e [step] = g
    grind

end TxLog
