import AgentDb.Protocol.Operation

/-!
# The operation lifecycle: `operations/state_machine.rs`

`ensureTransition` is the only table of lifecycle steps, and `restartRecovery` the decision for
an operation owned by an older runtime. The lemmas below are what the repository's proofs read
off the table: no step leaves a terminal state, `executing` is entered from `ready` or
`approved` only, and every restart decision is a step of the table.
-/

namespace AgentDb
namespace Operations

/-- `TransitionError`. -/
structure TransitionError where
  source : OperationState
  target : OperationState
  deriving DecidableEq, Repr

/-- The `Debug` text of a state. -/
def debugState : OperationState → String
  | .planned => "Planned"
  | .pendingApproval => "PendingApproval"
  | .ready => "Ready"
  | .approved => "Approved"
  | .rejected => "Rejected"
  | .expired => "Expired"
  | .cancelled => "Cancelled"
  | .executing => "Executing"
  | .succeeded => "Succeeded"
  | .failed => "Failed"
  | .outcomeUnknown => "OutcomeUnknown"

/-- The `Display` text of a refused step. -/
def TransitionError.toText (e : TransitionError) : String :=
  "operation cannot transition from " ++ debugState e.source ++ " to " ++ debugState e.target

/-- `RestartRecovery`. -/
inductive RestartRecovery
  | keepTerminal
  | expire
  | markFailed
  | outcomeUnknown
  | validateJobCheckpoint
  deriving DecidableEq, Repr

/-- The pairs `ensure_transition` allows. -/
def allowed : OperationState → OperationState → Bool
  | .planned, .pendingApproval | .planned, .ready | .planned, .cancelled | .planned, .expired
  | .pendingApproval, .approved | .pendingApproval, .rejected | .pendingApproval, .cancelled
  | .pendingApproval, .expired
  | .ready, .executing | .ready, .cancelled | .ready, .expired
  | .approved, .executing | .approved, .cancelled | .approved, .expired
  | .executing, .succeeded | .executing, .failed | .executing, .cancelled
  | .executing, .outcomeUnknown => true
  | _, _ => false

/-- `ensure_transition`. -/
def ensureTransition (source target : OperationState) : Except TransitionError Unit :=
  if allowed source target then .ok () else .error ⟨source, target⟩

/-- `restart_recovery`. -/
def restartRecovery (kind : OperationKind) (state : OperationState) : RestartRecovery :=
  if state.isTerminal then .keepTerminal
  else if state ≠ .executing then .expire
  else if kind.isResumableJob then .validateJobCheckpoint
  else if kind.mayMutateTarget then .outcomeUnknown
  else .markFailed

theorem ensureTransition_eq_ok {s t : OperationState} :
    ensureTransition s t = .ok () ↔ allowed s t = true := by
  unfold ensureTransition
  split_ifs with h <;> simp [h]

theorem not_allowed_of_isTerminal {s t : OperationState} (h : s.isTerminal) :
    allowed s t = false := by
  cases s <;> first | rfl | simp [OperationState.isTerminal] at h

theorem allowed_executing {s : OperationState} (h : allowed s .executing) :
    s = .ready ∨ s = .approved := by
  cases s <;> simp_all [allowed]

theorem ne_of_allowed {s t : OperationState} (h : allowed s t) : s ≠ t := by
  rintro rfl
  cases s <;> simp [allowed] at h

/-- Every target a step of the table reaches is a successor, never `planned`. -/
theorem allowed_ne_planned {s t : OperationState} (h : allowed s t) : t ≠ .planned := by
  rintro rfl
  cases s <;> simp [allowed] at h

/-- The states an operation can be in once its execution has started. -/
def started : OperationState → Bool
  | .executing | .succeeded | .failed | .outcomeUnknown => true
  | _ => false

/-- `succeeded`, `failed` and `outcomeUnknown` are left-overs of an execution. -/
theorem started_of_allowed {s t : OperationState} (h : allowed s t) (ht : started t)
    (hne : t ≠ .executing) : s = .executing := by
  cases s <;> cases t <;> simp_all [allowed, started]

/-- Nothing but a terminal state follows `executing`. -/
theorem isTerminal_of_allowed_executing {t : OperationState} (h : allowed .executing t) :
    t.isTerminal := by
  cases t <;> simp_all [allowed, OperationState.isTerminal]

section Recovery

variable {kind : OperationKind} {state : OperationState}

theorem restartRecovery_of_isTerminal (h : state.isTerminal) :
    restartRecovery kind state = .keepTerminal := by
  simp [restartRecovery, h]

theorem restartRecovery_eq_keepTerminal :
    restartRecovery kind state = .keepTerminal ↔ state.isTerminal := by
  unfold restartRecovery
  split_ifs <;> simp_all

theorem restartRecovery_eq_expire :
    restartRecovery kind state = .expire ↔ ¬ state.isTerminal ∧ state ≠ .executing := by
  unfold restartRecovery
  split_ifs <;> simp_all

theorem restartRecovery_eq_validateJobCheckpoint :
    restartRecovery kind state = .validateJobCheckpoint ↔
      state = .executing ∧ kind.isResumableJob := by
  unfold restartRecovery
  split_ifs with h1 h2 h3 h4 <;> simp_all
  rintro rfl
  simp [OperationState.isTerminal] at h1

theorem restartRecovery_eq_outcomeUnknown :
    restartRecovery kind state = .outcomeUnknown ↔
      state = .executing ∧ ¬ kind.isResumableJob ∧ kind.mayMutateTarget := by
  unfold restartRecovery
  split_ifs with h1 h2 h3 h4 <;> simp_all
  rintro rfl
  simp [OperationState.isTerminal] at h1

theorem restartRecovery_eq_markFailed :
    restartRecovery kind state = .markFailed ↔
      state = .executing ∧ ¬ kind.isResumableJob ∧ ¬ kind.mayMutateTarget := by
  unfold restartRecovery
  split_ifs with h1 h2 h3 h4 <;> simp_all
  rintro rfl
  simp [OperationState.isTerminal] at h1

end Recovery

end Operations
end AgentDb
