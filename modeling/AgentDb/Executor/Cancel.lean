import AgentDb.Error

/-!
# Cancellation and the wall clock: `executor/cancel.rs`

A query runs as a future between a cancel signal and a timeout. Either of the two drops the
future wherever it waits, and the caller gets an error whose text tells which it was.
-/

namespace AgentDb
namespace Executor

/-- What ends a query from outside. -/
inductive Interrupt
  | cancelled
  | timedOut
  deriving DecidableEq, Repr

/-- `QUERY_TIMEOUT`, in seconds. -/
def queryTimeout : ℕ := 300

/-- The error `guard_registered` returns for an interrupted query. -/
def Interrupt.error : Interrupt → AppError
  | .cancelled => .safety "query cancelled"
  | .timedOut => .safety ("query timed out after " ++ Nat.repr queryTimeout ++ "s and was aborted")

/-- The end of a guarded future: a result of its own, or dropped. -/
inductive Guarded (α : Type)
  | done (result : AppResult α)
  | dropped (cause : Interrupt)

/-- `guard_registered`. -/
def guardRegistered {α : Type} : Guarded α → AppResult α
  | .done result => result
  | .dropped cause => .error cause.error

/-- `matches!(error, AppError::Safety(reason) if reason == "query cancelled")`. -/
def isCancelled : AppError → Bool
  | .safety reason => reason = "query cancelled"
  | _ => false

/-- The same of `reason.starts_with("query timed out after ")`. -/
def isTimedOut : AppError → Bool
  | .safety reason => "query timed out after ".toList.isPrefixOf reason.toList
  | _ => false

/-- **Both interruptions are recognised by their texts.** -/
theorem interrupt_recognised (cause : Interrupt) :
    isCancelled cause.error ∨ isTimedOut cause.error := by
  cases cause with
  | cancelled => exact .inl rfl
  | timedOut =>
    right
    rw [Interrupt.error, isTimedOut, String.append_assoc, String.toList_append,
      List.isPrefixOf_iff_prefix]
    exact List.prefix_append _ _

end Executor
end AgentDb
