import AgentDb.Store.Pins

/-!
# Authorization of a pin: `connection/runtime.rs`

A pin is authorized locally by the role it records and, for a shared connection, by the control
plane, whose answer carries the revision it knows.
-/

namespace AgentDb
namespace Connection

open Store

/-- `ConnectionAccess`. -/
inductive ConnectionAccess
  | read
  | write
  deriving DecidableEq, Repr

/-- `scope_changed`. -/
def scopeChanged : AppError :=
  .blocked "workspace or connection access changed; retry the operation"

/-- `authorize_pin`, with the answer of the control plane. -/
def authorizePin (pin : PinnedConnection) (access : ConnectionAccess) (answer : AppResult ℤ) :
    AppResult Unit := do
  refuseIf (¬ pin.profile.workspaceAccess.canRead ∨
      (access = .write ∧ (¬ pin.profile.workspaceAccess.canWrite ∨ ¬ pin.profile.allowWrites)))
    (.blocked "your workspace role does not permit this database action")
  if pin.requiresRemoteRbac then
    refuseIf (pin.scope.selectedAccountId = none)
      (.config "shared connection access requires an active workspace account")
    let revision ← answer
    refuseIf (revision ≠ pin.connectionRevision)
      (.blocked "the shared connection changed; refresh the workspace and retry")

end Connection
end AgentDb
