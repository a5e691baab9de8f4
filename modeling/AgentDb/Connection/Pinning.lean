import AgentDb.Connection.Access
import AgentDb.Store.Listing

/-!
# One call of the connection manager: `connection/runtime.rs`

`pin`, `connect` and `test_fresh` as a single call makes them: what the store answers is read off
the database, what the control plane and the target answer is given. The pools of other calls and
the waits between the steps are in `Connection.Runtime`.
-/

namespace AgentDb
namespace Connection

open Store

variable (db : Database)

/-- `ConnectionManager::pin`. -/
def pin (id : Uuid) (access : ConnectionAccess) (authority : AppResult ℤ) :
    AppResult PinnedConnection := do
  let pin ← db.pinConnectionWithAccess id true
  authorizePin pin access authority
  refuseIf (¬ db.isPinCurrent pin) scopeChanged
  pure pin

/-- What `ConnectionContext::connect` meets in the passage of its loop that ends it: a pool is
cached or opened, the control plane is asked again, and the pool may have expired meanwhile. -/
structure ConnectAnswers where
  opened : AppResult Unit
  authority : AppResult ℤ
  handed : AppResult Unit

/-- `ConnectionContext::connect`. -/
def connect (pin : PinnedConnection) (access : ConnectionAccess) (answers : ConnectAnswers) :
    AppResult Unit := do
  answers.opened
  if pin.requiresRemoteRbac then authorizePin pin access answers.authority
  refuseIf (¬ db.isPinCurrent pin) scopeChanged
  answers.handed

/-- `ConnectionOperationScope::connect`, which authorizes the pin first. -/
def connectScope (pin : PinnedConnection) (access : ConnectionAccess) (authority : AppResult ℤ)
    (answers : ConnectAnswers) : AppResult Unit := do
  authorizePin pin access authority
  refuseIf (¬ db.isPinCurrent pin) scopeChanged
  connect db pin access answers

/-- What `test_fresh` meets: a pool of its own, the control plane, the clock and the target. -/
structure TestAnswers where
  opened : AppResult Unit
  authority : AppResult ℤ
  expired : Bool
  test : AppResult Unit

/-- `ConnectionContext::test_fresh`. -/
def testFresh (pin : PinnedConnection) (access : ConnectionAccess) (answers : TestAnswers) :
    AppResult Unit := do
  answers.opened
  if pin.requiresRemoteRbac then authorizePin pin access answers.authority
  refuseIf (¬ db.isPinCurrent pin ∨ answers.expired) scopeChanged
  answers.test

/-! ### What a call learns of the other connections -/

section

variable {db} {db' : Database} {id : Uuid} {p : PinnedConnection}

/-- What `pin` returns names the connection it was asked for. -/
theorem pin_spec {access : ConnectionAccess} {authority : AppResult ℤ}
    (h : pin db id access authority = .ok p) : p.connectionId = id ∧
      db.pinConnectionWithAccess id true = .ok p := by
  obtain ⟨q, hpin, h⟩ := Except.bind_eq_ok.1 h
  obtain ⟨-, -, h⟩ := Except.bind_eq_ok.1 h
  obtain ⟨-, -, h⟩ := Except.bind_eq_ok.1 h
  obtain rfl := Except.pure_eq_ok.1 h
  obtain ⟨r, hof⟩ := pinConnectionWithAccess_spec hpin
  exact ⟨hof.connectionId, hpin⟩

variable (h : SharesConnection id db db')
include h

theorem isPinCurrent_shared (hp : p.connectionId = id) :
    db.isPinCurrent p = db'.isPinCurrent p := h.isPinCurrentWithAccess hp false

theorem pin_shared (access : ConnectionAccess) (authority : AppResult ℤ) :
    pin db id access authority = pin db' id access authority := by
  unfold pin
  rw [h.pinConnectionWithAccess]
  cases hpin : db'.pinConnectionWithAccess id true with
  | error e => rfl
  | ok p =>
    obtain ⟨r, hof⟩ := pinConnectionWithAccess_spec hpin
    show (authorizePin p access authority >>= _) = (authorizePin p access authority >>= _)
    rw [isPinCurrent_shared h hof.connectionId]

theorem connect_shared (hp : p.connectionId = id) (access : ConnectionAccess)
    (answers : ConnectAnswers) : connect db p access answers = connect db' p access answers := by
  unfold connect
  rw [isPinCurrent_shared h hp]

theorem connectScope_shared (hp : p.connectionId = id) (access : ConnectionAccess)
    (authority : AppResult ℤ) (answers : ConnectAnswers) :
    connectScope db p access authority answers = connectScope db' p access authority answers := by
  unfold connectScope
  rw [isPinCurrent_shared h hp, connect_shared h hp]

theorem testFresh_shared (hp : p.connectionId = id) (access : ConnectionAccess)
    (answers : TestAnswers) : testFresh db p access answers = testFresh db' p access answers := by
  unfold testFresh
  rw [isPinCurrent_shared h hp]

end

end Connection
end AgentDb
