import AgentDb.Lib.Watch
import AgentDb.Runs.World

/-!
# The trail of a run

What a run leaves behind: what it was told of its operation, whether it holds a cancellation
handle and a claim, what it has sent and what was acknowledged, and how it reported its end.
`Prescribed` says what the stored proposal lets a run send, and `monitor` what a run may do at
each of its calls. That the entry points do no more is proved along their texts, beside them.
-/

namespace AgentDb
namespace Runs

open Connection Executor Json Operations Program Safety Services Store
open Services.Document (StoredDesktopDocumentPayload)
open Services.ScopeGate (StoredDesktopSqlPayload loadProposal)

/-- The entry points: the four that run an operation, and the loads of a catalog. -/
inductive Entry
  | sql
  | script
  | document
  | role
  | load
  deriving DecidableEq

/-- What a run was told and has done. -/
structure Trail where
  entry : Entry
  operationId : Uuid
  planned : Option OperationRecord := none
  pin : Option PinnedConnection := none
  settings : Option SafetySettings := none
  claimed : Bool := false
  handles : ℕ := 0
  interrupted : Bool := false
  sent : List Message := []
  answered : List Message := []
  finishes : List OperationState := []

namespace Trail

/-- A call and its answer, remembered. -/
def next (t : Trail) : (c : Call) → c.Answer → Trail
  | .getOperation _, answer => match (answer : AppResult OperationRecord) with
      | .ok planned => { t with planned }
      | .error _ => t
  | .pinConnection _, answer => match (answer : AppResult PinnedConnection) with
      | .ok pin => { t with pin }
      | .error _ => t
  | .getSafety _, answer => match (answer : AppResult SafetySettings) with
      | .ok settings => { t with settings }
      | .error _ => t
  | .claim _, answer => match (answer : AppResult ClaimedOperation) with
      | .ok _ => { t with claimed := true }
      | .error _ => t
  | .finish _ target _, _ => { t with finishes := t.finishes ++ [target] }
  | .register _, _ => { t with handles := t.handles + 1 }
  | .release _, _ => { t with handles := t.handles - 1 }
  | .isCancelled _, answer => { t with interrupted := t.interrupted || (answer : Bool) }
  | .send _ message, answer => match (answer : Except Interrupt Unit) with
      | .ok () => { t with sent := t.sent ++ [message] }
      | .error cause => { t with interrupted := t.interrupted || cause = .cancelled }
  | .receive _ message, answer => match (answer : Except Interrupt (AppResult Reply)) with
      | .ok (.ok _) => { t with answered := t.answered ++ [message] }
      | .ok (.error _) => t
      | .error cause => { t with interrupted := t.interrupted || cause = .cancelled }
  | _, _ => t

end Trail

/-! ### What a proposal prescribes -/

section

variable (x : Crates) (parseSql : Engine → String → Except String (List Statement))
  (debug : String → String)

/-- All that `run_desktop_sql` checks before its claim. -/
structure SqlPlan (planned : OperationRecord) (p : PreparedSql) : Prop where
  payload : loadProposal planned = .ok ⟨p.sql, p.historyOrigin⟩
  scope : ensureOperationScope planned p.pin = .ok ()
  policy : checkProposal x parseSql planned ⟨p.sql, p.historyOrigin⟩ p.pin p.settings =
    .ok p.classification
  gate : ∀ reason, decide p.settings p.classification ≠ .block reason

/-- All that `run_desktop` of a script checks before its claim. -/
structure ScriptPlan (planned : OperationRecord) (p : Script.PreparedScriptRun) : Prop where
  payload : Script.loadScript planned = .ok p.payload
  scope : ensureOperationScope planned p.pin = .ok ()
  policy : Script.checkScript x parseSql p.operationId planned p.payload p.pin p.settings = .ok p

/-- All that `run_desktop_read` of a document checks before its claim. -/
structure DocumentPlan (planned : OperationRecord) (p : Document.PreparedRead) : Prop where
  payload : Document.loadRead planned = .ok ⟨p.query, p.historyOrigin⟩
  scope : ensureOperationScope planned p.pin = .ok ()
  policy : Document.checkRevision x planned p.pin p.settings = .ok ()
  gate : Services.Document.desktopBlockedReason p.settings (Mongo.classify debug p.query) = none

/-- All that `run_postgres_role` checks before its claim. -/
structure RolePlan (planned : OperationRecord) (settings : SafetySettings)
    (p : Monitoring.PreparedRole) : Prop where
  payload : Monitoring.loadRole planned = .ok p.payload
  scope : Monitoring.checkPin planned p.pin = .ok ()
  policy : Monitoring.checkSettings x planned p.pin settings = .ok ()

/-- What a run that was told `planned`, `pin` and `settings` may send in all, and whether that
completes the proposal. -/
inductive Prescribed (id : Uuid) (planned : OperationRecord) (pin : PinnedConnection)
    (settings : SafetySettings) : Entry → List Message → Bool → Prop
  | sqlRead {p : PreparedSql} (hplan : SqlPlan x parseSql planned p) (hid : p.operationId = id)
      (hpin : p.pin = pin) (hsettings : p.settings = settings)
      (hkind : p.classification.kind = .read) :
      Prescribed id planned pin settings .sql
        [p.message .read (.fetch p.sql settings.maxRows)] true
  | sqlWrite {p : PreparedSql} (hplan : SqlPlan x parseSql planned p) (hid : p.operationId = id)
      (hpin : p.pin = pin) (hsettings : p.settings = settings)
      (hkind : p.classification.kind ≠ .read) :
      Prescribed id planned pin settings .sql
        [p.message .write .begin, p.message .write (.execute p.sql), p.message .write .commit]
        true
  | scriptReads {p : Script.PreparedScriptRun} (hplan : ScriptPlan x parseSql planned p)
      (hid : p.operationId = id) (hpin : p.pin = pin) (hsettings : p.settings = settings)
      (hreads : Script.scriptHasWrite p.kinds = false) :
      Prescribed id planned pin settings .script (p.statements.map fun statement =>
        p.message .read .read (.fetch statement settings.maxRows)) true
  | scriptCommit {p : Script.PreparedScriptRun} (hplan : ScriptPlan x parseSql planned p)
      (hid : p.operationId = id) (hpin : p.pin = pin) (hsettings : p.settings = settings)
      (hwrites : Script.scriptHasWrite p.kinds = true) :
      Prescribed id planned pin settings .script
        (p.message p.scriptKind .write .begin ::
          (p.statements.map fun statement =>
            p.message p.scriptKind .write (.execute statement)) ++
          [p.message p.scriptKind .write .commit]) true
  | scriptRollback {p : Script.PreparedScriptRun} (hplan : ScriptPlan x parseSql planned p)
      (hid : p.operationId = id) (hpin : p.pin = pin) (hsettings : p.settings = settings)
      (hwrites : Script.scriptHasWrite p.kinds = true) (k : ℕ) :
      Prescribed id planned pin settings .script
        (p.message p.scriptKind .write .begin ::
          ((p.statements.take k).map fun statement =>
            p.message p.scriptKind .write (.execute statement)) ++
          [p.message p.scriptKind .write .rollback]) false
  | document {p : Document.PreparedRead} (hplan : DocumentPlan x debug planned p)
      (hid : p.operationId = id) (hpin : p.pin = pin) (hsettings : p.settings = settings) :
      Prescribed id planned pin settings .document [p.message] true
  | role {p : Monitoring.PreparedRole} (hplan : RolePlan x planned settings p)
      (hid : p.operationId = id) (hpin : p.pin = pin) :
      Prescribed id planned pin settings .role
        [p.message .write (.execute (Monitoring.monitoringRoleSql p.payload.enabled))] true
  | status {p : Monitoring.PreparedRole} (hplan : RolePlan x planned settings p)
      (hid : p.operationId = id) (hpin : p.pin = pin) :
      Prescribed id planned pin settings .role
        [p.message .write (.execute (Monitoring.monitoringRoleSql p.payload.enabled)),
          p.message .read .status] false

/-- The messages are the beginning of what the run was told to send. -/
def Trail.Sends (t : Trail) (messages : List Message) : Prop :=
  ∃ planned pin settings d complete, t.planned = some planned ∧ t.pin = some pin ∧
    t.settings = some settings ∧
    Prescribed x parseSql debug t.operationId planned pin settings t.entry d complete ∧
    messages <+: d

/-- The messages are all that the run was told to send. -/
def Trail.Completes (t : Trail) (messages : List Message) : Prop :=
  ∃ planned pin settings, t.planned = some planned ∧ t.pin = some pin ∧
    t.settings = some settings ∧
    Prescribed x parseSql debug t.operationId planned pin settings t.entry messages true

/-! ### What a run may do -/

/-- A value of the details of a report: small. -/
def BriefValue : Value → Prop
  | .null | .bool _ => True
  | .number n => ∃ k : ℕ, k < 2 ^ 64 ∧ n = .int k
  | .string s => s.utf8ByteSize ≤ 64
  | .array _ | .object _ => False

/-- Details of a report that are small, whatever the run met. -/
def Brief (details : Value) : Prop :=
  ∃ entries, details = .object entries ∧ entries.length ≤ 3 ∧
    ∀ e ∈ entries, e.1.utf8ByteSize ≤ 64 ∧ BriefValue e.2

/-- What a run may do at a call, given its answer: it loads and checks its proposal before it
claims, claims once, sends what is prescribed and nothing without a claim, and reports a success where all of it
was acknowledged and a cancel where one was signalled. `run_desktop_sql` holds a handle from its
claim to its report. -/
def Trail.Allows (t : Trail) : (c : Call) → c.Answer → Prop
  | .getOperation id, _ => t.claimed = false ∧ id = t.operationId
  | .pinConnection _, _ | .getSafety _, _ => t.claimed = false
  | .claim id, _ => t.claimed = false ∧ id = t.operationId ∧ (t.entry = .sql → 0 < t.handles) ∧
      t.Sends x parseSql debug []
  | .finish id target details, _ => t.claimed = true ∧ id = t.operationId ∧
      allowed .executing target = true ∧ (t.entry = .sql → 0 < t.handles) ∧
      (t.entry = .sql ∨ t.entry = .document → Brief details) ∧
      (target = .succeeded → t.Completes x parseSql debug t.answered) ∧
      (target = .cancelled → t.interrupted = true)
  | .register id, _ => id = t.operationId
  | .release id, _ => id = t.operationId ∧ 0 < t.handles ∧
      (t.entry = .sql → t.claimed = true → t.finishes ≠ [])
  | .isCancelled id, _ => id = t.operationId
  | .send handle message, answer => (∀ id ∈ handle, id = t.operationId) ∧
      ((answer : Except Interrupt Unit) = .ok () → t.claimed = true ∧
        message.operationId = some t.operationId ∧
        t.Sends x parseSql debug (t.sent ++ [message]))
  | .receive handle message, _ => (∀ id ∈ handle, id = t.operationId) ∧ t.claimed = true ∧
      message.operationId = some t.operationId
  | _, _ => True

/-- What a call can be answered: the errors of a target are its own, and its numbers in range. -/
def Answerable : (c : Call) → c.Answer → Prop
  | .receive _ _, answer => match (answer : Except Interrupt (AppResult Reply)) with
      | .ok (.ok reply) => reply.InRange
      | .ok (.error error) => TargetError error
      | .error _ => True
  | _, _ => True

/-- The monitor of a run. -/
def monitor : Monitor Call Call.Answer Trail where
  may := Answerable
  next := Trail.next
  allows := Trail.Allows x parseSql debug

end

end Runs
end AgentDb
