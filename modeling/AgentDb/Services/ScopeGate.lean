import AgentDb.Connection.Access
import AgentDb.Lib.RwLock
import AgentDb.Safety.Gate
import AgentDb.Services.OperationService
import AgentDb.Store.ScopeRun

/-!
# Runs and mutations at the scope gate

`run_desktop_sql` of `services/query_service.rs` holds the read side of the gate of
`connection/runtime.rs` from its pin to its return; whatever changes the active scope, a
connection or its safety settings holds the write side. A task goes from one await to the next,
and any other task may go in between. What the control plane, the ledger, the audit log and the
target answer is part of the move. Runs may fail wherever the code can.
-/

namespace AgentDb
namespace Services
namespace ScopeGate

open Connection Json Operations Safety Store

/-! ### The proposal and its policy check -/

/-- `StoredDesktopSqlPayload`. -/
structure StoredDesktopSqlPayload where
  sql : String
  historyOrigin : String
  deriving DecidableEq

/-- `serde_json::from_value` of the payload, which denies unknown fields. -/
def StoredDesktopSqlPayload.fromValue : Value → AppResult StoredDesktopSqlPayload
  | .object entries => do
      refuseIf (entries.any fun e => e.1 ∉ ["sql", "historyOrigin"])
        (.serialization "unknown field")
      match entries.lookup "sql", entries.lookup "historyOrigin" with
      | some (.string sql), some (.string historyOrigin) => pure ⟨sql, historyOrigin⟩
      | _, _ => throw (.serialization "missing or invalid field")
  | _ => .error (.serialization "invalid type for the payload")

/-- What `run_desktop_sql` takes from the stored record before it asks for the gate. -/
def loadProposal (planned : OperationRecord) : AppResult StoredDesktopSqlPayload := do
  refuseIf (planned.payloadSchemaVersion ≠ 1 ∨
      planned.kind ∉ [OperationKind.readQuery, .writeSql, .ddl, .privilege])
    (.blocked "operation is not a supported desktop SQL proposal")
  StoredDesktopSqlPayload.fromValue planned.payload

/-- What the policy check of a run has found. -/
structure PolicyCheck where
  pin : PinnedConnection
  settings : SafetySettings
  classification : Classification

def PolicyCheck.isWrite (c : PolicyCheck) : Bool := c.classification.kind ≠ .read

def PolicyCheck.access (c : PolicyCheck) : ConnectionAccess :=
  if c.isWrite then .write else .read

section

variable (x : Crates) (parseSql : Engine → String → Except String (List Statement))

/-- The pin of a run, in the scope of its proposal. -/
def pinProposal (planned : OperationRecord) (db : Database) : AppResult PinnedConnection := do
  let pin ← db.pinConnectionWithAccess planned.connectionId true
  ensureOperationScope planned pin
  pure pin

/-- The checks between the pin and the claim. -/
def checkPolicy (planned : OperationRecord) (payload : StoredDesktopSqlPayload)
    (pin : PinnedConnection) (db : Database) : AppResult PolicyCheck := do
  let settings ← db.getSafety pin.connectionId
  refuseIf ((capturePolicy x pin settings).revision ≠ planned.policyRevision)
    (.blocked "the connection or safety policy changed; create a new proposal")
  let classification ← classify parseSql payload.sql pin.profile.engine
  refuseIf (operationKind classification.kind ≠ planned.kind)
    (.blocked "stored SQL classification no longer matches its immutable proposal")
  let access := pin.profile.workspaceAccess
  refuseIf (¬ if classification.kind ≠ .read then access.canWrite else access.canRead)
    (.blocked "your workspace role no longer grants this database access")
  match decide settings classification with
  | .block reason => throw (.blocked reason)
  | .autoRun | .requireApproval => pure ⟨pin, settings, classification⟩

/-! ### Runs -/

/-- Where a run stands between its policy check and its return. -/
inductive Point
  | checked
  | claimed
  | audited
  | authorized
  | current
  | leased
  | succeeding
  | failing
  | returning
  deriving DecidableEq

/-- The state of a run. A run that could not connect has lost the gate with the context. -/
inductive Stage
  | waiting
  | entered
  | pinned (pin : PinnedConnection)
  | blocked (pin : PinnedConnection)
  | inside (c : PolicyCheck) (p : Point)
  | refused (c : PolicyCheck)
  | ended

/-- The stage holds the read side of the gate. -/
def Stage.holds : Stage → Bool
  | .entered | .pinned _ | .blocked _ | .inside _ _ => true
  | .waiting | .refused _ | .ended => false

/-- An execution of `run_desktop_sql`. It has `sent` a statement to the target, has `recorded` its
terminal state, or `gaveUp` when the last receipt it attempts has failed. -/
structure Run where
  planned : OperationRecord
  payload : StoredDesktopSqlPayload
  stage : Stage
  sent : Bool
  recorded : Bool
  gaveUp : Bool

/-- A move of a run, with the answer it gets from outside. -/
inductive RunMove
  | pin
  | check
  | claim (ok : Bool)
  | cancelled
  | audit (ok : Bool)
  | authorize (answer : AppResult ℤ)
  | confirmPin (ok : Bool)
  | connect (ok : Bool)
  | send
  | answer (ok : Bool)
  | receipt (ok : Bool)
  | clearSchemaCache
  | record (entry : HistoryEntry)
  | return_

def Run.at (r : Run) (stage : Stage) : Run := { r with stage }

/-- `record_desktop_run`, which nothing waits on. -/
def recordDesktopRun (pin : PinnedConnection) (entry : HistoryEntry) (db : Database) : Database :=
  match insertHistoryIfCurrent pin entry db with
  | .ok db' => db'
  | .error _ => db

/-- `let _ = clear_schema_cache`. -/
def tryClearSchemaCache (id : Uuid) (db : Database) : Database :=
  match Store.clearSchemaCache id db with
  | .ok db' => db'
  | .error _ => db

/-- The moves between the policy check and the return. -/
def Run.insideStep (move : RunMove) (db : Database) (r : Run) (c : PolicyCheck) :
    Point → Option (Run × Database) := fun p =>
  match p, move with
  | .checked, .claim ok => some (r.at (if ok then .inside c .claimed else .ended), db)
  | .claimed, .cancelled => some (r.at (.inside c .failing), db)
  | .claimed, .audit ok =>
      if c.isWrite then some (r.at (.inside c (if ok then .audited else .failing)), db) else none
  | .claimed, .authorize answer =>
      if c.isWrite then none
      else match authorizePin c.pin c.access answer with
        | .ok _ => some (r.at (.inside c .authorized), db)
        | .error _ => some (r.at (.refused c), db)
  | .audited, .authorize answer =>
      match authorizePin c.pin c.access answer with
      | .ok _ => some (r.at (.inside c .authorized), db)
      | .error _ => some (r.at (.refused c), db)
  | .authorized, .confirmPin ok =>
      some (r.at (if ok && db.isPinCurrent c.pin then .inside c .current else .refused c), db)
  | .current, .connect ok => some (r.at (if ok then .inside c .leased else .refused c), db)
  | .leased, .send => some ({ r with sent := true }, db)
  | .leased, .answer ok => some (r.at (.inside c (if ok then .succeeding else .failing)), db)
  | .succeeding, .receipt true =>
      some ({ r.at (.inside c .returning) with recorded := true }, db)
  -- a success that cannot be recorded is recorded as unknown or failed instead
  | .succeeding, .receipt false => some (r.at (.inside c .failing), db)
  | .failing, .receipt true => some ({ r.at (.inside c .returning) with recorded := true }, db)
  | .failing, .receipt false => some ({ r.at (.inside c .returning) with gaveUp := true }, db)
  | .returning, .clearSchemaCache =>
      if c.classification.kind = .ddl then some (r, tryClearSchemaCache c.pin.connectionId db)
      else none
  | .returning, .record entry => some (r, recordDesktopRun c.pin entry db)
  | .returning, .return_ => some (r.at .ended, db)
  | _, _ => none

/-- One move of a run. -/
def Run.step (move : RunMove) (db : Database) (r : Run) : Option (Run × Database) :=
  match r.stage, move with
  | .entered, .pin =>
      match pinProposal r.planned db with
      | .ok pin => some (r.at (.pinned pin), db)
      | .error _ => some (r.at .ended, db)
  | .pinned pin, .check =>
      match checkPolicy x parseSql r.planned r.payload pin db with
      | .ok c => some (r.at (.inside c .checked), db)
      | .error _ => some (r.at (.blocked pin), db)
  | .blocked pin, .record entry => some (r, recordDesktopRun pin entry db)
  | .blocked _, .return_ => some (r.at .ended, db)
  | .inside c p, move => r.insideStep move db c p
  | .refused c, .record entry => some (r, recordDesktopRun c.pin entry db)
  | .refused _, .receipt ok => some ({ r with recorded := ok }, db)
  | .refused _, .return_ => some (r.at .ended, db)
  | _, _ => none

/-! ### Mutations -/

/-- `normalize_schema_group`. -/
def normalizeSchemaGroup (schemaGroup : Option String) : Option String :=
  (schemaGroup.map trim).filter (· ≠ "")

/-- A call that changes what a policy is captured from, with the times it reads and the reference
of the credential it has stored. -/
inductive Mutation
  | safetyUpdate (id : Uuid) (settings : SafetySettings)
  | upsert (now : DateTime) (profile : ConnectionProfile) (secretRef : Option String)
  | setSchemaGroup (now : DateTime) (ids : List Uuid) (schemaGroup : Option String)
  | delete (now : DateTime) (id : Uuid)
  | bindConnectionCredentials (now : DateTime) (id : Uuid) (username secretRef : String)
  | activateWorkspace (now : DateTime) (id : Uuid) (account : Option UserId)
  | activateWorkspaceAccount (now : DateTime) (user : UserId)
  | removeWorkspaceAccount (now : DateTime) (user : UserId)
  | syncAccountWorkspaces (remembered now : DateTime) (user : WorkspaceAuthUser)
      (workspaces : List (Uuid × String × WorkspaceRole))
  | syncRemoteConnections (now : DateTime) (workspaceId : Uuid) (user : UserId)
      (listing : List (ConnectionProfile × ℤ))

/-- What a call does before it asks for the gate, unless that ends it. -/
def Mutation.prepare (m : Mutation) (db : Database) : Option Mutation :=
  match m with
  | .safetyUpdate id settings =>
      match db.getConnection id with
      | .ok profile =>
          let allowWrites := settings.allowWrites && profile.workspaceAccess.canWrite
          some (.safetyUpdate id { settings with allowWrites })
      | .error _ => none
  | .upsert now profile secretRef =>
      if profile.workspaceAccess = .local_ then
        let schemaGroup := normalizeSchemaGroup profile.schemaGroup
        some (.upsert now { profile with schemaGroup } secretRef)
      else none
  | .setSchemaGroup now ids schemaGroup =>
      if ids = [] then none
      else some (.setSchemaGroup now ids.eraseDups (normalizeSchemaGroup schemaGroup))
  | m => some m

/-- The connection that `begin_connection_mutation` pins, and the access it asks for. -/
def Mutation.target : Mutation → Option (Uuid × ConnectionAccess)
  | .safetyUpdate id settings => some (id, if settings.allowWrites then .write else .read)
  | .delete _ id => some (id, .read)
  | .bindConnectionCredentials _ id _ _ => some (id, .read)
  | _ => none

/-- `begin_connection_mutation`, once it has the gate. -/
def beginConnectionMutation (id : Uuid) (access : ConnectionAccess) (answer : AppResult ℤ)
    (db : Database) : AppResult PinnedConnection := do
  let pin ← db.pinConnectionWithAccess id true
  authorizePin pin access answer
  refuseIf (¬ db.isPinCurrent pin) scopeChanged
  pure pin

/-- The limits of `SafetyService::update`. -/
def clampSettings (s : SafetySettings) : SafetySettings :=
  { s with
    maxRows := max 1 (min s.maxRows 100000)
    execPreviewRowLimit := max 0 (min s.execPreviewRowLimit 1000000) }

/-- The profile that `ConnectionService::upsert` saves: a reference in the request is not
trusted, the stored one is kept unless a new credential was stored. -/
def savedProfile (profile : ConnectionProfile) (secretRef : Option String) (db : Database) :
    ConnectionProfile :=
  { profile with
    secretRef := secretRef <|> (db.getConnection profile.id).toOption.bind (·.secretRef) }

/-- The transactions of a call that has the gate, and a pin if it took one. -/
def Mutation.body : Mutation → Option PinnedConnection → List (Database → AppResult Database)
  | .safetyUpdate id settings, _ => [setSafety id (clampSettings settings)]
  | .upsert now profile secretRef, _ =>
      [fun db => upsertConnection now (savedProfile profile secretRef db) db,
        fun db => .ok (tryClearSchemaCache profile.id db)]
  | .setSchemaGroup now ids schemaGroup, _ =>
      [fun db => do
        ids.forM fun id => do
          let profile ← db.getConnection id
          refuseIf (profile.workspaceAccess ≠ .local_)
            (.blocked "shared template metadata must be changed through the workspace service")
        setConnectionsSchemaGroup now ids schemaGroup db]
  | .delete now id, pin =>
      [fun db => do
        refuseIf (pin.any fun pin => pin.profile.workspaceAccess ≠ .local_)
          (.blocked "shared connections can only be removed by a workspace administrator")
        deleteConnection now id db]
  | .bindConnectionCredentials now id username secretRef, pin =>
      [fun db =>
        match pin.bind fun pin => pin.scope.selectedAccountId.map (pin.profile, ·) with
        | none => .error (.config "no active workspace account")
        | some (profile, user) => do
            refuseIf (profile.workspaceAccess = .local_)
              (.config "connection is not a shared workspace template")
            Store.bindConnectionCredentials now id user username profile.extraParams
              (some secretRef) db]
  | .activateWorkspace now id account, _ => (Call.activateWorkspace now id account).transactions
  | .activateWorkspaceAccount now user, _ => (Call.activateWorkspaceAccount now user).transactions
  | .removeWorkspaceAccount now user, _ => (Call.removeWorkspaceAccount now user).transactions
  | .syncAccountWorkspaces remembered now user workspaces, _ =>
      (Call.syncAccountWorkspaces remembered now user workspaces).transactions
  | .syncRemoteConnections now workspaceId user listing, _ =>
      [Store.syncRemoteConnections now workspaceId user listing]

/-- The state of a mutation; `begun` holds the transactions still to come. -/
inductive MutationStage
  | prepared
  | waiting
  | entered
  | begun (rest : List (Database → AppResult Database))
  | ended

/-- The stage holds the write side of the gate. -/
def MutationStage.holds : MutationStage → Bool
  | .entered | .begun _ => true
  | .prepared | .waiting | .ended => false

/-- A move of a mutation. Its checks only read, and any of them may end it while it has the
gate. -/
inductive MutationMove
  | begin_ (answer : AppResult ℤ)
  | commit
  | fail
  | finish

/-- One move of a mutation that has the gate. -/
def Mutation.step (m : Mutation) (move : MutationMove) (db : Database) :
    MutationStage → Option (MutationStage × Database) := fun stage =>
  match stage, move with
  | .entered, .begin_ answer =>
      match m.target with
      | none => some (.begun (m.body none), db)
      | some (id, access) =>
          match beginConnectionMutation id access answer db with
          | .ok pin => some (.begun (m.body (some pin)), db)
          | .error _ => some (.ended, db)
  | .begun (transaction :: rest), .commit =>
      match transaction db with
      | .ok db' => some (.begun rest, db')
      | .error _ => some (.ended, db)
  | .entered, .fail | .begun _, .fail => some (.ended, db)
  | .begun [], .finish => some (.ended, db)
  | _, _ => none

/-! ### The system -/

/-- What a task is doing. -/
inductive Task
  | idle
  | run (r : Run)
  | mutation (m : Mutation) (stage : MutationStage)

/-- The store, the gate and the tasks. -/
structure System where
  db : Database
  gate : RwLock ℕ
  task : ℕ → Task

def System.setTask (s : System) (t : ℕ) (task : Task) : System :=
  { s with task := Function.update s.task t task }

/-- A step of the system. -/
inductive Label
  | run (t : ℕ) (planned : OperationRecord)
  | mutate (t : ℕ) (m : Mutation)
  | request (t : ℕ)
  | grant (t : ℕ)
  | move (t : ℕ) (move : RunMove)
  | change (t : ℕ) (move : MutationMove)

/-- The task has the gate and goes on. -/
def Task.enter : Task → Option Task
  | .run r =>
      match r.stage with
      | .waiting => some (.run (r.at .entered))
      | _ => none
  | .mutation m .waiting => some (.mutation m .entered)
  | _ => none

/-- A step of the system; a step that nobody can take is an error and changes nothing. -/
def System.step (label : Label) (s : System) : Except Unit System :=
  match label with
  | .run t planned =>
      match s.task t, loadProposal planned with
      | .idle, .ok payload =>
          .ok ({ s with gate := s.gate.request t .read }.setTask t
            (.run ⟨planned, payload, .waiting, false, false, false⟩))
      | _, _ => .error ()
  | .mutate t m =>
      match s.task t, m.prepare s.db with
      | .idle, some m => .ok (s.setTask t (.mutation m .prepared))
      | _, _ => .error ()
  | .request t =>
      match s.task t with
      | .mutation m .prepared =>
          .ok ({ s with gate := s.gate.request t .write }.setTask t (.mutation m .waiting))
      | _ => .error ()
  | .grant t =>
      match s.gate.grant t, (s.task t).enter with
      | some gate, some task => .ok ({ s with gate }.setTask t task)
      | _, _ => .error ()
  | .move t move =>
      match s.task t with
      | .run r =>
          match r.step x parseSql move s.db with
          | some (r', db) =>
              let gate := if r.stage.holds && !r'.stage.holds then s.gate.release t else s.gate
              .ok ({ s with db, gate }.setTask t (.run r'))
          | none => .error ()
      | _ => .error ()
  | .change t move =>
      match s.task t with
      | .mutation m stage =>
          match m.step move s.db stage with
          | some (stage', db) =>
              let gate := if stage'.holds then s.gate else s.gate.release t
              .ok ({ s with db, gate }.setTask t (.mutation m stage'))
          | none => .error ()
      | _ => .error ()

end

end ScopeGate
end Services
end AgentDb
