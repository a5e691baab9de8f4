import AgentDb.Operations.Run
import AgentDb.Runs.Catalog
import AgentDb.Runs.Script
import AgentDb.Runs.Single

/-!
# What the calls do

The state that all tasks share: the ledger of operations, the store, the registry of cancellation
handles, and what the target has been sent. Calls of the ledger and of the store are answered by
the models of these; what the pools, the target and the network answer is up to them. A read of
SQLite may fail, and so may a write to the ledger where `fails` holds. A guard that is signalled
ends its request, unless it had looked at the signal before it came. Beside all this stands what
only the target knows: the state of its schema and which statements have taken effect on it, each
at some time after it was sent.
-/

namespace AgentDb
namespace Runs

open Connection Executor Operations Protocol Store

/-! ### The state -/

/-- `CancelSlot`. -/
structure Slot where
  handles : ℕ
  signalled : Bool

/-- The key of a cached catalog. -/
abbrev CatalogKey := Uuid × String × Uuid

/-- The schema of the target of a connection. `version` counts its changes, `effects` says which
change was the last of an operation, and `due` is the newest change that the cache has been told
of: it was cleared after it, or the operation ended with its outcome unknown. -/
structure Schema where
  version : ℕ := 0
  effects : Uuid → ℕ := fun _ => 0
  due : ℕ := 0

/-- The state all tasks share. -/
structure World where
  tables : Tables
  db : Database
  registry : Uuid → Option Slot := fun _ => none
  /-- The operations a cancel was signalled for. -/
  signals : List Uuid := []
  sent : List Message := []
  completed : List Message := []
  /-- The operations with a statement on its way. -/
  underway : Uuid → List Message := fun _ => []
  schema : Uuid → Schema := fun _ => {}
  /-- The state of the target in which the catalog of a row was introspected. -/
  cachedSince : CatalogKey → ℕ := fun _ => 0

namespace World

variable (s : World)

/-! ### The registry -/

/-- `register`. -/
def register (id : Uuid) : World :=
  let slot : Slot := match s.registry id with
    | none => ⟨1, false⟩
    | some slot => { slot with handles := slot.handles + 1 }
  { s with registry := Function.update s.registry id (some slot) }

/-- The drop of a handle. -/
def release (id : Uuid) : World :=
  let slot := (s.registry id).bind fun slot =>
    if slot.handles > 1 then some { slot with handles := slot.handles - 1 } else none
  { s with registry := Function.update s.registry id slot }

/-- `cancel`: whether a query was registered, and the signal. -/
def cancel (id : Uuid) : Bool × World :=
  match s.registry id with
  | none => (false, s)
  | some slot => (true,
      { s with
        registry := Function.update s.registry id (some { slot with signalled := true })
        signals := id :: s.signals })

/-- The signal of a slot. -/
def isSignalled (id : Uuid) : Bool := (s.registry id).any (·.signalled)

/-- The signal a guard looks at. -/
def interrupts (handle : Option Uuid) : Bool := handle.any s.isSignalled

/-! ### The target -/

/-- A request goes out. -/
def send (m : Message) : World :=
  { s with
    sent := s.sent ++ [m]
    underway := match m.operationId with
      | none => s.underway
      | some id => Function.update s.underway id (m :: s.underway id) }

/-- A request is acknowledged: what it does is done. -/
def acknowledge (m : Message) : World :=
  { s with
    completed := s.completed ++ [m]
    underway := match m.operationId with
      | none => s.underway
      | some id => Function.update s.underway id [] }

/-- A statement of the operation changes the schema of its target. -/
def takeEffect (operationId connectionId : Uuid) : World :=
  let schema := s.schema connectionId
  let unknown := s.tables.operations.any fun row =>
    row.id = operationId ∧ row.state = .outcomeUnknown
  let changed : Schema :=
    { version := schema.version + 1
      effects := Function.update schema.effects operationId (schema.version + 1)
      due := if unknown then schema.version + 1 else schema.due }
  { s with schema := Function.update s.schema connectionId changed }

/-- The operation is recorded with its outcome unknown: whatever it did, it did before. -/
def recordUnknown (operationId : Uuid) : World :=
  let told : Schema → Schema := fun schema =>
    { schema with due := max schema.due (schema.effects operationId) }
  { s with schema := fun id => told (s.schema id) }

/-- A run has had the schema cache of its connection cleared. -/
def recordCleared (operationId : Option Uuid) (connectionId : Uuid) : World :=
  match operationId with
  | none => s
  | some id =>
      let schema := s.schema connectionId
      let cleared : Schema := { schema with due := max schema.due (schema.effects id) }
      { s with schema := Function.update s.schema connectionId cleared }

end World

/-- What a driver or the target fails with: the texts of `Safety` are the guard's alone. -/
inductive TargetError : AppError → Prop
  | db (error : String) : TargetError (.db error)
  | mongo (error : String) : TargetError (.mongo error)
  | config (message : String) : TargetError (.config message)

/-! ### The calls -/

/-- A read of SQLite finds the value, or fails. -/
def Reads {α : Type} (value answer : AppResult α) : Prop :=
  answer = value ∨ ∃ error, answer = .error error

section

variable (x : Crates) (runtimeId : Uuid) (sha256 : List UInt8 → Vector UInt8 32)
  (accepts : Tables → Uuid → Uuid → Prop) (fails : Prop)

/-- What a call does and is answered. `accepts` is what SQLite asks of the identifier of a new
event, and `fails` says that it may fail to write one all the same. -/
def World.answers (s : World) : (c : Call) → c.Answer → World → Prop
  | .getOperation id, answer, s' => s' = s ∧ Reads (s.tables.get x id) answer
  | .claim id, answer, s' =>
      (fails ∧ (∃ error, answer = .error error) ∧ s' = s) ∨
        ∃ now eventId tables, accepts s.tables id eventId ∧
          claim x runtimeId id now eventId s.tables = (answer, tables) ∧ s' = { s with tables }
  | .finish id target details, answer, s' =>
      (fails ∧ (∃ error, answer = .error error) ∧ s' = s) ∨
        ∃ now eventId tables, accepts s.tables id eventId ∧
          finish x runtimeId id target details now eventId s.tables = (answer, tables) ∧
          s' = if target = .outcomeUnknown ∧ answer.toBool then
            { s with tables }.recordUnknown id else { s with tables }
  | .beginOperationScope, _, s' => s' = s
  | .pinConnection id, answer, s' => s' = s ∧ Reads (s.db.pinConnectionWithAccess id true) answer
  | .getSafety id, answer, s' => s' = s ∧ Reads (s.db.getSafety id) answer
  | .audit _, _, s' => s' = s
  | .recordRun pin _, _, s' => ∃ entry,
      s' = s ∨ s' = { s with db := Services.ScopeGate.recordDesktopRun pin entry s.db }
  | .register id, _, s' => s' = s.register id
  | .release id, _, s' => s' = s.release id
  | .isCancelled id, answer, s' => s' = s ∧ answer = s.isSignalled id
  | .connect _ _, _, s' => s' = s
  | .backend _, _, s' => s' = s
  | .send handle m, answer, s' =>
      s.interrupts handle ∧ answer = .error .cancelled ∧ s' = s ∨
        answer = .error .timedOut ∧ s' = s ∨ answer = .ok () ∧ s' = s.send m
  | .receive handle m, answer, s' =>
      s.interrupts handle ∧ answer = .error .cancelled ∧ s' = s ∨
        answer = .error .timedOut ∧ s' = s ∨
        (∃ error, TargetError error ∧ answer = .ok (.error error) ∧ s' = s) ∨
        ∃ reply : Reply, reply.InRange ∧ answer = .ok (.ok reply) ∧ s' = s.acknowledge m
  | .pin id access, answer, s' => s' = s ∧
      ∃ authority, Reads (Connection.pin s.db id access authority) answer
  | .getCatalog pin, answer, s' => s' = s ∧
      Reads (.ok ((getCatalogIfCurrent sha256 pin s.db).map fun snapshot =>
        ⟨snapshot, s.cachedSince pin.catalogKey⟩)) answer
  | .putCatalog pin catalog, answer, s' =>
      (∃ error, answer = .error error ∧ s' = s) ∨ ∃ outcome db, answer = .ok outcome ∧
        putCatalogIfCurrent sha256 pin catalog.snapshot s.db = .ok (outcome, db) ∧
        s' = { s with
          db
          cachedSince := if outcome = .stored then
            Function.update s.cachedSince pin.catalogKey catalog.since else s.cachedSince }
  | .clearSchemaCache operationId id, answer, s' =>
      (∃ error, answer = .error error ∧ s' = s) ∨ ∃ db, answer = .ok () ∧
        Store.clearSchemaCache id s.db = .ok db ∧
        s' = { s with db }.recordCleared operationId id
  | .beginIntrospection id, answer, s' => s' = s ∧ answer = (s.schema id).version
  | .endIntrospection _ since, answer, s' => s' = s ∧
      ((∃ error, answer = .error error) ∨ ∃ catalog : Introspected, answer = .ok catalog ∧
        catalog.since = since)

end

/-! ### What goes on beside the tasks -/

/-- The calls of the ledger that plan, decide and withdraw operations. -/
def Withdraws : Operations.Call → Prop
  | .insertPlanned _ _ _ _ | .decideApproval _ _ _ => True
  | .transition _ _ target _ _ _ =>
      target = .ready ∨ target = .pendingApproval ∨ target = .cancelled
  | .appendProgress _ _ _ _ _ | .claimExecution _ _ _ _ | .recoverPreviousRuntimes _ _ _ => False

/-- The operation a call of the ledger cancels. -/
def cancels : Operations.Call → List Uuid
  | .transition id _ .cancelled _ _ _ => [id]
  | _ => []

/-- What happens to the state besides the answers of tasks: cancels are signalled, operations are
planned, decided and withdrawn, and statements under way take effect. -/
inductive World.Environment (x : Crates) : World → World → Prop
  | cancel (s : World) (id : Uuid) : Environment x s (s.cancel id).2
  | ledger (s : World) (call : Operations.Call) (hcall : Withdraws call) :
      Environment x s { s with
        tables := call.apply x s.tables
        signals := cancels call ++ s.signals }
  | takeEffect (s : World) (id : Uuid) (m : Message) (hunderway : m ∈ s.underway id)
      (hddl : m.kind = .ddl) : Environment x s (s.takeEffect id m.connectionId)

end Runs
end AgentDb
