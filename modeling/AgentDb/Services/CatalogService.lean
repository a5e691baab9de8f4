import AgentDb.Services.ConnectionService

/-!
# Loading a catalog: `catalog_v2.rs` and `services/catalog_service.rs`

A load is authorized and pinned before the cache is read, and what it introspects is stored under
the same pin. A Terminal's load pins the connection once for its own authority and once more to
load it.
-/

namespace AgentDb
namespace Services

open Connection Protocol Store

/-- `CatalogReadMode`; `CatalogReadPolicy` is the same. -/
inductive CatalogReadMode
  | cacheFirst
  | liveNoCache
  | refresh
  deriving DecidableEq, Repr

/-- What a load meets outside the database: the control plane, the pool and the introspection of
the target, as `to_snapshot` writes it for the profile. -/
structure CatalogAnswers where
  authority : AppResult ℤ
  connect : ConnectAnswers
  introspect : ConnectionProfile → AppResult CatalogSnapshot

variable (sha256 : List UInt8 → Vector UInt8 32) (db : Database)

/-- The write-through of a load. -/
def writeThrough (pin : PinnedConnection) (snapshot : CatalogSnapshot) : AppResult Unit := do
  let (outcome, _) ← putCatalogIfCurrent sha256 pin snapshot db
  refuseIf (outcome = .stale)
    (.blocked "workspace or connection access changed; retry schema loading")

/-- The live part of `load_catalog_snapshot`. -/
def introspectSnapshot (pin : PinnedConnection) (mode : CatalogReadMode)
    (answers : CatalogAnswers) : AppResult CatalogSnapshot := do
  connect db pin .read answers.connect
  refuseIf (isBlank pin.profile.database) (.config "Catalog V2 requires an explicit database name")
  let snapshot ← answers.introspect pin.profile
  if mode ≠ .liveNoCache then writeThrough sha256 db pin snapshot
  pure snapshot

/-- `load_catalog_snapshot`. The database it leaves is not returned: nothing that follows in the
same call reads it. -/
def loadCatalogSnapshot (connectionId : Uuid) (mode : CatalogReadMode)
    (answers : CatalogAnswers) : AppResult CatalogSnapshot := do
  let pin ← pin db connectionId .read answers.authority
  match mode with
  | .cacheFirst =>
      match getCatalogIfCurrent sha256 pin db with
      | some snapshot => pure snapshot
      | none => introspectSnapshot sha256 db pin mode answers
  | .refresh => do
      let db ← clearSchemaCache connectionId db
      introspectSnapshot sha256 db pin mode answers
  | .liveNoCache => introspectSnapshot sha256 db pin mode answers

/-- `load_terminal_snapshot`. -/
def loadTerminalSnapshot (authority : TerminalAuthority) (mode : CatalogReadMode)
    (answer : AppResult ℤ) (answers : CatalogAnswers) : AppResult CatalogSnapshot := do
  let _ ← pinTerminal db authority answer
  loadCatalogSnapshot sha256 db authority.connectionId mode answers

/-! ### What a load learns of the other connections -/

section

variable {sha256} {db} {db' : Database} {id : Uuid} {p : PinnedConnection}

theorem writeThrough_shared (h : SharesConnection id db db') (hp : p.connectionId = id)
    (snapshot : CatalogSnapshot) :
    writeThrough sha256 db p snapshot = writeThrough sha256 db' p snapshot := by
  have hfst : ∀ db : Database, writeThrough sha256 db p snapshot =
      ((putCatalogIfCurrent sha256 p snapshot db).map Prod.fst).bind fun outcome =>
        refuseIf (outcome = .stale)
          (.blocked "workspace or connection access changed; retry schema loading") := by
    intro db
    unfold writeThrough
    cases putCatalogIfCurrent sha256 p snapshot db with
    | error e => rfl
    | ok written => rfl
  rw [hfst db, hfst db', h.putCatalogIfCurrent hp]

theorem introspectSnapshot_shared (h : SharesConnection id db db') (hp : p.connectionId = id)
    (mode : CatalogReadMode) (answers : CatalogAnswers) :
    introspectSnapshot sha256 db p mode answers = introspectSnapshot sha256 db' p mode answers := by
  unfold introspectSnapshot
  simp only [connect_shared h hp, writeThrough_shared h hp]

/-- What a cache-first load returns depends on its own connection only. -/
theorem loadCatalogSnapshot_shared (h : SharesConnection id db db') (answers : CatalogAnswers) :
    loadCatalogSnapshot sha256 db id .cacheFirst answers =
      loadCatalogSnapshot sha256 db' id .cacheFirst answers := by
  unfold loadCatalogSnapshot
  rw [pin_shared h]
  cases hpin : pin db' id .read answers.authority with
  | error e => rfl
  | ok p =>
    have hp := (pin_spec hpin).1
    show (match getCatalogIfCurrent sha256 p db with | some _ => _ | none => _) =
      match getCatalogIfCurrent sha256 p db' with | some _ => _ | none => _
    rw [h.getCatalogIfCurrent hp]
    split
    · rfl
    · exact introspectSnapshot_shared h hp .cacheFirst answers

theorem loadTerminalSnapshot_shared {authority : TerminalAuthority}
    (h : SharesConnection authority.connectionId db db') (answer : AppResult ℤ)
    (answers : CatalogAnswers) :
    loadTerminalSnapshot sha256 db authority .cacheFirst answer answers =
      loadTerminalSnapshot sha256 db' authority .cacheFirst answer answers := by
  unfold loadTerminalSnapshot
  rw [pinTerminal_shared h, loadCatalogSnapshot_shared h]

end

end Services
end AgentDb
