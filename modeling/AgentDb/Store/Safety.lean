import AgentDb.Store.Pins

/-!
# Safety settings and the schema cache: `store/mod.rs`

`connection_safety` holds what the owner of a connection has allowed on it. Reading and writing it
is scoped like the connection itself.
-/

namespace AgentDb
namespace Store

/-- `get_safety`. -/
def Database.getSafety (db : Database) (id : Uuid) : AppResult SafetySettings := do
  let _ ← db.getConnection id
  pure ((db.safety.get id).getD default)

/-- `set_safety`. -/
def setSafety (id : Uuid) (settings : SafetySettings) (db : Database) : AppResult Database := do
  let _ ← db.getConnection id
  pure { db with safety := db.safety.put id settings }

/-- `clear_schema_cache`. -/
def clearSchemaCache (id : Uuid) (db : Database) : AppResult Database := do
  let pin ← db.pinConnectionWithAccess id true
  let scope := pin.scope.accountScope.storageKey
  pure { db with
    legacyCatalogs := db.legacyCatalogs.filter fun key => key ≠ (id, scope)
    catalogs := db.catalogs.filterRows fun key _ => key ≠ (pin.scope.workspaceId, scope, id) }

/-! ### What the settings of a connection depend on -/

/-- Every pin for reading and all safety settings are the same. -/
structure KeepsPolicy (db db' : Database) : Prop where
  pins : ∀ id, db'.pinConnectionWithAccess id true = db.pinConnectionWithAccess id true
  safety : ∀ id, db'.getSafety id = db.getSafety id

theorem KeepsPolicy.refl (db : Database) : KeepsPolicy db db := ⟨fun _ => rfl, fun _ => rfl⟩

theorem keepsPolicy_insertHistory {pin : PinnedConnection} {entry : HistoryEntry}
    {db db' : Database} (h : insertHistoryIfCurrent pin entry db = .ok db') :
    KeepsPolicy db db' := by
  obtain ⟨-, -, rfl⟩ := insertHistoryIfCurrent_spec h
  exact ⟨fun _ => rfl, fun _ => rfl⟩

theorem keepsPolicy_clearSchemaCache {id : Uuid} {db db' : Database}
    (h : clearSchemaCache id db = .ok db') : KeepsPolicy db db' := by
  simp only [clearSchemaCache, Except.bind_eq_ok, Except.pure_eq_ok] at h
  obtain ⟨pin, -, rfl⟩ := h
  exact ⟨fun _ => rfl, fun _ => rfl⟩

/-- Settings are found where they were saved, and nowhere else. -/
theorem getSafety_setSafety {id other : Uuid} {settings : SafetySettings} {db db' : Database}
    (h : setSafety id settings db = .ok db') :
    db'.getSafety other = if other = id then .ok settings else db.getSafety other := by
  simp only [setSafety, Except.bind_eq_ok, Except.pure_eq_ok] at h
  obtain ⟨profile, hprofile, rfl⟩ := h
  have hsame : ∀ other, ({ db with safety := db.safety.put id settings }).getConnection other =
      db.getConnection other := fun _ => rfl
  unfold Database.getSafety
  rw [hsame, Table.get_put]
  split
  · rename_i heq
    subst heq
    rw [hprofile]
    rfl
  · rfl

end Store
end AgentDb
