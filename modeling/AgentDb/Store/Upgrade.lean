import AgentDb.Store.Open

/-!
# What an upgrade keeps

A file left by an earlier version has some of the tables, each with the columns of today but for
some of those that were added later. `Legacy` is what is known of it, and `Upgrades` how any part of
a start may change it: no table goes, no column goes, the columns that come are those of today, and
the rows of the tables that hold the user's data get the defaults in them and nothing else.
-/

namespace AgentDb
namespace Store
namespace Migrations

open Ddl Scripts

/-! ### Files of earlier versions -/

/-- The columns that are added by statements whose errors are ignored. -/
def ignoredColumns : List (String × Column) :=
  openColumns ++ workspaceColumns ++ localScopeColumns

/-- The columns that came later than their tables. -/
def later (table : String) : List String :=
  ((ignoredColumns ++ bindingScopeColumns).filter (·.1 = table)).map (·.2.name) ++
    if table = "schema_cache" then ["account_scope"] else []

/-- The columns a table has today. -/
def declaredColumns (table : String) : List Column := (declared.lookup table).elim [] (·.columns)

def declaredNames (table : String) : List String := (declaredColumns table).map (·.name)

/-- The default of a column in the rows that were there before it. -/
def added (table column : String) : Value :=
  (((declaredColumns table).find? (·.name = column)).map Column.initial).getD .null

/-- The tables that are only ever extended. `schema_cache_v2` may be dropped and made again. -/
def upgradable : List String := (declared.map Prod.fst).filter (· ≠ "schema_cache_v2")

/-- The tables with data of the user, or derived from it. -/
def kept : List String :=
  ["connections", "workspace_connection_bindings", "connection_safety", "query_history",
    "audit_log", "operations", "operation_approvals", "operation_events", "snippets", "dashboards",
    "sync_outbox", "schema_cache", "agent_chat_threads", "agent_chat_messages"]

/-- The tables that are copied to one of today's shape. -/
def rebuilt : List String := ["audit_log", "schema_cache"]

/-- A column as it is declared today, perhaps with fewer constraints. -/
def Declared (table : String) (c : Column) : Prop :=
  ∃ d ∈ declaredColumns table, d.name = c.name ∧ (c.notNull = true → d.notNull = true) ∧
    (c.pk = 0 ↔ d.pk = 0)

/-- A table that an earlier version left. It may have columns that are no longer used. -/
structure OfVersion (table : String) (t : Table) : Prop where
  base : ∀ c ∈ declaredNames table, c ∈ later table ∨ c ∈ t.names
  columns : ∀ c ∈ t.columns, Declared table c ∨
    table ∉ rebuilt ∧ c.name ∉ declaredNames table ∧ c.notNull = false ∧ c.pk = 0
  tidy : t.Tidy

/-- The tables are those of an earlier version. -/
def Shaped (db : Db) : Prop :=
  ∀ table ∈ upgradable, ∀ t, db.tables table = some t → OfVersion table t

/-- The key of a setting is a primary key. -/
def UniqueKeys (rows : List Row) : Prop := ∀ k, rows.countP (· "key" = .text k) ≤ 1

/-- An `app.db` that an earlier version left, at any time since. -/
structure Legacy (db : Db) : Prop where
  version : Shaped db
  keys : UniqueKeys (db.rows "app_settings")
  personal : ∀ w ∈ db.rows "workspaces", w "id" = .text PERSONAL_WORKSPACE_ID →
    w "kind" = .text "personal" ∧ w "lifecycle_state" = .text "active"

/-! ### How the file may change -/

/-- The row as it reads when there are more columns. -/
def extend (table : String) (old new : List String) (r : Row) : Row := fun c =>
  if c ∈ old then r c else if c ∈ new then added table c else .null

/-- A table after some statements, which may add some columns to some tables. -/
structure Upgrade (may : String → String → Prop) (table : String) (t t' : Table) : Prop where
  names : t.names ⊆ t'.names
  only : ∀ c ∈ t'.names, c ∈ t.names ∨ c ∈ declaredNames table ∧ may table c
  rows : table ∈ kept → t'.rows = t.rows.map (extend table t.names t'.names) ∨
    table ∈ resources ∧ "workspace_id" ∈ t'.names ∧
      t'.rows = t.rows.map fun r => assign (extend table t.names t'.names r)

/-- A row that `SCHEMA` inserts, by its key. -/
structure Seed where
  table : String
  key : String
  value : String
  deriving DecidableEq

/-- The rows that `SCHEMA` inserts. -/
def seeds : List Seed :=
  [⟨"workspaces", "id", PERSONAL_WORKSPACE_ID⟩,
    ⟨"workspace_members", "id", "00000000-0000-0000-0000-000000000002"⟩,
    ⟨"app_settings", "key", "active_workspace_id"⟩,
    ⟨"app_settings", "key", "active_scope_generation"⟩,
    ⟨"sync_state", "workspace_id", PERSONAL_WORKSPACE_ID⟩]

def Seeded (x : Seed) (db : Db) : Prop := ∃ r ∈ db.rows x.table, r x.key = .text x.value

/-- The audit log outlives the connections. -/
def NoCascade (db : Db) : Prop :=
  ∃ t, db.tables "audit_log" = some t ∧ mentionsCascade t.toTableDef = false

/-- The shape that `ensure_schema_cache_v2` leaves alone. -/
def CurrentV2 (db : Db) : Prop :=
  shapeIsCurrent (db.tableInfo "schema_cache_v2") = true ∧
    foreignKeysAreCurrent (db.foreignKeyList "schema_cache_v2") = true

/-- The file after some statements. -/
structure Upgrades (may : String → String → Prop) (db s : Db) : Prop where
  table : ∀ name ∈ upgradable, ∀ t, db.tables name = some t →
    ∃ t', s.tables name = some t' ∧ Upgrade may name t t'
  created : ∀ name ∈ upgradable, db.tables name = none → ∀ t', s.tables name = some t' →
    (∀ c, c ∈ t'.names ↔ c ∈ declaredNames name) ∧ (name ∈ kept → t'.rows = [])
  seeded : ∀ x ∈ seeds, Seeded x db → Seeded x s
  noCascade : NoCascade db → NoCascade s
  currentV2 : CurrentV2 db → CurrentV2 s

section

variable {may may' : String → String → Prop} {db s s' : Db} {name : String} {t t' t'' : Table}
  {r : Row} {c : String}

theorem extend_self {new : List String} (hnew : ∀ x ∈ new, x ∈ t.names)
    (hr : ∀ x, x ∉ t.names → r x = .null) : extend name t.names new r = r := by
  funext x
  by_cases hx : x ∈ t.names
  · rw [extend, if_pos hx]
  · rw [extend, if_neg hx, if_neg fun h => hx (hnew x h), hr x hx]

theorem extend_extend {old mid new : List String} (h : old ⊆ mid) (h' : mid ⊆ new) :
    extend name mid new (extend name old mid r) = extend name old new r := by
  funext x
  by_cases hmid : x ∈ mid
  · by_cases hold : x ∈ old <;> simp [extend, hmid, hold, h' hmid]
  · have hold : x ∉ old := fun hx => hmid (h hx)
    simp [extend, hmid, hold]

theorem blank_assign : blank (assign r "workspace_id") = false := by
  rw [assign]
  split_ifs with h
  · rw [Function.update_self]
    decide
  · exact Bool.eq_false_iff.2 h

theorem assign_of_not_blank (h : blank (r "workspace_id") = false) : assign r = r := by
  rw [assign, h]
  rfl

theorem extend_assign {mid new : List String} (h : "workspace_id" ∈ mid) :
    extend name mid new (assign r) = assign (extend name mid new r) := by
  have hsame : extend name mid new r "workspace_id" = r "workspace_id" := by rw [extend, if_pos h]
  rw [assign, assign, hsame]
  split_ifs
  · funext x
    by_cases hx : x = "workspace_id"
    · subst hx
      rw [Function.update_self, extend, if_pos h, Function.update_self]
    · rw [Function.update_of_ne hx, extend, extend, Function.update_of_ne hx]
  · rfl

theorem Upgrade.refl (ht : t.Tidy) : Upgrade may name t t where
  names := List.Subset.refl _
  only _ hc := .inl hc
  rows _ := by
    refine .inl ((List.map_id _).symm.trans (List.map_congr_left fun r hr => ?_))
    exact (extend_self (fun _ h => h) (ht r hr)).symm

theorem Upgrade.trans (h : Upgrade may name t t') (h' : Upgrade may name t' t'') :
    Upgrade may name t t'' where
  names := fun _ hc => h'.names (h.names hc)
  only c hc := by
    rcases h'.only c hc with hc | hc
    · exact h.only c hc
    · exact .inr hc
  rows hname := by
    rcases h.rows hname with hrows | ⟨hres, hws, hrows⟩ <;>
      rcases h'.rows hname with hrows' | ⟨hres', hws', hrows'⟩ <;>
        rw [hrows', hrows, List.map_map]
    · exact .inl (List.map_congr_left fun r _ => extend_extend h.names h'.names)
    · refine .inr ⟨hres', hws', List.map_congr_left fun r _ => ?_⟩
      rw [Function.comp_apply, extend_extend h.names h'.names]
    · refine .inr ⟨hres, h'.names hws, List.map_congr_left fun r _ => ?_⟩
      rw [Function.comp_apply, extend_assign hws, extend_extend h.names h'.names]
    · refine .inr ⟨hres, hws', List.map_congr_left fun r _ => ?_⟩
      rw [Function.comp_apply, extend_assign hws, assign_of_not_blank blank_assign,
        extend_extend h.names h'.names]

theorem Upgrades.refl (hdb : Shaped db) : Upgrades may db db where
  table name hname t ht := ⟨t, ht, .refl (hdb name hname t ht).tidy⟩
  created name _ hnone t' ht' := by rw [hnone] at ht'; cases ht'
  seeded _ _ h := h
  noCascade h := h
  currentV2 h := h

theorem Upgrades.trans (h : Upgrades may db s) (h' : Upgrades may s s') : Upgrades may db s' where
  table name hname t ht := by
    obtain ⟨t', ht', hu⟩ := h.table name hname t ht
    obtain ⟨t'', ht'', hu'⟩ := h'.table name hname t' ht'
    exact ⟨t'', ht'', hu.trans hu'⟩
  created name hname hnone t'' ht'' := by
    rcases hs : s.tables name with _ | t'
    · exact h'.created name hname hs t'' ht''
    · obtain ⟨hnames, hrows⟩ := h.created name hname hnone t' hs
      obtain ⟨t₂, ht₂, hu⟩ := h'.table name hname t' hs
      rw [ht''] at ht₂
      cases ht₂
      refine ⟨fun c => ⟨fun hc => ?_, fun hc => hu.names ((hnames c).2 hc)⟩, fun hkept => ?_⟩
      · rcases hu.only c hc with hc | hc
        · exact (hnames c).1 hc
        · exact hc.1
      · rcases hu.rows hkept with h | ⟨-, -, h⟩ <;> rw [h, hrows hkept, List.map_nil]
  seeded x hx hdb := h'.seeded x hx (h.seeded x hx hdb)
  noCascade hdb := h'.noCascade (h.noCascade hdb)
  currentV2 hdb := h'.currentV2 (h.currentV2 hdb)

theorem Upgrades.mono (hmay : ∀ n c, may n c → may' n c) (h : Upgrades may db s) :
    Upgrades may' db s where
  table name hname t ht := by
    obtain ⟨t', ht', hu⟩ := h.table name hname t ht
    exact ⟨t', ht', hu.names, fun c hc => (hu.only c hc).imp id (And.imp id (hmay _ _)), hu.rows⟩
  created := h.created
  seeded := h.seeded
  noCascade := h.noCascade
  currentV2 := h.currentV2

/-! ### One table changes -/

/-- The change keeps what is known and is an upgrade. -/
def Moves (may : String → String → Prop) (db s : Db) : Prop := Legacy s ∧ Upgrades may db s

theorem moves_of_tables (hdb : Legacy db) (h : s.tables = db.tables) : Moves may db s := by
  have hrows : s.rows = db.rows := by funext n; rw [Db.rows, Db.rows, h]
  have hinfo : s.tableInfo = db.tableInfo := by funext n; rw [Db.tableInfo, Db.tableInfo, h]
  have hkeys : s.foreignKeyList = db.foreignKeyList := by
    funext n
    rw [Db.foreignKeyList, Db.foreignKeyList, h]
  have hrefl := (Upgrades.refl hdb.version : Upgrades may db db)
  refine ⟨⟨?_, ?_, ?_⟩, ?_, ?_, ?_, ?_, ?_⟩
  · intro n hn t ht
    exact hdb.version n hn t (h ▸ ht)
  · rw [hrows]
    exact hdb.keys
  · rw [hrows]
    exact hdb.personal
  · rw [h]
    exact hrefl.table
  · rw [h]
    exact hrefl.created
  · intro x _ hx
    rw [Seeded, hrows]
    exact hx
  · rintro ⟨t, ht, hc⟩
    exact ⟨t, by rw [h]; exact ht, hc⟩
  · rw [CurrentV2, CurrentV2, hinfo, hkeys]
    exact id

/-- What a change of one table has to keep. -/
structure Change (may : String → String → Prop) (name : String) (t t' : Table) : Prop where
  version : OfVersion name t'
  keys : name = "app_settings" → UniqueKeys t'.rows
  upgrade : Upgrade may name t t'
  personal : name = "workspaces" → ∀ w ∈ t'.rows, w "id" = .text PERSONAL_WORKSPACE_ID →
    w "kind" = .text "personal" ∧ w "lifecycle_state" = .text "active"
  seeded : ∀ x ∈ seeds, x.table = name → (∃ r ∈ t.rows, r x.key = .text x.value) →
    ∃ r ∈ t'.rows, r x.key = .text x.value
  noCascade : name = "audit_log" → mentionsCascade t.toTableDef = false →
    mentionsCascade t'.toTableDef = false

theorem rows_of_tables (h : db.tables name = some t) : db.rows name = t.rows := by
  rw [Db.rows, h]
  rfl

theorem tables_update_of_ne {n : String} (h : s.tables = Function.update db.tables name (some t'))
    (hn : n ≠ name) : s.tables n = db.tables n := by
  rw [h, Function.update_of_ne hn]

theorem tables_update_self (h : s.tables = Function.update db.tables name (some t')) :
    s.tables name = some t' := by
  rw [h, Function.update_self]

theorem moves_of_update (hname : name ∈ upgradable) (hdb : Legacy db) (ht : db.tables name = some t)
    (hc : Change may name t t') (h : s.tables = Function.update db.tables name (some t')) :
    Moves may db s := by
  have hself := tables_update_self h
  have hrefl := (Upgrades.refl hdb.version : Upgrades may db db)
  have hv2 : "schema_cache_v2" ≠ name := fun hne => by
    rw [← hne] at hname
    revert hname
    decide
  refine ⟨⟨?_, ?_, ?_⟩, ?_, ?_, ?_, ?_, ?_⟩
  · intro n hn u hu
    by_cases hne : n = name
    · subst hne
      rw [hself] at hu
      cases hu
      exact hc.version
    · rw [tables_update_of_ne h hne] at hu
      exact hdb.version n hn u hu
  · by_cases hne : "app_settings" = name
    · subst hne
      rw [rows_of_tables hself]
      exact hc.keys rfl
    · rw [Db.rows, tables_update_of_ne h hne]
      exact hdb.keys
  · by_cases hne : "workspaces" = name
    · subst hne
      rw [rows_of_tables hself]
      exact hc.personal rfl
    · rw [Db.rows, tables_update_of_ne h hne]
      exact hdb.personal
  · intro n hn u hu
    by_cases hne : n = name
    · subst hne
      rw [ht] at hu
      cases hu
      exact ⟨t', hself, hc.upgrade⟩
    · rw [tables_update_of_ne h hne]
      exact hrefl.table n hn u hu
  · intro n hn hnone u hu
    have hne : n ≠ name := by
      rintro rfl
      rw [ht] at hnone
      cases hnone
    rw [tables_update_of_ne h hne] at hu
    exact hrefl.created n hn hnone u hu
  · intro x hx hseed
    by_cases hne : x.table = name
    · rw [Seeded, hne, rows_of_tables ht] at hseed
      rw [Seeded, hne, rows_of_tables hself]
      exact hc.seeded x hx hne hseed
    · rw [Seeded, Db.rows, tables_update_of_ne h hne]
      exact hseed
  · rintro ⟨u, hu, hcascade⟩
    by_cases hne : "audit_log" = name
    · subst hne
      rw [ht] at hu
      cases hu
      exact ⟨t', hself, hc.noCascade rfl hcascade⟩
    · exact ⟨u, by rw [tables_update_of_ne h hne]; exact hu, hcascade⟩
  · have heq := tables_update_of_ne h hv2
    rw [CurrentV2, CurrentV2, Db.tableInfo, Db.tableInfo, Db.foreignKeyList, Db.foreignKeyList, heq]
    exact id

end

end Migrations
end Store
end AgentDb
