import AgentDb.Audit.Record
import AgentDb.Store.UpgradeSteps

/-!
# What a start has done when it returns

A start that returns has been through all of its statements, so each part leaves behind what it is
there for: the tables, the rows that are inserted once, the columns, the audit log without its
cascade, the current cache, and an active scope that is valid. What a part leaves behind the later
ones keep, as they are upgrades.
-/

namespace AgentDb
namespace Store
namespace Migrations

open Ddl Scripts

variable {may : String → String → Prop} {db s s' : Db} {name c : String} {t t' : Table}
  {φ : Faults} {u : Unit} {x : Seed}

/-! ### The bootstrap script -/

/-- A row with the key of a seed conflicts with the rows that have it. -/
theorem conflicts_iff (hx : x ∈ seeds) (hv : OfVersion x.table t) {r : Row}
    (hr : r x.key = .text x.value) :
    t.conflicts r = true ↔ ∃ r' ∈ t.rows, r' x.key = .text x.value := by
  rw [Table.conflicts, List.any_eq_true]
  refine exists_congr fun r' => and_congr_right fun _ => ?_
  rw [sameKey_iff hx hv, hr]
  exact and_iff_right fun h => Value.noConfusion h

/-- The values of a statement are given where the table of today needs one. -/
def Statement.fills : Statement → Bool
  | .insertOrIgnore table values => (declaredColumns table).all fun d =>
      !d.notNull || (values.lookup d.name).any (· ≠ .value .null)
  | _ => true

theorem fills_of_mem : ∀ st ∈ SCHEMA, st.fills = true := by
  decide

theorem lacks_eq_false {now table : String} {values : List (String × Given)}
    (hst : Statement.insertOrIgnore table values ∈ SCHEMA) (hv : OfVersion table t) :
    t.lacks (t.row (values.map fun v => (v.1, v.2.at now))) = false := by
  rw [Table.lacks, List.any_eq_false]
  intro y hy hbad
  rw [Bool.and_eq_true, decide_eq_true_eq] at hbad
  rcases hv.columns y hy with ⟨d, hd, hname, hnull, -⟩ | ⟨-, -, hnull, -⟩
  · have hfills := List.all_eq_true.1 (fills_of_mem _ hst) d hd
    rw [hnull hbad.1, Bool.not_true, Bool.false_or, Option.any_eq_true] at hfills
    obtain ⟨v, hv', hne⟩ := hfills
    rw [← hname, Table.row_of_lookup (by rw [lookup_map_at, hv']; rfl)] at hbad
    cases v with
    | value v => exact of_decide_eq_true hne (congrArg Given.value hbad.2)
    | currentTimestamp => exact Value.noConfusion hbad.2
  · rw [hnull] at hbad
    exact Bool.noConfusion hbad.1

/-- The statement inserts a seed. -/
def Statement.inserts (x : Seed) : Statement → Bool
  | .insertOrIgnore table values => table = x.table && values.lookup x.key = some (.text x.value)
  | _ => false

/-- What a statement of the script leaves behind. -/
def Statement.Done : Statement → Db → Prop
  | .createTable name _, s => name ∈ upgradable → (s.tables name).isSome
  | .insertOrIgnore table values, s => ∀ x ∈ seeds, x.table = table →
      values.lookup x.key = some (.text x.value) → Seeded x s
  | _, _ => True

theorem isSome_upgrades (hup : Upgrades may db s) (hname : name ∈ upgradable)
    (h : (db.tables name).isSome) : (s.tables name).isSome := by
  obtain ⟨t, ht⟩ := Option.isSome_iff_exists.1 h
  obtain ⟨t', ht', -⟩ := hup.table name hname t ht
  rw [ht']
  rfl

theorem done_upgrades {st : Statement} (hup : Upgrades may db s) (h : st.Done db) : st.Done s := by
  cases st with
  | createTable name d => exact fun hname => isSome_upgrades hup hname (h hname)
  | createIndex i => trivial
  | createTrigger name table => trivial
  | insertOrIgnore table values => exact fun x hx ht hv => hup.seeded x hx (h x hx ht hv)

theorem done_bootstrap {now : String} {st : Statement} (hst : st ∈ SCHEMA) (hdb : Legacy db)
    (h : st.run now db = .ok s) : st.Done s := by
  cases st with
  | createTable name d =>
    intro _
    rcases createTableIfNotExists_eq_ok.1 h with ⟨hsome, rfl⟩ | ⟨-, rfl⟩
    · exact hsome
    · rw [Db.set_tables, Function.update_self]
      rfl
  | createIndex i => trivial
  | createTrigger name table => trivial
  | insertOrIgnore table values =>
    rintro x hx rfl hlookup
    obtain ⟨hname, -⟩ := seed_declared x hx
    obtain ⟨t, ht, hcase⟩ := insertOrIgnore_eq_ok h
    have hv := hdb.version x.table hname t ht
    have hrow : t.row (values.map fun v => (v.1, v.2.at now)) x.key = .text x.value :=
      Table.row_of_lookup (by rw [lookup_map_at, hlookup]; rfl)
    rcases hcase with ⟨hbad, rfl⟩ | ⟨-, -, rfl⟩
    · rw [lacks_eq_false hst hv, Bool.false_or, conflicts_iff hx hv hrow] at hbad
      rw [Seeded, rows_of_tables ht]
      exact hbad
    · refine ⟨_, ?_, hrow⟩
      rw [rows_of_tables (by rw [Db.set_tables, Function.update_self])]
      exact List.mem_append_right _ (List.mem_singleton_self _)

theorem gives_bootstrap (now : String) :
    Gives φ Legacy (bootstrap now) fun _ s => Legacy s ∧ ∀ st ∈ SCHEMA, st.Done s := by
  have hmem : ∀ st ∈ SCHEMA.zipIdx, st.1 ∈ SCHEMA := by
    intro st hst
    obtain ⟨hlt, heq⟩ := List.mem_zipIdx' hst
    exact heq ▸ List.getElem_mem hlt
  have hrun : ∀ (st : Statement × ℕ) (s s' : Db) (u : Unit),
      execute (.schema st.2) (st.1.run now) φ s = (.ok u, s') → st.1.run now s = .ok s' := by
    intro st s s' u h
    simp only [execute, sql, mapError_eq_ok, exec_eq_ok] at h
    exact h.2
  have hmoves : ∀ st ∈ SCHEMA.zipIdx, ∀ s s' u, Legacy s →
      execute (.schema st.2) (st.1.run now) φ s = (.ok u, s') → Moves (fun _ _ => True) s s' :=
    fun st hst s s' u hs h => moves_bootstrap (hmem st hst) hs (hrun st s s' u h)
  refine fun s u s' hs h => ?_
  have hall := gives_forM Legacy (fun st s => st.1.Done s)
    (fun st hst s u s' hs h => (hmoves st hst s s' u hs h).1)
    (fun st hst s u s' hs h => done_bootstrap (hmem st hst) hs (hrun st s s' u h))
    (fun st hst c _ s u s' hs h => done_upgrades (hmoves st hst s s' u hs.1 h).2 hs.2) s u s' hs h
  refine ⟨hall.1, fun st hst => ?_⟩
  obtain ⟨i, hi, rfl⟩ := List.mem_iff_getElem.1 hst
  exact hall.2 (SCHEMA[i], i) (List.mem_zipIdx_iff_getElem?.2 (List.getElem?_eq_getElem hi))

theorem createTable_mem (hname : name ∈ upgradable) : ∃ d, .createTable name d ∈ SCHEMA := by
  obtain ⟨⟨_, d⟩, hd, rfl⟩ := List.mem_map.1 (List.mem_filter.1 hname).1
  obtain ⟨st, hst, heq⟩ := List.mem_filterMap.1 hd
  cases st with
  | createTable name d' => cases heq; exact ⟨_, hst⟩
  | createIndex i => cases heq
  | createTrigger name table => cases heq
  | insertOrIgnore table values => cases heq

/-- The script leaves every table and every seed behind. -/
theorem bootstrap_spec {now : String} (hdb : Legacy db) (h : bootstrap now φ db = (.ok u, s)) :
    (∀ name ∈ upgradable, (s.tables name).isSome) ∧ ∀ x ∈ seeds, Seeded x s := by
  have hdone := (gives_bootstrap now db u s hdb h).2
  refine ⟨fun name hname => ?_, fun x hx => ?_⟩
  · obtain ⟨d, hd⟩ := createTable_mem hname
    exact hdone _ hd hname
  · have hinserts : ∀ x ∈ seeds, ∃ st ∈ SCHEMA, st.inserts x = true := by decide
    obtain ⟨st, hst, hins⟩ := hinserts x hx
    cases st with
    | createTable name d => cases hins
    | createIndex i => cases hins
    | createTrigger name table => cases hins
    | insertOrIgnore table values =>
      rw [Statement.inserts, Bool.and_eq_true, decide_eq_true_eq, decide_eq_true_eq] at hins
      exact hdone _ hst x hx hins.1.symm hins.2

/-! ### Columns -/

/-- The table is there with the column. -/
def Has (table column : String) (db : Db) : Prop :=
  ∃ t, db.tables table = some t ∧ column ∈ t.names

theorem has_upgrades (hup : Upgrades may db s) (hname : name ∈ upgradable) (h : Has name c db) :
    Has name c s := by
  obtain ⟨t, ht, hc⟩ := h
  obtain ⟨t', ht', hu⟩ := hup.table name hname t ht
  exact ⟨t', ht', hu.names hc⟩

/-- A statement that adds a column leaves it behind, unless it fails from outside. -/
theorem has_of_alter {tolerated : String → Bool} {x : String × Column}
    (hsome : (db.tables x.1).isSome)
    (hfails : ∀ f, φ (.alter x.1 x.2.name) = some (.fails f) → tolerated f.message = true →
      Has x.1 x.2.name db)
    (h : tolerating tolerated (alter x) φ db = (.ok u, s)) : Has x.1 x.2.name s := by
  rcases tolerating_exec_eq_ok.1 h with ⟨f, hf, ht, rfl⟩ | ⟨-, hrun | ⟨⟨e, he, -⟩, rfl⟩⟩
  · exact hfails f hf ht
  · obtain ⟨t, -, -, rfl⟩ := addColumn_eq_ok.1 hrun
    refine ⟨_, by rw [Db.set_tables, Function.update_self], ?_⟩
    exact List.mem_map.2 ⟨x.2, List.mem_append_right _ (List.mem_singleton_self _), rfl⟩
  · rcases addColumn_eq_error he with hnone | ⟨t, ht, hc⟩
    · rw [hnone] at hsome
      cases hsome
    · exact ⟨t, ht, hc⟩

/-- A loop over columns leaves all of them behind. -/
theorem has_of_forM {l : List (String × Column)} {tolerated : String → Bool}
    (hl : l ⊆ ignoredColumns ++ bindingScopeColumns)
    (hfails : ∀ x ∈ l, ∀ f, φ (.alter x.1 x.2.name) = some (.fails f) →
      tolerated f.message = true → Has x.1 x.2.name db)
    (hdb : Legacy db) (hsome : ∀ name ∈ upgradable, (db.tables name).isSome)
    (h : l.forM (fun x => mapError AppError.db (tolerating tolerated (alter x))) φ db =
      (.ok u, s)) :
    ∀ x ∈ l, Has x.1 x.2.name s := by
  have hsteps : ∀ x ∈ l, ∀ s s' u, Legacy s →
      mapError AppError.db (tolerating tolerated (alter x)) φ s = (.ok u, s') →
        Moves (Adds φ) s s' := by
    intro x hx s s' u hs h
    have := ((respects_alter (φ := φ) (hl hx)).tolerating tolerated).mapError AppError.db s hs
    rwa [h] at this
  have hname : ∀ x ∈ l, x.1 ∈ upgradable := fun x hx => (column_declared x (hl hx)).2.1
  refine (gives_forM (fun s => Legacy s ∧ Upgrades (Adds φ) db s)
    (fun x s => Has x.1 x.2.name s) ?_ ?_ ?_ db u s ⟨hdb, .refl hdb.version⟩ h).2
  · intro x hx s u s' hs h
    obtain ⟨hgood, hup⟩ := hsteps x hx s s' u hs.1 h
    exact ⟨hgood, hs.2.trans hup⟩
  · intro x hx s u s' hs h
    refine has_of_alter (isSome_upgrades hs.2 (hname x hx) (hsome _ (hname x hx)))
      (fun f hf ht => has_upgrades hs.2 (hname x hx) (hfails x hx f hf ht)) (mapError_eq_ok.1 h)
  · intro x hx y hy s u s' hs h
    exact has_upgrades (hsteps x hx s s' u hs.1.1 h).2 (hname y hy) hs.2

/-! ### Workspaces -/

/-- The resources of the table are all in a workspace. -/
def Placed (table : String) (db : Db) : Prop :=
  ∃ t, db.tables table = some t ∧ "workspace_id" ∈ t.names ∧
    ∀ r ∈ t.rows, blank (r "workspace_id") = false

theorem placed_upgrades (hup : Upgrades may db s) (hname : name ∈ resources)
    (h : Placed name db) : Placed name s := by
  have hresources : ∀ n ∈ resources, n ∈ upgradable ∧ n ∈ kept := by decide
  obtain ⟨hupgradable, hkept⟩ := hresources name hname
  obtain ⟨t, ht, hid, hrows⟩ := h
  obtain ⟨t', ht', hu⟩ := hup.table name hupgradable t ht
  refine ⟨t', ht', hu.names hid, fun r' hr' => ?_⟩
  rcases hu.rows hkept with h | ⟨-, -, h⟩ <;> rw [h] at hr' <;>
    obtain ⟨r, hr, rfl⟩ := List.mem_map.1 hr'
  · rw [extend, if_pos hid]
    exact hrows r hr
  · exact blank_assign

theorem placed_of_backfill (h : backfill name db = .ok s) : Placed name s := by
  obtain ⟨t, ht, hid, rfl⟩ := backfill_eq_ok h
  refine ⟨{ t with rows := t.rows.map assign }, ?_, hid, fun r' hr' => ?_⟩
  · rw [Db.set_tables, Function.update_self]
  · obtain ⟨r, -, rfl⟩ := List.mem_map.1 hr'
    exact blank_assign

/-- What a part that respects the file leaves behind. -/
theorem Respects.of_ok {α : Type} {m : OpenScript α} {a : α} (hm : Respects φ m) (hdb : Legacy db)
    (h : m φ db = (.ok a, s)) : Moves (Adds φ) db s := by
  have := hm db hdb
  rwa [h] at this

theorem placed_of_foundation (hdb : Legacy db)
    (h : migrateWorkspaceFoundation φ db = (.ok u, s)) : ∀ name ∈ resources, Placed name s := by
  rw [migrateWorkspaceFoundation, transaction_eq_ok] at h
  obtain ⟨u₁, s₁, h₁, h⟩ := bind_eq_ok.1 h
  obtain ⟨u₂, s₂, h₂, h⟩ := bind_eq_ok.1 h
  obtain ⟨u₃, s₃, h₃, h⟩ := bind_eq_ok.1 h
  obtain ⟨u₄, s₄, h₄, h₅⟩ := bind_eq_ok.1 h
  have hmem : ∀ x ∈ resources.zipIdx, x.1 ∈ resources := by decide
  have hresources : ∀ n ∈ resources, (n, resources.idxOf n) ∈ resources.zipIdx := by decide
  have hrun : ∀ (x : String × ℕ) (s s' : Db) (u : Unit),
      execute (.foundation (x.2 + 1)) (backfill x.1) φ s = (.ok u, s') →
        backfill x.1 s = .ok s' := by
    intro x s s' u h
    simp only [execute, sql, mapError_eq_ok, exec_eq_ok] at h
    exact h.2
  have hmoves : ∀ x ∈ resources.zipIdx, ∀ s s' u, Legacy s →
      execute (.foundation (x.2 + 1)) (backfill x.1) φ s = (.ok u, s') →
        Moves (fun _ _ => True) s s' :=
    fun x hx s s' u hs h => moves_backfill (hmem x hx) hs (hrun x s s' u h)
  obtain ⟨hs₂, hplaced⟩ := gives_forM Legacy (fun x s => Placed x.1 s)
    (fun x hx s u s' hs h => (hmoves x hx s s' u hs h).1)
    (fun x _ s u s' _ h => placed_of_backfill (hrun x s s' u h))
    (fun x hx y hy s u s' hs h => by
      exact placed_upgrades (hmoves x hx s s' u hs.1 h).2 (hmem y hy) hs.2)
    s₁ u₂ s₂ ((respects_bracket _).of_ok hdb h₁).1 h₂
  obtain ⟨hs₃, hup₃⟩ := respects_resetActiveWorkspace.of_ok hs₂ h₃
  obtain ⟨hs₄, hup₄⟩ := respects_syncState.of_ok hs₃ h₄
  have hup₅ := ((respects_bracket _).of_ok hs₄ h₅).2
  intro name hname
  exact placed_upgrades ((hup₃.trans hup₄).trans hup₅) hname (hplaced _ (hresources name hname))

/-! ### Tables that are rebuilt -/

theorem noCascade_of_audit (hsome : (db.tables "audit_log").isSome)
    (h : migrateAuditNoCascade φ db = (.ok u, s)) : NoCascade s := by
  obtain ⟨d, s₁, h₁, h⟩ := bind_eq_ok.1 h
  simp only [fetch, mapError_eq_ok, query_eq_ok, Except.ok.injEq] at h₁
  obtain ⟨-, rfl, rfl⟩ := h₁
  obtain ⟨t, ht⟩ := Option.isSome_iff_exists.1 hsome
  rw [ht, Option.map_some, Option.any_some] at h
  rcases hc : mentionsCascade t.toTableDef with _ | _ <;> rw [hc] at h
  · obtain ⟨-, rfl⟩ := pure_eq_ok.1 h
    exact ⟨t, ht, hc⟩
  · change transaction _ φ db = _ at h
    simp only [bracket, execute, sql, bind_eq_ok, mapError_eq_ok, exec_eq_ok,
      transaction_eq_ok] at h
    obtain ⟨-, s₁, ⟨-, h₁⟩, u, s₂, h₂, -, s₃, ⟨-, h₃⟩, -, h₄⟩ := h
    cases h₁
    cases h₄
    obtain ⟨t, -, hs₂⟩ := rebuild_eq_ok (by decide) h₂
    have hs := congrFun ((tables_of_createIndex h₃).trans hs₂) "audit_log"
    rw [Function.update_self] at hs
    exact ⟨_, hs, not_mentionsCascade_auditLog⟩

theorem has_of_cacheScopes (h : migrateSchemaCacheScopes φ db = (.ok u, s)) :
    Has "schema_cache" "account_scope" s := by
  obtain ⟨hasScope, s₁, h₁, h⟩ := bind_eq_ok.1 h
  simp only [fetch, mapError_eq_ok, query_eq_ok, Except.ok.injEq] at h₁
  obtain ⟨-, hscope, rfl⟩ := h₁
  cases hasScope with
  | true =>
    obtain ⟨-, rfl⟩ := pure_eq_ok.1 h
    obtain ⟨c, hc, hname⟩ := List.any_eq_true.1 hscope
    rw [Db.tableInfo] at hc
    rcases ht : db.tables "schema_cache" with _ | t <;> rw [ht] at hc
    · exact absurd hc List.not_mem_nil
    · exact ⟨t, ht, List.mem_map.2 ⟨c, hc, of_decide_eq_true hname⟩⟩
  | false =>
    change transaction _ φ db = _ at h
    simp only [bracket, execute, sql, bind_eq_ok, mapError_eq_ok, exec_eq_ok,
      transaction_eq_ok] at h
    obtain ⟨-, s₂, ⟨-, h₂⟩, u, s₃, h₃, -, h₄⟩ := h
    cases h₂
    cases h₄
    obtain ⟨t, -, hs⟩ := rebuild_eq_ok (by decide) h₃
    refine ⟨_, by rw [hs, Function.update_self], ?_⟩
    show "account_scope" ∈ schemaCache.columns.map (·.name)
    decide

theorem currentV2_of_cacheV2 (h : ensureSchemaCacheV2 φ db = (.ok u, s)) : CurrentV2 s := by
  simp only [ensureSchemaCacheV2, execute, fetch, sql, bind_eq_ok, mapError_eq_ok, exec_eq_ok,
    query_eq_ok, Except.ok.injEq] at h
  obtain ⟨rows, s₁, ⟨-, rfl, rfl⟩, keys, s₂, ⟨-, rfl, rfl⟩, u, s₃, h₃, -, s₄, ⟨-, h₄⟩, -, h₅⟩ := h
  have htables := (tables_of_createIndex h₅).trans (tables_of_dropIndex h₄)
  have hs₃ : CurrentV2 s₃ := by
    rcases hc : shapeIsCurrent (db.tableInfo "schema_cache_v2") &&
      foreignKeysAreCurrent (db.foreignKeyList "schema_cache_v2") with _ | _ <;> rw [hc] at h₃
    · exact currentV2_of_tables (by rw [tables_of_remakeCacheV2 h₃, Function.update_self])
    · obtain ⟨-, rfl⟩ := pure_eq_ok.1 h₃
      exact Bool.and_eq_true_iff.1 hc
  rw [CurrentV2, Db.tableInfo, Db.foreignKeyList, htables]
  exact hs₃

/-- The current cache has the columns of today. -/
theorem has_of_currentV2 (h : CurrentV2 s) : ∃ t, s.tables "schema_cache_v2" = some t ∧
    ∀ c ∈ schemaCacheV2.columns, c.name ∈ t.names := by
  have hshape := h.1
  rw [Db.tableInfo] at hshape
  rcases ht : s.tables "schema_cache_v2" with _ | t <;> rw [ht] at hshape
  · exact absurd hshape (by decide)
  · refine ⟨t, rfl, fun c hc => ?_⟩
    have hexpected : ∀ c ∈ schemaCacheV2.columns, ∃ e ∈ expectedV2, e.1 = c.name := by decide
    obtain ⟨e, he, hname⟩ := hexpected c hc
    rw [shapeIsCurrent, Bool.and_eq_true, List.all_eq_true] at hshape
    obtain ⟨d, hd, heq⟩ := List.any_eq_true.1 (hshape.2 e he)
    rw [← hname, ← of_decide_eq_true heq]
    exact List.mem_map_of_mem hd

end Migrations
end Store
end AgentDb
