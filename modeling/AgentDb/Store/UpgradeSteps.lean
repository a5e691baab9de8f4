import AgentDb.Store.Upgrade

/-!
# Every statement of a start is an upgrade

`steps_openScript` says of every start, whatever befalls its statements, that what is known of the
file still holds and that the file has only been upgraded. There is one lemma for each statement,
and the two tables that are copied have one in common.
-/

namespace AgentDb
namespace Store
namespace Migrations

open Ddl Scripts

variable {may : String → String → Prop} {db s s' : Db} {name : String} {t t' : Table}
  {φ : Faults} {α β : Type}

/-! ### Statements -/

/-- A table of today is made where there is none. -/
theorem moves_of_create {d : TableDef} (hname : name ∈ upgradable)
    (hd : declared.lookup name = some d) (hdb : Legacy db) (hnone : db.tables name = none)
    (h : s.tables = Function.update db.tables name (some { d with })) : Moves may db s := by
  have hcolumns : declaredColumns name = d.columns := by rw [declaredColumns, hd]; rfl
  have hself := tables_update_self h
  have hrefl := (Upgrades.refl hdb.version : Upgrades may db db)
  have hv2 : "schema_cache_v2" ≠ name := fun hne => by
    rw [← hne] at hname
    revert hname
    decide
  refine ⟨⟨?_, ?_, ?_⟩, ?_, ?_, ?_, ?_, ?_⟩
  · intro n hn u hu
    by_cases hne : n = name
    · subst hne
      rw [hself] at hu
      cases hu
      refine ⟨fun c hc => .inr ?_, fun c hc => .inl ?_, fun r hr => absurd hr List.not_mem_nil⟩
      · rw [declaredNames, hcolumns] at hc
        exact hc
      · exact ⟨c, by rw [hcolumns]; exact hc, rfl, id, Iff.rfl⟩
    · rw [tables_update_of_ne h hne] at hu
      exact hdb.version n hn u hu
  · by_cases hne : "app_settings" = name
    · subst hne
      rw [rows_of_tables hself]
      exact fun _ => Nat.zero_le _
    · rw [Db.rows, tables_update_of_ne h hne]
      exact hdb.keys
  · by_cases hne : "workspaces" = name
    · subst hne
      rw [rows_of_tables hself]
      exact fun w hw => absurd hw List.not_mem_nil
    · rw [Db.rows, tables_update_of_ne h hne]
      exact hdb.personal
  · intro n hn u hu
    have hne : n ≠ name := by
      rintro rfl
      rw [hnone] at hu
      cases hu
    rw [tables_update_of_ne h hne]
    exact hrefl.table n hn u hu
  · intro n hn hnone' u hu
    by_cases hne : n = name
    · subst hne
      rw [hself] at hu
      cases hu
      refine ⟨fun c => ?_, fun _ => rfl⟩
      rw [declaredNames, hcolumns]
      rfl
    · rw [tables_update_of_ne h hne, hnone'] at hu
      cases hu
  · rintro x - ⟨r, hr, hkey⟩
    have hne : x.table ≠ name := by
      intro hne
      rw [hne, Db.rows, hnone] at hr
      exact List.not_mem_nil hr
    exact ⟨r, by rw [Db.rows, tables_update_of_ne h hne]; exact hr, hkey⟩
  · rintro ⟨u, hu, hcascade⟩
    have hne : "audit_log" ≠ name := by
      rintro rfl
      rw [hnone] at hu
      cases hu
    exact ⟨u, by rw [tables_update_of_ne h hne]; exact hu, hcascade⟩
  · have heq := tables_update_of_ne h hv2
    rw [CurrentV2, CurrentV2, Db.tableInfo, Db.tableInfo, Db.foreignKeyList, Db.foreignKeyList, heq]
    exact id

/-- What happens to `schema_cache_v2` alone is an upgrade as long as its shape is not lost. -/
theorem moves_of_cacheV2 (hdb : Legacy db)
    (h : ∀ n, n ≠ "schema_cache_v2" → s.tables n = db.tables n)
    (hcurrent : CurrentV2 db → CurrentV2 s) : Moves may db s := by
  have hne : ∀ n ∈ upgradable, n ≠ "schema_cache_v2" := by decide
  have hseeds : ∀ x ∈ seeds, x.table ≠ "schema_cache_v2" := by decide
  have hrefl := (Upgrades.refl hdb.version : Upgrades may db db)
  have hrows : ∀ n, n ≠ "schema_cache_v2" → s.rows n = db.rows n := fun n hn => by
    rw [Db.rows, Db.rows, h n hn]
  refine ⟨⟨?_, ?_, ?_⟩, ?_, ?_, ?_, ?_, hcurrent⟩
  · intro n hn u hu
    rw [h n (hne n hn)] at hu
    exact hdb.version n hn u hu
  · rw [hrows _ (by decide)]
    exact hdb.keys
  · rw [hrows _ (by decide)]
    exact hdb.personal
  · intro n hn u hu
    rw [h n (hne n hn)]
    exact hrefl.table n hn u hu
  · intro n hn hnone u hu
    rw [h n (hne n hn)] at hu
    exact hrefl.created n hn hnone u hu
  · intro x hx hseed
    rw [Seeded, hrows _ (hseeds x hx)]
    exact hseed
  · rintro ⟨u, hu, hcascade⟩
    exact ⟨u, by rw [h _ (by decide)]; exact hu, hcascade⟩

/-- The rows of a table change that holds none of the user's data. -/
theorem change_rows {rows : List Row} (hname : name ∉ kept)
    (hv : OfVersion name t) (htidy : ({ t with rows } : Table).Tidy)
    (hkeys : name = "app_settings" → UniqueKeys rows)
    (hpersonal : name = "workspaces" → ∀ w ∈ rows, w "id" = .text PERSONAL_WORKSPACE_ID →
      w "kind" = .text "personal" ∧ w "lifecycle_state" = .text "active")
    (hseeded : ∀ x ∈ seeds, x.table = name → (∃ r ∈ t.rows, r x.key = .text x.value) →
      ∃ r ∈ rows, r x.key = .text x.value) : Change may name t { t with rows } where
  version := ⟨hv.base, hv.columns, htidy⟩
  keys := hkeys
  upgrade := ⟨List.Subset.refl _, fun _ hc => .inl hc, fun h => absurd h hname⟩
  personal := hpersonal
  seeded := hseeded
  noCascade _ h := h

/-! ### Columns -/

theorem column_declared : ∀ x ∈ ignoredColumns ++ bindingScopeColumns,
    x.2 ∈ declaredColumns x.1 ∧ x.1 ∈ upgradable ∧ x.1 ∈ kept ∧ x.1 ≠ "workspaces" ∧
      x.1 ≠ "audit_log" ∧ x.1 ≠ "app_settings" ∧ x.1 ∉ seeds.map (·.table) ∧
        added x.1 x.2.name = x.2.initial := by
  decide

theorem change_addColumn {x : String × Column} (hx : x ∈ ignoredColumns ++ bindingScopeColumns)
    (hmay : may x.1 x.2.name) (hdb : Legacy db) (ht : db.tables x.1 = some t)
    (hnew : x.2.name ∉ t.names) :
    Change may x.1 t { t with
      columns := t.columns ++ [x.2]
      rows := t.rows.map fun r => Function.update r x.2.name x.2.initial } := by
  obtain ⟨hdeclared, hname, hkept, hws, haudit, hsettings, hseeds, hadded⟩ :=
    column_declared x hx
  have hv := hdb.version x.1 hname t ht
  have hnames : ∀ c, c ∈ t.names ++ [x.2.name] ↔ c ∈ t.names ∨ c = x.2.name := fun c => by
    rw [List.mem_append, List.mem_singleton]
  have hnames' : ({ t with
      columns := t.columns ++ [x.2]
      rows := t.rows.map fun r => Function.update r x.2.name x.2.initial } : Table).names =
        t.names ++ [x.2.name] := by
    rw [Table.names, List.map_append]
    rfl
  refine ⟨⟨fun c hc => ?_, fun c hc => ?_, ?_⟩, fun h => absurd h hsettings,
    ⟨?_, fun c hc => ?_, fun _ => .inl ?_⟩, fun h => absurd h hws,
    fun y hy hne => absurd (hne ▸ List.mem_map_of_mem hy) hseeds, fun h => absurd h haudit⟩
  · rw [hnames', hnames]
    exact (hv.base c hc).imp id .inl
  · rcases List.mem_append.1 hc with hc | hc
    · exact hv.columns c hc
    · rw [List.mem_singleton.1 hc]
      exact .inl ⟨x.2, hdeclared, rfl, id, Iff.rfl⟩
  · intro r hr c hc
    rw [hnames', hnames, not_or] at hc
    obtain ⟨r₀, hr₀, rfl⟩ := List.mem_map.1 hr
    rw [Function.update_of_ne hc.2]
    exact hv.tidy r₀ hr₀ c hc.1
  · rw [hnames']
    exact List.subset_append_left _ _
  · rw [hnames', hnames] at hc
    refine hc.imp id ?_
    rintro rfl
    exact ⟨List.mem_map_of_mem hdeclared, hmay⟩
  · refine List.map_congr_left fun r hr => ?_
    funext c
    rw [hnames']
    by_cases hc : c = x.2.name
    · subst hc
      rw [Function.update_self, extend, if_neg hnew, if_pos (by simp), hadded]
    · rw [Function.update_of_ne hc, extend]
      by_cases hold : c ∈ t.names
      · rw [if_pos hold]
      · rw [if_neg hold, if_neg (by simp [hold, hc])]
        exact hv.tidy r hr c hold

theorem moves_addColumn {x : String × Column} (hx : x ∈ ignoredColumns ++ bindingScopeColumns)
    (hmay : may x.1 x.2.name) (hdb : Legacy db) (h : addColumn x.1 db x.2 = .ok s) :
    Moves may db s := by
  obtain ⟨t, ht, hnew, rfl⟩ := addColumn_eq_ok.1 h
  obtain ⟨-, hname, -⟩ := column_declared x hx
  exact moves_of_update hname hdb ht (change_addColumn hx hmay hdb ht hnew) rfl

/-! ### Keys -/

/-- A seed row is found by its key, and by nothing else. -/
theorem seed_declared : ∀ x ∈ seeds, x.table ∈ upgradable ∧ x.key ∈ declaredNames x.table ∧
    x.key ∉ later x.table ∧ ∀ d ∈ declaredColumns x.table, d.pk = 0 ↔ d.name ≠ x.key := by
  decide

theorem mem_key_iff {x : Seed} (hx : x ∈ seeds) (hv : OfVersion x.table t) {c : String} :
    c ∈ t.key ↔ c = x.key := by
  obtain ⟨-, hdeclared, hlater, hpk⟩ := seed_declared x hx
  have hcolumn : ∀ y ∈ t.columns, y.pk = 0 ↔ y.name ≠ x.key := by
    intro y hy
    rcases hv.columns y hy with ⟨d, hd, hname, -, hiff⟩ | ⟨-, hname, -, hzero⟩
    · rw [hiff, hpk d hd, hname]
    · refine iff_of_true hzero ?_
      rintro heq
      rw [heq] at hname
      exact hname hdeclared
  rw [Table.key, List.mem_map]
  constructor
  · rintro ⟨y, hy, rfl⟩
    obtain ⟨hy, hne⟩ := List.mem_filter.1 hy
    by_contra hne'
    exact of_decide_eq_true hne ((hcolumn y hy).2 hne')
  · rintro rfl
    obtain ⟨y, hy, hname⟩ := List.mem_map.1 ((hv.base x.key hdeclared).resolve_left hlater)
    refine ⟨y, List.mem_filter.2 ⟨hy, decide_eq_true fun hzero => ?_⟩, hname⟩
    exact (hcolumn y hy).1 hzero hname

theorem sameKey_iff {x : Seed} (hx : x ∈ seeds) (hv : OfVersion x.table t) {r r' : Row} :
    t.sameKey r r' = true ↔ r x.key ≠ .null ∧ r' x.key = r x.key := by
  have hmem := (mem_key_iff hx hv).2 rfl
  have hkey : t.key ≠ [] := List.ne_nil_of_mem hmem
  rw [Table.sameKey, decide_eq_true hkey, Bool.true_and, List.all_eq_true]
  constructor
  · intro h
    have h := h x.key hmem
    rwa [Bool.and_eq_true, decide_eq_true_eq, decide_eq_true_eq] at h
  · intro h c hc
    rw [(mem_key_iff hx hv).1 hc, Bool.and_eq_true, decide_eq_true_eq, decide_eq_true_eq]
    exact h

theorem settings_seed : (⟨"app_settings", "key", "active_workspace_id"⟩ : Seed) ∈ seeds := by
  decide

theorem uniqueKeys_map {rows : List Row} {g : Row → Row} (h : UniqueKeys rows)
    (hg : ∀ r, g r "key" = r "key") : UniqueKeys (rows.map g) := by
  intro k
  rw [List.countP_map]
  simpa only [Function.comp_def, hg] using h k

/-- A row that does not conflict with the others has a key of its own. -/
theorem uniqueKeys_append {r : Row} (hv : OfVersion "app_settings" t) (h : UniqueKeys t.rows)
    (hr : t.conflicts r = false) : UniqueKeys (t.rows ++ [r]) := by
  intro k
  rw [List.countP_append, List.countP_singleton]
  by_cases hk : r "key" = .text k
  · have hzero : t.rows.countP (· "key" = .text k) = 0 := by
      refine List.countP_eq_zero.2 fun r' hr' heq => ?_
      refine Bool.eq_false_iff.1 (List.any_eq_false.1 hr r' hr' |> Bool.eq_false_iff.2) ?_
      refine (sameKey_iff settings_seed hv).2 ⟨?_, ?_⟩
      · show r "key" ≠ .null
        rw [hk]
        exact fun h => Value.noConfusion h
      · show r' "key" = r "key"
        rw [hk]
        exact of_decide_eq_true heq
    rw [hzero]
    split_ifs <;> simp
  · rw [if_neg (by simpa using hk)]
    exact h k

/-! ### The bootstrap script -/

/-- What the statements of `SCHEMA` have in common with the tables of today. -/
def Statement.fits : Statement → Bool
  | .createTable name d => declared.lookup name = some d && name ∈ upgradable ||
      name = "schema_cache_v2"
  | .insertOrIgnore table values => table ∈ upgradable && table ∉ kept &&
      (table ≠ "workspaces" || values.lookup "kind" = some (.text "personal") &&
        values.lookup "lifecycle_state" = some (.text "active"))
  | _ => true

theorem fits_of_mem : ∀ st ∈ SCHEMA, st.fits = true := by
  decide

theorem lookup_map_at (now c : String) (values : List (String × Given)) :
    (values.map fun v => (v.1, v.2.at now)).lookup c = (values.lookup c).map (Given.at now) := by
  induction values with
  | nil => rfl
  | cons v values ih =>
    rw [List.map_cons, List.lookup_cons, List.lookup_cons, ih]
    cases c == v.1 <;> rfl

theorem moves_bootstrap {now : String} {st : Statement} (hst : st ∈ SCHEMA) (hdb : Legacy db)
    (h : st.run now db = .ok s) : Moves may db s := by
  have hfits := fits_of_mem st hst
  cases st with
  | createTable name d =>
    rcases createTableIfNotExists_eq_ok.1 h with ⟨-, rfl⟩ | ⟨hnone, rfl⟩
    · exact moves_of_tables hdb rfl
    · simp only [Statement.fits, Bool.or_eq_true, Bool.and_eq_true, decide_eq_true_eq] at hfits
      rcases hfits with ⟨hd, hname⟩ | rfl
      · exact moves_of_create hname hd hdb hnone rfl
      · refine moves_of_cacheV2 hdb (fun n hn => ?_) fun hcurrent => ?_
        · rw [Db.set_tables, Function.update_of_ne hn]
        · rw [CurrentV2, Db.tableInfo, hnone] at hcurrent
          exact absurd hcurrent.1 (by decide)
  | createIndex i => exact moves_of_tables hdb (tables_of_createIndex h)
  | createTrigger name table => exact moves_of_tables hdb (tables_of_createTrigger h)
  | insertOrIgnore table values =>
    simp only [Statement.fits, Bool.or_eq_true, Bool.and_eq_true, decide_eq_true_eq] at hfits
    obtain ⟨⟨hname, hkept⟩, hpersonal⟩ := hfits
    obtain ⟨t, ht, ⟨-, rfl⟩ | ⟨hvalues, hnew, rfl⟩⟩ := insertOrIgnore_eq_ok h
    · exact moves_of_tables hdb rfl
    · have hv := hdb.version table hname t ht
      refine moves_of_update hname hdb ht (change_rows hkept hv ?_ ?_ ?_ ?_) rfl
      · intro r hr c hc
        rcases List.mem_append.1 hr with hr | hr
        · exact hv.tidy r hr c hc
        · rw [List.mem_singleton.1 hr]
          exact Table.row_of_not_mem hvalues hc
      · rintro rfl
        have hkeys := hdb.keys
        rw [rows_of_tables ht] at hkeys
        exact uniqueKeys_append hv hkeys hnew
      · rintro rfl w hw hid
        rcases List.mem_append.1 hw with hw | hw
        · refine hdb.personal w ?_ hid
          rw [rows_of_tables ht]
          exact hw
        · obtain ⟨hkind, hstate⟩ := hpersonal.resolve_left fun h => h rfl
          rw [List.mem_singleton.1 hw]
          constructor <;> refine Table.row_of_lookup ?_ <;> rw [lookup_map_at]
          · rw [hkind]
            rfl
          · rw [hstate]
            rfl
      · rintro x - - ⟨r, hr, hkey⟩
        exact ⟨r, List.mem_append_left _ hr, hkey⟩

/-! ### Settings and accounts -/

theorem tidy_map {g : Row → Row} (ht : t.Tidy)
    (hg : ∀ r c, c ∉ t.names → r c = .null → g r c = .null) :
    ({ t with rows := t.rows.map g } : Table).Tidy := by
  intro r hr c hc
  obtain ⟨r₀, hr₀, rfl⟩ := List.mem_map.1 hr
  exact hg r₀ c hc (ht r₀ hr₀ c hc)

/-- The settings change, but for the selected account none goes. -/
theorem moves_settings {rows : List Row} (hdb : Legacy db) (ht : db.tables "app_settings" = some t)
    (htidy : ({ t with rows } : Table).Tidy) (hunique : UniqueKeys t.rows → UniqueKeys rows)
    (hkeys : ∀ k, k ≠ "active_workspace_account_id" → (∃ r ∈ t.rows, r "key" = .text k) →
      ∃ r ∈ rows, r "key" = .text k)
    (h : s.tables = Function.update db.tables "app_settings" (some { t with rows })) :
    Moves may db s := by
  have hseeds : ∀ x ∈ seeds, x.table = "app_settings" →
      x.key = "key" ∧ x.value ≠ "active_workspace_account_id" := by decide
  have hname : "app_settings" ∈ upgradable := by decide
  refine moves_of_update hname hdb ht (change_rows (by decide)
    (hdb.version _ hname t ht) htidy (fun _ => hunique ?_) (fun h => absurd h (by decide))
    fun x hx hne => ?_) h
  · rw [← rows_of_tables ht]
    exact hdb.keys
  obtain ⟨hkey, hvalue⟩ := hseeds x hx hne
  rw [hkey]
  exact hkeys x.value hvalue

theorem moves_activate {workspace : String} {p : Db → Row → Bool} (hdb : Legacy db)
    (h : activate workspace p db = .ok s) : Moves may db s := by
  obtain ⟨t, ht, hcolumns, rfl⟩ := update_eq_ok h
  have hvalue : "value" ∈ t.names := hcolumns (by simp)
  have hv := hdb.version "app_settings" (by decide) t ht
  refine moves_settings hdb ht (tidy_map hv.tidy fun r c hc hr => ?_)
    (fun h => uniqueKeys_map h fun r => ?_) ?_ rfl
  · split_ifs
    · rwa [Function.update_of_ne fun h : c = "value" => hc (h ▸ hvalue)]
    · exact hr
  · split_ifs
    · exact Function.update_of_ne (by decide) _ _
    · rfl
  · rintro k - ⟨r, hr, hk⟩
    refine ⟨_, List.mem_map_of_mem hr, ?_⟩
    split_ifs
    · rwa [Function.update_of_ne (by decide)]
    · exact hk

/-- A new value of a setting. -/
theorem moves_upsert {values : List (String × Value)} (hdb : Legacy db)
    (hvalues : "value" ∈ values.map Prod.fst)
    (h : upsert "app_settings" db values "value" = .ok s) : Moves may db s := by
  obtain ⟨t, ht, hnames, rfl | ⟨hnew, rfl⟩⟩ := upsert_eq_ok h
  all_goals have hv := hdb.version "app_settings" (by decide) t ht
  · refine moves_settings hdb ht (tidy_map hv.tidy fun r c hc hr => ?_)
      (fun h => uniqueKeys_map h fun r => ?_) ?_ rfl
    · split_ifs
      · rwa [Function.update_of_ne fun h : c = "value" => hc (h ▸ hnames hvalues)]
      · exact hr
    · split_ifs
      · exact Function.update_of_ne (by decide) _ _
      · rfl
    · rintro k - ⟨r, hr, hk⟩
      refine ⟨_, List.mem_map_of_mem hr, ?_⟩
      split_ifs
      · rwa [Function.update_of_ne (by decide)]
      · exact hk
  · refine moves_settings hdb ht (fun r hr c hc => ?_)
      (fun h => uniqueKeys_append hv h hnew) ?_ rfl
    · rcases List.mem_append.1 hr with hr | hr
      · exact hv.tidy r hr c hc
      · rw [List.mem_singleton.1 hr]
        exact Table.row_of_not_mem hnames hc
    · rintro k - ⟨r, hr, hk⟩
      exact ⟨r, List.mem_append_left _ hr, hk⟩

theorem moves_clearAccount (hdb : Legacy db) (h : delete "app_settings" db ["key"]
    (· "key" = .text "active_workspace_account_id") = .ok s) : Moves may db s := by
  obtain ⟨t, ht, rfl⟩ := delete_eq_ok h
  have hv := hdb.version "app_settings" (by decide) t ht
  refine moves_settings hdb ht (fun r hr c hc => hv.tidy r (List.mem_filter.1 hr).1 c hc)
    (fun h k => (List.filter_sublist.countP_le).trans (h k)) ?_ rfl
  rintro k hne ⟨r, hr, hk⟩
  refine ⟨r, List.mem_filter.2 ⟨hr, ?_⟩, hk⟩
  simpa [hk] using hne

theorem moves_visit {now workspace user : String} (hdb : Legacy db)
    (h : update "workspace_accounts" db
      ["last_workspace_id", "last_used_at", "updated_at", "user_id"] (· "user_id" = .text user)
      (visit now workspace) = .ok s) : Moves may db s := by
  obtain ⟨t, ht, hcolumns, rfl⟩ := update_eq_ok h
  have hname : "workspace_accounts" ∈ upgradable := by decide
  have hseeds : ∀ x ∈ seeds, x.table ≠ "workspace_accounts" := by decide
  have hv := hdb.version _ hname t ht
  refine moves_of_update hname hdb ht (change_rows (by decide) hv
    (tidy_map hv.tidy fun r c hc hr => ?_) (fun h => absurd h (by decide))
    (fun h => absurd h (by decide)) fun x hx hne => absurd hne (hseeds x hx)) rfl
  have hne : ∀ d ∈ ["last_workspace_id", "last_used_at", "updated_at", "user_id"], c ≠ d :=
    fun d hd h => hc (h ▸ hcolumns hd)
  split_ifs
  · rw [visit, Function.update_of_ne (hne _ (by simp)), Function.update_of_ne (hne _ (by simp)),
      Function.update_of_ne (hne _ (by simp))]
    exact hr
  · exact hr

theorem change_assign (hname : name ∈ resources) (hv : OfVersion name t)
    (hid : "workspace_id" ∈ t.names) : Change may name t { t with rows := t.rows.map assign } := by
  have hresources : ∀ n ∈ resources, n ≠ "app_settings" ∧ n ≠ "workspaces" ∧ n ≠ "audit_log" ∧
      n ∉ seeds.map (·.table) := by decide
  obtain ⟨hsettings, hworkspaces, haudit, hseeds⟩ := hresources name hname
  refine ⟨⟨hv.base, hv.columns, tidy_map hv.tidy fun r c hc hr => ?_⟩,
    fun h => absurd h hsettings, ⟨List.Subset.refl _, fun _ hc => .inl hc,
      fun _ => .inr ⟨hname, hid, List.map_congr_left fun r hr => ?_⟩⟩,
    fun h => absurd h hworkspaces, fun x hx hne => absurd (hne ▸ List.mem_map_of_mem hx) hseeds,
    fun h => absurd h haudit⟩
  · rw [assign]
    split_ifs
    · rwa [Function.update_of_ne fun h : c = "workspace_id" => hc (h ▸ hid)]
    · exact hr
  · exact congrArg assign (extend_self (fun _ h => h) (hv.tidy r hr)).symm

theorem backfill_eq_ok (h : backfill name db = .ok s) : ∃ t, db.tables name = some t ∧
    "workspace_id" ∈ t.names ∧ s = db.set name { t with rows := t.rows.map assign } := by
  obtain ⟨t, ht, hcolumns, rfl⟩ := update_eq_ok h
  refine ⟨t, ht, hcolumns (by simp), ?_⟩
  congr 2
  refine List.map_congr_left fun r _ => ?_
  cases hr : blank (r "workspace_id") with
  | true => rfl
  | false => exact (assign_of_not_blank hr).symm

/-- The resources that are in no workspace are put into the Personal Workspace. -/
theorem moves_backfill (hname : name ∈ resources) (hdb : Legacy db)
    (h : backfill name db = .ok s) : Moves may db s := by
  obtain ⟨t, ht, hid, rfl⟩ := backfill_eq_ok h
  have hup : ∀ n ∈ resources, n ∈ upgradable := by decide
  exact moves_of_update (hup name hname) hdb ht
    (change_assign hname (hdb.version name (hup name hname) t ht) hid) rfl

/-! ### Copied tables -/

theorem rebuild_eq_ok {point : ℕ → Point} {table temporary : String} {d : TableDef}
    {columns : List (String × (String ⊕ Value))} {u : Unit} (hne : table ≠ temporary)
    (h : rebuild point table temporary d columns φ db = (.ok u, s)) :
    ∃ t, db.tables table = some t ∧ s.tables = Function.update db.tables table
      (some { d with
        rows := t.rows.map fun r =>
          ({ d with } : Table).row (columns.map fun c => (c.1, c.2.elim r id)) }) := by
  simp only [rebuild, execute, sql, bind_eq_ok, mapError_eq_ok, exec_eq_ok] at h
  obtain ⟨-, s₁, ⟨-, h₁⟩, -, s₂, ⟨-, h₂⟩, -, s₃, ⟨-, h₃⟩, -, h₄⟩ := h
  obtain ⟨hnone, rfl⟩ := createTable_eq_ok.1 h₁
  have htemporary : (db.set temporary { d with }).tables temporary = some { d with } := by
    rw [Db.set_tables, Function.update_self]
  obtain ⟨t, ht, hs₂⟩ := insertSelect_eq_ok htemporary h₂
  rw [Db.set_tables, Function.update_of_ne hne] at ht
  have hs₃ := tables_of_dropTable h₃
  obtain ⟨v, hv, -, hs⟩ := tables_of_renameTable h₄
  refine ⟨t, ht, ?_⟩
  rw [hs₃, Function.update_of_ne hne.symm, hs₂, Function.update_self] at hv
  cases hv
  rw [hs, hs₃, hs₂]
  funext n
  by_cases hn : n = table
  · subst hn
    rw [Function.update_self, Function.update_self]
    rfl
  · rw [Function.update_of_ne hn, Function.update_of_ne hn]
    by_cases htmp : n = temporary
    · subst htmp
      rw [Function.update_self, hnone]
    · rw [Function.update_of_ne htmp, Function.update_of_ne hn, Function.update_of_ne htmp,
        Db.set_tables, Function.update_of_ne htmp]

/-- A copy with today's columns, in which the rows read as they did. -/
theorem change_rebuild {d : TableDef} {columns : List (String × (String ⊕ Value))}
    (hname : name ∈ rebuilt) (hd : declared.lookup name = some d)
    (hcolumns : columns.map Prod.fst = declaredNames name)
    (hold : ∀ c ∈ t.names, columns.lookup c = some (.inl c))
    (hnew : ∀ c ∈ declaredNames name, c ∉ t.names → columns.lookup c = some (.inr (added name c)))
    (hmay : ∀ c, may name c) (hcascade : mentionsCascade d = false ∨ name ≠ "audit_log")
    (hv : OfVersion name t) :
    Change may name t { d with
      rows := t.rows.map fun r =>
        ({ d with } : Table).row (columns.map fun c => (c.1, c.2.elim r id)) } := by
  have hdeclared : declaredColumns name = d.columns := by rw [declaredColumns, hd]; rfl
  have hnames : ({ d with } : Table).names = declaredNames name := by
    rw [declaredNames, hdeclared]
    rfl
  have hsub : ∀ c ∈ t.names, c ∈ declaredNames name := by
    intro c hc
    obtain ⟨x, hx, rfl⟩ := List.mem_map.1 hc
    rcases hv.columns x hx with ⟨y, hy, hxy, -⟩ | ⟨hnot, -⟩
    · rw [← hxy]
      exact List.mem_map_of_mem hy
    · exact absurd hname hnot
  have hlookup : ∀ (r : Row) (c : String),
      (columns.map fun c => (c.1, c.2.elim r id)).lookup c =
        (columns.lookup c).map fun v => v.elim r id := by
    intro r c
    clear hcolumns hold hnew
    induction columns with
    | nil => rfl
    | cons x columns ih =>
      rw [List.map_cons, List.lookup_cons, List.lookup_cons, ih]
      cases c == x.1 <;> rfl
  have hfst : ∀ r : Row, (columns.map fun c => (c.1, c.2.elim r id)).map Prod.fst ⊆
      ({ d with } : Table).names := by
    intro r
    rw [List.map_map, hnames, ← hcolumns]
    exact fun _ h => h
  have hrow : ∀ r ∈ t.rows, ({ d with } : Table).row (columns.map fun c => (c.1, c.2.elim r id)) =
      extend name t.names (declaredNames name) r := by
    intro r hr
    funext c
    by_cases hc : c ∈ t.names
    · rw [extend, if_pos hc]
      exact Table.row_of_lookup (by rw [hlookup, hold c hc]; rfl)
    · rw [extend, if_neg hc]
      by_cases hc' : c ∈ declaredNames name
      · rw [if_pos hc']
        exact Table.row_of_lookup (by rw [hlookup, hnew c hc' hc]; rfl)
      · rw [if_neg hc']
        exact Table.row_of_not_mem (hfst r) (by rw [hnames]; exact hc')
  have hthree : ∀ n ∈ rebuilt, n ≠ "workspaces" ∧ n ≠ "app_settings" ∧
      n ∉ seeds.map (·.table) := by decide
  obtain ⟨hpersonal, hsettings, hseeds⟩ := hthree name hname
  refine ⟨⟨fun c hc => .inr ?_, fun c hc => .inl ?_, ?_⟩, fun h => absurd h hsettings,
    ⟨?_, fun c hc => .inr ?_, fun _ => .inl ?_⟩, fun h => absurd h hpersonal,
    fun x hx hne => absurd (hne ▸ List.mem_map_of_mem hx) hseeds,
    fun h _ => hcascade.resolve_right fun hne => hne h⟩
  · rw [← hnames] at hc
    exact hc
  · exact ⟨c, by rw [hdeclared]; exact hc, rfl, id, Iff.rfl⟩
  · intro r hr c hc
    obtain ⟨r₀, -, rfl⟩ := List.mem_map.1 hr
    exact Table.row_of_not_mem (hfst r₀) hc
  · intro c hc
    have hc := hsub c hc
    rw [← hnames] at hc
    exact hc
  · rw [← hnames]
    exact ⟨hc, hmay c⟩
  · refine List.map_congr_left fun r hr => ?_
    rw [hrow r hr, ← hnames]
    rfl

/-! ### Parts of the script -/

/-- The columns that a start adds: by a copy, or by a statement that is carried out. -/
def Adds (φ : Faults) (table column : String) : Prop :=
  table ∈ rebuilt ∨ φ (.alter table column) = none

/-- Wherever the part ends, what is known still holds and the file has been upgraded. -/
abbrev Respects (φ : Faults) (m : OpenScript α) : Prop := Steps φ Legacy (Upgrades (Adds φ)) m

theorem upgrades_refl : ∀ db, Legacy db → Upgrades may db db := fun _ h => .refl h.version

theorem upgrades_trans : ∀ a b c, Upgrades may a b → Upgrades may b c → Upgrades may a c :=
  fun _ _ _ h h' => h.trans h'

theorem respects_pure (a : α) : Respects φ (pure a : OpenScript α) := steps_pure upgrades_refl a

theorem respects_fail (e : AppError) : Respects φ (fail e : OpenScript α) :=
  steps_fail upgrades_refl e

theorem respects_bind {m : OpenScript α} {f : α → OpenScript β} (hm : Respects φ m)
    (hf : ∀ a, Respects φ (f a)) : Respects φ (m >>= f) := steps_bind upgrades_trans hm hf

theorem respects_execute {p : Point} {run : Db → Except String Db}
    (h : ∀ db s, Legacy db → run db = .ok s → Moves (Adds φ) db s) : Respects φ (execute p run) :=
  (steps_exec upgrades_refl fun _ => h).mapError AppError.db

theorem respects_fetch (p : Point) (read : Db → Except String α) : Respects φ (fetch p read) :=
  (steps_query upgrades_refl read).mapError AppError.db

theorem respects_bracket (p : Point) : Respects φ (bracket p) :=
  respects_execute fun db s hdb h => by
    cases h
    exact moves_of_tables hdb rfl

theorem respects_forM {l : List β} {f : β → OpenScript Unit} (hf : ∀ b ∈ l, Respects φ (f b)) :
    Respects φ (l.forM f) := steps_forM upgrades_trans upgrades_refl hf

/-- What every part respects, a transaction of them does. -/
theorem respects_transaction {m : OpenScript α} (hm : Respects φ m) :
    Respects φ (transaction m) :=
  steps_transaction upgrades_refl fun db a s hdb h => by
    have hmoves := hm db hdb
    rw [h] at hmoves
    exact hmoves

theorem respects_bootstrap (now : String) : Respects φ (bootstrap now) := by
  refine respects_forM fun st hst => respects_execute fun db s hdb h => ?_
  obtain ⟨hlt, heq⟩ := List.mem_zipIdx' hst
  exact moves_bootstrap (heq ▸ List.getElem_mem hlt) hdb h

theorem respects_alter {x : String × Column} (hx : x ∈ ignoredColumns ++ bindingScopeColumns) :
    Steps φ Legacy (Upgrades (Adds φ)) (alter x) :=
  steps_exec upgrades_refl fun hp _ _ hdb h => moves_addColumn hx (.inr hp) hdb h

theorem respects_addColumns {l : List (String × Column)} (hl : l ⊆ ignoredColumns) :
    Respects φ (addColumns l) :=
  respects_forM fun _ hx =>
    (respects_alter (List.mem_append_left _ (hl hx))).ignoring.mapError AppError.db

theorem respects_bindings : Respects φ addConnectionBindingScopeColumns :=
  respects_forM fun _ hx =>
    ((respects_alter (List.mem_append_right _ hx)).tolerating _).mapError AppError.db

theorem respects_bump (p q : Point) : Respects φ (bumpActiveScopeGeneration p q) := by
  refine respects_bind (respects_fetch _ _) fun raw => ?_
  rcases nextGeneration raw with e | next
  · exact respects_fail e
  · exact respects_execute fun db s hdb h => moves_upsert hdb (by simp) h

theorem respects_bumpIf (repaired : Bool) (p q : Point) : Respects φ (bumpIf repaired p q) := by
  cases repaired
  · exact respects_pure ()
  · exact respects_bump p q

theorem respects_resetActiveWorkspace : Respects φ resetActiveWorkspace := by
  refine respects_bind ?_ fun repaired => respects_bumpIf _ _ _
  refine (steps_stmt upgrades_refl fun _ db a s hdb h => ?_).mapError AppError.db
  rcases hr : activate PERSONAL_WORKSPACE_ID stale db with e | s₁ <;> rw [hr] at h <;> cases h
  exact moves_activate hdb hr

theorem respects_syncState : Respects φ (execute (.foundation 7) (insertOrIgnore "sync_state" ·
    [("workspace_id", .text PERSONAL_WORKSPACE_ID)])) := by
  refine respects_execute fun db s hdb h => ?_
  have hst : Statement.insertOrIgnore "sync_state"
      [("workspace_id", .text PERSONAL_WORKSPACE_ID)] ∈ SCHEMA := by decide
  exact moves_bootstrap hst hdb (show Statement.run "" _ db = .ok s from h)

theorem respects_foundation : Respects φ migrateWorkspaceFoundation := by
  refine respects_transaction (respects_bind (respects_bracket _) fun _ => ?_)
  refine respects_bind (respects_forM fun x hx => ?_) fun _ => ?_
  · obtain ⟨hlt, heq⟩ := List.mem_zipIdx' hx
    exact respects_execute fun db s hdb h => moves_backfill (heq ▸ List.getElem_mem hlt) hdb h
  refine respects_bind respects_resetActiveWorkspace fun _ => ?_
  exact respects_bind respects_syncState fun _ => respects_bracket _

theorem not_mentionsCascade_auditLog : mentionsCascade auditLog = false := by
  decide

/-- The columns of a table that is copied are those of today. -/
theorem names_of_rebuilt (hname : name ∈ rebuilt) (hv : OfVersion name t) {c : String}
    (hc : c ∈ t.names) : c ∈ declaredNames name := by
  obtain ⟨x, hx, rfl⟩ := List.mem_map.1 hc
  rcases hv.columns x hx with ⟨y, hy, hxy, -⟩ | ⟨hnot, -⟩
  · rw [← hxy]
    exact List.mem_map_of_mem hy
  · exact absurd hname hnot

theorem respects_audit : Respects φ migrateAuditNoCascade := by
  refine respects_bind (respects_fetch _ _) fun d => ?_
  split_ifs
  · exact respects_pure ()
  · refine steps_transaction upgrades_refl fun db a s hdb h => ?_
    simp only [bracket, execute, sql, bind_eq_ok, mapError_eq_ok, exec_eq_ok] at h
    obtain ⟨-, s₁, ⟨-, h₁⟩, u, s₂, h₂, -, s₃, ⟨-, h₃⟩, -, h₄⟩ := h
    cases h₁
    cases h₄
    obtain ⟨t, ht, hs₂⟩ := rebuild_eq_ok (by decide) h₂
    have hv := hdb.version "audit_log" (by decide) t ht
    refine moves_of_update (by decide) hdb ht (change_rebuild (by decide) (by decide) (by decide)
      ?_ ?_ (fun _ => .inl (by decide)) (.inl not_mentionsCascade_auditLog) hv)
      ((tables_of_createIndex h₃).trans hs₂)
    · intro c hc
      have hlookup : ∀ c ∈ declaredNames "audit_log",
          (auditColumns.map fun c => (c, (.inl c : String ⊕ Value))).lookup c = some (.inl c) := by
        decide
      exact hlookup c (names_of_rebuilt (by decide) hv hc)
    · intro c hc hnot
      have hlater : later "audit_log" = [] := by decide
      have hbase := hv.base c hc
      rw [hlater] at hbase
      exact absurd (hbase.resolve_left List.not_mem_nil) hnot

/-- The copy of the schema cache. -/
theorem moves_cacheScopes {point : ℕ → Point} {u : Unit} (hdb : Legacy db)
    (hscope : (db.tableInfo "schema_cache").any (·.name = "account_scope") = false)
    (h : rebuild point "schema_cache" "schema_cache_scoped" schemaCache
      [("connection_id", .inl "connection_id"), ("account_scope", .inr (.text "personal")),
        ("introspected_at", .inl "introspected_at"), ("catalog_json", .inl "catalog_json")]
      φ db = (.ok u, s)) : Moves (Adds φ) db s := by
  obtain ⟨t, ht, hs⟩ := rebuild_eq_ok (by decide) h
  have hv := hdb.version "schema_cache" (by decide) t ht
  have hnot : "account_scope" ∉ t.names := by
    intro hmem
    obtain ⟨c, hc, hname⟩ := List.mem_map.1 hmem
    rw [Db.tableInfo, ht] at hscope
    exact List.any_eq_false.1 hscope c hc (decide_eq_true hname)
  refine moves_of_update (by decide) hdb ht (change_rebuild (by decide) (by decide) (by decide)
    ?_ ?_ (fun _ => .inl (by decide)) (.inr (by decide)) hv) hs
  · intro c hc
    have hlookup : ∀ c ∈ declaredNames "schema_cache", c ≠ "account_scope" →
        ([("connection_id", .inl "connection_id"), ("account_scope", .inr (.text "personal")),
          ("introspected_at", .inl "introspected_at"), ("catalog_json", .inl "catalog_json")] :
            List (String × (String ⊕ Value))).lookup c = some (.inl c) := by decide
    exact hlookup c (names_of_rebuilt (by decide) hv hc) fun heq => hnot (heq ▸ hc)
  · intro c hc hmem
    have hlater : later "schema_cache" = ["account_scope"] := by decide
    have hbase := hv.base c hc
    rw [hlater, List.mem_singleton] at hbase
    rw [hbase.resolve_right hmem]
    decide

theorem respects_cacheScopes : Respects φ migrateSchemaCacheScopes := by
  refine steps_bind_of upgrades_trans (respects_fetch _ _) fun s hasScope s' hs hread hs' => ?_
  simp only [fetch, mapError_eq_ok, query_eq_ok, Except.ok.injEq] at hread
  obtain ⟨-, hscope, rfl⟩ := hread
  cases hasScope with
  | true => exact respects_pure () s hs
  | false =>
    refine step_transaction upgrades_refl hs fun a s₁ h => ?_
    simp only [bracket, execute, sql, bind_eq_ok, mapError_eq_ok, exec_eq_ok] at h
    obtain ⟨-, s₂, ⟨-, h₂⟩, u, s₃, h₃, -, h₄⟩ := h
    cases h₂
    cases h₄
    exact moves_cacheScopes hs hscope h₃

theorem tables_of_remakeCacheV2 {u : Unit} (h : remakeCacheV2 false φ db = (.ok u, s)) :
    s.tables = Function.update db.tables "schema_cache_v2" (some { schemaCacheV2 with }) := by
  change transaction _ φ db = _ at h
  simp only [bracket, execute, sql, bind_eq_ok, mapError_eq_ok, exec_eq_ok, transaction_eq_ok] at h
  obtain ⟨-, s₁, ⟨-, h₁⟩, -, s₂, ⟨-, h₂⟩, -, s₃, ⟨-, h₃⟩, -, h₄⟩ := h
  cases h₁
  cases h₄
  obtain ⟨-, rfl⟩ := createTable_eq_ok.1 h₃
  rw [Db.set_tables, tables_of_dropTableIfExists h₂, Function.update_idem]

theorem currentV2_of_tables (h : s.tables "schema_cache_v2" = some { schemaCacheV2 with }) :
    CurrentV2 s := by
  rw [CurrentV2, Db.tableInfo, Db.foreignKeyList, h]
  decide

theorem respects_remakeCacheV2 (current : Bool) : Respects φ (remakeCacheV2 current) := by
  cases current with
  | true => exact respects_pure ()
  | false =>
    refine steps_transaction upgrades_refl fun db a s hdb h => ?_
    have hs := tables_of_remakeCacheV2 (transaction_eq_ok.2 h)
    refine moves_of_cacheV2 hdb (fun n hn => by rw [hs, Function.update_of_ne hn]) fun _ => ?_
    exact currentV2_of_tables (by rw [hs, Function.update_self])

theorem respects_cacheV2 : Respects φ ensureSchemaCacheV2 := by
  refine respects_bind (respects_fetch _ _) fun rows => ?_
  refine respects_bind (respects_fetch _ _) fun keys => ?_
  refine respects_bind (respects_remakeCacheV2 _) fun _ => ?_
  refine respects_bind (respects_execute fun _ _ hdb h => ?_) fun _ =>
    respects_execute fun _ _ hdb h => ?_
  · exact moves_of_tables hdb (tables_of_dropIndex h)
  · exact moves_of_tables hdb (tables_of_createIndex h)

theorem respects_repairAccount (selected : Option String) :
    Respects φ (repairAccount selected) := by
  cases selected with
  | none => exact respects_pure _
  | some user =>
    refine respects_bind (respects_fetch _ _) fun known => ?_
    cases known with
    | true => exact respects_pure _
    | false =>
      exact respects_bind (respects_execute fun _ _ hdb h => moves_clearAccount hdb h)
        fun _ => respects_pure _

theorem respects_chooseFallback (account : Option String) :
    Respects φ (chooseFallback account) := by
  cases account with
  | none => exact respects_pure _
  | some user => exact respects_bind (respects_fetch _ _) fun _ => respects_pure _

theorem respects_visitWorkspace (now workspace : String) (account : Option String) :
    Respects φ (visitWorkspace now workspace account) := by
  cases account with
  | none => exact respects_pure _
  | some user => exact respects_execute fun _ _ hdb h => moves_visit hdb h

theorem respects_repairWorkspace (now workspace : String) (selection : Option String × Bool) :
    Respects φ (repairWorkspace now workspace selection) := by
  refine respects_bind (respects_fetch _ _) fun valid => ?_
  cases valid with
  | true => exact respects_bind (respects_bumpIf _ _ _) fun _ => respects_pure _
  | false =>
    refine respects_bind (respects_chooseFallback _) fun fallback => ?_
    refine respects_bind (respects_execute fun _ _ hdb h => moves_activate hdb h) fun _ => ?_
    refine respects_bind (respects_visitWorkspace _ _ _) fun _ => ?_
    exact respects_bind (respects_bump _ _) fun _ => respects_pure _

theorem respects_repair (now : String) : Respects φ (repairActiveScopeOnOpen now) := by
  refine respects_transaction (respects_bind (respects_bracket _) fun _ => ?_)
  refine respects_bind (respects_bind (respects_fetch _ _) fun current => ?_) fun _ =>
    respects_bracket _
  rcases current with _ | ⟨workspace, selected⟩
  · exact respects_fail _
  · exact respects_bind (respects_repairAccount _) fun _ => respects_repairWorkspace _ _ _

theorem respects_indexes : Respects φ ensureLocalScopeIndexes :=
  respects_forM fun _ _ => respects_execute fun _ _ hdb h =>
    moves_of_tables hdb (tables_of_createIndex h)

/-- **Wherever a start ends, the file has been upgraded** and nothing else. -/
theorem respects_openScript (currentTimestamp now : String) :
    Respects φ (openScript currentTimestamp now) := by
  refine respects_bind (respects_bracket _) fun _ => ?_
  refine respects_bind (respects_bootstrap _) fun _ => ?_
  refine respects_bind (respects_addColumns (by decide)) fun _ => ?_
  refine respects_bind (respects_addColumns (by decide)) fun _ => ?_
  refine respects_bind respects_foundation fun _ => ?_
  refine respects_bind respects_audit fun _ => ?_
  refine respects_bind (respects_addColumns (by decide)) fun _ => ?_
  refine respects_bind respects_bindings fun _ => ?_
  refine respects_bind respects_cacheScopes fun _ => ?_
  refine respects_bind respects_cacheV2 fun _ => ?_
  exact respects_bind (respects_repair _) fun _ => respects_indexes

theorem moves_openStore (start : Start) (hdb : Legacy db) :
    Moves (Adds start.faults) db (openStore start db).2 :=
  respects_openScript _ _ db hdb

/-- Starts in a row, each of which may be interrupted. -/
theorem moves_afterStarts (starts : List Start) (hdb : Legacy db) :
    Moves (fun _ _ => True) db (afterStarts db starts) := by
  induction starts generalizing db with
  | nil => exact moves_of_tables hdb rfl
  | cons start starts ih =>
    obtain ⟨hs, hup⟩ := moves_openStore start hdb
    obtain ⟨hs', hup'⟩ := ih hs
    exact ⟨hs', (hup.mono fun _ _ _ => trivial).trans hup'⟩

end Migrations
end Store
end AgentDb
