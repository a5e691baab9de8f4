import AgentDb.Store.OpenRun

/-!
# Opening a file that is up to date

The repair of the active scope leaves one that is valid, so it finds nothing to do the next time;
so do all the other parts of a start in the file of a start that returned. `idle_openScript` says
that a start changes no table of such a file, whatever befalls its statements.
-/

namespace AgentDb
namespace Store
namespace Migrations

open Ddl Scripts Sorting

variable {db s s' : Db} {name : String} {t t' : Table} {φ : Faults} {u : Unit}

/-! ### The settings -/

/-- The active scope is one that the repair leaves alone. -/
def ScopeSettled (db : Db) : Prop :=
  ∃ workspace account, activeSettings db = .ok (some (workspace, account)) ∧
    (∀ user, account = some user → remembered user db = true) ∧
      scopeValid workspace account db = true

theorem setting_congr {k : String} (h : (s.rows "app_settings").find? (· "key" = .text k) =
    (db.rows "app_settings").find? (· "key" = .text k)) : setting k s = setting k db := by
  rw [setting, setting, h]

theorem find?_map_key {rows : List Row} {g : Row → Row} {k : String}
    (hkey : ∀ r, g r "key" = r "key") : (rows.map g).find? (· "key" = .text k) =
      (rows.find? (· "key" = .text k)).map g := by
  rw [List.find?_map]
  congr 2
  funext r
  rw [Function.comp_apply, hkey]

/-- Rows with another key do not matter to a setting. -/
theorem setting_of_map {g : Row → Row} {k : String} (hrows : s.rows "app_settings" =
    (db.rows "app_settings").map g) (hkey : ∀ r, g r "key" = r "key")
    (hg : ∀ r, r "key" = .text k → g r = r) : setting k s = setting k db := by
  refine setting_congr ?_
  rw [hrows, find?_map_key hkey]
  rcases hr : (db.rows "app_settings").find? (· "key" = .text k) with _ | r <;> rw [hr]
  · rfl
  · have hk : r "key" = .text k := by simpa using List.find?_some hr
    rw [Option.map_some, hg r hk]

theorem rows_of_set : (db.set name t).rows name = t.rows :=
  rows_of_tables (by rw [Db.set_tables, Function.update_self])

theorem tables_of_set {n : String} (hn : n ≠ name) : (db.set name t).tables n = db.tables n := by
  rw [Db.set_tables, Function.update_of_ne hn]

/-- `bump_active_scope_generation` leaves every other setting and table alone. -/
theorem bump_spec {p q : Point} (hdb : Legacy db)
    (h : bumpActiveScopeGeneration p q φ db = (.ok u, s)) :
    (∀ k, k ≠ "active_scope_generation" → setting k s = setting k db) ∧
      ∀ n, n ≠ "app_settings" → s.tables n = db.tables n := by
  obtain ⟨raw, s₁, h₁, h⟩ := bind_eq_ok.1 h
  simp only [fetch, mapError_eq_ok, query_eq_ok] at h₁
  obtain ⟨-, -, rfl⟩ := h₁
  rcases hnext : nextGeneration raw with e | next <;> rw [hnext] at h
  · exact (fail_eq_ok.1 h).elim
  · simp only [execute, sql, mapError_eq_ok, exec_eq_ok] at h
    obtain ⟨t, ht, hnames, hs⟩ := upsert_eq_ok h.2
    have hv := hdb.version "app_settings" (by decide) t ht
    set row := t.row [("key", .text "active_scope_generation"), ("value", .text (toString next))]
    have hrow : row "key" = .text "active_scope_generation" := Table.row_of_lookup rfl
    refine ⟨fun k hk => ?_, fun n hn => ?_⟩
    · rcases hs with rfl | ⟨-, rfl⟩
      · refine setting_of_map (by rw [rows_of_set, rows_of_tables ht]) (fun r => ?_) fun r hr => ?_
        · split_ifs
          · exact Function.update_of_ne (by decide) _ _
          · rfl
        · refine if_neg fun hsame => hk ?_
          have h := ((sameKey_iff settings_seed hv).1 hsame).2
          dsimp only at h
          rw [hr, hrow] at h
          exact Value.text.inj h
      · refine setting_congr ?_
        rw [rows_of_set, rows_of_tables ht, List.find?_append, List.find?_singleton, hrow]
        have hne : ¬ (Value.text "active_scope_generation" = .text k) := fun h =>
          hk (Value.text.inj h).symm
        simp [hne]
    · rcases hs with rfl | ⟨-, rfl⟩ <;> exact tables_of_set hn

theorem bumpIf_spec {repaired : Bool} {p q : Point} (hdb : Legacy db)
    (h : bumpIf repaired p q φ db = (.ok u, s)) :
    (∀ k, k ≠ "active_scope_generation" → setting k s = setting k db) ∧
      ∀ n, n ≠ "app_settings" → s.tables n = db.tables n := by
  cases repaired with
  | true => exact bump_spec hdb h
  | false =>
    obtain ⟨-, rfl⟩ := pure_eq_ok.1 h
    exact ⟨fun _ _ => rfl, fun _ _ => rfl⟩

/-- The workspace that is made active is read back, and no other setting changes. -/
theorem activate_spec {workspace : String}
    (hseed : ∃ r ∈ db.rows "app_settings", r "key" = .text "active_workspace_id")
    (h : activate workspace (fun _ r => r "key" = .text "active_workspace_id") db = .ok s) :
    setting "active_workspace_id" s = .ok (some workspace) ∧
      (∀ k, k ≠ "active_workspace_id" → setting k s = setting k db) ∧
        ∀ n, n ≠ "app_settings" → s.tables n = db.tables n := by
  obtain ⟨t, ht, -, rfl⟩ := update_eq_ok h
  have hkey : ∀ r : Row, (if decide (r "key" = .text "active_workspace_id") = true then
      Function.update r "value" (.text workspace) else r) "key" = r "key" := by
    intro r
    split_ifs
    · exact Function.update_of_ne (by decide) _ _
    · rfl
  refine ⟨?_, fun k hk => setting_of_map (by rw [rows_of_set, rows_of_tables ht]) hkey ?_,
    fun n hn => tables_of_set hn⟩
  · rw [setting, rows_of_set, find?_map_key hkey]
    rw [rows_of_tables ht] at hseed
    obtain ⟨r, hr, hk⟩ := hseed
    rcases hfind : t.rows.find? (· "key" = .text "active_workspace_id") with _ | r'
    · exact absurd (decide_eq_true hk) (List.find?_eq_none.1 hfind r hr)
    · have hr' : r' "key" = .text "active_workspace_id" := by simpa using List.find?_some hfind
      rw [hfind, Option.map_some, if_pos (decide_eq_true hr')]
      simp
  · intro r hr
    refine if_neg fun h => hk ?_
    rw [hr] at h
    exact Value.text.inj (of_decide_eq_true h)

/-- The selected account is forgotten, and no other setting changes. -/
theorem clearAccount_spec (h : delete "app_settings" db ["key"]
    (· "key" = .text "active_workspace_account_id") = .ok s) :
    setting "active_workspace_account_id" s = .ok none ∧
      (∀ k, k ≠ "active_workspace_account_id" → setting k s = setting k db) ∧
        ∀ n, n ≠ "app_settings" → s.tables n = db.tables n := by
  obtain ⟨t, ht, rfl⟩ := delete_eq_ok h
  refine ⟨?_, fun k hk => setting_congr ?_, fun n hn => tables_of_set hn⟩
  · have hnone : (t.rows.filter fun r =>
        !decide (r "key" = .text "active_workspace_account_id")).find?
        (· "key" = .text "active_workspace_account_id") = none := by
      refine List.find?_eq_none.2 fun r hr => ?_
      have hne := (List.mem_filter.1 hr).2
      rwa [Bool.not_eq_true', ← Bool.not_eq_true] at hne
    rw [setting, rows_of_set, hnone]
  · rw [rows_of_set, rows_of_tables ht, List.find?_filter]
    congr 1
    funext r
    by_cases hr : r "key" = .text k
    · simp [hr, hk]
    · simp [hr]

theorem remembered_visit {now workspace user user' : String}
    (h : update "workspace_accounts" db
      ["last_workspace_id", "last_used_at", "updated_at", "user_id"] (· "user_id" = .text user)
      (visit now workspace) = .ok s) : remembered user' s = remembered user' db := by
  obtain ⟨t, ht, -, rfl⟩ := update_eq_ok h
  rw [remembered, remembered, rows_of_set, rows_of_tables ht, List.any_map]
  congr 1
  funext r
  rw [Function.comp_apply]
  split_ifs
  · rw [visit, Function.update_of_ne (by decide), Function.update_of_ne (by decide),
      Function.update_of_ne (by decide)]
  · rfl

/-! ### The repair of the active scope -/

theorem scopeValid_congr {workspace : String} {account : Option String}
    (h : ∀ n, n ≠ "app_settings" → n ≠ "workspace_accounts" → s.tables n = db.tables n) :
    scopeValid workspace account s = scopeValid workspace account db := by
  have hrows : ∀ n, n ≠ "app_settings" → n ≠ "workspace_accounts" → s.rows n = db.rows n :=
    fun n hn hn' => by rw [Db.rows, Db.rows, h n hn hn']
  rw [scopeValid, scopeValid, hrows _ (by decide) (by decide), hrows _ (by decide) (by decide)]

theorem remembered_congr {user : String}
    (h : s.tables "workspace_accounts" = db.tables "workspace_accounts") :
    remembered user s = remembered user db := by
  rw [remembered, remembered, Db.rows, Db.rows, h]

theorem activeSettings_eq_ok {workspace : String} {account : Option String} :
    activeSettings db = .ok (some (workspace, account)) ↔
      setting "active_workspace_id" db = .ok (some workspace) ∧
        setting "active_workspace_account_id" db = .ok account := by
  rw [activeSettings]
  rcases setting "active_workspace_id" db with e | _ | w
  · simp [bind, Except.bind]
  · simp [bind, Except.bind, pure, Except.pure]
  · rcases setting "active_workspace_account_id" db with e | a
    · simp [bind, Except.bind]
    · simp [bind, Except.bind, pure, Except.pure]

/-- The Personal Workspace can always be active. -/
theorem scopeValid_personal {account : Option String} (hdb : Legacy db)
    (hseed : ∃ w ∈ db.rows "workspaces", w "id" = .text PERSONAL_WORKSPACE_ID) :
    scopeValid PERSONAL_WORKSPACE_ID account db = true := by
  obtain ⟨w, hw, hid⟩ := hseed
  obtain ⟨hkind, hstate⟩ := hdb.personal w hw hid
  refine List.any_eq_true.2 ⟨w, hw, ?_⟩
  simp [hid, hkind, hstate]

/-- A workspace the user is an active member of can be active with the user. -/
theorem scopeValid_of_membership {user f : String} {p : Row × Row} (hp : p ∈ memberships user db)
    (hf : p.1 "workspace_id" = .text f) : scopeValid f (some user) db = true := by
  obtain ⟨m, hm, hp⟩ := List.mem_flatMap.1 hp
  obtain ⟨w, hw, rfl⟩ := List.mem_map.1 hp
  obtain ⟨hm, huser⟩ := List.mem_filter.1 hm
  obtain ⟨hw, hwid⟩ := List.mem_filter.1 hw
  simp only [Bool.and_eq_true, decide_eq_true_eq] at huser hwid
  dsimp only at hf
  refine List.any_eq_true.2 ⟨w, hw, ?_⟩
  rw [hwid.1.2, hf, hwid.2]
  simp only [decide_true, Bool.true_and, Option.any_some, Bool.or_eq_true]
  refine .inr (List.any_eq_true.2 ⟨m, hm, ?_⟩)
  simp [hf, huser.1, huser.2]

theorem textOrNull_eq_some {v : Value} {f : String} (h : textOrNull v = .ok (some f)) :
    v = .text f := by
  cases v with
  | text s => cases h; rfl
  | null => cases h
  | integer n => cases h
  | real bits => cases h
  | blob bytes => cases h

theorem fallback_membership {user f : String} (h : fallbackWorkspace user db = .ok (some f)) :
    ∃ p ∈ memberships user db, p.1 "workspace_id" = .text f := by
  have hlast : lastWorkspace user db = .text f →
      ∃ p ∈ memberships user db, p.1 "workspace_id" = .text f := by
    intro h
    rcases hhead : (((db.rows "workspace_accounts").filter (· "user_id" = .text user)).flatMap
      fun a => ((memberships user db).filter fun p =>
        p.1 "workspace_id" = a "last_workspace_id").map fun _ => a "last_workspace_id").head?
      with _ | v
    · rw [lastWorkspace, hhead] at h
      exact Value.noConfusion h
    · rw [lastWorkspace, hhead, Option.getD_some] at h
      obtain ⟨a, -, hv⟩ := List.mem_flatMap.1 (List.mem_of_mem_head? hhead)
      obtain ⟨p, hp, rfl⟩ := List.mem_map.1 hv
      obtain ⟨hp, heq⟩ := List.mem_filter.1 hp
      exact ⟨p, hp, (of_decide_eq_true heq).trans h⟩
  have hfirst : (((sortBy (fun p => textOf (p.2 "name")) (memberships user db)).head?.map
      fun p => p.1 "workspace_id").getD .null) = .text f →
        ∃ p ∈ memberships user db, p.1 "workspace_id" = .text f := by
    intro h
    rcases hhead : (sortBy (fun p => textOf (p.2 "name")) (memberships user db)).head? with _ | p
    · rw [hhead] at h
      exact Value.noConfusion h
    · rw [hhead] at h
      exact ⟨p, (sortBy_perm _ _).subset (List.mem_of_mem_head? hhead), h⟩
  simp only [fallbackWorkspace] at h
  by_cases hnull : lastWorkspace user db = .null
  · rw [if_neg (by simp [hnull])] at h
    exact hfirst (textOrNull_eq_some h)
  · rw [if_pos hnull] at h
    exact hlast (textOrNull_eq_some h)

theorem chooseFallback_spec {account : Option String} {f : String} (hdb : Legacy db)
    (hseed : ∃ w ∈ db.rows "workspaces", w "id" = .text PERSONAL_WORKSPACE_ID)
    (h : chooseFallback account φ db = (.ok f, s)) :
    s = db ∧ scopeValid f account db = true := by
  cases account with
  | none =>
    obtain ⟨rfl, rfl⟩ := pure_eq_ok.1 h
    exact ⟨rfl, scopeValid_personal hdb hseed⟩
  | some user =>
    obtain ⟨fallback, s₁, h₁, h⟩ := bind_eq_ok.1 h
    simp only [fetch, mapError_eq_ok, query_eq_ok] at h₁
    obtain ⟨-, hfallback, rfl⟩ := h₁
    obtain ⟨rfl, rfl⟩ := pure_eq_ok.1 h
    refine ⟨rfl, ?_⟩
    cases fallback with
    | none => exact scopeValid_personal hdb hseed
    | some f =>
      obtain ⟨p, hp, hf⟩ := fallback_membership hfallback
      exact scopeValid_of_membership hp hf

/-- The selection that is left: an account that is remembered, or none. -/
theorem repairAccount_spec {workspace : String} {selected : Option String}
    {selection : Option String × Bool}
    (hsettings : activeSettings db = .ok (some (workspace, selected)))
    (h : repairAccount selected φ db = (.ok selection, s)) :
    activeSettings s = .ok (some (workspace, selection.1)) ∧
      (∀ user, selection.1 = some user → remembered user s = true) ∧
        ∀ n, n ≠ "app_settings" → s.tables n = db.tables n := by
  cases selected with
  | none =>
    obtain ⟨rfl, rfl⟩ := pure_eq_ok.1 h
    exact ⟨hsettings, by simp, fun _ _ => rfl⟩
  | some user =>
    obtain ⟨known, s₁, h₁, h⟩ := bind_eq_ok.1 h
    simp only [fetch, mapError_eq_ok, query_eq_ok, Except.ok.injEq] at h₁
    obtain ⟨-, hknown, rfl⟩ := h₁
    cases known with
    | true =>
      obtain ⟨rfl, rfl⟩ := pure_eq_ok.1 h
      refine ⟨hsettings, fun user' huser => ?_, fun _ _ => rfl⟩
      rw [← Option.some.inj huser]
      exact hknown
    | false =>
      obtain ⟨u, s₂, h₂, h⟩ := bind_eq_ok.1 h
      simp only [execute, sql, mapError_eq_ok, exec_eq_ok] at h₂
      obtain ⟨rfl, rfl⟩ := pure_eq_ok.1 h
      obtain ⟨haccount, hother, htables⟩ := clearAccount_spec h₂.2
      refine ⟨activeSettings_eq_ok.2 ⟨?_, haccount⟩, by simp, htables⟩
      rw [hother _ (by decide)]
      exact (activeSettings_eq_ok.1 hsettings).1

theorem visitWorkspace_spec {now workspace : String} {account : Option String}
    (h : visitWorkspace now workspace account φ db = (.ok u, s)) :
    (∀ user, remembered user s = remembered user db) ∧
      ∀ n, n ≠ "workspace_accounts" → s.tables n = db.tables n := by
  cases account with
  | none =>
    obtain ⟨-, rfl⟩ := pure_eq_ok.1 h
    exact ⟨fun _ => rfl, fun _ _ => rfl⟩
  | some user =>
    simp only [visitWorkspace, execute, sql, mapError_eq_ok, exec_eq_ok] at h
    refine ⟨fun _ => remembered_visit h.2, fun n hn => ?_⟩
    obtain ⟨t, -, -, rfl⟩ := update_eq_ok h.2
    exact tables_of_set hn

theorem settled_of_repairWorkspace {now workspace : String} {selection : Option String × Bool}
    {r : Bool} (hdb : Legacy db)
    (hseed : ∀ x ∈ seeds, Seeded x db)
    (hsettings : activeSettings db = .ok (some (workspace, selection.1)))
    (hremembered : ∀ user, selection.1 = some user → remembered user db = true)
    (h : repairWorkspace now workspace selection φ db = (.ok r, s)) : ScopeSettled s := by
  obtain ⟨hworkspace, haccount⟩ := activeSettings_eq_ok.1 hsettings
  obtain ⟨valid, s₁, h₁, h⟩ := bind_eq_ok.1 h
  simp only [fetch, mapError_eq_ok, query_eq_ok, Except.ok.injEq] at h₁
  obtain ⟨-, hvalid, rfl⟩ := h₁
  cases valid with
  | true =>
    obtain ⟨u, s₂, h₂, h⟩ := bind_eq_ok.1 h
    obtain ⟨-, rfl⟩ := pure_eq_ok.1 h
    obtain ⟨hother, htables⟩ := bumpIf_spec hdb h₂
    refine ⟨workspace, selection.1, activeSettings_eq_ok.2 ⟨?_, ?_⟩, fun user huser => ?_, ?_⟩
    · rw [hother _ (by decide), hworkspace]
    · rw [hother _ (by decide), haccount]
    · rw [remembered_congr (htables _ (by decide))]
      exact hremembered user huser
    · rw [scopeValid_congr fun n hn _ => htables n hn]
      exact hvalid
  | false =>
    obtain ⟨f, s₂, h₂, h⟩ := bind_eq_ok.1 h
    obtain ⟨u₃, s₃, h₃, h⟩ := bind_eq_ok.1 h
    obtain ⟨u₄, s₄, h₄, h⟩ := bind_eq_ok.1 h
    obtain ⟨u₅, s₅, h₅, h⟩ := bind_eq_ok.1 h
    obtain ⟨-, rfl⟩ := pure_eq_ok.1 h
    obtain ⟨rfl, hf⟩ := chooseFallback_spec hdb (hseed _ (by decide : (⟨"workspaces", "id",
      PERSONAL_WORKSPACE_ID⟩ : Seed) ∈ seeds)) h₂
    simp only [execute, sql, mapError_eq_ok, exec_eq_ok] at h₃
    have hs₃ : Moves (fun _ _ => True) s₂ s₃ := moves_activate hdb h₃.2
    obtain ⟨hactive, hother, htables⟩ := activate_spec (hseed _ settings_seed) h₃.2
    obtain ⟨hvisited, htables'⟩ := visitWorkspace_spec h₄
    have hs₄ : Legacy s₄ := by
      have := (respects_visitWorkspace (φ := φ) now f selection.1 s₃ hs₃.1).1
      rwa [h₄] at this
    obtain ⟨hother', htables''⟩ := bump_spec hs₄ h₅
    have hsetting : ∀ k, setting k s₄ = setting k s₃ := fun k => by
      rw [setting, setting, Db.rows, Db.rows, htables' _ (by decide)]
    refine ⟨f, selection.1, activeSettings_eq_ok.2 ⟨?_, ?_⟩, fun user huser => ?_, ?_⟩
    · rw [hother' _ (by decide), hsetting, hactive]
    · rw [hother' _ (by decide), hsetting, hother _ (by decide), haccount]
    · rw [remembered_congr (htables'' _ (by decide)), hvisited,
        remembered_congr (htables _ (by decide))]
      exact hremembered user huser
    · rw [scopeValid_congr fun n hn hn' => (htables'' n hn).trans ((htables' n hn').trans
        (htables n hn))]
      exact hf

/-- **The repair leaves an active scope that is valid.** -/
theorem settled_of_repair {now : String} (hdb : Legacy db) (hseed : ∀ x ∈ seeds, Seeded x db)
    (h : repairActiveScopeOnOpen now φ db = (.ok u, s)) : ScopeSettled s := by
  simp only [repairActiveScopeOnOpen, bracket, execute, sql, transaction_eq_ok, bind_eq_ok,
    mapError_eq_ok, exec_eq_ok] at h
  obtain ⟨-, s₁, ⟨-, h₁⟩, r, s₂, h₂, -, h₃⟩ := h
  cases h₁
  cases h₃
  obtain ⟨current, s₃, h₃, h₂⟩ := bind_eq_ok.1 h₂
  simp only [fetch, mapError_eq_ok, query_eq_ok] at h₃
  obtain ⟨-, hsettings, rfl⟩ := h₃
  rcases current with _ | ⟨workspace, selected⟩
  · exact (fail_eq_ok.1 h₂).elim
  · obtain ⟨selection, s₄, h₄, h₂⟩ := bind_eq_ok.1 h₂
    obtain ⟨hsettings', hremembered, -⟩ := repairAccount_spec hsettings h₄
    have hmoves := respects_repairAccount (φ := φ) selected db hdb
    rw [h₄] at hmoves
    exact settled_of_repairWorkspace hmoves.1
      (fun x hx => hmoves.2.seeded x hx (hseed x hx)) hsettings' hremembered h₂

/-! ### A file that is up to date -/

/-- Every table has every column that is read today. -/
def HasEveryColumn (db : Db) : Prop :=
  ∀ x ∈ declared, ∃ t, db.tables x.1 = some t ∧ ∀ c ∈ x.2.columns, c.name ∈ t.names

/-- A start has nothing left to do. -/
structure Migrated (db : Db) : Prop where
  columns : HasEveryColumn db
  placed : ∀ name ∈ resources, Placed name db
  noCascade : NoCascade db
  currentV2 : CurrentV2 db
  seeded : ∀ x ∈ seeds, Seeded x db
  scope : ScopeSettled db

/-- What holds while a start finds nothing to do. -/
structure Idle (tables : String → Option Table) (db : Db) : Prop where
  good : Legacy db
  migrated : Migrated db
  tables : db.tables = tables

theorem settled_of_tables (h : s.tables = db.tables) (hdb : ScopeSettled db) : ScopeSettled s := by
  have hrows : s.rows = db.rows := by funext n; rw [Db.rows, Db.rows, h]
  obtain ⟨workspace, account, hsettings, hremembered, hvalid⟩ := hdb
  refine ⟨workspace, account, ?_, fun user huser => ?_, ?_⟩
  · rw [activeSettings_eq_ok, setting, setting, hrows]
    exact activeSettings_eq_ok.1 hsettings
  · rw [remembered, hrows]
    exact hremembered user huser
  · rw [scopeValid, hrows]
    exact hvalid

theorem idle_of_tables {tables : String → Option Table} (hdb : Idle tables db)
    (h : s.tables = db.tables) : Idle tables s := by
  obtain ⟨hgood, hup⟩ : Moves (fun _ _ => True) db s := moves_of_tables hdb.good h
  refine ⟨hgood, ⟨?_, fun n hn => placed_upgrades hup hn (hdb.migrated.placed n hn),
    hup.noCascade hdb.migrated.noCascade, hup.currentV2 hdb.migrated.currentV2,
    fun x hx => hup.seeded x hx (hdb.migrated.seeded x hx),
    settled_of_tables h hdb.migrated.scope⟩, h.trans hdb.tables⟩
  rw [HasEveryColumn, h]
  exact hdb.migrated.columns

section

variable {tables : String → Option Table} {α β : Type}

/-- The part changes no table. -/
abbrev Idles (φ : Faults) (tables : String → Option Table) (m : OpenScript α) : Prop :=
  Steps φ (Idle tables) (fun _ _ => True) m

theorem idles_pure (a : α) : Idles φ tables (pure a : OpenScript α) :=
  steps_pure (fun _ _ => trivial) a

theorem idles_execute {p : Point} {run : Db → Except String Db}
    (h : ∀ db s, Legacy db → Migrated db → run db = .ok s → s.tables = db.tables) :
    Idles φ tables (execute p run) :=
  (steps_exec (fun _ _ => trivial) fun _ db s hdb hs =>
    ⟨idle_of_tables hdb (h db s hdb.good hdb.migrated hs), trivial⟩).mapError AppError.db

theorem idles_bracket (p : Point) : Idles φ tables (bracket p) :=
  idles_execute fun db s _ _ h => by
    cases h
    rfl

theorem idles_bind {m : OpenScript α} {f : α → OpenScript β} (hm : Idles φ tables m)
    (hf : ∀ a, Idles φ tables (f a)) : Idles φ tables (m >>= f) :=
  steps_bind (fun _ _ _ _ _ => trivial) hm hf

/-- What is read decides what comes next. -/
theorem idles_fetch {p : Point} {read : Db → Except String α} {f : α → OpenScript β}
    (hf : ∀ db a, Idle tables db → read db = .ok a → Idles φ tables (f a)) :
    Idles φ tables (fetch p read >>= f) := by
  refine steps_bind_of (fun _ _ _ _ _ => trivial)
    ((steps_query (fun _ _ => trivial) read).mapError AppError.db) fun s a s' hs h hs' => ?_
  simp only [fetch, mapError_eq_ok, query_eq_ok] at h
  exact hf s a hs h.2.1 s' hs'

theorem idles_forM {l : List β} {f : β → OpenScript Unit} (hf : ∀ b ∈ l, Idles φ tables (f b)) :
    Idles φ tables (l.forM f) := steps_forM (fun _ _ _ _ _ => trivial) (fun _ _ => trivial) hf

theorem idles_transaction {m : OpenScript α} (hm : Idles φ tables m) :
    Idles φ tables (transaction m) :=
  steps_transaction (fun _ _ => trivial) fun db a s hdb h => by
    have := hm db hdb
    rwa [h] at this

/-- The statement inserts a row. -/
def Statement.isInsert : Statement → Bool
  | .insertOrIgnore _ _ => true
  | _ => false

theorem seed_of_insert : ∀ st ∈ SCHEMA, st.isInsert = true → ∃ x ∈ seeds, st.inserts x = true := by
  decide

theorem tables_of_bootstrap {now : String} {st : Statement} (hst : st ∈ SCHEMA) (hgood : Legacy db)
    (hdb : Migrated db) (h : st.run now db = .ok s) : s.tables = db.tables := by
  cases st with
  | createTable name d =>
    have hmem : (name, d) ∈ declared := List.mem_filterMap.2 ⟨_, hst, rfl⟩
    obtain ⟨t, ht, -⟩ := hdb.columns _ hmem
    rcases createTableIfNotExists_eq_ok.1 h with ⟨-, rfl⟩ | ⟨hnone, -⟩
    · rfl
    · rw [hnone] at ht
      cases ht
  | createIndex i => exact tables_of_createIndex h
  | createTrigger name table => exact tables_of_createTrigger h
  | insertOrIgnore table values =>
    obtain ⟨x, hx, hins⟩ := seed_of_insert _ hst rfl
    rw [Statement.inserts, Bool.and_eq_true, decide_eq_true_eq, decide_eq_true_eq] at hins
    obtain ⟨rfl, hlookup⟩ := hins
    obtain ⟨t, ht, ⟨-, rfl⟩ | ⟨-, hnew, -⟩⟩ := insertOrIgnore_eq_ok h
    · rfl
    · have hv := hgood.version x.table (seed_declared x hx).1 t ht
      have hseeded := hdb.seeded x hx
      rw [Seeded, rows_of_tables ht] at hseeded
      have hrow : t.row (values.map fun v => (v.1, v.2.at now)) x.key = .text x.value :=
        Table.row_of_lookup (by rw [lookup_map_at, hlookup]; rfl)
      rw [(conflicts_iff hx hv hrow).2 hseeded] at hnew
      cases hnew

theorem idles_bootstrap (now : String) : Idles φ tables (bootstrap now) := by
  refine idles_forM fun st hst => idles_execute fun db s hgood hdb h => ?_
  obtain ⟨hlt, heq⟩ := List.mem_zipIdx' hst
  exact tables_of_bootstrap (heq ▸ List.getElem_mem hlt) hgood hdb h

/-- A column that is there is not added. -/
theorem idles_alter {x : String × Column} (hx : x ∈ ignoredColumns ++ bindingScopeColumns)
    (tolerated : String → Bool) :
    Idles φ tables (mapError AppError.db (tolerating tolerated (alter x))) := by
  have hmem : ∀ x ∈ ignoredColumns ++ bindingScopeColumns, ∃ y ∈ declared, y.1 = x.1 ∧
      x.2 ∈ y.2.columns := by decide
  refine ((steps_exec (fun _ _ => trivial) fun _ db s hdb h => ?_).tolerating _).mapError _
  obtain ⟨y, hy, hname, hc⟩ := hmem x hx
  obtain ⟨t, ht, hnew, -⟩ := addColumn_eq_ok.1 h
  obtain ⟨t', ht', hcolumns⟩ := hdb.migrated.columns y hy
  rw [hname, ht] at ht'
  cases ht'
  exact absurd (hcolumns x.2 hc) hnew

theorem idles_addColumns {l : List (String × Column)} (hl : l ⊆ ignoredColumns) :
    Idles φ tables (addColumns l) :=
  idles_forM fun _ hx => idles_alter (List.mem_append_left _ (hl hx)) _

theorem idles_bindings : Idles φ tables addConnectionBindingScopeColumns :=
  idles_forM fun _ hx => idles_alter (List.mem_append_right _ hx) _

theorem eq_of_uniqueKeys {rows : List Row} {k : String} {r r' : Row} (h : UniqueKeys rows)
    (hr : r ∈ rows) (hr' : r' ∈ rows) (hk : r "key" = .text k) (hk' : r' "key" = .text k) :
    r = r' := by
  have hlength := h k
  rw [List.countP_eq_length_filter] at hlength
  have hmem : r ∈ rows.filter (· "key" = .text k) := List.mem_filter.2 ⟨hr, decide_eq_true hk⟩
  have hmem' : r' ∈ rows.filter (· "key" = .text k) := List.mem_filter.2 ⟨hr', decide_eq_true hk'⟩
  rcases hl : rows.filter (· "key" = .text k) with _ | ⟨a, _ | ⟨b, l⟩⟩ <;> rw [hl] at hmem hmem'
  · exact absurd hmem List.not_mem_nil
  · rw [List.mem_singleton.1 hmem, List.mem_singleton.1 hmem']
  · rw [hl] at hlength
    simp at hlength

theorem setting_eq_some {k v : String} (h : setting k db = .ok (some v)) :
    ∃ r ∈ db.rows "app_settings", r "key" = .text k ∧ r "value" = .text v := by
  rw [setting] at h
  rcases hr : (db.rows "app_settings").find? (· "key" = .text k) with _ | r <;> rw [hr] at h
  · cases h
  · refine ⟨r, List.mem_of_find?_eq_some hr, by simpa using List.find?_some hr, ?_⟩
    dsimp only at h
    rcases hv : r "value" with _ | n | b | w | b <;> rw [hv] at h <;> cases h
    rfl

/-- The active workspace is one of the workspaces. -/
theorem stale_eq_false (hgood : Legacy db) (hdb : Migrated db) {r : Row}
    (hr : r ∈ db.rows "app_settings") : stale db r = false := by
  obtain ⟨workspace, account, hsettings, -, hvalid⟩ := hdb.scope
  by_cases hkey : r "key" = .text "active_workspace_id"
  · obtain ⟨r', hr', hkey', hvalue⟩ := setting_eq_some (activeSettings_eq_ok.1 hsettings).1
    obtain ⟨w, hw, hid⟩ := List.any_eq_true.1 hvalid
    simp only [Bool.and_eq_true, decide_eq_true_eq] at hid
    rw [eq_of_uniqueKeys hgood.keys hr hr' hkey hkey', stale, Bool.and_eq_false_iff,
      Bool.not_eq_false']
    refine .inr (List.any_eq_true.2 ⟨w, hw, ?_⟩)
    simp [hvalue, hid.1.1]
  · rw [stale, decide_eq_false hkey, Bool.false_and]

theorem tables_of_activate {workspace : String} (hgood : Legacy db) (hdb : Migrated db)
    (h : activate workspace stale db = .ok s) : s.tables = db.tables := by
  obtain ⟨t, ht, -, rfl⟩ := update_eq_ok h
  have hrows : (t.rows.map fun r => if stale db r then Function.update r "value" (.text workspace)
      else r) = t.rows := by
    refine (List.map_congr_left fun r hr => ?_).trans (List.map_id _)
    rw [stale_eq_false hgood hdb (by rw [rows_of_tables ht]; exact hr)]
    rfl
  rw [Db.set_tables, hrows, ← ht, Function.update_eq_self]

/-- No resource is left to put into the Personal Workspace. -/
theorem tables_of_backfill (hdb : Migrated db) (hname : name ∈ resources)
    (h : backfill name db = .ok s) : s.tables = db.tables := by
  obtain ⟨t, ht, -, rfl⟩ := backfill_eq_ok h
  obtain ⟨t', ht', -, hplaced⟩ := hdb.placed name hname
  rw [ht] at ht'
  cases ht'
  have hrows : t.rows.map assign = t.rows :=
    (List.map_congr_left fun r hr => assign_of_not_blank (hplaced r hr)).trans (List.map_id _)
  rw [Db.set_tables, hrows, ← ht, Function.update_eq_self]

theorem idles_resetActiveWorkspace : Idles φ tables resetActiveWorkspace := by
  refine steps_bind_of (fun _ _ _ _ _ => trivial) ?_ fun s repaired s' hs h hs' => ?_
  · refine (steps_stmt (fun _ _ => trivial) fun _ db a s hdb h => ⟨?_, trivial⟩).mapError _
    rcases hr : activate PERSONAL_WORKSPACE_ID stale db with e | s₁ <;> rw [hr] at h <;> cases h
    exact idle_of_tables hdb (tables_of_activate hdb.good hdb.migrated hr)
  · simp only [mapError_eq_ok, stmt_eq_ok] at h
    have hrepaired : repaired = false := by
      rcases hr : activate PERSONAL_WORKSPACE_ID stale s with e | s₁ <;> rw [hr] at h
      · cases h.2
      · have hnone : (s.rows "app_settings").any (stale s) = false :=
          List.any_eq_false.2 fun r hr => by
            rw [stale_eq_false hs.good hs.migrated hr]
            exact Bool.false_ne_true
        rw [hnone] at h
        cases h.2
        rfl
    subst hrepaired
    exact idles_pure () s' hs'

theorem idles_foundation : Idles φ tables migrateWorkspaceFoundation := by
  refine idles_transaction (idles_bind (idles_bracket _) fun _ => ?_)
  refine idles_bind (idles_forM fun x hx => ?_) fun _ => ?_
  · obtain ⟨hlt, heq⟩ := List.mem_zipIdx' hx
    exact idles_execute fun db s _ hdb h => tables_of_backfill hdb (heq ▸ List.getElem_mem hlt) h
  refine idles_bind idles_resetActiveWorkspace fun _ => ?_
  refine idles_bind (idles_execute fun db s hgood hdb h => ?_) fun _ => idles_bracket _
  have hst : Statement.insertOrIgnore "sync_state"
      [("workspace_id", .text PERSONAL_WORKSPACE_ID)] ∈ SCHEMA := by decide
  exact tables_of_bootstrap hst hgood hdb (show Statement.run "" _ db = .ok s from h)

theorem idles_audit : Idles φ tables migrateAuditNoCascade := by
  refine idles_fetch fun db d hdb h => ?_
  obtain ⟨t, ht, hcascade⟩ := hdb.migrated.noCascade
  rw [ht] at h
  cases h
  rw [Option.map_some, Option.any_some, hcascade]
  exact idles_pure ()

theorem idles_cacheScopes : Idles φ tables migrateSchemaCacheScopes := by
  refine idles_fetch fun db hasScope hdb h => ?_
  have hmem : ∃ y ∈ declared, y.1 = "schema_cache" ∧
      ∃ c ∈ y.2.columns, c.name = "account_scope" := by decide
  obtain ⟨y, hy, hname, c, hc, hscope⟩ := hmem
  obtain ⟨t, ht, hcolumns⟩ := hdb.migrated.columns y hy
  obtain ⟨d, hd, hdname⟩ := List.mem_map.1 (hcolumns c hc)
  have hinfo : (db.tableInfo "schema_cache").any (·.name = "account_scope") = true := by
    rw [Db.tableInfo, ← hname, ht]
    exact List.any_eq_true.2 ⟨d, hd, decide_eq_true (hdname.trans hscope)⟩
  rw [hinfo] at h
  cases h
  exact idles_pure ()

theorem idles_cacheV2 : Idles φ tables ensureSchemaCacheV2 := by
  refine idles_fetch fun db rows hdb h => idles_fetch fun db' keys hdb' h' => ?_
  have hrows : shapeIsCurrent rows = true := by
    rw [← Except.ok.inj h]
    exact hdb.migrated.currentV2.1
  have hkeys : foreignKeysAreCurrent keys = true := by
    rw [← Except.ok.inj h']
    exact hdb'.migrated.currentV2.2
  rw [hrows, hkeys]
  refine idles_bind (idles_pure ()) fun _ => ?_
  exact idles_bind (idles_execute fun _ _ _ _ h => tables_of_dropIndex h) fun _ =>
    idles_execute fun _ _ _ _ h => tables_of_createIndex h

/-- An account that is remembered stays selected. -/
theorem repairAccount_eq_ok {account : Option String} {selection : Option String × Bool}
    (hremembered : ∀ user, account = some user → remembered user db = true)
    (h : repairAccount account φ db = (.ok selection, s)) :
    selection = (account, false) ∧ s = db := by
  cases account with
  | none =>
    obtain ⟨rfl, rfl⟩ := pure_eq_ok.1 h
    exact ⟨rfl, rfl⟩
  | some user =>
    obtain ⟨known, s₁, h₁, h⟩ := bind_eq_ok.1 h
    simp only [fetch, mapError_eq_ok, query_eq_ok, Except.ok.injEq] at h₁
    obtain ⟨-, hknown, rfl⟩ := h₁
    rw [← hknown, hremembered user rfl] at h
    obtain ⟨rfl, rfl⟩ := pure_eq_ok.1 h
    exact ⟨rfl, rfl⟩

theorem idles_repairAccount {account : Option String}
    (h : ∀ db, Idle tables db → ∀ user, account = some user → remembered user db = true) :
    Steps φ (Idle tables) (fun _ _ => True) (repairAccount account) := by
  cases account with
  | none => exact idles_pure _
  | some user =>
    refine idles_fetch fun db known hdb hknown => ?_
    rw [← Except.ok.inj hknown, h db hdb user rfl]
    exact idles_pure _

theorem idles_repair (now : String) : Idles φ tables (repairActiveScopeOnOpen now) := by
  refine idles_transaction (idles_bind (idles_bracket _) fun _ => ?_)
  refine idles_bind (idles_fetch fun db current hdb h => ?_) fun _ => idles_bracket _
  obtain ⟨workspace, account, hsettings, hremembered, hvalid⟩ := hdb.migrated.scope
  rw [hsettings] at h
  cases h
  have htables : ∀ db', Idle tables db' → db'.tables = db.tables := fun db' h =>
    h.tables.trans hdb.tables.symm
  have hknown : ∀ db', Idle tables db' → ∀ user, account = some user →
      remembered user db' = true := by
    intro db' hdb' user huser
    rw [remembered_congr (congrFun (htables db' hdb') _)]
    exact hremembered user huser
  refine steps_bind_of (fun _ _ _ _ _ => trivial) (idles_repairAccount hknown)
    fun s selection s' hs h hs' => ?_
  obtain ⟨rfl, -⟩ := repairAccount_eq_ok (hknown s hs) h
  refine idles_fetch (fun db' valid hdb' h => ?_) s' hs'
  rw [← Except.ok.inj h, scopeValid_congr fun n _ _ => congrFun (htables db' hdb') n, hvalid]
  exact idles_bind (idles_pure ()) fun _ => idles_pure _

theorem idles_indexes : Idles φ tables ensureLocalScopeIndexes :=
  idles_forM fun _ _ => idles_execute fun _ _ _ _ h => tables_of_createIndex h

theorem idles_openScript (currentTimestamp now : String) :
    Idles φ tables (openScript currentTimestamp now) := by
  refine idles_bind (idles_bracket _) fun _ => ?_
  refine idles_bind (idles_bootstrap _) fun _ => ?_
  refine idles_bind (idles_addColumns (by decide)) fun _ => ?_
  refine idles_bind (idles_addColumns (by decide)) fun _ => ?_
  refine idles_bind idles_foundation fun _ => ?_
  refine idles_bind idles_audit fun _ => ?_
  refine idles_bind (idles_addColumns (by decide)) fun _ => ?_
  refine idles_bind idles_bindings fun _ => ?_
  refine idles_bind idles_cacheScopes fun _ => ?_
  refine idles_bind idles_cacheV2 fun _ => ?_
  exact idles_bind (idles_repair _) fun _ => idles_indexes

end

/-- **Opening a file that is up to date changes no table**, whatever befalls the statements. -/
theorem tables_of_starts (hgood : Legacy db) (hdb : Migrated db) (starts : List Start) :
    (afterStarts db starts).tables = db.tables := by
  suffices H : ∀ s, Idle db.tables s → Idle db.tables (afterStarts s starts) from
    (H db ⟨hgood, hdb, rfl⟩).tables
  induction starts with
  | nil => exact fun _ hs => hs
  | cons start starts ih => exact fun s hs => ih _ (idles_openScript _ _ s hs).1

end Migrations
end Store
end AgentDb
