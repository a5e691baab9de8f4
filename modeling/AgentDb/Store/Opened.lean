import AgentDb.Store.Reopen

/-!
# Upgrades that are interrupted

A file of an earlier version is opened any number of times, and each time statements may fail and
the process may die anywhere. No row of the user is lost on the way, and every audit log keeps its
verdict. A start that returns has brought the file up to date exactly when no statement of those
whose errors are ignored failed to add a column that was missing: `opened_iff_careful`.
-/

namespace AgentDb
namespace Store
namespace Migrations

open Ddl Scripts

/-! ### What is promised -/

section Verdict

variable (dateTime : String → AppResult DateTime) (uuidFromStr : String → Except String Uuid)
  (sha256 : List UInt8 → Vector UInt8 32)

/-- `try_get::<String>`. -/
def textColumn (c : String) (r : Row) : AppResult String :=
  match r c with
  | .text s => .ok s
  | _ => .error (.db ("error occurred while decoding column " ++ c))

/-- `try_get::<Option<String>>`. -/
def textOption (c : String) (r : Row) : AppResult (Option String) :=
  match r c with
  | .null => .ok none
  | .text s => .ok (some s)
  | _ => .error (.db ("error occurred while decoding column " ++ c))

/-- `try_get::<Option<i64>>`. -/
def integerOption (c : String) (r : Row) : AppResult (Option ℤ) :=
  match r c with
  | .null => .ok none
  | .integer n => .ok (some n)
  | _ => .error (.db ("error occurred while decoding column " ++ c))

/-- The columns that `row_to_audit` reads. -/
def auditRow (r : Row) : AppResult Audit.AuditRow := do
  return {
    id := ← textColumn "id" r
    connectionId := ← textColumn "connection_id" r
    ts := ← textColumn "ts" r >>= dateTime
    engine := ← textColumn "engine" r
    agentPrompt := ← textOption "agent_prompt" r
    sql := ← textColumn "sql" r
    kind := ← textColumn "kind" r
    action := ← textColumn "action" r
    approvedBy := ← textOption "approved_by" r
    affectedEstimate := ← integerOption "affected_estimate" r
    error := ← textOption "error" r
    prevHash := ← textOption "prev_hash" r
    hash := ← textColumn "hash" r }

/-- `verify_chain` on the rows of the file; `dateTime` is how `sqlx` reads a timestamp. -/
def verifyChain (db : Db) (connectionId : Uuid) : AppResult (Bool × Option ℕ) := do
  let rows := (db.rows "audit_log").filter (· "connection_id" = .text connectionId.toText)
  let entries ← rows.mapM fun r => auditRow dateTime r >>= Audit.rowToAudit uuidFromStr
  return Audit.verifyEntries sha256 entries

end Verdict

/-- The row with its old fields, and the defaults in the columns that are new. A resource that was
in no workspace may have been put into the personal one. -/
def KeepsRow (name : String) (t t' : Table) (r r' : Row) : Prop :=
  ∀ c ∈ t'.names, r' c = (if c ∈ t.names then r c else added name c) ∨
    (name ∈ resources ∧ c = "workspace_id" ∧ c ∈ t.names ∧ blank (r c) = true ∧
      r' c = .text PERSONAL_WORKSPACE_ID)

/-- No row of the user is lost or moved, and every audit log keeps its verdict. -/
structure Keeps (db s : Db) : Prop where
  rows : ∀ name ∈ kept, ∀ t, db.tables name = some t → ∃ t', s.tables name = some t' ∧
    t.names ⊆ t'.names ∧ List.Forall₂ (KeepsRow name t t') t.rows t'.rows
  verdicts : ∀ dateTime uuidFromStr sha256 connectionId,
    verifyChain dateTime uuidFromStr sha256 s connectionId =
      verifyChain dateTime uuidFromStr sha256 db connectionId

/-- Two files have the same columns and the same rows of the user. -/
structure SameResult (s s' : Db) : Prop where
  columns : ∀ name ∈ upgradable, ∀ t t', s.tables name = some t → s'.tables name = some t' →
    ∀ c, c ∈ t.names ↔ c ∈ t'.names
  rows : ∀ name ∈ kept, s.rows name = s'.rows name

/-- None of the statements whose errors are ignored fails to add a column that is missing. -/
def Careful (db : Db) (φ : Faults) : Prop :=
  ∀ x ∈ ignoredColumns, ∀ t, db.tables x.1 = some t → x.2.name ∉ t.names →
    ∀ f, φ (.alter x.1 x.2.name) ≠ some (.fails f)

/-- The file of a start that returned, from one that an earlier version left. -/
structure Opened (db s : Db) : Prop where
  migrated : Migrated s
  same : ∀ starts start, (openStore start (afterStarts db starts)).1 = .ok () →
    Careful (afterStarts db starts) start.faults →
      SameResult s (openStore start (afterStarts db starts)).2
  reopened : ∀ starts, (afterStarts s starts).tables = s.tables

/-! ### Rows -/

variable {may : String → String → Prop} {db s s' : Db} {name c : String} {t t' : Table}
  {φ : Faults} {u : Unit}

theorem kept_upgradable : ∀ name ∈ kept, name ∈ upgradable := by
  decide

theorem auditRows_eq (hdb : Shaped db) (hup : Upgrades may db s) :
    s.rows "audit_log" = db.rows "audit_log" := by
  have hname : "audit_log" ∈ upgradable := by decide
  have hkept : "audit_log" ∈ kept := by decide
  have hlater : later "audit_log" = [] := by decide
  rcases hdb' : db.tables "audit_log" with _ | t
  · rw [Db.rows, Db.rows, hdb']
    rcases hs : s.tables "audit_log" with _ | t'
    · rfl
    · exact (hup.created _ hname hdb' t' hs).2 hkept
  · obtain ⟨t', ht', hu⟩ := hup.table _ hname t hdb'
    have hv := hdb _ hname t hdb'
    have hrows := (hu.rows hkept).resolve_right fun h => absurd h.1 (by decide)
    rw [rows_of_tables ht', rows_of_tables hdb', hrows]
    refine (List.map_congr_left fun r hr => ?_).trans (List.map_id _)
    refine extend_self (fun c hc => ?_) (hv.tidy r hr)
    rcases hu.only c hc with hc | ⟨hc, -⟩
    · exact hc
    · have hbase := hv.base c hc
      rw [hlater] at hbase
      exact hbase.resolve_left List.not_mem_nil

theorem keepsRow_extend (r : Row) : KeepsRow name t t' r (extend name t.names t'.names r) := by
  intro c hc
  rw [extend]
  by_cases hold : c ∈ t.names
  · exact .inl (by rw [if_pos hold, if_pos hold])
  · exact .inl (by rw [if_neg hold, if_neg hold, if_pos hc])

theorem keepsRow_assign (hname : name ∈ resources) (r : Row) :
    KeepsRow name t t' r (assign (extend name t.names t'.names r)) := by
  intro c hc
  rcases hblank : blank (extend name t.names t'.names r "workspace_id") with _ | _
  · rw [assign_of_not_blank hblank]
    exact keepsRow_extend r c hc
  · rw [assign, if_pos hblank]
    by_cases hid : c = "workspace_id"
    · subst hid
      have hadded : ∀ n ∈ resources, blank (added n "workspace_id") = false := by decide
      by_cases hold : "workspace_id" ∈ t.names
      · rw [extend, if_pos hold] at hblank
        exact .inr ⟨hname, rfl, hold, hblank, Function.update_self _ _ _⟩
      · rw [extend, if_neg hold, if_pos hc, hadded name hname] at hblank
        exact Bool.noConfusion hblank
    · rw [Function.update_of_ne hid]
      exact keepsRow_extend r c hc

theorem keeps_of_upgrades (hdb : Shaped db) (hup : Upgrades may db s) : Keeps db s where
  rows name hname t ht := by
    obtain ⟨t', ht', hu⟩ := hup.table name (kept_upgradable name hname) t ht
    refine ⟨t', ht', hu.names, ?_⟩
    rcases hu.rows hname with h | ⟨hres, -, h⟩ <;> rw [h, List.forall₂_map_right_iff]
    · exact List.forall₂_same.2 fun r _ => keepsRow_extend r
    · exact List.forall₂_same.2 fun r _ => keepsRow_assign hres r
  verdicts dateTime uuidFromStr sha256 connectionId := by
    rw [verifyChain, verifyChain, auditRows_eq hdb hup]

/-! ### Columns -/

theorem declared_columns : ∀ x ∈ declared, declaredColumns x.1 = x.2.columns := by
  decide

/-- The columns of a file with every column: those that were there and those of today. -/
theorem mem_names_iff (hup : Upgrades may db s) (hall : HasEveryColumn s)
    (hname : name ∈ upgradable) (ht : s.tables name = some t) :
    c ∈ t.names ↔ c ∈ (db.tables name).elim [] (·.names) ∨ c ∈ declaredNames name := by
  have hdeclared : c ∈ declaredNames name → c ∈ t.names := by
    intro hc
    obtain ⟨x, hx, rfl⟩ := List.mem_map.1 (List.mem_filter.1 hname).1
    obtain ⟨t', ht', hcolumns⟩ := hall x hx
    rw [ht] at ht'
    cases ht'
    rw [declaredNames, declared_columns x hx] at hc
    obtain ⟨d, hd, rfl⟩ := List.mem_map.1 hc
    exact hcolumns d hd
  rcases hdb : db.tables name with _ | t₀
  · rw [(hup.created name hname hdb t ht).1 c]
    simp
  · obtain ⟨t', ht', hu⟩ := hup.table name hname t₀ hdb
    rw [ht] at ht'
    cases ht'
    refine ⟨fun hc => (hu.only c hc).imp id And.left, fun h => ?_⟩
    exact h.elim (fun hc => hu.names hc) hdeclared

/-- The rows of a table once its resources are placed. -/
theorem rows_of_placed (hu : Upgrade may name t t') (hkept : name ∈ kept)
    (hs : s.tables name = some t') (hplaced : ∀ n ∈ resources, Placed n s) :
    t'.rows = t.rows.map fun r =>
      if name ∈ resources then assign (extend name t.names t'.names r)
      else extend name t.names t'.names r := by
  rcases hu.rows hkept with h | ⟨hres, -, h⟩
  · rw [h]
    refine List.map_congr_left fun r hr => ?_
    split_ifs with hres
    · obtain ⟨t₁, ht₁, -, hblank⟩ := hplaced name hres
      rw [hs] at ht₁
      cases ht₁
      exact (assign_of_not_blank (hblank _ (h ▸ List.mem_map_of_mem hr))).symm
    · rfl
  · simp only [h, if_pos hres]

theorem sameResult_of_upgrades {may' : String → String → Prop} (hup : Upgrades may db s)
    (hup' : Upgrades may' db s') (hs : Migrated s) (hs' : Migrated s') : SameResult s s' := by
  have hcolumns : ∀ name ∈ upgradable, ∀ t t', s.tables name = some t →
      s'.tables name = some t' → ∀ c, c ∈ t.names ↔ c ∈ t'.names := by
    intro name hname t t' ht ht' c
    rw [mem_names_iff hup hs.columns hname ht, mem_names_iff hup' hs'.columns hname ht']
  refine ⟨hcolumns, fun name hname => ?_⟩
  have hname' := kept_upgradable name hname
  obtain ⟨x, hx, rfl⟩ := List.mem_map.1 (List.mem_filter.1 hname').1
  obtain ⟨t, ht, -⟩ := hs.columns x hx
  obtain ⟨t', ht', -⟩ := hs'.columns x hx
  rw [rows_of_tables ht, rows_of_tables ht']
  rcases hdb : db.tables x.1 with _ | t₀
  · rw [(hup.created _ hname' hdb t ht).2 hname, (hup'.created _ hname' hdb t' ht').2 hname]
  · obtain ⟨t₁, ht₁, hu⟩ := hup.table _ hname' t₀ hdb
    obtain ⟨t₂, ht₂, hu'⟩ := hup'.table _ hname' t₀ hdb
    rw [ht] at ht₁
    rw [ht'] at ht₂
    cases ht₁
    cases ht₂
    have hextend : ∀ r, extend x.1 t₀.names t.names r = extend x.1 t₀.names t'.names r := by
      intro r
      funext c
      simp only [extend, hcolumns x.1 hname' t t' ht ht' c]
    rw [rows_of_placed hu hname ht hs.placed, rows_of_placed hu' hname ht' hs'.placed]
    simp only [hextend]

/-! ### Starts that return -/

theorem mem_upgradable_of_ignored : ∀ x ∈ ignoredColumns, x.1 ∈ upgradable ∧
    x.2.name ∈ declaredNames x.1 ∧ x.1 ∉ rebuilt := by
  decide

/-- A column that is not there when its statement fails was there before, or came with its table. -/
theorem has_of_careful {x : String × Column} {f : Failure} (hcareful : Careful db φ)
    (hx : x ∈ ignoredColumns) (hf : φ (.alter x.1 x.2.name) = some (.fails f))
    (hup : Upgrades may db s) (hsome : (s.tables x.1).isSome) : Has x.1 x.2.name s := by
  obtain ⟨hname, hdeclared, -⟩ := mem_upgradable_of_ignored x hx
  rcases hdb : db.tables x.1 with _ | t
  · obtain ⟨t', ht'⟩ := Option.isSome_iff_exists.1 hsome
    exact ⟨t', ht', ((hup.created x.1 hname hdb t' ht').1 _).2 hdeclared⟩
  · by_cases hc : x.2.name ∈ t.names
    · exact has_upgrades hup hname ⟨t, hdb, hc⟩
    · exact absurd hf (hcareful x hx t hdb hc f)

/-- The columns of today are those that came later and those that every version has. -/
theorem hasEveryColumn_of_has (hs : Shaped s) (hsome : ∀ n ∈ upgradable, (s.tables n).isSome)
    (hhas : ∀ x ∈ ignoredColumns ++ bindingScopeColumns, Has x.1 x.2.name s)
    (hscope : Has "schema_cache" "account_scope" s) (hv2 : CurrentV2 s) : HasEveryColumn s := by
  intro x hx
  by_cases hne : x.1 = "schema_cache_v2"
  · have hdef : ∀ y ∈ declared, y.1 = "schema_cache_v2" → y.2 = schemaCacheV2 := by decide
    rw [hne, hdef x hx hne]
    exact has_of_currentV2 hv2
  · have hname : x.1 ∈ upgradable :=
      List.mem_filter.2 ⟨List.mem_map_of_mem hx, decide_eq_true hne⟩
    obtain ⟨t, ht⟩ := Option.isSome_iff_exists.1 (hsome x.1 hname)
    refine ⟨t, ht, fun c hc => ?_⟩
    have hdeclared : c.name ∈ declaredNames x.1 := by
      rw [declaredNames, declared_columns x hx]
      exact List.mem_map_of_mem hc
    have hmem : Has x.1 c.name s → c.name ∈ t.names := by
      rintro ⟨t', ht', hc⟩
      rw [ht] at ht'
      cases ht'
      exact hc
    rcases (hs x.1 hname t ht).base c.name hdeclared with hlater | hold
    · rcases List.mem_append.1 hlater with hlater | hlater
      · obtain ⟨y, hy, hcolumn⟩ := List.mem_map.1 hlater
        obtain ⟨hy, htable⟩ := List.mem_filter.1 hy
        rw [← of_decide_eq_true htable, ← hcolumn] at hmem
        rw [← hcolumn]
        exact hmem (hhas y hy)
      · split_ifs at hlater with htable
        · rw [List.mem_singleton.1 hlater, htable] at hmem
          rw [List.mem_singleton.1 hlater]
          exact hmem hscope
        · exact absurd hlater List.not_mem_nil
    · exact hold

theorem tables_of_indexes (h : ensureLocalScopeIndexes φ db = (.ok u, s)) :
    s.tables = db.tables := by
  let R (a b : Db) : Prop := b.tables = a.tables
  have hrefl : ∀ a, True → R a a := fun _ _ => rfl
  have htrans : ∀ a b c, R a b → R b c → R a c := fun _ _ _ h h' => h'.trans h
  have hsteps : Steps φ (fun _ => True) R ensureLocalScopeIndexes :=
    steps_forM htrans hrefl fun i _ => (steps_exec hrefl fun _ _ _ _ h =>
      ⟨trivial, tables_of_createIndex h⟩).mapError AppError.db
  have := (hsteps db trivial).2
  rwa [h] at this

/-- **A start that returns has brought the file up to date**, if no ignored error hid a column. -/
theorem migrated_of_openScript {currentTimestamp now : String} (hdb : Legacy db)
    (hcareful : Careful db φ) (h : openScript currentTimestamp now φ db = (.ok u, s)) :
    Migrated s := by
  obtain ⟨u₁, s₁, h₁, h⟩ := bind_eq_ok.1 h
  obtain ⟨u₂, s₂, h₂, h⟩ := bind_eq_ok.1 h
  obtain ⟨u₃, s₃, h₃, h⟩ := bind_eq_ok.1 h
  obtain ⟨u₄, s₄, h₄, h⟩ := bind_eq_ok.1 h
  obtain ⟨u₅, s₅, h₅, h⟩ := bind_eq_ok.1 h
  obtain ⟨u₆, s₆, h₆, h⟩ := bind_eq_ok.1 h
  obtain ⟨u₇, s₇, h₇, h⟩ := bind_eq_ok.1 h
  obtain ⟨u₈, s₈, h₈, h⟩ := bind_eq_ok.1 h
  obtain ⟨u₉, s₉, h₉, h⟩ := bind_eq_ok.1 h
  obtain ⟨u₁₀, s₁₀, h₁₀, h⟩ := bind_eq_ok.1 h
  obtain ⟨u₁₁, s₁₁, h₁₁, h⟩ := bind_eq_ok.1 h
  have hopen : openColumns ⊆ ignoredColumns := by decide
  have hworkspace : workspaceColumns ⊆ ignoredColumns := by decide
  have hscope : localScopeColumns ⊆ ignoredColumns := by decide
  -- every part respects the file, so what an earlier one left behind is there in the end
  obtain ⟨hs₁, hup₁⟩ := (respects_bracket _).of_ok hdb h₁
  obtain ⟨hs₂, hup₂⟩ := (respects_bootstrap _).of_ok hs₁ h₂
  obtain ⟨hs₃, hup₃⟩ := (respects_addColumns hopen).of_ok hs₂ h₃
  obtain ⟨hs₄, hup₄⟩ := (respects_addColumns hworkspace).of_ok hs₃ h₄
  obtain ⟨hs₅, hup₅⟩ := respects_foundation.of_ok hs₄ h₅
  obtain ⟨hs₆, hup₆⟩ := respects_audit.of_ok hs₅ h₆
  obtain ⟨hs₇, hup₇⟩ := (respects_addColumns hscope).of_ok hs₆ h₇
  obtain ⟨hs₈, hup₈⟩ := respects_bindings.of_ok hs₇ h₈
  obtain ⟨hs₉, hup₉⟩ := respects_cacheScopes.of_ok hs₈ h₉
  obtain ⟨hs₁₀, hup₁₀⟩ := respects_cacheV2.of_ok hs₉ h₁₀
  obtain ⟨hs₁₁, hup₁₁⟩ := (respects_repair _).of_ok hs₁₀ h₁₁
  obtain ⟨hs, hup⟩ := respects_indexes.of_ok hs₁₁ h
  have hto₂ := hup₁.trans hup₂
  have hfrom₅ := (hup₃.trans hup₄).trans hup₅
  have hfrom₆ := hfrom₅.trans hup₆
  have hfrom₇ := hfrom₆.trans hup₇
  have hfrom₁₀ := ((hfrom₇.trans hup₈).trans hup₉).trans hup₁₀
  have hafter₁₀ := hup₁₁.trans hup
  have hafter₈ := (hup₉.trans hup₁₀).trans hafter₁₀
  have hafter₆ := (hup₇.trans hup₈).trans hafter₈
  have hafter₅ := hup₆.trans hafter₆
  have hafter₃ := (hup₄.trans hup₅).trans hafter₅
  have hafter₂ := hup₃.trans hafter₃
  obtain ⟨hsome₂, hseeded⟩ := bootstrap_spec hs₁ h₂
  have hsome : ∀ {s'}, Upgrades (Adds φ) s₂ s' → ∀ n ∈ upgradable, (s'.tables n).isSome :=
    fun hup n hn => isSome_upgrades hup hn (hsome₂ n hn)
  have hname : ∀ x ∈ ignoredColumns ++ bindingScopeColumns, x.1 ∈ upgradable :=
    fun x hx => (column_declared x hx).2.1
  -- the columns: a statement that fails without a trace is one whose column was there
  have hcolumns : ∀ {l a b u}, l ⊆ ignoredColumns → addColumns l φ a = (.ok u, b) →
      Legacy a → Upgrades (Adds φ) db a → Upgrades (Adds φ) s₂ a → Upgrades (Adds φ) b s →
        ∀ x ∈ l, Has x.1 x.2.name s := by
    intro l a b u hl h ha hto hfrom₂ hafter x hx
    refine has_upgrades hafter (hname x (List.mem_append_left _ (hl hx))) ?_
    refine has_of_forM (fun x hx => List.mem_append_left _ (hl hx)) ?_ ha (hsome hfrom₂) h x hx
    intro y hy f hf _
    exact has_of_careful hcareful (hl hy) hf hto
      (hsome hfrom₂ _ (hname y (List.mem_append_left _ (hl hy))))
  have hbindings : ∀ x ∈ bindingScopeColumns, Has x.1 x.2.name s := fun x hx => by
    refine has_upgrades hafter₈ (hname x (List.mem_append_right _ hx)) ?_
    refine has_of_forM (List.subset_append_right _ _) (fun y _ f _ hf => ?_) hs₇
      (hsome hfrom₇) h₈ x hx
    rw [f.other] at hf
    exact Bool.noConfusion hf
  have hlate : ∀ x ∈ ignoredColumns ++ bindingScopeColumns, Has x.1 x.2.name s := by
    intro x hx
    rcases List.mem_append.1 hx with hx | hx
    · rcases List.mem_append.1 hx with hx | hx
      · rcases List.mem_append.1 hx with hx | hx
        · exact hcolumns hopen h₃ hs₂ hto₂ (.refl hs₂.version) hafter₃ x hx
        · exact hcolumns hworkspace h₄ hs₃ (hto₂.trans hup₃) hup₃ (hup₅.trans hafter₅) x hx
      · exact hcolumns hscope h₇ hs₆ (hto₂.trans hfrom₆) hfrom₆ (hup₈.trans hafter₈) x hx
    · exact hbindings x hx
  have hv2 := hafter₁₀.currentV2 (currentV2_of_cacheV2 h₁₀)
  have haccount := has_upgrades (hup₁₀.trans hafter₁₀) (by decide) (has_of_cacheScopes h₉)
  refine ⟨hasEveryColumn_of_has hs.version (hsome hafter₂) hlate haccount hv2, fun n hn => ?_,
    ?_, hv2, fun x hx => hafter₂.seeded x hx (hseeded x hx), ?_⟩
  · exact placed_upgrades hafter₅ hn (placed_of_foundation hs₄ h₅ n hn)
  · exact hafter₆.noCascade (noCascade_of_audit (hsome hfrom₅ _ (by decide)) h₆)
  · exact settled_of_tables (tables_of_indexes h)
      (settled_of_repair hs₁₀ (fun x hx => hfrom₁₀.seeded x hx (hseeded x hx)) h₁₁)

/-- A column that was missing and is there was added by a statement that was carried out. -/
theorem careful_of_columns (hup : Upgrades (Adds φ) db s) (hs : HasEveryColumn s) :
    Careful db φ := by
  intro x hx t ht hmissing f hf
  obtain ⟨hname, hdeclared, hrebuilt⟩ := mem_upgradable_of_ignored x hx
  obtain ⟨t', ht', hu⟩ := hup.table x.1 hname t ht
  obtain ⟨y, hy, heq⟩ := List.mem_map.1 (List.mem_filter.1 hname).1
  obtain ⟨t'', ht'', hcolumns⟩ := hs y hy
  rw [heq, ht'] at ht''
  cases ht''
  rw [← heq, declaredNames, declared_columns y hy] at hdeclared
  obtain ⟨c, hc, hcolumn⟩ := List.mem_map.1 hdeclared
  rcases hu.only x.2.name (hcolumn ▸ hcolumns c hc) with hold | ⟨-, hadds | hadds⟩
  · exact hmissing hold
  · exact hrebuilt hadds
  · rw [hf] at hadds
    cases hadds

/-- **No start loses a row of the user or changes the verdict on an audit log, and one that returns
has brought the file up to date exactly if no error that it ignored kept a missing column away.**
A file that is up to date stays as it is. -/
theorem opened_iff_careful (hdb : Legacy db) (starts : List Start) (start : Start) :
    Keeps db (afterStarts db starts) ∧ Keeps db (openStore start (afterStarts db starts)).2 ∧
      ((openStore start (afterStarts db starts)).1 = .ok () →
        (Opened db (openStore start (afterStarts db starts)).2 ↔
          Careful (afterStarts db starts) start.faults)) ∧
      (Migrated db → (afterStarts db starts).tables = db.tables) := by
  obtain ⟨hbefore, hto⟩ := moves_afterStarts starts hdb
  obtain ⟨hafter, hup⟩ := moves_openStore start hbefore
  have hall := hto.trans (hup.mono fun _ _ _ => trivial)
  refine ⟨keeps_of_upgrades hdb.version hto, keeps_of_upgrades hdb.version hall, fun hok => ?_,
    fun hmigrated => tables_of_starts hdb hmigrated starts⟩
  refine ⟨fun h => careful_of_columns hup h.migrated.columns, fun hcareful => ?_⟩
  have hmigrated : Migrated (openStore start (afterStarts db starts)).2 :=
    migrated_of_openScript hbefore hcareful (Prod.ext hok rfl)
  refine ⟨hmigrated, fun starts' start' hok' hcareful' => ?_, fun starts' => ?_⟩
  · obtain ⟨hbefore', hto'⟩ := moves_afterStarts starts' hdb
    obtain ⟨-, hup'⟩ := moves_openStore start' hbefore'
    exact sameResult_of_upgrades hall (hto'.trans (hup'.mono fun _ _ _ => trivial)) hmigrated
      (migrated_of_openScript hbefore' hcareful' (Prod.ext hok' rfl))
  · exact tables_of_starts hafter hmigrated starts'

/-! ### A column that stays away -/

/-- The values of a connection. -/
def connectionValues : List (String × Value) :=
  [("id", .text "c1"), ("name", .text "main"), ("engine", .text "postgres"),
    ("provider", .text "auto"), ("host", .text "localhost"), ("port", .integer 5432),
    ("db_name", .text "main"), ("username", .text "u"), ("sslmode", .text "prefer"),
    ("extra_params", .text "\x7b\x7d"), ("readonly_default", .integer 1),
    ("allow_writes", .integer 0),
    ("workspace_id", .text PERSONAL_WORKSPACE_ID), ("revision", .integer 1),
    ("sync_status", .text "local"), ("workspace_access", .text "local"),
    ("credential_mode", .text "local"), ("created_at", .text "2025-01-02T03:04:05+00:00"),
    ("updated_at", .text "2025-01-02T03:04:05+00:00")]

/-- The connections of a file from before `env`. -/
def connectionsBeforeEnv : Table where
  columns := connections.columns.filter (·.name ≠ "env")
  foreignKeys := connections.foreignKeys
  rows := [fun c => (connectionValues.lookup c).getD .null]

/-- A file from before `env` with one connection. -/
def fileBeforeEnv : Db where
  tables := Function.update (fun _ => none) "connections" (some connectionsBeforeEnv)

/-- A start to which nothing happens. -/
def quietStart : Start where
  faults _ := none
  currentTimestamp := "2026-01-02 03:04:05"
  now := "2026-01-02T03:04:05+00:00"

/-- A start in which the disk fails as `env` is added. -/
def envStart : Start where
  faults p := if p = .alter "connections" "env" then some (.fails ⟨"disk I/O error", by decide⟩)
    else none
  currentTimestamp := "2026-01-02 03:04:05"
  now := "2026-01-02T03:04:05+00:00"

theorem legacy_fileBeforeEnv : Legacy fileBeforeEnv := by
  have htables : fileBeforeEnv.tables =
      Function.update (fun _ => none) "connections" (some connectionsBeforeEnv) := rfl
  have hnone : ∀ n, n ≠ "connections" → fileBeforeEnv.rows n = [] := fun n hn => by
    rw [Db.rows, htables, Function.update_of_ne hn]
    rfl
  refine ⟨fun n _ t ht => ?_, fun k => ?_, fun w hw => ?_⟩
  · by_cases hn : n = "connections"
    · subst hn
      rw [htables, Function.update_self] at ht
      cases ht
      have hbase : ∀ c ∈ declaredNames "connections", c ∈ later "connections" ∨
          c ∈ connectionsBeforeEnv.names := by decide
      have hcolumns : ∀ c ∈ connectionsBeforeEnv.columns, c ∈ declaredColumns "connections" := by
        decide
      have hvalues : connectionValues.map Prod.fst ⊆ connectionsBeforeEnv.names := by decide
      refine ⟨hbase, fun c hc => .inl ⟨c, hcolumns c hc, rfl, id, Iff.rfl⟩, fun r hr c hc => ?_⟩
      rw [List.mem_singleton.1 hr]
      show (connectionValues.lookup c).getD .null = .null
      rw [Table.lookup_eq_none fun h => hc (hvalues h)]
      rfl
    · rw [htables, Function.update_of_ne hn] at ht
      cases ht
  · rw [hnone _ (by decide)]
    exact Nat.zero_le _
  · rw [hnone _ (by decide)] at hw
    exact absurd hw List.not_mem_nil

theorem opened_quietStart : (openStore quietStart fileBeforeEnv).1 = .ok () ∧
    Opened fileBeforeEnv (openStore quietStart fileBeforeEnv).2 := by
  have hok : (openStore quietStart fileBeforeEnv).1 = .ok () :=
    Outcome.eq_ok_of_isOk (by decide +kernel)
  exact ⟨hok, ((opened_iff_careful legacy_fileBeforeEnv [] quietStart).2.2.1 hok).2
    fun _ _ _ _ _ _ h => by cases h⟩

/-- The disk fails as `env` is added, `open` returns, and the connections have no `env`. -/
theorem opened_envStart : Legacy fileBeforeEnv ∧ (openStore envStart fileBeforeEnv).1 = .ok () ∧
    ((openStore envStart fileBeforeEnv).2.tableInfo "connections").all (·.name ≠ "env") = true ∧
      ¬ HasEveryColumn (openStore envStart fileBeforeEnv).2 := by
  have hmissing : ((openStore envStart fileBeforeEnv).2.tableInfo "connections").all
      (·.name ≠ "env") = true := by decide +kernel
  refine ⟨legacy_fileBeforeEnv, Outcome.eq_ok_of_isOk (by decide +kernel), hmissing, fun h => ?_⟩
  have hmem : ∃ x ∈ declared, x.1 = "connections" ∧ ∃ c ∈ x.2.columns, c.name = "env" := by decide
  obtain ⟨x, hx, hname, c, hc, henv⟩ := hmem
  obtain ⟨t, ht, hcolumns⟩ := h x hx
  obtain ⟨d, hd, hdname⟩ := List.mem_map.1 (hcolumns c hc)
  rw [Db.tableInfo, ← hname, ht] at hmissing
  exact of_decide_eq_true (List.all_eq_true.1 hmissing d hd) (hdname.trans henv)

end Migrations
end Store
end AgentDb
