import AgentDb.Services.AgentQuery

/-!
# Statements that affect every row

An `UPDATE` or `DELETE` without a `WHERE` clause is to raise `no_where`, which makes the operation
critical and its approval ask for a phrase. `classify_stmt` sets the flag for a statement of its
own and for one under `EXPLAIN ANALYZE`; a query keeps its data-modifying statements to itself. The
flag is right exactly when every such statement stands where `classify_stmt` looks.
-/

namespace AgentDb
namespace Safety

/-! ### What a statement executes -/

/-- A statement executes another one with it: `EXPLAIN` under `ANALYZE` its statement, a query its
data-modifying bodies, and a statement that is fed by a query that query. -/
inductive Runs : Statement → Statement → Prop
  | explain {analyze : Bool} {options : List UtilityOption} {s : Statement}
      (h : analyze = true ∨ asksForAnalyze options = true) : Runs (.explain analyze options s) s
  | body {q : Query} {e : SetExpr} {s : Statement} (hreach : Reaches (.query q) (.body e))
      (hs : e.statement? = some s) : Runs (.query q) s
  | insert (q : Query) : Runs (.insert (some q)) (.query q)
  | createTableAs (q : Query) : Runs (.createTableAs q) (.query q)
  | copy (q : Query) : Runs (.copy q) (.query q)

/-- Any number of such steps. -/
abbrev Executes : Statement → Statement → Prop := Relation.ReflTransGen Runs

/-- An `UPDATE` or `DELETE` without a `WHERE` clause. -/
def Statement.affectsEveryRow : Statement → Bool
  | .update _ selection | .delete _ selection => selection.isNone
  | _ => false

/-- The statement under the `EXPLAIN ANALYZE` that `classify_stmt` goes through. -/
def Statement.explained : Statement → Statement
  | .explain true _ statement => statement.explained
  | statement => statement

theorem Statement.executes_explained : (s : Statement) → Executes s s.explained
  | .explain true options statement => by
    rw [explained]
    exact .head (.explain (.inl rfl)) (executes_explained statement)
  | .explain false _ _ | .query _ | .insert _ | .update _ _ | .delete _ _ | .createTableAs _
  | .copy _ | .ddl _ | .grant | .revoke | .other _ => .refl

/-- What a statement executes besides the `EXPLAIN`s around it. -/
theorem Statement.executes_iff_of_affectsEveryRow {s' : Statement} (hs' : s'.affectsEveryRow) :
    (s : Statement) → (Executes s s' ↔ Executes s.explained s')
  | .explain true options statement => by
    rw [explained, ← executes_iff_of_affectsEveryRow hs' statement]
    constructor
    · intro h
      rcases Relation.ReflTransGen.cases_head h with rfl | ⟨t, ht, hrest⟩
      · cases hs'
      · cases ht
        exact hrest
    · exact fun h => .head (.explain (.inl rfl)) h
  | .explain false _ _ | .query _ | .insert _ | .update _ _ | .delete _ _ | .createTableAs _
  | .copy _ | .ddl _ | .grant | .revoke | .other _ => Iff.rfl

/-! ### What the classifier makes of it -/

/-- `classify_stmt` looks at the explained statement only. -/
theorem noWhere_classifyStmt (notes : List String) : (s : Statement) →
    (classifyStmt notes false s).2.2 = s.explained.affectsEveryRow
  | .explain true options statement => by
    rw [classifyStmt, if_pos rfl, Statement.explained]
    exact noWhere_classifyStmt _ statement
  | .query q => by
    rw [classifyStmt]
    split_ifs <;> rfl
  | .explain false _ _ | .insert _ | .update _ _ | .delete _ _ | .createTableAs _ | .copy _
  | .ddl _ | .grant | .revoke | .other _ => rfl

theorem kind_classifyStmt (notes : List String) (noWhere : Bool) : (s : Statement) →
    s.explained.affectsEveryRow → (classifyStmt notes noWhere s).1 = .write
  | .explain true options statement, h => by
    rw [classifyStmt, if_pos rfl]
    exact kind_classifyStmt _ _ statement h
  | .update _ _, _ | .delete _ _, _ => rfl

theorem noWhere_classifySingle (s : Statement) :
    (classifySingle s).noWhere = s.explained.affectsEveryRow := noWhere_classifyStmt [] s

/-- The flag makes the statement a write of high risk. -/
theorem classifySingle_of_noWhere {s : Statement} (h : (classifySingle s).noWhere = true) :
    (classifySingle s).kind = .write ∧ (classifySingle s).risk = .high := by
  have hflag : (classifyStmt [] false s).2.2 = true := h
  have hkind : (classifyStmt [] false s).1 = .write := by
    rw [noWhere_classifyStmt] at hflag
    exact kind_classifyStmt [] false s hflag
  refine ⟨hkind, ?_⟩
  show riskOf (classifyStmt [] false s).1 (classifyStmt [] false s).2.2 = .high
  rw [hkind, hflag]
  rfl

end Safety

namespace Services

open Operations Safety

/-! ### What the approval asks for -/

/-- A flagged write is critical, and its approval asks for the phrase. -/
theorem requiredConfirmation_of_noWhere {c : Classification} {record : OperationRecord}
    (hnoWhere : c.noWhere = true) (hwrite : c.kind = .write)
    (hkind : record.kind = operationKind c.kind) (hrisk : record.riskLevel = operationRisk c) :
    operationRisk c = .critical ∧ requiredConfirmation record = some "RUN CRITICAL" := by
  have hcritical : operationRisk c = .critical := by
    rw [operationRisk, if_pos ⟨hnoWhere, by rw [hwrite]; decide⟩]
  refine ⟨hcritical, ?_⟩
  have hmutates : record.kind.mayMutateTarget = true := by
    rw [hkind, hwrite]
    rfl
  rw [requiredConfirmation, if_neg (not_not.2 hmutates), if_pos (hrisk.trans hcritical)]

/-- What is to hold of the classification of a statement and of the operation that is made of it:
whatever affects every row is flagged, and nothing else is. -/
def Flagged (stmt : Statement) (c : Classification) : Prop :=
  ((∃ s, Executes stmt s ∧ s.affectsEveryRow = true) →
    c.noWhere = true ∧ c.risk = .high ∧ operationRisk c = .critical ∧
      ∀ record : OperationRecord, record.kind = operationKind c.kind →
        record.riskLevel = operationRisk c → requiredConfirmation record = some "RUN CRITICAL") ∧
  ((∀ s, Executes stmt s → s.affectsEveryRow = false) → c.noWhere = false)

theorem flagged_classifySingle_iff (stmt : Statement) : Flagged stmt (classifySingle stmt) ↔
    ((∃ s, Executes stmt s ∧ s.affectsEveryRow = true) →
      stmt.explained.affectsEveryRow = true) := by
  constructor
  · intro h hexists
    rw [← noWhere_classifySingle]
    exact (h.1 hexists).1
  · refine fun h => ⟨fun hexists => ?_, fun hnone => ?_⟩
    · have hflag : (classifySingle stmt).noWhere = true := by
        rw [noWhere_classifySingle]
        exact h hexists
      obtain ⟨hkind, hrisk⟩ := classifySingle_of_noWhere hflag
      refine ⟨hflag, hrisk, ?_, fun record hrecord hlevel =>
        (requiredConfirmation_of_noWhere hflag hkind hrecord hlevel).2⟩
      rw [operationRisk, if_pos ⟨hflag, by rw [hkind]; decide⟩]
    · rw [noWhere_classifySingle]
      exact hnone _ stmt.executes_explained

/-- Nothing is executed by a statement of the kinds that are flagged. -/
theorem eq_of_executes {s s' : Statement} (hs : s.affectsEveryRow = true) (h : Executes s s') :
    s' = s := by
  rcases Relation.ReflTransGen.cases_head h with rfl | ⟨t, ht, -⟩
  · rfl
  · cases ht <;> cases hs

/-- **Exactly when the flag is right**: when every executed statement that affects every row is the
one that `classify_stmt` comes to under `EXPLAIN ANALYZE`. -/
theorem classify_flags_iff (parseSql : Engine → String → Except String (List Statement))
    (sql : String) (engine : Engine) (stmt : Statement) (hengine : engine.isDocument = false)
    (hparse : parseSql engine sql = .ok [stmt]) :
    (∀ c, classify parseSql sql engine = .ok c → Flagged stmt c) ↔
      ∀ s, Executes stmt s → s.affectsEveryRow = true → s = stmt.explained := by
  have hclassify : classify parseSql sql engine = .ok (classifySingle stmt) := by
    rw [classify, hengine, hparse]
    rfl
  have hsingle : (∀ c, classify parseSql sql engine = .ok c → Flagged stmt c) ↔
      Flagged stmt (classifySingle stmt) := by
    rw [hclassify]
    constructor
    · exact fun h => h _ rfl
    · rintro h c ⟨⟩
      exact h
  rw [hsingle, flagged_classifySingle_iff]
  constructor
  · intro h s hexecutes hs
    have hexplained := (Statement.executes_iff_of_affectsEveryRow hs stmt).1 hexecutes
    exact eq_of_executes (h ⟨s, hexecutes, hs⟩) hexplained
  · rintro h ⟨s, hexecutes, hs⟩
    rw [← h s hexecutes hs]
    exact hs

/-- `EXPLAIN ANALYZE DELETE FROM orders`. -/
def explainDelete : Statement := .explain true [] (.delete [.mk (.table "orders") []] none)

theorem classify_flags_iff_explainDelete :
    (∀ c, classify (fun _ _ => .ok [explainDelete]) "EXPLAIN ANALYZE DELETE FROM orders" .postgres =
      .ok c → Flagged explainDelete c) ↔
      ∀ s, Executes explainDelete s → s.affectsEveryRow = true → s = explainDelete.explained :=
  classify_flags_iff (fun _ _ => .ok [explainDelete]) "EXPLAIN ANALYZE DELETE FROM orders" .postgres
    explainDelete rfl rfl

/-- `WITH old AS (SELECT 1) DELETE FROM orders`. -/
def deleteAfterWith : Statement :=
  .query (.mk [.mk [] (.select none []) []] (.delete (.delete [.mk (.table "orders") []] none)) [])

/-- A `DELETE` without a `WHERE` clause that follows a `WITH` clause is not flagged. -/
theorem classify_flags_not_deleteAfterWith :
    ¬ ∀ (parseSql : Engine → String → Except String (List Statement)) (sql : String)
      (engine : Engine) (stmt : Statement) (c : Classification),
      parseSql engine sql = .ok [stmt] → classify parseSql sql engine = .ok c →
      Flagged stmt c := by
  intro hclaim
  have hflagged := hclaim (fun _ _ => .ok [deleteAfterWith])
    "WITH old AS (SELECT 1) DELETE FROM orders" .postgres deleteAfterWith
    (classifySingle deleteAfterWith) rfl rfl
  have hruns : Executes deleteAfterWith (.delete [.mk (.table "orders") []] none) :=
    .single (.body (.single (.body _)) rfl)
  exact absurd (hflagged.1 ⟨_, hruns, rfl⟩).1 (by decide)

end Services
end AgentDb
