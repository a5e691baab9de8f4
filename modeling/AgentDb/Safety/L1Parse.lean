import AgentDb.Error
import AgentDb.Model
import AgentDb.Safety.Sql

/-!
# The statement classifier: `safety/l1_parse.rs`

`classify` as the source computes it, over a parser that is third-party code, and what a verdict
`read` says of the tree. A read may hold no data-modifying body, no `SELECT .. INTO` and no row
lock anywhere (`PureRead`). The classifier looks for two of the four data-modifying bodies, and
for `INTO` and locks on the outermost query only, so its verdict is right exactly when nothing
hides where it does not look (`HoldsWhen`).
-/

namespace AgentDb
namespace Safety

/-! ### The classifier -/

/-- `fail_safe`. -/
def failSafe (note : String) : Classification where
  kind := .write
  risk := .high
  statementCount := 1
  noWhere := false
  tables := []
  notes := [note]
  rollbackSafe := false

mutual

/-- `query_has_dml`. -/
def queryHasDml : Query → Bool
  | .mk ctes body _ => ctesHaveDml ctes || setexprHasDml body

def ctesHaveDml : List Query → Bool
  | [] => false
  | cte :: ctes => queryHasDml cte || ctesHaveDml ctes

/-- `setexpr_has_dml`. -/
def setexprHasDml : SetExpr → Bool
  | .insert _ | .update _ => true
  | .query q => queryHasDml q
  | .setOperation left right => setexprHasDml left || setexprHasDml right
  | _ => false

end

/-- `query_selects_into`. -/
def querySelectsInto (q : Query) : Bool := q.body.selectsInto

/-- `short_kind`. -/
def shortKind : Statement → String
  | .query _ => "Query"
  | .insert _ => "Insert"
  | .update _ _ => "Update"
  | .delete _ _ => "Delete"
  | _ => "Other"

/-- `classify_stmt`: the kind, and the notes and the `no_where` flag it leaves. -/
def classifyStmt (notes : List String) (noWhere : Bool) :
    Statement → QueryKind × List String × Bool
  | .query q =>
      if queryHasDml q then
        (.write, notes ++ ["write DML inside a CTE — reclassified as a write"], noWhere)
      else if querySelectsInto q then
        (.write, notes ++ ["SELECT ... INTO creates a table — reclassified as a write"], noWhere)
      else if q.locks ≠ [] then
        (.write, notes ++
          ["SELECT ... FOR UPDATE/SHARE takes row locks — reclassified as a write"], noWhere)
      else (.read, notes, noWhere)
  | .explain analyze _ statement =>
      if analyze then
        classifyStmt (notes ++
          ["EXPLAIN ANALYZE executes the statement — classified by its inner statement"])
          noWhere statement
      else (.read, notes, noWhere)
  | .insert _ => (.write, notes, noWhere)
  | .update _ selection => (.write, notes, selection.isNone)
  | .delete _ selection => (.write, notes, selection.isNone)
  | .createTableAs _ | .ddl _ => (.ddl, notes, noWhere)
  | .grant | .revoke => (.privilege, notes, noWhere)
  | .copy query =>
      (.write, notes ++ ["unrecognized statement shape — treated as a write (fail-safe): " ++
        shortKind (.copy query)], noWhere)
  | .other shape =>
      (.write, notes ++ ["unrecognized statement shape — treated as a write (fail-safe): " ++
        shortKind (.other shape)], noWhere)

mutual

/-- `collect_tables`. -/
def collectTables : Statement → List String
  | .query q => walkQuery q
  | .update table _ => walkTwj table
  | .delete tables _ => walkTwjs tables
  | .insert source => walkSource source
  | _ => []

def walkSource : Option Query → List String
  | none => []
  | some q => walkQuery q

/-- `walk_query`. -/
def walkQuery : Query → List String
  | .mk ctes body _ => walkCtes ctes ++ walkSetexpr body

def walkCtes : List Query → List String
  | [] => []
  | cte :: ctes => walkQuery cte ++ walkCtes ctes

/-- `walk_setexpr`. -/
def walkSetexpr : SetExpr → List String
  | .select _ tables => walkTwjs tables
  | .query q => walkQuery q
  | .setOperation left right => walkSetexpr left ++ walkSetexpr right
  | .insert statement | .update statement => collectTables statement
  | _ => []

/-- `walk_twj`. -/
def walkTwj : TableWithJoins → List String
  | .mk relation joins => walkTf relation ++ walkTfs joins

def walkTwjs : List TableWithJoins → List String
  | [] => []
  | twj :: twjs => walkTwj twj ++ walkTwjs twjs

/-- `walk_tf`. -/
def walkTf : TableFactor → List String
  | .table name => [name]
  | .derived subquery => walkQuery subquery
  | .other => []

def walkTfs : List TableFactor → List String
  | [] => []
  | tf :: tfs => walkTf tf ++ walkTfs tfs

end

/-- The risk of a single statement. -/
def riskOf (kind : QueryKind) (noWhere : Bool) : RiskLevel :=
  match kind with
  | .read => .low
  | .write => if noWhere then .high else .medium
  | .ddl | .privilege => .high

/-- Direct DML, which a rolled-back transaction undoes. -/
def rollbackSafe : Statement → Bool
  | .insert _ | .update _ _ | .delete _ _ => true
  | _ => false

/-- The classification of a single parsed statement. -/
def classifySingle (stmt : Statement) : Classification :=
  let (kind, notes, noWhere) := classifyStmt [] false stmt
  { kind
    risk := riskOf kind noWhere
    statementCount := 1
    noWhere
    tables := (collectTables stmt).eraseDups
    notes := if noWhere then
      notes ++ ["UPDATE/DELETE without a WHERE clause — affects every row"] else notes
    rollbackSafe := rollbackSafe stmt }

/-- `classify`. The parser of an engine's dialect is third-party code. -/
def classify (parseSql : Engine → String → Except String (List Statement)) (sql : String)
    (engine : Engine) : AppResult Classification :=
  if engine.isDocument then
    .ok (failSafe "MongoDB document operations must use the typed document-query API")
  else match parseSql engine sql with
    | .error e => .ok (failSafe ("parse error — treated as a write (fail-safe): " ++ e))
    | .ok [] => .ok (failSafe "no parseable statement — treated as a write (fail-safe)")
    | .ok [stmt] => .ok (classifySingle stmt)
    | .ok statements => .ok
        { kind := .write
          risk := .high
          statementCount := statements.length
          noWhere := false
          tables := (statements.flatMap collectTables).eraseDups
          notes := [Nat.repr statements.length ++
            " statements found — only single statements are allowed"]
          rollbackSafe := false }

/-! ### What a read is -/

/-- A query that reads: no data-modifying body, no `INTO` and no row lock at any depth. -/
structure PureQuery (q : Query) : Prop where
  bodies : ∀ e, Reaches (.query q) (.body e) → ¬ e.isDml ∧ ¬ e.selectsInto
  locks : ∀ q', Reaches (.query q) (.query q') → q'.locks = []

/-- Whether an option list asks for `ANALYZE`: the last such option decides, and without an
argument it is on. -/
def asksForAnalyze (options : List UtilityOption) : Bool :=
  match (options.filter fun option => option.name.toLower = "analyze").getLast? with
  | none => false
  | some option => option.arg.all fun arg => arg.toLower ∈ ["true", "on", "1"]

/-- A statement that reads. `EXPLAIN` executes its statement under `ANALYZE`, in either form. -/
def PureRead : Statement → Prop
  | .query q => PureQuery q
  | .explain analyze options statement =>
      analyze ∨ asksForAnalyze options → PureRead statement
  | _ => False

/-! ### What the classifier looks for -/

/-- The bodies `setexpr_has_dml` knows. -/
def SetExpr.isInsertOrUpdate : SetExpr → Bool
  | insert _ | update _ => true
  | _ => false

/-- The bodies `setexpr_has_dml` passes over. -/
def SetExpr.isDeleteOrMerge : SetExpr → Bool
  | delete _ | merge _ => true
  | _ => false

theorem SetExpr.isDml_iff (e : SetExpr) : e.isDml ↔ e.isInsertOrUpdate ∨ e.isDeleteOrMerge := by
  cases e <;> simp [isDml, isInsertOrUpdate, isDeleteOrMerge]

mutual

/-- **`query_has_dml` finds every reachable `INSERT` and `UPDATE` body.** -/
theorem queryHasDml_iff : (q : Query) → (queryHasDml q ↔
    ∃ e, Reaches (.query q) (.body e) ∧ e.isInsertOrUpdate)
  | .mk ctes body locks => by
    rw [queryHasDml, Bool.or_eq_true, ctesHaveDml_iff ctes, setexprHasDml_iff body,
      exists_reaches_query_iff]
    rfl

theorem ctesHaveDml_iff : (ctes : List Query) → (ctesHaveDml ctes ↔
    ∃ c ∈ ctes, ∃ e, Reaches (.query c) (.body e) ∧ e.isInsertOrUpdate)
  | [] => by simp [ctesHaveDml]
  | c :: ctes => by
    rw [ctesHaveDml, Bool.or_eq_true, queryHasDml_iff c, ctesHaveDml_iff ctes]
    simp

theorem setexprHasDml_iff : (e : SetExpr) → (setexprHasDml e ↔
    ∃ e', Reaches (.body e) (.body e') ∧ e'.isInsertOrUpdate)
  | .query q => by
    rw [setexprHasDml, queryHasDml_iff q, exists_reaches_body_iff, exists_child_parenthesised]
    simp [SetExpr.isInsertOrUpdate]
  | .setOperation l r => by
    rw [setexprHasDml, Bool.or_eq_true, setexprHasDml_iff l, setexprHasDml_iff r,
      exists_reaches_body_iff (e := .setOperation l r), exists_child_setOperation]
    simp [SetExpr.isInsertOrUpdate]
  | .select _ _ | .values | .table | .insert _ | .update _ | .delete _ | .merge _ => by
    rw [exists_reaches_body_iff, or_iff_left (not_exists_child_of_isLeaf rfl)]
    simp [setexprHasDml, SetExpr.isInsertOrUpdate]

end

/-- The classifier sees that the query is no read. -/
def Detected (q : Query) : Prop :=
  queryHasDml q ∨ querySelectsInto q ∨ q.locks ≠ []

/-- The query is no read for a reason the classifier does not look for. -/
def Missed (q : Query) : Prop :=
  (∃ e, Reaches (.query q) (.body e) ∧ e.isDeleteOrMerge) ∨
    (∃ e, Inside q (.body e) ∧ e.selectsInto) ∨ ∃ q', Inside q (.query q') ∧ q'.locks ≠ []

/-- **A query is a read when nothing is detected and nothing is missed.** -/
theorem pureQuery_iff (q : Query) : PureQuery q ↔ ¬ Detected q ∧ ¬ Missed q := by
  rw [Detected, Missed, queryHasDml_iff]
  constructor
  · intro h
    have hself : q.locks = [] := h.locks q .refl
    have hbody := h.bodies q.body (.single (.body q))
    refine ⟨?_, ?_⟩
    · rintro (⟨e, hreach, he⟩ | hinto | hlocks)
      · exact (h.bodies e hreach).1 (e.isDml_iff.2 (.inl he))
      · exact hbody.2 hinto
      · exact hlocks hself
    · rintro (⟨e, hreach, he⟩ | ⟨e, hinside, hinto⟩ | ⟨q', hinside, hlocks⟩)
      · exact (h.bodies e hreach).1 (e.isDml_iff.2 (.inr he))
      · exact (h.bodies e (reaches_query_iff.2 (.inr (.inr hinside)))).2 hinto
      · exact hlocks (h.locks q' (reaches_query_iff.2 (.inr (.inr hinside))))
  · rintro ⟨hdetected, hmissed⟩
    simp only [not_or, not_exists, not_and] at hdetected hmissed
    obtain ⟨hdml, hinto, hlocks⟩ := hdetected
    obtain ⟨hdeletes, hintos, hlocked⟩ := hmissed
    refine ⟨fun e hreach => ⟨fun he => ?_, fun he => ?_⟩, fun q' hreach => ?_⟩
    · rcases e.isDml_iff.1 he with he | he
      · exact hdml e hreach he
      · exact hdeletes e hreach he
    · rcases reaches_query_iff.1 hreach with heq | heq | hinside
      · cases heq
      · cases heq
        exact hinto he
      · exact hintos e hinside he
    · rcases reaches_query_iff.1 hreach with heq | heq | hinside
      · cases heq
        exact not_not.1 hlocks
      · cases heq
      · exact not_not.1 (hlocked q' hinside)

/-- When a verdict `read` can be relied on. -/
def HoldsWhen : Statement → Prop
  | .query q => Missed q → Detected q
  | .explain true _ statement => HoldsWhen statement
  | .explain false options statement => asksForAnalyze options → PureRead statement
  | _ => True

theorem classifyStmt_query_eq_read (notes : List String) (noWhere : Bool) (q : Query) :
    (classifyStmt notes noWhere (.query q)).1 = .read ↔ ¬ Detected q := by
  rw [classifyStmt, Detected]
  by_cases hdml : queryHasDml q
  · simp [hdml]
  · by_cases hinto : querySelectsInto q
    · simp [hdml, hinto]
    · by_cases hlocks : q.locks = []
      · simp [hdml, hinto, hlocks]
      · simp [hdml, hinto, hlocks]

/-- The verdict `read` of a tree, by recursion on the executed statement. -/
theorem classifyStmt_read_iff (stmt : Statement) (notes : List String) (noWhere : Bool) :
    ((classifyStmt notes noWhere stmt).1 = .read → PureRead stmt) ↔ HoldsWhen stmt := by
  match stmt with
  | .query q =>
    rw [classifyStmt_query_eq_read, PureRead, pureQuery_iff, HoldsWhen]
    constructor
    · intro h hmissed
      by_contra hdetected
      exact (h hdetected).2 hmissed
    · exact fun h hdetected => ⟨hdetected, fun hmissed => hdetected (h hmissed)⟩
  | .explain true options statement =>
    rw [HoldsWhen, ← classifyStmt_read_iff statement (notes ++
      ["EXPLAIN ANALYZE executes the statement — classified by its inner statement"]) noWhere,
      classifyStmt, if_pos rfl, PureRead]
    simp
  | .explain false options statement =>
    rw [HoldsWhen, classifyStmt, PureRead]
    simp
  | .insert _ | .update _ _ | .delete _ _ | .createTableAs _ | .copy _ | .ddl _ | .grant
  | .revoke | .other _ =>
    simp [classifyStmt, HoldsWhen]

/-- Every verdict `read` is about one parsed statement. -/
theorem exists_single_of_read (parseSql : Engine → String → Except String (List Statement))
    (sql : String) (engine : Engine) {c : Classification}
    (hc : classify parseSql sql engine = .ok c) (hkind : c.kind = .read) :
    ∃ stmt, parseSql engine sql = .ok [stmt] ∧ engine.isDocument = false := by
  unfold classify at hc
  by_cases hengine : engine.isDocument
  · rw [if_pos hengine] at hc
    cases hc
    cases hkind
  · rw [if_neg hengine] at hc
    cases hparse : parseSql engine sql with
    | error e =>
      simp only [hparse, Except.ok.injEq] at hc
      subst hc
      cases hkind
    | ok statements =>
      rcases statements with - | ⟨stmt, - | ⟨next, rest⟩⟩
      · simp only [hparse, Except.ok.injEq] at hc
        subst hc
        cases hkind
      · exact ⟨stmt, rfl, by simpa using hengine⟩
      · simp only [hparse, Except.ok.injEq] at hc
        subst hc
        cases hkind

/-- **Exactly when the verdict `read` is right.** A single parsed statement that is classified as
a read is one, exactly when every reason against it stands where the classifier looks. -/
theorem classify_read_iff (parseSql : Engine → String → Except String (List Statement))
    (sql : String) (engine : Engine) (stmt : Statement) (hengine : engine.isDocument = false)
    (hparse : parseSql engine sql = .ok [stmt]) :
    (∀ c, classify parseSql sql engine = .ok c → c.kind = .read → PureRead stmt) ↔
      HoldsWhen stmt := by
  have hclassify : classify parseSql sql engine = .ok (classifySingle stmt) := by
    rw [classify, hengine, hparse]
    rfl
  rw [← classifyStmt_read_iff stmt [] false, hclassify]
  constructor
  · exact fun h => h _ rfl
  · rintro h c ⟨⟩ hkind
    exact h hkind

/-- `SELECT id FROM users`. -/
def selectUsers : Statement :=
  .query (.mk [] (.select none [.mk (.table "users") []]) [])

/-- `WITH d AS (DELETE FROM orders RETURNING id) SELECT * FROM d`. -/
def deleteInCte : Statement :=
  .query (.mk [.mk [] (.delete (.delete [.mk (.table "orders") []] none)) []]
    (.select none [.mk (.table "d") []]) [])

theorem classify_read_iff_selectUsers :
    (∀ c, classify (fun _ _ => .ok [selectUsers]) "SELECT id FROM users" .postgres = .ok c →
      c.kind = .read → PureRead selectUsers) ↔ HoldsWhen selectUsers :=
  classify_read_iff (fun _ _ => .ok [selectUsers]) "SELECT id FROM users" .postgres selectUsers rfl
    rfl

/-- A `DELETE` in a `WITH` clause is classified as a read. -/
theorem classify_deleteInCte :
    ¬ ∀ (parseSql : Engine → String → Except String (List Statement)) (sql : String)
      (engine : Engine) (stmt : Statement) (c : Classification),
      parseSql engine sql = .ok [stmt] → classify parseSql sql engine = .ok c →
      c.kind = .read → PureRead stmt := by
  intro hclaim
  have hread : PureRead deleteInCte := hclaim (fun _ _ => .ok [deleteInCte])
    "WITH d AS (DELETE FROM orders RETURNING id) SELECT * FROM d" .postgres deleteInCte
    (classifySingle deleteInCte) rfl rfl rfl
  have hreach : Reaches (.query (.mk [.mk [] (.delete (.delete [.mk (.table "orders") []] none)) []]
      (.select none [.mk (.table "d") []]) []))
      (.body (.delete (.delete [.mk (.table "orders") []] none))) :=
    .head (.cte List.mem_cons_self) (.single (.body _))
  exact (hread.bodies _ hreach).1 rfl

end Safety
end AgentDb
