import Mathlib.Logic.Relation
import Mathlib.Tactic

/-!
# Statement trees

The part of the parser's syntax tree that the safety layers read. A query holds its `WITH`
queries, a set expression and its row locks; a set expression is a select, a parenthesised query,
a set operation, or a whole data-modifying statement.

`Reaches` is the reachability the safety question is about: through `WITH` clauses, parenthesised
bodies and the branches of set operations.
-/

namespace AgentDb
namespace Safety

/-- `LockType` of a `FOR UPDATE` or `FOR SHARE`. -/
inductive LockType
  | share
  | update
  deriving DecidableEq, Repr

/-- `UtilityOption`: a name and its argument, as in `EXPLAIN (ANALYZE on)`. -/
structure UtilityOption where
  name : String
  arg : Option String
  deriving DecidableEq, Repr

/-- The statement shapes `classify_stmt` counts as DDL. -/
inductive DdlShape
  | createTable
  | createIndex
  | createView
  | createSchema
  | createDatabase
  | alterTable
  | drop
  | truncate
  deriving DecidableEq, Repr

/-- The statement shapes `classify_stmt` does not know. A savepoint is named by the number of the
statement that set it; `administrative` are the further statements that MySQL commits on its own,
such as `RENAME TABLE` or `LOCK TABLES`. -/
inductive OtherShape
  | merge
  | startTransaction
  | commit
  | rollback
  | rollbackTo (savepoint : ℕ)
  | administrative
  | unmodelled
  deriving DecidableEq, Repr

mutual

/-- `Query`. -/
inductive Query
  | mk (ctes : List Query) (body : SetExpr) (locks : List LockType)

/-- `SetExpr`. -/
inductive SetExpr
  | select (into : Option String) (tables : List TableWithJoins)
  | query (query : Query)
  | setOperation (left right : SetExpr)
  | values
  | table
  | insert (statement : Statement)
  | update (statement : Statement)
  | delete (statement : Statement)
  | merge (statement : Statement)

/-- `TableWithJoins`. -/
inductive TableWithJoins
  | mk (relation : TableFactor) (joins : List TableFactor)

/-- `TableFactor`. -/
inductive TableFactor
  | table (name : String)
  | derived (subquery : Query)
  | other

/-- `Statement`. A `CREATE TABLE` and a `COPY` stand apart when they hold a query, which they
run. -/
inductive Statement
  | query (query : Query)
  | explain (analyze : Bool) (options : List UtilityOption) (statement : Statement)
  | insert (source : Option Query)
  | update (table : TableWithJoins) (selection : Option String)
  | delete (tables : List TableWithJoins) (selection : Option String)
  | createTableAs (query : Query)
  | copy (query : Query)
  | ddl (shape : DdlShape)
  | grant
  | revoke
  | other (shape : OtherShape)

end

namespace Query

def ctes : Query → List Query
  | mk ctes _ _ => ctes

def body : Query → SetExpr
  | mk _ body _ => body

def locks : Query → List LockType
  | mk _ _ locks => locks

end Query

namespace SetExpr

/-- A body that modifies data. -/
def isDml : SetExpr → Bool
  | insert _ | update _ | delete _ | merge _ => true
  | _ => false

/-- `SELECT .. INTO`. -/
def selectsInto : SetExpr → Bool
  | select into _ => into.isSome
  | _ => false

/-- The data-modifying statement of a body. -/
def statement? : SetExpr → Option Statement
  | insert statement | update statement | delete statement | merge statement => some statement
  | _ => none

end SetExpr

/-! ### Reachability -/

/-- A place of the tree that can hold a query or a set expression. -/
inductive Node
  | query (query : Query)
  | body (body : SetExpr)

/-- One step down. -/
inductive Child : Node → Node → Prop
  | cte {q c : Query} (mem : c ∈ q.ctes) : Child (.query q) (.query c)
  | body (q : Query) : Child (.query q) (.body q.body)
  | parenthesised (q : Query) : Child (.body (.query q)) (.query q)
  | left (l r : SetExpr) : Child (.body (.setOperation l r)) (.body l)
  | right (l r : SetExpr) : Child (.body (.setOperation l r)) (.body r)

/-- Any number of steps down. -/
abbrev Reaches : Node → Node → Prop := Relation.ReflTransGen Child

/-- Inside a query, but neither the query itself nor its body. -/
def Inside (q : Query) (n : Node) : Prop :=
  (∃ c ∈ q.ctes, Reaches (.query c) n) ∨ ∃ m, Child (.body q.body) m ∧ Reaches m n

theorem reaches_query_iff {q : Query} {n : Node} :
    Reaches (.query q) n ↔ n = .query q ∨ n = .body q.body ∨ Inside q n := by
  constructor
  · intro h
    rcases Relation.ReflTransGen.cases_head h with rfl | ⟨m, hchild, hrest⟩
    · exact .inl rfl
    · cases hchild with
      | cte hmem => exact .inr (.inr (.inl ⟨_, hmem, hrest⟩))
      | body =>
        rcases Relation.ReflTransGen.cases_head hrest with rfl | ⟨m, hchild, hrest⟩
        · exact .inr (.inl rfl)
        · exact .inr (.inr (.inr ⟨m, hchild, hrest⟩))
  · rintro (rfl | rfl | ⟨c, hmem, hrest⟩ | ⟨m, hchild, hrest⟩)
    · exact .refl
    · exact .single (.body q)
    · exact .head (.cte hmem) hrest
    · exact .head (.body q) (.head hchild hrest)

/-- What `P` holds of somewhere below a body. -/
theorem exists_reaches_body_iff {e : SetExpr} {P : SetExpr → Prop} :
    (∃ e', Reaches (.body e) (.body e') ∧ P e') ↔
      P e ∨ ∃ n, Child (.body e) n ∧ ∃ e', Reaches n (.body e') ∧ P e' := by
  constructor
  · rintro ⟨e', hreach, hP⟩
    rcases Relation.ReflTransGen.cases_head hreach with heq | ⟨n, hchild, hrest⟩
    · cases heq
      exact .inl hP
    · exact .inr ⟨n, hchild, e', hrest, hP⟩
  · rintro (hP | ⟨n, hchild, e', hrest, hP⟩)
    · exact ⟨e, .refl, hP⟩
    · exact ⟨e', .head hchild hrest, hP⟩

section Children

variable {P : Node → Prop} {e l r : SetExpr} {q : Query}

theorem exists_child_parenthesised : (∃ n, Child (.body (.query q)) n ∧ P n) ↔ P (.query q) := by
  constructor
  · rintro ⟨n, hchild, hP⟩
    cases hchild
    exact hP
  · exact fun hP => ⟨_, .parenthesised q, hP⟩

theorem exists_child_setOperation :
    (∃ n, Child (.body (.setOperation l r)) n ∧ P n) ↔ P (.body l) ∨ P (.body r) := by
  constructor
  · rintro ⟨n, hchild, hP⟩
    cases hchild with
    | left => exact .inl hP
    | right => exact .inr hP
  · rintro (hP | hP)
    · exact ⟨_, .left l r, hP⟩
    · exact ⟨_, .right l r, hP⟩

/-- The bodies with nothing below them. -/
def SetExpr.isLeaf : SetExpr → Bool
  | .query _ | .setOperation _ _ => false
  | _ => true

theorem not_exists_child_of_isLeaf (h : e.isLeaf) : ¬ ∃ n, Child (.body e) n ∧ P n := by
  rintro ⟨n, hchild, -⟩
  cases hchild <;> cases h

end Children

/-- What `P` holds of somewhere below a query. -/
theorem exists_reaches_query_iff {q : Query} {P : SetExpr → Prop} :
    (∃ e, Reaches (.query q) (.body e) ∧ P e) ↔
      (∃ c ∈ q.ctes, ∃ e, Reaches (.query c) (.body e) ∧ P e) ∨
        ∃ e, Reaches (.body q.body) (.body e) ∧ P e := by
  constructor
  · rintro ⟨e, hreach, hP⟩
    rcases Relation.ReflTransGen.cases_head hreach with heq | ⟨n, hchild, hrest⟩
    · cases heq
    · cases hchild with
      | cte hmem => exact .inl ⟨_, hmem, e, hrest, hP⟩
      | body => exact .inr ⟨e, hrest, hP⟩
  · rintro (⟨c, hmem, e, hrest, hP⟩ | ⟨e, hrest, hP⟩)
    · exact ⟨e, .head (.cte hmem) hrest, hP⟩
    · exact ⟨e, .head (.body q) hrest, hP⟩

end Safety
end AgentDb
