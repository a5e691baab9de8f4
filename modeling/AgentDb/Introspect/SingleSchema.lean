import AgentDb.Introspect.MysqlRead
import AgentDb.Introspect.SqliteRead

/-!
# Catalogs of one schema

`oneSchema_iff` says of both engines whose tables have no schema when introspection shows what the
user has. The two samples are a table that another one refers to: under a name that the pattern for
the engine's own tables matches, and from another schema.
-/

namespace AgentDb
namespace Introspect

open QueryRows Sorting

/-- **What is returned shows the database** exactly when it is plain, for SQLite and for MySQL. -/
theorem oneSchema_iff {db : Sqlite.Database} (hdb : db.WellFormed) {K : Type} [LinearOrder K]
    {collate : String → K} {s : Mysql.Server} (hs : s.WellFormed collate) {a : Mysql.Answers}
    (ha : a.Of collate s) (skipFk : Bool) :
    ((∃ tables, db.introspect = .ok tables ∧
      Shown db.userRelations db.Shows Sqlite.Database.Refers tables) ↔ db.Plain) ∧
    (Shown s.current s.Shows s.Refers (Mysql.introspect skipFk a) ↔ s.Plain skipFk) :=
  ⟨Sqlite.Database.shown_iff hdb, Mysql.Server.shown_iff hs ha skipFk⟩

/-! ### Samples -/

/-- Users, and a table of some name that refers to them. -/
def sqliteSample (name : String) : Sqlite.Database where
  relations :=
    [⟨"users", false, .ok [⟨"id", "INTEGER", false, 1, .normal⟩], [], [], some 0⟩,
      ⟨name, false, .ok [⟨"author", "INTEGER", false, 0, .normal⟩],
        [⟨"users", [("author", some "id")]⟩], [], some 0⟩]

theorem wellFormed_sqliteSample {name : String} (hname : name = "posts" ∨ name = "sqlitebrowser") :
    (sqliteSample name).WellFormed := by
  rcases hname with rfl | rfl
  · exact ⟨by decide, List.nodup_nil, by decide, fun _ h => absurd h List.not_mem_nil⟩
  · exact ⟨by decide, List.nodup_nil, by decide, fun _ h => absurd h List.not_mem_nil⟩

/-- Users, and posts that refer to the users of some schema. -/
def mysqlSample (schema : String) : Mysql.Server where
  tables :=
    [⟨"app", "users", false, [⟨"id", "int", false⟩], ["id"], [], [], [], none⟩,
      ⟨"app", "posts", false, [⟨"author", "int", true⟩], [], [], [],
        [⟨schema, "users", [("author", "id")]⟩], none⟩]
  database := "app"
  hasExpression := true

theorem current_mysqlSample (schema : String) :
    (mysqlSample schema).current = (mysqlSample schema).tables := by
  simp [Mysql.Server.current, mysqlSample]

theorem wellFormed_mysqlSample (schema : String) : (mysqlSample schema).WellFormed id := by
  constructor <;> simp [current_mysqlSample] <;> simp [mysqlSample]

/-- Answers in the order of the names themselves. -/
def answersOf (s : Mysql.Server) : Mysql.Answers :=
  ⟨sortBy (Mysql.ColsRow.order id) s.colsSql, sortBy (Mysql.FkRow.order id) s.fkSql,
    sortBy (Mysql.IdxRow.order id) (s.idxSql id), s.estSql⟩

theorem answersOf_of (s : Mysql.Server) : (answersOf s).Of id s :=
  ⟨answer_sortBy _ _, answer_sortBy _ _, answer_sortBy _ _, .refl _⟩

/-- Posts that refer to the users next to them are shown. -/
theorem oneSchema_posts :
    (∃ tables, (sqliteSample "posts").introspect = .ok tables ∧
      Shown (sqliteSample "posts").userRelations (sqliteSample "posts").Shows
        Sqlite.Database.Refers tables) ∧
    Shown (mysqlSample "app").current (mysqlSample "app").Shows (mysqlSample "app").Refers
      (Mysql.introspect false (answersOf (mysqlSample "app"))) := by
  have hiff := oneSchema_iff (wellFormed_sqliteSample (.inl rfl)) (wellFormed_mysqlSample "app")
    (answersOf_of _) false
  constructor
  · refine hiff.1.2 ⟨by decide, ?_, ?_⟩
    · intro r hr
      rcases List.mem_pair.1 (Sqlite.Database.mem_userRelations.1 hr).1 with rfl | rfl <;>
        exact ⟨_, rfl, by decide⟩
    · intro r hr k hk c hc hnone
      rcases List.mem_pair.1 (Sqlite.Database.mem_userRelations.1 hr).1 with rfl | rfl
      · exact absurd hk List.not_mem_nil
      · rw [List.mem_singleton.1 hk] at hc
        rw [List.mem_singleton.1 hc] at hnone
        cases hnone
  · refine hiff.2.2 ⟨?_, ?_⟩
    · rw [current_mysqlSample]
      decide
    · rw [current_mysqlSample]
      decide

/-- A table of the user's under a name like `sqlitebrowser` is hidden, and a reference to the users
of another schema is taken for one to those of this one. -/
theorem oneSchema_hidden :
    (sqliteSample "sqlitebrowser").WellFormed ∧
    (¬ ∃ tables, (sqliteSample "sqlitebrowser").introspect = .ok tables ∧
      Shown (sqliteSample "sqlitebrowser").userRelations (sqliteSample "sqlitebrowser").Shows
        Sqlite.Database.Refers tables) ∧
    (mysqlSample "archive").WellFormed id ∧
    (answersOf (mysqlSample "archive")).Of id (mysqlSample "archive") ∧
    ¬ Shown (mysqlSample "archive").current (mysqlSample "archive").Shows
      (mysqlSample "archive").Refers
        (Mysql.introspect false (answersOf (mysqlSample "archive"))) := by
  have hdb := wellFormed_sqliteSample (.inr rfl)
  have hs := wellFormed_mysqlSample "archive"
  refine ⟨hdb, fun h => ?_, hs, answersOf_of _, fun h => ?_⟩
  · have hlisted := ((Sqlite.Database.shown_iff hdb).1 h).listed
    revert hlisted
    decide
  · have hplain := ((Mysql.Server.shown_iff hs (answersOf_of _) false).1 h).foreignKeys
    rw [current_mysqlSample] at hplain
    revert hplain
    decide

end Introspect
end AgentDb
