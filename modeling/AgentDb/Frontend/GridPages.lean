import AgentDb.Frontend.SqlBuild
import AgentDb.Lib.Paging

/-!
# Reading a table page by page

The grid asks for the pages of a table one after the other. A database is free in the order of the
rows that tie under the `ORDER BY`, and may take another order for each page. The rows a filter lets
through are then read once each exactly where the filters can be read and the table has a primary
key, or no border between two pages lies among rows that tie but differ: `grid_paged_iff`.
-/

namespace AgentDb
namespace Frontend
namespace SqlBuild

open Paging Paging.Ranking

variable {ρ : Type}

/-- What a database makes of a row: which filters let it through, and how two rows stand by a
column. -/
structure Database (ρ : Type) where
  holds : Condition → ρ → Bool
  cmp : String → ρ → ρ → Ordering
  trans : ∀ col, Std.TransCmp (cmp col)

namespace Database

variable (db : Database ρ)

/-- `DESC` turns the order of a column around. -/
def keyCmp (key : SortKey) (a b : ρ) : Ordering :=
  if key.desc = some true then db.cmp key.col b a else db.cmp key.col a b

/-- Of two rows that tie by a column the next column decides. -/
def keysCmp : List SortKey → ρ → ρ → Ordering
  | [] => fun _ _ => .eq
  | key :: keys => compareLex (db.keyCmp key) (keysCmp keys)

instance (key : SortKey) : Std.TransCmp (db.keyCmp key) := by
  have := db.trans key.col
  by_cases h : key.desc = some true
  · have heq : db.keyCmp key = fun a b => db.cmp key.col b a := by
      funext a b
      rw [keyCmp, if_pos h]
    rw [heq]
    infer_instance
  · have heq : db.keyCmp key = db.cmp key.col := by
      funext a b
      rw [keyCmp, if_neg h]
    rw [heq]
    infer_instance

instance keysCmp_trans (keys : List SortKey) : Std.TransCmp (db.keysCmp keys) := by
  induction keys with
  | nil => exact { eq_swap := rfl, isLE_trans := fun _ _ => rfl }
  | cons key keys ih =>
      rw [keysCmp]
      infer_instance

/-- The order that an `ORDER BY` asks for. -/
def ranking (keys : List SortKey) : Ranking ρ := ofCmp (db.keysCmp keys)

def matching (rows : List ρ) (conditions : List Condition) : List ρ :=
  rows.filter fun r => conditions.all (db.holds · r)

/-- The rows that a page query may be answered with: a part of the rows let through, put in an order
that the `ORDER BY` admits. -/
def Answers (rows : List ρ) (query : PageQuery) (answer : List ρ) : Prop :=
  ∃ l, (db.ranking query.keys).Sorts (db.matching rows query.conditions) l ∧
    answer = (l.drop query.offset).take query.limit

def count (rows : List ρ) (query : CountQuery) : ℕ := (db.matching rows query.conditions).length

/-- The columns of the primary key, if there are any, identify the rows. -/
def Identifies (table : CatalogTable) (rows : List ρ) : Prop :=
  pkColumns table ≠ [] → ∀ a ∈ rows, ∀ b ∈ rows,
    (∀ c ∈ pkColumns table, db.cmp c.name a b = .eq) → a = b

/-- The count and the pages can be asked for, and however the pages are answered, as soon as they
reach to the count they have every row let through once, and as many rows as the count. -/
def ReadsOnce (rows : List ρ) (table : CatalogTable) (filters : Table String String)
    (sort : Option GridSort) (n : ℕ) : Prop :=
  ∃ (total : CountQuery) (queries : ℕ → PageQuery), countQuery table filters = .ok total ∧
    (∀ k, pageQuery table filters sort n (k * n) = .ok (queries k)) ∧
    ∀ answers : ℕ → List ρ, (∀ k, db.Answers rows (queries k) (answers k)) →
      ∀ m, db.count rows total ≤ m * n →
        ((List.range m).flatMap answers).Perm
            (db.matching rows (conditions table.columns filters)) ∧
          ((List.range m).flatMap answers).length = db.count rows total

/-- The column that the rows stand in order of first: the chosen one, or the first of the table. -/
def leadingKey (table : CatalogTable) : Option GridSort → Option SortKey
  | some sort => some ⟨sort.col, some sort.desc⟩
  | none => table.columns.head?.map fun c => ⟨c.name, none⟩

/-- No border between two pages lies among rows that agree on the leading column but differ. -/
def BordersApart (rows : List ρ) (table : CatalogTable) (filters : Table String String)
    (sort : Option GridSort) (n : ℕ) : Prop :=
  (db.ranking (leadingKey table sort).toList).Separated
    (db.matching rows (conditions table.columns filters)) n

variable {db} {rows : List ρ} {table : CatalogTable} {filters : Table String String}
  {sort : Option GridSort} {n : ℕ}

/-- Rows that tie agree on every column of the order. -/
theorem tie_ranking {keys : List SortKey} {a b : ρ} :
    (db.ranking keys).tie a b = true ↔ ∀ key ∈ keys, db.cmp key.col a b = .eq := by
  rw [ranking, tie_ofCmp]
  induction keys with
  | nil => simp [keysCmp]
  | cons key keys ih =>
      have := db.trans key.col
      have hkey : db.keyCmp key a b = .eq ↔ db.cmp key.col a b = .eq := by
        unfold keyCmp
        split
        · exact Std.OrientedCmp.eq_comm
        · rfl
      rw [keysCmp, compareLex, Ordering.then_eq_eq, hkey, ih, List.forall_mem_cons]

/-- Every column of the primary key is among those that a table is read in order of. -/
theorem mem_sortKeys (sort : Option GridSort) {c : CatalogColumn} (hc : c ∈ pkColumns table) :
    ∃ key ∈ sortKeys table sort, key.col = c.name := by
  cases sort with
  | none =>
      refine ⟨⟨c.name, none⟩, ?_, rfl⟩
      rw [sortKeys, if_neg (List.ne_nil_of_mem hc)]
      exact List.mem_map_of_mem hc
  | some sort =>
      by_cases hname : c.name = sort.col
      · exact ⟨⟨sort.col, some sort.desc⟩, List.mem_cons_self, hname.symm⟩
      · exact ⟨⟨c.name, none⟩, List.mem_cons_of_mem _ (List.mem_map_of_mem
          (List.mem_filter.2 ⟨hc, by simpa using hname⟩)), rfl⟩

/-- Without a primary key the leading column is all that a table is read in order of. -/
theorem sortKeys_keyless (hpk : pkColumns table = []) :
    sortKeys table sort = (leadingKey table sort).toList := by
  cases sort with
  | none => cases h : table.columns <;> simp [sortKeys, leadingKey, hpk, h]
  | some sort => simp [sortKeys, leadingKey, hpk]

/-- With a primary key no two rows tie. -/
theorem separated_of_pk (hpk : pkColumns table ≠ []) (hrows : db.Identifies table rows)
    (conditions : List Condition) :
    (db.ranking (sortKeys table sort)).Separated (db.matching rows conditions) n := by
  refine separated_of_identified fun a ha b hb htie => hrows hpk a (List.mem_filter.1 ha).1 b
    (List.mem_filter.1 hb).1 fun c hc => ?_
  obtain ⟨key, hkey, hcol⟩ := mem_sortKeys sort hc
  rw [← hcol]
  exact tie_ranking.1 htie key hkey

/-- Which answers the pages of a query that can be asked for may have. -/
theorem answers_iff {query : PageQuery} {k : ℕ} {answer : List ρ}
    (hquery : pageQuery table filters sort n (k * n) = .ok query) :
    db.Answers rows query answer ↔ ∃ l, (db.ranking (sortKeys table sort)).Sorts
      (db.matching rows (conditions table.columns filters)) l ∧ answer = page n k l := by
  unfold pageQuery at hquery
  split at hquery
  · cases hquery
    rfl
  · cases hquery

/-- The pages read every row once where they can be asked for and no border lies among rows that tie
but differ. -/
theorem readsOnce_iff : db.ReadsOnce rows table filters sort n ↔
    Readable table.columns filters ∧ (db.ranking (sortKeys table sort)).Separated
      (db.matching rows (conditions table.columns filters)) n := by
  classical
  constructor
  · rintro ⟨total, queries, htotal, hqueries, hread⟩
    have hreadable : Readable table.columns filters := by
      by_contra h
      rw [countQuery, if_neg h] at htotal
      cases htotal
    rw [countQuery, if_pos hreadable] at htotal
    cases htotal
    refine ⟨hreadable, separated_of_paged fun choice hchoice m hm => ?_⟩
    rw [pages_eq]
    exact (hread _ (fun k => (answers_iff (hqueries k)).2 ⟨choice k, hchoice k, rfl⟩) m hm).1
  · rintro ⟨hreadable, hborders⟩
    have hquery : ∀ k, pageQuery table filters sort n (k * n) =
        .ok ⟨table, conditions table.columns filters, sortKeys table sort, n, k * n⟩ := fun k => by
      rw [pageQuery, if_pos hreadable]
    have hcount : countQuery table filters = .ok ⟨table, conditions table.columns filters⟩ := by
      rw [countQuery, if_pos hreadable]
    refine ⟨_, _, hcount, hquery, fun answers hanswers m hm => ?_⟩
    choose choice hchoice hanswer using fun k => (answers_iff (hquery k)).1 (hanswers k)
    have hperm := paged_of_separated hborders choice hchoice m hm
    rw [pages_eq] at hperm
    rw [funext hanswer]
    exact ⟨hperm, hperm.length_eq⟩

end Database

/-- **Reading page by page.** The texts that the grid sends are those of a page query and of a count
query, and the pages have every row that the filters let through exactly once, and as many as are
counted, if and only if no filter is read from what every object inherits, and the table has a
primary key or no border between two pages lies among rows that tie but differ. -/
theorem grid_paged_iff (db : Database ρ) (rows : List ρ) (engine : Engine) (table : CatalogTable)
    (filters : Table String String) (sort : Option GridSort) (n : ℕ)
    (hrows : db.Identifies table rows) :
    (∀ limit offset, buildPageQuery engine table filters sort limit offset =
        (pageQuery table filters sort limit offset).map (·.toSql engine)) ∧
      buildCountQuery engine table filters =
        (countQuery table filters).map (·.toSql engine) ∧
      (db.ReadsOnce rows table filters sort n ↔ Readable table.columns filters ∧
        (pkColumns table ≠ [] ∨ db.BordersApart rows table filters sort n)) := by
  refine ⟨buildPageQuery_eq engine table filters sort, buildCountQuery_eq engine table filters, ?_⟩
  rw [Database.readsOnce_iff]
  refine and_congr_right fun _ => ?_
  by_cases hpk : pkColumns table = []
  · rw [Database.sortKeys_keyless hpk]
    exact ⟨Or.inr, fun h => h.resolve_left fun hne => hne hpk⟩
  · exact ⟨fun _ => Or.inl hpk, fun _ => Database.separated_of_pk hpk hrows _⟩

/-- Rows of two columns. -/
def logDatabase : Database (ℕ × ℕ) where
  holds _ _ := true
  cmp col := if col = "level" then compareOn Prod.fst else compareOn Prod.snd
  trans col := by
    split <;> infer_instance

/-- A table of log lines, by whether the level is its primary key. -/
def logTable (pk : Bool) : CatalogTable where
  schema := none
  name := "log"
  kind := "table"
  columns := [⟨"level", "integer", false, pk⟩, ⟨"message", "integer", false, false⟩]
  foreignKeys := []
  indexes := []
  rowEstimate := none

/-- With a key the pages are right, even in the order of a column on which all rows agree. -/
theorem keyed_log_read_once : logDatabase.ReadsOnce [(0, 5), (1, 5), (2, 5)] (logTable true) .empty
    (some ⟨"message", true⟩) 2 :=
  (grid_paged_iff logDatabase _ .postgres _ _ _ _ fun _ => by decide).2.2.2
    ⟨by decide, Or.inl (by decide)⟩

/-- Without a key two rows that agree on the first column are read in any order, and on pages of one
row the one may be read twice and the other not at all. -/
theorem keyless_log_not_read_once :
    logDatabase.Identifies (logTable false) [(0, 0), (0, 1)] ∧
      ¬ logDatabase.ReadsOnce [(0, 0), (0, 1)] (logTable false) .empty none 1 := by
  refine ⟨fun hpk => absurd rfl hpk, fun h => ?_⟩
  exact (Database.readsOnce_iff.1 h).2 (0, 0) (by decide) (0, 1) (by decide) (by decide) (by decide)
    1 (by decide)

end SqlBuild
end Frontend
end AgentDb
