import AgentDb.Introspect.Model
import AgentDb.Lib.QueryRows

/-!
# Tables from rows

`introspect/pg.rs` and `introspect/mysql.rs` ask for columns, foreign keys and index parts row by
row and regroup them: a `HashMap` finds the table of a row, and a part goes to the last index if
that has its name.
-/

namespace AgentDb
namespace Introspect

open QueryRows

/-- What the `HashMap` finds a table by. -/
def Table.key (table : Table) : Option String × String := (table.schema, table.name)

/-- A table of which one column is known to be there. -/
def Table.opened (key : Option String × String) : Table := ⟨key.1, key.2, "table", [], [], [], none⟩

/-- A part of an index, as a query lists it. -/
structure IndexPart where
  name : String
  column : String
  unique : Bool
  deriving DecidableEq

/-- `push_index_part`, once the text of the part is known. -/
def pushIndexPart (indexes : List Index) (part : IndexPart) : List Index :=
  match indexes.getLast? with
  | some last =>
      if last.name = part.name then
        indexes.dropLast ++ [{ last with columns := last.columns ++ [part.column] }]
      else indexes ++ [⟨part.name, [part.column], part.unique⟩]
  | none => [⟨part.name, [part.column], part.unique⟩]

def Table.pushColumn (column : Column) (table : Table) : Table :=
  { table with columns := table.columns ++ [column] }

def Table.pushForeignKey (foreignKey : ForeignKey) (table : Table) : Table :=
  { table with foreignKeys := table.foreignKeys ++ [foreignKey] }

def Table.pushIndexPart (part : IndexPart) (table : Table) : Table :=
  { table with indexes := Introspect.pushIndexPart table.indexes part }

/-! ### What the loops make of a table -/

section Loops

variable {ρ : Type} {rows : List ρ} {table : Table}

theorem foldl_pushColumn (column : ρ → Column) :
    rows.foldl (fun t r => t.pushColumn (column r)) table =
      { table with columns := table.columns ++ rows.map column } := by
  induction rows generalizing table with
  | nil => simp
  | cons r rows ih => rw [List.foldl_cons, ih]; simp [Table.pushColumn]

theorem foldl_pushForeignKey (foreignKey : ρ → ForeignKey) :
    rows.foldl (fun t r => t.pushForeignKey (foreignKey r)) table =
      { table with foreignKeys := table.foreignKeys ++ rows.map foreignKey } := by
  induction rows generalizing table with
  | nil => simp
  | cons r rows ih => rw [List.foldl_cons, ih]; simp [Table.pushForeignKey]

theorem foldl_pushIndexPart (part : ρ → IndexPart) :
    rows.foldl (fun t r => t.pushIndexPart (part r)) table =
      { table with indexes := (rows.map part).foldl pushIndexPart table.indexes } := by
  induction rows generalizing table with
  | nil => rfl
  | cons r rows ih => rw [List.foldl_cons, ih]; rfl

end Loops

/-! ### Indexes -/

/-- The parts of an index, as they are listed. -/
def Index.parts (index : Index) : List IndexPart :=
  index.columns.map fun column => ⟨index.name, column, index.unique⟩

theorem foldl_pushIndexPart_last (indexes : List Index) (index : Index) (columns : List String) :
    (columns.map fun column => (⟨index.name, column, index.unique⟩ : IndexPart)).foldl pushIndexPart
      (indexes ++ [index]) = indexes ++ [{ index with columns := index.columns ++ columns }] := by
  induction columns generalizing index with
  | nil => simp
  | cons column columns ih =>
    have hpush : pushIndexPart (indexes ++ [index]) ⟨index.name, column, index.unique⟩ =
        indexes ++ [{ index with columns := index.columns ++ [column] }] := by
      simp [pushIndexPart]
    rw [List.map_cons, List.foldl_cons, hpush]
    refine (ih { index with columns := index.columns ++ [column] }).trans ?_
    simp

/-- An index that comes after others of other names. -/
theorem foldl_parts {indexes : List Index} {index : Index} (hparts : index.columns ≠ [])
    (hnew : index.name ∉ indexes.map (·.name)) :
    index.parts.foldl pushIndexPart indexes = indexes ++ [index] := by
  obtain ⟨column, columns, hcolumns⟩ := List.exists_cons_of_ne_nil hparts
  have hpush : pushIndexPart indexes ⟨index.name, column, index.unique⟩ =
      indexes ++ [⟨index.name, [column], index.unique⟩] := by
    rw [pushIndexPart]
    cases hlast : indexes.getLast? with
    | none =>
      rw [List.getLast?_eq_none_iff.1 hlast]
      rfl
    | some last =>
      have hne : last.name ≠ index.name := by
        intro heq
        exact hnew (heq ▸ List.mem_map_of_mem (List.mem_of_getLast? hlast))
      exact if_neg hne
  rw [Index.parts, hcolumns, List.map_cons, List.foldl_cons, hpush]
  refine (foldl_pushIndexPart_last indexes ⟨index.name, [column], index.unique⟩ columns).trans ?_
  rw [List.singleton_append, ← hcolumns]

/-- **Parts that are listed index by index make the indexes.** -/
theorem foldl_flatMap_parts {indexes : List Index} (hparts : ∀ i ∈ indexes, i.columns ≠ [])
    (hnames : (indexes.map (·.name)).Nodup) :
    (indexes.flatMap Index.parts).foldl pushIndexPart [] = indexes := by
  induction indexes using List.reverseRecOn with
  | nil => rfl
  | append_singleton indexes index ih =>
    rw [List.map_append, List.nodup_append] at hnames
    rw [List.flatMap_append, List.foldl_append, ih (fun i hi => hparts i (by simp [hi])) hnames.1,
      List.flatMap_singleton]
    refine foldl_parts (hparts index (by simp)) fun hmem => ?_
    exact hnames.2.2 _ hmem _ (List.mem_singleton_self _) rfl

/-- **Rows that are listed index by index make the indexes.** -/
theorem foldl_map_flatMap {ι ρ : Type} {l : List ι} {rows : ι → List ρ} {part : ρ → IndexPart}
    {indexOf : ι → Index} (hrows : ∀ i ∈ l, (rows i).map part = (indexOf i).parts)
    (hparts : ∀ i ∈ l, (indexOf i).columns ≠ []) (hnames : (l.map fun i => (indexOf i).name).Nodup) :
    ((l.flatMap rows).map part).foldl pushIndexPart [] = l.map indexOf := by
  have hmap : (l.flatMap rows).map part = (l.map indexOf).flatMap Index.parts := by
    rw [List.map_flatMap, List.flatMap_map]
    exact List.flatMap_congr hrows
  rw [hmap]
  refine foldl_flatMap_parts (fun index hindex => ?_) ?_
  · obtain ⟨i, hi, rfl⟩ := List.mem_map.1 hindex
    exact hparts i hi
  · rw [List.map_map]
    exact hnames

end Introspect
end AgentDb
