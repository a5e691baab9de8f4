import AgentDb.Lib.Csv
import AgentDb.Lib.JsonText

/-!
# The CSV export: `toCsv` of `sqlBuild.ts`

A cell is exported as its text, in quotes where needed; a table as a header line and the lines of
its rows. What a reader gets back is the whole table, except when its last record is a single empty
field: an empty line at the end is no record.
-/

namespace AgentDb
namespace Frontend

open Json (Value)

/-! ### The export -/

/-- A cell of a result. A number is kept as the text `String` gives for it. -/
inductive Cell
  | null
  | undefined
  | string (s : String)
  | number (text : String)
  | boolean (b : Bool)
  | object (v : Value)

/-- The text form of a cell. -/
def Cell.text : Cell → String
  | .null => ""
  | .undefined => ""
  | .string s => s
  | .number text => text
  | .boolean b => if b then "true" else "false"
  | .object v => Json.print v

/-- The test `/[",\n\r]/`. -/
def needsQuotes (s : String) : Bool := s.toList.any fun c => c ∈ ['"', ',', '\n', '\r']

/-- `s.replace(/"/g, '""')`. -/
def doubleQuotes (s : String) : String :=
  .ofList (s.toList.flatMap fun c => if c = '"' then ['"', '"'] else [c])

def escapeCsvField : Cell → String
  | .null => ""
  | .undefined => ""
  | v =>
      let s := v.text
      if needsQuotes s then "\"" ++ doubleQuotes s ++ "\"" else s

def toCsv (columns : List String) (rows : List (List Cell)) : String :=
  let head := ",".intercalate (columns.map fun c => escapeCsvField (.string c))
  let body := "\n".intercalate (rows.map fun r => ",".intercalate (r.map escapeCsvField))
  if body ≠ "" then head ++ "\n" ++ body else head

/-! ### The exported text -/

/-- The fields of a record. -/
def fieldsOf (cells : List Cell) : List (List Char) := cells.map fun cell => cell.text.toList

/-- The records of a table: its header and its rows. -/
def recordsOf (columns : List String) (rows : List (List Cell)) : List (List (List Char)) :=
  columns.map String.toList :: rows.map fieldsOf

theorem escapeCsvField_toList (cell : Cell) :
    (escapeCsvField cell).toList = Csv.encodeField cell.text.toList := by
  have htext : ∀ s : String,
      (if needsQuotes s then "\"" ++ doubleQuotes s ++ "\"" else s).toList =
        Csv.encodeField s.toList := fun s => by
    have hcondition : needsQuotes s = s.toList.any Csv.isSpecial := rfl
    rw [Csv.encodeField, ← hcondition]
    split
    · simp only [doubleQuotes, String.toList_append, String.toList_ofList]
      rfl
    · rfl
  cases cell with
  | null | undefined => rfl
  | string | number | boolean | object => exact htext _

theorem line_toList (cells : List Cell) :
    (",".intercalate (cells.map escapeCsvField)).toList = Csv.line (fieldsOf cells) := by
  rw [String.toList_intercalate, Csv.line, fieldsOf, List.map_map, List.map_map]
  exact congrArg _ (List.map_congr_left fun cell _ => escapeCsvField_toList cell)

theorem header_toList (columns : List String) :
    (",".intercalate (columns.map fun c => escapeCsvField (.string c))).toList =
      Csv.line (columns.map String.toList) := by
  have hcells := line_toList (columns.map Cell.string)
  rw [List.map_map, fieldsOf, List.map_map] at hcells
  exact hcells

theorem body_toList (rows : List (List Cell)) :
    ("\n".intercalate (rows.map fun r => ",".intercalate (r.map escapeCsvField))).toList =
      Csv.text (rows.map fieldsOf) := by
  rw [String.toList_intercalate, Csv.text, List.map_map, List.map_map]
  exact congrArg _ (List.map_congr_left fun row _ => line_toList row)

/-- The export is the lines of the records, or the header alone when the body is empty. -/
theorem toCsv_toList (columns : List String) (rows : List (List Cell)) :
    (toCsv columns rows).toList =
      if Csv.text (rows.map fieldsOf) = [] then Csv.text [columns.map String.toList]
      else Csv.text (recordsOf columns rows) := by
  have hempty : ∀ s : String, s ≠ "" ↔ s.toList ≠ [] := fun s => by simp
  unfold toCsv
  dsimp only
  simp only [hempty, body_toList]
  by_cases hbody : Csv.text (rows.map fieldsOf) = []
  · rw [if_neg (not_not_intro hbody), if_pos hbody, header_toList]
    exact List.intercalate_singleton.symm
  · have hrows : rows.map fieldsOf ≠ [] := fun h => hbody (by rw [h]; rfl)
    obtain ⟨row, rest, hrest⟩ := List.exists_cons_of_ne_nil hrows
    rw [if_pos hbody, if_neg hbody, String.toList_append, String.toList_append, header_toList,
      body_toList, recordsOf, hrest, Csv.text_cons_cons]
    simp

/-! ### What is read back -/

/-- Reading an export gives back the header and the rows exactly when the last record is not a
single empty field. -/
theorem parse_toCsv_iff {columns : List String} {rows : List (List Cell)} (hcolumns : columns ≠ [])
    (hwidth : ∀ row ∈ rows, row.length = columns.length) :
    Csv.parse (toCsv columns rows).toList = some (recordsOf columns rows) ↔
      (recordsOf columns rows).getLast? ≠ some [[]] := by
  have hheader : columns.map String.toList ≠ [] := by simpa using hcolumns
  have hrow : ∀ record ∈ rows.map fieldsOf, record ≠ [] := fun record hrecord => by
    obtain ⟨row, hmem, rfl⟩ := List.mem_map.1 hrecord
    have hpos : 0 < row.length := hwidth row hmem ▸ List.length_pos_iff.2 hcolumns
    simpa [fieldsOf] using List.length_pos_iff.1 hpos
  have hall : ∀ record ∈ recordsOf columns rows, record ≠ [] :=
    List.forall_mem_cons.2 ⟨hheader, hrow⟩
  rw [toCsv_toList]
  split
  case isFalse hbody =>
    rw [Csv.parse_text hall, Option.some_inj]
    exact Csv.withoutEmptyLast_eq_self_iff
  case isTrue hbody =>
    rw [Csv.parse_text (by simpa using hcolumns), Option.some_inj]
    obtain hnone | hone := (Csv.text_eq_nil_iff hrow).1 hbody
    · rw [recordsOf, hnone]
      exact Csv.withoutEmptyLast_eq_self_iff
    · -- The only row is lost, so that at most the header is read back.
      have hlast : (recordsOf columns rows).getLast? = some [[]] := by
        rw [recordsOf, hone]
        rfl
      refine iff_of_false (fun h => ?_) (not_not_intro hlast)
      have hlength := congrArg List.length h
      rw [recordsOf, hone, Csv.withoutEmptyLast] at hlength
      split at hlength <;> simp at hlength

/-- A row whose only cell is null is lost. -/
theorem parse_toCsv_null : Csv.parse (toCsv ["email"] [[.null]]).toList = some [["email".toList]] ∧
    recordsOf ["email"] [[.null]] = [["email".toList], [[]]] := by
  decide +kernel

theorem parse_toCsv_breaks :
    Csv.parse
        (toCsv ["id", "note"] [[.number "1", .string "a,\"b\"\r\nc"], [.null, .null]]).toList =
      some [["id".toList, "note".toList], ["1".toList, "a,\"b\"\r\nc".toList], [[], []]] :=
  (parse_toCsv_iff (by decide) (by decide)).2 (by decide)

end Frontend
end AgentDb
