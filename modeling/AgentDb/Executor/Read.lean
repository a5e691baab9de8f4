import AgentDb.Lib.Capped
import AgentDb.Lib.Json

/-!
# The read path: `executor/read.rs`

A read streams the rows of the target to JSON and caps them. The rows of the three engines differ
in how a cell is decoded; a row is here what the driver hands out (`ρ`), with the names of its
columns and the JSON value of each of its cells. `run_read` and the read-only session of
`safety/l2_enforce.rs` share the loop `stream_capped`.
-/

namespace AgentDb
namespace Executor

open Json

/-! ### Values that JavaScript can hold -/

/-- `JS_MAX_SAFE_INT`. -/
def jsMaxSafeInt : ℕ := 2 ^ 53

/-- `int_json`. -/
def intJson (v : ℤ) : Value :=
  if v.natAbs > jsMaxSafeInt then .string (toString v) else .number (.int v)

/-- `uint_json`. -/
def uintJson (v : ℕ) : Value :=
  if v > jsMaxSafeInt then .string (toString v) else .number (.int v)

/-- The two agree where both apply, so that a number is shown alike whichever type it had. -/
theorem intJson_natCast (v : ℕ) : intJson v = uintJson v := rfl

/-! ### The loop -/

section Stream

variable {ρ ε : Type*} (columnsOf : ρ → List String) (value : ρ → ℕ → Value)

/-- The cells of a row. -/
def cells (row : ρ) : List Value := (List.range (columnsOf row).length).map (value row)

/-- `stream_capped`, with the columns and the rows so far. -/
def streamCapped (max : ℕ) (columns : List String) (rows : List (List Value)) :
    List (Except ε ρ) → Except ε (List String × List (List Value) × Bool)
  | [] => .ok (columns, rows, false)
  | .error e :: _ => .error e
  | .ok row :: stream =>
      let columns := if columns.isEmpty then columnsOf row else columns
      if max ≤ rows.length then .ok (columns, rows, true)
      else streamCapped max columns (rows ++ [cells columnsOf value row]) stream

/-- A stream seen through a decoder. -/
def decoded (stream : List (Except ε ρ)) : List (Except ε (List Value)) :=
  stream.map (Except.map (cells columnsOf value))

/-- The rows and the flag are those of the capped reader over the decoded stream. -/
theorem streamCapped_snd (max : ℕ) (columns : List String) (rows : List (List Value))
    (stream : List (Except ε ρ)) :
    (streamCapped columnsOf value max columns rows stream).map Prod.snd =
      Capped.read max rows (decoded columnsOf value stream) := by
  induction stream generalizing columns rows with
  | nil => rfl
  | cons item stream ih =>
      cases item with
      | error e => rfl
      | ok row =>
          rw [streamCapped, decoded, List.map_cons]
          change _ = Capped.read max rows (.ok (cells columnsOf value row) :: _)
          rw [Capped.read]
          by_cases hfull : max ≤ rows.length
          · rw [if_pos hfull, if_pos hfull]
            rfl
          · rw [if_neg hfull, if_neg hfull]
            exact ih _ _

/-- The columns a reader of `max` rows comes back with: those of the first row it looked at that
has any. -/
def seenColumns (max : ℕ) (rows : List ρ) : List String :=
  (((rows.take (max + 1)).map columnsOf).find? fun columns => !columns.isEmpty).getD []

theorem streamCapped_fst {max : ℕ} (columns : List String) (lines : List (List Value))
    (hlines : lines.length ≤ max) (rows : List ρ) :
    (streamCapped columnsOf value max columns lines (rows.map (Except.ok (ε := ε)))).map
        Prod.fst =
      .ok (if columns.isEmpty then seenColumns columnsOf (max - lines.length) rows
        else columns) := by
  induction rows generalizing columns lines with
  | nil =>
      cases columns with
      | nil => rfl
      | cons name names => rfl
  | cons row rows ih =>
      rw [List.map_cons, streamCapped]
      by_cases hfull : max ≤ lines.length
      · -- The row past the cap still names the columns of an empty page.
        have hleft : max - lines.length = 0 := by omega
        rw [if_pos hfull, hleft]
        cases columns with
        | nil => cases hrow : columnsOf row <;> simp [seenColumns, Except.map, hrow]
        | cons name names => rfl
      · have hleft : max - lines.length = max - (lines.length + 1) + 1 := by omega
        rw [if_neg hfull, ih _ _ (by simp; omega), List.length_append, List.length_singleton, hleft]
        cases columns with
        | nil => cases hrow : columnsOf row <;> simp [seenColumns, hrow]
        | cons name names => rfl

theorem streamCapped_ok (max : ℕ) (rows : List ρ) :
    streamCapped columnsOf value max [] [] (rows.map (Except.ok (ε := ε))) =
      .ok (seenColumns columnsOf max rows, (rows.map (cells columnsOf value)).take max,
        decide (max < rows.length)) := by
  have hdecoded : decoded columnsOf value (rows.map (Except.ok (ε := ε))) =
      (rows.map (cells columnsOf value)).map Except.ok := by
    rw [decoded, List.map_map, List.map_map]
    rfl
  have hsnd := streamCapped_snd columnsOf value max [] [] (rows.map (Except.ok (ε := ε)))
  have hfst := streamCapped_fst columnsOf value (ε := ε) [] []
    (Nat.zero_le max) rows
  rw [hdecoded, Capped.read_ok, List.length_map] at hsnd
  cases h : streamCapped columnsOf value max [] [] (rows.map (Except.ok (ε := ε))) with
  | error e =>
      rw [h] at hfst
      cases hfst
  | ok result =>
      rw [h] at hfst hsnd
      have hcolumns : result.1 = seenColumns columnsOf max rows := by simpa [Except.map] using hfst
      have hrest : result.2 =
          ((rows.map (cells columnsOf value)).take max, decide (max < rows.length)) := by
        simpa only [Except.map, Except.ok.injEq] using hsnd
      rw [← hcolumns, ← hrest]

/-! ### The read -/

/-- `QueryResult`. -/
structure QueryResult where
  columns : List String
  rows : List (List Value)
  rowCount : ℕ
  truncated : Bool
  durationMs : ℕ

/-- `with_headers`: the metadata of the statement, where it could be had. -/
def withHeaders (columns : List String) (describe : Option (List String)) : List String :=
  if columns.isEmpty then describe.getD [] else columns

/-- `run_read`, and `run_read_only_inner` inside its session. A `usize` has the width of a `u64`,
so `max_rows as usize` is the cap itself. -/
def runRead (describe : Option (List String)) (durationMs : ℕ) (maxRows : UInt64)
    (stream : List (Except ε ρ)) : Except ε QueryResult := do
  let (columns, rows, truncated) ← streamCapped columnsOf value maxRows.toNat [] [] stream
  return { columns := withHeaders columns describe
           rows
           rowCount := rows.length
           truncated
           durationMs }

/-- The result of a read that meets no failure. -/
theorem runRead_ok (describe : Option (List String)) (durationMs : ℕ) (maxRows : UInt64)
    (rows : List ρ) :
    ∃ result, runRead columnsOf value describe durationMs maxRows
        (rows.map (Except.ok (ε := ε))) = .ok result ∧
      result.rowCount = result.rows.length ∧
      Capped.IsPage maxRows.toNat (rows.map (cells columnsOf value))
        (result.rows, result.truncated) := by
  have h := Capped.isPage_take maxRows.toNat (rows.map (cells columnsOf value))
  rw [List.length_map] at h
  let shown := (rows.map (cells columnsOf value)).take maxRows.toNat
  refine ⟨⟨withHeaders (seenColumns columnsOf maxRows.toNat rows) describe, shown, shown.length,
    decide (maxRows.toNat < rows.length), durationMs⟩, ?_, rfl, h⟩
  rw [runRead, streamCapped_ok]
  rfl

/-- A read keeps no more rows than its cap, whatever the target sends. -/
theorem length_le_of_runRead {describe : Option (List String)} {durationMs : ℕ} {maxRows : UInt64}
    {stream : List (Except ε ρ)} {result : QueryResult}
    (h : runRead columnsOf value describe durationMs maxRows stream = .ok result) :
    result.rows.length ≤ maxRows.toNat := by
  have hsnd := streamCapped_snd columnsOf value maxRows.toNat [] [] stream
  rw [runRead] at h
  cases hstream : streamCapped columnsOf value maxRows.toNat [] [] stream with
  | error e =>
      rw [hstream] at h
      cases h
  | ok page =>
      rw [hstream] at h hsnd
      cases h
      exact Capped.length_le_of_read (Nat.zero_le _) hsnd.symm

end Stream

end Executor
end AgentDb
