import Mathlib.Data.List.Basic

/-!
# Comma-separated values

A reader of comma-separated values by the rules of RFC 4180: fields are parted by commas, records
are ended by line breaks (LF, CRLF or CR) outside quotes, the last one by the end of the text or by
a line break; a field in quotes holds its quotes doubled. `parse_text` says what the reader makes of
the lines a writer joins by line feeds: the records, except a last one whose line is empty.
-/

namespace Csv

/-! ### Reading -/

/-- Where the reader is in a field. -/
inductive Mode
  | start
  | bare
  | quoted
  | closed
  deriving DecidableEq

/-- What is read from inside a field: the rest of the field, the other fields of the record, the
records after it. -/
structure Rest where
  field : List Char
  fields : List (List Char)
  records : List (List (List Char))
  deriving DecidableEq

/-- The record that is read from its start. -/
def Rest.record (rest : Rest) : List (List Char) := rest.field :: rest.fields

/-- A text before the rest of the field. -/
def Rest.push (cs : List Char) (rest : Rest) : Rest := { rest with field := cs ++ rest.field }

/-- What a record's end leaves. -/
def Rest.ended (records : List (List (List Char))) : Rest := ⟨[], [], records⟩

/-- What a comma leaves. -/
def Rest.comma (rest : Rest) : Rest := ⟨[], rest.record, rest.records⟩

/-- What a line break leaves, when a record stands behind it. -/
def Rest.break (rest : Rest) : Rest := .ended (rest.record :: rest.records)

/-- What is read in a mode. A carriage return before a line feed is passed over, since the line
feed ends the record. -/
def parseFrom : Mode → List Char → Option Rest
  | m, [] => if m = .quoted then none else some (.ended [])
  | m, c :: cs =>
      if m = .quoted then
        if c = '"' then parseFrom .closed cs else (parseFrom .quoted cs).map (.push [c])
      else if c = ',' then (parseFrom .start cs).map .comma
      else if c = '\r' ∧ cs.head? = some '\n' then parseFrom .closed cs
      else if c = '\n' ∨ c = '\r' then
        if cs = [] then some (.ended []) else (parseFrom .start cs).map .break
      else if c = '"' then
        if m = .start then parseFrom .quoted cs
        else if m = .closed then (parseFrom .quoted cs).map (.push [c])
        else none
      else if m = .closed then none
      else (parseFrom .bare cs).map (.push [c])

/-- The records of a text. -/
def parse (cs : List Char) : Option (List (List (List Char))) :=
  if cs = [] then some [] else (parseFrom .start cs).map fun rest => rest.record :: rest.records

/-! ### Writing -/

/-- The characters for which a field is put in quotes. -/
def isSpecial (c : Char) : Bool := c ∈ ['"', ',', '\n', '\r']

/-- A character inside quotes. -/
def double (c : Char) : List Char := if c = '"' then ['"', '"'] else [c]

def encodeField (field : List Char) : List Char :=
  if field.any isSpecial then '"' :: (field.flatMap double ++ ['"']) else field

def line (fields : List (List Char)) : List Char := [','].intercalate (fields.map encodeField)

def text (records : List (List (List Char))) : List Char := ['\n'].intercalate (records.map line)

/-- The records without a last one whose line is empty. -/
def withoutEmptyLast (records : List (List (List Char))) : List (List (List Char)) :=
  if records.getLast? = some [[]] then records.dropLast else records

/-! ### A field -/

@[simp] theorem push_nil : Rest.push [] = id := rfl

@[simp] theorem push_push (as bs : List Char) (rest : Rest) :
    (rest.push bs).push as = rest.push (as ++ bs) := by simp [Rest.push]

theorem parseFrom_line_feed {m : Mode} (hm : m ≠ .quoted) (cs : List Char) :
    parseFrom m ('\n' :: cs) = (parse cs).map .ended := by
  have hstep : parseFrom m ('\n' :: cs) =
      if cs = [] then some (.ended []) else (parseFrom .start cs).map .break := by
    cases m with
    | quoted => exact absurd rfl hm
    | start | bare | closed => simp [parseFrom]
  rw [hstep, parse]
  split
  · rfl
  · rw [Option.map_map]
    rfl

theorem parseFrom_comma {m : Mode} (hm : m ≠ .quoted) (cs : List Char) :
    parseFrom m (',' :: cs) = (parseFrom .start cs).map .comma := by
  cases m with
  | quoted => exact absurd rfl hm
  | start | bare | closed => simp [parseFrom]

/-- The text after a field: nothing, or a comma or a line feed and more. -/
def Delimited (r : List Char) : Prop := r = [] ∨ (∃ cs, r = ',' :: cs) ∨ ∃ cs, r = '\n' :: cs

/-- At the end of a field it does not matter how the field was written. -/
theorem parseFrom_delimited {r : List Char} (hr : Delimited r) {m : Mode} (hm : m ≠ .quoted) :
    parseFrom m r = parseFrom .closed r := by
  obtain rfl | ⟨cs, rfl⟩ | ⟨cs, rfl⟩ := hr
  · cases m with
    | quoted => exact absurd rfl hm
    | start | bare | closed => rfl
  · rw [parseFrom_comma hm, parseFrom_comma (by simp)]
  · rw [parseFrom_line_feed hm, parseFrom_line_feed (by simp)]

/-- What stands between the quotes is read back. -/
theorem parseFrom_quoted (field r : List Char) :
    parseFrom .quoted (field.flatMap double ++ '"' :: r) =
      (parseFrom .closed r).map (.push field) := by
  induction field with
  | nil => simp [parseFrom]
  | cons c field ih =>
      by_cases hc : c = '"'
      · subst hc
        have hstep : ∀ cs, parseFrom .quoted ('"' :: '"' :: cs) =
            (parseFrom .quoted cs).map (.push ['"']) := fun cs => by simp [parseFrom]
        rw [List.flatMap_cons, double, if_pos rfl, List.append_assoc, List.cons_append,
          List.cons_append, List.nil_append, hstep, ih, Option.map_map]
        exact congrArg (Option.map · _) (funext fun rest => by simp)
      · have hstep : ∀ cs, parseFrom .quoted (c :: cs) =
            (parseFrom .quoted cs).map (.push [c]) := fun cs => by simp [parseFrom, hc]
        rw [List.flatMap_cons, double, if_neg hc, List.append_assoc, List.cons_append,
          List.nil_append, hstep, ih, Option.map_map]
        exact congrArg (Option.map · _) (funext fun rest => by simp)

theorem parseFrom_plain {m : Mode} (hm : m = .start ∨ m = .bare) {c : Char}
    (hc : isSpecial c = false) (cs : List Char) :
    parseFrom m (c :: cs) = (parseFrom .bare cs).map (.push [c]) := by
  have hne : c ≠ '"' ∧ c ≠ ',' ∧ c ≠ '\n' ∧ c ≠ '\r' := by simpa [isSpecial] using hc
  obtain ⟨hquote, hcomma, hfeed, hreturn⟩ := hne
  obtain rfl | rfl := hm <;> simp [parseFrom, hquote, hcomma, hfeed, hreturn]

/-- A field without special characters is read as it is. -/
theorem parseFrom_bare {m : Mode} (hm : m = .start ∨ m = .bare) {field r : List Char}
    (hfield : field.any isSpecial = false) (hr : Delimited r) :
    parseFrom m (field ++ r) = (parseFrom .closed r).map (.push field) := by
  induction field generalizing m with
  | nil =>
      have hm' : m ≠ .quoted := by
        obtain rfl | rfl := hm <;> simp
      rw [List.nil_append, parseFrom_delimited hr hm']
      simp
  | cons c field ih =>
      obtain ⟨hc, hrest⟩ : isSpecial c = false ∧ field.any isSpecial = false := by
        simpa only [List.any_cons, Bool.or_eq_false_iff] using hfield
      rw [List.cons_append, parseFrom_plain hm hc, ih (.inr rfl) hrest, Option.map_map]
      exact congrArg (Option.map · _) (funext fun rest => by simp)

theorem parseFrom_encodeField (field : List Char) {r : List Char} (hr : Delimited r) :
    parseFrom .start (encodeField field ++ r) = (parseFrom .closed r).map (.push field) := by
  unfold encodeField
  split
  case isTrue =>
    have hopen : ∀ cs, parseFrom .start ('"' :: cs) = parseFrom .quoted cs := fun cs => by
      simp [parseFrom]
    rw [List.cons_append, List.append_assoc, hopen, List.singleton_append, parseFrom_quoted]
  case isFalse hplain => exact parseFrom_bare (.inl rfl) (by simpa using hplain) hr

/-! ### A record -/

theorem line_cons_cons (f g : List Char) (fields : List (List Char)) :
    line (f :: g :: fields) = encodeField f ++ ',' :: line (g :: fields) := by
  simp [line]

/-- A line is read as its fields, whatever stands behind it. -/
theorem parseFrom_line (f : List Char) (fields : List (List Char)) {r : List Char}
    (hr : r = [] ∨ ∃ cs, r = '\n' :: cs) :
    parseFrom .start (line (f :: fields) ++ r) =
      (parseFrom .closed r).map fun rest => ⟨f, fields, rest.records⟩ := by
  -- Behind a record nothing is left of its fields.
  have hended : ∃ records : Option (List (List (List Char))),
      parseFrom .closed r = records.map .ended := by
    obtain rfl | ⟨cs, rfl⟩ := hr
    · exact ⟨some [], rfl⟩
    · exact ⟨parse cs, parseFrom_line_feed (by simp) cs⟩
  obtain ⟨records, hrecords⟩ := hended
  rw [hrecords, Option.map_map]
  induction fields generalizing f with
  | nil =>
      have hdelimited : Delimited r := hr.imp_right .inr
      rw [line, List.map_singleton, List.intercalate_singleton,
        parseFrom_encodeField f hdelimited, hrecords, Option.map_map]
      exact congrArg (Option.map · _) (funext fun rest => by simp [Rest.push, Rest.ended])
  | cons g fields ih =>
      rw [line_cons_cons, List.append_assoc, List.cons_append,
        parseFrom_encodeField f (.inr (.inl ⟨_, rfl⟩)), parseFrom_comma (by simp), ih,
        Option.map_map, Option.map_map]
      exact congrArg (Option.map · _)
        (funext fun rest => by simp [Rest.push, Rest.comma, Rest.record])

theorem encodeField_eq_nil_iff {field : List Char} : encodeField field = [] ↔ field = [] := by
  unfold encodeField
  split
  case isTrue hspecial =>
    refine ⟨fun h => by simp at h, fun h => ?_⟩
    subst h
    simp at hspecial
  case isFalse => rfl

/-- The line of a record is empty when its only field is. -/
theorem line_eq_nil_iff {record : List (List Char)} (h : record ≠ []) :
    line record = [] ↔ record = [[]] := by
  obtain ⟨f, fields, rfl⟩ := List.exists_cons_of_ne_nil h
  cases fields with
  | nil => simp [line, encodeField_eq_nil_iff]
  | cons g fields => simp [line_cons_cons]

/-! ### A text -/

theorem text_cons_cons (a b : List (List Char)) (records : List (List (List Char))) :
    text (a :: b :: records) = line a ++ '\n' :: text (b :: records) := by
  simp [text]

/-- Only a single record with an empty line has an empty text. -/
theorem text_eq_nil_iff {records : List (List (List Char))} (h : ∀ record ∈ records, record ≠ []) :
    text records = [] ↔ records = [] ∨ records = [[[]]] := by
  match records with
  | [] => simp [text]
  | [a] =>
      rw [text, List.map_singleton, List.intercalate_singleton, line_eq_nil_iff (h a (by simp))]
      simp
  | a :: b :: records => simp [text_cons_cons]

/-- What is read of the lines of some records: the records, except a last one whose line is
empty. -/
theorem parse_text {records : List (List (List Char))} (h : ∀ record ∈ records, record ≠ []) :
    parse (text records) = some (withoutEmptyLast records) := by
  induction records with
  | nil => rfl
  | cons a records ih =>
      obtain ⟨f, fields, rfl⟩ := List.exists_cons_of_ne_nil (h a (by simp))
      cases records with
      | nil =>
          have hread := parseFrom_line f fields (r := []) (.inl rfl)
          rw [List.append_nil] at hread
          have hlast := line_eq_nil_iff (h (f :: fields) (by simp))
          rw [text, List.map_singleton, List.intercalate_singleton, parse, withoutEmptyLast,
            hread]
          simp [hlast, parseFrom, Rest.ended, Rest.record]
          split <;> rfl
      | cons b records =>
          have hrest := ih fun record hrecord => h record (List.mem_cons_of_mem _ hrecord)
          have hne : line (f :: fields) ++ '\n' :: text (b :: records) ≠ [] := by simp
          rw [text_cons_cons, parse, if_neg hne, parseFrom_line f fields (.inr ⟨_, rfl⟩),
            parseFrom_line_feed (by simp), hrest]
          simp [withoutEmptyLast, Rest.ended, Rest.record]
          split <;> rfl

theorem withoutEmptyLast_eq_self_iff {records : List (List (List Char))} :
    withoutEmptyLast records = records ↔ records.getLast? ≠ some [[]] := by
  unfold withoutEmptyLast
  split
  case isTrue hlast =>
    have hne : records ≠ [] := fun h => by simp [h] at hlast
    refine iff_of_false (fun h => ?_) (not_not_intro hlast)
    have hlength := congrArg List.length h
    have hpos := List.length_pos_iff.2 hne
    rw [List.length_dropLast] at hlength
    omega
  case isFalse hlast => exact iff_of_true rfl hlast

end Csv
