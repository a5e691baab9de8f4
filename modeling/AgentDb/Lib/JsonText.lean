import AgentDb.Lib.Json
import AgentDb.Lib.TextCode

/-!
# Compact JSON text

`Json.print` writes a value without white space and with the shortest escapes; `Json.parse` reads
such a text back. `parse_print` is the round trip on values without floating-point numbers. The
reader recurses on fuel; the length of the text is always enough.
-/

namespace Json

open Json.Value

/-! ### Printing -/

/-- A character inside quotes. -/
def escape (c : Char) : List Char :=
  if c = '"' then ['\\', '"']
  else if c = '\\' then ['\\', '\\']
  else if c = '\n' then ['\\', 'n']
  else if c = '\r' then ['\\', 'r']
  else if c = '\t' then ['\\', 't']
  else if c.toNat = 8 then ['\\', 'b']
  else if c.toNat = 12 then ['\\', 'f']
  else if c.toNat < 32 then
    ['\\', 'u', '0', '0', Nat.digitChar (c.toNat / 16), Nat.digitChar (c.toNat % 16)]
  else [c]

/-- A text in quotes. -/
def quote (s : String) : List Char := '"' :: (s.toList.flatMap escape ++ ['"'])

def printInt (n : ℤ) : List Char :=
  if n < 0 then '-' :: Nat.toDigits 10 n.natAbs else Nat.toDigits 10 n.natAbs

mutual

def printValue : Value → List Char
  | .null => ['n', 'u', 'l', 'l']
  | .bool true => ['t', 'r', 'u', 'e']
  | .bool false => ['f', 'a', 'l', 's', 'e']
  | .number (.int n) => printInt n
  | .number (.float text) => text.toList
  | .string s => quote s
  | .array [] => ['[', ']']
  | .array (v :: vs) => '[' :: (printValue v ++ printItems vs)
  | .object [] => ['{', '}']
  | .object ((k, v) :: es) => '{' :: (quote k ++ ':' :: (printValue v ++ printEntries es))

/-- The rest of an array after one of its items. -/
def printItems : List Value → List Char
  | [] => [']']
  | v :: vs => ',' :: (printValue v ++ printItems vs)

/-- The rest of an object after one of its entries. -/
def printEntries : List (String × Value) → List Char
  | [] => ['}']
  | (k, v) :: es => ',' :: (quote k ++ ':' :: (printValue v ++ printEntries es))

end

/-- The compact text of a value. -/
def print (v : Value) : String := String.ofList (printValue v)

/-! ### Reading -/

/-- The value of a hexadecimal digit. -/
def hexValue (c : Char) : Option ℕ := (List.range 16).find? fun d => Nat.digitChar d = c

/-- The escapes of two characters, and what they stand for. -/
def shortEscapes : List (Char × Char) :=
  [('"', '"'), ('\\', '\\'), ('/', '/'), ('n', '\n'), ('r', '\r'), ('t', '\t'),
    ('b', Char.ofNat 8), ('f', Char.ofNat 12)]

/-- The text up to the closing quote, and what follows it. -/
def readString : List Char → Option (List Char × List Char)
  | [] => none
  | '"' :: r => some ([], r)
  | '\\' :: 'u' :: a :: b :: c :: d :: r => do
      let n := (← hexValue a) * 4096 + (← hexValue b) * 256 + (← hexValue c) * 16 + (← hexValue d)
      let (s, r) ← readString r
      return (Char.ofNat n :: s, r)
  | '\\' :: e :: r => do
      let c ← shortEscapes.lookup e
      let (s, r) ← readString r
      return (c :: s, r)
  | c :: r => (readString r).map fun p => (c :: p.1, p.2)

/-- The characters a number is made of. -/
def isNumberChar (c : Char) : Bool := c.isDigit || c ∈ ['-', '+', '.', 'e', 'E']

/-- The value of the text of a number. -/
def readNumber (text : List Char) : Option Value :=
  match text with
  | '-' :: ds =>
      if ds ≠ [] ∧ ds.all Char.isDigit then some (.number (.int (-(Nat.ofDigitChars 10 ds 0 : ℕ))))
      else some (.number (.float (String.ofList text)))
  | ds =>
      if ds = [] then none
      else if ds.all Char.isDigit then some (.number (.int (Nat.ofDigitChars 10 ds 0 : ℕ)))
      else some (.number (.float (String.ofList text)))

/-- Drop a fixed text off the front. -/
def expect (word cs : List Char) : Option (List Char) :=
  if word.isPrefixOf cs then some (cs.drop word.length) else none

mutual

/-- The value at the front of a text, and what follows it. -/
def readValue : ℕ → List Char → Option (Value × List Char)
  | 0, _ => none
  | n + 1, cs =>
      match cs.head? with
      | some '"' => (readString cs.tail).map fun p => (.string (String.ofList p.1), p.2)
      | some '[' =>
          if cs.tail.head? = some ']' then some (.array [], cs.tail.tail)
          else do
            let (v, r) ← readValue n cs.tail
            let (vs, r) ← readItems n r
            return (.array (v :: vs), r)
      | some '{' =>
          if cs.tail.head? = some '}' then some (.object [], cs.tail.tail)
          else do
            let (e, r) ← readEntry n cs.tail
            let (es, r) ← readEntries n r
            return (.object (e :: es), r)
      | some 'n' => (expect ['n', 'u', 'l', 'l'] cs).map fun r => (.null, r)
      | some 't' => (expect ['t', 'r', 'u', 'e'] cs).map fun r => (.bool true, r)
      | some 'f' => (expect ['f', 'a', 'l', 's', 'e'] cs).map fun r => (.bool false, r)
      | _ => (readNumber (cs.takeWhile isNumberChar)).map fun v => (v, cs.dropWhile isNumberChar)

def readItems : ℕ → List Char → Option (List Value × List Char)
  | 0, _ => none
  | n + 1, cs =>
      match cs.head? with
      | some ']' => some ([], cs.tail)
      | some ',' => do
          let (v, r) ← readValue n cs.tail
          let (vs, r) ← readItems n r
          return (v :: vs, r)
      | _ => none

def readEntry : ℕ → List Char → Option ((String × Value) × List Char)
  | 0, _ => none
  | n + 1, cs => do
      let r ← expect ['"'] cs
      let (k, r) ← readString r
      let r ← expect [':'] r
      let (v, r) ← readValue n r
      return ((String.ofList k, v), r)

def readEntries : ℕ → List Char → Option (List (String × Value) × List Char)
  | 0, _ => none
  | n + 1, cs =>
      match cs.head? with
      | some '}' => some ([], cs.tail)
      | some ',' => do
          let (e, r) ← readEntry n cs.tail
          let (es, r) ← readEntries n r
          return (e :: es, r)
      | _ => none

end

/-- The value of a text, nothing left over. -/
def parse (s : String) : Option Value :=
  match readValue (s.toList.length + 1) s.toList with
  | some (v, []) => some v
  | _ => none

/-! ### The round trip -/

theorem hexValue_digitChar {d : ℕ} (h : d < 16) : hexValue (Nat.digitChar d) = some d := by
  have key : ∀ d : Fin 16, hexValue (Nat.digitChar d) = some d.val := by decide
  exact key ⟨d, h⟩

theorem readString_short {e c : Char} (he : e ≠ 'u') (h : shortEscapes.lookup e = some c)
    (r : List Char) :
    readString ('\\' :: e :: r) = (readString r).map fun p => (c :: p.1, p.2) := by
  rw [readString, h]
  · cases readString r <;> rfl
  · intro a b c' d r' heq
    exact absurd heq he

theorem readString_escape (c : Char) (r : List Char) :
    readString (escape c ++ r) = (readString r).map fun p => (c :: p.1, p.2) := by
  unfold escape
  split_ifs with h1 h2 h3 h4 h5 h6 h7 h8
  · subst h1
    exact readString_short (by decide) (by decide) r
  · subst h2
    exact readString_short (by decide) (by decide) r
  · subst h3
    exact readString_short (by decide) (by decide) r
  · subst h4
    exact readString_short (by decide) (by decide) r
  · subst h5
    exact readString_short (by decide) (by decide) r
  · obtain rfl : c = Char.ofNat 8 := by rw [← h6, Char.ofNat_toNat]
    exact readString_short (by decide) (by decide) r
  · obtain rfl : c = Char.ofNat 12 := by rw [← h7, Char.ofNat_toNat]
    exact readString_short (by decide) (by decide) r
  · have h0 : hexValue '0' = some 0 := by decide
    have hhigh := hexValue_digitChar (show c.toNat / 16 < 16 by omega)
    have hlow := hexValue_digitChar (show c.toNat % 16 < 16 by omega)
    have hc : Char.ofNat (0 * 4096 + 0 * 256 + c.toNat / 16 * 16 + c.toNat % 16) = c := by
      rw [show 0 * 4096 + 0 * 256 + c.toNat / 16 * 16 + c.toNat % 16 = c.toNat by omega,
        Char.ofNat_toNat]
    simp only [List.cons_append, List.nil_append, readString, h0, hhigh, hlow, Option.bind_eq_bind,
      Option.bind_some, hc]
    cases readString r <;> rfl
  · rw [List.singleton_append, readString]
    · intro h
      exact absurd h h1
    · intro a b c' d r' h
      exact absurd h h2
    · intro e r' h
      exact absurd h h2

theorem readString_quote (s r : List Char) :
    readString (s.flatMap escape ++ '"' :: r) = some (s, r) := by
  induction s with
  | nil => rfl
  | cons c s ih => rw [List.flatMap_cons, List.append_assoc, readString_escape, ih, Option.map_some]

/-- What may follow a number. -/
def Delimited (r : List Char) : Prop := ∀ c ∈ r.head?, isNumberChar c = false

theorem isNumberChar_of_mem_printInt {n : ℤ} {c : Char} (h : c ∈ printInt n) :
    isNumberChar c = true := by
  have hdigit : c ∈ Nat.toDigits 10 n.natAbs → isNumberChar c = true := fun hc => by
    rw [isNumberChar, Nat.isDigit_of_mem_toDigits (by omega) (by omega) hc, Bool.true_or]
  unfold printInt at h
  split_ifs at h with hn
  · rcases List.mem_cons.1 h with rfl | h
    · decide
    · exact hdigit h
  · exact hdigit h

theorem readNumber_printInt (n : ℤ) : readNumber (printInt n) = some (.number (.int n)) := by
  have hne : Nat.toDigits 10 n.natAbs ≠ [] := Nat.toDigits_ne_nil
  have hall : (Nat.toDigits 10 n.natAbs).all Char.isDigit = true := by
    rw [List.all_eq_true]
    exact fun c hc => Nat.isDigit_of_mem_toDigits (by omega) (by omega) hc
  have hvalue : Nat.ofDigitChars 10 (Nat.toDigits 10 n.natAbs) 0 = n.natAbs :=
    Nat.ofDigitChars_ten_toDigits
  unfold printInt
  split_ifs with hn
  · rw [readNumber, if_pos ⟨hne, hall⟩, hvalue]
    congr 3
    omega
  · rw [readNumber, if_neg hne, if_pos hall, hvalue]
    · congr 3
      omega
    · rintro ds hds
      have hminus : '-' ∈ Nat.toDigits 10 n.natAbs := by
        rw [hds]
        exact List.mem_cons_self
      exact absurd (List.all_eq_true.1 hall _ hminus) (by decide)

theorem readNumber_nil : readNumber [] = none := rfl

/-- The text of a number is read up to its end. -/
theorem readValue_number {cs : List Char} {v : Value} (hall : ∀ c ∈ cs, isNumberChar c = true)
    (hread : readNumber cs = some v) (n : ℕ) {r : List Char} (hr : Delimited r) :
    readValue (n + 1) (cs ++ r) = some (v, r) := by
  have htake : (cs ++ r).takeWhile isNumberChar = cs ∧ (cs ++ r).dropWhile isNumberChar = r := by
    rw [List.takeWhile_append_of_pos hall, List.dropWhile_append_of_pos hall]
    cases r with
    | nil => simp
    | cons c r =>
      have hc : isNumberChar c = false := hr c rfl
      simp [hc]
  obtain ⟨c, ds, rfl⟩ : ∃ c ds, cs = c :: ds := by
    refine List.exists_cons_of_ne_nil ?_
    rintro rfl
    cases readNumber_nil ▸ hread
  have hnum := hall c List.mem_cons_self
  have hother : ∀ d, isNumberChar d = false → c ≠ d := by
    rintro d hd rfl
    rw [hnum] at hd
    cases hd
  rw [readValue, List.cons_append, List.head?_cons]
  split
  all_goals first
    | exact absurd (Option.some.inj ‹_›) (hother _ (by decide))
    | rw [← List.cons_append, htake.1, htake.2, hread, Option.map_some]

/-- The text of a floating-point number: it reads back as one. -/
def FloatText (text : String) : Prop :=
  (∀ c ∈ text.toList, isNumberChar c = true) ∧
    readNumber text.toList = some (.number (.float text))

/-- The floating-point numbers of the value are texts of such. -/
inductive Legible : Value → Prop
  | null : Legible .null
  | bool (b : Bool) : Legible (.bool b)
  | int (n : ℤ) : Legible (.number (.int n))
  | float {text : String} (htext : FloatText text) : Legible (.number (.float text))
  | string (s : String) : Legible (.string s)
  | array {items : List Value} : (∀ v ∈ items, Legible v) → Legible (.array items)
  | object {entries : List (String × Value)} :
      (∀ e ∈ entries, Legible e.2) → Legible (.object entries)

theorem legible_of_noFloat {v : Value} (hv : v.NoFloat) : Legible v := by
  induction v using Value.ind with
  | null => exact .null
  | bool b => exact .bool b
  | number n =>
    cases hv with
    | int n => exact .int n
  | string s => exact .string s
  | array items ih =>
    rw [Value.noFloat_array] at hv
    exact .array fun v hmem => ih v hmem (hv v hmem)
  | object entries ih =>
    rw [Value.noFloat_object] at hv
    exact .object fun e hmem => ih e hmem (hv e hmem)

theorem delimited_printItems (vs : List Value) (r : List Char) :
    Delimited (printItems vs ++ r) := by
  cases vs <;> · rintro c ⟨⟩; decide

theorem delimited_printEntries (es : List (String × Value)) (r : List Char) :
    Delimited (printEntries es ++ r) := by
  rcases es with _ | ⟨⟨k, v⟩, es⟩ <;> · rintro c ⟨⟩; decide

/-- What the round trip says of one value. -/
def ReadsBack (v : Value) : Prop :=
  ∀ n r, (printValue v).length ≤ n → Delimited r →
    readValue (n + 1) (printValue v ++ r) = some (v, r)

theorem readItems_print {vs : List Value} (h : ∀ v ∈ vs, ReadsBack v) {n : ℕ} {r : List Char}
    (hn : (printItems vs).length ≤ n) : readItems n (printItems vs ++ r) = some (vs, r) := by
  induction vs generalizing n with
  | nil =>
    obtain ⟨n, rfl⟩ := Nat.exists_eq_add_of_le' (show 1 ≤ n from hn)
    rfl
  | cons v vs ih =>
    simp only [printItems, List.length_cons, List.length_append] at hn
    have hpos : 0 < (printItems vs).length := by cases vs <;> simp [printItems]
    obtain ⟨n, rfl⟩ := Nat.exists_eq_add_of_le' (show 2 ≤ n by omega)
    have hv := h v (by simp) n (printItems vs ++ r) (by omega) (delimited_printItems vs r)
    have hvs := ih (fun w hw => h w (by simp [hw])) (show (printItems vs).length ≤ n + 1 by omega)
    rw [printItems, List.cons_append, List.append_assoc, readItems]
    simp only [List.head?_cons, List.tail_cons, hv, hvs, Option.bind_eq_bind, Option.bind_some]
    rfl

theorem readEntry_print {k : String} {v : Value} (h : ReadsBack v) {n : ℕ} {r : List Char}
    (hn : (printValue v).length ≤ n) (hr : Delimited r) :
    readEntry (n + 2) (quote k ++ ':' :: (printValue v ++ r)) = some ((k, v), r) := by
  have hv := h n r hn hr
  rw [readEntry, quote, List.cons_append, List.append_assoc, List.singleton_append]
  simp [expect, readString_quote, hv]

theorem readEntries_print {es : List (String × Value)} (h : ∀ e ∈ es, ReadsBack e.2) {n : ℕ}
    {r : List Char} (hn : (printEntries es).length ≤ n) :
    readEntries n (printEntries es ++ r) = some (es, r) := by
  induction es generalizing n with
  | nil =>
    obtain ⟨n, rfl⟩ := Nat.exists_eq_add_of_le' (show 1 ≤ n from hn)
    rfl
  | cons e es ih =>
    obtain ⟨k, v⟩ := e
    simp only [printEntries, quote, List.length_cons, List.length_append] at hn
    obtain ⟨n, rfl⟩ := Nat.exists_eq_add_of_le' (show 3 ≤ n by omega)
    have hv := readEntry_print (k := k) (h (k, v) (by simp))
      (show (printValue v).length ≤ n by omega) (delimited_printEntries es r)
    have hes := ih (fun w hw => h w (by simp [hw])) (show (printEntries es).length ≤ n + 2 by omega)
    rw [printEntries, List.cons_append, List.append_assoc, List.cons_append, List.append_assoc,
      readEntries]
    simp only [List.head?_cons, List.tail_cons, hv, hes, Option.bind_eq_bind, Option.bind_some]
    rfl

/-- A value never starts with a closing bracket. -/
theorem head?_printValue {v : Value} (hv : Legible v) (r : List Char) :
    (printValue v ++ r).head? ≠ some ']' := by
  have hnumber : ∀ {cs : List Char} {w : Value}, (∀ c ∈ cs, isNumberChar c = true) →
      readNumber cs = some w → (cs ++ r).head? ≠ some ']' := by
    rintro (_ | ⟨c, cs⟩) w hall hread
    · cases hread
    · rintro ⟨⟩
      exact absurd (hall ']' List.mem_cons_self) (by decide)
  cases hv with
  | null => simp [printValue]
  | bool b => cases b <;> simp [printValue]
  | int k => exact hnumber (fun c => isNumberChar_of_mem_printInt) (readNumber_printInt k)
  | float htext => exact hnumber htext.1 htext.2
  | string s => simp [printValue, quote]
  | @array items _ => cases items <;> simp [printValue]
  | @object entries _ => cases entries <;> simp [printValue]

/-- **Reading back what was printed**, in front of anything that may follow a value. -/
theorem readsBack_of_legible {v : Value} (hv : Legible v) : ReadsBack v := by
  induction v using Value.ind with
  | null => exact fun _ _ _ _ => rfl
  | bool b => cases b <;> exact fun _ _ _ _ => rfl
  | number num =>
    rintro n r - hr
    cases hv with
    | int k =>
      exact readValue_number (fun c => isNumberChar_of_mem_printInt) (readNumber_printInt k) n hr
    | float htext => exact readValue_number htext.1 htext.2 n hr
  | string s =>
    rintro n r - -
    rw [printValue, quote, List.cons_append, readValue, List.head?_cons, List.append_assoc]
    simp only [List.tail_cons, List.singleton_append, readString_quote, Option.map_some,
      String.ofList_toList]
  | array items ih =>
    rintro n r hn hr
    replace hv : ∀ v ∈ items, Legible v := by
      cases hv
      assumption
    cases items with
    | nil => rfl
    | cons v vs =>
      simp only [printValue, List.length_cons, List.length_append] at hn
      obtain ⟨n, rfl⟩ := Nat.exists_eq_add_of_le' (show 1 ≤ n by omega)
      have hfirst := ih v (by simp) (hv v (by simp)) n (printItems vs ++ r) (by
        have hpos : 0 < (printItems vs).length := by cases vs <;> simp [printItems]
        omega) (delimited_printItems vs r)
      have hrest := readItems_print (r := r) (fun w hw => ih w (by simp [hw]) (hv w (by simp [hw])))
        (show (printItems vs).length ≤ n + 1 by omega)
      have hopen := head?_printValue (hv v (by simp)) (printItems vs ++ r)
      rw [printValue, List.cons_append, List.append_assoc, readValue]
      simp only [List.head?_cons, List.tail_cons, if_neg hopen, hfirst, hrest,
        Option.bind_eq_bind, Option.bind_some]
      rfl
  | object entries ih =>
    rintro n r hn hr
    replace hv : ∀ e ∈ entries, Legible e.2 := by
      cases hv
      assumption
    cases entries with
    | nil => rfl
    | cons e es =>
      obtain ⟨k, v⟩ := e
      simp only [printValue, quote, List.length_cons, List.length_append] at hn
      obtain ⟨n, rfl⟩ := Nat.exists_eq_add_of_le' (show 2 ≤ n by omega)
      have hfirst := readEntry_print (k := k) (ih (k, v) (by simp) (hv (k, v) (by simp)))
        (show (printValue v).length ≤ n by omega) (delimited_printEntries es r)
      have hrest := readEntries_print (r := r)
        (fun w hw => ih w (by simp [hw]) (hv w (by simp [hw])))
        (show (printEntries es).length ≤ n + 2 by omega)
      have hopen : (quote k ++ ':' :: (printValue v ++ (printEntries es ++ r))).head? ≠
        some '}' := by simp [quote]
      rw [printValue, List.cons_append, List.append_assoc, List.cons_append, List.append_assoc,
        readValue]
      simp only [List.head?_cons, List.tail_cons, if_neg hopen, hfirst, hrest,
        Option.bind_eq_bind, Option.bind_some]
      rfl

/-- **The round trip.** -/
theorem parse_print_of_legible {v : Value} (hv : Legible v) : parse (print v) = some v := by
  have hread := readsBack_of_legible hv (printValue v).length [] le_rfl (by simp [Delimited])
  rw [List.append_nil] at hread
  rw [parse, print, String.toList_ofList, hread]

theorem parse_print {v : Value} (hv : v.NoFloat) : parse (print v) = some v :=
  parse_print_of_legible (legible_of_noFloat hv)

/-- Two legible values are not printed alike. -/
theorem print_injective_of_legible {v w : Value} (hv : Legible v) (hw : Legible w)
    (h : print v = print w) : v = w := by
  have hread := congrArg parse h
  rw [parse_print_of_legible hv, parse_print_of_legible hw] at hread
  exact Option.some.inj hread

/-! ### Sizes -/

theorem utf8ByteSize_ofList (l : List Char) :
    (String.ofList l).utf8ByteSize = (l.map Char.utf8Size).sum := by
  induction l with
  | nil => rfl
  | cons c l ih =>
    rw [String.ofList_cons, String.utf8ByteSize_append, String.utf8ByteSize_singleton, ih,
      List.map_cons, List.sum_cons]

/-- A text has at least one byte and at most four for each of its characters. -/
theorem length_le_utf8ByteSize_ofList (l : List Char) :
    l.length ≤ (String.ofList l).utf8ByteSize ∧ (String.ofList l).utf8ByteSize ≤ 4 * l.length := by
  rw [utf8ByteSize_ofList]
  induction l with
  | nil => exact ⟨le_rfl, le_rfl⟩
  | cons c l ih =>
    have hpos := c.utf8Size_pos
    have hle := c.utf8Size_le_four
    simp only [List.map_cons, List.sum_cons, List.length_cons]
    omega

theorem length_escape_le (c : Char) : 1 ≤ (escape c).length ∧ (escape c).length ≤ 6 := by
  unfold escape
  split_ifs <;> simp

theorem length_quote (s : String) :
    s.toList.length + 2 ≤ (quote s).length ∧ (quote s).length ≤ 6 * s.toList.length + 2 := by
  unfold quote
  simp only [List.length_cons, List.length_append, List.length_nil]
  induction s.toList with
  | nil => exact ⟨le_rfl, le_rfl⟩
  | cons c l ih =>
    have hescape := length_escape_le c
    simp only [List.flatMap_cons, List.length_append, List.length_cons]
    omega

end Json
