import AgentDb.Lib.Loop
import AgentDb.SqlScript.Split

/-!
# The scan over bytes: `sql_script/mod.rs`

The source goes over the bytes of the script with an index. Here it is loop by loop: reading an
index out of bounds, cutting a text inside a character and running out of turns all give `none`.
The main result, `splitBytes_eq`, says that none of it happens, and that the statements are those
of `splitStatements`.

At any time the index stands in front of the rest of a character, which is made of high bytes, and
of further characters: `At`. The loops look for ASCII characters only, so they go over high bytes
one by one, as `splitStatements` goes over a character.
-/

namespace AgentDb
namespace SqlScript

open Lexing Looping

/-! ### The loops of the source -/

/-- `as_bytes`. -/
def utf8 (cs : List Char) : List UInt8 := cs.flatMap String.utf8EncodeChar

/-- `i < bytes.len() && bytes[i] == b`. -/
def byteIs (bytes : List UInt8) (i : ℕ) (b : UInt8) : Option Bool :=
  if i < bytes.length then bytes[i]?.map (· == b) else some false

/-- `bytes[i] == a && i + 1 < bytes.len() && bytes[i + 1] == b`. -/
def pairAt (bytes : List UInt8) (i : ℕ) (a b : UInt8) : Option Bool := do
  if (← bytes[i]?) = a then byteIs bytes (i + 1) b else some false

/-- `while` over an index; no loop takes more turns than there are bytes. -/
def runLoop (bytes : List UInt8) (turn : ℕ → Option (ℕ ⊕ ℕ)) (i : ℕ) : Option ℕ :=
  loop turn (bytes.length + 1) i

/-- The loop behind an opening quote. -/
def quoteTurn (bytes : List UInt8) (backslashEscapes : Bool) (quote : UInt8) (i : ℕ) :
    Option (ℕ ⊕ ℕ) :=
  if i < bytes.length then do
    let b ← bytes[i]?
    if backslashEscapes ∧ b = '\\'.toUInt8 ∧ i + 1 < bytes.length then some (.inl (i + 2))
    else if b = quote then
      if ← byteIs bytes (i + 1) quote then some (.inl (i + 2)) else some (.inr (i + 1))
    else some (.inl (i + 1))
  else some (.inr i)

/-- The loop of a line comment. -/
def lineTurn (bytes : List UInt8) (i : ℕ) : Option (ℕ ⊕ ℕ) :=
  if i < bytes.length then do
    let b ← bytes[i]?
    if b ≠ '\n'.toUInt8 then some (.inl (i + 1)) else some (.inr i)
  else some (.inr i)

/-- The loop of a block comment, behind its opening. -/
def blockTurn (bytes : List UInt8) (i : ℕ) : Option (ℕ ⊕ ℕ) :=
  if i + 1 < bytes.length then do
    if ← pairAt bytes i '*'.toUInt8 '/'.toUInt8 then some (.inr i) else some (.inl (i + 1))
  else some (.inr i)

/-- Where a block comment that opens here ends. -/
def blockEnd (bytes : List UInt8) (i : ℕ) : Option ℕ :=
  (runLoop bytes (blockTurn bytes) (i + 2)).map fun j => min (j + 2) bytes.length

def isTagByte (b : UInt8) : Bool := isTagChar (Char.ofNat b.toNat)

def tagTurn (bytes : List UInt8) (j : ℕ) : Option (ℕ ⊕ ℕ) :=
  if j < bytes.length then do
    let b ← bytes[j]?
    if isTagByte b then some (.inl (j + 1)) else some (.inr j)
  else some (.inr j)

/-- `dollar_tag_len`. -/
def dollarTagLenAt (bytes : List UInt8) (i : ℕ) : Option (Option ℕ) := do
  let j ← runLoop bytes (tagTurn bytes) (i + 1)
  if ← byteIs bytes j '$'.toUInt8 then some (some (j - i + 1)) else some none

/-- `bytes[start..stop]`. -/
def byteSlice (bytes : List UInt8) (start stop : ℕ) : Option (List UInt8) :=
  if start ≤ stop ∧ stop ≤ bytes.length then some ((bytes.drop start).take (stop - start)) else none

/-- The search for the closing tag. -/
def closeTurn (bytes tag : List UInt8) (i : ℕ) : Option (ℕ ⊕ ℕ) :=
  if i < bytes.length then do
    let rest ← byteSlice bytes i bytes.length
    if tag.isPrefixOf rest then some (.inr (i + tag.length)) else some (.inl (i + 1))
  else some (.inr i)

/-- Where the dollar quote that opens here ends, or the next byte when it is none. -/
def dollarEnd (bytes : List UInt8) (i : ℕ) : Option ℕ := do
  match ← dollarTagLenAt bytes i with
  | some len =>
      let tag ← byteSlice bytes i (i + len)
      runLoop bytes (closeTurn bytes tag) (i + len)
  | none => some (i + 1)

/-- One turn of `strip_comments`, with the text kept so far. -/
def stripTurn (bytes : List UInt8) : ℕ × List Char → Option ((ℕ × List Char) ⊕ List Char)
  | (i, out) =>
      if i < bytes.length then do
        if ← pairAt bytes i '-'.toUInt8 '-'.toUInt8 then
          let i ← runLoop bytes (lineTurn bytes) i
          some (.inl (i, out))
        else if ← pairAt bytes i '/'.toUInt8 '*'.toUInt8 then
          let i ← blockEnd bytes i
          some (.inl (i, out))
        else
          let b ← bytes[i]?
          some (.inl (i + 1, out ++ [Char.ofNat b.toNat]))
      else some (.inr out)

/-- `strip_comments`. -/
def stripBytes (sql : List Char) : Option (List Char) :=
  loop (stripTurn (utf8 sql)) ((utf8 sql).length + 1) (0, [])

/-- `is_effective`. -/
def isEffectiveBytes (statement : List Char) : Option Bool :=
  (stripBytes statement).map fun kept => ¬ trim kept = []

/-- `push_statement`. -/
def pushBytes (out : List String) (raw : List Char) : Option (List String) := do
  let statement := trim raw
  if statement ≠ [] then
    if ← isEffectiveBytes statement then some (out ++ [String.ofList statement]) else some out
  else some out

/-- `split_at`: not inside a character, and not behind the end. -/
def splitAtByte : List Char → ℕ → Option (List Char × List Char)
  | cs, 0 => some ([], cs)
  | [], _ + 1 => none
  | c :: cs, n + 1 =>
      if c.utf8Size ≤ n + 1 then
        (splitAtByte cs (n + 1 - c.utf8Size)).map fun parts => (c :: parts.1, parts.2)
      else none

/-- `&sql[start..stop]`. -/
def slice (sql : List Char) (start stop : ℕ) : Option (List Char) :=
  if start ≤ stop then do
    let (_, rest) ← splitAtByte sql start
    let (part, _) ← splitAtByte rest (stop - start)
    some part
  else none

/-- `&sql[start..]`. -/
def sliceFrom (sql : List Char) (start : ℕ) : Option (List Char) :=
  (splitAtByte sql start).map Prod.snd

/-- The variables of `split_statements_impl`. -/
structure Scan where
  i : ℕ
  start : ℕ
  out : List String

def scanTurn (sql : List Char) (backslashEscapes : Bool) (s : Scan) :
    Option (Scan ⊕ List String) :=
  let bytes := utf8 sql
  if s.i < bytes.length then do
    let b ← bytes[s.i]?
    if b = '\''.toUInt8 ∨ b = '"'.toUInt8 then
      let i ← runLoop bytes (quoteTurn bytes backslashEscapes b) (s.i + 1)
      some (.inl { s with i })
    else if ← pairAt bytes s.i '-'.toUInt8 '-'.toUInt8 then
      let i ← runLoop bytes (lineTurn bytes) s.i
      some (.inl { s with i })
    else if ← pairAt bytes s.i '/'.toUInt8 '*'.toUInt8 then
      let i ← blockEnd bytes s.i
      some (.inl { s with i })
    else if b = '$'.toUInt8 then
      let i ← dollarEnd bytes s.i
      some (.inl { s with i })
    else if b = ';'.toUInt8 then
      let out ← pushBytes s.out (← slice sql s.start s.i)
      some (.inl { i := s.i + 1, start := s.i + 1, out })
    else some (.inl { s with i := s.i + 1 })
  else do
    let out ← pushBytes s.out (← sliceFrom sql s.start)
    some (.inr out)

/-- `split_statements`, over bytes. -/
def splitBytes (sql : String) (engine : Engine) : Option (List String) :=
  loop (scanTurn sql.toList (engine = .mysql)) ((utf8 sql.toList).length + 1) ⟨0, 0, []⟩

/-! ### Where the index stands -/

theorem utf8_cons (c : Char) (cs : List Char) :
    utf8 (c :: cs) = String.utf8EncodeChar c ++ utf8 cs := List.flatMap_cons

theorem utf8_append (a b : List Char) : utf8 (a ++ b) = utf8 a ++ utf8 b := List.flatMap_append

/-- How many bytes a text takes. -/
def size (cs : List Char) : ℕ := (utf8 cs).length

@[simp] theorem size_nil : size [] = 0 := rfl

theorem size_append (a b : List Char) : size (a ++ b) = size a + size b := by
  rw [size, utf8_append, List.length_append, size, size]

@[simp] theorem size_cons (c : Char) (cs : List Char) : size (c :: cs) = c.utf8Size + size cs := by
  rw [size, utf8_cons, List.length_append, String.length_utf8EncodeChar, size]

def IsAscii (c : Char) : Prop := c.toNat < 128

instance : DecidablePred IsAscii := fun c => inferInstanceAs (Decidable (c.toNat < 128))

theorem utf8EncodeChar_of_isAscii {c : Char} (hc : IsAscii c) :
    String.utf8EncodeChar c = [c.toUInt8] := by
  have hval : c.val.toNat ≤ 127 := Nat.le_of_lt_succ hc
  simp only [String.utf8EncodeChar, if_pos hval]
  rfl

theorem utf8Size_of_isAscii {c : Char} (hc : IsAscii c) : c.utf8Size = 1 := by
  rw [← String.length_utf8EncodeChar, utf8EncodeChar_of_isAscii hc, List.length_singleton]

/-- All bytes of other characters are high. -/
theorem high_of_not_isAscii {c : Char} (hc : ¬ IsAscii c) :
    ∀ b ∈ String.utf8EncodeChar c, 128 ≤ b.toNat := by
  have hval : ¬ c.val.toNat ≤ 127 := fun h => hc (Nat.lt_succ_of_le h)
  simp only [String.utf8EncodeChar, if_neg hval]
  intro b hb
  split_ifs at hb <;> simp only [List.mem_cons, List.not_mem_nil, or_false] at hb <;>
    rcases hb with rfl | rfl | rfl | rfl <;>
    simp only [UInt8.toNat_ofNat'] <;> omega

theorem toNat_toUInt8 {c : Char} (hc : IsAscii c) : c.toUInt8.toNat = c.toNat := by
  show (UInt8.ofNat c.toNat).toNat = c.toNat
  rw [UInt8.toNat_ofNat']
  exact Nat.mod_eq_of_lt (lt_trans hc (by decide))

theorem toUInt8_inj {a c : Char} (ha : IsAscii a) (hc : IsAscii c) :
    c.toUInt8 = a.toUInt8 ↔ c = a := by
  constructor
  · intro h
    have hnat := congrArg UInt8.toNat h
    rw [toNat_toUInt8 hc, toNat_toUInt8 ha] at hnat
    exact Char.toNat_inj.1 hnat
  · rintro rfl
    rfl

theorem ne_toUInt8_of_high {a : Char} {b : UInt8} (ha : IsAscii a) (hb : 128 ≤ b.toNat) :
    b ≠ a.toUInt8 := by
  rintro rfl
  rw [toNat_toUInt8 ha] at hb
  exact absurd ha (not_lt.2 hb)

/-- The index stands in front of some high bytes, which end a character, and of further
characters. -/
structure At (bytes : List UInt8) (i : ℕ) (hs : List UInt8) (cs : List Char) : Prop where
  drop_eq : bytes.drop i = hs ++ utf8 cs
  le : i ≤ bytes.length
  high : ∀ b ∈ hs, 128 ≤ b.toNat

variable {bytes : List UInt8} {i : ℕ} {hs : List UInt8} {cs : List Char}

theorem At.start (cs : List Char) : At (utf8 cs) 0 [] cs :=
  ⟨rfl, Nat.zero_le _, by simp⟩

theorem At.length_eq (h : At bytes i hs cs) : i + (hs.length + size cs) = bytes.length := by
  have hlength := congrArg List.length h.drop_eq
  rw [List.length_drop, List.length_append, ← size] at hlength
  have := h.le
  omega

theorem drop_succ_of_drop_eq {b : UInt8} {rest : List UInt8} (h : bytes.drop i = b :: rest) :
    i < bytes.length ∧ bytes[i]? = some b ∧ bytes.drop (i + 1) = rest := by
  have hlt : i < bytes.length := by
    by_contra hge
    rw [List.drop_eq_nil_of_le (by omega)] at h
    cases h
  refine ⟨hlt, ?_, ?_⟩
  · rw [← List.head?_drop, h, List.head?_cons]
  · rw [← List.tail_drop, h, List.tail_cons]

theorem At.high_step {b : UInt8} (h : At bytes i (b :: hs) cs) :
    i < bytes.length ∧ bytes[i]? = some b ∧ At bytes (i + 1) hs cs := by
  obtain ⟨hlt, hget, hdrop⟩ := drop_succ_of_drop_eq h.drop_eq
  exact ⟨hlt, hget, hdrop, hlt, fun b hb => h.high b (List.mem_cons_of_mem _ hb)⟩

theorem At.ascii_step {c : Char} (hc : IsAscii c) (h : At bytes i [] (c :: cs)) :
    i < bytes.length ∧ bytes[i]? = some c.toUInt8 ∧ At bytes (i + 1) [] cs := by
  have hdrop := h.drop_eq
  rw [List.nil_append, utf8_cons, utf8EncodeChar_of_isAscii hc] at hdrop
  obtain ⟨hlt, hget, hrest⟩ := drop_succ_of_drop_eq hdrop
  exact ⟨hlt, hget, hrest, hlt, by simp⟩

/-- In front of a character that is not ASCII the index stands in front of its bytes. -/
theorem At.wide {c : Char} (hc : ¬ IsAscii c) (h : At bytes i [] (c :: cs)) :
    At bytes i (String.utf8EncodeChar c) cs :=
  ⟨h.drop_eq, h.le, high_of_not_isAscii hc⟩

theorem exists_cons_utf8EncodeChar (c : Char) :
    ∃ b bs, String.utf8EncodeChar c = b :: bs ∧ bs.length + 1 = c.utf8Size := by
  have hlength := String.length_utf8EncodeChar c
  have hpos := c.utf8Size_pos
  cases henc : String.utf8EncodeChar c with
  | nil =>
    rw [henc, List.length_nil] at hlength
    omega
  | cons b bs =>
    rw [henc, List.length_cons] at hlength
    exact ⟨b, bs, rfl, hlength⟩

/-- The first byte of a character, of whatever kind, is read and skipped. -/
theorem At.skip {c : Char} (h : At bytes i [] (c :: cs)) :
    ∃ b bs, String.utf8EncodeChar c = b :: bs ∧ bs.length + 1 = c.utf8Size ∧
      i < bytes.length ∧ bytes[i]? = some b ∧ At bytes (i + 1) bs cs := by
  by_cases hc : IsAscii c
  · obtain ⟨hlt, hget, hrest⟩ := h.ascii_step hc
    exact ⟨_, [], utf8EncodeChar_of_isAscii hc, (utf8Size_of_isAscii hc).symm, hlt, hget, hrest⟩
  · obtain ⟨b, bs, henc, hlength⟩ := exists_cons_utf8EncodeChar c
    have hwide := h.wide hc
    rw [henc] at hwide
    obtain ⟨hlt, hget, hrest⟩ := hwide.high_step
    exact ⟨b, bs, henc, hlength, hlt, hget, hrest⟩

/-- All of the text up to some place. -/
theorem At.advance {n : ℕ} (h : At bytes i [] cs) :
    At bytes (i + size (cs.take n)) [] (cs.drop n) := by
  have hle : i + size (cs.take n) ≤ bytes.length := by
    have hlength := h.length_eq
    have hsize := size_append (cs.take n) (cs.drop n)
    rw [List.take_append_drop] at hsize
    rw [List.length_nil] at hlength
    omega
  refine ⟨?_, hle, by simp⟩
  have hsplit := utf8_append (cs.take n) (cs.drop n)
  rw [List.take_append_drop] at hsplit
  rw [← List.drop_drop, h.drop_eq, List.nil_append, hsplit, size, List.drop_left, List.nil_append]

/-! ### Loops that go over high bytes one by one -/

/-- A length that counts every character that is not ASCII. -/
def Walks (F : List Char → ℕ) : Prop := ∀ c cs, ¬ IsAscii c → F (c :: cs) = F cs + 1

/-- How many bytes lie in front of the end of such a length. -/
def reach (F : List Char → ℕ) (hs : List UInt8) (cs : List Char) : ℕ :=
  hs.length + size (cs.take (F cs))

/-- What a loop finds at the index. -/
theorem At.cases {F : List Char → ℕ} (hF : Walks F) (h : At bytes i hs cs) :
    (hs = [] ∧ cs = [] ∧ i = bytes.length) ∨
      (∃ b hs' cs', i < bytes.length ∧ bytes[i]? = some b ∧ 128 ≤ b.toNat ∧
        At bytes (i + 1) hs' cs' ∧ reach F hs cs = 1 + reach F hs' cs') ∨
      ∃ c cs', hs = [] ∧ cs = c :: cs' ∧ IsAscii c ∧ i < bytes.length ∧
        bytes[i]? = some c.toUInt8 ∧ At bytes (i + 1) [] cs' := by
  cases hs with
  | cons b hs =>
    obtain ⟨hlt, hget, hrest⟩ := h.high_step
    refine .inr (.inl ⟨b, hs, cs, hlt, hget, h.high b List.mem_cons_self, hrest, ?_⟩)
    rw [reach, reach, List.length_cons]
    omega
  | nil =>
    cases cs with
    | nil =>
      have hlength := h.length_eq
      simp only [List.length_nil, size_nil, Nat.add_zero] at hlength
      exact .inl ⟨rfl, rfl, hlength⟩
    | cons c cs =>
      by_cases hc : IsAscii c
      · obtain ⟨hlt, hget, hrest⟩ := h.ascii_step hc
        exact .inr (.inr ⟨c, cs, rfl, rfl, hc, hlt, hget, hrest⟩)
      · obtain ⟨b, bs, henc, hlength, hlt, hget, hrest⟩ := h.skip
        have hhigh := high_of_not_isAscii hc b (by rw [henc]; exact List.mem_cons_self)
        refine .inr (.inl ⟨b, bs, cs, hlt, hget, hhigh, hrest, ?_⟩)
        rw [reach, reach, hF c cs hc, List.take_succ_cons, size_cons, List.length_nil]
        omega

/-- What a turn of a loop does whose end is as far as the length says; `finish` is what is done
with its result. -/
def TurnReaches (bytes : List UInt8) (F : List Char → ℕ) (finish : ℕ → ℕ) (j : ℕ)
    (hs : List UInt8) (cs : List Char) : Option (ℕ ⊕ ℕ) → Prop :=
  TurnKeeps (fun k => ∃ hs' cs', At bytes k hs' cs' ∧ k + reach F hs' cs' = j + reach F hs cs)
    (bytes.length - ·) (finish · = j + reach F hs cs) j

/-- A loop that keeps its reach ends there. -/
theorem runLoop_total {F : List Char → ℕ} {turn : ℕ → Option (ℕ ⊕ ℕ)} {finish : ℕ → ℕ}
    (hturn : ∀ j hs cs, At bytes j hs cs → TurnReaches bytes F finish j hs cs (turn j))
    (h : At bytes i [] cs) :
    ∃ r, runLoop bytes turn i = some r ∧ finish r = i + size (cs.take (F cs)) := by
  refine loop_total (fun k => ∃ hs' cs', At bytes k hs' cs' ∧
    k + reach F hs' cs' = i + size (cs.take (F cs))) (bytes.length - ·) ?_ ?_ ?_
  · rintro j ⟨hs', cs', hat, hreach⟩
    have hkeeps := hturn j hs' cs' hat
    rw [TurnReaches, hreach] at hkeeps
    exact hkeeps
  · exact ⟨[], cs, h, by rw [reach, List.length_nil, Nat.zero_add]⟩
  · omega

theorem runLoop_eq {F : List Char → ℕ} {turn : ℕ → Option (ℕ ⊕ ℕ)}
    (hturn : ∀ j hs cs, At bytes j hs cs → TurnReaches bytes F id j hs cs (turn j))
    (h : At bytes i [] cs) : runLoop bytes turn i = some (i + size (cs.take (F cs))) := by
  obtain ⟨r, hrun, rfl⟩ := runLoop_total hturn h
  exact hrun

/-- Going over one byte. -/
theorem TurnReaches.next {F : List Char → ℕ} {finish : ℕ → ℕ} {k : ℕ} {hs' : List UInt8}
    {cs' : List Char} (hlt : i < bytes.length) (hk : i < k) (h : At bytes k hs' cs')
    (hreach : k + reach F hs' cs' = i + reach F hs cs) :
    TurnReaches bytes F finish i hs cs (some (.inl k)) :=
  ⟨⟨hs', cs', h, hreach⟩, by show bytes.length - k < bytes.length - i; omega⟩

theorem byteIs_of_get {b : UInt8} (hlt : i < bytes.length) (hget : bytes[i]? = some b)
    (a : UInt8) : byteIs bytes i a = some (b == a) := by
  rw [byteIs, if_pos hlt, hget, Option.map_some]

theorem At.byteIs_eq (h : At bytes i [] cs) {a : Char} (ha : IsAscii a) :
    byteIs bytes i a.toUInt8 = some (decide (cs.head? = some a)) := by
  rcases h.cases (F := List.length) (fun c cs _ => List.length_cons) with ⟨-, rfl, hi⟩ |
      ⟨b, hs', cs', hlt, hget, hb, -⟩ | ⟨c, cs', -, rfl, hc, hlt, hget, -⟩
  · rw [byteIs, if_neg (by omega)]
    rfl
  · have hne : cs.head? ≠ some a := by
      intro hhead
      obtain ⟨t, rfl⟩ := List.head?_eq_some_iff.1 hhead
      obtain ⟨-, hget', -⟩ := h.ascii_step ha
      rw [hget, Option.some.injEq] at hget'
      exact ne_toUInt8_of_high ha hb hget'
    rw [byteIs_of_get hlt hget, decide_eq_false hne]
    simpa using ne_toUInt8_of_high ha hb
  · rw [byteIs_of_get hlt hget, List.head?_cons]
    simp only [beq_eq_decide, toUInt8_inj ha hc, Option.some.injEq]

theorem walks_quoteLen (bs : Bool) {q : Char} (hq : IsAscii q) : Walks (quoteLen bs q) := by
  intro c cs hc
  have hne : ∀ a, IsAscii a → c ≠ a := by
    rintro a ha rfl
    exact hc ha
  cases cs with
  | nil => rfl
  | cons d cs =>
    rw [quoteLen, if_neg (by simp [hne '\\' (by decide)]), if_neg (hne q hq), Nat.add_comm]

theorem quoteTurn_eq {bs : Bool} {b q : UInt8} (hlt : i < bytes.length)
    (hget : bytes[i]? = some b) : quoteTurn bytes bs q i =
      if bs ∧ b = '\\'.toUInt8 ∧ i + 1 < bytes.length then some (.inl (i + 2))
      else if b = q then (byteIs bytes (i + 1) q).bind fun doubled =>
        if doubled then some (.inl (i + 2)) else some (.inr (i + 1))
      else some (.inl (i + 1)) := by
  rw [quoteTurn, if_pos hlt, hget]
  rfl

/-- The loop of a quote goes as far as `quoteLen`. -/
theorem quoteTurn_reaches (bs : Bool) {q : Char} (hq : IsAscii q) {j : ℕ}
    (h : At bytes j hs cs) :
    TurnReaches bytes (quoteLen bs q) id j hs cs (quoteTurn bytes bs q.toUInt8 j) := by
  rcases h.cases (walks_quoteLen bs hq) with ⟨rfl, rfl, hj⟩ |
      ⟨b, hs', cs', hlt, hget, hb, hrest, hreach⟩ | ⟨c, cs', rfl, rfl, hc, hlt, hget, hrest⟩
  · rw [quoteTurn, if_neg (by omega)]
    rfl
  · have hslash := ne_toUInt8_of_high (show IsAscii '\\' by decide) hb
    rw [quoteTurn_eq hlt hget, if_neg (by tauto), if_neg (ne_toUInt8_of_high hq hb)]
    exact .next hlt (by omega) hrest (by omega)
  · have hsize := utf8Size_of_isAscii hc
    have hlength := hrest.length_eq
    simp only [quoteTurn_eq hlt hget, toUInt8_inj (show IsAscii '\\' by decide) hc,
      toUInt8_inj hq hc]
    cases cs' with
    | nil =>
      simp only [List.length_nil, size_nil, Nat.add_zero] at hlength
      have hreach : reach (quoteLen bs q) [] [c] = 1 := by
        simp [reach, quoteLen, hsize]
      rw [if_neg (by omega)]
      split_ifs with hcq
      · rw [hrest.byteIs_eq hq]
        show j + 1 = j + reach (quoteLen bs q) [] [c]
        rw [hreach]
      · exact .next hlt (by omega) hrest (by rw [hreach]; rfl)
    | cons d cs' =>
      obtain ⟨-, bs', -, hbs', hlt', -, hrest'⟩ := hrest.skip
      have htwo : ∀ m, size ((c :: d :: cs').take (2 + m)) =
          1 + d.utf8Size + size (cs'.take m) := by
        intro m
        rw [Nat.add_comm 2, List.take_succ_cons, List.take_succ_cons, size_cons, size_cons, hsize]
        omega
      by_cases hslash : bs ∧ c = '\\'
      · rw [if_pos ⟨hslash.1, hslash.2, hlt'⟩]
        refine .next hlt (by omega) hrest' ?_
        rw [reach, reach, quoteLen, if_pos hslash, htwo, List.length_nil]
        omega
      · rw [if_neg (by tauto)]
        by_cases hcq : c = q
        · rw [if_pos hcq, hrest.byteIs_eq hq, List.head?_cons, Option.bind_some]
          by_cases hdq : d = q
          · rw [if_pos (by simpa using hdq)]
            refine .next hlt (by omega) hrest' ?_
            rw [reach, reach, quoteLen, if_neg hslash, if_pos hcq, if_pos hdq, htwo,
              List.length_nil]
            omega
          · rw [if_neg (by simpa using hdq)]
            show j + 1 = j + reach (quoteLen bs q) [] (c :: d :: cs')
            rw [reach, quoteLen, if_neg hslash, if_pos hcq, if_neg hdq, List.take_succ_cons,
              List.take_zero, size_cons, hsize]
            rfl
        · rw [if_neg hcq]
          refine .next hlt (by omega) hrest ?_
          rw [reach, reach, quoteLen, if_neg hslash, if_neg hcq, Nat.add_comm 1 (quoteLen _ _ _),
            List.take_succ_cons, size_cons, hsize, List.length_nil]
          omega

theorem walks_lineLen : Walks lineLen := by
  intro c cs hc
  rw [lineLen_cons (by rintro rfl; exact hc (by decide)), Nat.add_comm]

theorem lineTurn_reaches {j : ℕ} (h : At bytes j hs cs) :
    TurnReaches bytes lineLen id j hs cs (lineTurn bytes j) := by
  rcases h.cases walks_lineLen with ⟨rfl, rfl, hj⟩ |
      ⟨b, hs', cs', hlt, hget, hb, hrest, hreach⟩ | ⟨c, cs', rfl, rfl, hc, hlt, hget, hrest⟩
  · rw [lineTurn, if_neg (by omega)]
    rfl
  · rw [lineTurn, if_pos hlt, hget, Option.bind_eq_bind, Option.bind_some,
      if_pos (ne_toUInt8_of_high (by decide) hb)]
    exact .next hlt (by omega) hrest (by omega)
  · rw [lineTurn, if_pos hlt, hget, Option.bind_eq_bind, Option.bind_some]
    by_cases hn : c = '\n'
    · rw [hn, if_neg (by simp)]
      rfl
    · rw [if_pos ((toUInt8_inj (by decide) hc).not.2 hn)]
      refine .next hlt (by omega) hrest ?_
      rw [reach, reach, lineLen_cons hn, Nat.add_comm 1, List.take_succ_cons, size_cons,
        utf8Size_of_isAscii hc]
      omega

theorem pairAt_of_get {b : UInt8} (hget : bytes[i]? = some b) (x y : UInt8) :
    pairAt bytes i x y = if b = x then byteIs bytes (i + 1) y else some false := by
  rw [pairAt, hget]
  rfl

theorem pairAt_of_high {b : UInt8} (hget : bytes[i]? = some b) (hb : 128 ≤ b.toNat) {x : Char}
    (hx : IsAscii x) (y : UInt8) : pairAt bytes i x.toUInt8 y = some false := by
  rw [pairAt_of_get hget, if_neg (ne_toUInt8_of_high hx hb)]

theorem At.pairAt_eq {c : Char} (h : At bytes i [] (c :: cs)) {x y : Char} (hx : IsAscii x)
    (hy : IsAscii y) :
    pairAt bytes i x.toUInt8 y.toUInt8 = some (decide (c = x ∧ cs.head? = some y)) := by
  by_cases hc : IsAscii c
  · obtain ⟨-, hget, hrest⟩ := h.ascii_step hc
    simp only [pairAt_of_get hget, toUInt8_inj hx hc, hrest.byteIs_eq hy]
    split_ifs with hcx <;> simp [hcx]
  · obtain ⟨b, bs, henc, -, -, hget, -⟩ := h.skip
    have hhigh := high_of_not_isAscii hc b (by rw [henc]; exact List.mem_cons_self)
    have hne : c ≠ x := by
      rintro rfl
      exact hc hx
    rw [pairAt_of_high hget hhigh hx, decide_eq_false (by tauto)]

theorem walks_blockLen : Walks blockLen := by
  intro c cs hc
  cases cs with
  | nil => rfl
  | cons d cs =>
    rw [blockLen, if_neg (by rintro ⟨rfl, -⟩; exact hc (by decide)), Nat.add_comm]

theorem reach_le (F : List Char → ℕ) (hs : List UInt8) (cs : List Char) :
    reach F hs cs ≤ hs.length + size cs := by
  have hsize := size_append (cs.take (F cs)) (cs.drop (F cs))
  rw [List.take_append_drop] at hsize
  rw [reach]
  omega

/-- The loop of a block comment stops in front of what closes it, or of the last byte. -/
theorem blockTurn_reaches {j : ℕ} (h : At bytes j hs cs) :
    TurnReaches bytes blockLen (fun r => min (r + 2) bytes.length) j hs cs (blockTurn bytes j) := by
  have hlength := h.length_eq
  rcases h.cases walks_blockLen with ⟨rfl, rfl, hj⟩ |
      ⟨b, hs', cs', hlt, hget, hb, hrest, hreach⟩ | ⟨c, cs', rfl, rfl, hc, hlt, hget, hrest⟩
  · rw [blockTurn, if_neg (by omega)]
    show min (j + 2) bytes.length = j + 0
    omega
  · by_cases hlast : j + 1 < bytes.length
    · rw [blockTurn, if_pos hlast, pairAt_of_high hget hb (by decide)]
      exact .next hlt (by omega) hrest (by omega)
    · have hle := reach_le blockLen hs' cs'
      have hlength' := hrest.length_eq
      rw [blockTurn, if_neg hlast]
      show min (j + 2) bytes.length = j + reach blockLen hs cs
      omega
  · have hsize := utf8Size_of_isAscii hc
    have hlength' := hrest.length_eq
    cases cs' with
    | nil =>
      simp only [List.length_nil, size_nil, Nat.add_zero] at hlength'
      rw [blockTurn, if_neg (by omega)]
      show min (j + 2) bytes.length = j + (0 + size [c])
      rw [size_cons, hsize, size_nil]
      omega
    | cons d cs' =>
      obtain ⟨-, bs', -, hbs', hlt', -, hrest'⟩ := hrest.skip
      rw [blockTurn, if_pos hlt', h.pairAt_eq (by decide) (by decide), List.head?_cons]
      by_cases hclose : c = '*' ∧ d = '/'
      · have hd : d.utf8Size = 1 := by
          rw [hclose.2]
          rfl
        rw [size_cons, hd] at hlength'
        rw [Option.bind_eq_bind, Option.bind_some, if_pos (by simpa using hclose)]
        show min (j + 2) bytes.length = j + reach blockLen [] (c :: d :: cs')
        rw [reach, List.length_nil, blockLen, if_pos hclose, List.take_succ_cons,
          List.take_succ_cons, size_cons, size_cons, hsize, hd, List.take_zero, size_nil]
        omega
      · rw [Option.bind_eq_bind, Option.bind_some, if_neg (by simpa using hclose)]
        refine .next hlt (by omega) hrest ?_
        rw [reach, reach, blockLen, if_neg hclose, Nat.add_comm 1 (blockLen _),
          List.take_succ_cons, size_cons, hsize, List.length_nil]
        omega

theorem At.blockEnd_eq (h : At bytes (i + 2) [] cs) :
    blockEnd bytes i = some (i + 2 + size (cs.take (blockLen cs))) := by
  obtain ⟨r, hrun, hr⟩ := runLoop_total (fun j hs cs => blockTurn_reaches) h
  rw [blockEnd, hrun, Option.map_some, hr]

/-! ### Dollar quotes -/

theorem isAscii_of_isTagChar {c : Char} (hc : isTagChar c = true) : IsAscii c := by
  simp only [isTagChar, Char.isAlphanum, Bool.or_eq_true, decide_eq_true_eq, Lexing.isAlpha_iff,
    Lexing.isDigit_iff] at hc
  show c.toNat < 128
  rcases hc with hc | rfl
  · omega
  · decide

theorem size_of_isAscii {cs : List Char} (h : ∀ c ∈ cs, IsAscii c) : size cs = cs.length := by
  induction cs with
  | nil => rfl
  | cons c cs ih =>
    rw [size_cons, utf8Size_of_isAscii (h c List.mem_cons_self),
      ih fun c hc => h c (List.mem_cons_of_mem _ hc), List.length_cons, Nat.add_comm]

theorem isTagByte_toUInt8 {c : Char} (hc : IsAscii c) : isTagByte c.toUInt8 = isTagChar c := by
  rw [isTagByte, toNat_toUInt8 hc, Char.ofNat_toNat]

theorem isTagByte_of_high {b : UInt8} (hb : 128 ≤ b.toNat) : isTagByte b = false := by
  rw [Bool.eq_false_iff]
  intro h
  have hascii := isAscii_of_isTagChar h
  have hlt := b.toNat_lt
  have hvalid : b.toNat.isValidChar := .inl (by omega)
  rw [IsAscii, Char.toNat_ofNat, if_pos hvalid] at hascii
  omega

/-- The loop of a dollar tag. -/
theorem At.runLoop_tagTurn (h : At bytes i [] cs) :
    runLoop bytes (tagTurn bytes) i = some (i + (cs.takeWhile isTagChar).length) := by
  refine loop_eq (fun k => ∃ cs', At bytes k [] cs' ∧
    k + (cs'.takeWhile isTagChar).length = i + (cs.takeWhile isTagChar).length)
    (bytes.length - ·) ?_ ⟨cs, h, rfl⟩ (by omega)
  rintro j ⟨cs', hat, hj⟩
  rcases hat.cases (F := List.length) (fun c cs _ => List.length_cons) with ⟨-, rfl, hj'⟩ |
      ⟨b, -, -, hlt, hget, hb, -⟩ | ⟨c, cs', -, rfl, hc, hlt, hget, hrest⟩
  · rw [tagTurn, if_neg (by omega)]
    exact hj
  · have hnone : cs'.takeWhile isTagChar = [] := by
      cases cs' with
      | nil => rfl
      | cons c cs' =>
        refine List.takeWhile_cons_of_neg fun htag => ?_
        obtain ⟨-, hget', -⟩ := hat.ascii_step (isAscii_of_isTagChar htag)
        rw [hget, Option.some.injEq] at hget'
        exact ne_toUInt8_of_high (isAscii_of_isTagChar htag) hb hget'
    rw [tagTurn, if_pos hlt, hget, Option.bind_eq_bind, Option.bind_some, isTagByte_of_high hb]
    rw [hnone] at hj
    exact hj
  · rw [tagTurn, if_pos hlt, hget, Option.bind_eq_bind, Option.bind_some, isTagByte_toUInt8 hc]
    by_cases htag : isTagChar c = true
    · rw [if_pos htag]
      rw [List.takeWhile_cons_of_pos htag, List.length_cons] at hj
      refine ⟨⟨cs', hrest, by omega⟩, ?_⟩
      show bytes.length - (j + 1) < bytes.length - j
      omega
    · rw [if_neg htag]
      rw [List.takeWhile_cons_of_neg htag] at hj
      exact hj

theorem At.dollarTagLenAt_eq (h : At bytes i [] ('$' :: cs)) :
    dollarTagLenAt bytes i = some (dollarTagLen ('$' :: cs)) := by
  obtain ⟨-, -, hrest⟩ := h.ascii_step (by decide)
  have hprefix := List.prefix_iff_eq_take.1 (List.takeWhile_prefix isTagChar (l := cs))
  have hsize : size (cs.takeWhile isTagChar) = (cs.takeWhile isTagChar).length :=
    size_of_isAscii fun c hc => isAscii_of_isTagChar (List.mem_takeWhile_imp hc)
  have hat := hrest.advance (n := (cs.takeWhile isTagChar).length)
  rw [← hprefix, hsize] at hat
  rw [dollarTagLenAt, hrest.runLoop_tagTurn, Option.bind_eq_bind, Option.bind_some,
    hat.byteIs_eq (by decide), Option.bind_eq_bind, Option.bind_some, dollarTagLen]
  simp only [List.drop_succ_cons, List.drop_zero, Nat.add_comm 1, decide_eq_true_eq]
  split_ifs
  · congr 2
    omega
  · rfl

theorem utf8_cons_of_isAscii {c : Char} (hc : IsAscii c) (cs : List Char) :
    utf8 (c :: cs) = c.toUInt8 :: utf8 cs := by
  rw [utf8_cons, utf8EncodeChar_of_isAscii hc]
  rfl

/-- A text of ASCII characters is a prefix exactly when its bytes are. -/
theorem utf8_isPrefixOf {t : List Char} (ht : ∀ c ∈ t, IsAscii c) (cs : List Char) :
    (utf8 t).isPrefixOf (utf8 cs) = t.isPrefixOf cs := by
  induction t generalizing cs with
  | nil => simp [utf8]
  | cons a t ih =>
    have ha := ht a List.mem_cons_self
    rw [utf8_cons_of_isAscii ha]
    cases cs with
    | nil => rfl
    | cons c cs =>
      rw [List.isPrefixOf_cons_cons]
      by_cases hc : IsAscii c
      · rw [utf8_cons_of_isAscii hc, List.isPrefixOf_cons_cons,
          ih fun c hc => ht c (List.mem_cons_of_mem _ hc), beq_eq_decide, beq_eq_decide]
        simp only [toUInt8_inj hc ha]
      · obtain ⟨b, bs, henc, -⟩ := exists_cons_utf8EncodeChar c
        have hb := high_of_not_isAscii hc b (by rw [henc]; exact List.mem_cons_self)
        have hne : a ≠ c := by
          rintro rfl
          exact hc ha
        rw [utf8_cons, henc, List.cons_append, List.isPrefixOf_cons_cons,
          beq_eq_false_iff_ne.2 (ne_toUInt8_of_high ha hb).symm, beq_eq_false_iff_ne.2 hne,
          Bool.false_and, Bool.false_and]

theorem byteSlice_drop {j : ℕ} (h : j ≤ bytes.length) :
    byteSlice bytes j bytes.length = some (bytes.drop j) := by
  rw [byteSlice, if_pos ⟨h, le_rfl⟩, ← List.length_drop, List.take_length]

theorem walks_tagLen {t : List Char} (ht : ∀ c ∈ t, IsAscii c) (hne : t ≠ []) :
    Walks (tagLen t) := by
  intro c cs hc
  have hprefix : ¬ t.isPrefixOf (c :: cs) := by
    obtain ⟨a, t, rfl⟩ := List.exists_cons_of_ne_nil hne
    rw [List.isPrefixOf_cons_cons, Bool.and_eq_true, beq_iff_eq]
    rintro ⟨rfl, -⟩
    exact hc (ht a List.mem_cons_self)
  rw [tagLen, if_neg hprefix, Nat.add_comm]

/-- The search for the closing tag ends behind it. -/
theorem closeTurn_reaches {t : List Char} (ht : ∀ c ∈ t, IsAscii c) (hne : t ≠ []) {j : ℕ}
    (h : At bytes j hs cs) :
    TurnReaches bytes (tagLen t) id j hs cs (closeTurn bytes (utf8 t) j) := by
  have hslice := byteSlice_drop h.le
  rcases h.cases (walks_tagLen ht hne) with ⟨rfl, rfl, hj⟩ |
      ⟨b, hs', cs', hlt, hget, hb, hrest, hreach⟩ | ⟨c, cs', rfl, rfl, hc, hlt, hget, hrest⟩
  · rw [closeTurn, if_neg (by omega)]
    rfl
  · have hprefix : ¬ (utf8 t).isPrefixOf (bytes.drop j) := by
      obtain ⟨a, t, rfl⟩ := List.exists_cons_of_ne_nil hne
      have ha := ht a List.mem_cons_self
      have hhead : (bytes.drop j).head? = some b := by rw [List.head?_drop, hget]
      obtain ⟨rest, hrest'⟩ := List.head?_eq_some_iff.1 hhead
      rw [utf8_cons_of_isAscii ha, hrest', List.isPrefixOf_cons_cons, Bool.and_eq_true,
        beq_iff_eq]
      rintro ⟨rfl, -⟩
      exact ne_toUInt8_of_high ha hb rfl
    rw [closeTurn, if_pos hlt, hslice, Option.bind_eq_bind, Option.bind_some, if_neg hprefix]
    exact .next hlt (by omega) hrest (by omega)
  · have hdrop : bytes.drop j = utf8 (c :: cs') := h.drop_eq
    rw [closeTurn, if_pos hlt, hslice, Option.bind_eq_bind, Option.bind_some, hdrop,
      utf8_isPrefixOf ht]
    by_cases hprefix : t.isPrefixOf (c :: cs')
    · rw [if_pos hprefix]
      show j + size t = j + reach (tagLen t) [] (c :: cs')
      rw [reach, tagLen, if_pos hprefix, List.length_nil, Nat.zero_add,
        ← List.prefix_iff_eq_take.1 (List.isPrefixOf_iff_prefix.1 hprefix)]
    · rw [if_neg hprefix]
      refine .next hlt (by omega) hrest ?_
      rw [reach, reach, tagLen, if_neg hprefix, Nat.add_comm 1 (tagLen _ _), List.take_succ_cons,
        size_cons, utf8Size_of_isAscii hc, List.length_nil]
      omega

/-- An opening tag is made of ASCII characters. -/
theorem isAscii_of_dollarTagLen {n : ℕ} (h : dollarTagLen ('$' :: cs) = some n) :
    ∀ c ∈ ('$' :: cs).take n, IsAscii c := by
  simp only [dollarTagLen, Option.ite_none_right_eq_some, Option.some.injEq, List.drop_succ_cons,
    List.drop_zero, Nat.add_comm 1] at h
  obtain ⟨hclose, rfl⟩ := h
  obtain ⟨rest, hrest⟩ := List.head?_eq_some_iff.1 hclose
  have hsplit := List.takeWhile_append_dropWhile (p := isTagChar) (l := cs)
  intro c hc
  rw [List.take_succ_cons] at hc
  rcases List.mem_cons.1 hc with rfl | hc
  · decide
  · rw [List.take_add, List.mem_append, hrest, List.take_succ_cons, List.take_zero,
      ← List.prefix_iff_eq_take.1 (List.takeWhile_prefix _)] at hc
    rcases hc with hc | hc
    · exact isAscii_of_isTagChar (List.mem_takeWhile_imp hc)
    · rw [List.mem_singleton.1 hc]
      decide

theorem At.dollarEnd_eq (h : At bytes i [] ('$' :: cs)) :
    dollarEnd bytes i = some (i + match dollarTagLen ('$' :: cs) with
      | some n => size (('$' :: cs).take (n + tagLen (('$' :: cs).take n) (('$' :: cs).drop n)))
      | none => 1) := by
  rw [dollarEnd, h.dollarTagLenAt_eq, Option.bind_eq_bind, Option.bind_some]
  cases htag : dollarTagLen ('$' :: cs) with
  | none => rfl
  | some n =>
    have hascii := isAscii_of_dollarTagLen htag
    have htwo := two_le_of_dollarTagLen htag
    have hlength : (('$' :: cs).take n).length = n :=
      List.length_take_of_le (dollarTagLen_le htag)
    have hsize : size (('$' :: cs).take n) = n := by rw [size_of_isAscii hascii, hlength]
    have hat := h.advance (n := n)
    rw [hsize] at hat
    have hslice : byteSlice bytes i (i + n) = some (utf8 (('$' :: cs).take n)) := by
      rw [byteSlice, if_pos ⟨by omega, hat.le⟩, h.drop_eq, List.nil_append, Nat.add_sub_cancel_left]
      nth_rewrite 1 [← List.take_append_drop n ('$' :: cs)]
      rw [utf8_append, List.take_left' hsize]
    have hclose := runLoop_eq (fun j hs cs =>
      closeTurn_reaches hascii (List.ne_nil_of_length_pos (by omega))) hat
    dsimp only
    rw [hslice, Option.bind_eq_bind, Option.bind_some, hclose, List.take_add, size_append, hsize,
      Nat.add_assoc]

/-! ### `strip_comments` -/

theorem stripComments_line (cs : List Char) : stripComments ('-' :: '-' :: cs) =
    stripComments (('-' :: '-' :: cs).drop (lineLen ('-' :: '-' :: cs))) := by
  rw [stripComments, Lexer.positions_cons, List.flatMap_cons]
  rfl

theorem stripComments_block (cs : List Char) :
    stripComments ('/' :: '*' :: cs) = stripComments (cs.drop (blockLen cs)) := by
  have hlen : stripper.len ('/' :: '*' :: cs) = blockLen cs + 1 + 1 := Nat.add_comm 2 _
  rw [stripComments, Lexer.positions_cons, List.flatMap_cons, hlen]
  rfl

theorem commentStart_iff {c : Char} :
    CommentStart (c :: cs) ↔ (c = '-' ∧ cs.head? = some '-') ∨ (c = '/' ∧ cs.head? = some '*') := by
  cases cs <;> simp [CommentStart, eq_comm]

theorem size_take_pos {c : Char} {n : ℕ} (hn : 0 < n) : 0 < size ((c :: cs).take n) := by
  obtain ⟨n, rfl⟩ : ∃ m, n = m + 1 := ⟨n - 1, by omega⟩
  rw [List.take_succ_cons, size_cons]
  exact Nat.add_pos_left c.utf8Size_pos _

/-- What is kept so far, and what will be kept. -/
def StripInv (sql : List Char) (s : ℕ × List Char) : Prop :=
  ∃ hs cs, At (utf8 sql) s.1 hs cs ∧
    s.2 ++ (hs.map fun b => Char.ofNat b.toNat) ++ stripComments cs = stripComments sql

theorem stripTurn_keeps {sql : List Char} {s : ℕ × List Char} (h : StripInv sql s) :
    TurnKeeps (StripInv sql) ((utf8 sql).length - ·.1) (· = stripComments sql) s
      (stripTurn (utf8 sql) s) := by
  obtain ⟨j, out⟩ := s
  obtain ⟨hs, cs, hat, hout⟩ := h
  dsimp only at hat hout
  have hlength := hat.length_eq
  cases hs with
  | cons b hs =>
    obtain ⟨hlt, hget, hrest⟩ := hat.high_step
    have hb := hat.high b List.mem_cons_self
    rw [stripTurn, if_pos hlt, pairAt_of_high hget hb (by decide),
      pairAt_of_high hget hb (by decide), hget]
    refine ⟨⟨hs, cs, hrest, ?_⟩, by dsimp only; omega⟩
    rw [← hout, List.map_cons, List.append_assoc out, List.singleton_append]
  | nil =>
    rw [List.map_nil, List.append_nil] at hout
    cases cs with
    | nil =>
      rw [stripTurn, if_neg (by simp at hlength; omega)]
      rw [← hout]
      exact (List.append_nil _).symm
    | cons c cs =>
      obtain ⟨b, bs, henc, hbs, hlt, hget, hrest⟩ := hat.skip
      rw [stripTurn, if_pos hlt, hat.pairAt_eq (by decide) (by decide),
        hat.pairAt_eq (by decide) (by decide)]
      simp only [Option.bind_eq_bind, Option.bind_some, decide_eq_true_eq]
      by_cases hline : c = '-' ∧ cs.head? = some '-'
      · obtain ⟨rfl, hhead⟩ := hline
        obtain ⟨cs, rfl⟩ := List.head?_eq_some_iff.1 hhead
        have hpos : 0 < size (('-' :: '-' :: cs).take (lineLen ('-' :: '-' :: cs))) :=
          size_take_pos (lineLen_pos (by decide) _)
        rw [if_pos ⟨rfl, rfl⟩, runLoop_eq (fun j hs cs => lineTurn_reaches) hat, Option.bind_some]
        refine ⟨⟨[], _, hat.advance, ?_⟩, by dsimp only; omega⟩
        rw [List.map_nil, List.append_nil, ← stripComments_line, hout]
      rw [if_neg hline]
      by_cases hblock : c = '/' ∧ cs.head? = some '*'
      · obtain ⟨rfl, hhead⟩ := hblock
        obtain ⟨cs, rfl⟩ := List.head?_eq_some_iff.1 hhead
        have htwo : At (utf8 sql) (j + 2) [] cs := hat.advance (n := 2)
        rw [if_pos ⟨rfl, rfl⟩, htwo.blockEnd_eq, Option.bind_some]
        refine ⟨⟨[], _, htwo.advance, ?_⟩, by dsimp only; omega⟩
        rw [List.map_nil, List.append_nil, ← stripComments_block, hout]
      · rw [if_neg hblock, hget, Option.bind_some]
        refine ⟨⟨bs, cs, hrest, ?_⟩, by dsimp only; omega⟩
        have hstart : ¬ CommentStart (c :: cs) := by
          rw [commentStart_iff]
          tauto
        rw [← hout, stripComments_cons hstart, latin1, henc, List.map_cons, List.append_assoc out,
          List.singleton_append, List.append_assoc]

theorem stripBytes_eq (sql : List Char) : stripBytes sql = some (stripComments sql) :=
  loop_eq (StripInv sql) ((utf8 sql).length - ·.1) (fun _ => stripTurn_keeps)
    ⟨[], sql, .start sql, rfl⟩ (by dsimp only; omega)

theorem pushBytes_eq (out : List String) (raw : List Char) :
    pushBytes out raw = some (out ++ (pushStatement raw).toList) := by
  simp only [pushBytes, pushStatement, isEffectiveBytes, stripBytes_eq, isEffective,
    Option.map_some, Option.bind_eq_bind, Option.bind_some]
  by_cases hne : trim raw = []
  · simp [hne]
  · by_cases hkept : trim (stripComments (trim raw)) = [] <;> simp [hne, hkept]

/-! ### The scan -/

theorem splitAtByte_append (a b : List Char) : splitAtByte (a ++ b) (size a) = some (a, b) := by
  induction a with
  | nil => simp [splitAtByte]
  | cons c a ih =>
    have hpos := c.utf8Size_pos
    obtain ⟨n, hn⟩ : ∃ n, size (c :: a) = n + 1 := ⟨size (c :: a) - 1, by rw [size_cons]; omega⟩
    have hsize := hn
    rw [size_cons] at hsize
    rw [hn, List.cons_append, splitAtByte, if_pos (by omega), ← hsize, Nat.add_sub_cancel_left, ih]
    rfl

theorem slice_append (a b c : List Char) :
    slice (a ++ b ++ c) (size a) (size (a ++ b)) = some b := by
  have hsize : size (a ++ b) - size a = size b := by
    rw [size_append]
    omega
  rw [slice, if_pos (by rw [size_append]; omega), List.append_assoc, splitAtByte_append, hsize]
  show (splitAtByte (b ++ c) (size b)).bind _ = _
  rw [splitAtByte_append]
  rfl

theorem sliceFrom_append (a b : List Char) : sliceFrom (a ++ b) (size a) = some b := by
  rw [sliceFrom, splitAtByte_append]
  rfl

/-- The text in front of the current statement, what the scan has gone over of the statement, and
what it will go over. -/
def ScanInv (sql : List Char) (bs : Bool) (s : Scan) : Prop :=
  ∃ done seg hs cs, sql = done ++ seg ++ cs ∧ s.start = size done ∧ At (utf8 sql) s.i hs cs ∧
    s.i + hs.length = size (done ++ seg) ∧
    s.out ++ (((scanner bs).texts ';' cs).modifyHead (seg ++ ·)).filterMap pushStatement =
      ((scanner bs).texts ';' sql).filterMap pushStatement

/-- One turn over an ASCII character moves the index as far as the scanner does. -/
theorem scanTurn_ascii {sql : List Char} (bs : Bool) {s : Scan} {c : Char} (hc : IsAscii c)
    (hsemi : c ≠ ';') (h : At (utf8 sql) s.i [] (c :: cs)) :
    scanTurn sql bs s =
      some (.inl { s with i := s.i + size ((c :: cs).take (advance bs (c :: cs))) }) := by
  obtain ⟨hlt, hget, hrest⟩ := h.ascii_step hc
  have hone : size ((c :: cs).take 1) = 1 := by
    rw [List.take_succ_cons, List.take_zero, size_cons, utf8Size_of_isAscii hc, size_nil]
  simp only [scanTurn, if_pos hlt, hget, Option.bind_eq_bind, Option.bind_some,
    h.pairAt_eq (x := '-') (y := '-') (by decide) (by decide),
    h.pairAt_eq (x := '/') (y := '*') (by decide) (by decide),
    toUInt8_inj (show IsAscii '\'' by decide) hc, toUInt8_inj (show IsAscii '"' by decide) hc,
    toUInt8_inj (show IsAscii '$' by decide) hc, toUInt8_inj (show IsAscii ';' by decide) hc,
    decide_eq_true_eq]
  rw [advance]
  by_cases hquote : c = '\'' ∨ c = '"'
  · have hloop := runLoop_eq (fun j hs cs => quoteTurn_reaches bs hc) hrest
    rw [if_pos hquote, if_pos hquote, hloop, Option.bind_some, Nat.add_comm 1 (quoteLen _ _ _),
      List.take_succ_cons, size_cons, utf8Size_of_isAscii hc, Nat.add_assoc]
  rw [if_neg hquote, if_neg hquote]
  by_cases hline : c = '-' ∧ cs.head? = some '-'
  · rw [if_pos hline, if_pos hline, runLoop_eq (fun j hs cs => lineTurn_reaches) h,
      Option.bind_some]
  rw [if_neg hline, if_neg hline]
  by_cases hblock : c = '/' ∧ cs.head? = some '*'
  · rw [if_pos hblock, if_pos hblock]
    obtain ⟨rfl, hhead⟩ := hblock
    obtain ⟨cs, rfl⟩ := List.head?_eq_some_iff.1 hhead
    have htwo : At (utf8 sql) (s.i + 2) [] cs := h.advance (n := 2)
    have hsize : ∀ n, size (('/' :: '*' :: cs).take (2 + n)) = 2 + size (cs.take n) := by
      intro n
      rw [List.take_add, size_append]
      rfl
    rw [htwo.blockEnd_eq, Option.bind_some, hsize, List.drop_succ_cons, List.drop_zero,
      Nat.add_assoc]
  rw [if_neg hblock, if_neg hblock]
  by_cases hdollar : c = '$'
  · subst hdollar
    rw [if_pos rfl, if_pos rfl, h.dollarEnd_eq, Option.bind_some]
    cases dollarTagLen ('$' :: cs) with
    | none => rw [hone]
    | some n => rfl
  · rw [if_neg hdollar, if_neg hdollar, if_neg hsemi, hone]

theorem scanTurn_high {sql : List Char} {bs : Bool} {s : Scan} {b : UInt8}
    (hlt : s.i < (utf8 sql).length) (hget : (utf8 sql)[s.i]? = some b) (hb : 128 ≤ b.toNat) :
    scanTurn sql bs s = some (.inl { s with i := s.i + 1 }) := by
  simp only [scanTurn, if_pos hlt, hget, Option.bind_eq_bind, Option.bind_some,
    pairAt_of_high hget hb (show IsAscii '-' by decide),
    pairAt_of_high hget hb (show IsAscii '/' by decide),
    ne_toUInt8_of_high (show IsAscii '\'' by decide) hb,
    ne_toUInt8_of_high (show IsAscii '"' by decide) hb,
    ne_toUInt8_of_high (show IsAscii '$' by decide) hb,
    ne_toUInt8_of_high (show IsAscii ';' by decide) hb, or_self, if_false, Bool.false_eq_true]

theorem scanTurn_keeps {sql : List Char} {bs : Bool} {s : Scan} (h : ScanInv sql bs s) :
    TurnKeeps (ScanInv sql bs) ((utf8 sql).length - ·.i)
      (· = ((scanner bs).texts ';' sql).filterMap pushStatement) s (scanTurn sql bs s) := by
  obtain ⟨done, seg, hs, cs, hsql, hstart, hat, hi, hout⟩ := h
  have hlength := hat.length_eq
  cases hs with
  | cons b hs =>
    obtain ⟨hlt, hget, hrest⟩ := hat.high_step
    rw [scanTurn_high hlt hget (hat.high b List.mem_cons_self)]
    rw [List.length_cons] at hi
    exact ⟨⟨done, seg, hs, cs, hsql, hstart, hrest, by dsimp only; omega, hout⟩,
      by dsimp only; omega⟩
  | nil =>
    rw [List.length_nil, Nat.add_zero] at hi
    cases cs with
    | nil =>
      rw [List.append_nil] at hsql
      have hslice : sliceFrom sql s.start = some seg := by
        rw [hsql, hstart, sliceFrom_append]
      simp only [List.length_nil, size_nil, Nat.add_zero] at hlength
      rw [scanTurn, if_neg (by omega), hslice, Option.bind_eq_bind, Option.bind_some, pushBytes_eq]
      rw [← hout]
      show s.out ++ (pushStatement seg).toList = s.out ++ [seg ++ []].filterMap pushStatement
      rw [List.append_nil]
      cases hpush : pushStatement seg <;> simp [hpush]
    | cons c cs =>
      by_cases hsemi : c = ';'
      · subst hsemi
        obtain ⟨hlt, hget, hrest⟩ := hat.ascii_step (by decide)
        have hslice : slice sql s.start s.i = some seg := by
          rw [hsql, hstart, hi, slice_append]
        have hturn : scanTurn sql bs s =
            some (.inl ⟨s.i + 1, s.i + 1, s.out ++ (pushStatement seg).toList⟩) := by
          simp only [scanTurn, if_pos hlt, hget, Option.bind_eq_bind, Option.bind_some,
            hat.pairAt_eq (x := '-') (y := '-') (by decide) (by decide),
            hat.pairAt_eq (x := '/') (y := '*') (by decide) (by decide), hslice, pushBytes_eq]
          rfl
        rw [hturn]
        refine ⟨⟨done ++ seg ++ [';'], [], [], cs, ?_, ?_, hrest, ?_, ?_⟩, by dsimp only; omega⟩
        · rw [hsql]
          simp
        · rw [size_append, ← hi]
          rfl
        · rw [List.append_nil, size_append, ← hi]
          rfl
        · have hhead : ((scanner bs).texts ';' cs).modifyHead ([] ++ ·) =
              (scanner bs).texts ';' cs := by
            cases (scanner bs).texts ';' cs <;> rfl
          rw [← hout, hhead, Lexer.texts_cons_sep (len_scanner_semicolon bs cs),
            List.modifyHead_cons, List.append_nil, List.append_assoc]
          cases hpush : pushStatement seg <;> simp [hpush]
      · have htext := Lexer.texts_cons (L := scanner bs) (l := cs) hsemi
        by_cases hc : IsAscii c
        · have hturn := scanTurn_ascii bs hc hsemi hat
          have hpos : 0 < size ((c :: cs).take ((scanner bs).len (c :: cs))) :=
            size_take_pos ((scanner bs).len_pos c cs)
          have hlt := (hat.ascii_step hc).1
          rw [show advance bs (c :: cs) = (scanner bs).len (c :: cs) from rfl] at hturn
          rw [hturn]
          generalize (scanner bs).len (c :: cs) = n at *
          refine ⟨⟨done, seg ++ (c :: cs).take n, [], _, ?_, hstart, hat.advance, ?_, ?_⟩, ?_⟩
          · rw [hsql]
            simp only [List.append_assoc, List.take_append_drop]
          · rw [← List.append_assoc, size_append, ← hi]
            rfl
          · rw [← hout, htext, List.modifyHead_modifyHead]
            simp only [Function.comp_def, List.append_assoc]
          · dsimp only
            omega
        · obtain ⟨b, hs, henc, hbs, hlt, hget, hrest⟩ := hat.skip
          have hhigh := high_of_not_isAscii hc b (by rw [henc]; exact List.mem_cons_self)
          have hlen : (scanner bs).len (c :: cs) = 1 := by
            have hne : ∀ a, IsAscii a → c ≠ a := by
              rintro a ha rfl
              exact hc ha
            refine advance_of_not_opens ?_
            simp only [Opens, hne '\'' (by decide), hne '"' (by decide), hne ';' (by decide),
              hne '-' (by decide), hne '/' (by decide), hne '$' (by decide), false_and, or_self,
              not_false_eq_true]
          rw [hlen, List.take_succ_cons, List.take_zero, List.drop_succ_cons, List.drop_zero]
            at htext
          rw [scanTurn_high hlt hget hhigh]
          refine ⟨⟨done, seg ++ [c], hs, cs, ?_, hstart, hrest, ?_, ?_⟩, by dsimp only; omega⟩
          · rw [hsql]
            simp
          · rw [← List.append_assoc, size_append, size_cons, size_nil, ← hi]
            dsimp only
            omega
          · rw [← hout, htext, List.modifyHead_modifyHead]
            simp only [Function.comp_def, List.append_assoc]

/-- **The scan over bytes succeeds**: it reads no index out of bounds, cuts no character in two and
comes to an end, with the statements of `splitStatements`. -/
theorem splitBytes_eq (sql : String) (engine : Engine) :
    splitBytes sql engine = some (splitStatements sql engine) := by
  refine loop_eq (ScanInv sql.toList _) ((utf8 sql.toList).length - ·.i) (fun _ => scanTurn_keeps)
    ⟨[], [], [], sql.toList, rfl, rfl, .start _, rfl, ?_⟩ (by dsimp only; omega)
  show (((scanner _).texts ';' sql.toList).modifyHead ([] ++ ·)).filterMap pushStatement = _
  cases (scanner (engine = .mysql)).texts ';' sql.toList <;> rfl

end SqlScript
end AgentDb
