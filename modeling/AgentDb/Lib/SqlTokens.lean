import AgentDb.Lib.Lexing
import Mathlib.Data.List.ReduceOption
import Mathlib.Data.List.TakeWhile

/-!
# The tokens of SQL statements

A dialect says how an identifier is quoted, whether a backslash escapes in a string, and what a
quoted identifier denotes. The lexer reads the forms that generated statements consist of, and
gives up on every other form; what it reads, every SQL lexer reads so. Tokens that are written
down one after the other, with what has to stand between them, are read back:
`tokens_text`.
-/

namespace SqlTokens

open Lexing

inductive Token
  | word (w : String)
  | symbol (c : Char)
  | number (n : String)
  | string (v : String)
  | ident (name : String)
  deriving DecidableEq, Repr

structure Dialect where
  identQuote : Char
  backslashEscapes : Bool
  /-- What a quoted identifier denotes; a name may be cut or refused. -/
  denotes : List Char → Option (List Char)
  quote_eq : identQuote = '"' ∨ identQuote = '\x60'

/-! ### Reading -/

/-- What a backslash and a character stand for. -/
def unescape (c : Char) : List Char :=
  match c with
  | '0' => ['\x00']
  | 'b' => ['\x08']
  | 'n' => ['\n']
  | 'r' => ['\x0d']
  | 't' => ['\t']
  | 'Z' => ['\x1a']
  | '%' => ['\\', '%']
  | '_' => ['\\', '_']
  | c => [c]

/-- A quoted text from behind its opening quote: what it denotes, and how far it reaches. -/
def quoted (backslashEscapes : Bool) (quote : Char) : List Char → Option (List Char × ℕ)
  | [] => none
  | [c] => if c = quote then some ([], 1) else none
  | c :: d :: cs =>
      if c = '\x00' then none
      else if backslashEscapes ∧ c = '\\' then
        (quoted backslashEscapes quote cs).map fun r => (unescape d ++ r.1, 2 + r.2)
      else if c = quote then
        if d = quote then (quoted backslashEscapes quote cs).map fun r => (quote :: r.1, 2 + r.2)
        else some ([], 1)
      else (quoted backslashEscapes quote (d :: cs)).map fun r => (c :: r.1, 1 + r.2)

def isWordStart (c : Char) : Bool := c.isAlpha || c = '_'

def isWordChar (c : Char) : Bool := c.isAlphanum || c = '_'

/-- How many digits there are at the head. -/
def digits (cs : List Char) : ℕ := (cs.takeWhile Char.isDigit).length

/-- A point with digits behind it, or nothing. -/
def fractionLen : List Char → Option ℕ
  | '.' :: cs => if digits cs = 0 then none else some (1 + digits cs)
  | _ => some 0

def signLen (cs : List Char) : ℕ := if cs.head? = some '+' ∨ cs.head? = some '-' then 1 else 0

/-- An exponent, or nothing. -/
def exponentLen : List Char → Option ℕ
  | [] => some 0
  | c :: cs =>
      if c = 'e' ∨ c = 'E' then
        if digits (cs.drop (signLen cs)) = 0 then none
        else some (1 + signLen cs + digits (cs.drop (signLen cs)))
      else some 0

/-- A number without a sign: the sign is an operator. -/
def numberLen (cs : List Char) : Option ℕ := do
  let whole := digits cs
  if whole = 0 then none
  else
    let fraction ← fractionLen (cs.drop whole)
    let exponent ← exponentLen (cs.drop (whole + fraction))
    return whole + fraction + exponent

/-- What may follow a word or a number: nothing that could go on with it. -/
def delimits : Option Char → Bool
  | none => true
  | some c => c ∈ [' ', ',', '(', ')', ';']

/-- The characters that operators of more than one character are made of. -/
def operators : List Char :=
  ['+', '-', '*', '/', '<', '>', '=', '~', '!', '@', '#', '%', '^', '&', '|', '?']

/-- A symbol of one character, by what follows it. -/
def isSymbol (c : Char) (next : Option Char) : Bool :=
  if c ∈ ['*', '=', '-'] then next.all (· ∉ operators)
  else if c = '.' then next.all fun d => !d.isDigit
  else c ∈ ['(', ')', ',', ';']

/-- One token or one space, and how far it reaches. -/
def read (d : Dialect) : List Char → Option (Option Token × ℕ)
  | [] => none
  | c :: cs =>
      if c = ' ' then some (none, 1)
      else if c = '\'' then
        (quoted d.backslashEscapes '\'' cs).map fun r => (some (.string (.ofList r.1)), 1 + r.2)
      else if c = d.identQuote then do
        let (name, n) ← quoted false d.identQuote cs
        let name ← d.denotes name
        return (some (.ident (.ofList name)), 1 + n)
      else if isWordStart c then
        let w := c :: cs.takeWhile isWordChar
        if delimits ((c :: cs).drop w.length).head? then some (some (.word (.ofList w)), w.length)
        else none
      else if c.isDigit then do
        let n ← numberLen (c :: cs)
        if delimits ((c :: cs).drop n).head? then
          return (some (.number (.ofList ((c :: cs).take n))), n)
        else none
      else if isSymbol c cs.head? then some (some (.symbol c), 1)
      else none

theorem numberLen_pos {cs : List Char} {n : ℕ} (h : numberLen cs = some n) : 0 < n := by
  unfold numberLen at h
  dsimp only at h
  split at h
  · cases h
  · simp only [Option.bind_eq_bind, Option.bind_eq_some_iff, Option.pure_def,
      Option.some.injEq] at h
    obtain ⟨_, _, _, _, rfl⟩ := h
    omega

theorem read_pos {d : Dialect} {cs : List Char} {r : Option Token × ℕ} (h : read d cs = some r) :
    0 < r.2 := by
  unfold read at h
  split at h
  · cases h
  split at h
  · cases h
    exact Nat.one_pos
  split at h
  · obtain ⟨_, _, rfl⟩ := Option.map_eq_some_iff.1 h
    exact Nat.add_pos_left Nat.one_pos _
  split at h
  · simp only [Option.bind_eq_bind, Option.bind_eq_some_iff, Option.pure_def,
      Option.some.injEq] at h
    obtain ⟨_, _, _, _, rfl⟩ := h
    exact Nat.add_pos_left Nat.one_pos _
  split at h
  · dsimp only at h
    split at h
    · cases h
      exact Nat.succ_pos _
    · cases h
  split at h
  · simp only [Option.bind_eq_bind, Option.bind_eq_some_iff] at h
    obtain ⟨n, hn, h⟩ := h
    split at h
    · cases h
      exact numberLen_pos hn
    · cases h
  split at h
  · cases h
    exact Nat.one_pos
  · cases h

/-- The lexer goes on by one character where it cannot read. -/
def lexer (d : Dialect) : Lexer Char where
  len cs := (read d cs).elim 1 (·.2)
  len_pos c cs := by
    cases h : read d (c :: cs) with
    | none => exact Nat.one_pos
    | some r => exact read_pos h

/-- The tokens of a text. -/
def tokens (d : Dialect) (cs : List Char) : Option (List Token) :=
  (((lexer d).positions cs).mapM fun s => (read d s).map (·.1)).map List.reduceOption

/-! ### Writing -/

/-- A quote is written twice, and so is a backslash that would escape. -/
def escape (backslashEscapes : Bool) (quote c : Char) : List Char :=
  if c = quote ∨ (backslashEscapes ∧ c = '\\') then [c, c] else [c]

/-- A text between quotes. -/
def enclose (backslashEscapes : Bool) (quote : Char) (cs : List Char) : List Char :=
  quote :: (cs.flatMap (escape backslashEscapes quote) ++ [quote])

/-- A token, or a space. -/
def render (d : Dialect) : Option Token → List Char
  | none => [' ']
  | some (.word w) => w.toList
  | some (.symbol c) => [c]
  | some (.number n) => n.toList
  | some (.string v) => enclose d.backslashEscapes '\'' v.toList
  | some (.ident name) => enclose false d.identQuote name.toList

def text (d : Dialect) (ls : List (Option Token)) : List Char := ls.flatMap (render d)

def IsWord (cs : List Char) : Prop :=
  ∃ c w, cs = c :: w ∧ isWordStart c = true ∧ ∀ e ∈ w, isWordChar e = true

instance : DecidablePred IsWord
  | [] => isFalse fun ⟨_, _, h, _⟩ => nomatch h
  | c :: w => decidable_of_iff (isWordStart c = true ∧ w.all isWordChar = true)
      ⟨fun h => ⟨c, w, rfl, h.1, List.all_eq_true.1 h.2⟩,
        fun ⟨_, _, heq, h⟩ => by cases heq; exact ⟨h.1, List.all_eq_true.2 h.2⟩⟩

/-- What can be written before a character, inside a statement. -/
def Fits (d : Dialect) (next : Option Char) : Option Token → Prop
  | none => True
  | some (.word w) => IsWord w.toList ∧ delimits next = true
  | some (.symbol c) => c ≠ ';' ∧ isSymbol c next = true
  | some (.number n) => numberLen n.toList = some n.toList.length ∧ delimits next = true
  | some (.string v) => '\x00' ∉ v.toList ∧ next ≠ some '\''
  | some (.ident name) => '\x00' ∉ name.toList ∧ d.denotes name.toList = some name.toList ∧
      next ≠ some d.identQuote

/-- Tokens and spaces that can be written one after the other, before a character. -/
def Chain (d : Dialect) : List (Option Token) → Option Char → Prop
  | [], _ => True
  | l :: ls, next => Fits d ((text d ls).head?.or next) l ∧ Chain d ls next

variable {d : Dialect} {bs : Bool} {q : Char}

/-! ### Reading back -/

theorem length_enclose (cs : List Char) : (enclose bs q cs).length =
    1 + ((cs.flatMap (escape bs q)).length + 1) := by
  simp [enclose, Nat.add_comm]

/-- What is enclosed is read back, up to its closing quote. -/
theorem quoted_escape (bs : Bool) (hq : q ≠ '\x00') (hq' : q ≠ '\\') {cs rest : List Char}
    (hnul : '\x00' ∉ cs) (hrest : rest.head? ≠ some q) :
    quoted bs q (cs.flatMap (escape bs q) ++ q :: rest) =
      some (cs, (cs.flatMap (escape bs q)).length + 1) := by
  induction cs with
  | nil =>
      cases rest with
      | nil => simp [quoted]
      | cons e rest =>
          have he : e ≠ q := by simpa using hrest
          simp [quoted, hq, hq', he]
  | cons c cs ih =>
      have ih := ih fun h => hnul (List.mem_cons_of_mem _ h)
      have hc : c ≠ '\x00' := fun h => hnul (h ▸ List.mem_cons_self)
      -- A character is written as one or two, and then the rest is read.
      by_cases hcq : c = q
      · subst hcq
        simp [escape, quoted, hc, hq', ih]
        omega
      by_cases hback : bs = true ∧ c = '\\'
      · obtain ⟨rfl, rfl⟩ := hback
        simp [escape, quoted, ih, unescape]
        omega
      · obtain ⟨e, t, ht⟩ : ∃ e t, cs.flatMap (escape bs q) ++ q :: rest = e :: t := by
          cases h : cs.flatMap (escape bs q) with
          | nil => exact ⟨q, rest, rfl⟩
          | cons e t => exact ⟨e, t ++ q :: rest, rfl⟩
        have hescape : escape bs q c = [c] := if_neg (by tauto)
        rw [List.flatMap_cons, hescape, List.append_assoc, ht, List.singleton_append, quoted,
          if_neg hc, if_neg hback, if_neg hcq, ← ht, ih]
        simp [Nat.add_comm]

theorem takeWhile_append_head {p : Char → Bool} {cs rest : List Char}
    (h : ∀ c, rest.head? = some c → p c = false) :
    (cs ++ rest).takeWhile p = cs.takeWhile p := by
  have hrest : rest.takeWhile p = [] := by
    cases rest with
    | nil => rfl
    | cons c rest => exact List.takeWhile_cons_of_neg (by rw [h c rfl]; exact Bool.false_ne_true)
  rw [List.takeWhile_append, hrest, List.append_nil]
  split
  · rename_i hlen
    exact ((List.takeWhile_prefix p).eq_of_length hlen).symm
  · rfl

theorem delimits_cases {c : Char} (h : delimits (some c) = true) :
    c = ' ' ∨ c = ',' ∨ c = '(' ∨ c = ')' ∨ c = ';' := by
  simpa [delimits] using h

theorem digits_append {cs rest : List Char} (h : delimits rest.head? = true) :
    digits (cs ++ rest) = digits cs := by
  refine congrArg List.length (takeWhile_append_head fun c hc => ?_)
  rw [hc] at h
  rcases delimits_cases h with rfl | rfl | rfl | rfl | rfl <;> rfl

theorem digits_le (cs : List Char) : digits cs ≤ cs.length := (List.takeWhile_prefix _).length_le

theorem fractionLen_append {cs rest : List Char} (h : delimits rest.head? = true) :
    fractionLen (cs ++ rest) = fractionLen cs := by
  cases cs with
  | nil =>
      cases rest with
      | nil => rfl
      | cons c rest => rcases delimits_cases h with rfl | rfl | rfl | rfl | rfl <;> rfl
  | cons c cs =>
      by_cases hc : c = '.'
      · subst hc
        rw [List.cons_append, fractionLen, fractionLen, digits_append h]
      · simp [fractionLen, hc]

theorem exponentLen_append {cs rest : List Char} (h : delimits rest.head? = true) :
    exponentLen (cs ++ rest) = exponentLen cs := by
  cases cs with
  | nil =>
      cases rest with
      | nil => rfl
      | cons c rest => rcases delimits_cases h with rfl | rfl | rfl | rfl | rfl <;> rfl
  | cons c cs =>
      have hsign : signLen (cs ++ rest) = signLen cs := by
        cases cs with
        | nil =>
            cases rest with
            | nil => rfl
            | cons e rest => rcases delimits_cases h with rfl | rfl | rfl | rfl | rfl <;> rfl
        | cons e cs => rfl
      have hle : signLen cs ≤ cs.length := by
        cases cs with
        | nil => exact Nat.zero_le _
        | cons e cs =>
            unfold signLen
            split <;> simp
      rw [List.cons_append, exponentLen, exponentLen, hsign, List.drop_append_of_le_length hle,
        digits_append h]

/-- Where a number ends is not changed by what may follow it. -/
theorem numberLen_append {cs rest : List Char} (hn : numberLen cs = some cs.length)
    (h : delimits rest.head? = true) : numberLen (cs ++ rest) = some cs.length := by
  unfold numberLen at hn ⊢
  dsimp only at hn ⊢
  rw [digits_append h]
  split at hn
  · cases hn
  · rename_i hwhole
    simp only [Option.bind_eq_bind, Option.bind_eq_some_iff, Option.pure_def,
      Option.some.injEq] at hn
    obtain ⟨fraction, hfraction, exponent, hexponent, hlen⟩ := hn
    rw [if_neg hwhole, List.drop_append_of_le_length (by omega), fractionLen_append h, hfraction]
    change (exponentLen ((cs ++ rest).drop (digits cs + fraction))).bind _ = _
    rw [List.drop_append_of_le_length (by omega), exponentLen_append h, hexponent]
    exact congrArg some hlen

theorem isWordStart_ne {c : Char} (h : isWordStart c = true) :
    c ≠ ' ' ∧ c ≠ '\'' ∧ c ≠ '"' ∧ c ≠ '\x60' := by
  refine ⟨?_, ?_, ?_, ?_⟩ <;> rintro rfl <;> revert h <;> decide

theorem isDigit_ne {c : Char} (h : c.isDigit = true) :
    c ≠ ' ' ∧ c ≠ '\'' ∧ c ≠ '"' ∧ c ≠ '\x60' := by
  refine ⟨?_, ?_, ?_, ?_⟩ <;> rintro rfl <;> revert h <;> decide

theorem not_isWordStart {c : Char} (h : c.isDigit = true) : isWordStart c = false := by
  have hne : c ≠ '_' := by
    rintro rfl
    revert h
    decide
  have halpha : ¬ c.isAlpha = true := by
    rw [isDigit_iff] at h
    rw [isAlpha_iff]
    omega
  simp [isWordStart, hne, halpha]

theorem isSymbol_cases {c : Char} {next : Option Char} (h : isSymbol c next = true) :
    c ∈ ['*', '=', '-', '.', '(', ')', ',', ';'] := by
  unfold isSymbol at h
  split at h
  · rename_i hc
    simp only [List.mem_cons, List.not_mem_nil, or_false] at hc ⊢
    tauto
  split at h
  · rename_i hc
    simp [hc]
  · simp only [List.mem_cons, List.not_mem_nil, or_false, decide_eq_true_eq] at h ⊢
    tauto

theorem quote_ne (d : Dialect) : d.identQuote ≠ ' ' ∧ d.identQuote ≠ '\'' ∧
    d.identQuote ≠ '\x00' ∧ d.identQuote ≠ '\\' := by
  rcases d.quote_eq with h | h <;> rw [h] <;> decide

theorem read_word {c : Char} {w rest : List Char} (hc : isWordStart c = true)
    (hw : ∀ e ∈ w, isWordChar e = true) (hnext : delimits rest.head? = true) :
    read d (c :: w ++ rest) = some (some (.word (.ofList (c :: w))), w.length + 1) := by
  obtain ⟨hspace, hsingle, hdouble, hback⟩ := isWordStart_ne hc
  have hident : c ≠ d.identQuote := by
    rcases d.quote_eq with h | h <;> rw [h] <;> assumption
  have htake : (w ++ rest).takeWhile isWordChar = w := by
    rw [takeWhile_append_head fun e he => ?_]
    · exact List.takeWhile_eq_self_iff.2 hw
    · rw [he] at hnext
      rcases delimits_cases hnext with rfl | rfl | rfl | rfl | rfl <;> rfl
  rw [List.cons_append, read, if_neg hspace, if_neg hsingle, if_neg hident, if_pos hc, htake]
  dsimp only
  rw [← List.cons_append, List.drop_left, if_pos hnext]
  rfl

/-- A number starts with a digit. -/
theorem head_of_number {n : List Char} (hn : numberLen n = some n.length) :
    ∃ c cs, n = c :: cs ∧ c.isDigit = true := by
  have hdigits : digits n ≠ 0 := by
    intro h
    unfold numberLen at hn
    rw [if_pos h] at hn
    cases hn
  cases n with
  | nil => exact absurd rfl hdigits
  | cons c cs =>
      refine ⟨c, cs, rfl, ?_⟩
      by_contra h
      refine hdigits ?_
      rw [digits, List.takeWhile_cons_of_neg (by simpa using h)]
      rfl

theorem numberLen_of_digits {cs : List Char} (hne : cs ≠ []) (h : ∀ c ∈ cs, c.isDigit = true) :
    numberLen cs = some cs.length := by
  have hdigits : digits cs = cs.length := by
    rw [digits, List.takeWhile_eq_self_iff.2 h]
  have hpos : digits cs ≠ 0 := by
    rw [hdigits]
    exact fun hlen => hne (List.eq_nil_of_length_eq_zero hlen)
  unfold numberLen
  dsimp only
  rw [if_neg hpos, hdigits, List.drop_length]
  simp [fractionLen, exponentLen]

theorem isDigit_of_mem_take {cs : List Char} {c : Char} (hc : c ∈ cs.take (digits cs)) :
    c.isDigit = true := by
  rw [digits, ← List.prefix_iff_eq_take.1 (List.takeWhile_prefix _)] at hc
  exact List.mem_takeWhile_imp hc

/-- What an exponent that reaches to the end consists of. -/
theorem exponent_parts {cs : List Char} (h : exponentLen cs = some cs.length) :
    cs = [] ∨ ∃ e sign ds, cs = e :: (sign ++ ds) ∧ (e = 'e' ∨ e = 'E') ∧
      (sign = [] ∨ sign = ['+'] ∨ sign = ['-']) ∧ ds ≠ [] ∧ ∀ c ∈ ds, c.isDigit = true := by
  cases cs with
  | nil => exact .inl rfl
  | cons e cs =>
      rw [exponentLen] at h
      split at h
      · rename_i he
        split at h
        · cases h
        · rename_i hne
          have hlen := Option.some.inj h
          rw [List.length_cons] at hlen
          have hdrop : (cs.drop (signLen cs)).take (digits (cs.drop (signLen cs))) =
              cs.drop (signLen cs) := by
            refine List.take_of_length_le ?_
            rw [List.length_drop]
            omega
          refine .inr ⟨e, cs.take (signLen cs), cs.drop (signLen cs), ?_, he, ?_, ?_, ?_⟩
          · rw [List.take_append_drop]
          · unfold signLen
            split
            · rename_i hsign
              rcases hsign with hsign | hsign <;>
                obtain ⟨t, rfl⟩ := List.head?_eq_some_iff.1 hsign <;> simp
            · simp
          · intro hnil
            exact hne (by rw [hnil]; rfl)
          · intro c hc
            rw [← hdrop] at hc
            exact isDigit_of_mem_take hc
      · cases h

/-- What a fraction consists of. -/
theorem mem_fraction {cs : List Char} {f : ℕ} (h : fractionLen cs = some f) :
    ∀ c ∈ cs.take f, c = '.' ∨ c.isDigit = true := by
  unfold fractionLen at h
  split at h
  · rename_i ds
    split at h
    · cases h
    · cases h
      intro c hc
      rw [Nat.add_comm, List.take_succ_cons, List.mem_cons] at hc
      exact hc.imp id isDigit_of_mem_take
  · cases h
    intro c hc
    cases hc

/-- What a number consists of: a sign is followed by a digit. -/
theorem number_parts {cs : List Char} (h : numberLen cs = some cs.length) :
    ∃ front sign ds, cs = front ++ (sign ++ ds) ∧
      (∀ c ∈ front, c = '.' ∨ c = 'e' ∨ c = 'E' ∨ c.isDigit = true) ∧
      (sign = [] ∨ sign = ['+'] ∨ sign = ['-']) ∧ (sign ≠ [] → ds ≠ []) ∧
      ∀ c ∈ ds, c.isDigit = true := by
  unfold numberLen at h
  dsimp only at h
  split at h
  · cases h
  simp only [Option.bind_eq_bind, Option.bind_eq_some_iff, Option.pure_def,
    Option.some.injEq] at h
  obtain ⟨f, hf, e, he, hlen⟩ := h
  have hexponent : exponentLen (cs.drop (digits cs + f)) =
      some (cs.drop (digits cs + f)).length := by
    rw [he, List.length_drop]
    congr 1
    omega
  have hfront : ∀ c ∈ cs.take (digits cs + f), c = '.' ∨ c = 'e' ∨ c = 'E' ∨
      c.isDigit = true := by
    intro c hc
    rw [List.take_add, List.mem_append] at hc
    rcases hc with hc | hc
    · exact .inr (.inr (.inr (isDigit_of_mem_take hc)))
    · rcases mem_fraction hf c hc with hpoint | hdigit
      · exact .inl hpoint
      · exact .inr (.inr (.inr hdigit))
  have hsplit := (List.take_append_drop (digits cs + f) cs).symm
  rcases exponent_parts hexponent with hnil | ⟨e, sign, ds, heq, hchar, hsign, hds, hall⟩
  · exact ⟨cs.take (digits cs + f), [], [], by rw [hnil] at hsplit; exact hsplit, hfront, .inl rfl,
      fun h => absurd rfl h, fun c hc => by cases hc⟩
  · refine ⟨cs.take (digits cs + f) ++ [e], sign, ds, ?_, ?_, hsign, fun _ => hds, hall⟩
    · rw [heq] at hsplit
      simpa using hsplit
    · intro c hc
      rcases List.mem_append.1 hc with hc | hc
      · exact hfront c hc
      · rw [List.mem_singleton.1 hc]
        tauto

/-- A sign may stand before a number. -/
theorem isSymbol_sign {c : Char} (hc : c.isDigit = true) : isSymbol '-' (some c) = true := by
  have hall : operators.all (!Char.isDigit ·) = true := by
    decide
  have hop : c ∉ operators := by
    intro hmem
    have hnot := List.all_eq_true.1 hall c hmem
    rw [hc] at hnot
    cases hnot
  simp [isSymbol, hop]

theorem read_number {n rest : List Char} (hn : numberLen n = some n.length)
    (hnext : delimits rest.head? = true) :
    read d (n ++ rest) = some (some (.number (.ofList n)), n.length) := by
  obtain ⟨c, cs, rfl, hc⟩ := head_of_number hn
  obtain ⟨hspace, hsingle, hdouble, hback⟩ := isDigit_ne hc
  have hident : c ≠ d.identQuote := by
    rcases d.quote_eq with h | h <;> rw [h] <;> assumption
  have hlen := numberLen_append hn hnext
  rw [List.cons_append] at hlen ⊢
  rw [read, if_neg hspace, if_neg hsingle, if_neg hident,
    if_neg (by rw [not_isWordStart hc]; exact Bool.false_ne_true), if_pos hc, hlen]
  change (if delimits ((c :: cs ++ rest).drop (c :: cs).length).head? then
    some (some (Token.number (.ofList ((c :: cs ++ rest).take (c :: cs).length))),
      (c :: cs).length) else none) = _
  rw [List.drop_left, List.take_left, if_pos hnext]

/-- What ends a word or a number closes no quote. -/
theorem ne_quote_of_delimits {next : Option Char} (hnext : delimits next = true) (d : Dialect) :
    next ≠ some '\'' ∧ next ≠ some d.identQuote := by
  constructor
  · rintro rfl
    revert hnext
    decide
  · rintro rfl
    rcases d.quote_eq with h | h <;> rw [h] at hnext <;> revert hnext <;> decide

/-- What is written is read back where it fits before what follows. -/
theorem read_render {t : Option Token} {rest : List Char} (h : Fits d rest.head? t) :
    read d (render d t ++ rest) = some (t, (render d t).length) := by
  obtain ⟨hspace, hsingle, hnul, hback⟩ := quote_ne d
  cases t with
  | none => rfl
  | some t =>
    cases t with
    | word w =>
        obtain ⟨⟨c, cs, hw, hc, hcs⟩, hnext⟩ := h
        rw [render, hw, read_word hc hcs hnext, ← hw, String.ofList_toList, hw, List.length_cons]
    | symbol c =>
        have hmem := isSymbol_cases h.2
        have hident : c ≠ d.identQuote := by
          rintro rfl
          rcases d.quote_eq with hq | hq <;> rw [hq] at hmem <;> revert hmem <;> decide
        have hone : c ≠ ' ' ∧ c ≠ '\'' ∧ isWordStart c = false ∧ c.isDigit = false := by
          simp only [List.mem_cons, List.not_mem_nil, or_false] at hmem
          rcases hmem with rfl | rfl | rfl | rfl | rfl | rfl | rfl | rfl <;> decide
        obtain ⟨hspace, hsingle, hword, hdigit⟩ := hone
        have hsymbol := h.2
        simp [render, read, hspace, hsingle, hident, hword, hdigit, hsymbol]
    | number n =>
        rw [render, read_number h.1 h.2, String.ofList_toList]
    | string v =>
        have hquoted := quoted_escape d.backslashEscapes (q := '\'') (by decide) (by decide)
          h.1 h.2
        rw [render, length_enclose, enclose, List.cons_append, List.append_assoc,
          List.singleton_append, read, if_neg (by decide), if_pos rfl, hquoted]
        simp
    | ident name =>
        have hquoted := quoted_escape false hnul hback h.1 h.2.2
        rw [render, length_enclose, enclose, List.cons_append, List.append_assoc,
          List.singleton_append, read, if_neg hspace, if_neg hsingle, if_pos rfl, hquoted]
        simp [h.2.1]

@[simp] theorem tokens_nil (d : Dialect) : tokens d [] = some [] := rfl

/-- A text is read token by token. -/
theorem tokens_read {cs : List Char} {t : Option Token} {n : ℕ} (h : read d cs = some (t, n)) :
    tokens d cs = (tokens d (cs.drop n)).map (t.toList ++ ·) := by
  cases cs with
  | nil => cases h
  | cons c cs =>
      have hlen : (lexer d).len (c :: cs) = n := by
        show (read d (c :: cs)).elim 1 (·.2) = n
        rw [h]
        rfl
      rw [tokens, Lexer.positions_cons, hlen, List.mapM_cons, h, tokens]
      cases ((lexer d).positions ((c :: cs).drop n)).mapM fun s => (read d s).map (·.1) with
      | none => rfl
      | some ts => cases t <;> rfl

/-! ### Chains -/

@[simp] theorem text_nil (d : Dialect) : text d [] = [] := rfl

@[simp] theorem text_cons (d : Dialect) (l : Option Token) (ls : List (Option Token)) :
    text d (l :: ls) = render d l ++ text d ls := rfl

theorem text_append (d : Dialect) (ls ls' : List (Option Token)) :
    text d (ls ++ ls') = text d ls ++ text d ls' := List.flatMap_append

/-- What fits together is read back. -/
theorem tokens_text {ls : List (Option Token)} (h : Chain d ls none) :
    tokens d (text d ls) = some ls.reduceOption := by
  induction ls with
  | nil => rfl
  | cons l ls ih =>
      obtain ⟨hfits, hchain⟩ := h
      rw [Option.or_none] at hfits
      rw [text_cons, tokens_read (read_render hfits), List.drop_left, ih hchain]
      cases l <;> rfl

/-- A chain is part of one statement. -/
theorem semicolon_notMem {ls : List (Option Token)} {next : Option Char} (h : Chain d ls next) :
    .symbol ';' ∉ ls.reduceOption := by
  rw [List.reduceOption_mem_iff]
  induction ls with
  | nil => exact List.not_mem_nil
  | cons l ls ih =>
      rintro (_ | ⟨_, hmem⟩)
      · exact h.1.1 rfl
      · exact ih h.2 hmem

/-- Two chains are one, where the first fits before the second. -/
theorem chain_append {ls ls' : List (Option Token)} {next : Option Char} :
    Chain d (ls ++ ls') next ↔ Chain d ls ((text d ls').head?.or next) ∧ Chain d ls' next := by
  induction ls with
  | nil => simp [Chain]
  | cons l ls ih =>
      have hhead : (text d (ls ++ ls')).head?.or next =
          (text d ls).head?.or ((text d ls').head?.or next) := by
        rw [text_append, List.head?_append, Option.or_assoc]
      rw [List.cons_append, Chain, Chain, ih, hhead, and_assoc]

end SqlTokens
