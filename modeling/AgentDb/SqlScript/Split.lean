import Mathlib.Data.List.DropRight
import AgentDb.Lib.Lexing
import AgentDb.Model
import AgentDb.Scalars

/-!
# Splitting a script: `sql_script/mod.rs`

`splitStatements` scans a script with an index that jumps over quotes, comments and dollar quotes
and cuts at every semicolon it meets in between. The scanner is a `Lexer`: `advance` is how far
the index moves in one turn of the loop. All characters it looks for are ASCII, so characters
stand for the bytes of the source; the one place where a byte becomes a character of its own,
`strip_comments`, is kept as it is.
-/

namespace AgentDb
namespace SqlScript

open Lexing

/-! ### The scanner -/

/-- How far a quote reaches after its opening character. -/
def quoteLen (backslashEscapes : Bool) (quote : Char) : List Char → ℕ
  | [] => 0
  | [_] => 1
  | c :: d :: cs =>
      if backslashEscapes ∧ c = '\\' then 2 + quoteLen backslashEscapes quote cs
      else if c = quote then
        if d = quote then 2 + quoteLen backslashEscapes quote cs else 1
      else 1 + quoteLen backslashEscapes quote (d :: cs)

/-- The rest of the line, without its end. -/
def lineLen (cs : List Char) : ℕ := (cs.takeWhile (· ≠ '\n')).length

/-- How far a block comment reaches after `/*`. -/
def blockLen : List Char → ℕ
  | [] => 0
  | [_] => 1
  | c :: d :: cs => if c = '*' ∧ d = '/' then 2 else 1 + blockLen (d :: cs)

/-- A character of a dollar tag. -/
def isTagChar (c : Char) : Bool := c.isAlphanum || c = '_'

/-- `dollar_tag_len`, of a text that starts with a dollar sign. -/
def dollarTagLen (cs : List Char) : Option ℕ :=
  let tag := (cs.drop 1).takeWhile isTagChar
  if (cs.drop (1 + tag.length)).head? = some '$' then some (tag.length + 2) else none

/-- How far the text reaches through the next occurrence of the tag. -/
def tagLen (tag : List Char) : List Char → ℕ
  | [] => 0
  | c :: cs => if tag.isPrefixOf (c :: cs) then tag.length else 1 + tagLen tag cs

/-- How far the index moves in one turn of the loop. -/
def advance (backslashEscapes : Bool) : List Char → ℕ
  | [] => 0
  | c :: cs =>
      if c = '\'' ∨ c = '"' then 1 + quoteLen backslashEscapes c cs
      else if c = '-' ∧ cs.head? = some '-' then lineLen (c :: cs)
      else if c = '/' ∧ cs.head? = some '*' then 2 + blockLen (cs.drop 1)
      else if c = '$' then
        match dollarTagLen (c :: cs) with
        | some n => n + tagLen ((c :: cs).take n) ((c :: cs).drop n)
        | none => 1
      else 1

theorem lineLen_pos {c : Char} (hc : c ≠ '\n') (cs : List Char) : 0 < lineLen (c :: cs) := by
  rw [lineLen, List.takeWhile_cons_of_pos (by simpa using hc), List.length_cons]
  omega

theorem lineLen_cons {c : Char} (hc : c ≠ '\n') (cs : List Char) :
    lineLen (c :: cs) = 1 + lineLen cs := by
  rw [lineLen, List.takeWhile_cons_of_pos (by simpa using hc), List.length_cons, lineLen,
    Nat.add_comm]

theorem two_le_of_dollarTagLen {cs : List Char} {n : ℕ} (h : dollarTagLen cs = some n) :
    2 ≤ n := by
  simp only [dollarTagLen, Option.ite_none_right_eq_some, Option.some.injEq] at h
  omega

theorem dollarTagLen_le {cs : List Char} {n : ℕ} (h : dollarTagLen cs = some n) :
    n ≤ cs.length := by
  simp only [dollarTagLen, Option.ite_none_right_eq_some, Option.some.injEq] at h
  obtain ⟨hclose, rfl⟩ := h
  by_contra hlt
  rw [List.drop_eq_nil_of_le (by omega)] at hclose
  cases hclose

def scanner (backslashEscapes : Bool) : Lexer Char where
  len := advance backslashEscapes
  len_pos c cs := by
    rw [advance]
    split_ifs with _ hline
    · omega
    · exact lineLen_pos (by rw [hline.1]; decide) cs
    · omega
    · split
      · rename_i n hn
        have := two_le_of_dollarTagLen hn
        omega
      · omega
    · omega

theorem len_scanner_semicolon (bs : Bool) (cs : List Char) : (scanner bs).len (';' :: cs) = 1 := by
  show advance bs (';' :: cs) = 1
  simp [advance]

/-! ### Empty statements -/

/-- `str::trim`. -/
def trim (cs : List Char) : List Char :=
  ((cs.dropWhile isWhitespace).reverse.dropWhile isWhitespace).reverse

/-- How far `strip_comments` moves in one turn. -/
def stripAdvance : List Char → ℕ
  | '-' :: '-' :: cs => lineLen ('-' :: '-' :: cs)
  | '/' :: '*' :: cs => 2 + blockLen cs
  | [] => 0
  | _ :: _ => 1

def stripper : Lexer Char where
  len := stripAdvance
  len_pos c cs := by
    unfold stripAdvance
    split
    · exact lineLen_pos (by decide) _
    · omega
    · contradiction
    · omega

/-- The bytes of a character, each taken for a character. -/
def latin1 (c : Char) : List Char := (String.utf8EncodeChar c).map fun b => Char.ofNat b.toNat

/-- What one turn of `strip_comments` keeps. -/
def stripKeep : List Char → List Char
  | '-' :: '-' :: _ => []
  | '/' :: '*' :: _ => []
  | [] => []
  | c :: _ => latin1 c

/-- `strip_comments`. -/
def stripComments (sql : List Char) : List Char := (stripper.positions sql).flatMap stripKeep

/-- `is_effective`. -/
def isEffective (statement : List Char) : Bool := ¬ trim (stripComments statement) = []

/-- `push_statement`: what a segment adds to the result. -/
def pushStatement (raw : List Char) : Option String :=
  let statement := trim raw
  if statement ≠ [] ∧ isEffective statement then some (String.ofList statement) else none

/-- `split_statements_impl`. -/
def splitStatementsImpl (sql : String) (backslashEscapes : Bool) : List String :=
  ((scanner backslashEscapes).texts ';' sql.toList).filterMap pushStatement

/-- `split_statements`. -/
def splitStatements (sql : String) (engine : Engine) : List String :=
  splitStatementsImpl sql (engine = .mysql)

example : splitStatements "SELECT 'a;b'; -- note;\n/* c */; SELECT 2" .sqlite =
    ["SELECT 'a;b'", "SELECT 2"] := by decide +kernel

/-! ### Plain text -/

/-- The scanner does something other than going on by one character. -/
def Opens : List Char → Prop
  | [] => False
  | c :: cs => c = '\'' ∨ c = '"' ∨ c = ';' ∨ (c = '-' ∧ cs.head? = some '-') ∨
      (c = '/' ∧ cs.head? = some '*') ∨ (c = '$' ∧ dollarTagLen (c :: cs) ≠ none)

instance : DecidablePred Opens
  | [] => inferInstanceAs (Decidable False)
  | _ :: _ => inferInstanceAs (Decidable (_ ∨ _))

theorem advance_of_not_opens {bs : Bool} {c : Char} {cs : List Char} (h : ¬ Opens (c :: cs)) :
    advance bs (c :: cs) = 1 := by
  simp only [Opens, not_or] at h
  obtain ⟨hquote, hdouble, -, hline, hblock, hdollar⟩ := h
  rw [advance, if_neg (by tauto), if_neg hline, if_neg hblock]
  split_ifs with hc
  · have htag : dollarTagLen (c :: cs) = none := by tauto
    rw [htag]
  · rfl

/-- Text that opens nothing is gone over character by character. -/
theorem stepsOver_plain {bs : Bool} {n : ℕ} {cs : List Char} (hn : n ≤ cs.length)
    (h : ∀ i < n, ¬ Opens (cs.drop i)) : (scanner bs).StepsOver ';' n cs := by
  induction n generalizing cs with
  | zero => exact .zero _
  | succ n ih =>
    cases cs with
    | nil => cases hn
    | cons c cs =>
      have hopens : ¬ Opens (c :: cs) := h 0 n.succ_pos
      have hlen : (scanner bs).len (c :: cs) = 1 := advance_of_not_opens hopens
      have hc : c ≠ ';' := by
        simp only [Opens, not_or] at hopens
        exact hopens.2.2.1
      have hrest : (scanner bs).StepsOver ';' n cs :=
        ih (by simpa using hn) fun i hi => h (i + 1) (by omega)
      rw [Nat.add_comm, ← hlen]
      refine .step hc ?_
      rw [hlen]
      exact hrest

/-! ### What is dropped -/

/-- The first byte of a character that is not ASCII is no white space, even where the character
is. -/
theorem exists_mem_latin1_of_lt {c : Char} (hc : 127 < c.toNat) :
    ∃ e ∈ latin1 c, isWhitespace e = false := by
  have hhigh : ∀ n : Fin 64, isWhitespace (Char.ofNat (UInt8.ofNat (192 + n)).toNat) = false := by
    decide
  have hbyte : ∀ n, 192 ≤ n → n < 256 → isWhitespace (Char.ofNat (UInt8.ofNat n).toNat) = false :=
    fun n hn hlt => by
      have := hhigh ⟨n - 192, by omega⟩
      rwa [show 192 + (n - 192) = n by omega] at this
  have hval : ¬ c.val.toNat ≤ 127 := by
    show ¬ c.toNat ≤ 127
    omega
  simp only [latin1, String.utf8EncodeChar, if_neg hval]
  split_ifs <;> exact ⟨_, List.mem_cons_self, hbyte _ (by omega) (by omega)⟩

/-- The first byte of a character that is no white space is none either. -/
theorem exists_mem_latin1 {c : Char} (hc : isWhitespace c = false) :
    ∃ e ∈ latin1 c, isWhitespace e = false := by
  by_cases hlt : 127 < c.toNat
  · exact exists_mem_latin1_of_lt hlt
  · have hle : c.val.toNat ≤ 127 := by
      show c.toNat ≤ 127
      omega
    simp only [latin1, String.utf8EncodeChar, if_pos hle]
    refine ⟨_, List.mem_cons_self, ?_⟩
    have hval : (UInt8.ofNat c.val.toNat).toNat = c.toNat := by
      rw [UInt8.toNat_ofNat']
      exact Nat.mod_eq_of_lt (by omega)
    show isWhitespace (Char.ofNat (UInt8.ofNat c.val.toNat).toNat) = false
    rw [hval, Char.ofNat_toNat]
    exact hc

/-- A comment starts here. -/
def CommentStart (cs : List Char) : Prop := ['-', '-'] <+: cs ∨ ['/', '*'] <+: cs

/-- Something is left of the text without its comments. -/
def Effective (cs : List Char) : Prop := ∃ e ∈ stripComments cs, isWhitespace e = false

theorem stripComments_cons {c : Char} {cs : List Char} (h : ¬ CommentStart (c :: cs)) :
    stripComments (c :: cs) = latin1 c ++ stripComments cs := by
  have hlen : stripper.len (c :: cs) = 1 := by
    show stripAdvance (c :: cs) = 1
    unfold stripAdvance
    split <;> simp_all [CommentStart]
  have hkeep : stripKeep (c :: cs) = latin1 c := by
    unfold stripKeep
    split <;> simp_all [CommentStart]
  rw [stripComments, Lexer.positions_cons, List.flatMap_cons, hlen, hkeep]
  rfl

theorem effective_cons {c : Char} {cs : List Char} (hc : isWhitespace c = false)
    (h : ¬ CommentStart (c :: cs)) : Effective (c :: cs) := by
  obtain ⟨e, he, hwhite⟩ := exists_mem_latin1 hc
  refine ⟨e, ?_, hwhite⟩
  rw [stripComments_cons h]
  exact List.mem_append_left _ he

theorem effective_append {w cs : List Char} (hw : ∀ c ∈ w, isWhitespace c = true)
    (h : Effective cs) : Effective (w ++ cs) := by
  induction w with
  | nil => exact h
  | cons c w ih =>
    have hstart : ¬ CommentStart (c :: (w ++ cs)) := by
      have hc := hw c List.mem_cons_self
      rintro (⟨t, ht⟩ | ⟨t, ht⟩) <;> injection ht with ht <;> subst ht <;> cases hc
    obtain ⟨e, he, hwhite⟩ := ih fun c hc => hw c (List.mem_cons_of_mem _ hc)
    refine ⟨e, ?_, hwhite⟩
    rw [List.cons_append, stripComments_cons hstart]
    exact List.mem_append_right _ he

theorem lineLen_append {cs : List Char} (hcs : ∀ c ∈ cs, c ≠ '\n') {rest : List Char}
    (hrest : rest.head? = some '\n') : lineLen (cs ++ rest) = cs.length := by
  obtain ⟨t, rfl⟩ := List.head?_eq_some_iff.1 hrest
  rw [lineLen, List.takeWhile_append_of_pos (by simpa using hcs), List.takeWhile_cons_of_neg
    (by simp), List.append_nil]

theorem head?_drop_lineLen {cs : List Char} (h : cs.drop (lineLen cs) ≠ []) :
    (cs.drop (lineLen cs)).head? = some '\n' := by
  induction cs with
  | nil => exact absurd rfl h
  | cons c cs ih =>
    by_cases hc : c = '\n'
    · rw [lineLen, List.takeWhile_cons_of_neg (by simpa using hc), hc]
      rfl
    · rw [lineLen_cons hc, Nat.add_comm, List.drop_succ_cons] at h ⊢
      exact ih h

theorem ne_of_mem_take_lineLen {cs : List Char} {c : Char} (hc : c ∈ cs.take (lineLen cs)) :
    c ≠ '\n' := by
  rw [lineLen, ← List.prefix_iff_eq_take.1 (List.takeWhile_prefix _)] at hc
  simpa using List.mem_takeWhile_imp hc

/-- A closed block comment ends at the same place whatever follows it. -/
theorem blockLen_append {cs : List Char} (h : blockLen cs < cs.length) (rest : List Char) :
    blockLen (cs.take (blockLen cs) ++ rest) = blockLen cs := by
  fun_induction blockLen cs with
  | case1 => cases h
  | case2 => cases Nat.lt_irrefl 1 h
  | case3 c d cs hclose =>
    show blockLen (c :: d :: rest) = 2
    rw [blockLen, if_pos hclose]
  | case4 c d cs hopen ih =>
    have hlt : blockLen (d :: cs) < (d :: cs).length := by
      simp only [List.length_cons] at h ⊢
      omega
    have hpos : 0 < blockLen (d :: cs) := by
      cases cs with
      | nil => exact Nat.one_pos
      | cons e cs =>
        rw [blockLen]
        split <;> omega
    have hrest := ih hlt
    obtain ⟨n, hn⟩ : ∃ n, blockLen (d :: cs) = n + 1 := ⟨_, (Nat.sub_add_cancel hpos).symm⟩
    rw [hn, List.take_succ_cons, List.cons_append] at hrest
    rw [hn, Nat.add_comm 1, List.take_succ_cons, List.take_succ_cons, List.cons_append,
      List.cons_append, blockLen, if_neg hopen, hrest]
    omega

theorem blockLen_append_of_lt {cs : List Char} (h : blockLen cs < cs.length) (rest : List Char) :
    blockLen (cs ++ rest) = blockLen cs := by
  have hblock := blockLen_append h (cs.drop (blockLen cs) ++ rest)
  rwa [← List.append_assoc, List.take_append_drop] at hblock

theorem blockLen_le_append (cs rest : List Char) : blockLen cs ≤ blockLen (cs ++ rest) := by
  fun_induction blockLen cs with
  | case1 => exact Nat.zero_le _
  | case2 c =>
    cases rest with
    | nil => exact le_rfl
    | cons d rest =>
      rw [List.singleton_append, blockLen]
      split_ifs <;> omega
  | case3 c d cs hclose =>
    rw [List.cons_append, List.cons_append, blockLen, if_pos hclose]
  | case4 c d cs hopen ih =>
    rw [List.cons_append, List.cons_append, blockLen, if_neg hopen]
    exact Nat.add_le_add_left ih 1

theorem takeWhile_append_of_lt {p : Char → Bool} {cs : List Char}
    (h : (cs.takeWhile p).length < cs.length) (rest : List Char) :
    (cs ++ rest).takeWhile p = cs.takeWhile p := by
  rw [List.takeWhile_append, if_neg h.ne]

theorem lineLen_append_of_lt {cs : List Char} (h : lineLen cs < cs.length) (rest : List Char) :
    lineLen (cs ++ rest) = lineLen cs :=
  congrArg List.length (takeWhile_append_of_lt h rest)

theorem lineLen_le_append (cs rest : List Char) : lineLen cs ≤ lineLen (cs ++ rest) := by
  rw [lineLen, lineLen, List.takeWhile_append]
  split_ifs with hall
  · rw [List.length_append]
    omega
  · exact le_rfl

theorem stripComments_skip {s y : List Char} {c : Char}
    (hlen : stripper.len (c :: s ++ y) = s.length + 1)
    (hkeep : stripKeep (c :: s ++ y) = []) : stripComments (c :: s ++ y) = stripComments y := by
  rw [List.cons_append] at hlen hkeep ⊢
  rw [stripComments, Lexer.positions_cons, List.flatMap_cons, hkeep, hlen, List.nil_append,
    List.drop_succ_cons, List.drop_left, stripComments]

theorem trim_eq_rdropWhile (cs : List Char) :
    trim cs = (cs.dropWhile isWhitespace).rdropWhile isWhitespace := rfl

theorem trim_ne_nil {cs : List Char} : trim cs ≠ [] ↔ ∃ c ∈ cs, isWhitespace c = false := by
  rw [trim_eq_rdropWhile, Ne, List.rdropWhile_eq_nil_iff]
  constructor
  · intro h
    push Not at h
    obtain ⟨c, hc, hwhite⟩ := h
    exact ⟨c, (List.dropWhile_suffix _).subset hc, by simpa using hwhite⟩
  · rintro ⟨c, hc, hwhite⟩ h
    have hnil : cs.dropWhile isWhitespace = [] := by
      by_contra hne
      have hhead := List.head_dropWhile_not isWhitespace hne
      rw [h _ (List.head_mem hne)] at hhead
      cases hhead
    rw [List.dropWhile_eq_nil_iff] at hnil
    rw [hnil c hc] at hwhite
    cases hwhite

theorem trim_append {w cs : List Char} (hw : ∀ c ∈ w, isWhitespace c = true) :
    trim (w ++ cs) = trim cs := by
  rw [trim_eq_rdropWhile, List.dropWhile_append_of_pos hw, trim_eq_rdropWhile]

theorem trim_cons {c : Char} {cs : List Char} (hc : isWhitespace c = false) :
    trim (c :: cs) = (c :: cs).rdropWhile isWhitespace := by
  rw [trim_eq_rdropWhile, List.dropWhile_cons_of_neg (by simp [hc])]

theorem rdropWhile_append {cs : List Char} (h : ∃ c ∈ cs, isWhitespace c = false)
    (a : List Char) : (a ++ cs).rdropWhile isWhitespace = a ++ cs.rdropWhile isWhitespace := by
  have hne : cs.reverse.dropWhile isWhitespace ≠ [] := by
    obtain ⟨c, hc, hwhite⟩ := h
    rw [Ne, List.dropWhile_eq_nil_iff]
    intro hall
    rw [hall c (List.mem_reverse.2 hc)] at hwhite
    cases hwhite
  rw [List.rdropWhile, List.reverse_append, List.dropWhile_append, if_neg (by simpa using hne),
    List.reverse_append, List.reverse_reverse, List.rdropWhile]

/-- What is left after trimming is left before. -/
theorem Effective.of_trim {cs : List Char} (h : Effective (trim cs)) :
    Effective (cs.rdropWhile isWhitespace) := by
  have hne : trim cs ≠ [] := by
    intro hnil
    rw [hnil] at h
    obtain ⟨e, he, -⟩ := h
    cases he
  obtain ⟨c, hc, hwhite⟩ := trim_ne_nil.1 hne
  have hsplit := List.takeWhile_append_dropWhile (p := isWhitespace) (l := cs)
  have hmem : ∃ c ∈ cs.dropWhile isWhitespace, isWhitespace c = false := by
    rw [← hsplit] at hc
    rcases List.mem_append.1 hc with hc | hc
    · rw [List.mem_takeWhile_imp hc] at hwhite
      cases hwhite
    · exact ⟨c, hc, hwhite⟩
  rw [← hsplit, rdropWhile_append hmem]
  exact effective_append (fun c hc => List.mem_takeWhile_imp hc) h

/-- A text that starts where no comment does is kept, up to the white space behind it. -/
theorem effective_start {w x m u : List Char} {c : Char} (hw : ∀ e ∈ w, isWhitespace e = true)
    (hc : isWhitespace c = false) (hx : x = w ++ c :: m)
    (hstart : ¬ CommentStart (x.drop w.length ++ u)) : Effective (trim x) := by
  subst hx
  rw [List.drop_left] at hstart
  rw [trim_append hw, trim_cons hc]
  obtain ⟨v, hv⟩ := List.rdropWhile_prefix isWhitespace (c :: m)
  cases hkept : (c :: m).rdropWhile isWhitespace with
  | nil =>
    rw [List.rdropWhile_eq_nil_iff] at hkept
    rw [hkept c List.mem_cons_self] at hc
    cases hc
  | cons e z =>
    rw [hkept] at hv
    obtain rfl : e = c := by injection hv
    refine effective_cons hc fun h => hstart ?_
    have hprefix : e :: z <+: e :: m ++ u := ⟨v ++ u, by rw [← List.append_assoc, hv]⟩
    exact h.imp (·.trans hprefix) (·.trans hprefix)

theorem pushStatement_ne_none {raw : List Char} (h : Effective (trim raw)) :
    pushStatement raw ≠ none := by
  have hne : trim raw ≠ [] := by
    intro hnil
    rw [hnil] at h
    obtain ⟨e, he, -⟩ := h
    cases he
  have heffective : isEffective (trim raw) = true := by
    simp only [isEffective, decide_not, Bool.not_eq_eq_eq_not, Bool.not_true,
      decide_eq_false_iff_not]
    exact trim_ne_nil.2 h
  simp only [pushStatement, hne, heffective, ne_eq, not_false_eq_true, and_self, if_true,
    reduceCtorEq]

end SqlScript
end AgentDb
