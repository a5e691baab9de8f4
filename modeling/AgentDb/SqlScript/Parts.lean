import AgentDb.SqlScript.Bytes

/-!
# The parts of a script

What splitting a script is good for: the statements returned are pieces of the script, in order,
with nothing but white space, semicolons and comments in between, each holds something else, and
splitting a statement again gives that statement.

The last two rest on the scanner reading a statement on its own as it reads it inside the script
(`append_mem_positions`), the first two on `strip_comments` going on with the scanner as long as
there are only comments and white space (`len_comment`). There `strip_comments` takes the bytes of a
character for characters: white space that is not ASCII makes a statement of a segment that is
otherwise comments (`effective_iff`).
-/

namespace AgentDb
namespace SqlScript

open Lexing Lexer

/-! ### What lies between the statements -/

/-- The text from some place on starts inside a comment of the script. -/
def InComment (bs : Bool) (script tail : List Char) : Prop :=
  ∃ s ∈ (scanner bs).positions script, CommentStart s ∧
    ∃ n < (scanner bs).len s, s.drop n = tail

/-- It starts with white space, a semicolon that ends a statement, or inside a comment. -/
def Outside (bs : Bool) (script tail : List Char) : Prop :=
  (∃ c, tail.head? = some c ∧ isWhitespace c = true) ∨
    (tail.head? = some ';' ∧ tail ∈ (scanner bs).positions script) ∨ InComment bs script tail

/-- The parts are pieces of the text, in order and apart from each other, and every place of the
text outside them is as `out` says. -/
inductive Covers (out : List Char → Prop) : List Char → List (List Char) → Prop
  | nil : Covers out [] []
  | outside {c : Char} {cs : List Char} {parts : List (List Char)} (hc : out (c :: cs))
      (h : Covers out cs parts) : Covers out (c :: cs) parts
  | part {p rest : List Char} {parts : List (List Char)} (h : Covers out rest parts) :
      Covers out (p ++ rest) (p :: parts)

/-- There are only comments and white space. -/
def Commentary (bs : Bool) (text : List Char) : Prop :=
  ∀ c tail, c :: tail <:+ text → isWhitespace c = true ∨ InComment bs text (c :: tail)

/-- What splitting a script for an engine is good for. -/
structure SplitsSoundly (engine : Engine) (script : String) : Prop where
  runs : splitBytes script engine = some (splitStatements script engine)
  covers : Covers (Outside (engine = .mysql) script.toList) script.toList
    ((splitStatements script engine).map String.toList)
  effective : ∀ p ∈ splitStatements script engine, ¬ Commentary (engine = .mysql) p.toList
  resplit : ∀ p ∈ splitStatements script engine, splitStatements p engine = [p]

/-- Where a segment has only comments and white space, the white space is ASCII. -/
def AsciiBlanks (engine : Engine) (script : String) : Prop :=
  ∀ seg ∈ (scanner (engine = .mysql)).texts ';' script.toList,
    Commentary (engine = .mysql) (trim seg) →
      ∀ c tail, c :: tail <:+ trim seg →
        IsAscii c ∨ InComment (engine = .mysql) (trim seg) (c :: tail)

/-! ### White space and comments -/

variable {bs : Bool}

theorem ne_of_isWhitespace {c : Char} (hc : isWhitespace c = true) {a : Char}
    (ha : isWhitespace a = false) : c ≠ a := by
  rintro rfl
  rw [ha] at hc
  cases hc

theorem len_of_isWhitespace {c : Char} (hc : isWhitespace c = true) (cs : List Char) :
    (scanner bs).len (c :: cs) = 1 := by
  have hne := fun {a : Char} => ne_of_isWhitespace hc (a := a)
  refine advance_of_not_opens ?_
  simp only [Opens, hne (a := '\'') (by decide), hne (a := '"') (by decide),
    hne (a := ';') (by decide), hne (a := '-') (by decide), hne (a := '/') (by decide),
    hne (a := '$') (by decide), false_and, or_self, not_false_eq_true]

theorem not_commentStart_of_isWhitespace {c : Char} (hc : isWhitespace c = true) (cs : List Char) :
    ¬ CommentStart (c :: cs) := by
  rw [commentStart_iff]
  rintro (⟨rfl, -⟩ | ⟨rfl, -⟩) <;> cases hc

theorem positions_white {c : Char} (hc : isWhitespace c = true) (cs : List Char) :
    (scanner bs).positions (c :: cs) = (c :: cs) :: (scanner bs).positions cs := by
  rw [positions_cons, len_of_isWhitespace hc]
  rfl

theorem mem_positions_white {w : List Char} (hw : ∀ c ∈ w, isWhitespace c = true) {s x : List Char}
    (h : s ∈ (scanner bs).positions x) : s ∈ (scanner bs).positions (w ++ x) := by
  induction w with
  | nil => exact h
  | cons c w ih =>
    rw [List.cons_append, positions_white (hw c List.mem_cons_self)]
    exact List.mem_cons_of_mem _ (ih fun c hc => hw c (List.mem_cons_of_mem _ hc))

/-- The scanner and `strip_comments` read comments alike. -/
theorem len_comment (bs : Bool) {s : List Char} (h : CommentStart s) :
    (scanner bs).len s = stripper.len s := by
  rcases h with ⟨t, rfl⟩ | ⟨t, rfl⟩
  · show advance bs ('-' :: '-' :: t) = lineLen ('-' :: '-' :: t)
    rw [advance, if_neg (by decide), if_pos ⟨rfl, rfl⟩]
  · show advance bs ('/' :: '*' :: t) = 2 + blockLen t
    rw [advance, if_neg (by decide), if_neg (by simp), if_pos ⟨rfl, rfl⟩]
    rfl

theorem stripComments_comment {s : List Char} (h : CommentStart s) :
    stripComments s = stripComments (s.drop (stripper.len s)) := by
  rcases h with ⟨t, rfl⟩ | ⟨t, rfl⟩
  · exact stripComments_line t
  · rw [List.cons_append, List.cons_append, List.nil_append, stripComments_block]
    show _ = stripComments (('/' :: '*' :: t).drop (2 + blockLen t))
    rw [Nat.add_comm 2]
    rfl

theorem effective_comment_iff {s : List Char} (h : CommentStart s) :
    Effective s ↔ Effective (s.drop (stripper.len s)) := by
  rw [Effective, stripComments_comment h, Effective]

theorem effective_white_iff {c : Char} {cs : List Char} (hc : isWhitespace c = true) :
    Effective (c :: cs) ↔ ¬ IsAscii c ∨ Effective cs := by
  rw [Effective, stripComments_cons (not_commentStart_of_isWhitespace hc cs)]
  by_cases hascii : IsAscii c
  · have hlatin : latin1 c = [c] := by
      rw [latin1, utf8EncodeChar_of_isAscii hascii, List.map_singleton, toNat_toUInt8 hascii,
        Char.ofNat_toNat]
    simp [hlatin, hc, hascii, Effective]
  · obtain ⟨e, he, hwhite⟩ := exists_mem_latin1_of_lt (c := c) (by rw [IsAscii] at hascii; omega)
    simp only [hascii, not_false_eq_true, true_or, iff_true]
    exact ⟨e, List.mem_append_left _ he, hwhite⟩

/-! ### Segments that are commentary -/

/-- Commentary, token by token. -/
theorem commentary_iff {text : List Char} : Commentary bs text ↔
    ∀ c tail, c :: tail ∈ (scanner bs).positions text →
      CommentStart (c :: tail) ∨ isWhitespace c = true := by
  constructor
  · intro h c tail hmem
    rcases h c tail (suffix_of_mem_positions hmem) with hwhite | ⟨s, hs, hstart, n, hn, hdrop⟩
    · exact .inr hwhite
    · exact .inl (eq_of_mem_positions hs hmem (List.cons_ne_nil _ _) hdrop hn ▸ hstart)
  · intro h c tail hsuffix
    obtain ⟨s, hs, n, hn, hdrop⟩ := exists_token (L := scanner bs) hsuffix
    cases s with
    | nil => simp at hdrop
    | cons a l =>
      rcases h a l hs with hstart | hwhite
      · exact .inr ⟨_, hs, hstart, n, hn, hdrop⟩
      · rw [len_of_isWhitespace hwhite] at hn
        obtain rfl : n = 0 := by omega
        injection hdrop with ha
        exact .inl (ha ▸ hwhite)

/-- In commentary the places outside comments are the tokens of white space. -/
theorem not_inComment_iff {text tail : List Char} {c : Char} (h : Commentary bs text)
    (hsuffix : c :: tail <:+ text) : ¬ InComment bs text (c :: tail) ↔
      c :: tail ∈ (scanner bs).positions text ∧ ¬ CommentStart (c :: tail) := by
  constructor
  · intro hout
    obtain ⟨s, hs, n, hn, hdrop⟩ := exists_token (L := scanner bs) hsuffix
    have hstart : ¬ CommentStart s := fun hstart => hout ⟨s, hs, hstart, n, hn, hdrop⟩
    cases s with
    | nil => simp at hdrop
    | cons a l =>
      have hwhite := (commentary_iff.1 h a l hs).resolve_left hstart
      rw [len_of_isWhitespace hwhite] at hn
      obtain rfl : n = 0 := by omega
      rw [List.drop_zero] at hdrop
      rw [← hdrop]
      exact ⟨hs, hstart⟩
  · rintro ⟨hmem, hstart⟩ ⟨s, hs, hstart', n, hn, hdrop⟩
    exact hstart (eq_of_mem_positions hs hmem (List.cons_ne_nil _ _) hdrop hn ▸ hstart')

theorem not_effective_nil : ¬ Effective [] := by
  rintro ⟨e, he, -⟩
  cases he

/-- `strip_comments` leaves something of commentary exactly for a token of white space that is not
ASCII. The induction is on the tokens, which it meets one by one. -/
theorem effective_iff_exists_token {text : List Char}
    (h : ∀ c tail, c :: tail ∈ (scanner bs).positions text →
      CommentStart (c :: tail) ∨ isWhitespace c = true) :
    Effective text ↔ ∃ c tail, c :: tail ∈ (scanner bs).positions text ∧
      ¬ CommentStart (c :: tail) ∧ ¬ IsAscii c := by
  induction text using (scanner bs).ind with
  | nil =>
    simp only [positions_nil, List.not_mem_nil, false_and, exists_false, iff_false]
    exact not_effective_nil
  | token a l ih =>
    rw [positions_cons] at h ⊢
    have ih := ih fun c tail hmem => h c tail (List.mem_cons_of_mem _ hmem)
    by_cases hstart : CommentStart (a :: l)
    · rw [effective_comment_iff hstart, ← len_comment bs hstart, ih]
      constructor
      · rintro ⟨c, tail, hmem, hout⟩
        exact ⟨c, tail, List.mem_cons_of_mem _ hmem, hout⟩
      · rintro ⟨c, tail, hmem, hnot, hc⟩
        rcases List.mem_cons.1 hmem with heq | hmem
        · exact absurd (heq ▸ hstart) hnot
        · exact ⟨c, tail, hmem, hnot, hc⟩
    · have hwhite := (h a l List.mem_cons_self).resolve_left hstart
      have hdrop : (a :: l).drop ((scanner bs).len (a :: l)) = l := by
        rw [len_of_isWhitespace hwhite]
        rfl
      rw [hdrop] at ih ⊢
      rw [effective_white_iff hwhite, ih]
      constructor
      · rintro (ha | ⟨c, tail, hmem, hout⟩)
        · exact ⟨a, l, List.mem_cons_self, hstart, ha⟩
        · exact ⟨c, tail, List.mem_cons_of_mem _ hmem, hout⟩
      · rintro ⟨c, tail, hmem, hnot, hc⟩
        rcases List.mem_cons.1 hmem with heq | hmem
        · injection heq with hca
          exact .inl (hca ▸ hc)
        · exact .inr ⟨c, tail, hmem, hnot, hc⟩

/-- Commentary is taken for a statement exactly for its white space that is not ASCII. -/
theorem Commentary.effective_iff {text : List Char} (h : Commentary bs text) :
    Effective text ↔
      ¬ ∀ c tail, c :: tail <:+ text → IsAscii c ∨ InComment bs text (c :: tail) := by
  rw [effective_iff_exists_token (commentary_iff.1 h)]
  push Not
  constructor
  · rintro ⟨c, tail, hmem, hstart, hc⟩
    have hsuffix := suffix_of_mem_positions hmem
    exact ⟨c, tail, hsuffix, hc, (not_inComment_iff h hsuffix).2 ⟨hmem, hstart⟩⟩
  · rintro ⟨c, tail, hsuffix, hc, hout⟩
    obtain ⟨hmem, hstart⟩ := (not_inComment_iff h hsuffix).1 hout
    exact ⟨c, tail, hmem, hstart, hc⟩

theorem pushStatement_eq_some {raw : List Char} {p : String} (h : pushStatement raw = some p) :
    p.toList = trim raw ∧ trim raw ≠ [] ∧ Effective (trim raw) := by
  simp only [pushStatement, Option.ite_none_right_eq_some, Option.some.injEq] at h
  obtain ⟨⟨hne, heffective⟩, rfl⟩ := h
  refine ⟨String.toList_ofList, hne, ?_⟩
  simp only [isEffective, decide_not, Bool.not_eq_eq_eq_not, Bool.not_true,
    decide_eq_false_iff_not] at heffective
  exact trim_ne_nil.1 heffective

theorem pushStatement_of_effective {raw : List Char} (h : Effective (trim raw)) :
    pushStatement raw = some (String.ofList (trim raw)) := by
  obtain ⟨p, hp⟩ := Option.ne_none_iff_exists'.1 (pushStatement_ne_none h)
  rw [hp, ← (pushStatement_eq_some hp).1, String.ofList_toList]

/-! ### What is dropped -/

/-- A text all of whose places are outside. -/
theorem Covers.skip {out : List Char → Prop} {w rest : List Char} {parts : List (List Char)}
    (hw : ∀ a c b, w = a ++ c :: b → out (c :: b ++ rest)) (h : Covers out rest parts) :
    Covers out (w ++ rest) parts := by
  induction w with
  | nil => exact h
  | cons c w ih =>
    refine .outside (hw [] c w rfl) (ih fun a d b hsplit => ?_)
    exact hw (c :: a) d b (by rw [hsplit, List.cons_append])

theorem Covers.white {script w rest : List Char} {parts : List (List Char)}
    (hw : ∀ c ∈ w, isWhitespace c = true) (h : Covers (Outside bs script) rest parts) :
    Covers (Outside bs script) (w ++ rest) parts := by
  refine h.skip ?_
  rintro a c b rfl
  exact .inl ⟨c, rfl, hw c (by simp)⟩

theorem CommentStart.append {u : List Char} (h : CommentStart u) (v : List Char) :
    CommentStart (u ++ v) :=
  h.imp (·.trans (List.prefix_append u v)) (·.trans (List.prefix_append u v))

/-- What follows a comment that has ended does not matter. -/
theorem stripper_len_append {u : List Char} (h : CommentStart u)
    (hlen : stripper.len u < u.length) (v : List Char) :
    stripper.len (u ++ v) = stripper.len u := by
  rcases h with ⟨t, rfl⟩ | ⟨t, rfl⟩
  · exact lineLen_append_of_lt hlen v
  · have hlt : blockLen t < t.length := by
      simp only [List.cons_append, List.nil_append, List.length_cons] at hlen
      have hblock : 2 + blockLen t < t.length + 1 + 1 := hlen
      omega
    exact congrArg (2 + ·) (blockLen_append_of_lt hlt v)

/-- A comment goes on at least as far in a longer text. -/
theorem stripper_len_le_append {u : List Char} (h : CommentStart u) (v : List Char) :
    stripper.len u ≤ stripper.len (u ++ v) := by
  rcases h with ⟨t, rfl⟩ | ⟨t, rfl⟩
  · exact lineLen_le_append _ v
  · exact Nat.add_le_add_left (blockLen_le_append t v) 2

theorem len_stripper {c : Char} {cs : List Char} (h : ¬ CommentStart (c :: cs)) :
    stripper.len (c :: cs) = 1 := by
  show stripAdvance (c :: cs) = 1
  unfold stripAdvance
  split <;> simp_all [CommentStart]

/-- The scanner meets only comments and white space in a text without anything to execute,
whatever follows. The induction is on what `strip_comments` meets. -/
theorem token_of_not_effective {p rest tail : List Char} {c : Char} (hp : ¬ Effective p)
    (hmem : c :: tail ∈ (scanner bs).positions (p ++ rest))
    (hlt : rest.length < (c :: tail).length) :
    CommentStart (c :: tail) ∨ isWhitespace c = true := by
  induction p using stripper.ind with
  | nil =>
    have hle := (suffix_of_mem_positions hmem).length_le
    rw [List.nil_append] at hle
    omega
  | token a l ih =>
    rw [List.cons_append, positions_cons, ← List.cons_append] at hmem
    by_cases hstart : CommentStart (a :: l)
    · have hstart' := hstart.append rest
      have hlen := len_comment bs hstart'
      rcases List.mem_cons.1 hmem with heq | hmem
      · rw [heq]
        exact .inl hstart'
      by_cases hend : stripper.len (a :: l) < (a :: l).length
      · rw [hlen, stripper_len_append hstart hend,
          List.drop_append_of_le_length hend.le] at hmem
        exact ih (by rwa [← effective_comment_iff hstart]) hmem
      · -- the comment takes all of the text, and what follows is too short
        have hle := (suffix_of_mem_positions hmem).length_le
        have hmore := stripper_len_le_append hstart rest
        rw [List.length_drop, List.length_append] at hle
        omega
    · have hwhite : isWhitespace a = true := by
        by_contra hblack
        exact hp (effective_cons (by simpa using hblack) hstart)
      rw [List.cons_append, len_of_isWhitespace hwhite] at hmem
      rcases List.mem_cons.1 hmem with heq | hmem
      · injection heq with hc
        exact .inr (hc ▸ hwhite)
      · rw [len_stripper hstart] at ih
        rw [effective_white_iff hwhite] at hp
        exact ih (by tauto) hmem

/-- Such a text is outside. -/
theorem covers_of_not_effective {script p rest : List Char} {parts : List (List Char)}
    (hp : ¬ Effective p) (hpos : (scanner bs).positions (p ++ rest) ⊆ (scanner bs).positions script)
    (h : Covers (Outside bs script) rest parts) : Covers (Outside bs script) (p ++ rest) parts := by
  refine h.skip fun a c b hsplit => ?_
  have hsuffix : c :: (b ++ rest) <:+ p ++ rest := ⟨a, by rw [hsplit]; simp⟩
  obtain ⟨s, hs, n, hn, hdrop⟩ := exists_token (L := scanner bs) hsuffix
  cases s with
  | nil => simp at hdrop
  | cons e t =>
    have hlt : rest.length < (e :: t).length := by
      have hlength := congrArg List.length hdrop
      simp only [List.length_drop, List.length_cons, List.length_append] at hlength ⊢
      omega
    rcases token_of_not_effective hp hs hlt with hstart | hwhite
    · exact .inr (.inr ⟨_, hpos hs, hstart, n, hn, hdrop⟩)
    · rw [len_of_isWhitespace hwhite] at hn
      obtain rfl : n = 0 := by omega
      injection hdrop with hc
      exact .inl ⟨c, rfl, hc ▸ hwhite⟩

/-! ### Reading a statement on its own -/

theorem quoteLen_append_of_lt {q : Char} {cs : List Char} (h : quoteLen bs q cs < cs.length)
    (rest : List Char) : quoteLen bs q (cs ++ rest) = quoteLen bs q cs := by
  fun_induction quoteLen bs q cs with
  | case1 => cases h
  | case2 => cases Nat.lt_irrefl 1 h
  | case3 c d cs hslash ih =>
    simp only [List.length_cons] at h
    rw [List.cons_append, List.cons_append, quoteLen, if_pos hslash, ih (by omega)]
  | case4 cs hslash ih =>
    simp only [List.length_cons] at h
    rw [List.cons_append, List.cons_append, quoteLen, if_neg hslash, if_pos rfl, if_pos rfl,
      ih (by omega)]
  | case5 d cs hslash hdq =>
    rw [List.cons_append, List.cons_append, quoteLen, if_neg hslash, if_pos rfl, if_neg hdq]
  | case6 c d cs hslash hcq ih =>
    simp only [List.length_cons] at h ih
    rw [List.cons_append, List.cons_append, quoteLen, if_neg hslash, if_neg hcq]
    exact congrArg (1 + ·) (ih (by omega))

theorem tagLen_le_of_lt {tag cs : List Char} (h : tagLen tag cs < cs.length) :
    tag.length ≤ cs.length := by
  fun_induction tagLen tag cs with
  | case1 => cases h
  | case2 => exact h.le
  | case3 c cs hopen ih =>
    simp only [List.length_cons] at h ⊢
    have := ih (by omega)
    omega

theorem tagLen_append_of_lt {tag cs : List Char} (h : tagLen tag cs < cs.length)
    (rest : List Char) : tagLen tag (cs ++ rest) = tagLen tag cs := by
  fun_induction tagLen tag cs with
  | case1 => cases h
  | case2 c cs hclose =>
    rw [List.isPrefixOf_iff_prefix] at hclose
    rw [List.cons_append, tagLen, if_pos]
    rw [← List.cons_append, List.isPrefixOf_iff_prefix]
    exact hclose.trans (List.prefix_append _ _)
  | case3 c cs hopen ih =>
    simp only [List.length_cons] at h
    have hle : tag.length ≤ cs.length := tagLen_le_of_lt (by omega)
    have hopen' : ¬ tag.isPrefixOf (c :: (cs ++ rest)) := by
      rw [← List.cons_append, List.isPrefixOf_iff_prefix] at *
      intro hprefix
      exact hopen (List.prefix_of_prefix_length_le hprefix (List.prefix_append _ _)
        (by rw [List.length_cons]; omega))
    rw [List.cons_append, tagLen, if_neg hopen', ih (by omega)]

theorem dollarTagLen_append_of_lt {cs : List Char}
    (h : (cs.takeWhile isTagChar).length < cs.length) (rest : List Char) :
    dollarTagLen ('$' :: cs ++ rest) = dollarTagLen ('$' :: cs) := by
  have hlt : 1 + (cs.takeWhile isTagChar).length < ('$' :: cs).length := by
    rw [List.length_cons]
    omega
  have hne : ('$' :: cs).drop (1 + (cs.takeWhile isTagChar).length) ≠ [] := by
    rw [Ne, List.drop_eq_nil_iff]
    omega
  simp only [dollarTagLen, List.cons_append, List.drop_succ_cons, List.drop_zero,
    takeWhile_append_of_lt h rest]
  rw [← List.cons_append, List.drop_append_of_le_length hlt.le, List.head?_append_of_ne_nil _ hne]

/-- A token that ends inside a text is the same in a longer text, or the text is the beginning of
a dollar tag. -/
theorem advance_append_of_lt {c : Char} {cs : List Char}
    (h : advance bs (c :: cs) < (c :: cs).length) (rest : List Char) :
    advance bs (c :: cs ++ rest) = advance bs (c :: cs) ∨
      c = '$' ∧ ∀ e ∈ cs, isTagChar e = true := by
  have hne : cs ≠ [] := by
    rintro rfl
    have hpos := (scanner bs).len_pos c []
    have hlen : (scanner bs).len [c] = advance bs [c] := rfl
    rw [List.length_singleton] at h
    omega
  have hhead : (cs ++ rest).head? = cs.head? := List.head?_append_of_ne_nil _ hne
  rw [List.length_cons] at h
  rw [List.cons_append, advance, hhead]
  rw [advance] at h ⊢
  by_cases hquote : c = '\'' ∨ c = '"'
  · rw [if_pos hquote] at h ⊢
    rw [if_pos hquote, quoteLen_append_of_lt (by omega)]
    exact .inl rfl
  rw [if_neg hquote] at h ⊢
  rw [if_neg hquote]
  by_cases hline : c = '-' ∧ cs.head? = some '-'
  · rw [if_pos hline] at h ⊢
    rw [if_pos hline, ← List.cons_append, lineLen_append_of_lt (by rwa [List.length_cons])]
    exact .inl rfl
  rw [if_neg hline] at h ⊢
  rw [if_neg hline]
  by_cases hblock : c = '/' ∧ cs.head? = some '*'
  · rw [if_pos hblock] at h ⊢
    obtain ⟨d, cs, rfl⟩ := List.exists_cons_of_ne_nil hne
    rw [List.length_cons, List.drop_succ_cons, List.drop_zero] at h
    rw [if_pos hblock, List.cons_append, List.drop_succ_cons, List.drop_succ_cons, List.drop_zero,
      List.drop_zero, blockLen_append_of_lt (by omega)]
    exact .inl rfl
  rw [if_neg hblock] at h ⊢
  rw [if_neg hblock]
  by_cases hdollar : c = '$'
  · subst hdollar
    rw [if_pos rfl] at h ⊢
    rw [if_pos rfl]
    by_cases htag : (cs.takeWhile isTagChar).length < cs.length
    · have hsame := dollarTagLen_append_of_lt htag rest
      rw [List.cons_append] at hsame
      rw [hsame]
      cases hlen : dollarTagLen ('$' :: cs) with
      | none => exact .inl rfl
      | some n =>
        rw [hlen] at h
        dsimp only at h ⊢
        have hle := dollarTagLen_le hlen
        have hlt : tagLen (('$' :: cs).take n) (('$' :: cs).drop n) <
            (('$' :: cs).drop n).length := by
          rw [List.length_drop, List.length_cons]
          omega
        rw [← List.cons_append, List.take_append_of_le_length hle,
          List.drop_append_of_le_length hle, tagLen_append_of_lt hlt]
        exact .inl rfl
    · have hall : cs.takeWhile isTagChar = cs :=
        (List.takeWhile_prefix _).eq_of_length_le (by omega)
      rw [← hall]
      exact .inr ⟨rfl, fun e he => List.mem_takeWhile_imp he⟩
  · rw [if_neg hdollar, if_neg hdollar]
    exact .inl rfl

/-- A semicolon the scanner meets in a text it also meets when the text goes on: a token that does
not end in the text covers all that is left of it. -/
theorem append_mem_positions {u s : List Char} (hs : s ∈ (scanner bs).positions u)
    (hsemi : s.head? = some ';') (v : List Char) :
    s ++ v ∈ (scanner bs).positions (u ++ v) := by
  induction u using (scanner bs).ind with
  | nil => cases hs
  | token c l ih =>
    rw [List.cons_append, positions_cons, ← List.cons_append]
    rw [positions_cons] at hs
    rcases List.mem_cons.1 hs with rfl | hs
    · exact List.mem_cons_self
    · have hsuffix := suffix_of_mem_positions hs
      obtain ⟨t, rfl⟩ := List.head?_eq_some_iff.1 hsemi
      have hlt : (scanner bs).len (c :: l) < (c :: l).length := by
        by_contra hge
        have hnil : (c :: l).drop ((scanner bs).len (c :: l)) = [] :=
          List.drop_eq_nil_of_le (not_lt.1 hge)
        rw [hnil] at hs
        cases hs
      rcases advance_append_of_lt hlt v with hlen | ⟨rfl, htag⟩
      · have hrest := ih hs
        rw [← List.drop_append_of_le_length hlt.le] at hrest
        have hscan : (scanner bs).len (c :: l ++ v) = (scanner bs).len (c :: l) := hlen
        rw [hscan]
        exact List.mem_cons_of_mem _ hrest
      · have hmem : ';' ∈ l := by
          have hpos := (scanner bs).len_pos '$' l
          obtain ⟨n, hn⟩ : ∃ n, (scanner bs).len ('$' :: l) = n + 1 :=
            ⟨_, (Nat.sub_add_cancel hpos).symm⟩
          rw [hn, List.drop_succ_cons] at hsuffix
          exact List.mem_of_mem_drop (hsuffix.subset List.mem_cons_self)
        exact absurd (htag _ hmem) (by decide)

/-! ### One segment -/

theorem trim_spec (raw : List Char) : ∃ w w', raw = w ++ trim raw ++ w' ∧
    (∀ c ∈ w, isWhitespace c = true) ∧ ∀ c ∈ w', isWhitespace c = true := by
  refine ⟨raw.takeWhile isWhitespace, (raw.dropWhile isWhitespace).rtakeWhile isWhitespace, ?_,
    fun c hc => List.mem_takeWhile_imp hc, fun c hc => List.mem_rtakeWhile_imp hc⟩
  rw [trim_eq_rdropWhile, List.append_assoc, List.rdropWhile_append_rtakeWhile,
    List.takeWhile_append_dropWhile]

theorem trim_trim (raw : List Char) : trim (trim raw) = trim raw := by
  have hdrop : (trim raw).dropWhile isWhitespace = trim raw := by
    cases htrim : trim raw with
    | nil => rfl
    | cons c t =>
      have hprefix := List.rdropWhile_prefix isWhitespace (raw.dropWhile isWhitespace)
      rw [← trim_eq_rdropWhile, htrim] at hprefix
      have hhead : (raw.dropWhile isWhitespace).head? = some c := by
        obtain ⟨v, hv⟩ := hprefix
        rw [← hv]
        rfl
      have hne : raw.dropWhile isWhitespace ≠ [] := by
        intro hnil
        rw [hnil] at hhead
        cases hhead
      have hblack := List.head_dropWhile_not isWhitespace hne
      rw [List.head?_eq_some_head hne, Option.some.injEq] at hhead
      rw [hhead] at hblack
      rw [List.dropWhile_cons_of_neg (by simp [hblack])]
  rw [trim_eq_rdropWhile, hdrop, trim_eq_rdropWhile, List.rdropWhile_idempotent]

/-- The statement of a segment, or all of the segment, is outside. -/
theorem covers_segment {script l r : List Char} {tokens parts : List (List Char)}
    (hrun : Run (scanner bs) tokens l r)
    (hpos : (scanner bs).positions l ⊆ (scanner bs).positions script)
    (h : Covers (Outside bs script) r parts) : Covers (Outside bs script) l
      ((pushStatement ((scanner bs).text tokens)).toList.map String.toList ++ parts) := by
  have htext := hrun.text_append
  generalize (scanner bs).text tokens = seg at htext ⊢
  obtain ⟨w, w', hseg, hw, hw'⟩ := trim_spec seg
  have hbehind := h.white hw'
  have hl : l = w ++ (trim seg ++ (w' ++ r)) := by
    rw [← htext]
    nth_rewrite 1 [hseg]
    simp only [List.append_assoc]
  rw [hl]
  refine .white hw ?_
  cases hpush : pushStatement seg with
  | some p =>
    rw [Option.toList_some, List.map_singleton, (pushStatement_eq_some hpush).1]
    exact .part hbehind
  | none =>
    rw [Option.toList_none, List.map_nil, List.nil_append]
    refine covers_of_not_effective (fun heffective => pushStatement_ne_none heffective hpush) ?_
      hbehind
    intro s hs
    rw [hl] at hpos
    exact hpos (mem_positions_white hw hs)

/-- Read on its own, the statement of a segment has no semicolon that ends it. -/
theorem not_semicolon_of_segment {l r : List Char} {tokens : List (List Char)}
    (hrun : Run (scanner bs) tokens l r) (htokens : ∀ s ∈ tokens, s.head? ≠ some ';') :
    ∀ s ∈ (scanner bs).positions (trim ((scanner bs).text tokens)), s.head? ≠ some ';' := by
  intro s hs hsemi
  have htext := hrun.text_append
  generalize (scanner bs).text tokens = seg at htext hs
  obtain ⟨w, w', hseg, hw, hw'⟩ := trim_spec seg
  have hl : l = w ++ (trim seg ++ (w' ++ r)) := by
    rw [← htext]
    nth_rewrite 1 [hseg]
    simp only [List.append_assoc]
  have hmem := mem_positions_white hw (append_mem_positions hs hsemi (w' ++ r))
  rw [← hl, hrun.positions_eq] at hmem
  rcases List.mem_append.1 hmem with hmem | hmem
  · refine htokens _ hmem ?_
    obtain ⟨t, rfl⟩ := List.head?_eq_some_iff.1 hsemi
    rfl
  · have hle := (suffix_of_mem_positions hmem).length_le
    obtain ⟨t, rfl⟩ := List.head?_eq_some_iff.1 hsemi
    simp only [List.length_append, List.length_cons] at hle
    omega

/-! ### Main results -/

theorem covers_splitStatements (bs : Bool) (script : List Char) :
    Covers (Outside bs script) script
      ((((scanner bs).texts ';' script).filterMap pushStatement).map String.toList) := by
  have hall : ∀ l, (scanner bs).positions l ⊆ (scanner bs).positions script →
      Covers (Outside bs script) l
        ((((scanner bs).texts ';' l).filterMap pushStatement).map String.toList) := by
    intro l
    induction hn : l.length using Nat.strong_induction_on generalizing l with
    | _ n ih =>
      intro hpos
      obtain ⟨first, r, hrun, -, hend⟩ := segments_first (len_scanner_semicolon bs) l
      have hlist : ∀ rest : List (List Char), ((((scanner bs).text first :: rest).filterMap
          pushStatement).map String.toList) =
            (pushStatement ((scanner bs).text first)).toList.map String.toList ++
              (rest.filterMap pushStatement).map String.toList := by
        intro rest
        cases hpush : pushStatement ((scanner bs).text first) <;> simp [hpush]
      rcases hend with ⟨rfl, hsegs⟩ | ⟨r', rfl, hsegs⟩
      · rw [texts, hsegs, List.map_singleton, hlist]
        exact covers_segment hrun hpos .nil
      · have hpositions := hrun.positions_eq
        rw [positions_cons, len_scanner_semicolon, List.drop_succ_cons, List.drop_zero]
          at hpositions
        have hpos' := hpos
        rw [hpositions] at hpos'
        have hlength := congrArg List.length hrun.text_append
        rw [List.length_append, List.length_cons] at hlength
        rw [texts, hsegs, List.map_cons, hlist]
        refine covers_segment hrun hpos (.outside (.inr (.inl ⟨rfl, hpos' ?_⟩)) ?_)
        · simp
        · refine ih r'.length (by omega) r' rfl fun s hs => hpos' ?_
          simp [hs]
  exact hall script fun _ h => h

theorem mem_splitStatements {engine : Engine} {script p : String}
    (h : p ∈ splitStatements script engine) :
    ∃ seg ∈ (scanner (engine = .mysql)).texts ';' script.toList, p.toList = trim seg ∧
      Effective (trim seg) := by
  obtain ⟨seg, hseg, hpush⟩ := List.mem_filterMap.1 h
  obtain ⟨hp, -, heffective⟩ := pushStatement_eq_some hpush
  exact ⟨seg, hseg, hp, heffective⟩

/-- Splitting a statement again gives that statement. -/
theorem splitStatements_of_mem {engine : Engine} {script p : String}
    (h : p ∈ splitStatements script engine) : splitStatements p engine = [p] := by
  obtain ⟨seg, hseg, hp, heffective⟩ := mem_splitStatements h
  obtain ⟨tokens, htokens, rfl⟩ := List.mem_map.1 hseg
  obtain ⟨⟨l, r, hrun⟩, hmem⟩ := run_of_mem_segments (len_scanner_semicolon _) htokens
  have hone := texts_eq_singleton (not_semicolon_of_segment hrun fun s hs => (hmem s hs).2)
  rw [← hp] at hone heffective
  have htrim : trim p.toList = p.toList := by rw [hp, trim_trim]
  have hpush : pushStatement p.toList = some (String.ofList (trim p.toList)) :=
    pushStatement_of_effective (by rwa [htrim])
  rw [htrim, String.ofList_toList] at hpush
  rw [splitStatements, splitStatementsImpl, hone, List.filterMap_cons, hpush]
  rfl

/-- **A script is split soundly** exactly when no segment of comments and white space has white
space outside its comments that is not ASCII. -/
theorem splitsSoundly_iff (engine : Engine) (script : String) :
    SplitsSoundly engine script ↔ AsciiBlanks engine script := by
  constructor
  · intro h seg hseg hcomment
    by_contra hblank
    have heffective := hcomment.effective_iff.2 hblank
    have hmem : String.ofList (trim seg) ∈ splitStatements script engine :=
      List.mem_filterMap.2 ⟨seg, hseg, pushStatement_of_effective heffective⟩
    refine h.effective _ hmem ?_
    rwa [String.toList_ofList]
  · intro h
    refine ⟨splitBytes_eq script engine, covers_splitStatements _ _, ?_,
      fun p => splitStatements_of_mem⟩
    intro p hp hcomment
    obtain ⟨seg, hseg, hp, heffective⟩ := mem_splitStatements hp
    rw [hp] at hcomment
    exact hcomment.effective_iff.1 heffective (h seg hseg hcomment)

/-- A no-break space between two comments makes a statement of them. -/
theorem not_splitsSoundly_noBreakSpace :
    splitStatements "/*a*/\u00A0/*b*/" .postgres = ["/*a*/\u00A0/*b*/"] ∧
      ¬ SplitsSoundly .postgres "/*a*/\u00A0/*b*/" := by
  have hsplit : splitStatements "/*a*/\u00A0/*b*/" .postgres = ["/*a*/\u00A0/*b*/"] := by
    decide +kernel
  refine ⟨hsplit, fun h => ?_⟩
  refine h.effective _ (by rw [hsplit]; exact List.mem_singleton_self _) ?_
  rw [commentary_iff]
  have hpositions : (scanner (Engine.postgres = .mysql)).positions "/*a*/\u00A0/*b*/".toList =
      ["/*a*/\u00A0/*b*/".toList, "\u00A0/*b*/".toList, "/*b*/".toList] := by decide +kernel
  intro c tail hmem
  rw [hpositions] at hmem
  simp only [List.mem_cons, List.not_mem_nil, or_false] at hmem
  rcases hmem with hmem | hmem | hmem
  · rw [hmem]
    exact .inl (.inr (by decide +kernel))
  · have hc : some c = some '\u00A0' := congrArg List.head? hmem
    rw [Option.some.inj hc]
    exact .inr (by decide)
  · rw [hmem]
    exact .inl (.inr (by decide +kernel))

end SqlScript
end AgentDb
