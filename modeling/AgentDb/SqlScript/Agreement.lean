import AgentDb.SqlScript.Dialect

/-!
# When a script is split right

`SplitsRight` is what `splitStatements` is for: the scanner cuts a script exactly at the
semicolons the engine sees, and a segment it drops holds nothing but white space and comments.
`SameRule` says of one token of the engine that the scanner has the same rule for it; the main
result, `splitsRight_of_sameRule`, needs it of every token of the script. The scanner then steps
over each token (`stepsOver_token`), and `strip_comments` meets the first character of the first
token that is no comment (`pushStatement_ne_none`).
-/

namespace AgentDb
namespace SqlScript

open Lexing Lexer

/-! ### What a token can be -/

/-- The kinds of token the scanner has no rule for. -/
def plainKinds : List Kind := [.hashComment, .name, .word, .variable, .other]

/-- The tokens of an engine, by the rule that ends them. -/
inductive IsToken (d : Dialect) : List Char → Token → Prop
  | blank {c : Char} {cs : List Char} (hc : isBlankChar d c) : IsToken d (c :: cs) ⟨.blank, 1⟩
  | semicolon (cs : List Char) : IsToken d (';' :: cs) ⟨.semicolon, 1⟩
  | quoted {c : Char} {cs : List Char} (hc : c = '\'' ∨ c = '"') :
      IsToken d (c :: cs) ⟨.quoted, 1 + quoteLen (d = .mysql) c cs⟩
  | postgresLine {cs : List Char} (hd : d = .postgres) :
      IsToken d ('-' :: '-' :: cs) ⟨.lineComment, postgresLineLen ('-' :: '-' :: cs)⟩
  | line {cs : List Char} (hd : d ≠ .postgres) :
      IsToken d ('-' :: '-' :: cs) ⟨.lineComment, lineLen ('-' :: '-' :: cs)⟩
  | postgresBlock {cs : List Char} (hd : d = .postgres) :
      IsToken d ('/' :: '*' :: cs) ⟨.blockComment, 2 + nestedLen 0 cs⟩
  | block {cs : List Char} (hd : d ≠ .postgres) :
      IsToken d ('/' :: '*' :: cs) ⟨.blockComment, 2 + blockLen cs⟩
  | executable {cs : List Char} {n : ℕ} :
      IsToken d ('/' :: '*' :: cs) ⟨.executableComment, 2 + n⟩
  | escapeString {c : Char} {cs : List Char} (hd : d = .postgres) (hc : c = 'e' ∨ c = 'E') :
      IsToken d (c :: '\'' :: cs) ⟨.escapeString, 2 + quoteLen true '\'' cs⟩
  | dollarBody {cs : List Char} {n : ℕ} (hd : d = .postgres)
      (hn : postgresTagLen ('$' :: cs) = some n) : IsToken d ('$' :: cs)
        ⟨.dollarBody, n + tagLen (('$' :: cs).take n) (('$' :: cs).drop n)⟩
  | plain {kind : Kind} {c : Char} {cs : List Char} {n : ℕ} (hkind : kind ∈ plainKinds)
      (hn : n ≤ cs.length) : IsToken d (c :: cs) ⟨kind, 1 + n⟩

theorem quoteLen_le (bs : Bool) (q : Char) (cs : List Char) : quoteLen bs q cs ≤ cs.length := by
  fun_induction quoteLen bs q cs <;> simp only [List.length_cons, List.length_nil] at * <;> omega

theorem run_le (p : Char → Bool) (cs : List Char) : run p cs ≤ cs.length :=
  (List.takeWhile_prefix p).length_le

theorem postgresNumberLen_le (cs : List Char) : postgresNumberLen cs ≤ cs.length := by
  have hdigits := run_le Char.isDigit cs
  have hname := run_le identCont (cs.drop (run Char.isDigit cs))
  rw [List.length_drop] at hname
  simp only [postgresNumberLen]
  split_ifs <;> omega

theorem bracketLen_le (cs : List Char) : bracketLen cs ≤ cs.length := by
  fun_induction bracketLen cs <;> simp only [List.length_cons, List.length_nil] at * <;> omega

theorem suffixLen_le (cs : List Char) : suffixLen cs ≤ cs.length := by
  fun_induction suffixLen cs <;> simp only [List.length_cons, List.length_nil] at * <;> omega

theorem variableLen_le (n : ℕ) (cs : List Char) : variableLen n cs ≤ cs.length := by
  fun_induction variableLen n cs with
  | case3 n c cs _ _ =>
    have := suffixLen_le cs
    simp only [List.length_cons]
    omega
  | _ =>
    simp only [List.length_cons, List.length_nil] at *
    omega

theorem isToken_postgres (c : Char) (cs : List Char) :
    IsToken .postgres (c :: cs) (postgresToken (c :: cs)) := by
  rw [postgresToken]
  split_ifs with hblank hsemi hquote hline hblock hescape hstart hdigit hdollar
  · exact .blank hblank
  · rw [hsemi]
    exact .semicolon cs
  · exact .quoted hquote
  · obtain ⟨rfl, hhead⟩ := hline
    obtain ⟨t, rfl⟩ := List.head?_eq_some_iff.1 hhead
    exact .postgresLine rfl
  · obtain ⟨rfl, hhead⟩ := hblock
    obtain ⟨t, rfl⟩ := List.head?_eq_some_iff.1 hhead
    exact .postgresBlock rfl
  · obtain ⟨hc, hhead⟩ := hescape
    obtain ⟨t, rfl⟩ := List.head?_eq_some_iff.1 hhead
    exact .escapeString rfl hc
  · exact .plain (by decide) (run_le _ _)
  · exact .plain (by decide) (postgresNumberLen_le _)
  · subst hdollar
    split
    · rename_i n hn
      exact .dollarBody rfl hn
    · exact .plain (by decide) (Nat.zero_le _)
  · exact .plain (by decide) (Nat.zero_le _)

theorem isToken_mysql (c : Char) (cs : List Char) :
    IsToken .mysql (c :: cs) (mysqlToken (c :: cs)) := by
  rw [mysqlToken]
  split_ifs with hblank hsemi hquote hname hhash hline hblock hbang hword
  · exact .blank hblank
  · rw [hsemi]
    exact .semicolon cs
  · exact .quoted hquote
  · exact .plain (by decide) (quoteLen_le _ _ _)
  · rw [lineLen_cons (by rw [hhash]; decide)]
    exact .plain (by decide) (run_le _ _)
  · obtain ⟨rfl, hhead, -⟩ := hline
    obtain ⟨t, rfl⟩ := List.head?_eq_some_iff.1 hhead
    exact .line (by decide)
  · obtain ⟨rfl, hhead⟩ := hblock
    obtain ⟨t, rfl⟩ := List.head?_eq_some_iff.1 hhead
    exact .executable
  · obtain ⟨rfl, hhead⟩ := hblock
    obtain ⟨t, rfl⟩ := List.head?_eq_some_iff.1 hhead
    exact .block (by decide)
  · exact .plain (by decide) (run_le _ _)
  · exact .plain (by decide) (Nat.zero_le _)

theorem isToken_sqlite (c : Char) (cs : List Char) :
    IsToken .sqlite (c :: cs) (sqliteToken (c :: cs)) := by
  rw [sqliteToken]
  split_ifs with hblank hsemi hquote hname hbracket hline hblock hvariable hword
  · exact .blank hblank
  · rw [hsemi]
    exact .semicolon cs
  · exact .quoted hquote
  · exact .plain (by decide) (quoteLen_le _ _ _)
  · exact .plain (by decide) (bracketLen_le _)
  · obtain ⟨rfl, hhead⟩ := hline
    obtain ⟨t, rfl⟩ := List.head?_eq_some_iff.1 hhead
    exact .line (by decide)
  · obtain ⟨rfl, hhead, -⟩ := hblock
    obtain ⟨t, rfl⟩ := List.head?_eq_some_iff.1 hhead
    exact .block (by decide)
  · exact .plain (by decide) (variableLen_le _ _)
  · exact .plain (by decide) (run_le _ _)
  · exact .plain (by decide) (Nat.zero_le _)

theorem isToken_token (d : Dialect) (c : Char) (cs : List Char) :
    IsToken d (c :: cs) (token d (c :: cs)) := by
  cases d with
  | postgres => exact isToken_postgres c cs
  | mysql => exact isToken_mysql c cs
  | sqlite => exact isToken_sqlite c cs

theorem two_le_of_postgresTagLen {cs : List Char} {n : ℕ} (h : postgresTagLen cs = some n) :
    2 ≤ n := by
  simp only [postgresTagLen, Option.ite_none_right_eq_some, Option.some.injEq] at h
  omega

theorem IsToken.len_pos {d : Dialect} {cs : List Char} {t : Token} (h : IsToken d cs t) :
    0 < t.len := by
  cases h with
  | postgresLine hd =>
    show 0 < postgresLineLen _
    rw [postgresLineLen, if_neg (by decide), if_neg (by decide)]
    omega
  | line hd => exact lineLen_pos (by decide) _
  | dollarBody hd hn =>
    have := two_le_of_postgresTagLen hn
    dsimp only
    omega
  | _ =>
    dsimp only
    omega

/-- The engine as a lexer. -/
def lexer (d : Dialect) : Lexer Char where
  len cs := (token d cs).len
  len_pos c cs := (isToken_token d c cs).len_pos

@[simp] theorem len_lexer (d : Dialect) (cs : List Char) : (lexer d).len cs = (token d cs).len :=
  rfl

/-! ### The same rule -/

/-- A block comment opens inside a block comment before that one closes. -/
def opensInner : List Char → Bool
  | c :: d :: cs =>
      if c = '*' ∧ d = '/' then false else if c = '/' ∧ d = '*' then true else opensInner (d :: cs)
  | _ => false

/-- A backslash stands before a quote inside an escape string. -/
def escapesQuote : List Char → Bool
  | c :: d :: cs =>
      if c = '\\' then d = '\'' || escapesQuote cs
      else if c = '\'' then if d = '\'' then escapesQuote cs else false
      else escapesQuote (d :: cs)
  | _ => false

/-- The scanner has the engine's rule for the token: a line comment is not ended by a lone
carriage return, no comment of PostgreSQL has another one inside, no escape string escapes a quote,
the tag of a dollar quote is ASCII, no comment is executable, and nothing in any other token means
something to the scanner. -/
def Agrees (d : Dialect) (s : List Char) (t : Token) : Prop :=
  match t.kind with
  | .blank | .semicolon | .quoted => True
  | .lineComment => (s.drop t.len).head? ≠ some '\r'
  | .blockComment => d = .postgres → opensInner (s.drop 2) = false
  | .executableComment => False
  | .escapeString => escapesQuote (s.drop 2) = false
  | .dollarBody => dollarTagLen s ≠ none
  | .hashComment | .name | .word | .variable | .other => ∀ i < t.len, ¬ Opens (s.drop i)

/-- The first token of the text is lexed by the scanner as by the engine. -/
def SameRule (d : Dialect) (s : List Char) : Prop := Agrees d s (token d s)

instance (d : Dialect) (s : List Char) (t : Token) : Decidable (Agrees d s t) := by
  unfold Agrees
  split <;> infer_instance

instance (d : Dialect) : DecidablePred (SameRule d) := fun s =>
  inferInstanceAs (Decidable (Agrees d s (token d s)))

theorem Agrees.plain {d : Dialect} {s : List Char} {kind : Kind} {n : ℕ}
    (hkind : kind ∈ plainKinds) (h : Agrees d s ⟨kind, n⟩) : ∀ i < n, ¬ Opens (s.drop i) := by
  cases kind <;> first | exact h | exact absurd hkind (by decide)

theorem postgresLineLen_eq {cs : List Char}
    (h : (cs.drop (postgresLineLen cs)).head? ≠ some '\r') : postgresLineLen cs = lineLen cs := by
  induction cs with
  | nil => rfl
  | cons c cs ih =>
    by_cases hn : c = '\n'
    · rw [postgresLineLen, if_pos hn, lineLen, List.takeWhile_cons_of_neg (by simpa using hn)]
      rfl
    · rw [lineLen_cons hn]
      by_cases hr : c = '\r'
      · rw [postgresLineLen, if_neg hn, if_pos hr] at h ⊢
        by_cases hhead : cs.head? = some '\n'
        · obtain ⟨t, rfl⟩ := List.head?_eq_some_iff.1 hhead
          rfl
        · rw [if_neg hhead, hr] at h
          exact absurd rfl h
      · rw [postgresLineLen, if_neg hn, if_neg hr] at h ⊢
        rw [Nat.add_comm 1, List.drop_succ_cons] at h
        rw [ih h]

theorem nestedLen_eq {cs : List Char} (h : opensInner cs = false) :
    nestedLen 0 cs = blockLen cs := by
  fun_induction opensInner cs with
  | case1 c d cs hclose => rw [nestedLen, if_pos hclose, blockLen, if_pos hclose]
  | case2 => cases h
  | case3 c d cs hclose hopen ih =>
    rw [nestedLen, if_neg hclose, if_neg hopen, blockLen, if_neg hclose, ih h]
  | case4 cs hcs =>
    cases cs with
    | nil => rfl
    | cons c cs =>
      cases cs with
      | nil => rfl
      | cons d cs => exact absurd rfl (hcs c d cs)

theorem quoteLen_eq {cs : List Char} (h : escapesQuote cs = false) :
    quoteLen true '\'' cs = quoteLen false '\'' cs := by
  fun_induction escapesQuote cs with
  | case1 d cs ih =>
    simp only [Bool.or_eq_false_iff, decide_eq_false_iff_not] at h
    rw [quoteLen, if_pos ⟨rfl, rfl⟩, ih h.2, quoteLen, if_neg (by simp), if_neg (by decide)]
    cases cs with
    | nil => rfl
    | cons e cs =>
      rw [quoteLen, if_neg (by simp), if_neg h.1]
      omega
  | case2 cs hc ih =>
    rw [quoteLen, if_neg (by simp), if_pos rfl, if_pos rfl, ih h, quoteLen, if_neg (by simp),
      if_pos rfl, if_pos rfl]
  | case3 d cs hd _ =>
    rw [quoteLen, if_neg (by simp), if_pos rfl, if_neg hd, quoteLen, if_neg (by simp), if_pos rfl,
      if_neg hd]
  | case4 c d cs hc hquote ih =>
    rw [quoteLen, if_neg (by simp [hc]), if_neg hquote, ih h, quoteLen, if_neg (by simp),
      if_neg hquote]
  | case5 cs hcs =>
    match cs, hcs with
    | [], _ => rfl
    | [_], _ => rfl
    | c :: d :: cs, hcs => exact absurd rfl (hcs c d cs)

theorem takeWhile_eq_of_head? {p q : Char → Bool} (hpq : ∀ c, p c = true → q c = true) {a : Char}
    (ha : q a = false) {cs : List Char} (h : (cs.drop (cs.takeWhile p).length).head? = some a) :
    cs.takeWhile q = cs.takeWhile p := by
  induction cs with
  | nil => rfl
  | cons c cs ih =>
    by_cases hc : p c = true
    · rw [List.takeWhile_cons_of_pos hc, List.length_cons, List.drop_succ_cons] at h
      rw [List.takeWhile_cons_of_pos hc, List.takeWhile_cons_of_pos (hpq c hc), ih h]
    · rw [List.takeWhile_cons_of_neg hc, List.length_nil, List.drop_zero, List.head?_cons,
        Option.some.injEq] at h
      rw [List.takeWhile_cons_of_neg hc, List.takeWhile_cons_of_neg (by simp [h, ha])]

/-- A tag the scanner knows is the tag PostgreSQL reads. -/
theorem dollarTagLen_eq {cs : List Char} {n : ℕ} (hn : postgresTagLen cs = some n)
    (h : dollarTagLen cs ≠ none) : dollarTagLen cs = some n := by
  obtain ⟨m, hm⟩ := Option.ne_none_iff_exists'.1 h
  rw [hm]
  simp only [dollarTagLen, postgresTagLen, Option.ite_none_right_eq_some, Option.some.injEq,
    ← List.drop_drop] at hm hn
  have hchars : ∀ c, isTagChar c = true → (identStart c || c.isDigit) = true := by
    intro c hc
    simp only [isTagChar, identStart, Char.isAlphanum, Bool.or_eq_true, decide_eq_true_eq] at hc ⊢
    tauto
  have htag := takeWhile_eq_of_head? hchars (by decide) hm.1
  rw [htag] at hn
  rw [← hm.2, hn.2]

theorem not_opens_of_isBlankChar {d : Dialect} {c : Char} (hc : isBlankChar d c = true)
    (cs : List Char) : ¬ Opens (c :: cs) := by
  have hne : ∀ e : Char, isBlankChar d e = false → c ≠ e := by
    rintro e he rfl
    rw [he] at hc
    cases hc
  simp only [Opens, hne '\'' (by cases d <;> decide), hne '"' (by cases d <;> decide),
    hne ';' (by cases d <;> decide), hne '-' (by cases d <;> decide),
    hne '/' (by cases d <;> decide), hne '$' (by cases d <;> decide), false_and, or_self,
    not_false_eq_true]

/-- The scanner steps over a token for which it has the engine's rule. -/
theorem stepsOver_token {d : Dialect} {c : Char} {cs : List Char} (hc : c ≠ ';')
    (h : SameRule d (c :: cs)) :
    (scanner (d = .mysql)).StepsOver ';' (token d (c :: cs)).len (c :: cs) := by
  have htoken := isToken_token d c cs
  rw [SameRule] at h
  generalize token d (c :: cs) = t at h htoken ⊢
  -- where the scanner has a rule of its own, one turn of its loop is the token
  have hone : advance (d = .mysql) (c :: cs) = t.len →
      (scanner (d = .mysql)).StepsOver ';' t.len (c :: cs) := fun hlen => hlen ▸ .one hc
  cases htoken with
  | blank hblank => exact hone (advance_of_not_opens (not_opens_of_isBlankChar hblank cs))
  | semicolon => exact absurd rfl hc
  | quoted hquote => exact hone (by rw [advance, if_pos hquote])
  | postgresLine hd =>
    refine hone ?_
    rw [advance, if_neg (by decide), if_pos ⟨rfl, rfl⟩]
    exact (postgresLineLen_eq h).symm
  | line hd => exact hone (by rw [advance, if_neg (by decide), if_pos ⟨rfl, rfl⟩])
  | postgresBlock hd =>
    refine hone ?_
    rw [advance, if_neg (by decide), if_neg (by simp), if_pos ⟨rfl, rfl⟩]
    exact congrArg (2 + ·) (nestedLen_eq (h hd)).symm
  | block hd =>
    exact hone (by rw [advance, if_neg (by decide), if_neg (by simp), if_pos ⟨rfl, rfl⟩]; rfl)
  | executable => exact h.elim
  | @escapeString _ cs hd hletter =>
    have hopens : ¬ Opens (c :: '\'' :: cs) := by
      rcases hletter with rfl | rfl <;> simp [Opens]
    have hletter : (scanner (d = .mysql)).len (c :: '\'' :: cs) = 1 := advance_of_not_opens hopens
    have hquote : (scanner (d = .mysql)).len ('\'' :: cs) = 1 + quoteLen true '\'' cs := by
      have hsame : quoteLen true '\'' cs = quoteLen false '\'' cs := quoteLen_eq h
      show advance (decide (d = .mysql)) ('\'' :: cs) = _
      rw [advance, if_pos (Or.inl rfl), hsame, hd]
      rfl
    have hlen : 2 + quoteLen true '\'' cs = (scanner (d = .mysql)).len (c :: '\'' :: cs) +
        (scanner (d = .mysql)).len ('\'' :: cs) := by
      rw [hletter, hquote]
      omega
    rw [hlen]
    refine .step hc ?_
    rw [hletter]
    exact .one (by decide)
  | dollarBody hd hn =>
    refine hone ?_
    rw [advance, if_neg (by decide), if_neg (by simp), if_neg (by simp), if_pos rfl,
      dollarTagLen_eq hn h]
  | plain hkind hn =>
    refine stepsOver_plain ?_ (h.plain hkind)
    simp only [List.length_cons]
    omega

/-! ### Dropped segments -/

/-- The engine executes nothing for the token: white space and comments, and white space the
engine does not know, which it refuses. -/
def Inert (d : Dialect) (s : List Char) : Prop :=
  match (token d s).kind with
  | .blank | .lineComment | .hashComment | .blockComment => True
  | _ => ∀ c ∈ s.take (token d s).len, isWhitespace c = true

/-- What the splitter is for: it cuts at the semicolons the engine sees, and a segment it drops
holds nothing to execute. -/
structure SplitsRight (d : Dialect) (sql : List Char) : Prop where
  cuts : (scanner (d = .mysql)).texts ';' sql = (lexer d).texts ';' sql
  dropped : ∀ seg ∈ (lexer d).segments ';' sql, pushStatement ((lexer d).text seg) = none →
    ∀ s ∈ seg, Inert d s

theorem isWhitespace_of_isBlankChar {d : Dialect} {c : Char} (h : isBlankChar d c = true) :
    isWhitespace c = true := by
  have hrange : 9 ≤ c.toNat ∧ c.toNat ≤ 13 ∨ c.toNat = 32 := by
    simp only [isBlankChar, List.mem_cons, List.not_mem_nil, or_false, decide_eq_true_eq,
      Bool.decide_or, Bool.or_eq_true] at h
    omega
  simp only [isWhitespace, Bool.or_eq_true, Bool.and_eq_true, decide_eq_true_eq, beq_iff_eq]
  omega

/-- A comment both the scanner and the engine skip. -/
def IsComment (d : Dialect) (s : List Char) : Prop :=
  (token d s).kind = .lineComment ∨ (token d s).kind = .blockComment

/-- A token that is no comment and not all white space begins to matter at a character where no
comment starts. -/
theorem exists_start {d : Dialect} {c : Char} {cs : List Char} (hc : c ≠ ';')
    (h : SameRule d (c :: cs)) (hcomment : ¬ IsComment d (c :: cs))
    (hwhite : ¬ ∀ e ∈ (c :: cs).take (token d (c :: cs)).len, isWhitespace e = true) :
    ∃ w x t, (c :: cs).take (token d (c :: cs)).len = w ++ x :: t ∧
      (∀ e ∈ w, isWhitespace e = true) ∧ isWhitespace x = false ∧
      ¬ CommentStart ((c :: cs).drop w.length) := by
  have htoken := isToken_token d c cs
  have hpos := htoken.len_pos
  rw [SameRule] at h
  rw [IsComment] at hcomment
  generalize token d (c :: cs) = t at *
  -- a token whose first character is neither white space nor the start of a comment
  have hfirst : isWhitespace c = false → ¬ CommentStart (c :: cs) →
      ∃ w x u, (c :: cs).take t.len = w ++ x :: u ∧ (∀ e ∈ w, isWhitespace e = true) ∧
        isWhitespace x = false ∧ ¬ CommentStart ((c :: cs).drop w.length) := by
    intro hwhite hstart
    obtain ⟨n, hn⟩ : ∃ n, t.len = n + 1 := ⟨_, (Nat.sub_add_cancel hpos).symm⟩
    exact ⟨[], c, cs.take n, by rw [hn]; rfl, by simp, hwhite, hstart⟩
  cases htoken with
  | blank hblank => exact absurd (by simpa using isWhitespace_of_isBlankChar hblank) hwhite
  | semicolon => exact absurd rfl hc
  | quoted hquote =>
    rcases hquote with rfl | rfl <;> exact hfirst (by decide) (by simp [CommentStart])
  | postgresLine | line | postgresBlock | block => simp at hcomment
  | executable => exact h.elim
  | escapeString hd hletter =>
    rcases hletter with rfl | rfl <;> exact hfirst (by decide) (by simp [CommentStart])
  | dollarBody => exact hfirst (by decide) (by simp [CommentStart])
  | @plain kind _ _ n hkind hn =>
    have hplain := h.plain hkind
    obtain ⟨w, x, t, htext, hw, hx⟩ : ∃ w x t, (c :: cs).take (1 + n) = w ++ x :: t ∧
        (∀ e ∈ w, isWhitespace e = true) ∧ isWhitespace x = false := by
      have hsplit := List.takeWhile_append_dropWhile (p := isWhitespace)
        (l := (c :: cs).take (1 + n))
      have hne : ((c :: cs).take (1 + n)).dropWhile isWhitespace ≠ [] := by
        rw [Ne, List.dropWhile_eq_nil_iff]
        exact hwhite
      obtain ⟨x, t, hxt⟩ := List.exists_cons_of_ne_nil hne
      refine ⟨_, x, t, by rw [← hxt, hsplit], fun e he => List.mem_takeWhile_imp he, ?_⟩
      have hhead := List.head_dropWhile_not isWhitespace hne
      simpa [hxt] using hhead
    refine ⟨w, x, t, htext, hw, hx, ?_⟩
    have hlt : w.length < 1 + n := by
      have := congrArg List.length htext
      simp only [List.length_take, List.length_append, List.length_cons] at this
      omega
    have hopens := hplain _ hlt
    rintro (⟨u, hu⟩ | ⟨u, hu⟩) <;> rw [← hu] at hopens <;> simp [Opens] at hopens

/-- A line comment in front of the end of its line is skipped. -/
theorem effective_line {cs y : List Char} (h : Effective (trim y)) (hy : y.head? = some '\n')
    (hline : ∀ c ∈ cs, c ≠ '\n') : Effective (trim ('-' :: '-' :: cs ++ y)) := by
  obtain ⟨y, rfl⟩ := List.head?_eq_some_iff.1 hy
  have hnewline : ∀ c ∈ ['\n'], isWhitespace c = true := List.forall_mem_singleton.2 rfl
  have hy' : Effective (trim y) := by
    rwa [← trim_append hnewline]
  have hne : ∃ c ∈ y, isWhitespace c = false := by
    obtain ⟨e, he, -⟩ := hy'
    refine trim_ne_nil.1 fun hnil => ?_
    rw [hnil] at he
    cases he
  have hdrop : ('-' :: '-' :: cs ++ '\n' :: y).rdropWhile isWhitespace =
      '-' :: ('-' :: cs) ++ '\n' :: y.rdropWhile isWhitespace := by
    rw [show '-' :: '-' :: cs ++ '\n' :: y = ('-' :: '-' :: cs ++ ['\n']) ++ y by simp,
      rdropWhile_append hne]
    simp
  have hlen : stripper.len ('-' :: ('-' :: cs) ++ '\n' :: y.rdropWhile isWhitespace) =
      ('-' :: cs).length + 1 := by
    show lineLen ('-' :: '-' :: cs ++ '\n' :: y.rdropWhile isWhitespace) = _
    rw [lineLen_append (by simpa using hline) rfl]
    rfl
  have hskip := stripComments_skip hlen (by simp [stripKeep])
  rw [List.cons_append, trim_cons (c := '-') (by decide), ← List.cons_append, hdrop, Effective,
    hskip]
  exact effective_append hnewline hy'.of_trim

/-- A closed block comment is skipped. -/
theorem effective_block {cs y : List Char} (h : Effective (trim y))
    (hclosed : blockLen cs < cs.length) :
    Effective (trim ('/' :: '*' :: cs.take (blockLen cs) ++ y)) := by
  have hne : ∃ c ∈ y, isWhitespace c = false := by
    obtain ⟨e, he, -⟩ := h
    refine trim_ne_nil.1 fun hnil => ?_
    rw [hnil] at he
    cases he
  have hlen : stripper.len ('/' :: ('*' :: cs.take (blockLen cs)) ++ y.rdropWhile isWhitespace) =
      ('*' :: cs.take (blockLen cs)).length + 1 := by
    show 2 + blockLen (cs.take (blockLen cs) ++ y.rdropWhile isWhitespace) = _
    rw [blockLen_append hclosed, List.length_cons, List.length_take, Nat.min_eq_left hclosed.le]
    omega
  have hskip := stripComments_skip hlen (by simp [stripKeep])
  rw [List.cons_append, trim_cons (c := '/') (by decide), ← List.cons_append,
    rdropWhile_append hne, Effective, hskip]
  exact h.of_trim

/-- A comment is skipped by `strip_comments` as by the engine. -/
theorem effective_comment {d : Dialect} {c : Char} {cs y r : List Char}
    (h : SameRule d (c :: cs)) (hcomment : IsComment d (c :: cs))
    (hrest : (c :: cs).drop (token d (c :: cs)).len = y ++ r) (hy : Effective (trim y)) :
    Effective (trim ((c :: cs).take (token d (c :: cs)).len ++ y)) := by
  have htoken := isToken_token d c cs
  have hne : y ≠ [] := by
    rintro rfl
    obtain ⟨e, he, -⟩ := hy
    cases he
  rw [SameRule] at h
  rw [IsComment] at hcomment
  generalize token d (c :: cs) = t at *
  -- both kinds of comment end where the scanner ends them
  have hline : ∀ cs : List Char, ('-' :: '-' :: cs).drop (lineLen ('-' :: '-' :: cs)) = y ++ r →
      Effective (trim (('-' :: '-' :: cs).take (lineLen ('-' :: '-' :: cs)) ++ y)) := by
    intro cs hrest
    have hhead : y.head? = some '\n' := by
      have hdrop : ('-' :: '-' :: cs).drop (lineLen ('-' :: '-' :: cs)) ≠ [] := by
        simp [hrest, hne]
      have hnl := head?_drop_lineLen hdrop
      rwa [hrest, List.head?_append_of_ne_nil _ hne] at hnl
    have hchars : ∀ e ∈ ('-' :: '-' :: cs).take (lineLen ('-' :: '-' :: cs)), e ≠ '\n' :=
      fun e he => ne_of_mem_take_lineLen he
    have hlen : lineLen ('-' :: '-' :: cs) = lineLen cs + 1 + 1 := by
      rw [lineLen_cons (by decide), lineLen_cons (by decide)]
      omega
    rw [hlen, List.take_succ_cons, List.take_succ_cons] at hchars ⊢
    exact effective_line hy hhead fun e he =>
      hchars e (List.mem_cons_of_mem _ (List.mem_cons_of_mem _ he))
  have hblock : ∀ cs : List Char, ('/' :: '*' :: cs).drop (2 + blockLen cs) = y ++ r →
      Effective (trim (('/' :: '*' :: cs).take (2 + blockLen cs) ++ y)) := by
    intro cs hrest
    rw [Nat.add_comm, List.drop_succ_cons, List.drop_succ_cons] at hrest
    rw [Nat.add_comm, List.take_succ_cons, List.take_succ_cons]
    refine effective_block hy ?_
    have hlength := congrArg List.length hrest
    have hpos := List.length_pos_of_ne_nil hne
    rw [List.length_drop, List.length_append] at hlength
    omega
  cases htoken with
  | postgresLine hd =>
    have hlen := postgresLineLen_eq h
    dsimp only at hrest ⊢
    rw [hlen] at hrest ⊢
    exact hline _ hrest
  | line hd => exact hline _ hrest
  | @postgresBlock cs hd =>
    have hlen : nestedLen 0 cs = blockLen cs := nestedLen_eq (h hd)
    dsimp only at hrest ⊢
    rw [hlen] at hrest ⊢
    exact hblock _ hrest
  | block hd => exact hblock _ hrest
  | plain hkind hn =>
    rcases hcomment with hkind' | hkind' <;> dsimp only at hkind' <;> subst hkind' <;>
      exact absurd hkind (by decide)
  | _ => simp at hcomment

theorem inert_of_isComment {d : Dialect} {s : List Char} (h : IsComment d s) : Inert d s := by
  rcases h with h | h <;> rw [Inert, h] <;> trivial

theorem inert_of_white {d : Dialect} {s : List Char}
    (h : ∀ c ∈ s.take (token d s).len, isWhitespace c = true) : Inert d s := by
  unfold Inert
  split <;> trivial

/-- A segment with something to execute is not empty without its comments. The induction is on the
tokens: white space and comments in front are skipped, and the first other token is kept. -/
theorem effective_of_run {d : Dialect} {tokens : List (List Char)} {l r : List Char}
    (hrun : Run (lexer d) tokens l r)
    (htokens : ∀ s ∈ tokens, SameRule d s ∧ s.head? ≠ some ';')
    (h : ∃ s ∈ tokens, ¬ Inert d s) : Effective (trim ((lexer d).text tokens)) := by
  induction hrun with
  | nil => simp at h
  | @cons a l r tokens hrun ih =>
    obtain ⟨hsame, hhead⟩ := htokens _ List.mem_cons_self
    have hrest := hrun.text_append
    have ih := ih fun s hs => htokens s (List.mem_cons_of_mem _ hs)
    rw [text_cons]
    have hlater : Inert d (a :: l) → Effective (trim ((lexer d).text tokens)) := by
      intro hinert
      obtain ⟨s, hs, hactive⟩ := h
      rcases List.mem_cons.1 hs with rfl | hs
      · exact absurd hinert hactive
      · exact ih ⟨s, hs, hactive⟩
    by_cases hcomment : IsComment d (a :: l)
    · exact effective_comment hsame hcomment hrest.symm (hlater (inert_of_isComment hcomment))
    by_cases hwhite : ∀ e ∈ (a :: l).take (token d (a :: l)).len, isWhitespace e = true
    · rw [len_lexer, trim_append hwhite]
      exact hlater (inert_of_white hwhite)
    obtain ⟨w, x, t, htext, hw, hx, hstart⟩ :=
      exists_start (by simpa using hhead) hsame hcomment hwhite
    refine effective_start (u := r) hw hx (m := t ++ (lexer d).text tokens) ?_ ?_
    · rw [len_lexer, htext, List.append_assoc, List.cons_append]
    · have hall : (a :: l).take (token d (a :: l)).len ++ (lexer d).text tokens ++ r = a :: l := by
        rw [List.append_assoc, hrest]
        exact List.take_append_drop _ _
      have hle : w.length ≤
          ((a :: l).take (token d (a :: l)).len ++ (lexer d).text tokens).length := by
        rw [htext]
        simp only [List.length_append]
        omega
      rw [len_lexer, ← List.drop_append_of_le_length hle, hall]
      exact hstart

/-! ### Main results -/

theorem len_lexer_semicolon (d : Dialect) (cs : List Char) : (lexer d).len (';' :: cs) = 1 := by
  cases d <;> rfl

/-- **A script is split right** when the scanner has the engine's rule for every token of it. -/
theorem splitsRight_of_sameRule {d : Dialect} {sql : List Char}
    (h : ∀ s ∈ (lexer d).positions sql, SameRule d s) : SplitsRight d sql where
  cuts := by
    refine texts_eq_of_stepsOver (len_scanner_semicolon _) (len_lexer_semicolon d) ?_
    intro s hs hsemi
    cases s with
    | nil =>
      have hnil : (lexer d).len [] = 0 := by cases d <;> rfl
      rw [hnil]
      exact .zero _
    | cons c cs => exact stepsOver_token (by simpa using hsemi) (h _ hs)
  dropped := by
    intro seg hseg hdrop s hs
    obtain ⟨⟨m, r, hrun⟩, hmem⟩ := run_of_mem_segments (len_lexer_semicolon d) hseg
    by_contra hactive
    refine pushStatement_ne_none (effective_of_run hrun ?_ ⟨s, hs, hactive⟩) hdrop
    exact fun s hs => ⟨h s (hmem s hs).1, (hmem s hs).2⟩

/-- The statements returned for an engine with a SQL grammar are the pieces between the semicolons
it sees, without those that hold nothing to execute. -/
def SplitsFaithfully (engine : Engine) (sql : String) : Prop :=
  ∀ d, dialect engine = some d →
    splitStatements sql engine = ((lexer d).texts ';' sql.toList).filterMap pushStatement ∧
      SplitsRight d sql.toList

theorem eq_mysql_iff {engine : Engine} {d : Dialect} (hd : dialect engine = some d) :
    engine = .mysql ↔ d = .mysql := by
  cases engine <;> cases d <;> simp_all [dialect]

end SqlScript
end AgentDb
