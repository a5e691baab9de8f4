import AgentDb.Frontend.StatementTokens
import AgentDb.SqlScript.Parts

/-!
# Splitting a statement of the data grid

The scanner of `sql_script` goes over what the builders write token by token, and meets no
semicolon (`split_statement`). It knows the quotes of PostgreSQL and SQLite, and of MySQL the
quotes of strings; what stands between backticks it takes for plain text.
-/

namespace AgentDb
namespace Frontend
namespace SqlBuild

open SqlTokens
open SqlScript (scanner Opens quoteLen advance stepsOver_plain splitStatements splitStatementsImpl)
open Lexing.Lexer (StepsOver)

variable {engine : Engine} {bs : Bool} {q : Char} {rest : List Char}

/-! ### Plain text -/

/-- The characters at which the scanner may do something else than going on. -/
def openers : List Char := ['\'', '"', ';', '-', '/', '$']

theorem not_opens {c : Char} {cs : List Char} (hc : c ∉ openers) : ¬ Opens (c :: cs) := by
  simp only [openers, List.mem_cons, List.not_mem_nil, or_false, not_or] at hc
  simp [Opens, hc]

theorem steps_plain {w : List Char} (h : ∀ c ∈ w, c ∉ openers) :
    StepsOver (scanner bs) ';' w.length (w ++ rest) := by
  refine stepsOver_plain (by simp) fun i hi => ?_
  rw [List.drop_append_of_le_length hi.le, List.drop_eq_getElem_cons hi, List.cons_append]
  exact not_opens (h _ (List.getElem_mem hi))

/-- A class of characters with none of these. -/
theorem notMem_openers {p : Char → Bool} (hp : openers.all (!p ·) = true) {c : Char}
    (hc : p c = true) : c ∉ openers := by
  intro hmem
  have hnot := List.all_eq_true.1 hp c hmem
  rw [hc] at hnot
  cases hnot

/-- Two stretches of the text, one after the other. -/
theorem StepsOver.append {w v : List Char}
    (h : StepsOver (scanner bs) ';' w.length (w ++ (v ++ rest)))
    (h' : StepsOver (scanner bs) ';' v.length (v ++ rest)) :
    StepsOver (scanner bs) ';' (w ++ v).length (w ++ v ++ rest) := by
  rw [List.length_append, List.append_assoc]
  refine h.trans ?_
  rw [List.drop_left]
  exact h'

/-- A sign in a number opens no comment, since a digit follows it. -/
theorem steps_number {n : List Char} (hn : numberLen n = some n.length) :
    StepsOver (scanner bs) ';' n.length (n ++ rest) := by
  obtain ⟨front, sign, ds, rfl, hfront, hsign, hne, hds⟩ := number_parts hn
  have hdigit : ∀ c : Char, c.isDigit = true → c ∉ openers := fun c =>
    notMem_openers (p := Char.isDigit) (by decide)
  refine StepsOver.append (steps_plain fun c hc => ?_) (StepsOver.append ?_ ?_)
  · rcases hfront c hc with rfl | rfl | rfl | hc
    · decide
    · decide
    · decide
    · exact hdigit c hc
  · rcases hsign with rfl | rfl | rfl
    · exact .zero _
    · exact steps_plain fun c hc => by
        rw [List.mem_singleton.1 hc]
        decide
    · cases ds with
      | nil => exact absurd rfl (hne (by simp))
      | cons c ds =>
          refine stepsOver_plain (n := 1) (by simp) fun i hi => ?_
          obtain rfl : i = 0 := by omega
          have hc : c ≠ '-' := by
            rintro rfl
            cases hds '-' List.mem_cons_self
          simp [Opens, hc]
  · exact steps_plain fun c hc => hdigit c (hds c hc)

/-! ### Quoted text -/

/-- The scanner reads a quoted text to its closing quote. -/
theorem quoteLen_escape (hq : q ≠ '\\') {cs : List Char} (hrest : rest.head? ≠ some q) :
    quoteLen bs q (cs.flatMap (escape bs q) ++ q :: rest) =
      (cs.flatMap (escape bs q)).length + 1 := by
  induction cs with
  | nil =>
      cases rest with
      | nil => rfl
      | cons e rest =>
          have he : e ≠ q := by simpa using hrest
          simp [quoteLen, hq, he]
  | cons c cs ih =>
      by_cases hcq : c = q
      · subst hcq
        simp [escape, quoteLen, hq, ih]
        omega
      by_cases hback : bs = true ∧ c = '\\'
      · obtain ⟨rfl, rfl⟩ := hback
        simp [escape, quoteLen, ih]
        omega
      · obtain ⟨e, t, ht⟩ : ∃ e t, cs.flatMap (escape bs q) ++ q :: rest = e :: t := by
          cases h : cs.flatMap (escape bs q) with
          | nil => exact ⟨q, rest, rfl⟩
          | cons e t => exact ⟨e, t ++ q :: rest, rfl⟩
        have hescape : escape bs q c = [c] := if_neg (by tauto)
        rw [List.flatMap_cons, hescape, List.append_assoc, ht, List.singleton_append, quoteLen,
          if_neg hback, if_neg hcq, ← ht, ih]
        simp [Nat.add_comm]

theorem steps_enclose (hq : q = '\'' ∨ q = '"') {cs : List Char} (hrest : rest.head? ≠ some q) :
    StepsOver (scanner bs) ';' (enclose bs q cs).length (enclose bs q cs ++ rest) := by
  have hback : q ≠ '\\' := by
    rcases hq with rfl | rfl <;> decide
  have hsemi : q ≠ ';' := by
    rcases hq with rfl | rfl <;> decide
  have hlen : (scanner bs).len (enclose bs q cs ++ rest) = (enclose bs q cs).length := by
    show advance bs (q :: (cs.flatMap (escape bs q) ++ [q]) ++ rest) = _
    rw [List.cons_append, List.append_assoc, List.singleton_append, advance, if_pos hq,
      quoteLen_escape hback hrest, length_enclose]
  rw [← hlen]
  exact .one hsemi

/-- Between its backticks a name holds nothing that the scanner stops at. -/
def Quiet (name : String) : Prop :=
  ∀ i < (quoteIdent .mysql name).toList.length, ¬ Opens ((quoteIdent .mysql name).toList.drop i)

instance (name : String) : Decidable (Quiet name) :=
  inferInstanceAs (Decidable (∀ i < _, ¬ _))

/-- Behind a backtick the text decides nothing about what is in front of it. -/
theorem not_opens_append {cs : List Char} (h : ¬ Opens (cs ++ ['\x60'])) :
    ¬ Opens (cs ++ '\x60' :: rest) := by
  cases cs with
  | nil => exact not_opens (by decide)
  | cons c cs =>
      have hhead : (cs ++ '\x60' :: rest).head? = (cs ++ ['\x60']).head? := by
        cases cs <;> rfl
      have htag : c = '$' → SqlScript.dollarTagLen (c :: (cs ++ '\x60' :: rest)) =
          SqlScript.dollarTagLen (c :: (cs ++ ['\x60'])) := by
        rintro rfl
        have hlt : ((cs ++ ['\x60']).takeWhile SqlScript.isTagChar).length <
            (cs ++ ['\x60']).length := by
          refine lt_of_le_of_ne (List.takeWhile_prefix _).length_le fun heq => ?_
          have hall := List.takeWhile_eq_self_iff.1 ((List.takeWhile_prefix _).eq_of_length heq)
          cases hall '\x60' (by simp)
        rw [← SqlScript.dollarTagLen_append_of_lt hlt rest]
        simp
      simp only [Opens, List.cons_append, hhead] at h ⊢
      by_cases hc : c = '$'
      · rw [htag hc]
        exact h
      · simp only [hc, false_and, or_false] at h ⊢
        exact h

theorem steps_quiet {name : String} (h : Quiet name) :
    StepsOver (scanner bs) ';' (quoteIdent .mysql name).toList.length
      ((quoteIdent .mysql name).toList ++ rest) := by
  obtain ⟨w, hw⟩ : ∃ w, (quoteIdent .mysql name).toList = w ++ ['\x60'] :=
    ⟨'\x60' :: name.toList.flatMap (escape false '\x60'), toList_quoteIdent .mysql name⟩
  refine stepsOver_plain (by simp) fun i hi => ?_
  have hquiet := h i hi
  have hle : i ≤ w.length := by
    rw [hw, List.length_append, List.length_singleton] at hi
    omega
  rw [hw, List.drop_append_of_le_length hle] at hquiet
  rw [List.drop_append_of_le_length hi.le, hw, List.drop_append_of_le_length hle,
    List.append_assoc, List.singleton_append]
  exact not_opens_append hquiet

/-! ### A statement -/

/-- The scanner goes over what can be written inside a statement. -/
theorem steps_lexeme {l : Lexeme} (hfits : Fits (dialect engine) rest.head? l)
    (hquiet : engine = .mysql → ∀ name, l = ident name → Quiet name) :
    StepsOver (scanner (engine = .mysql)) ';' (render (dialect engine) l).length
      (render (dialect engine) l ++ rest) := by
  have hbs : (dialect engine).backslashEscapes = decide (engine = .mysql) := by
    cases engine <;> rfl
  cases l with
  | none =>
      exact steps_plain fun c hc => by
        rw [List.mem_singleton.1 hc]
        decide
  | some t =>
    cases t with
    | word w =>
        obtain ⟨⟨c, cs, hw, hc, hcs⟩, -⟩ := hfits
        refine steps_plain fun e he => ?_
        rw [render, hw] at he
        rcases List.mem_cons.1 he with rfl | he
        · exact notMem_openers (p := isWordStart) (by decide) hc
        · exact notMem_openers (p := isWordChar) (by decide) (hcs e he)
    | symbol c =>
        obtain ⟨hsemi, hsymbol⟩ := hfits
        refine stepsOver_plain (n := 1) (by simp [render]) fun i hi => ?_
        obtain rfl : i = 0 := by omega
        show ¬ Opens (c :: rest)
        by_cases hminus : c = '-'
        · subst hminus
          have hnext : rest.head? ≠ some '-' := by
            intro hhead
            rw [hhead] at hsymbol
            revert hsymbol
            decide
          simp [Opens, hnext]
        · refine not_opens ?_
          have hmem := isSymbol_cases hsymbol
          simp only [List.mem_cons, List.not_mem_nil, or_false] at hmem
          rcases hmem with rfl | rfl | rfl | rfl | rfl | rfl | rfl | rfl <;>
            first | decide | contradiction
    | number n => exact steps_number hfits.1
    | string v =>
        rw [render, hbs]
        exact steps_enclose (.inl rfl) hfits.2
    | ident name =>
        by_cases hmysql : engine = .mysql
        · subst hmysql
          have hsteps : StepsOver (scanner true) ';' _ (_ ++ rest) :=
            steps_quiet (hquiet rfl name rfl)
          rw [toList_quoteIdent] at hsteps
          exact hsteps
        · have hquote : (dialect engine).identQuote = '"' := by
            cases engine <;> first | rfl | exact absurd rfl hmysql
          have hnext := hfits.2.2
          rw [hquote] at hnext
          rw [render, hquote, decide_eq_false hmysql]
          exact steps_enclose (.inr rfl) hnext

theorem steps_text {ls : List Lexeme} (h : Chain (dialect engine) ls none)
    (hquiet : engine = .mysql → ∀ name, ident name ∈ ls → Quiet name) :
    StepsOver (scanner (engine = .mysql)) ';' (text (dialect engine) ls).length
      (text (dialect engine) ls) := by
  induction ls with
  | nil => exact .zero _
  | cons l ls ih =>
      obtain ⟨hfits, hchain⟩ := h
      rw [Option.or_none] at hfits
      have hl := steps_lexeme hfits fun hmysql name heq =>
        hquiet hmysql name (heq ▸ List.mem_cons_self)
      have hls := ih hchain fun hmysql name hname =>
        hquiet hmysql name (List.mem_cons_of_mem _ hname)
      rw [text_cons, List.length_append]
      refine hl.trans ?_
      rw [List.drop_left]
      exact hls

/-- A text that starts and ends with something other than white space is not changed by
trimming. -/
theorem trim_eq_self {c e : Char} {cs ds : List Char} (h : c :: cs = ds ++ [e])
    (hc : isWhitespace c = false) (he : isWhitespace e = false) :
    SqlScript.trim (c :: cs) = c :: cs := by
  rw [SqlScript.trim_eq_rdropWhile, List.dropWhile_cons_of_neg (by simp [hc]), h]
  exact List.rdropWhile_concat_neg _ _ _ (by simp [he])

theorem isWhitespace_of_isWordChar {c : Char} (h : isWordChar c = true) :
    isWhitespace c = false := by
  have hrange : 0x20 < c.toNat ∧ c.toNat < 0x7f := by
    by_cases hline : c = '_'
    · subst hline
      decide
    simp only [isWordChar, hline, Char.isAlphanum, decide_false, Bool.or_false, Bool.or_eq_true,
      Lexing.isAlpha_iff, Lexing.isDigit_iff] at h
    omega
  simp only [isWhitespace, Bool.or_eq_false_iff, Bool.and_eq_false_iff, decide_eq_false_iff_not,
    beq_eq_false_iff_ne]
  omega

/-- A text of some characters ends with one of them. -/
theorem exists_last {cs : List Char} (hne : cs ≠ [])
    (h : ∀ c ∈ cs, isWhitespace c = false) : ∃ w e, cs = w ++ [e] ∧ isWhitespace e = false :=
  ⟨cs.dropLast, cs.getLast hne, (List.dropLast_append_getLast hne).symm,
    h _ (List.getLast_mem hne)⟩

/-- A token that can be written ends with something other than white space. -/
theorem last_render {d : Dialect} {next : Option Char} {t : Token} (h : Fits d next (some t)) :
    ∃ w e, render d (some t) = w ++ [e] ∧ isWhitespace e = false := by
  cases t with
  | word w =>
      obtain ⟨⟨c, cs, hw, hc, hcs⟩, -⟩ := h
      have hstart : isWordChar c = true := by
        simp only [isWordStart, isWordChar, Char.isAlphanum, Bool.or_eq_true] at hc ⊢
        tauto
      refine exists_last (by rw [render, hw]; exact List.cons_ne_nil _ _) fun e he => ?_
      rw [render, hw] at he
      rcases List.mem_cons.1 he with rfl | he
      · exact isWhitespace_of_isWordChar hstart
      · exact isWhitespace_of_isWordChar (hcs e he)
  | symbol c =>
      refine ⟨[], c, rfl, ?_⟩
      have hmem := isSymbol_cases h.2
      simp only [List.mem_cons, List.not_mem_nil, or_false] at hmem
      rcases hmem with rfl | rfl | rfl | rfl | rfl | rfl | rfl | rfl <;> decide
  | number n =>
      have hdigit : ∀ c : Char, c.isDigit = true → isWhitespace c = false := fun c hc =>
        isWhitespace_of_isWordChar (by simp [isWordChar, Char.isAlphanum, hc])
      obtain ⟨front, sign, ds, hn, hfront, hsign, -, hds⟩ := number_parts h.1
      obtain ⟨c, cs, hcs, -⟩ := head_of_number h.1
      refine exists_last (by rw [render, hcs]; exact List.cons_ne_nil _ _) fun c hc => ?_
      rw [render, hn, List.mem_append, List.mem_append] at hc
      rcases hc with hc | hc | hc
      · rcases hfront c hc with rfl | rfl | rfl | hc
        · decide
        · decide
        · decide
        · exact hdigit c hc
      · rcases hsign with rfl | rfl | rfl
        · cases hc
        · rw [List.mem_singleton.1 hc]
          decide
        · rw [List.mem_singleton.1 hc]
          decide
      · exact hdigit c (hds c hc)
  | string v => exact ⟨'\'' :: _, '\'', rfl, by decide⟩
  | ident name =>
      refine ⟨d.identQuote :: _, d.identQuote, rfl, ?_⟩
      rcases d.quote_eq with h | h <;> rw [h] <;> decide

/-- The last thing written is a token. -/
def Ends (ls : List Lexeme) : Prop := ∃ init t, ls = init ++ [some t]

theorem Ends.append {ls : List Lexeme} (h : Ends ls) (front : List Lexeme) :
    Ends (front ++ ls) := by
  obtain ⟨init, t, rfl⟩ := h
  exact ⟨front ++ init, t, (List.append_assoc _ _ _).symm⟩

theorem ends_intercalate {sep : List Lexeme} {parts : List (List Lexeme)} (hne : parts ≠ [])
    (h : ∀ p ∈ parts, Ends p) : Ends (sep.intercalate parts) := by
  induction parts with
  | nil => exact absurd rfl hne
  | cons part parts ih =>
      cases parts with
      | nil =>
          rw [List.intercalate_singleton]
          exact h part List.mem_cons_self
      | cons other parts =>
          rw [List.intercalate_cons_cons]
          exact (ih (List.cons_ne_nil _ _) fun p hp => h p (List.mem_cons_of_mem _ hp)).append _

theorem ends_table (engine : Engine) (table : CatalogTable) :
    Ends (tableLexemes engine table) := by
  unfold tableLexemes
  cases usedSchema engine table with
  | none => exact ⟨[], _, rfl⟩
  | some schema => exact ⟨[ident schema, symbol '.'], _, rfl⟩

theorem ends_literal (value : Literal) : Ends value.lexemes := by
  cases value with
  | null => exact ⟨[], _, rfl⟩
  | string v => exact ⟨[], _, rfl⟩
  | number t =>
      show Ends (numberLexemes t)
      unfold numberLexemes
      split
      · exact ⟨[symbol '-'], _, rfl⟩
      · exact ⟨[], _, rfl⟩

theorem ends_equality (c : String × Literal) : Ends (equality c) := (ends_literal c.2).append _

theorem ends_condition (c : Condition) : Ends (c.lexemes engine) := by
  cases c with
  | isNull col => exact ⟨[ident col, space, word "IS", space], _, rfl⟩
  | isNotNull col => exact ⟨[ident col, space, word "IS", space, word "NOT", space], _, rfl⟩
  | equals col value => exact ends_equality _
  | contains col pattern =>
      exact ⟨[word "CAST", symbol '(', ident col, space, word "AS", space,
        word (castText engine), symbol ')', space, word (likeOperator engine), space], _, rfl⟩

/-- An update and a deletion have a key. -/
def Statement.Keyed : Statement → Prop
  | .update _ _ key => key ≠ []
  | .delete _ key => key ≠ []
  | _ => True

theorem ends_key {key : List (String × Literal)} (hkey : key ≠ []) :
    Ends (ands (key.map equality)) := by
  refine ends_intercalate (fun h => hkey (List.map_eq_nil_iff.1 h)) fun p hp => ?_
  obtain ⟨c, -, rfl⟩ := List.mem_map.1 hp
  exact ends_equality c

theorem ends_statement {s : Statement} (hkeyed : s.Keyed) : Ends (s.lexemes engine) := by
  cases s with
  | insert table values => exact ⟨_, _, rfl⟩
  | update table set key => exact (ends_key hkeyed).append _
  | delete table key => exact (ends_key hkeyed).append _
  | page query =>
      exact Ends.append ⟨[space, word "LIMIT", space, countLexeme query.limit, space,
        word "OFFSET", space], _, rfl⟩ _
  | count query =>
      rw [Statement.lexemes, whereLexemes]
      split
      · rw [List.append_nil]
        exact (ends_table engine query.table).append _
      · rename_i hne
        refine Ends.append (Ends.append (ends_intercalate ?_ fun p hp => ?_) _) _
        · exact fun h => hne (List.map_eq_nil_iff.1 h)
        · obtain ⟨c, -, rfl⟩ := List.mem_map.1 hp
          exact ends_condition c

/-- A statement starts with a letter. -/
theorem head_statement (s : Statement) : ∃ c cs,
    text (dialect engine) (s.lexemes engine) = c :: cs ∧ c ∈ ['I', 'U', 'D', 'S'] := by
  cases s with
  | insert table values => exact ⟨'I', _, rfl, by decide⟩
  | update table set key => exact ⟨'U', _, rfl, by decide⟩
  | delete table key => exact ⟨'D', _, rfl, by decide⟩
  | page query => exact ⟨'S', _, rfl, by decide⟩
  | count query => exact ⟨'S', _, rfl, by decide⟩

/-- **Splitting.** The text of a statement is split into that text alone. For MySQL nothing between
the backticks of its names may be anything that the scanner stops at. -/
theorem split_statement {sql : String} {s : Statement} (h : Writes engine sql s)
    (hkeyed : s.Keyed) (hnames : ∀ name ∈ s.names engine, Writable engine name)
    (hliterals : ∀ value ∈ s.literals, value.Writable)
    (hquiet : engine = .mysql → ∀ name, .ident name ∈ s.tokens engine → Quiet name) :
    splitStatements sql engine = [sql] := by
  have hchain := chain_statement hnames hliterals
  have hsteps := steps_text hchain fun hmysql name hname =>
    hquiet hmysql name (List.reduceOption_mem_iff.2 hname)
  obtain ⟨c, cs, hcs, hc⟩ : ∃ c cs, text (dialect engine) (s.lexemes engine) = c :: cs ∧
      c ∈ ['I', 'U', 'D', 'S'] := head_statement s
  obtain ⟨init, t, hend⟩ : Ends (s.lexemes engine) := ends_statement hkeyed
  -- The text ends with the last token, and starts with a letter.
  have hlast : ∃ ds e, c :: cs = ds ++ [e] ∧ isWhitespace e = false := by
    rw [hend, chain_append] at hchain
    obtain ⟨w, e, hw, he⟩ := last_render hchain.2.1
    refine ⟨text (dialect engine) init ++ w, e, ?_, he⟩
    rw [← hcs, hend, text_append, text_cons, hw, text_nil, List.append_nil, List.append_assoc]
  obtain ⟨ds, e, hds, he⟩ := hlast
  have hletter : isWhitespace c = false ∧ c ≠ '-' ∧ c ≠ '/' := by
    simp only [List.mem_cons, List.not_mem_nil, or_false] at hc
    rcases hc with rfl | rfl | rfl | rfl <;> decide
  have htrim : SqlScript.trim (c :: cs) = c :: cs := trim_eq_self hds hletter.1 he
  have heffective : SqlScript.Effective (SqlScript.trim (c :: cs)) := by
    rw [htrim]
    refine SqlScript.effective_cons hletter.1 ?_
    rintro (⟨u, hu⟩ | ⟨u, hu⟩) <;> injection hu with hhead
    · exact hletter.2.1 hhead.symm
    · exact hletter.2.2 hhead.symm
  have hpush := SqlScript.pushStatement_of_effective heffective
  rw [htrim] at hpush
  rw [hcs] at hsteps
  have htexts := hsteps.texts_eq
  rw [List.drop_length, List.take_length] at htexts
  have hsql : sql.toList = c :: cs := h.trans hcs
  rw [splitStatements, splitStatementsImpl, hsql, htexts]
  show ([[]].modifyHead ((c :: cs) ++ ·)).filterMap SqlScript.pushStatement = [sql]
  rw [List.modifyHead_cons, List.append_nil, List.filterMap_cons, hpush, ← hsql,
    String.ofList_toList]
  rfl

end SqlBuild
end Frontend
end AgentDb
