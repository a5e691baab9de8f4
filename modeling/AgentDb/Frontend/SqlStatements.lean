import AgentDb.Frontend.SchemaDiff
import AgentDb.SqlScript.Split

/-!
# The frontend's splitter: `sqlStatements.ts`

The SQL screen splits a script as well, to count the statements and to list them for approval. The
scan is the one of `sql_script/mod.rs` without backslash escapes (`scanner_eq`); what is dropped is
decided with two regular expressions, and by the white space of JavaScript.
-/

namespace AgentDb
namespace Frontend
namespace SqlStatements

open Lexing SqlScript

/-! ### The comment check -/

/-- `s.trim()`. -/
def jsTrim (cs : List Char) : List Char :=
  ((cs.dropWhile isBlank).reverse.dropWhile isBlank).reverse

theorem trim_eq (s : String) : Frontend.trim s = String.ofList (jsTrim s.toList) := rfl

/-- The matches of a regular expression: how long the match at the head of a text is. -/
abbrev Matcher := List Char → Option ℕ

/-- Text is gone over match by match, or else character by character. -/
def replacer (m : Matcher) : Lexer Char where
  len cs := max 1 ((m cs).getD 1)
  len_pos _ _ := by omega

/-- `s.replace(re, " ")` with a global `re`. -/
def replaceAll (m : Matcher) (s : List Char) : List Char :=
  ((replacer m).positions s).flatMap fun rest => if (m rest).isSome then [' '] else rest.take 1

/-- How far the text reaches through the first `*/`. -/
def closeLen : List Char → Option ℕ
  | c :: d :: cs => if c = '*' ∧ d = '/' then some 2 else (closeLen (d :: cs)).map (· + 1)
  | _ => none

/-- `\/\*[\s\S]*?\*\/`. -/
def blockComment : Matcher
  | '/' :: '*' :: cs => (closeLen cs).map (· + 2)
  | _ => none

/-- `--[^\n]*`. -/
def lineComment : Matcher
  | '-' :: '-' :: cs => some (2 + lineLen cs)
  | _ => none

/-- `stripComments`. -/
def stripComments (s : List Char) : List Char :=
  replaceAll lineComment (replaceAll blockComment s)

/-- `push`: what a segment adds to the result. -/
def push (raw : List Char) : Option String :=
  let s := jsTrim raw
  if s ≠ [] ∧ jsTrim (stripComments s) ≠ [] then some (String.ofList s) else none

/-! ### The scan -/

/-- How far a quote reaches after its opening character. -/
def quoteLen (c : Char) : List Char → ℕ
  | [] => 0
  | [_] => 1
  | a :: b :: cs =>
      if a = c then if b = c then 2 + quoteLen c cs else 1
      else 1 + quoteLen c (b :: cs)

/-- `dollarTag`. The optional first class of `/^\$[A-Za-z_]?[A-Za-z0-9_]*\$/` is part of the
repeated one. -/
def dollarTag : List Char → Option (List Char)
  | '$' :: cs =>
      let word := cs.takeWhile isTagChar
      if (cs.drop word.length).head? = some '$' then some ('$' :: word ++ ['$']) else none
  | _ => none

/-- `sql.indexOf(tag)`, in what is left of the text. -/
def indexOf (tag : List Char) : List Char → Option ℕ
  | [] => if tag = [] then some 0 else none
  | c :: cs => if tag.isPrefixOf (c :: cs) then some 0 else (indexOf tag cs).map (· + 1)

/-- How far the index moves in one turn of the loop. -/
def advance : List Char → ℕ
  | [] => 0
  | c :: cs =>
      if c = '\'' ∨ c = '"' then 1 + quoteLen c cs
      else if c = '-' ∧ cs.head? = some '-' then lineLen (c :: cs)
      else if c = '/' ∧ cs.head? = some '*' then 2 + blockLen (cs.drop 1)
      else if c = '$' then
        match dollarTag (c :: cs) with
        | some tag =>
            let rest := (c :: cs).drop tag.length
            tag.length + match indexOf tag rest with
              | some e => e + tag.length
              | none => rest.length
        | none => 1
      else 1

theorem quoteLen_eq (c : Char) (cs : List Char) :
    quoteLen c cs = SqlScript.quoteLen false c cs := by
  fun_induction quoteLen c cs with
  | case1 => rfl
  | case2 => rfl
  | case3 cs ih => rw [SqlScript.quoteLen, if_neg (by simp), if_pos rfl, if_pos rfl, ih]
  | case4 b cs hb => rw [SqlScript.quoteLen, if_neg (by simp), if_pos rfl, if_neg hb]
  | case5 a b cs ha ih => rw [SqlScript.quoteLen, if_neg (by simp), if_neg ha, ih]

theorem indexOf_eq {tag : List Char} (hne : tag ≠ []) (cs : List Char) :
    (match indexOf tag cs with
      | some e => e + tag.length
      | none => cs.length) = tagLen tag cs := by
  induction cs with
  | nil =>
    rw [indexOf, if_neg hne]
    rfl
  | cons c cs ih =>
    rw [indexOf, tagLen]
    split_ifs with hprefix
    · exact Nat.zero_add _
    · rw [← ih]
      cases indexOf tag cs with
      | none => exact Nat.add_comm _ _
      | some e =>
        show e + 1 + tag.length = 1 + (e + tag.length)
        omega

theorem dollarTag_eq (cs : List Char) :
    dollarTag ('$' :: cs) = (dollarTagLen ('$' :: cs)).map (('$' :: cs).take ·) := by
  simp only [dollarTag, dollarTagLen, List.drop_succ_cons, List.drop_zero, Nat.add_comm 1]
  split_ifs with hclose
  · obtain ⟨rest, hrest⟩ := List.head?_eq_some_iff.1 hclose
    rw [Option.map_some, List.take_succ_cons, List.take_add, hrest,
      ← List.prefix_iff_eq_take.1 (List.takeWhile_prefix _)]
    rfl
  · rfl

/-- The scan is the one of the backend without backslash escapes. -/
theorem advance_eq (cs : List Char) : advance cs = SqlScript.advance false cs := by
  cases cs with
  | nil => rfl
  | cons c cs =>
    rw [advance, SqlScript.advance, quoteLen_eq]
    split_ifs with hquote hline hblock hdollar
    · rfl
    · rfl
    · rfl
    · subst hdollar
      rw [dollarTag_eq]
      cases htag : dollarTagLen ('$' :: cs) with
      | none => rfl
      | some n =>
        have hlength : (('$' :: cs).take n).length = n :=
          List.length_take_of_le (dollarTagLen_le htag)
        have htwo := two_le_of_dollarTagLen htag
        have hne : ('$' :: cs).take n ≠ [] := List.ne_nil_of_length_pos (by omega)
        simp only [Option.map_some, hlength]
        rw [← indexOf_eq hne, hlength]
    · rfl

def scanner : Lexer Char where
  len := advance
  len_pos c cs := by
    rw [advance_eq]
    exact (SqlScript.scanner false).len_pos c cs

theorem scanner_eq : scanner = SqlScript.scanner false := by
  have hlen : advance = SqlScript.advance false := by
    funext cs
    exact advance_eq cs
  simp only [scanner, SqlScript.scanner, hlen]

/-- `splitStatements`. -/
def splitStatements (sql : String) : List String :=
  (scanner.texts ';' sql.toList).filterMap push

end SqlStatements
end Frontend
end AgentDb
