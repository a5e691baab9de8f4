import AgentDb.SqlScript.Split

/-!
# The lexical rules of the engines

What `splitStatements` is to agree with: for each SQL engine the tokens of a script by the
engine's own rules, as far as they decide where strings, quoted names, comments and dollar quotes
end. The settings are the defaults of the engines (`standard_conforming_strings` on, no
`ANSI_QUOTES`, backslash escapes on). `SplitsRight` says that the scanner cuts at the semicolons
the engine sees and drops a segment only if it holds nothing to execute; `SameRule` says of one
token that the scanner lexes it by the engine's rule.
-/

namespace AgentDb
namespace SqlScript

open Lexing

/-- The engines with a SQL grammar. -/
inductive Dialect
  | postgres
  | mysql
  | sqlite
  deriving DecidableEq, Repr

def dialect : Engine → Option Dialect
  | .postgres => some .postgres
  | .mysql => some .mysql
  | .sqlite => some .sqlite
  | .mongodb => none

/-- What a token is. A quoted name is a `quoted` token inside double quotes, which every engine
reads like a string, and a `name` token inside backticks or brackets. -/
inductive Kind
  | blank
  | semicolon
  | lineComment
  | hashComment
  | blockComment
  | executableComment
  | quoted
  | escapeString
  | name
  | dollarBody
  | word
  | variable
  | other
  deriving DecidableEq, Repr

structure Token where
  kind : Kind
  len : ℕ
  deriving DecidableEq, Repr

/-! ### Parts of tokens -/

/-- The engine's own white space. SQLite has no vertical tab. -/
def isBlankChar (d : Dialect) (c : Char) : Bool :=
  c.toNat ∈ [9, 10, 12, 13, 32] ∨ (d ≠ .sqlite ∧ c.toNat = 11)

def identStart (c : Char) : Bool := c.isAlpha || c = '_' || 128 ≤ c.toNat

/-- A character inside a name; all three engines allow a dollar sign there. -/
def identCont (c : Char) : Bool := identStart c || c.isDigit || c = '$'

/-- How many characters in a row satisfy the predicate. -/
def run (p : Char → Bool) (cs : List Char) : ℕ := (cs.takeWhile p).length

/-- A line comment of PostgreSQL ends at a lone carriage return too. -/
def postgresLineLen : List Char → ℕ
  | [] => 0
  | c :: cs =>
      if c = '\n' then 0
      else if c = '\r' then if cs.head? = some '\n' then 1 else 0
      else 1 + postgresLineLen cs

/-- How far a block comment of PostgreSQL reaches, with `depth` comments open inside it. -/
def nestedLen (depth : ℕ) : List Char → ℕ
  | [] => 0
  | [_] => 1
  | c :: d :: cs =>
      if c = '*' ∧ d = '/' then
        match depth with
        | 0 => 2
        | depth + 1 => 2 + nestedLen depth cs
      else if c = '/' ∧ d = '*' then 2 + nestedLen (depth + 1) cs
      else 1 + nestedLen depth (d :: cs)

/-- `dolqdelim` of PostgreSQL: the tag is empty or a name without a dollar sign. -/
def postgresTagLen (cs : List Char) : Option ℕ :=
  let tag := (cs.drop 1).takeWhile fun c => identStart c || c.isDigit
  if tag.head?.all identStart ∧ (cs.drop (1 + tag.length)).head? = some '$' then
    some (tag.length + 2) else none

/-- A number, with the junk of a name that starts right behind it. -/
def postgresNumberLen (cs : List Char) : ℕ :=
  let n := run Char.isDigit cs
  if (cs.drop n).head?.any identStart then n + run identCont (cs.drop n) else n

/-- An executable comment of MySQL ends at the first `*/` outside a string. -/
def executableLen : ℕ → List Char → ℕ
  | 0, _ => 0
  | _, [] => 0
  | _, [_] => 1
  | fuel + 1, c :: d :: cs =>
      if c = '*' ∧ d = '/' then 2
      else if c = '\'' ∨ c = '"' then
        let n := quoteLen true c (d :: cs)
        1 + n + executableLen fuel ((d :: cs).drop n)
      else 1 + executableLen fuel (d :: cs)

/-- A bracketed name of SQLite ends at the first closing bracket. -/
def bracketLen : List Char → ℕ
  | [] => 0
  | c :: cs => if c = ']' then 1 else 1 + bracketLen cs

/-- The parenthesised suffix of a variable of SQLite, which holds no space. -/
def suffixLen : List Char → ℕ
  | [] => 0
  | c :: cs =>
      if c = ')' then 1 else if isBlankChar .mysql c then 0 else 1 + suffixLen cs

/-- A variable of SQLite after its first character, `n` characters of its name read. -/
def variableLen (n : ℕ) : List Char → ℕ
  | [] => 0
  | c :: cs =>
      if identCont c then 1 + variableLen (n + 1) cs
      else if c = '(' ∧ 0 < n then 1 + suffixLen cs
      else
        match c, cs with
        | ':', ':' :: cs => 2 + variableLen n cs
        | _, _ => 0

/-! ### Tokens -/

def postgresToken : List Char → Token
  | [] => ⟨.other, 0⟩
  | c :: cs =>
      if isBlankChar .postgres c then ⟨.blank, 1⟩
      else if c = ';' then ⟨.semicolon, 1⟩
      else if c = '\'' ∨ c = '"' then ⟨.quoted, 1 + quoteLen false c cs⟩
      else if c = '-' ∧ cs.head? = some '-' then ⟨.lineComment, postgresLineLen (c :: cs)⟩
      else if c = '/' ∧ cs.head? = some '*' then ⟨.blockComment, 2 + nestedLen 0 (cs.drop 1)⟩
      else if (c = 'e' ∨ c = 'E') ∧ cs.head? = some '\'' then
        ⟨.escapeString, 2 + quoteLen true '\'' (cs.drop 1)⟩
      else if identStart c then ⟨.word, 1 + run identCont cs⟩
      else if c.isDigit then ⟨.word, 1 + postgresNumberLen cs⟩
      else if c = '$' then
        match postgresTagLen (c :: cs) with
        | some n => ⟨.dollarBody, n + tagLen ((c :: cs).take n) ((c :: cs).drop n)⟩
        | none => ⟨.other, 1⟩
      else ⟨.other, 1⟩

/-- What must follow two hyphens for MySQL to see a comment. -/
def endsHyphens (c : Char) : Bool := c.toNat ≤ 32 || c.toNat = 127

def mysqlToken : List Char → Token
  | [] => ⟨.other, 0⟩
  | c :: cs =>
      if isBlankChar .mysql c then ⟨.blank, 1⟩
      else if c = ';' then ⟨.semicolon, 1⟩
      else if c = '\'' ∨ c = '"' then ⟨.quoted, 1 + quoteLen true c cs⟩
      else if c = '\x60' then ⟨.name, 1 + quoteLen false c cs⟩
      else if c = '#' then ⟨.hashComment, lineLen (c :: cs)⟩
      else if c = '-' ∧ cs.head? = some '-' ∧ (cs.drop 1).head?.all endsHyphens then
        ⟨.lineComment, lineLen (c :: cs)⟩
      else if c = '/' ∧ cs.head? = some '*' then
        if (cs.drop 1).head? = some '!' then
          ⟨.executableComment, 2 + executableLen cs.length (cs.drop 1)⟩
        else ⟨.blockComment, 2 + blockLen (cs.drop 1)⟩
      else if identCont c then ⟨.word, 1 + run identCont cs⟩
      else ⟨.other, 1⟩

def sqliteToken : List Char → Token
  | [] => ⟨.other, 0⟩
  | c :: cs =>
      if isBlankChar .sqlite c then ⟨.blank, 1⟩
      else if c = ';' then ⟨.semicolon, 1⟩
      else if c = '\'' ∨ c = '"' then ⟨.quoted, 1 + quoteLen false c cs⟩
      else if c = '\x60' then ⟨.name, 1 + quoteLen false c cs⟩
      else if c = '[' then ⟨.name, 1 + bracketLen cs⟩
      else if c = '-' ∧ cs.head? = some '-' then ⟨.lineComment, lineLen (c :: cs)⟩
      -- the last two characters of a script are no comment
      else if c = '/' ∧ cs.head? = some '*' ∧ cs.drop 1 ≠ [] then
        ⟨.blockComment, 2 + blockLen (cs.drop 1)⟩
      else if c ∈ ['$', '@', '#', ':'] then ⟨.variable, 1 + variableLen 0 cs⟩
      else if identCont c then ⟨.word, 1 + run identCont cs⟩
      else ⟨.other, 1⟩

/-- The first token by the rules of the engine. -/
def token : Dialect → List Char → Token
  | .postgres => postgresToken
  | .mysql => mysqlToken
  | .sqlite => sqliteToken

end SqlScript
end AgentDb
