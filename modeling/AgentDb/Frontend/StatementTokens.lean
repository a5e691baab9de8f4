import AgentDb.Frontend.StatementText

/-!
# The tokens of a statement

What is written down between spaces, brackets and commas is read back: the names and the values of
a statement are tokens of their own, whatever stands in them (`tokens_statement`).
-/

namespace AgentDb
namespace Frontend
namespace SqlBuild

open SqlTokens

variable {engine : Engine} {next : Option Char} {table : CatalogTable}

/-! ### What can be written -/

/-- A text without the character that no statement may hold. -/
def NulFree (s : String) : Prop := '\x00' ∉ s.toList

instance (s : String) : Decidable (NulFree s) := inferInstanceAs (Decidable (¬ _))

/-- The engine takes a name as it is written. -/
def Writable (engine : Engine) (name : String) : Prop :=
  NulFree name ∧ (dialect engine).denotes name.toList = some name.toList

instance (engine : Engine) (name : String) : Decidable (Writable engine name) :=
  inferInstanceAs (Decidable (NulFree name ∧ _))

/-- A number, or a text that can be quoted. -/
def Literal.Writable : Literal → Prop
  | .null => True
  | .number text => isNumber text.toList = true
  | .string value => NulFree value

def Condition.col : Condition → String
  | .isNull col => col
  | .isNotNull col => col
  | .equals col _ => col
  | .contains col _ => col

/-- The value that a condition compares with. -/
def Condition.literal : Condition → Literal
  | .isNull _ => .null
  | .isNotNull _ => .null
  | .equals _ value => value
  | .contains _ pattern => .string pattern

def tableNames (engine : Engine) (table : CatalogTable) : List String :=
  (usedSchema engine table).toList ++ [table.name]

/-- The names in a statement. -/
def Statement.names (engine : Engine) : Statement → List String
  | .insert table values => tableNames engine table ++ values.map (·.1)
  | .update table set key => tableNames engine table ++ (set.map (·.1) ++ key.map (·.1))
  | .delete table key => tableNames engine table ++ key.map (·.1)
  | .page query => tableNames engine query.table ++
      (query.conditions.map (·.col) ++ query.keys.map (·.col))
  | .count query => tableNames engine query.table ++ query.conditions.map (·.col)

/-- The values in a statement. -/
def Statement.literals : Statement → List Literal
  | .insert _ values => values.map (·.2)
  | .update _ set key => set.map (·.2) ++ key.map (·.2)
  | .delete _ key => key.map (·.2)
  | .page query => query.conditions.map (·.literal)
  | .count query => query.conditions.map (·.literal)

/-! ### Numbers -/

theorem digits?_eq (cs : List Char) :
    digits? cs = if digits cs = 0 then none else some (cs.drop (digits cs)) := by
  have hsplit : cs.takeWhile Char.isDigit ++ cs.dropWhile Char.isDigit = cs :=
    List.takeWhile_append_dropWhile
  have hdrop : cs.dropWhile Char.isDigit = cs.drop (digits cs) := by
    calc cs.dropWhile Char.isDigit
      _ = (cs.takeWhile Char.isDigit ++ cs.dropWhile Char.isDigit).drop (digits cs) :=
        List.drop_left.symm
      _ = cs.drop (digits cs) := by rw [hsplit]
  rw [digits?, hdrop, digits]
  simp

theorem digits?_eq_some {cs rest : List Char} (h : digits? cs = some rest) :
    digits cs ≠ 0 ∧ rest = cs.drop (digits cs) := by
  rw [digits?_eq] at h
  split at h
  · cases h
  · rename_i hne
    exact ⟨hne, (Option.some.inj h).symm⟩

/-- An exponent up to the end. -/
theorem exponentLen_of_digits? {e : Char} {cs : List Char} (he : e = 'e' ∨ e = 'E')
    (h : digits? (cs.drop (signLen cs)) = some []) :
    exponentLen (e :: cs) = some (cs.length + 1) := by
  obtain ⟨hne, hrest⟩ := digits?_eq_some h
  have hle := digits_le (cs.drop (signLen cs))
  have hall : (cs.drop (signLen cs)).length ≤ digits (cs.drop (signLen cs)) :=
    List.drop_eq_nil_iff.1 hrest.symm
  have hsign : signLen cs ≤ cs.length := by
    cases cs with
    | nil => exact Nat.zero_le _
    | cons c cs =>
        unfold signLen
        split <;> simp
  rw [List.length_drop] at hall hle
  rw [exponentLen, if_pos he, if_neg hne]
  congr 1
  omega

/-- What the builder takes for a number without a sign is one number. -/
theorem numberLen_of_isUnsigned {cs : List Char} (h : isUnsigned cs = true) :
    numberLen cs = some cs.length := by
  unfold isUnsigned at h
  dsimp only at h
  obtain ⟨rest, hrest, hexponent⟩ := (Option.any_eq_true _ _).1 h
  obtain ⟨behind, hwhole, hfraction⟩ := Option.bind_eq_some_iff.1 hrest
  obtain ⟨hne, rfl⟩ := digits?_eq_some hwhole
  have hfrac : ∃ f, fractionLen (cs.drop (digits cs)) = some f ∧
      f ≤ (cs.drop (digits cs)).length ∧ rest = (cs.drop (digits cs)).drop f := by
    generalize cs.drop (digits cs) = behind at hfraction
    split at hfraction
    · rename_i ds
      obtain ⟨hds, rfl⟩ := digits?_eq_some hfraction
      have hle := digits_le ds
      refine ⟨1 + digits ds, by rw [fractionLen, if_neg hds], ?_, ?_⟩
      · rw [List.length_cons]
        omega
      · rw [Nat.add_comm, List.drop_succ_cons]
    · rename_i hpoint
      cases hfraction
      refine ⟨0, ?_, Nat.zero_le _, rfl⟩
      unfold fractionLen
      split
      · exact absurd rfl (hpoint _)
      · rfl
  obtain ⟨f, hf, hfle, rfl⟩ := hfrac
  have hexp : exponentLen ((cs.drop (digits cs)).drop f) =
      some ((cs.drop (digits cs)).drop f).length := by
    generalize (cs.drop (digits cs)).drop f = rest at hexponent
    split at hexponent
    · rfl
    · obtain ⟨he, hds⟩ := of_decide_eq_true hexponent
      exact exponentLen_of_digits? he hds
    · obtain ⟨he, hds⟩ := of_decide_eq_true hexponent
      exact exponentLen_of_digits? he hds
    · rename_i e ds hplus hminus
      obtain ⟨he, hds⟩ := of_decide_eq_true hexponent
      refine exponentLen_of_digits? he ?_
      have hsign : signLen ds = 0 := by
        unfold signLen
        rw [if_neg]
        rintro (hhead | hhead) <;> obtain ⟨t, rfl⟩ := List.head?_eq_some_iff.1 hhead
        · exact hplus _ rfl
        · exact hminus _ rfl
      rw [hsign]
      exact hds
  have hle := digits_le cs
  rw [List.drop_drop, List.length_drop] at hexp
  rw [List.length_drop] at hfle
  unfold numberLen
  dsimp only
  rw [if_neg hne, hf]
  change (exponentLen (cs.drop (digits cs + f))).bind _ = _
  rw [hexp]
  change some (digits cs + f + (cs.length - (digits cs + f))) = _
  congr 1
  omega

theorem numberLen_toString (n : ℕ) :
    numberLen (toString n).toList = some (toString n).toList.length := by
  rw [Nat.toString_eq_ofList_toDigits, String.toList_ofList]
  exact numberLen_of_digits Nat.toDigits_ne_nil fun c hc =>
    Nat.isDigit_of_mem_toDigits (by decide) le_rfl hc

/-! ### Tokens one after the other -/

theorem fits_ident {name : String} (hname : Writable engine name) (hnext : delimits next = true) :
    Fits (dialect engine) next (ident name) :=
  ⟨hname.1, hname.2, (ne_quote_of_delimits hnext _).2⟩

theorem chain_table (hnames : ∀ name ∈ tableNames engine table, Writable engine name)
    (hnext : delimits next = true) : Chain (dialect engine) (tableLexemes engine table) next := by
  unfold tableNames at hnames
  unfold tableLexemes
  cases hschema : usedSchema engine table with
  | none =>
      rw [hschema] at hnames
      exact ⟨fits_ident (hnames _ (by simp)) hnext, trivial⟩
  | some schema =>
      rw [hschema] at hnames
      obtain ⟨hnul, hdenotes⟩ := hnames schema (by simp)
      refine ⟨⟨hnul, hdenotes, ?_⟩, ?_, fits_ident (hnames _ (by simp)) hnext, trivial⟩
      · show some '.' ≠ _
        cases engine <;> decide
      · show _ ∧ isSymbol '.' (some (dialect engine).identQuote) = true
        cases engine <;> exact ⟨by decide, rfl⟩

theorem chain_number {t : String} (ht : isNumber t.toList = true) (hnext : delimits next = true) :
    Chain (dialect engine) (numberLexemes t) next := by
  unfold numberLexemes
  unfold isNumber at ht
  split
  · rename_i cs hcs
    rw [hcs] at ht
    have hn := numberLen_of_isUnsigned ht
    rw [← String.toList_ofList (l := cs)] at hn
    refine ⟨?_, ⟨hn, hnext⟩, trivial⟩
    obtain ⟨c, ds, hds, hc⟩ := head_of_number hn
    show _ ∧ isSymbol '-' (((String.ofList cs).toList ++ []).head?.or next) = true
    rw [hds]
    exact ⟨by decide, isSymbol_sign hc⟩
  · rename_i hsign
    refine ⟨⟨numberLen_of_isUnsigned ?_, hnext⟩, trivial⟩
    split at ht
    · rename_i cs hcs
      exact absurd hcs (hsign cs)
    · exact ht

theorem chain_literal {value : Literal} (hvalue : value.Writable) (hnext : delimits next = true) :
    Chain (dialect engine) value.lexemes next := by
  cases value with
  | null => exact ⟨⟨by decide, hnext⟩, trivial⟩
  | number t => exact chain_number hvalue hnext
  | string v => exact ⟨⟨hvalue, (ne_quote_of_delimits hnext (dialect engine)).1⟩, trivial⟩

theorem chain_equality {c : String × Literal} (hname : Writable engine c.1)
    (hvalue : c.2.Writable) (hnext : delimits next = true) :
    Chain (dialect engine) (equality c) next :=
  ⟨fits_ident hname rfl, trivial, ⟨by decide, rfl⟩, trivial, chain_literal hvalue hnext⟩

theorem chain_condition {c : Condition} (hname : Writable engine c.col)
    (hvalue : c.literal.Writable) (hnext : delimits next = true) :
    Chain (dialect engine) (c.lexemes engine) next := by
  cases c with
  | isNull col =>
      exact ⟨fits_ident hname rfl, trivial, ⟨by decide, rfl⟩, trivial, ⟨by decide, hnext⟩, trivial⟩
  | isNotNull col =>
      exact ⟨fits_ident hname rfl, trivial, ⟨by decide, rfl⟩, trivial, ⟨by decide, rfl⟩, trivial,
        ⟨by decide, hnext⟩, trivial⟩
  | equals col value => exact chain_equality hname hvalue hnext
  | contains col pattern =>
      have hcast : IsWord (castText engine).toList := by
        cases engine <;> decide
      have hlike : IsWord (likeOperator engine).toList := by
        cases engine <;> decide
      exact ⟨⟨by decide, rfl⟩, ⟨by decide, rfl⟩, fits_ident hname rfl, trivial, ⟨by decide, rfl⟩,
        trivial, ⟨hcast, rfl⟩, ⟨by decide, rfl⟩, trivial, ⟨hlike, rfl⟩, trivial,
        ⟨hvalue, (ne_quote_of_delimits hnext (dialect engine)).1⟩, trivial⟩

theorem chain_sortKey {key : SortKey} (hname : Writable engine key.col)
    (hnext : delimits next = true) : Chain (dialect engine) key.lexemes next := by
  obtain ⟨col, desc⟩ := key
  cases desc with
  | none => exact ⟨fits_ident hname hnext, trivial⟩
  | some desc =>
      cases desc with
      | true => exact ⟨fits_ident hname rfl, trivial, ⟨by decide, hnext⟩, trivial⟩
      | false => exact ⟨fits_ident hname rfl, trivial, ⟨by decide, hnext⟩, trivial⟩

/-- Parts that can be written before what delimits them can be joined. -/
theorem chain_join {d : Dialect} {sep : List Lexeme} {e : Char} {parts : List (List Lexeme)}
    (hhead : (text d sep).head? = some e) (he : delimits (some e) = true)
    (hsep : ∀ x, Chain d sep x)
    (hparts : ∀ p ∈ parts, ∀ next, delimits next = true → Chain d p next)
    (hnext : delimits next = true) : Chain d (sep.intercalate parts) next := by
  induction parts with
  | nil => trivial
  | cons part parts ih =>
      have ih := ih fun p hp => hparts p (List.mem_cons_of_mem _ hp)
      have hpart := hparts part List.mem_cons_self
      cases parts with
      | nil =>
          rw [List.intercalate_singleton]
          exact hpart next hnext
      | cons other parts =>
          rw [List.intercalate_cons_cons, List.append_assoc, chain_append, chain_append]
          refine ⟨hpart _ ?_, hsep _, ih⟩
          rw [text_append, List.head?_append, hhead]
          exact he

theorem chain_commas {d : Dialect} {parts : List (List Lexeme)}
    (hparts : ∀ p ∈ parts, ∀ next, delimits next = true → Chain d p next)
    (hnext : delimits next = true) : Chain d (commas parts) next :=
  chain_join (e := ',') rfl rfl (fun _ => ⟨⟨by decide, rfl⟩, trivial, trivial⟩) hparts hnext

theorem chain_ands {d : Dialect} {parts : List (List Lexeme)}
    (hparts : ∀ p ∈ parts, ∀ next, delimits next = true → Chain d p next)
    (hnext : delimits next = true) : Chain d (ands parts) next :=
  chain_join (e := ' ') rfl rfl (fun _ => ⟨trivial, ⟨by decide, rfl⟩, trivial, trivial⟩) hparts
    hnext

theorem chain_where {conditions : List Condition}
    (hnames : ∀ c ∈ conditions, Writable engine c.col)
    (hliterals : ∀ c ∈ conditions, c.literal.Writable) (hnext : delimits next = true) :
    Chain (dialect engine) (whereLexemes engine conditions) next := by
  unfold whereLexemes
  split
  · trivial
  · refine ⟨trivial, ⟨by decide, rfl⟩, trivial, chain_ands (fun p hp next hnext => ?_) hnext⟩
    obtain ⟨c, hc, rfl⟩ := List.mem_map.1 hp
    exact chain_condition (hnames c hc) (hliterals c hc) hnext

theorem chain_order {keys : List SortKey} (hnames : ∀ key ∈ keys, Writable engine key.col)
    (hnext : delimits next = true) : Chain (dialect engine) (orderLexemes keys) next := by
  unfold orderLexemes
  split
  · trivial
  · refine ⟨trivial, ⟨by decide, rfl⟩, trivial, ⟨by decide, rfl⟩, trivial,
      chain_commas (fun p hp next hnext => ?_) hnext⟩
    obtain ⟨key, hkey, rfl⟩ := List.mem_map.1 hp
    exact chain_sortKey (hnames key hkey) hnext

/-- A clause that may be left out starts with a space. -/
theorem delimits_where {d : Dialect} (conditions : List Condition) (hnext : delimits next = true) :
    delimits ((text d (whereLexemes engine conditions)).head?.or next) = true := by
  unfold whereLexemes
  split
  · exact hnext
  · rfl

theorem delimits_order {d : Dialect} (keys : List SortKey) (hnext : delimits next = true) :
    delimits ((text d (orderLexemes keys)).head?.or next) = true := by
  unfold orderLexemes
  split
  · exact hnext
  · rfl

theorem chain_equalities {set : List (String × Literal)}
    (hnames : ∀ c ∈ set, Writable engine c.1) (hliterals : ∀ c ∈ set, c.2.Writable) :
    ∀ p ∈ set.map equality, ∀ next, delimits next = true → Chain (dialect engine) p next := by
  intro p hp next hnext
  obtain ⟨c, hc, rfl⟩ := List.mem_map.1 hp
  exact chain_equality (hnames c hc) (hliterals c hc) hnext

/-- A statement of writable names and values can be written down. -/
theorem chain_statement {s : Statement} (hnames : ∀ name ∈ s.names engine, Writable engine name)
    (hliterals : ∀ value ∈ s.literals, value.Writable) :
    Chain (dialect engine) (s.lexemes engine) none := by
  cases s with
  | insert table values =>
      simp only [Statement.names, Statement.literals, List.forall_mem_append,
        List.forall_mem_map] at hnames hliterals
      obtain ⟨htable, hcols⟩ := hnames
      have hidents : ∀ p ∈ values.map fun c => [ident c.1], ∀ next, delimits next = true →
          Chain (dialect engine) p next := fun p hp next hnext => by
        obtain ⟨c, hc, rfl⟩ := List.mem_map.1 hp
        exact ⟨fits_ident (hcols c hc) hnext, trivial⟩
      have hvalues : ∀ p ∈ values.map fun c => c.2.lexemes, ∀ next, delimits next = true →
          Chain (dialect engine) p next := fun p hp next hnext => by
        obtain ⟨c, hc, rfl⟩ := List.mem_map.1 hp
        exact chain_literal (hliterals c hc) hnext
      simp only [Statement.lexemes, chain_append, and_assoc]
      exact ⟨⟨⟨by decide, rfl⟩, trivial, ⟨by decide, rfl⟩, trivial, trivial⟩,
        chain_table htable rfl, ⟨trivial, ⟨by decide, rfl⟩, trivial⟩, chain_commas hidents rfl,
        ⟨⟨by decide, rfl⟩, trivial, ⟨by decide, rfl⟩, trivial, ⟨by decide, rfl⟩, trivial⟩,
        chain_commas hvalues rfl, ⟨by decide, rfl⟩, trivial⟩
  | update table set key =>
      simp only [Statement.names, Statement.literals, List.forall_mem_append,
        List.forall_mem_map] at hnames hliterals
      obtain ⟨htable, hset, hkey⟩ := hnames
      simp only [Statement.lexemes, chain_append, and_assoc]
      exact ⟨⟨⟨by decide, rfl⟩, trivial, trivial⟩, chain_table htable rfl,
        ⟨trivial, ⟨by decide, rfl⟩, trivial, trivial⟩,
        chain_commas (chain_equalities hset hliterals.1) rfl,
        ⟨trivial, ⟨by decide, rfl⟩, trivial, trivial⟩,
        chain_ands (chain_equalities hkey hliterals.2) rfl⟩
  | delete table key =>
      simp only [Statement.names, Statement.literals, List.forall_mem_append,
        List.forall_mem_map] at hnames hliterals
      simp only [Statement.lexemes, chain_append, and_assoc]
      exact ⟨⟨⟨by decide, rfl⟩, trivial, ⟨by decide, rfl⟩, trivial, trivial⟩,
        chain_table hnames.1 rfl, ⟨trivial, ⟨by decide, rfl⟩, trivial, trivial⟩,
        chain_ands (chain_equalities hnames.2 hliterals) rfl⟩
  | page query =>
      simp only [Statement.names, Statement.literals, List.forall_mem_append,
        List.forall_mem_map] at hnames hliterals
      obtain ⟨htable, hconditions, hkeys⟩ := hnames
      simp only [Statement.lexemes, chain_append, and_assoc]
      exact ⟨⟨⟨by decide, rfl⟩, trivial, ⟨by decide, rfl⟩, trivial, ⟨by decide, rfl⟩, trivial,
          trivial⟩,
        chain_table htable (delimits_where _ (delimits_order _ rfl)),
        chain_where hconditions hliterals (delimits_order _ rfl), chain_order hkeys rfl,
        trivial, ⟨by decide, rfl⟩, trivial, ⟨numberLen_toString _, rfl⟩, trivial,
        ⟨by decide, rfl⟩, trivial, ⟨numberLen_toString _, rfl⟩, trivial⟩
  | count query =>
      simp only [Statement.names, Statement.literals, List.forall_mem_append,
        List.forall_mem_map] at hnames hliterals
      simp only [Statement.lexemes, chain_append, and_assoc]
      exact ⟨⟨⟨by decide, rfl⟩, trivial, ⟨by decide, rfl⟩, ⟨by decide, rfl⟩, ⟨by decide, rfl⟩,
          ⟨by decide, rfl⟩, trivial, ⟨by decide, rfl⟩, trivial, ⟨by decide, rfl⟩, trivial,
          ⟨by decide, rfl⟩, trivial, trivial⟩,
        chain_table hnames.1 (delimits_where _ rfl), chain_where hnames.2 hliterals rfl⟩

/-- The tokens of a statement: what is written without the spaces. -/
def Statement.tokens (engine : Engine) (s : Statement) : List Token :=
  (s.lexemes engine).reduceOption

/-- The text of a statement has the tokens of the statement. -/
theorem tokens_statement {sql : String} {s : Statement} (h : Writes engine sql s)
    (hnames : ∀ name ∈ s.names engine, Writable engine name)
    (hliterals : ∀ value ∈ s.literals, value.Writable) :
    SqlTokens.tokens (dialect engine) sql.toList = some (s.tokens engine) := by
  rw [h]
  exact tokens_text (chain_statement hnames hliterals)

end SqlBuild
end Frontend
end AgentDb
