import AgentDb.Introspect.Model
import AgentDb.Services.ConnectionEdits
import AgentDb.Services.ConnectionService

/-!
# What an agent is shown of a table: `describe_table` of `mcp/tools.rs`

A table is asked for by a text: its name, or its schema and its name with a dot in between. The
tool shows the first table that the text names, and if there is none the first one whose name
differs in the case of its letters only. Where the text names more than one table, it is the order
of the catalog that decides which one is shown.

`describesOnly_iff` is the exact condition under which it does not.
-/

namespace AgentDb
namespace Mcp

open Introspect Json Services

/-! ### The tool -/

/-- `McpError`, by its constructor and its message. -/
inductive McpError
  | invalidParams (message : String)
  | internalError (message : String)
  deriving DecidableEq, Repr

/-- The schema-qualified name of a table. -/
def qualifiedName (t : Table) : String :=
  match t.schema with
  | some s => s ++ "." ++ t.name
  | none => t.name

/-- The text is the qualified or the bare name of the table. -/
def isNamed (want : String) (t : Table) : Bool := qualifiedName t = want ∨ t.name = want

/-- The text is the bare name of the table, but for the case of its letters. -/
def isNamedAlike (want : String) (t : Table) : Bool := eqIgnoreAsciiCase t.name want

/-- The table of a catalog that is shown for a text. -/
def findTable (catalog : Catalog) (want : String) : Option Table :=
  (catalog.tables.find? (isNamed want)).or (catalog.tables.find? (isNamedAlike want))

def optionalText : Option String → Value
  | some s => .string s
  | none => .null

/-- What is shown of a table. -/
def shownTable (profile : AgentConnectionSummary) (table : Table) : Value :=
  .object [("connection", .string profile.name), ("schema", optionalText table.schema),
    ("table", .string table.name),
    ("note", optionalText (if profile.engine.isDocument then some ("MongoDB columns are " ++
      "inferred from a bounded document sample — fields not seen in the sample may exist")
      else none)),
    ("rowEstimate", match table.rowEstimate with
      | some n => .number (.int n)
      | none => .null),
    ("columns", .array (table.columns.map fun c =>
      .object [("name", .string c.name), ("dataType", .string c.dataType),
        ("nullable", .bool c.nullable), ("pk", .bool c.pk)])),
    ("foreignKeys", .array (table.foreignKeys.map fun f =>
      .object [("column", .string f.column), ("referencesTable", .string f.referencesTable),
        ("referencesColumn", .string f.referencesColumn)]))]

/-- The error for a text that names no table. -/
def noTable (profile : AgentConnectionSummary) (want : String) : McpError :=
  .invalidParams ("no table matching '" ++ want ++ "' in '" ++ profile.name ++ "'")

/-- `describe_table`, with the connection it resolves and the catalog it loads. What it emits and
audits fails no call. -/
def describeTable (resolved : Except McpError AgentConnectionSummary) (loaded : AppResult Catalog)
    (want : String) : Except McpError Value := do
  let profile ← resolved
  let catalog ← loaded.mapError fun error => .internalError error.toText
  match findTable catalog want with
  | some table => pure (shownTable profile table)
  | none => throw (noTable profile want)

/-! ### What a text denotes -/

/-- The tables a text denotes: those of its name, and if there are none those of its name but for
the case of its letters. -/
def denoted (catalog : Catalog) (want : String) : List Table :=
  if catalog.tables.filter (isNamed want) = [] then catalog.tables.filter (isNamedAlike want)
  else catalog.tables.filter (isNamed want)

theorem findTable_eq (catalog : Catalog) (want : String) :
    findTable catalog want = (denoted catalog want).head? := by
  rw [findTable, denoted, ← List.head?_filter, ← List.head?_filter]
  by_cases h : catalog.tables.filter (isNamed want) = []
  · rw [if_pos h, h, List.head?_nil, Option.none_or]
  · obtain ⟨t, rest, ht⟩ := List.exists_cons_of_ne_nil h
    rw [if_neg h, ht, List.head?_cons, Option.some_or]

theorem denoted_perm {catalog catalog' : Catalog} (h : catalog'.tables.Perm catalog.tables)
    (want : String) : (denoted catalog' want).Perm (denoted catalog want) := by
  have hnamed := h.filter (isNamed want)
  have hempty : catalog'.tables.filter (isNamed want) = [] ↔
      catalog.tables.filter (isNamed want) = [] := by
    rw [← List.length_eq_zero_iff, ← List.length_eq_zero_iff, hnamed.length_eq]
  unfold denoted
  by_cases hnone : catalog.tables.filter (isNamed want) = []
  · rw [if_pos (hempty.2 hnone), if_pos hnone]
    exact h.filter _
  · rw [if_neg fun h' => hnone (hempty.1 h'), if_neg hnone]
    exact hnamed

/-- A table is the only one that a text denotes. -/
def OnlyDenoted (catalog : Catalog) (want : String) (t : Table) : Prop :=
  t ∈ denoted catalog want ∧ ∀ t' ∈ denoted catalog want, t' = t

/-- A text denotes one table at most. -/
def Unambiguous (catalog : Catalog) (want : String) : Prop :=
  ∀ t ∈ denoted catalog want, ∀ t' ∈ denoted catalog want, t = t'

/-- The tool shows the only table that a text denotes, and fails when there is not exactly one; the
qualified name of a table shows no other one; and the order of the catalog does not matter. -/
structure DescribesOnly (profile : AgentConnectionSummary) (catalog : Catalog) (want : String) :
    Prop where
  only : ∀ t, findTable catalog want = some t → OnlyDenoted catalog want t
  fails : (∀ t, ¬ OnlyDenoted catalog want t) →
    describeTable (.ok profile) (.ok catalog) want = .error (noTable profile want)
  qualified : ∀ u ∈ catalog.tables, qualifiedName u = want →
    ∀ t, findTable catalog want = some t → t = u
  order : ∀ catalog' : Catalog, catalog'.tables.Perm catalog.tables →
    findTable catalog' want = findTable catalog want

theorem describeTable_of_findTable {profile : AgentConnectionSummary} {catalog : Catalog}
    {want : String} (h : findTable catalog want = none) :
    describeTable (.ok profile) (.ok catalog) want = .error (noTable profile want) := by
  simp only [describeTable, Except.mapError, bind, Except.bind, h]
  rfl

/-- **A table is shown for what it is exactly when the text denotes one table at most.** -/
theorem describesOnly_iff (profile : AgentConnectionSummary) (catalog : Catalog) (want : String) :
    DescribesOnly profile catalog want ↔ Unambiguous catalog want := by
  constructor
  · intro h t ht t' ht'
    obtain ⟨first, rest, hdenoted⟩ := List.exists_cons_of_ne_nil (List.ne_nil_of_mem ht)
    have hfound : findTable catalog want = some first := by
      rw [findTable_eq, hdenoted, List.head?_cons]
    have honly := (h.only first hfound).2
    rw [honly t ht, honly t' ht']
  · intro h
    have hfirst : ∀ t, findTable catalog want = some t → t ∈ denoted catalog want := by
      intro t ht
      rw [findTable_eq] at ht
      exact List.mem_of_head? ht
    refine ⟨fun t ht => ⟨hfirst t ht, fun t' ht' => h t' ht' t (hfirst t ht)⟩, fun hnone => ?_,
      fun u hu hname t ht => ?_, fun catalog' hperm => ?_⟩
    · refine describeTable_of_findTable (Option.eq_none_iff_forall_ne_some.2 fun t ht => hnone t ?_)
      exact ⟨hfirst t ht, fun t' ht' => h t' ht' t (hfirst t ht)⟩
    · have hnamed : u ∈ catalog.tables.filter (isNamed want) :=
        List.mem_filter.2 ⟨hu, decide_eq_true (.inl hname)⟩
      have hu' : u ∈ denoted catalog want := by
        rw [denoted, if_neg (List.ne_nil_of_mem hnamed)]
        exact hnamed
      exact h t (hfirst t ht) u hu'
    · have hdenoted := denoted_perm hperm want
      rw [findTable_eq, findTable_eq]
      cases hlist : denoted catalog want with
      | nil =>
        rw [hlist] at hdenoted
        rw [hdenoted.eq_nil]
      | cons first rest =>
        cases hlist' : denoted catalog' want with
        | nil =>
          rw [hlist, hlist'] at hdenoted
          exact absurd hdenoted.symm.eq_nil (List.cons_ne_nil _ _)
        | cons first' rest' =>
          have hmem : first' ∈ denoted catalog want := by
            rw [← hdenoted.mem_iff, hlist']
            exact List.mem_cons_self
          have hhead : first ∈ denoted catalog want := by
            rw [hlist]
            exact List.mem_cons_self
          rw [List.head?_cons, List.head?_cons, h first' hmem first hhead]

/-! ### One name in two schemas -/

def tableNamed (schema : Option String) (name : String) (column : String) : Table :=
  ⟨schema, name, "table", [⟨column, "text", true, false⟩], [], [], none⟩

/-- Users of the application, and those of the audit log. -/
def twoUsers : Catalog :=
  ⟨[tableNamed (some "audit") "users" "actor", tableNamed (some "public") "users" "email"], []⟩

def sampleConnection : AgentConnectionSummary :=
  ⟨.ofByte 1, "app", .postgres, "app", none, true, false⟩

theorem describesOnly_twoUsers : ¬ ∀ (profile : AgentConnectionSummary) (catalog : Catalog)
    (want : String),
    (catalog.tables.Pairwise fun t t' => (t.schema, t.name) ≠ (t'.schema, t'.name)) →
    DescribesOnly profile catalog want := by
  intro h
  have hdistinct : twoUsers.tables.Pairwise
      fun t t' => (t.schema, t.name) ≠ (t'.schema, t'.name) := by decide
  have horder := (h sampleConnection twoUsers "users" hdistinct).order
    ⟨twoUsers.tables.reverse, []⟩ (List.reverse_perm _)
  exact absurd horder (by decide +kernel)

end Mcp
end AgentDb
