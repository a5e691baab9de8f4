import Mathlib.Tactic

/-!
# Introspected schemas: `introspect/mod.rs`

The catalog as the explorer and the agents see it. It is older than the canonical snapshot of the
protocol, which has types of the same names.
-/

namespace AgentDb
namespace Introspect

/-- `Column`. -/
structure Column where
  name : String
  dataType : String
  nullable : Bool
  pk : Bool
  deriving DecidableEq, Repr

/-- `ForeignKey`: an edge from one column to a column of the referenced table. -/
structure ForeignKey where
  column : String
  referencesTable : String
  referencesColumn : String
  referencesSchema : Option String
  deriving DecidableEq, Repr

/-- `Index`. -/
structure Index where
  name : String
  columns : List String
  unique : Bool
  deriving DecidableEq, Repr

/-- `Table`. -/
structure Table where
  schema : Option String
  name : String
  kind : String
  columns : List Column
  foreignKeys : List ForeignKey
  indexes : List Index
  rowEstimate : Option ℤ
  deriving DecidableEq, Repr

/-- `DatabaseObject`. -/
structure DatabaseObject where
  schema : Option String
  name : String
  kind : String
  detail : Option String
  parent : Option String
  deriving DecidableEq, Repr

/-- `Catalog`. -/
structure Catalog where
  tables : List Table
  objects : List DatabaseObject
  deriving DecidableEq, Repr

end Introspect
end AgentDb
