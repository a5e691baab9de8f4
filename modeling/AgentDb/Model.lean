import Mathlib.Tactic

/-!
# Shared vocabulary: `model.rs`

The enumerations the subsystems share, with the texts `store/mod.rs` keeps them under.
-/

namespace AgentDb

/-- `Engine`. -/
inductive Engine
  | postgres
  | mysql
  | sqlite
  | mongodb
  deriving DecidableEq, Repr

/-- Document engines have no SQL surface. -/
def Engine.isDocument : Engine → Bool
  | .mongodb => true
  | _ => false

/-- `QueryKind`: the class of a statement. -/
inductive QueryKind
  | read
  | write
  | ddl
  | privilege
  deriving DecidableEq, Repr

/-- `engine_str`. -/
def engineStr : Engine → String
  | .postgres => "postgres"
  | .mysql => "mysql"
  | .sqlite => "sqlite"
  | .mongodb => "mongodb"

/-- `kind_str`. -/
def kindStr : QueryKind → String
  | .read => "read"
  | .write => "write"
  | .ddl => "ddl"
  | .privilege => "privilege"

/-- `RiskLevel`. -/
inductive RiskLevel
  | low
  | medium
  | high
  deriving DecidableEq, Repr

/-- `Classification`, the result of the statement classifier. -/
structure Classification where
  kind : QueryKind
  risk : RiskLevel
  statementCount : ℕ
  noWhere : Bool
  tables : List String
  notes : List String
  rollbackSafe : Bool
  deriving DecidableEq, Repr

/-- `SafetySettings`: what an owner has allowed on one connection. -/
structure SafetySettings where
  requireApproval : Bool
  allowWrites : Bool
  wrapWritesInTx : Bool
  explainPreview : Bool
  autoRunReads : Bool
  maxRows : ℕ
  execPreviewRowLimit : ℤ
  deriving DecidableEq, Repr

/-- `SafetySettings::default`, also the defaults of the table's columns. -/
instance : Inhabited SafetySettings where
  default :=
    { requireApproval := true
      allowWrites := false
      wrapWritesInTx := true
      explainPreview := true
      autoRunReads := true
      maxRows := 1000
      execPreviewRowLimit := 50000 }

theorem engineStr_injective : Function.Injective engineStr := by
  intro a b h
  cases a <;> cases b <;> first | rfl | exact absurd h (by decide)

theorem kindStr_injective : Function.Injective kindStr := by
  intro a b h
  cases a <;> cases b <;> first | rfl | exact absurd h (by decide)

end AgentDb
