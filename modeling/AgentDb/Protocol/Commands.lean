import AgentDb.Protocol.Envelope

/-!
# Commands that name a connection: `connection.rs`, `catalog_command.rs`, `query_command.rs`

A connection is named by its id, by its exact name or as the one of the session. Seven commands
carry such a selector; their arguments are read from the JSON value of the envelope.
-/

namespace AgentDb
namespace Protocol

open Json

/-! ### Selectors -/

def maxConnectionNameBytes : ℕ := 256

/-- `ConnectionSelector`. -/
inductive ConnectionSelector
  | id (id : Uuid)
  | name (name : String)
  | current
  deriving DecidableEq

/-- `ConnectionSelectorError`. -/
inductive ConnectionSelectorError
  | missingKind
  | invalidId
  | invalidName
  deriving DecidableEq, Repr

/-- `char::is_control`. -/
def isControl (c : Char) : Bool := c.toNat < 32 ∨ (127 ≤ c.toNat ∧ c.toNat < 160)

/-- `str::strip_prefix`. -/
def stripPrefix (lead : String) (value : String) : Option String :=
  if lead.toList.isPrefixOf value.toList then
    some (String.ofList (value.toList.drop lead.toList.length))
  else none

variable (parseUuid : String → Option Uuid)

/-- `ConnectionSelector::from_str`. -/
def ConnectionSelector.fromStr (value : String) :
    Except ConnectionSelectorError ConnectionSelector :=
  if value = "current" then .ok .current
  else match stripPrefix "id:" value with
    | some text =>
        match parseUuid text with
        | some uuid => .ok (.id uuid)
        | none => .error .invalidId
    | none =>
        match stripPrefix "name:" value with
        | some text =>
            if text = "" ∨ text.utf8ByteSize > maxConnectionNameBytes ∨
                text.toList.any isControl then
              .error .invalidName
            else .ok (.name text)
        | none => .error .missingKind

/-- `ConnectionSelector::deserialize`. -/
def readSelector (v : Value) : Option ConnectionSelector :=
  (readString v).bind fun value => (ConnectionSelector.fromStr parseUuid value).toOption

/-- An integer of 64 bits without a sign. -/
def readU64 : Value → Option ℕ
  | .number (.int n) => if 0 ≤ n ∧ n < 2 ^ 64 then some n.toNat else none
  | _ => none

/-! ### Arguments -/

/-- `ConnectionSelectorArguments`; `CatalogArguments` is the same. -/
structure ConnectionSelectorArguments where
  connection : ConnectionSelector

/-- `TableDescribeArguments`. -/
structure TableDescribeArguments where
  connection : ConnectionSelector
  table : String

/-- `QueryPlanArguments`. -/
structure QueryPlanArguments where
  connection : ConnectionSelector
  sql : String
  maxRows : Option ℕ

/-- `SqlProposeArguments`. -/
structure SqlProposeArguments where
  connection : ConnectionSelector
  sql : String

def ConnectionSelectorArguments.fromValue (v : Value) : Option ConnectionSelectorArguments := do
  let entries ← structEntries ["connection"] v
  let connection ← (entries.lookup "connection").bind (readSelector parseUuid)
  return { connection }

def TableDescribeArguments.fromValue (v : Value) : Option TableDescribeArguments := do
  let entries ← structEntries ["connection", "table"] v
  let connection ← (entries.lookup "connection").bind (readSelector parseUuid)
  let table ← (entries.lookup "table").bind readString
  return { connection, table }

def QueryPlanArguments.fromValue (v : Value) : Option QueryPlanArguments := do
  let entries ← structEntries ["connection", "sql", "maxRows"] v
  let connection ← (entries.lookup "connection").bind (readSelector parseUuid)
  let sql ← (entries.lookup "sql").bind readString
  let maxRows ← readOption readU64 (entries.lookup "maxRows")
  return { connection, sql, maxRows }

def SqlProposeArguments.fromValue (v : Value) : Option SqlProposeArguments := do
  let entries ← structEntries ["connection", "sql"] v
  let connection ← (entries.lookup "connection").bind (readSelector parseUuid)
  let sql ← (entries.lookup "sql").bind readString
  return { connection, sql }

/-- `decode_arguments`: the arguments of the command the request carries. -/
def decodeArguments {A : Type} (command : CommandName) (fromValue : Value → Option A)
    (request : RequestEnvelope) : Option A :=
  if request.command ≠ command then none else fromValue request.arguments

/-- The selector of a request that names a connection. -/
def RequestEnvelope.selector (request : RequestEnvelope) : Option ConnectionSelector :=
  match request.command with
  | .connectionShow | .connectionTest | .catalogShow | .schemaList =>
      (ConnectionSelectorArguments.fromValue parseUuid request.arguments).map (·.connection)
  | .tableDescribe =>
      (TableDescribeArguments.fromValue parseUuid request.arguments).map (·.connection)
  | .queryPlan => (QueryPlanArguments.fromValue parseUuid request.arguments).map (·.connection)
  | .sqlPropose => (SqlProposeArguments.fromValue parseUuid request.arguments).map (·.connection)
  | _ => none

end Protocol
end AgentDb
