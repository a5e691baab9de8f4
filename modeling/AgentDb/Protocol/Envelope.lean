import AgentDb.Lib.Json
import AgentDb.Scalars

/-!
# The broker's envelopes: `request.rs`, `response.rs` and `error.rs` of `dopedb-protocol`

A request and a response as the two sides hold them, the JSON value each is serialized as, and
the reading of such a value. A response holds a result or an error according to its flag, and an
error the message of its code; both are fields of the types here, since no other value of them
can be built. `fromValue_toValue` of each type is the round trip the frames rest on.
-/

namespace AgentDb
namespace Protocol

open Json

/-! ### Derived readers -/

/-- The entries of a struct, written as an object or as the list of its first fields. No key may
be unknown or occur twice. -/
def structEntries (fields : List String) : Value → Option (List (String × Value))
  | .object entries =>
      if entries.all (·.1 ∈ fields) ∧ (entries.map Prod.fst).Nodup then some entries else none
  | .array items => if items.length ≤ fields.length then some (fields.zip items) else none
  | _ => none

theorem structEntries_object {fields : List String} {entries : List (String × Value)}
    (hknown : ∀ e ∈ entries, e.1 ∈ fields) (hnodup : (entries.map Prod.fst).Nodup) :
    structEntries fields (.object entries) = some entries := by
  rw [structEntries, if_pos]
  exact ⟨List.all_eq_true.2 fun e he => by simpa using hknown e he, hnodup⟩

def readU16 : Value → Option UInt16
  | .number (.int n) => if 0 ≤ n ∧ n < 65536 then some (.ofNat n.toNat) else none
  | _ => none

def readBool : Value → Option Bool
  | .bool b => some b
  | _ => none

def readString : Value → Option String
  | .string s => some s
  | _ => none

/-- The name of a variant without data. -/
def readVariant : Value → Option String
  | .string name => some name
  | .object [(name, .null)] => some name
  | _ => none

/-- An optional field: absent and `null` are both `none`. -/
def readOption {α : Type} (read : Value → Option α) : Option Value → Option (Option α)
  | none | some .null => some none
  | some v => (read v).map some

def u16Value (n : UInt16) : Value := .number (.int n.toNat)

@[simp] theorem readU16_u16Value (n : UInt16) : readU16 (u16Value n) = some n := by
  have hlt : n.toNat < 65536 := n.toNat_lt
  have hrange : 0 ≤ (n.toNat : ℤ) ∧ (n.toNat : ℤ) < 65536 := by omega
  rw [u16Value, readU16, if_pos hrange]
  simp

/-! ### Requests -/

/-- `CommandName`. -/
inductive CommandName
  | version
  | status
  | appOpen
  | skillsList
  | skillsGet
  | skillStatus
  | skillInstall
  | skillRepair
  | skillRemove
  | connectionList
  | connectionShow
  | connectionTest
  | catalogShow
  | schemaList
  | tableDescribe
  | queryPlan
  | queryRun
  | queryCancel
  | sqlPropose
  | operationShow
  | operationWait
  | operationCancel
  | unknown
  deriving DecidableEq, Repr

namespace CommandName

/-- The name a command is serialized under. -/
def wireName : CommandName → String
  | .version => "version"
  | .status => "status"
  | .appOpen => "app.open"
  | .skillsList => "skills.list"
  | .skillsGet => "skills.get"
  | .skillStatus => "skill.status"
  | .skillInstall => "skill.install"
  | .skillRepair => "skill.repair"
  | .skillRemove => "skill.remove"
  | .connectionList => "connection.list"
  | .connectionShow => "connection.show"
  | .connectionTest => "connection.test"
  | .catalogShow => "catalog.show"
  | .schemaList => "schema.list"
  | .tableDescribe => "table.describe"
  | .queryPlan => "query.plan"
  | .queryRun => "query.run"
  | .queryCancel => "query.cancel"
  | .sqlPropose => "sql.propose"
  | .operationShow => "operation.show"
  | .operationWait => "operation.wait"
  | .operationCancel => "operation.cancel"
  | .unknown => "Unknown"

/-- `CommandName::ALL`. -/
def all : List CommandName :=
  [.version, .status, .appOpen, .skillsList, .skillsGet, .skillStatus, .skillInstall, .skillRepair,
    .skillRemove, .connectionList, .connectionShow, .connectionTest, .catalogShow, .schemaList,
    .tableDescribe, .queryPlan, .queryRun, .queryCancel, .sqlPropose, .operationShow,
    .operationWait, .operationCancel]

/-- The command of a name; every other name is `unknown`. -/
def ofName (name : String) : CommandName := (all.find? (·.wireName = name)).getD .unknown

@[simp] theorem ofName_wireName (command : CommandName) : ofName command.wireName = command := by
  cases command <;> decide +kernel

end CommandName

/-- `SessionAuthentication`. -/
structure SessionAuthentication where
  terminalSessionId : Uuid
  token : String
  deriving DecidableEq

/-- `RequestEnvelope`. -/
structure RequestEnvelope where
  protocolVersion : UInt16
  commandSchemaVersion : UInt16
  requestId : Uuid
  authentication : Option SessionAuthentication
  command : CommandName
  arguments : Value

/-! ### Errors and responses -/

/-- `ErrorCode`. -/
inductive ErrorCode
  | invalidRequest
  | runtimeUnavailable
  | authenticationDenied
  | scopeDenied
  | policyBlocked
  | operationExpired
  | operationConflict
  | cancelled
  | timeout
  | targetExecutionFailed
  | protocolMismatch
  | responseTooLarge
  | internal
  deriving DecidableEq, Repr

namespace ErrorCode

/-- The name a code is serialized under. -/
def wireName : ErrorCode → String
  | .invalidRequest => "invalid_request"
  | .runtimeUnavailable => "runtime_unavailable"
  | .authenticationDenied => "authentication_denied"
  | .scopeDenied => "scope_denied"
  | .policyBlocked => "policy_blocked"
  | .operationExpired => "operation_expired"
  | .operationConflict => "operation_conflict"
  | .cancelled => "cancelled"
  | .timeout => "timeout"
  | .targetExecutionFailed => "target_execution_failed"
  | .protocolMismatch => "protocol_mismatch"
  | .responseTooLarge => "response_too_large"
  | .internal => "internal"

def all : List ErrorCode :=
  [.invalidRequest, .runtimeUnavailable, .authenticationDenied, .scopeDenied, .policyBlocked,
    .operationExpired, .operationConflict, .cancelled, .timeout, .targetExecutionFailed,
    .protocolMismatch, .responseTooLarge, .internal]

def ofName (name : String) : Option ErrorCode := all.find? (·.wireName = name)

@[simp] theorem ofName_wireName (code : ErrorCode) : ofName code.wireName = some code := by
  cases code <;> decide +kernel

/-- `safe_message`. -/
def safeMessage : ErrorCode → String
  | .invalidRequest => "the request is invalid"
  | .runtimeUnavailable => "the DopeDB runtime is unavailable"
  | .authenticationDenied => "runtime authentication was denied"
  | .scopeDenied => "the requested resource is outside the active scope"
  | .policyBlocked => "the operation is blocked by the active safety policy"
  | .operationExpired => "the operation has expired"
  | .operationConflict => "the operation state changed before it could be claimed"
  | .cancelled => "the operation was cancelled"
  | .timeout => "the operation timed out"
  | .targetExecutionFailed => "the target database operation failed"
  | .protocolMismatch => "the client and runtime protocols are incompatible"
  | .responseTooLarge => "the response exceeds the configured limit"
  | .internal => "the DopeDB runtime encountered an internal error"

end ErrorCode

/-- `ProtocolError`. -/
structure ProtocolError where
  code : ErrorCode
  message : String
  retryable : Bool
  safe : message = code.safeMessage
  deriving DecidableEq

/-- `ProtocolError::new`. -/
def ProtocolError.new (code : ErrorCode) (retryable : Bool) : ProtocolError where
  code
  message := code.safeMessage
  retryable
  safe := rfl

/-- `ResponseEnvelope::validate`. -/
def validResponse {α β : Type} (ok : Bool) (result : Option α) (error : Option β) : Bool :=
  match ok, result.isSome, error.isSome with
  | true, true, false | false, false, true => true
  | _, _, _ => false

/-- `ResponseEnvelope`. -/
structure ResponseEnvelope where
  protocolVersion : UInt16
  requestId : Uuid
  ok : Bool
  result : Option Value
  error : Option ProtocolError
  valid : validResponse ok result error

/-! ### Serialization -/

/-- A field left out when it is absent. -/
def optionalField (name : String) : Option Value → List (String × Value)
  | none => []
  | some v => [(name, v)]

def SessionAuthentication.toValue (a : SessionAuthentication) : Value :=
  .object [("terminalSessionId", .string a.terminalSessionId.toText), ("token", .string a.token)]

def RequestEnvelope.toValue (r : RequestEnvelope) : Value :=
  .object ([("protocolVersion", u16Value r.protocolVersion),
      ("commandSchemaVersion", u16Value r.commandSchemaVersion),
      ("requestId", .string r.requestId.toText)] ++
    optionalField "authentication" (r.authentication.map (·.toValue)) ++
    [("command", .string r.command.wireName), ("arguments", r.arguments)])

def ProtocolError.toValue (e : ProtocolError) : Value :=
  .object [("code", .string e.code.wireName), ("message", .string e.message),
    ("retryable", .bool e.retryable)]

def ResponseEnvelope.toValue (r : ResponseEnvelope) : Value :=
  .object ([("protocolVersion", u16Value r.protocolVersion),
      ("requestId", .string r.requestId.toText), ("ok", .bool r.ok)] ++
    optionalField "result" r.result ++ optionalField "error" (r.error.map (·.toValue)))

/-! ### Reading

`parseUuid` is `Uuid::parse_str`. -/

section Reading

variable (parseUuid : String → Option Uuid)

def readUuid (v : Value) : Option Uuid := (readString v).bind parseUuid

def SessionAuthentication.fromValue (v : Value) : Option SessionAuthentication := do
  let entries ← structEntries ["terminalSessionId", "token"] v
  let terminalSessionId ← (entries.lookup "terminalSessionId").bind (readUuid parseUuid)
  let token ← (entries.lookup "token").bind readString
  return { terminalSessionId, token }

def RequestEnvelope.fromValue (v : Value) : Option RequestEnvelope := do
  let entries ← structEntries ["protocolVersion", "commandSchemaVersion", "requestId",
    "authentication", "command", "arguments"] v
  let protocolVersion ← (entries.lookup "protocolVersion").bind readU16
  let commandSchemaVersion ← (entries.lookup "commandSchemaVersion").bind readU16
  let requestId ← (entries.lookup "requestId").bind (readUuid parseUuid)
  let authentication ← readOption (SessionAuthentication.fromValue parseUuid)
    (entries.lookup "authentication")
  let command ← (entries.lookup "command").bind readVariant
  let arguments := (entries.lookup "arguments").getD .null
  let command := CommandName.ofName command
  return { protocolVersion, commandSchemaVersion, requestId, authentication, command, arguments }

def ProtocolError.fromValue (v : Value) : Option ProtocolError := do
  let entries ← structEntries ["code", "message", "retryable"] v
  let code ← ((entries.lookup "code").bind readVariant).bind ErrorCode.ofName
  let message ← (entries.lookup "message").bind readString
  let retryable ← (entries.lookup "retryable").bind readBool
  if message = code.safeMessage then return .new code retryable else none

/-- A response is read from an object only: the presence of `result` and `error` is looked up
before the fields are read. -/
def ResponseEnvelope.fromValue : Value → Option ResponseEnvelope
  | .object object => do
      let entries ← structEntries ["protocolVersion", "requestId", "ok", "result", "error"]
        (.object object)
      let protocolVersion ← (entries.lookup "protocolVersion").bind readU16
      let requestId ← (entries.lookup "requestId").bind (readUuid parseUuid)
      let ok ← (entries.lookup "ok").bind readBool
      let error ← readOption ProtocolError.fromValue (entries.lookup "error")
      let result := object.lookup "result"
      match object.lookup "error", error with
      | some _, none => none
      | _, error =>
          if valid : validResponse ok result error then
            return { protocolVersion, requestId, ok, result, error, valid }
          else none
  | _ => none

/-! ### Round trips -/

variable {parseUuid} (hparse : ∀ u : Uuid, parseUuid u.toText = some u)

/-- A field of an object whose keys differ. -/
theorem lookup_entry {entries : List (String × Value)} (hnodup : (entries.map Prod.fst).Nodup)
    {key : String} {v : Value} (hmem : (key, v) ∈ entries) : entries.lookup key = some v := by
  induction entries with
  | nil => cases hmem
  | cons e es ih =>
    obtain ⟨k, w⟩ := e
    rw [List.map_cons, List.nodup_cons] at hnodup
    rcases List.mem_cons.1 hmem with heq | hmem
    · cases heq
      exact List.lookup_cons_self
    · have hne : (key == k) = false := by
        refine beq_eq_false_iff_ne.2 fun heq => hnodup.1 ?_
        exact List.mem_map.2 ⟨_, hmem, heq⟩
      rw [List.lookup_cons, hne]
      exact ih hnodup.2 hmem

theorem lookup_absent {entries : List (String × Value)} {key : String}
    (habsent : ∀ e ∈ entries, e.1 ≠ key) : entries.lookup key = none :=
  List.lookup_eq_none_iff.2 fun e he => by simpa using fun h => habsent e he h.symm

theorem readOption_some {α : Type} {read : Value → Option α} {v : Value} {a : α} (hv : v ≠ .null)
    (h : read v = some a) : readOption read (some v) = some (some a) := by
  cases v <;> simp_all [readOption]

include hparse in
theorem SessionAuthentication.fromValue_toValue (a : SessionAuthentication) :
    fromValue parseUuid a.toValue = some a := by
  obtain ⟨terminalSessionId, token⟩ := a
  rw [toValue]
  generalize hentries : [("terminalSessionId", Value.string terminalSessionId.toText),
    ("token", .string token)] = entries
  have hnodup : (entries.map Prod.fst).Nodup := by simp [← hentries]
  have hid : entries.lookup "terminalSessionId" = some (.string terminalSessionId.toText) :=
    lookup_entry hnodup (by simp [← hentries])
  have htoken : entries.lookup "token" = some (.string token) :=
    lookup_entry hnodup (by simp [← hentries])
  rw [fromValue, structEntries_object (by simp [← hentries]) hnodup]
  simp only [Option.bind_eq_bind, Option.bind_some, hid, htoken, readUuid, readString, hparse,
    Option.pure_def]

include hparse in
theorem RequestEnvelope.fromValue_toValue (r : RequestEnvelope) :
    fromValue parseUuid r.toValue = some r := by
  obtain ⟨protocolVersion, commandSchemaVersion, requestId, authentication, command, arguments⟩ := r
  have hauthentication : ∀ entries : List (String × Value), entries.lookup "authentication" =
      authentication.map (·.toValue) → readOption (SessionAuthentication.fromValue parseUuid)
        (entries.lookup "authentication") = some authentication := by
    intro entries h
    rw [h]
    cases authentication with
    | none => rfl
    | some a =>
      exact readOption_some (by simp [SessionAuthentication.toValue])
        (SessionAuthentication.fromValue_toValue hparse a)
  rw [toValue]
  generalize hentries : [("protocolVersion", u16Value protocolVersion),
    ("commandSchemaVersion", u16Value commandSchemaVersion),
    ("requestId", Value.string requestId.toText)] ++
      optionalField "authentication" (authentication.map (·.toValue)) ++
      [("command", .string command.wireName), ("arguments", arguments)] = entries
  have hnodup : (entries.map Prod.fst).Nodup := by
    cases authentication <;> simp [← hentries, optionalField]
  have hprotocol : entries.lookup "protocolVersion" = some (u16Value protocolVersion) :=
    lookup_entry hnodup (by simp [← hentries])
  have hschema : entries.lookup "commandSchemaVersion" = some (u16Value commandSchemaVersion) :=
    lookup_entry hnodup (by simp [← hentries])
  have hid : entries.lookup "requestId" = some (.string requestId.toText) :=
    lookup_entry hnodup (by simp [← hentries])
  have hcommand : entries.lookup "command" = some (.string command.wireName) :=
    lookup_entry hnodup (by simp [← hentries])
  have harguments : entries.lookup "arguments" = some arguments :=
    lookup_entry hnodup (by simp [← hentries])
  have hoption : entries.lookup "authentication" = authentication.map (·.toValue) := by
    cases authentication with
    | none => exact lookup_absent (by simp [← hentries, optionalField])
    | some a => exact lookup_entry hnodup (by simp [← hentries, optionalField])
  have hknown : ∀ e ∈ entries, e.1 ∈ ["protocolVersion", "commandSchemaVersion", "requestId",
      "authentication", "command", "arguments"] := by
    cases authentication <;> simp [← hentries, optionalField]
  refine Option.bind_eq_some_iff.2 ⟨_, structEntries_object hknown hnodup, ?_⟩
  refine Option.bind_eq_some_iff.2
    ⟨protocolVersion, by rw [hprotocol, Option.bind_some, readU16_u16Value], ?_⟩
  refine Option.bind_eq_some_iff.2
    ⟨commandSchemaVersion, by rw [hschema, Option.bind_some, readU16_u16Value], ?_⟩
  refine Option.bind_eq_some_iff.2 ⟨_, by rw [hid]; exact hparse requestId, ?_⟩
  refine Option.bind_eq_some_iff.2 ⟨_, hauthentication entries hoption, ?_⟩
  refine Option.bind_eq_some_iff.2 ⟨command.wireName, by rw [hcommand]; rfl, ?_⟩
  simp only [CommandName.ofName_wireName, harguments]
  rfl

theorem ProtocolError.fromValue_toValue (e : ProtocolError) : fromValue e.toValue = some e := by
  obtain ⟨code, message, retryable, rfl⟩ := e
  rw [toValue]
  generalize hentries : [("code", Value.string code.wireName),
    ("message", .string code.safeMessage), ("retryable", .bool retryable)] = entries
  have hnodup : (entries.map Prod.fst).Nodup := by simp [← hentries]
  have hcode : entries.lookup "code" = some (.string code.wireName) :=
    lookup_entry hnodup (by simp [← hentries])
  have hmessage : entries.lookup "message" = some (.string code.safeMessage) :=
    lookup_entry hnodup (by simp [← hentries])
  have hretryable : entries.lookup "retryable" = some (.bool retryable) :=
    lookup_entry hnodup (by simp [← hentries])
  rw [fromValue, structEntries_object (by simp [← hentries]) hnodup]
  simp only [Option.bind_eq_bind, Option.bind_some, hcode, hmessage, hretryable, readVariant,
    readString, readBool, ErrorCode.ofName_wireName, if_true, Option.pure_def, ProtocolError.new]

include hparse in
theorem ResponseEnvelope.fromValue_toValue (r : ResponseEnvelope) :
    fromValue parseUuid r.toValue = some r := by
  obtain ⟨protocolVersion, requestId, ok, result, error, valid⟩ := r
  rw [toValue]
  generalize hentries : [("protocolVersion", u16Value protocolVersion),
    ("requestId", Value.string requestId.toText), ("ok", .bool ok)] ++
      optionalField "result" result ++ optionalField "error" (error.map (·.toValue)) = entries
  have hnodup : (entries.map Prod.fst).Nodup := by
    cases result <;> cases error <;> simp [← hentries, optionalField]
  have hprotocol : entries.lookup "protocolVersion" = some (u16Value protocolVersion) :=
    lookup_entry hnodup (by simp [← hentries])
  have hid : entries.lookup "requestId" = some (.string requestId.toText) :=
    lookup_entry hnodup (by simp [← hentries])
  have hok : entries.lookup "ok" = some (.bool ok) :=
    lookup_entry hnodup (by simp [← hentries])
  have hresult : entries.lookup "result" = result := by
    cases result with
    | none => exact lookup_absent (by cases error <;> simp [← hentries, optionalField])
    | some v => exact lookup_entry hnodup (by simp [← hentries, optionalField])
  have herror : entries.lookup "error" = error.map (·.toValue) := by
    cases error with
    | none => exact lookup_absent (by cases result <;> simp [← hentries, optionalField])
    | some e => exact lookup_entry hnodup (by simp [← hentries, optionalField])
  have hoption : readOption ProtocolError.fromValue (entries.lookup "error") = some error := by
    rw [herror]
    cases error with
    | none => rfl
    | some e =>
      exact readOption_some (by simp [ProtocolError.toValue]) (ProtocolError.fromValue_toValue e)
  have hknown : ∀ e ∈ entries, e.1 ∈ ["protocolVersion", "requestId", "ok", "result", "error"] := by
    cases result <;> cases error <;> simp [← hentries, optionalField]
  refine Option.bind_eq_some_iff.2 ⟨_, structEntries_object hknown hnodup, ?_⟩
  refine Option.bind_eq_some_iff.2
    ⟨protocolVersion, by rw [hprotocol, Option.bind_some, readU16_u16Value], ?_⟩
  refine Option.bind_eq_some_iff.2 ⟨_, by rw [hid]; exact hparse requestId, ?_⟩
  refine Option.bind_eq_some_iff.2 ⟨ok, by rw [hok]; rfl, ?_⟩
  refine Option.bind_eq_some_iff.2 ⟨_, hoption, ?_⟩
  rw [hresult, herror]
  cases error <;> simp [valid]

end Reading

end Protocol
end AgentDb
