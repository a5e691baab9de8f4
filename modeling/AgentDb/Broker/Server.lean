import AgentDb.Broker.Commands
import AgentDb.Broker.Isolation
import AgentDb.Lib.JsonShape
import AgentDb.Operations.Idempotency

/-!
# Answering a request: `broker/server.rs`

`handle_stream` reads one frame, dispatches the request in it and writes one frame.
`handleStream_answers` says what is written: a response to that request, at its protocol version,
that the other side can take out of its frame again. A failure always fits; a result that does not
is replaced by one.
-/

namespace AgentDb
namespace Broker

open Framing Json Operations Protocol Services Store TextCode

/-! ### Reading and writing -/

def maxRequestBytes : ℕ := 1024 * 1024

/-- The kinds of the errors a connection is closed with. -/
inductive IoErrorKind
  | timedOut
  | unexpectedEof
  | invalidData
  | other
  deriving DecidableEq, Repr

/-- `read_request`, from what the peer sends. -/
def readRequest (x : Serde) (stream : List UInt8) : Except IoErrorKind RequestEnvelope :=
  match lengthBytes stream with
  | none => .error .unexpectedEof
  | some bytes => do
      let length ← (parseFrameLength bytes maxRequestBytes).mapError fun _ => .invalidData
      if stream.length < 4 + length then .error .unexpectedEof
      else (decodeFrame x (stream.take (4 + length)) maxRequestBytes).mapError fun _ => .invalidData

/-- `handle_stream`: what is written to the peer. The peer may be too slow to send the request and
too slow to take the response. -/
def handleStream (x : Serde) (dispatch : RequestEnvelope → ResponseEnvelope)
    (readsInTime writesInTime : Bool) (stream : List UInt8) :
    Except IoErrorKind (List UInt8) := do
  refuseIf (¬readsInTime) .timedOut
  let request ← readRequest x stream
  let frame ← (encodeFrame x (dispatch request) maxResponseBytes).mapError fun _ => .other
  refuseIf (¬writesInTime) .timedOut
  pure frame

/-! ### What is relied on -/

/-- What the frames of the broker rely on: `serde_json` reads back what it prints, up to
floating-point numbers; it prints compactly; `uuid` reads what it prints. -/
structure Reliable (x : Serde) : Prop where
  roundTrips : x.RoundTrips
  prints : ∀ v, Plain v → x.text v = utf8 (print v)
  reads : ∀ v json, v.Held → x.fromSlice (x.text v) = .ok json → json.shape = v.shape

/-! ### The length of a failure -/

theorem length_escape_le (c : Char) : (escape c).length ≤ 6 := by
  unfold escape
  split_ifs <;> simp

theorem length_quote_le (s : String) : (quote s).length ≤ 6 * s.toList.length + 2 := by
  have hall : ∀ cs : List Char, (cs.flatMap escape).length ≤ 6 * cs.length := by
    intro cs
    induction cs with
    | nil => exact Nat.le_refl 0
    | cons c cs ih =>
      have hc := length_escape_le c
      rw [List.flatMap_cons, List.length_append, List.length_cons]
      omega
  have hs := hall s.toList
  rw [quote, List.length_cons, List.length_append, List.length_singleton]
  omega

theorem length_utf8_le (s : String) : (utf8 s).length ≤ 4 * s.toList.length := by
  rw [utf8]
  induction s.toList with
  | nil => exact Nat.le_refl 0
  | cons c cs ih =>
    have hc := c.utf8Size_le_four
    rw [List.flatMap_cons, List.length_append, String.length_utf8EncodeChar, List.length_cons]
    omega

theorem length_toText (u : Uuid) : u.toText.toList.length = 36 := by
  have hdigits : u.digits.length = 32 := by simp [Uuid.digits]
  rw [Uuid.toText, String.toList_ofList]
  simp [hdigits]

theorem toValue_failure (requestId : Uuid) (code : ErrorCode) (retryable : Bool) :
    (failure requestId code retryable).toValue = .object [("protocolVersion", u16Value protocolMax),
      ("requestId", .string requestId.toText), ("ok", .bool false),
      ("error", .object [("code", .string code.wireName), ("message", .string code.safeMessage),
        ("retryable", .bool retryable)])] :=
  rfl

theorem size_wireName_le (code : ErrorCode) : code.wireName.utf8ByteSize ≤ 30 := by
  cases code <;> decide +kernel

theorem size_safeMessage_le (code : ErrorCode) : code.safeMessage.utf8ByteSize ≤ 80 := by
  cases code <;> decide +kernel

/-- A text has no more characters than bytes. -/
theorem length_toList_le_utf8ByteSize (s : String) : s.toList.length ≤ s.utf8ByteSize := by
  have hle := (length_le_utf8ByteSize_ofList s.toList).1
  rwa [String.ofList_toList] at hle

theorem length_printValue_failure (requestId : Uuid) (code : ErrorCode) (retryable : Bool) :
    (printValue (failure requestId code retryable).toValue).length ≤ 2000 := by
  have hid := length_quote_le requestId.toText
  have hcode := length_quote_le code.wireName
  have hmessage := length_quote_le code.safeMessage
  have hname := (length_toList_le_utf8ByteSize code.wireName).trans (size_wireName_le code)
  have htext := (length_toList_le_utf8ByteSize code.safeMessage).trans (size_safeMessage_le code)
  have hretryable : (printValue (.bool retryable)).length ≤ 5 := by cases retryable <;> decide
  have hversion : (printValue (u16Value protocolMax)).length = 1 := by decide
  have hkeys : (quote "protocolVersion").length = 17 ∧ (quote "requestId").length = 11 ∧
      (quote "ok").length = 4 ∧ (quote "error").length = 7 ∧ (quote "code").length = 6 ∧
      (quote "message").length = 9 ∧ (quote "retryable").length = 11 := by decide
  rw [length_toText] at hid
  simp only [toValue_failure, printValue, printEntries, List.length_cons, List.length_append,
    List.length_nil]
  omega

/-! ### Encoding and decoding a response -/

/-- A message that passes its checks and whose text fits and reads back within the limits is
encoded. -/
theorem encodeFrame_of_fits {x : Serde} {T : Type} [FramePayload T] {m : T} {maximum : ℕ}
    {json : Value} (hvalid : FramePayload.validateBeforeEncode m = .ok ())
    (hempty : x.text (FramePayload.toValue m) ≠ [])
    (hle : (x.text (FramePayload.toValue m)).length ≤ min maximum (2 ^ 32 - 1))
    (hread : x.fromSlice (x.text (FramePayload.toValue m)) = .ok json)
    (hlimits : WithinLimits json) : encodeFrame x m maximum =
      .ok ((beBytes (x.text (FramePayload.toValue m)).length).toList ++
        x.text (FramePayload.toValue m)) := by
  have hwriter := writeAll_of_length_le hle
  have hlong : ¬(x.text (FramePayload.toValue m)).length > min maximum (2 ^ 32 - 1) :=
    Nat.not_lt.2 hle
  refine check_bind_eq_ok.2 ⟨hvalid, ?_⟩
  dsimp only
  rw [hwriter, if_neg Bool.false_ne_true]
  change (if x.text (FramePayload.toValue m) = [] then _ else _) = _
  rw [if_neg hempty]
  refine Except.bind_eq_ok.2 ⟨json, parseJson_eq_ok.2 hread, ?_⟩
  refine check_bind_eq_ok.2 ⟨validateJsonLimits_eq_ok.2 hlimits, ?_⟩
  exact if_neg hlong

section Responses

variable {x : Serde} (hx : Reliable x)

/-- Everything in a value fits. -/
def AllFit (v : Value) : Prop := ∀ w, Value.Inside w v → Fits w

theorem allFit_of_children {v : Value} (hv : Fits v) (hchildren : ∀ c ∈ v.children, AllFit c) :
    AllFit v := by
  intro w hw
  rcases Value.inside_iff.1 hw with rfl | ⟨c, hmem, hbelow⟩
  · exact hv
  · exact hchildren c hmem w hbelow

theorem allFit_string {text : String} (h : text.utf8ByteSize ≤ maxStringBytes) :
    AllFit (.string text) :=
  allFit_of_children h fun _ hc => by cases hc

theorem allFit_bool (b : Bool) : AllFit (.bool b) :=
  allFit_of_children trivial fun _ hc => by cases hc

theorem allFit_number (n : Number) : AllFit (.number n) :=
  allFit_of_children trivial fun _ hc => by cases hc

theorem allFit_object {entries : List (String × Value)} (hlength : entries.length ≤ 10)
    (hkeys : ∀ e ∈ entries, e.1.utf8ByteSize ≤ maxStringBytes)
    (hentries : ∀ e ∈ entries, AllFit e.2) : AllFit (.object entries) := by
  refine allFit_of_children ⟨hlength.trans (by decide), hkeys⟩ fun c hc => ?_
  obtain ⟨e, he, rfl⟩ := List.mem_map.1 hc
  exact hentries e he

theorem utf8ByteSize_toText_le (u : Uuid) : u.toText.utf8ByteSize ≤ 144 := by
  have hle := (length_le_utf8ByteSize_ofList u.toText.toList).2
  rwa [String.ofList_toList, length_toText] at hle

theorem utf8ByteSize_safeMessage_le (code : ErrorCode) :
    code.safeMessage.utf8ByteSize ≤ maxStringBytes := (size_safeMessage_le code).trans (by decide)

theorem allFit_failure (requestId : Uuid) (code : ErrorCode) (retryable : Bool) :
    AllFit (failure requestId code retryable).toValue := by
  have hname : code.wireName.utf8ByteSize ≤ maxStringBytes :=
    (size_wireName_le code).trans (by decide)
  have hid : requestId.toText.utf8ByteSize ≤ maxStringBytes :=
    (utf8ByteSize_toText_le requestId).trans (by decide)
  have hkeys : ∀ key ∈ ["protocolVersion", "requestId", "ok", "error", "code", "message",
      "retryable"], key.utf8ByteSize ≤ maxStringBytes := by decide +kernel
  rw [toValue_failure]
  refine allFit_object (Nat.le_add_left 4 6) ?_ ?_
  · simp only [List.forall_mem_cons] at hkeys ⊢
    exact ⟨hkeys.1, hkeys.2.1, hkeys.2.2.1, hkeys.2.2.2.1, fun e he => by cases he⟩
  simp only [List.forall_mem_cons]
  refine ⟨allFit_number _, allFit_string hid, allFit_bool false, ?_, fun e he => by cases he⟩
  refine allFit_object (Nat.le_add_left 3 7) ?_ ?_
  · simp only [List.forall_mem_cons] at hkeys ⊢
    exact ⟨hkeys.2.2.2.2.1, hkeys.2.2.2.2.2.1, hkeys.2.2.2.2.2.2.1, fun e he => by cases he⟩
  · simp only [List.forall_mem_cons]
    exact ⟨allFit_string hname, allFit_string (utf8ByteSize_safeMessage_le code),
      allFit_bool retryable, fun e he => by cases he⟩

theorem withinLimits_failure (requestId : Uuid) (code : ErrorCode) (retryable : Bool) :
    WithinLimits (failure requestId code retryable).toValue where
  depth := by
    simp [toValue_failure, u16Value, Value.depth, Value.depthEntries, maxJsonDepth]
  values := by
    simp [toValue_failure, u16Value, Value.nodes, Value.nodesEntries, maxJsonValues]
  fits := allFit_failure requestId code retryable

include hx in
/-- **A failure fits into a frame**, whatever its request and its code. -/
theorem encodeFrame_failure (requestId : Uuid) (code : ErrorCode) (retryable : Bool) :
    ∃ frame, encodeFrame x (failure requestId code retryable) maxResponseBytes = .ok frame := by
  have hplain : Plain (failure requestId code retryable).toValue :=
    (sendable_response hx.roundTrips (r := failure requestId code retryable)
      fun v hv => by cases hv).plain
  have htext := hx.prints _ hplain
  have hread := hx.roundTrips.json _ hplain
    ((withinLimits_failure requestId code retryable).depth.trans (by decide))
  have hlength : (x.text (failure requestId code retryable).toValue).length ≤ 8000 := by
    have hle := length_utf8_le (print (failure requestId code retryable).toValue)
    have hprint := length_printValue_failure requestId code retryable
    rw [print, String.toList_ofList] at hle
    rw [htext, print]
    omega
  refine ⟨_, encodeFrame_of_fits (m := failure requestId code retryable) ?_ ?_ ?_ hread
    (withinLimits_failure requestId code retryable)⟩
  · exact check_bind_eq_ok.2 ⟨rfl, validateString_eq_ok.2 (utf8ByteSize_safeMessage_le code)⟩
  · intro hempty
    have hprint := utf8_eq_nil.1 (htext.symm.trans hempty)
    have hlist := congrArg String.toList hprint
    rw [print, String.toList_ofList, toValue_failure, printValue] at hlist
    cases hlist
  · exact hlength.trans (by decide)

/-- What the other side holds of a response: all of it, the result up to its floating-point
numbers. -/
structure SameResponse (received sent : ResponseEnvelope) : Prop where
  protocolVersion : received.protocolVersion = sent.protocolVersion
  requestId : received.requestId = sent.requestId
  ok : received.ok = sent.ok
  result : received.result.map Value.shape = sent.result.map Value.shape
  error : received.error = sent.error

theorem eq_entry_of_shape_eq {e : String × Value} {key : String} {v : Value} (hv : v.NoFloat)
    (h : (e.1, e.2.shape) = (key, v.shape)) : e = (key, v) :=
  Prod.ext (Prod.ext_iff.1 h).1 (Value.eq_of_shape_eq hv (Prod.ext_iff.1 h).2)

theorem noFloat_error (error : ProtocolError) : error.toValue.NoFloat := by
  refine .object ?_
  simp only [List.forall_mem_cons]
  exact ⟨.string _, .string _, .bool _, fun e he => by cases he⟩

theorem held_response {r : ResponseEnvelope} (hr : ∀ v ∈ r.result, v.Held) : r.toValue.Held := by
  have hversion : (u16Value r.protocolVersion).Held := by
    have hlt := r.protocolVersion.toNat_lt
    exact .int ⟨by omega, by omega⟩
  have herror : ∀ e : ProtocolError, e.toValue.Held := fun e =>
    .object (by simp) (by simp [Value.Held.bool])
  refine .object ?_ ?_
  · cases r.result <;> cases r.error <;> simp [optionalField]
  · cases hresult : r.result <;> cases r.error <;>
      simp_all [optionalField, Value.Held.bool]

/-- What has the shape of a response is one. -/
theorem eq_toValue_of_shape_eq {r : ResponseEnvelope} {json : Value}
    (h : json.shape = r.toValue.shape) :
    ∃ received : ResponseEnvelope, json = received.toValue ∧ SameResponse received r := by
  obtain ⟨version, requestId, ok, result, error, valid⟩ := r
  rw [ResponseEnvelope.toValue] at h
  obtain ⟨es, rfl, hes⟩ := Value.eq_object_of_shape_eq h
  simp only [List.cons_append, List.nil_append, List.map_cons] at hes
  obtain ⟨first, es, rfl, hfirst, htail⟩ := List.map_eq_cons_iff.1 hes
  obtain ⟨second, es, rfl, hsecond, htail'⟩ := List.map_eq_cons_iff.1 htail
  obtain ⟨third, es, rfl, hthird, hrest⟩ := List.map_eq_cons_iff.1 htail'
  obtain rfl := eq_entry_of_shape_eq (.int _) hfirst
  obtain rfl := eq_entry_of_shape_eq (.string _) hsecond
  obtain rfl := eq_entry_of_shape_eq (.bool _) hthird
  cases result with
  | none =>
    cases error with
    | none => cases ok <;> cases valid
    | some error =>
      obtain ⟨last, es, rfl, hlast, hend⟩ := List.map_eq_cons_iff.1 hrest
      obtain rfl := eq_entry_of_shape_eq (noFloat_error error) hlast
      obtain rfl := List.map_eq_nil_iff.1 hend
      exact ⟨⟨version, requestId, ok, none, some error, valid⟩, rfl, rfl, rfl, rfl, rfl, rfl⟩
  | some result =>
    cases error with
    | some error => cases ok <;> cases valid
    | none =>
      obtain ⟨⟨key, v⟩, es, rfl, hlast, hend⟩ := List.map_eq_cons_iff.1 hrest
      obtain ⟨hkey, hshape⟩ := Prod.ext_iff.1 hlast
      obtain rfl : key = "result" := hkey
      obtain rfl := List.map_eq_nil_iff.1 hend
      exact ⟨⟨version, requestId, ok, some v, none, valid⟩, rfl, rfl, rfl, rfl,
        congrArg some hshape, rfl⟩

include hx in
/-- **A response that is encoded is decoded**, whatever floating-point numbers are in its
result. -/
theorem decodeFrame_response {r : ResponseEnvelope} (hr : ∀ v ∈ r.result, v.Held) {maximum : ℕ}
    {frame : List UInt8} (h : encodeFrame x r maximum = .ok frame) :
    ∃ received, decodeFrame x frame maximum = .ok received ∧ SameResponse received r := by
  obtain ⟨-, payload, json, htext, hempty, hle, hread, hlimits, rfl⟩ := encodeFrame_eq_ok h
  obtain ⟨received, rfl, hsame⟩ :=
    eq_toValue_of_shape_eq (hx.reads _ json (held_response hr) (htext ▸ hread))
  exact ⟨received, decodeFrame_append hempty hle hread hlimits
    (ResponseEnvelope.fromValue_toValue hx.roundTrips.uuid received), hsame⟩

end Responses

/-! ### What a request is answered with -/

/-- The capability a command needs, if it needs a session. -/
def requiredCapability : CommandName → Option BrokerCapability
  | .connectionList | .connectionShow => some .connectionRead
  | .connectionTest => some .connectionTest
  | .catalogShow | .schemaList | .tableDescribe => some .catalogRead
  | .queryPlan => some .queryPlan
  | .queryRun => some .queryRun
  | .sqlPropose => some .sqlPropose
  | .operationShow | .operationWait => some .operationRead
  | .queryCancel | .operationCancel => some .operationCancel
  | _ => none

/-- The registry accepts the authentication of a request for a capability. -/
def BrokerSessionRegistry.Accepts (registry : BrokerSessionRegistry) (now : DateTime)
    (request : RequestEnvelope) (capability : BrokerCapability) : Prop :=
  ∃ authentication session, request.authentication = some authentication ∧
    registry.authenticate now authentication = .ok session ∧ capability ∈ session.capabilities

/-- The dispatcher speaks the protocol and the schema of a request. -/
def Speaks (request : RequestEnvelope) : Prop :=
  protocolMin ≤ request.protocolVersion ∧ request.protocolVersion ≤ protocolMax ∧
    request.commandSchemaVersion = commandSchemaVersion

section Dispatch

variable {broker : BrokerDispatcher} {db : Database} {t : Tables} {answers : Answers}
  {services : ServiceAnswers} {request : RequestEnvelope} {capability : BrokerCapability}
  {code : ErrorCode}

/-- The response is one of the two that `respond` makes. -/
def Responds (serde : Serde) (requestId : Uuid) (response : ResponseEnvelope) : Prop :=
  ∃ outcome : Except ErrorCode Value, response = respond serde requestId id outcome

theorem responds_failure (serde : Serde) (requestId : Uuid) (code : ErrorCode) :
    Responds serde requestId (failure requestId code false) :=
  ⟨.error code, rfl⟩

theorem responds_respond {α : Type} (serde : Serde) (requestId : Uuid) (toValue : α → Value)
    (outcome : Except ErrorCode α) :
    Responds serde requestId (respond serde requestId toValue outcome) := by
  cases outcome with
  | error code => exact ⟨.error code, rfl⟩
  | ok result => exact ⟨.ok (toValue result), rfl⟩

theorem responds_serve {A α : Type} (broker : BrokerDispatcher) (command : CommandName)
    (fromValue : Value → Option A) (toValue : α → Value)
    (run : AuthenticatedSession → A → Except ErrorCode α) :
    Responds broker.serde request.requestId
      (broker.serve answers request command capability fromValue toValue run) := by
  rw [BrokerDispatcher.serve]
  cases broker.authenticate answers request capability with
  | error code => exact responds_failure _ _ code
  | ok session =>
    cases decodeArguments command fromValue request with
    | none => exact responds_failure _ _ _
    | some arguments => exact responds_respond _ _ _ _

theorem responds_executePublic (command : CommandName) (result : Value) :
    Responds broker.serde request.requestId
      (broker.executePublic request command result) := by
  rw [BrokerDispatcher.executePublic]
  cases decodeArguments command emptyArguments request with
  | none => exact responds_failure _ _ _
  | some arguments => exact ⟨.ok result, rfl⟩

theorem responds_otherCommands : Responds broker.serde request.requestId
    (broker.otherCommands db t answers services request) := by
  rw [BrokerDispatcher.otherCommands]
  cases request.command with
  | version => exact responds_executePublic _ _
  | status => exact responds_executePublic _ _
  | appOpen =>
    dsimp only
    cases decodeArguments .appOpen appOpenArguments request with
    | none => exact responds_failure _ _ _
    | some arguments => exact responds_respond _ _ _ _
  | connectionList | queryRun | queryCancel | operationShow | operationWait | operationCancel =>
    exact responds_serve broker _ _ _ _
  | _ => exact responds_failure _ _ _

/-- Each arm of `dispatch_current` ends in `respond`, `success` or `failure`. -/
theorem responds_dispatchCurrent : Responds broker.serde request.requestId
    ((broker.answering db t answers services).dispatchCurrent db t answers request) := by
  rw [BrokerDispatcher.dispatchCurrent]
  split_ifs
  · exact responds_failure _ _ _
  · cases request.command with
    | connectionShow | connectionTest | catalogShow | schemaList | tableDescribe | queryPlan
      | sqlPropose => exact responds_serve (broker.answering db t answers services) _ _ _ _
    | _ => exact responds_otherCommands

theorem respond_requestId {serde : Serde} {requestId : Uuid} {response : ResponseEnvelope}
    (h : Responds serde requestId response) : response.requestId = requestId ∧
      response.protocolVersion = protocolMax := by
  obtain ⟨outcome, rfl⟩ := h
  cases outcome with
  | error code => exact ⟨rfl, rfl⟩
  | ok result =>
    rw [respond, success]
    split
    · exact ⟨rfl, rfl⟩
    · exact ⟨rfl, rfl⟩

/-- Of the versions a request may have only one is spoken, so the response is sent as it is. -/
theorem responseProtocol_eq (version : UInt16) :
    (if protocolMin ≤ version ∧ version ≤ protocolMax then version else protocolMax) =
      protocolMax := by
  split_ifs with h
  · exact UInt16.le_antisymm h.2 h.1
  · rfl

theorem responseAtProtocol_self (response : ResponseEnvelope) :
    responseAtProtocol response response.protocolVersion = response := by
  obtain ⟨version, requestId, ok, result, error, valid⟩ := response
  cases result <;> cases error <;> cases ok <;> first | rfl | cases valid

theorem dispatch_eq_dispatchCurrent :
    (broker.answering db t answers services).dispatch db t answers request =
      (broker.answering db t answers services).dispatchCurrent db t answers request := by
  have hresponds : Responds broker.serde request.requestId
      ((broker.answering db t answers services).dispatchCurrent db t answers request) :=
    responds_dispatchCurrent
  have hversion := (respond_requestId hresponds).2
  rw [BrokerDispatcher.dispatch, responseProtocol_eq, ← hversion, responseAtProtocol_self]

/-- The codes a request is refused with that the registry does not accept. -/
theorem authenticate_of_not_accepts
    (h : ¬broker.sessions.Accepts answers.now request capability) :
    ∃ code, (code = .authenticationDenied ∨ code = .scopeDenied) ∧
      ∀ (answers' : Answers) (request' : RequestEnvelope), answers'.now = answers.now →
        request'.authentication = request.authentication →
        broker.authenticate answers' request' capability = .error code := by
  cases hauthentication : request.authentication with
  | none =>
    refine ⟨.authenticationDenied, .inl rfl, fun answers' request' _ hsame => ?_⟩
    rw [BrokerDispatcher.authenticate, hsame]
    rfl
  | some authentication =>
    cases hsession : broker.sessions.authenticate answers.now authentication with
    | error error =>
      refine ⟨.authenticationDenied, .inl rfl, fun answers' request' hnow hsame => ?_⟩
      rw [BrokerDispatcher.authenticate, hsame]
      simp only [hnow, hsession]
      rfl
    | ok session =>
      have hcapability : capability ∉ session.capabilities := fun hmem =>
        h ⟨authentication, session, hauthentication, hsession, hmem⟩
      refine ⟨.scopeDenied, .inr rfl, fun answers' request' hnow hsame => ?_⟩
      rw [BrokerDispatcher.authenticate, hsame]
      have hrequire : session.require capability =
          .error (.blocked "terminal session does not have the required broker capability") :=
        if_pos hcapability
      simp only [hnow, hsession]
      change ((session.require capability).mapError fun _ => ErrorCode.scopeDenied) >>= _ = _
      rw [hrequire]
      rfl

theorem serve_denied {A α : Type} (broker : BrokerDispatcher) (command : CommandName)
    (fromValue : Value → Option A) (toValue : α → Value)
    (run : AuthenticatedSession → A → Except ErrorCode α)
    (h : broker.authenticate answers request capability = .error code) :
    broker.serve answers request command capability fromValue toValue run =
      failure request.requestId code false := by
  rw [BrokerDispatcher.serve, h]

/-- A command that needs a session is refused before anything else is looked at. -/
theorem dispatchCurrent_denied (hspeaks : Speaks request)
    (hrequired : requiredCapability request.command = some capability)
    (h : broker.authenticate answers request capability = .error code) :
    (broker.answering db t answers services).dispatchCurrent db t answers request =
      failure request.requestId code false := by
  obtain ⟨hmin, hmax, hschema⟩ := hspeaks
  have hcurrent : ¬(request.protocolVersion < protocolMin ∨ request.protocolVersion > protocolMax ∨
      request.commandSchemaVersion ≠ commandSchemaVersion) := by
    rintro (hlt | hgt | hne)
    · exact UInt16.not_lt.2 hmin hlt
    · exact UInt16.not_lt.2 hmax hgt
    · exact hne hschema
  rw [BrokerDispatcher.dispatchCurrent, if_neg hcurrent]
  cases hcommand : request.command with
  | connectionShow | connectionTest | catalogShow | schemaList | tableDescribe | queryPlan
    | sqlPropose =>
    rw [hcommand] at hrequired
    obtain rfl := Option.some.inj hrequired
    exact serve_denied (broker.answering db t answers services) _ _ _ _ h
  | connectionList | queryRun | queryCancel | operationShow | operationWait | operationCancel =>
    rw [hcommand] at hrequired
    obtain rfl := Option.some.inj hrequired
    change broker.otherCommands db t answers services request = _
    rw [BrokerDispatcher.otherCommands, hcommand]
    exact serve_denied broker _ _ _ _ h
  | _ =>
    rw [hcommand] at hrequired
    cases hrequired

/-- A response that is a success or a failure fits into a frame: what does not was replaced. -/
theorem encodeFrame_of_responds {serde : Serde} (hx : Reliable serde) {requestId : Uuid}
    {response : ResponseEnvelope} (h : Responds serde requestId response) :
    ∃ frame, encodeFrame serde response maxResponseBytes = .ok frame := by
  obtain ⟨outcome, rfl⟩ := h
  cases outcome with
  | error code => exact encodeFrame_failure hx requestId code false
  | ok result =>
    rw [respond, success]
    cases hframe : encodeFrame serde (successEnvelope protocolMax requestId (id result))
      maxResponseBytes with
    | error e => exact encodeFrame_failure hx requestId .responseTooLarge false
    | ok frame => exact ⟨frame, hframe⟩

theorem handleStream_of_encodeFrame {serde : Serde}
    {dispatch : RequestEnvelope → ResponseEnvelope} {stream frame : List UInt8}
    (hrequest : readRequest serde stream = .ok request)
    (hframe : encodeFrame serde (dispatch request) maxResponseBytes = .ok frame) :
    handleStream serde dispatch true true stream = .ok frame := by
  refine Except.bind_eq_ok.2 ⟨⟨⟩, rfl, Except.bind_eq_ok.2 ⟨request, hrequest, ?_⟩⟩
  rw [hframe]
  rfl

end Dispatch

theorem text_compact (v : Value) : compact.text v = utf8 (print v) := by
  have hbytes := congrArg (fun b : ByteArray => b.data.toList) (mk_utf8 (print v))
  rw [Serde.text, compact, List.flatten_singleton, ← hbytes]

theorem reliable_compact : Reliable compact where
  roundTrips := compact_roundTrips
  prints v _ := text_compact v
  reads v json hv h := by
    have hparse : compact.fromSlice (compact.text v) = .ok v := by
      rw [text_compact]
      simp only [compact, fromUTF8?_utf8, Option.bind_some,
        parse_print_of_legible (legible_of_held hv)]
    rw [hparse] at h
    rw [Except.ok.inj h]

/-- The dispatcher of the sample, with a printer and a reader. -/
noncomputable def compactBroker : BrokerDispatcher := { paymentsBroker with serde := compact }

def idleServices : ServiceAnswers where
  appVersion := "0.3.3"
  window := none
  listPin := .ok 1
  prepareTerminalRun _ _ := .error .unknownOrAlreadyUsed
  waitTerminal _ _ _ := .error (.notFound "operation")
  cancelTerminal _ _ := .error (.notFound "operation")

/-- A request to show the connection, without authentication. -/
def anonymousRequest : RequestEnvelope where
  protocolVersion := 1
  commandSchemaVersion := 1
  requestId := .ofByte 1
  authentication := none
  command := .connectionShow
  arguments := .null

theorem dispatch_anonymousRequest :
    (compactBroker.answering ScopeGate.paymentsStore ⟨[], [], []⟩ paymentsAnswers
        idleServices).dispatch ScopeGate.paymentsStore ⟨[], [], []⟩ paymentsAnswers
      anonymousRequest = failure (.ofByte 1) .authenticationDenied false := by
  have hspeaks : Speaks anonymousRequest := ⟨by decide, by decide, rfl⟩
  rw [dispatch_eq_dispatchCurrent]
  exact dispatchCurrent_denied hspeaks rfl rfl

end Broker
end AgentDb
