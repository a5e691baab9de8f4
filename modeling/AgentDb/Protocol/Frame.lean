import AgentDb.Lib.Framing
import AgentDb.Lib.JsonLimits
import AgentDb.Lib.JsonText
import AgentDb.Lib.Transaction
import AgentDb.Protocol.Envelope

/-!
# Length-prefixed frames: `frame.rs`

`encode_frame` checks what can be checked before serialization, writes the text through a bounded
writer, checks the limits of what it wrote, and puts the length in front; `decode_frame` takes the
frame apart again. Printing and parsing are `serde_json` and come in as `Serde`.

`frame_round_trip` is the agreement of the two: what is encoded is decoded, and nothing that is
decoded exceeds the limits.
-/

namespace AgentDb
namespace Protocol

open Json Framing

/-! ### Third-party code -/

/-- `serde_json` and `uuid`: the writes of a serialization, the reading of a text (an error has a
line and a column), and the reading of a UUID. -/
structure Serde where
  pieces : Value → List (List UInt8)
  fromSlice : List UInt8 → Except (ℕ × ℕ) Value
  parseUuid : String → Option Uuid

/-- What a `serde_json` value without floating-point numbers is: the integers have 64 bits, and no
key of an object occurs twice. -/
inductive Plain : Value → Prop
  | null : Plain .null
  | bool (b : Bool) : Plain (.bool b)
  | int {n : ℤ} (range : -(2 : ℤ) ^ 63 ≤ n ∧ n < 2 ^ 64) : Plain (.number (.int n))
  | string (s : String) : Plain (.string s)
  | array {items : List Value} (each : ∀ v ∈ items, Plain v) : Plain (.array items)
  | object {entries : List (String × Value)} (distinct : (entries.map Prod.fst).Nodup)
      (each : ∀ e ∈ entries, Plain e.2) : Plain (.object entries)

/-- The text of a value. -/
def Serde.text (x : Serde) (v : Value) : List UInt8 := (x.pieces v).flatten

/-- Printed values are read back, up to the depth at which `serde_json` stops reading, and so are
UUIDs. -/
structure Serde.RoundTrips (x : Serde) : Prop where
  json : ∀ v, Plain v → v.depth ≤ 127 → x.fromSlice (x.text v) = .ok v
  uuid : ∀ u : Uuid, x.parseUuid u.toText = some u

/-! ### Limits -/

def maxJsonDepth : ℕ := 32
def maxCollectionItems : ℕ := 10000
def maxJsonValues : ℕ := 10000
def maxStringBytes : ℕ := 256 * 1024

/-- `FrameError`. -/
inductive FrameError
  | missingLengthPrefix
  | emptyPayload
  | payloadTooLarge (actual maximum : ℕ)
  | lengthMismatch (declared actual : ℕ)
  | jsonDepth (maximum : ℕ)
  | collectionTooLarge (actual maximum : ℕ)
  | itemBudgetExceeded (maximum : ℕ)
  | stringTooLarge (actual maximum : ℕ)
  | invalidJson (line column : ℕ)
  | invalidSchema
  deriving DecidableEq, Repr

/-- `validate_collection_len`. -/
def validateCollectionLen (actual : ℕ) : Except FrameError Unit :=
  if actual > maxCollectionItems then .error (.collectionTooLarge actual maxCollectionItems)
  else .ok ()

/-- `validate_string`. -/
def validateString (value : String) : Except FrameError Unit :=
  if value.utf8ByteSize > maxStringBytes then
    .error (.stringTooLarge value.utf8ByteSize maxStringBytes)
  else .ok ()

/-- The keys of an object, each checked as it is reached. -/
def validateKeys : List (String × Value) → Except FrameError Unit
  | [] => .ok ()
  | (key, _) :: entries => do
      validateString key
      validateKeys entries

/-- What one value of a message is checked for. -/
def validateValue : Value → Except FrameError Unit
  | .string text => validateString text
  | .array values => validateCollectionLen values.length
  | .object values => do
      validateCollectionLen values.length
      validateKeys values.reverse
  | .null | .bool _ | .number _ => .ok ()

/-- `validate_json_limits`. -/
def validateJsonLimits (value : Value) : Except FrameError Unit :=
  Value.walk (.jsonDepth maxJsonDepth) (.itemBudgetExceeded maxJsonValues) validateValue
    maxJsonDepth maxJsonValues 0 [(value, 1)]

/-! ### Payloads -/

/-- `FramePayload`, with the reading and writing `serde` derives. -/
class FramePayload (T : Type) where
  toValue : T → Value
  fromValue : (String → Option Uuid) → Value → Option T
  validateBeforeEncode : T → Except FrameError Unit

instance : FramePayload Value where
  toValue := id
  fromValue _ := some
  validateBeforeEncode := validateJsonLimits

instance : FramePayload RequestEnvelope where
  toValue := RequestEnvelope.toValue
  fromValue := RequestEnvelope.fromValue
  validateBeforeEncode request := do
    validateJsonLimits request.arguments
    request.authentication.elim (.ok ()) fun authentication => validateString authentication.token

instance : FramePayload ResponseEnvelope where
  toValue := ResponseEnvelope.toValue
  fromValue := ResponseEnvelope.fromValue
  validateBeforeEncode response := do
    response.result.elim (.ok ()) validateJsonLimits
    response.error.elim (.ok ()) fun error => validateString error.message

/-! ### Frames -/

/-- `parse_frame_length`. -/
def parseFrameLength (bytes : Vector UInt8 4) (maximum : ℕ) : Except FrameError ℕ :=
  let length := ofBeBytes bytes
  if length = 0 then .error .emptyPayload
  else if length > maximum then .error (.payloadTooLarge length maximum)
  else .ok length

/-- The first four bytes of a frame. -/
def lengthBytes (frame : List UInt8) : Option (Vector UInt8 4) :=
  match frame with
  | a :: b :: c :: d :: _ => some #v[a, b, c, d]
  | _ => none

variable (x : Serde) {T : Type} [FramePayload T]

/-- `serde_json::from_slice`, with its errors as the frame reports them. -/
def parseJson (payload : List UInt8) : Except FrameError Value :=
  (x.fromSlice payload).mapError fun (line, column) => .invalidJson line column

/-- `encode_frame`. -/
def encodeFrame (value : T) (maximum : ℕ) : Except FrameError (List UInt8) := do
  FramePayload.validateBeforeEncode value
  let maximum := min maximum (2 ^ 32 - 1)
  let writer := ({} : BoundedWriter).writeAll maximum (x.pieces (FramePayload.toValue value))
  if writer.overflowed then .error (.payloadTooLarge (maximum + 1) maximum)
  else if writer.bytes = [] then .error .emptyPayload
  else do
    let json ← parseJson x writer.bytes
    validateJsonLimits json
    if writer.bytes.length > maximum then
      .error (.payloadTooLarge writer.bytes.length maximum)
    else .ok ((beBytes writer.bytes.length).toList ++ writer.bytes)

/-- `decode_frame`. -/
def decodeFrame (frame : List UInt8) (maximum : ℕ) : Except FrameError T :=
  match lengthBytes frame with
  | none => .error .missingLengthPrefix
  | some bytes => do
      let declared ← parseFrameLength bytes maximum
      let actual := frame.length - 4
      if declared ≠ actual then .error (.lengthMismatch declared actual)
      else do
        let value ← parseJson x (frame.drop 4)
        validateJsonLimits value
        match FramePayload.fromValue x.parseUuid value with
        | some value => .ok value
        | none => .error .invalidSchema

/-! ### What the limits say -/

/-- What a value of a message is allowed to be. -/
def Fits : Value → Prop
  | .string text => text.utf8ByteSize ≤ maxStringBytes
  | .array values => values.length ≤ maxCollectionItems
  | .object values => values.length ≤ maxCollectionItems ∧
      ∀ e ∈ values, e.1.utf8ByteSize ≤ maxStringBytes
  | _ => True

/-- The depth, the number of values, and the length of every collection and every string are
limited. -/
structure WithinLimits (v : Value) : Prop where
  depth : v.depth ≤ maxJsonDepth
  values : v.nodes ≤ maxJsonValues
  fits : ∀ w, Value.Inside w v → Fits w

theorem validateString_eq_ok {text : String} :
    validateString text = .ok () ↔ text.utf8ByteSize ≤ maxStringBytes := by
  unfold validateString
  by_cases h : text.utf8ByteSize > maxStringBytes
  · simp [h]
  · simpa [h] using Nat.le_of_not_lt h

theorem validateCollectionLen_eq_ok {n : ℕ} :
    validateCollectionLen n = .ok () ↔ n ≤ maxCollectionItems := by
  unfold validateCollectionLen
  by_cases h : n > maxCollectionItems
  · simp [h]
  · simpa [h] using Nat.le_of_not_lt h

/-- A check in front of a computation. -/
theorem check_bind_eq_ok {α : Type} {m : Except FrameError Unit} {f : Unit → Except FrameError α}
    {a : α} : (m >>= f) = .ok a ↔ m = .ok () ∧ f () = .ok a := by
  rw [Except.bind_eq_ok]
  constructor
  · rintro ⟨⟨⟩, hm, hf⟩
    exact ⟨hm, hf⟩
  · rintro ⟨hm, hf⟩
    exact ⟨(), hm, hf⟩

theorem validateKeys_eq_ok {entries : List (String × Value)} :
    validateKeys entries = .ok () ↔ ∀ e ∈ entries, e.1.utf8ByteSize ≤ maxStringBytes := by
  induction entries with
  | nil => simp [validateKeys]
  | cons e es ih =>
    obtain ⟨key, v⟩ := e
    rw [validateKeys, check_bind_eq_ok, List.forall_mem_cons, ← ih, ← validateString_eq_ok]

theorem validateValue_eq_ok (v : Value) : validateValue v = .ok () ↔ Fits v := by
  cases v with
  | string text => exact validateString_eq_ok
  | array values => exact validateCollectionLen_eq_ok
  | object values =>
    rw [validateValue, check_bind_eq_ok, Fits, ← validateCollectionLen_eq_ok, validateKeys_eq_ok]
    simp only [List.mem_reverse]
  | _ => simp [validateValue, Fits]

theorem validateJsonLimits_eq_ok {v : Value} : validateJsonLimits v = .ok () ↔ WithinLimits v := by
  rw [validateJsonLimits, Value.walk_eq_ok _ _ _ _ _ _ _ (Nat.zero_le _)]
  simp only [List.mem_singleton, forall_eq, Value.Keeps, validateValue_eq_ok, Value.waiting,
    List.map_cons, List.map_nil, Value.nodesItems]
  constructor
  · rintro ⟨⟨hdepth, hfits⟩, hvalues⟩
    exact ⟨by omega, by omega, hfits⟩
  · rintro ⟨hdepth, hvalues, hfits⟩
    exact ⟨⟨by omega, hfits⟩, by omega⟩

theorem WithinLimits.inside {v w : Value} (h : WithinLimits v) (hw : Value.Inside w v) :
    WithinLimits w where
  depth := (Value.depth_le_of_inside hw).trans h.depth
  values := (Value.nodes_le_of_inside hw).trans h.values
  fits u hu := h.fits u (hu.trans hw)

/-- The run of `validate_json_limits`: the values it takes off its stack with their places, and
how it ends. -/
def validateJsonLimitsRun (value : Value) : List (List ℕ × Value) × Except FrameError Unit :=
  Value.walkPlaces (.jsonDepth maxJsonDepth) (.itemBudgetExceeded maxJsonValues) validateValue
    maxJsonDepth maxJsonValues 0 [([], value, 1)]

/-- **The walk decides the limits.** It accepts what is within them, and every part of that; it is
at no place of the value twice, and at one more than the budget at most. -/
theorem validateJsonLimits_decides (value : Value) :
    (validateJsonLimits value = .ok () ↔ WithinLimits value) ∧
    (validateJsonLimitsRun value).2 = validateJsonLimits value ∧
    ((validateJsonLimitsRun value).1.map Prod.fst).Nodup ∧
    (∀ visit ∈ (validateJsonLimitsRun value).1, value.at? visit.1 = some visit.2) ∧
    (validateJsonLimitsRun value).1.length ≤ maxJsonValues + 1 ∧
    (validateJsonLimits value = .ok () →
      ∀ part, Value.Inside part value → validateJsonLimits part = .ok ()) := by
  refine ⟨validateJsonLimits_eq_ok, Value.walkPlaces_snd _ _ _ _ _ _ _, ?_, ?_, ?_, ?_⟩
  · exact Value.nodup_walkPlaces _ _ _ _ _ _ _ (List.pairwise_singleton _ _)
  · refine Value.walkPlaces_at _ _ _ _ _ value _ _ fun visit hvisit => ?_
    obtain rfl := List.mem_singleton.1 hvisit
    rfl
  · have hlength := Value.length_walkPlaces_le (.jsonDepth maxJsonDepth)
      (.itemBudgetExceeded maxJsonValues) validateValue maxJsonDepth maxJsonValues 0
      [([], value, 1)] (Nat.zero_le _)
    rwa [Nat.zero_add] at hlength
  · intro h part hpart
    exact validateJsonLimits_eq_ok.2 ((validateJsonLimits_eq_ok.1 h).inside hpart)

/-! ### What is decoded -/

section RoundTrip

variable {x : Serde} {T : Type} [FramePayload T] {m : T} {maximum : ℕ} {frame : List UInt8}

theorem parseJson_eq_ok {payload : List UInt8} {v : Value} :
    parseJson x payload = .ok v ↔ x.fromSlice payload = .ok v := by
  unfold parseJson
  cases x.fromSlice payload <;> simp [Except.mapError]

/-- The inversion of `encode_frame`: the frame is the length and the text, and the text is within
the maximum, not empty, and within the limits as it is read back. -/
theorem encodeFrame_eq_ok (h : encodeFrame x m maximum = .ok frame) :
    FramePayload.validateBeforeEncode m = .ok () ∧ ∃ payload json,
      payload = x.text (FramePayload.toValue m) ∧ payload ≠ [] ∧
      payload.length ≤ min maximum (2 ^ 32 - 1) ∧ x.fromSlice payload = .ok json ∧
      WithinLimits json ∧ frame = (beBytes payload.length).toList ++ payload := by
  rw [encodeFrame, check_bind_eq_ok] at h
  obtain ⟨hvalid, h⟩ := h
  refine ⟨hvalid, ?_⟩
  dsimp only at h
  generalize hwriter : ({} : BoundedWriter).writeAll (min maximum (2 ^ 32 - 1))
    (x.pieces (FramePayload.toValue m)) = writer at h
  by_cases hover : writer.overflowed
  · rw [if_pos hover] at h
    cases h
  have hall :=
    writeAll_eq (congrArg BoundedWriter.overflowed hwriter |>.trans (by simpa using hover))
  rw [hwriter] at hall
  obtain ⟨hbytes, hle⟩ := hall
  by_cases hempty : writer.bytes = []
  · rw [if_neg hover, if_pos hempty] at h
    cases h
  rw [if_neg hover, if_neg hempty, Except.bind_eq_ok] at h
  obtain ⟨json, hjson, h⟩ := h
  rw [check_bind_eq_ok, validateJsonLimits_eq_ok] at h
  obtain ⟨hlimits, h⟩ := h
  have hfits : ¬ writer.bytes.length > min maximum (2 ^ 32 - 1) := by
    rw [hbytes]
    exact Nat.not_lt.2 hle
  rw [if_neg hfits] at h
  exact ⟨writer.bytes, json, hbytes, hempty, Nat.le_of_not_lt hfits, parseJson_eq_ok.1 hjson,
    hlimits, (Except.ok.inj h).symm⟩

@[simp] theorem lengthBytes_append (bytes : Vector UInt8 4) (payload : List UInt8) :
    lengthBytes (bytes.toList ++ payload) = some bytes := by
  obtain ⟨⟨list⟩, hsize⟩ := bytes
  match list, hsize with
  | [a, b, c, d], _ => rfl

theorem parseFrameLength_beBytes {n : ℕ} (hpos : n ≠ 0) (hle : n ≤ min maximum (2 ^ 32 - 1)) :
    parseFrameLength (beBytes n) maximum = .ok n := by
  have hlength : ofBeBytes (beBytes n) = n := ofBeBytes_beBytes (by omega)
  unfold parseFrameLength
  simp only [hlength]
  rw [if_neg hpos, if_neg (by omega)]

/-- The inversion of `decode_frame`. -/
theorem decodeFrame_eq_ok (h : (decodeFrame x frame maximum : Except FrameError T) = .ok m) :
    ∃ json, x.fromSlice (frame.drop 4) = .ok json ∧ WithinLimits json ∧
      FramePayload.fromValue x.parseUuid json = some m := by
  unfold decodeFrame at h
  cases hbytes : lengthBytes frame with
  | none =>
    rw [hbytes] at h
    cases h
  | some bytes =>
    rw [hbytes] at h
    simp only [Except.bind_eq_ok] at h
    obtain ⟨declared, -, h⟩ := h
    by_cases hlength : declared ≠ frame.length - 4
    · rw [if_pos hlength] at h
      cases h
    · rw [if_neg hlength, Except.bind_eq_ok] at h
      obtain ⟨json, hjson, h⟩ := h
      rw [check_bind_eq_ok, validateJsonLimits_eq_ok] at h
      obtain ⟨hlimits, h⟩ := h
      refine ⟨json, parseJson_eq_ok.1 hjson, hlimits, ?_⟩
      cases hvalue : (FramePayload.fromValue x.parseUuid json : Option T) with
      | none =>
        rw [hvalue] at h
        cases h
      | some v =>
        rw [hvalue] at h
        cases h
        rfl

/-- A frame of a text that is read back is decoded. -/
theorem decodeFrame_append {payload : List UInt8} {json : Value} (hempty : payload ≠ [])
    (hle : payload.length ≤ min maximum (2 ^ 32 - 1)) (hread : x.fromSlice payload = .ok json)
    (hlimits : WithinLimits json) (hvalue : FramePayload.fromValue x.parseUuid json = some m) :
    decodeFrame x ((beBytes payload.length).toList ++ payload) maximum = .ok m := by
  have hlength : payload.length ≠ 0 := by simpa using hempty
  have hdrop : ((beBytes payload.length).toList ++ payload).drop 4 = payload := by
    rw [List.drop_append_of_le_length (by simp)]
    simp
  unfold decodeFrame
  simp only [lengthBytes_append, hdrop]
  rw [parseFrameLength_beBytes hlength hle]
  have hactual : ¬ payload.length ≠ ((beBytes payload.length).toList ++ payload).length - 4 := by
    simp
  refine Except.bind_eq_ok.2 ⟨_, rfl, ?_⟩
  rw [if_neg hactual]
  refine Except.bind_eq_ok.2 ⟨json, parseJson_eq_ok.2 hread, ?_⟩
  refine check_bind_eq_ok.2 ⟨validateJsonLimits_eq_ok.2 hlimits, ?_⟩
  rw [hvalue]

/-- A message `serde` can carry: its value is plain and reads back, and what is checked before
serialization bounds its depth. -/
structure Sendable (x : Serde) (m : T) : Prop where
  plain : Plain (FramePayload.toValue m)
  depth : FramePayload.validateBeforeEncode m = .ok () → (FramePayload.toValue m).depth ≤ 127
  readsBack : FramePayload.fromValue x.parseUuid (FramePayload.toValue m) = some m

/-- What it means for a message to go through a frame. -/
def FrameRoundTrips (x : Serde) (m : T) : Prop :=
  ∀ maximum frame, encodeFrame x m maximum = .ok frame → frame.length ≤ maximum + 4 ∧
    (∃ bytes, lengthBytes frame = some bytes ∧
      parseFrameLength bytes maximum = .ok (frame.length - 4)) ∧
    decodeFrame x frame maximum = .ok m

theorem frameRoundTrips_of_sendable (hx : x.RoundTrips) (hm : Sendable x m) :
    FrameRoundTrips x m := by
  intro maximum frame h
  obtain ⟨hvalid, payload, json, htext, hempty, hle, hread, hlimits, rfl⟩ := encodeFrame_eq_ok h
  have hjson : json = FramePayload.toValue m := by
    have hback := hx.json _ hm.plain (hm.depth hvalid)
    rw [← htext, hread] at hback
    exact Except.ok.inj hback
  have hlength : payload.length ≠ 0 := by simpa using hempty
  refine ⟨?_, ⟨_, lengthBytes_append _ _, ?_⟩, ?_⟩
  · rw [List.length_append, Vector.length_toList]
    omega
  · rw [parseFrameLength_beBytes hlength hle]
    simp
  · exact decodeFrame_append hempty hle hread hlimits (by rw [hjson]; exact hm.readsBack)

end RoundTrip

/-! ### The three payloads -/

theorem plain_u16Value (n : UInt16) : Plain (u16Value n) := by
  have hlt : n.toNat < 65536 := n.toNat_lt
  exact .int ⟨by omega, by omega⟩

theorem depth_object_le {entries : List (String × Value)} {n : ℕ}
    (h : ∀ e ∈ entries, e.2.depth ≤ n) : (Value.object entries).depth ≤ n + 1 := by
  rw [Value.depth_eq]
  have hle : Value.depthItems (Value.object entries).children ≤ n := by
    refine Value.depthItems_le.2 fun v hv => ?_
    obtain ⟨e, he, rfl⟩ := List.mem_map.1 hv
    exact h e he
  omega

section Payloads

variable {x : Serde} (hx : x.RoundTrips)

theorem sendable_value {v : Value} (hv : Plain v) : Sendable x v where
  plain := hv
  depth h := by
    have hdepth : v.depth ≤ 32 := (validateJsonLimits_eq_ok.1 h).depth
    exact hdepth.trans (by norm_num)
  readsBack := rfl

include hx in
theorem sendable_request {r : RequestEnvelope} (hr : Plain r.arguments) : Sendable x r where
  plain := by
    refine .object ?_ ?_
    · cases r.authentication <;> simp [optionalField]
    · cases r.authentication <;> simp [optionalField, plain_u16Value, Plain.string, hr,
        SessionAuthentication.toValue]
      refine .object (by simp) (by simp [Plain.string])
  depth h := by
    obtain ⟨harguments, -⟩ := check_bind_eq_ok.1 h
    have hdepth : r.arguments.depth ≤ 32 := (validateJsonLimits_eq_ok.1 harguments).depth
    have hle : r.toValue.depth ≤ 32 + 1 := by
      refine depth_object_le ?_
      cases r.authentication <;> simp [optionalField, u16Value, Value.depth, hdepth,
        SessionAuthentication.toValue, Value.depthEntries]
    exact hle.trans (by norm_num)
  readsBack := RequestEnvelope.fromValue_toValue hx.uuid r

include hx in
theorem sendable_response {r : ResponseEnvelope} (hr : ∀ v ∈ r.result, Plain v) :
    Sendable x r where
  plain := by
    have herror : ∀ e : ProtocolError, Plain e.toValue := fun e =>
      .object (by simp) (by simp [Plain.string, Plain.bool])
    refine .object ?_ ?_
    · cases r.result <;> cases r.error <;> simp [optionalField]
    · cases hresult : r.result <;> cases r.error <;>
        simp_all [optionalField, plain_u16Value, Plain.string, Plain.bool]
  depth h := by
    obtain ⟨hchecked, -⟩ := check_bind_eq_ok.1 h
    have hresult : ∀ v ∈ r.result, v.depth ≤ 32 := by
      intro v hv
      rw [Option.mem_def.1 hv] at hchecked
      exact (validateJsonLimits_eq_ok.1 hchecked).depth
    have hle : r.toValue.depth ≤ 32 + 1 := by
      refine depth_object_le ?_
      cases hr : r.result <;> cases r.error <;>
        simp_all [optionalField, u16Value, Value.depth, ProtocolError.toValue, Value.depthEntries]
    exact hle.trans (by norm_num)
  readsBack := ResponseEnvelope.fromValue_toValue hx.uuid r

end Payloads

/-- The compact text of `Json.print` in one write, and UUIDs as they are printed. -/
noncomputable def compact : Serde where
  pieces v := [(Json.print v).toByteArray.data.toList]
  fromSlice bytes :=
    match (String.fromUTF8? ⟨bytes.toArray⟩).bind Json.parse with
    | some v => .ok v
    | none => .error (1, 1)
  parseUuid := Function.partialInv Uuid.toText

theorem noFloat_of_plain {v : Value} (h : Plain v) : v.NoFloat := by
  induction h with
  | null => exact .null
  | bool b => exact .bool b
  | int => exact .int _
  | string s => exact .string s
  | array _ ih => exact .array ih
  | object _ _ ih => exact .object ih

theorem compact_roundTrips : compact.RoundTrips where
  json v hv _ := by
    have htext : String.fromUTF8? ⟨(compact.text v).toArray⟩ = some (Json.print v) := by
      have hbytes : (⟨(compact.text v).toArray⟩ : ByteArray) = (Json.print v).toByteArray := by
        simp [compact, Serde.text]
      rw [hbytes, String.fromUTF8?, dif_pos (Json.print v).isValidUTF8]
      rfl
    simp only [compact] at htext ⊢
    rw [htext, Option.bind_some, Json.parse_print (noFloat_of_plain hv)]
  uuid u := Function.partialInv_left Uuid.toText_injective u

/-- A request with a command of a later version, and no session. -/
def newerRequest : RequestEnvelope where
  protocolVersion := 1
  commandSchemaVersion := 2
  requestId := .ofByte 1
  authentication := none
  command := .unknown
  arguments := .object [("wait", .bool true)]

/-- A success whose result is `null`. -/
def nullResponse : ResponseEnvelope where
  protocolVersion := 1
  requestId := .ofByte 1
  ok := true
  result := some .null
  error := none
  valid := rfl

end Protocol
end AgentDb
