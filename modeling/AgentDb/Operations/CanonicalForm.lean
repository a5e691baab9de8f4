import AgentDb.Lib.JsonExtension
import AgentDb.Lib.JsonText
import AgentDb.Operations.Sample

/-!
# What canonical JSON identifies: `operations/canonicalize.rs`

Sorting the keys of every object leaves what a value says as it is and makes equal values the same
document. So the canonical text of a value stands for the value up to the order of its keys, and
its digest for that text: every approval and every integrity check of the repository compares one
or the other.
-/

namespace Json
namespace Value

/-- What `serde_json::Value` holds: integers of 64 bits, floating-point numbers, and objects in
which no key stands twice. -/
inductive Held : Value → Prop
  | null : Held .null
  | bool (b : Bool) : Held (.bool b)
  | int {n : ℤ} (hrange : -2 ^ 63 ≤ n ∧ n < 2 ^ 64) : Held (.number (.int n))
  | float {text : String} (htext : FloatText text) : Held (.number (.float text))
  | string (s : String) : Held (.string s)
  | array {items : List Value} (hitems : ∀ v ∈ items, Held v) : Held (.array items)
  | object {entries : List (String × Value)} (hkeys : (entries.map Prod.fst).Nodup)
      (hentries : ∀ e ∈ entries, Held e.2) : Held (.object entries)

@[simp] theorem held_string (s : String) : (string s).Held := .string s

@[simp] theorem held_int {n : ℤ} : (number (.int n)).Held ↔ -2 ^ 63 ≤ n ∧ n < 2 ^ 64 :=
  ⟨fun h => by cases h; assumption, .int⟩

@[simp] theorem held_array {items : List Value} : (array items).Held ↔ ∀ v ∈ items, v.Held :=
  ⟨fun h => by cases h; assumption, .array⟩

@[simp] theorem held_object {entries : List (String × Value)} :
    (object entries).Held ↔ (entries.map Prod.fst).Nodup ∧ ∀ e ∈ entries, e.2.Held :=
  ⟨fun h => by cases h; exact ⟨‹_›, ‹_›⟩, fun h => .object h.1 h.2⟩

end Value
end Json

namespace AgentDb
namespace Operations

open Json

variable {v a b : Value} {x : Crates}

/-! ### The canonical form of a value -/

theorem mem_canonicalEntries {entries : List (String × Value)} {e : String × Value} :
    e ∈ (canonicalEntries entries).insertionSort (fun a b => a.1 ≤ b.1) ↔
      ∃ e' ∈ entries, (e'.1, canonicalValue e'.2) = e := by
  rw [List.mem_insertionSort, canonicalEntries_eq_map, List.mem_map]

theorem nodup_canonicalEntries {entries : List (String × Value)}
    (h : (entries.map Prod.fst).Nodup) :
    (((canonicalEntries entries).insertionSort fun a b => a.1 ≤ b.1).map Prod.fst).Nodup := by
  have hperm := List.perm_insertionSort (fun a b : String × Value => a.1 ≤ b.1)
    (canonicalEntries entries)
  rw [(hperm.map Prod.fst).nodup_iff, canonicalEntries_eq_map, List.map_map]
  exact h

/-- Sorted keys that are distinct ascend. -/
theorem ascending_canonicalEntries {entries : List (String × Value)}
    (h : (entries.map Prod.fst).Nodup) :
    ((canonicalEntries entries).insertionSort fun a b => a.1 ≤ b.1).Pairwise
      fun a b => a.1 < b.1 := by
  have hsorted := List.pairwise_insertionSort (fun a b : String × Value => a.1 ≤ b.1)
    (canonicalEntries entries)
  have hdistinct := List.pairwise_map.1 (nodup_canonicalEntries h)
  exact (hsorted.and hdistinct).imp fun hab => lt_of_le_of_ne hab.1 hab.2

theorem held_canonicalValue (h : v.Held) : (canonicalValue v).Held := by
  induction v using Value.ind with
  | array items ih =>
    cases h with
    | array hitems =>
      rw [canonicalValue, canonicalItems_eq_map]
      exact .array (List.forall_mem_map.2 fun v hv => ih v hv (hitems v hv))
  | object entries ih =>
    cases h with
    | object hkeys hentries =>
      refine .object (nodup_canonicalEntries hkeys) fun e he => ?_
      obtain ⟨e', he', rfl⟩ := mem_canonicalEntries.1 he
      exact ih e' he' (hentries e' he')
  | _ => exact h

/-- The canonical form of a value is in order. -/
theorem ordered_canonicalValue (h : v.Held) : (canonicalValue v).Ordered := by
  induction v using Value.ind with
  | null => exact .null
  | bool b => exact .bool b
  | number n => exact .number n
  | string s => exact .string s
  | array items ih =>
    cases h with
    | array hitems =>
      rw [canonicalValue, canonicalItems_eq_map]
      exact .array (List.forall_mem_map.2 fun v hv => ih v hv (hitems v hv))
  | object entries ih =>
    cases h with
    | object hkeys hentries =>
      refine .object (ascending_canonicalEntries hkeys) fun e he => ?_
      obtain ⟨e', he', rfl⟩ := mem_canonicalEntries.1 he
      exact ih e' he' (hentries e' he')

/-- **Canonicalizing does not change what a value says.** -/
theorem extension_canonicalValue (h : v.Held) : (canonicalValue v).extension = v.extension := by
  induction v using Value.ind with
  | null => rfl
  | bool b => rfl
  | number n => rfl
  | string s => rfl
  | array items ih =>
    cases h with
    | array hitems =>
      rw [canonicalValue, canonicalItems_eq_map, Value.extension, Value.extension,
        Value.extensionItems_eq_map, Value.extensionItems_eq_map, List.map_map]
      exact congrArg _ (List.map_congr_left fun v hv => ih v hv (hitems v hv))
  | object entries ih =>
    cases h with
    | object hkeys hentries =>
      rw [canonicalValue, Value.extension, Value.extension]
      refine congrArg _ (funext fun k => ?_)
      rw [Value.extensionEntries_eq, Value.extensionEntries_eq, lookup_canonical hkeys]
      cases hlookup : entries.lookup k with
      | none => rfl
      | some w =>
        have hmem := (lookup_eq_some_iff_mem hkeys).1 hlookup
        exact congrArg some (ih (k, w) hmem (hentries _ hmem))

/-- **The comparison of `serde_json`**: it compares what two values say. -/
theorem beq_canonicalValue_iff (ha : a.Held) (hb : b.Held) :
    (canonicalValue a).beq (canonicalValue b) = true ↔ a.extension = b.extension := by
  rw [Value.beq_iff_extension_eq (ordered_canonicalValue ha) (ordered_canonicalValue hb),
    extension_canonicalValue ha, extension_canonicalValue hb]

/-- **Two values without floating-point numbers have one canonical form if and only if they are
equal as JSON values.** -/
theorem canonicalValue_eq_iff (ha : a.Held) (hb : b.Held) (hfloat : a.NoFloat) :
    canonicalValue a = canonicalValue b ↔ a.extension = b.extension := by
  rw [← beq_canonicalValue_iff ha hb,
    Value.beq_iff_eq_of_noFloat (noFloat_canonicalValue hfloat)]

/-! ### The canonical text and its digest -/

/-- Printing and parsing are inverse: a canonical value without floating-point numbers reads back
as it was printed. -/
def Crates.Inverse (x : Crates) : Prop :=
  ∀ v : Value, v.Held → v.NoFloat → x.fromStr (x.toString (canonicalValue v)) =
    some (canonicalValue v)

/-- `CanonicalJson::into_value`. -/
def CanonicalJson.intoValue (x : Crates) (c : CanonicalJson) : AppResult Value := fromStr x c.json

theorem Crates.RoundTrips.inverse (hx : x.RoundTrips) : x.Inverse := fun v _ => hx v

theorem canonicalJson_eq_iff (hx : x.Inverse) (ha : a.Held) (hb : b.Held) (hfa : a.NoFloat)
    (hfb : b.NoFloat) : canonicalJson x a = canonicalJson x b ↔ a.extension = b.extension := by
  rw [← canonicalValue_eq_iff ha hb hfa]
  constructor
  · intro h
    have hread := congrArg x.fromStr h
    change x.fromStr (x.toString _) = x.fromStr (x.toString _) at hread
    rw [hx a ha hfa, hx b hb hfb] at hread
    exact Option.some.inj hread
  · intro h
    rw [canonicalJson, canonicalJson, CanonicalJson.fromValue, CanonicalJson.fromValue, h]

/-- **What `from_stored` accepts is a pair that `from_value` makes**, from the value it reads. -/
theorem fromStored_eq_ok {json sha256 : String} {c : CanonicalJson}
    (h : CanonicalJson.fromStored x json sha256 = .ok c) :
    c = ⟨json, sha256⟩ ∧ ∃ v, x.fromStr json = some v ∧ CanonicalJson.fromValue x v = c := by
  obtain ⟨v, hread, h⟩ := Except.bind_eq_ok.1 h
  dsimp only at h
  split_ifs at h with hdiffers
  · exact (Except.throw_eq_ok.1 h).elim
  · rw [not_or, not_ne_iff, not_ne_iff] at hdiffers
    obtain rfl := Except.pure_eq_ok.1 h
    obtain ⟨rfl, rfl⟩ := hdiffers
    refine ⟨rfl, v, ?_, rfl⟩
    unfold fromStr at hread
    split at hread
    · next hsome => rw [hsome, Except.ok.inj hread]
    · cases hread

/-- What reads back is accepted, with the digest it was stored with. -/
theorem fromStored_fromValue (hx : x.Inverse) (hv : v.Held) (hfloat : v.NoFloat) :
    CanonicalJson.fromStored x (CanonicalJson.fromValue x v).json
      (CanonicalJson.fromValue x v).sha256 = .ok (CanonicalJson.fromValue x v) := by
  have hsame : CanonicalJson.fromValue x (canonicalValue v) = CanonicalJson.fromValue x v := by
    simp only [CanonicalJson.fromValue, canonicalValue_idem]
  have hread : fromStr x (CanonicalJson.fromValue x v).json = .ok (canonicalValue v) :=
    fromStr_eq_ok (hx v hv hfloat)
  rw [CanonicalJson.fromStored, hread]
  simp only [bind, Except.bind, hsame, ne_eq, not_true_eq_false, or_self, if_false]
  rfl

/-- Texts with one digest hash alike. -/
theorem sha256_eq_of_digest_eq {s t : String} (h : digest x s = digest x t) :
    x.sha256 (TextCode.utf8 s) = x.sha256 (TextCode.utf8 t) :=
  Vector.toList_inj.1 (TextCode.hex_injective (String.ofList_inj.1 h))

/-- **Canonical JSON identifies values.** Of values without floating-point numbers, two have the
same canonical text exactly when they are equal as JSON values, in whatever order their keys stand
at any depth. What `from_value` makes of such a value is accepted by `from_stored` and reads back
as an equal value; whatever else `from_stored` accepts was made by `from_value` as well, and with
the digest of the value it accepts no other text, unless SHA-256 maps both to one digest. -/
theorem canonical_json_identifies_values (hx : x.Inverse) :
    (∀ a b : Value, a.Held → b.Held → a.NoFloat → b.NoFloat →
      (canonicalJson x a = canonicalJson x b ↔ a.extension = b.extension)) ∧
    (∀ v : Value, v.Held → v.NoFloat →
      let c := CanonicalJson.fromValue x v
      CanonicalJson.fromStored x c.json c.sha256 = .ok c ∧
      (∃ w, c.intoValue x = .ok w ∧ w.extension = v.extension) ∧
      ∀ json, json ≠ c.json →
        (x.sha256 (TextCode.utf8 json) = x.sha256 (TextCode.utf8 c.json) → json = c.json) →
        ∃ e, CanonicalJson.fromStored x json c.sha256 = .error e) ∧
    ∀ json sha256 c, CanonicalJson.fromStored x json sha256 = .ok c →
      c = ⟨json, sha256⟩ ∧ ∃ v, x.fromStr json = some v ∧ CanonicalJson.fromValue x v = c := by
  refine ⟨fun a b => canonicalJson_eq_iff hx, fun v hv hfloat => ⟨?_, ?_, ?_⟩,
    fun json sha256 c => fromStored_eq_ok⟩
  · exact fromStored_fromValue hx hv hfloat
  · exact ⟨canonicalValue v, fromStr_eq_ok (hx v hv hfloat), extension_canonicalValue hv⟩
  · intro json hne hfree
    cases hstored : CanonicalJson.fromStored x json (CanonicalJson.fromValue x v).sha256 with
    | error e => exact ⟨e, rfl⟩
    | ok c =>
      -- an accepted text has the digest it is paired with
      obtain ⟨hc, w, -, hw⟩ := fromStored_eq_ok hstored
      have hdigest : digest x json = digest x (CanonicalJson.fromValue x v).json := by
        have hjson : (CanonicalJson.fromValue x w).json = json := by rw [hw, hc]
        have hsha : (CanonicalJson.fromValue x w).sha256 = (CanonicalJson.fromValue x v).sha256 := by
          rw [hw, hc]
        rw [← hjson]
        exact hsha
      exact absurd (hfree (sha256_eq_of_digest_eq hdigest)) hne

/-- A request, and the same request with its keys in another order. -/
def sampleRequest : Value :=
  .object [("sql", .string "SELECT 1"), ("options", .object [("timeout", .number (.int 30)),
    ("tags", .array [.string "a", .string "b"])])]

def sampleReordered : Value :=
  .object [("options", .object [("tags", .array [.string "a", .string "b"]),
    ("timeout", .number (.int 30))]), ("sql", .string "SELECT 1")]

theorem held_sampleRequest : sampleRequest.Held ∧ sampleReordered.Held ∧ sampleRequest.NoFloat ∧
    sampleReordered.NoFloat := by
  simp [sampleRequest, sampleReordered, Value.noFloat_object, Value.noFloat_array,
    Value.NoFloat.string, Value.NoFloat.int]

/-- The theorem at the two requests: one text, and what is stored for the one reads as the other. -/
theorem canonical_json_identifies_sampleRequest :
    canonicalJson crates sampleRequest = canonicalJson crates sampleReordered ∧
      sampleRequest.extension = sampleReordered.extension := by
  have hsame : canonicalJson crates sampleRequest = canonicalJson crates sampleReordered :=
    congrArg crates.toString (show canonicalValue _ = canonicalValue _ from rfl)
  obtain ⟨ha, hb, hfa, hfb⟩ := held_sampleRequest
  exact ⟨hsame, ((canonical_json_identifies_values crates_lawful.roundTrips.inverse).1 _ _ ha hb hfa
    hfb).1 hsame⟩

end Operations
end AgentDb
