import AgentDb.Error
import AgentDb.Lib.Json
import AgentDb.Lib.TextCode

/-!
# Canonical JSON: `operations/canonicalize.rs`

An operation's payload, its previews and its ledger details are stored as canonical JSON: object
keys sorted at every depth, then printed compactly. The printing, the reading back and the
digest are third-party code (`serde_json`, `sha2`) and come in as `Crates`; what the claims
assume of them is `Crates.RoundTrips`.

`canonicalValue_idem` is the fact every integrity check of the repository rests on: what has
been canonicalized once is canonical.
-/

namespace AgentDb
namespace Operations

open Json

/-- The third-party code the repository calls: `serde_json::to_string`, `serde_json::from_str`,
SHA-256 of `sha2`, and SQLite's `json_valid` of the column checks. -/
structure Crates where
  toString : Value → String
  fromStr : String → Option Value
  sha256 : List UInt8 → Vector UInt8 32
  jsonValid : String → Bool

mutual

/-- `canonical_value`: the keys of every object sorted. -/
def canonicalValue : Value → Value
  | .array values => .array (canonicalItems values)
  | .object values => .object ((canonicalEntries values).insertionSort fun a b => a.1 ≤ b.1)
  | .null => .null
  | .bool b => .bool b
  | .number n => .number n
  | .string s => .string s

def canonicalItems : List Value → List Value
  | [] => []
  | v :: vs => canonicalValue v :: canonicalItems vs

def canonicalEntries : List (String × Value) → List (String × Value)
  | [] => []
  | (k, v) :: es => (k, canonicalValue v) :: canonicalEntries es

end

theorem canonicalItems_eq_map (vs : List Value) : canonicalItems vs = vs.map canonicalValue := by
  induction vs with
  | nil => rfl
  | cons v vs ih => rw [canonicalItems, ih, List.map_cons]

theorem canonicalEntries_eq_map (es : List (String × Value)) :
    canonicalEntries es = es.map fun e => (e.1, canonicalValue e.2) := by
  induction es with
  | nil => rfl
  | cons e es ih => rw [canonicalEntries, ih, List.map_cons]

/-- **A canonical value is its own canonical form.** -/
theorem canonicalValue_idem (v : Value) :
    canonicalValue (canonicalValue v) = canonicalValue v := by
  induction v using Value.ind with
  | null => rfl
  | bool b => rfl
  | number n => rfl
  | string s => rfl
  | array items ih =>
    simp only [canonicalValue, canonicalItems_eq_map, List.map_map, Value.array.injEq]
    exact List.map_congr_left ih
  | object entries ih =>
    simp only [canonicalValue, canonicalEntries_eq_map, Value.object.injEq]
    set sorted := (entries.map fun e => (e.1, canonicalValue e.2)).insertionSort
      fun a b => a.1 ≤ b.1 with hsorted
    -- sorting moves entries only, so every value in `sorted` is canonical already
    have hfix : sorted.map (fun e => (e.1, canonicalValue e.2)) = sorted := by
      refine (List.map_congr_left fun e he => ?_).trans (List.map_id _)
      rw [hsorted, List.mem_insertionSort, List.mem_map] at he
      obtain ⟨e', he', rfl⟩ := he
      simp [ih e' he']
    rw [hfix]
    exact List.Pairwise.insertionSort_eq (List.pairwise_insertionSort _ _)

theorem map_eq_self_iff {α : Type} {f : α → α} {l : List α} :
    l.map f = l ↔ ∀ a ∈ l, f a = a := by
  have h : l.map f = l.map id ↔ ∀ a ∈ l, f a = id a := List.map_inj_left
  rw [List.map_id] at h
  exact h

/-- Among distinct keys an entry is what is found under its key. -/
theorem lookup_eq_some_iff_mem {α : Type} {entries : List (String × α)}
    (hkeys : (entries.map Prod.fst).Nodup) {k : String} {a : α} :
    entries.lookup k = some a ↔ (k, a) ∈ entries := by
  induction entries with
  | nil => simp
  | cons e es ih =>
    obtain ⟨l, b⟩ := e
    rw [List.map_cons, List.nodup_cons] at hkeys
    rw [List.lookup_cons, List.mem_cons]
    by_cases hk : k = l
    · subst hk
      have hnot : (k, a) ∉ es := fun hmem => hkeys.1 (List.mem_map.2 ⟨(k, a), hmem, rfl⟩)
      simp [hnot, eq_comm]
    · have hne : (k == l) = false := by simpa using hk
      rw [hne, ih hkeys.2]
      simp [hk]

/-- The keys of every object at every depth are in ascending order. -/
inductive KeySorted : Value → Prop
  | null : KeySorted .null
  | bool (b : Bool) : KeySorted (.bool b)
  | number (n : Number) : KeySorted (.number n)
  | string (s : String) : KeySorted (.string s)
  | array {items : List Value} (hitems : ∀ v ∈ items, KeySorted v) : KeySorted (.array items)
  | object {entries : List (String × Value)} (hkeys : entries.Pairwise fun a b => a.1 ≤ b.1)
      (hentries : ∀ e ∈ entries, KeySorted e.2) : KeySorted (.object entries)

/-- **Canonicalizing leaves a value alone exactly when its keys are sorted at every depth.** -/
theorem canonicalValue_eq_self_iff (v : Value) : canonicalValue v = v ↔ KeySorted v := by
  induction v using Value.ind with
  | null => exact iff_of_true rfl .null
  | bool b => exact iff_of_true rfl (.bool b)
  | number n => exact iff_of_true rfl (.number n)
  | string s => exact iff_of_true rfl (.string s)
  | array items ih =>
    rw [canonicalValue, canonicalItems_eq_map, Value.array.injEq]
    constructor
    · intro h
      refine .array fun v hv => (ih v hv).1 ?_
      exact map_eq_self_iff.1 h v hv
    · intro h
      cases h with
      | array hitems => exact map_eq_self_iff.2 fun v hv => (ih v hv).2 (hitems v hv)
  | object entries ih =>
    rw [canonicalValue, canonicalEntries_eq_map, Value.object.injEq]
    set mapped := entries.map fun e => (e.1, canonicalValue e.2) with hmapped
    -- the keys are those of the entries, in the same order
    have hsame : mapped.Pairwise (fun a b => a.1 ≤ b.1) ↔
        entries.Pairwise fun a b => a.1 ≤ b.1 := by
      rw [hmapped, List.pairwise_map]
    constructor
    · intro h
      have hsorted : entries.Pairwise fun a b => a.1 ≤ b.1 := by
        rw [← h]
        exact List.pairwise_insertionSort _ _
      rw [(hsame.2 hsorted).insertionSort_eq] at h
      refine .object hsorted fun e he => (ih e he).1 ?_
      exact congrArg Prod.snd (map_eq_self_iff.1 h e he)
    · intro h
      cases h with
      | object hkeys hentries =>
        rw [(hsame.2 hkeys).insertionSort_eq]
        exact map_eq_self_iff.2 fun e he => Prod.ext rfl ((ih e he).2 (hentries e he))

/-- What is found under a key among distinct ones does not depend on their order. -/
theorem lookup_canonical {entries : List (String × Value)} (hkeys : (entries.map Prod.fst).Nodup)
    (k : String) :
    ((canonicalEntries entries).insertionSort fun a b => a.1 ≤ b.1).lookup k =
      (entries.lookup k).map canonicalValue := by
  rw [canonicalEntries_eq_map]
  set mapped := entries.map fun e => (e.1, canonicalValue e.2) with hmapped
  have hsame : mapped.map Prod.fst = entries.map Prod.fst := by
    rw [hmapped, List.map_map]
    rfl
  have hperm := List.perm_insertionSort (fun a b : String × Value => a.1 ≤ b.1) mapped
  have hsorted : ((mapped.insertionSort fun a b => a.1 ≤ b.1).map Prod.fst).Nodup := by
    rw [(hperm.map Prod.fst).nodup_iff, hsame]
    exact hkeys
  refine Option.ext fun v => ?_
  rw [lookup_eq_some_iff_mem hsorted, hperm.mem_iff, hmapped, List.mem_map, Option.map_eq_some_iff]
  constructor
  · rintro ⟨⟨l, w⟩, hmem, heq⟩
    obtain ⟨rfl, rfl⟩ := Prod.mk.inj heq
    exact ⟨w, (lookup_eq_some_iff_mem hkeys).2 hmem, rfl⟩
  · rintro ⟨w, hw, rfl⟩
    exact ⟨(k, w), (lookup_eq_some_iff_mem hkeys).1 hw, rfl⟩

/-- Printing and parsing are inverse on canonical values without floating-point numbers. -/
def Crates.RoundTrips (x : Crates) : Prop :=
  ∀ v : Value, v.NoFloat → x.fromStr (x.toString (canonicalValue v)) = some (canonicalValue v)

/-- `lower_hex` of `canonicalize.rs` and `repository.rs`. -/
def lowerHex (bytes : List UInt8) : String := String.ofList (TextCode.hex bytes)

section

variable (x : Crates)

/-- The lowercase SHA-256 of a text. -/
def digest (text : String) : String := lowerHex (x.sha256 (TextCode.utf8 text)).toList

/-- `CanonicalJson`. -/
structure CanonicalJson where
  json : String
  sha256 : String
  deriving DecidableEq

/-- `CanonicalJson::from_value`. -/
def CanonicalJson.fromValue (value : Value) : CanonicalJson :=
  let json := x.toString (canonicalValue value)
  ⟨json, digest x json⟩

/-- `serde_json::from_str` with its error lifted into `AppError`. -/
def fromStr (text : String) : AppResult Value :=
  match x.fromStr text with
  | some v => .ok v
  | none => .error (.serialization "invalid JSON text")

/-- `CanonicalJson::from_stored`. -/
def CanonicalJson.fromStored (json expectedSha256 : String) : AppResult CanonicalJson := do
  let value ← fromStr x json
  let canonical := CanonicalJson.fromValue x value
  if canonical.json ≠ json ∨ canonical.sha256 ≠ expectedSha256 then
    throw (.config "stored operation payload failed canonical integrity validation")
  return canonical

/-- `canonical_json`. -/
def canonicalJson (value : Value) : String := (CanonicalJson.fromValue x value).json

/-- `canonical_hash`. -/
def canonicalHash (value : Value) : String := (CanonicalJson.fromValue x value).sha256

variable {x}

theorem fromStr_eq_ok {text : String} {v : Value} (h : x.fromStr text = some v) :
    fromStr x text = .ok v := by
  simp [fromStr, h]

/-- What was stored by `canonicalJson` reads back as the canonical value. -/
theorem fromStr_canonicalJson (hx : x.RoundTrips) {v : Value} (hv : v.NoFloat) :
    fromStr x (canonicalJson x v) = .ok (canonicalValue v) :=
  fromStr_eq_ok (hx v hv)

theorem canonicalJson_canonicalValue (v : Value) :
    canonicalJson x (canonicalValue v) = canonicalJson x v := by
  simp only [canonicalJson, CanonicalJson.fromValue, canonicalValue_idem]

end

end Operations
end AgentDb
