import AgentDb.Lib.JsonText

/-!
# Derived serializers

A serializer of a type is an injective map into the JSON values without floating-point numbers.
Texts, numbers, variants and lists have one, and a struct has one that writes its fields in order:
a required field always, an optional field only when it is there. `Serializer.toVec_injective`
says that the compact text of the value still determines what was serialized.
-/

namespace Json

open Value TextCode

/-- An injective serialization without floating-point numbers. -/
structure Serializer (α : Type) where
  toValue : α → Value
  injective : Function.Injective toValue
  noFloat : ∀ a, (toValue a).NoFloat

/-- A field of a struct; a field that is skipped writes nothing. -/
structure Field (α : Type) where
  name : String
  write : α → Option Value
  noFloat : ∀ a, ∀ v ∈ write a, v.NoFloat

namespace Serializer

variable {α β : Type}

def string : Serializer String where
  toValue := .string
  injective _ _ h := by cases h; rfl
  noFloat := .string

def nat : Serializer ℕ where
  toValue n := .number (.int n)
  injective _ _ h := by cases h; rfl
  noFloat n := .int n

def int : Serializer ℤ where
  toValue n := .number (.int n)
  injective _ _ h := by cases h; rfl
  noFloat := .int

def bool : Serializer Bool where
  toValue := .bool
  injective _ _ h := by cases h; rfl
  noFloat := .bool

/-- A type all of whose values have a name of their own. -/
def variant (name : α → String) (hname : Function.Injective name) : Serializer α where
  toValue a := .string (name a)
  injective _ _ h := hname (string.injective h)
  noFloat _ := .string _

def list (s : Serializer α) : Serializer (List α) where
  toValue items := .array (items.map s.toValue)
  injective a b h := by
    injection h with h
    exact List.map_injective_iff.2 s.injective h
  noFloat items := noFloat_array.2 fun v hv => by
    obtain ⟨a, -, rfl⟩ := List.mem_map.1 hv
    exact s.noFloat a

end Serializer

namespace Field

variable {α β : Type} (name : String) (s : Serializer β)

/-- A field that is always written. -/
def required (get : α → β) : Field α where
  name := name
  write a := some (s.toValue (get a))
  noFloat a := by
    rintro v ⟨⟩
    exact s.noFloat _

/-- A field that is skipped when it is `None`. -/
def optional (get : α → Option β) : Field α where
  name := name
  write a := (get a).map s.toValue
  noFloat a := by
    intro v hv
    obtain ⟨b, -, rfl⟩ := Option.mem_map.1 hv
    exact s.noFloat b

@[simp] theorem required_write_inj {get : α → β} {a b : α} :
    (required name s get).write a = (required name s get).write b ↔ get a = get b := by
  simp only [required, Option.some.injEq, s.injective.eq_iff]

@[simp] theorem optional_write_inj {get : α → Option β} {a b : α} :
    (optional name s get).write a = (optional name s get).write b ↔ get a = get b :=
  (Option.map_injective s.injective).eq_iff

end Field

variable {α β : Type}

/-- The entries the fields leave. -/
def writeFields (fields : List (Field α)) (a : α) : List (String × Value) :=
  fields.filterMap fun f => (f.write a).map (f.name, ·)

theorem name_of_mem_writeFields {fields : List (Field α)} {a : α} {e : String × Value}
    (h : e ∈ writeFields fields a) : e.1 ∈ fields.map Field.name := by
  obtain ⟨f, hf, he⟩ := List.mem_filterMap.1 h
  obtain ⟨v, -, rfl⟩ := Option.map_eq_some_iff.1 he
  exact List.mem_map_of_mem hf

/-- Which fields were written can be read off the entries, since no two share a name. -/
theorem writeFields_inj {fields : List (Field α)} (hnames : (fields.map Field.name).Nodup)
    {a b : α} (h : writeFields fields a = writeFields fields b) :
    ∀ f ∈ fields, f.write a = f.write b := by
  induction fields with
  | nil => simp
  | cons f fields ih =>
    rw [List.map_cons, List.nodup_cons] at hnames
    -- an entry of a later field cannot stand for this one
    have habsurd : ∀ {c : α} {v : Value} {es : List (String × Value)},
        writeFields fields c = (f.name, v) :: es → False := fun hc =>
      hnames.1 (name_of_mem_writeFields (hc ▸ List.mem_cons_self))
    have hboth : f.write a = f.write b ∧ writeFields fields a = writeFields fields b := by
      simp only [writeFields, List.filterMap_cons] at h
      cases ha : f.write a with
      | none =>
        cases hb : f.write b with
        | none => simpa [ha, hb, writeFields] using h
        | some v =>
          rw [ha, hb] at h
          exact (habsurd h).elim
      | some v =>
        cases hb : f.write b with
        | none =>
          rw [ha, hb] at h
          exact (habsurd h.symm).elim
        | some w =>
          rw [ha, hb] at h
          simp only [Option.map_some, List.cons.injEq, Prod.mk.injEq, true_and] at h
          exact ⟨congrArg some h.1, h.2⟩
    intro g hg
    rcases List.mem_cons.1 hg with rfl | hg
    · exact hboth.1
    · exact ih hnames.2 hboth.2 g hg

/-- Every field is found under its name. -/
theorem lookup_writeFields {fields : List (Field α)} (hnames : (fields.map Field.name).Nodup)
    {f : Field α} (hf : f ∈ fields) (a : α) :
    (writeFields fields a).lookup f.name = f.write a := by
  induction fields with
  | nil => cases hf
  | cons g fields ih =>
    rw [List.map_cons, List.nodup_cons] at hnames
    rcases List.mem_cons.1 hf with rfl | hf
    · cases hwrite : f.write a with
      | none =>
        rw [writeFields, List.filterMap_cons, hwrite]
        refine List.lookup_eq_none_iff.2 fun e he => ?_
        have hne : f.name ≠ e.1 := fun h => hnames.1 (h ▸ name_of_mem_writeFields he)
        simpa using hne
      | some v =>
        rw [writeFields, List.filterMap_cons, hwrite]
        exact List.lookup_cons_self
    · have hne : f.name ≠ g.name := fun h => hnames.1 (h ▸ List.mem_map_of_mem hf)
      rw [← ih hnames.2 hf, writeFields, writeFields, List.filterMap_cons]
      cases g.write a with
      | none => rfl
      | some v => exact (List.lookup_cons ..).trans (by rw [beq_eq_false_iff_ne.2 hne])

/-- The keys of a struct are some of its fields, in their order. -/
theorem keys_writeFields_sublist (fields : List (Field α)) (a : α) :
    ((writeFields fields a).map Prod.fst).Sublist (fields.map Field.name) := by
  induction fields with
  | nil => exact .slnil
  | cons f fields ih =>
    rw [writeFields, List.filterMap_cons]
    cases f.write a with
    | none => exact ih.cons _
    | some v => exact ih.cons_cons _

namespace Serializer

/-- A struct whose fields have names of their own and together determine it. -/
def struct (fields : List (Field α)) (hnames : (fields.map Field.name).Nodup)
    (hfields : ∀ a b, (∀ f ∈ fields, f.write a = f.write b) → a = b) : Serializer α where
  toValue a := .object (writeFields fields a)
  injective a b h := by
    injection h with h
    exact hfields a b (writeFields_inj hnames h)
  noFloat a := noFloat_object.2 fun e he => by
    obtain ⟨f, -, hf⟩ := List.mem_filterMap.1 he
    obtain ⟨v, hv, rfl⟩ := Option.map_eq_some_iff.1 hf
    exact f.noFloat a v hv

/-- `serde_json::to_vec`: the bytes of the compact text. -/
def toVec (s : Serializer α) (a : α) : List UInt8 := utf8 (print (s.toValue a))

/-- **The bytes determine what was serialized.** -/
theorem toVec_injective (s : Serializer α) : Function.Injective s.toVec := by
  intro a b h
  have hprint : print (s.toValue a) = print (s.toValue b) := utf8_injective h
  have hparse := congrArg parse hprint
  rw [parse_print (s.noFloat a), parse_print (s.noFloat b), Option.some.injEq] at hparse
  exact s.injective hparse

end Serializer

end Json
