import AgentDb.Lib.JsonStruct
import AgentDb.Protocol.Frame

/-!
# Derived readers

`serde` derives the reader of a struct from its fields as it derives the serializer: each field is
looked up by its name and read by the reader of its type, an absent option is `None`, and an absent
list with a default is empty. A `Shape` is that list of fields; `kept_struct` says that a struct is
printed and read back as it was when each of its fields is.
-/

namespace AgentDb
namespace Protocol

open Json Serializer

/-- A serializer with the reader of the same type. -/
structure Codec (α : Type) extends Serializer α where
  read : Value → Option α

/-! ### Values that are read back -/

section Kept

variable {α β : Type} {d d' : ℕ}

/-- A value that `serde_json` prints and reads back, and how deep it is at most. -/
structure Printable (d : ℕ) (v : Value) : Prop where
  plain : Plain v
  depth : v.depth ≤ d

theorem Printable.mono {v : Value} (h : Printable d v) (hd : d ≤ d') : Printable d' v :=
  ⟨h.plain, h.depth.trans hd⟩

theorem printable_array {items : List Value} (h : ∀ v ∈ items, Printable d v) :
    Printable (d + 1) (.array items) where
  plain := .array fun v hv => (h v hv).plain
  depth := by
    rw [Value.depth_eq]
    exact Nat.succ_le_succ (Value.depthItems_le.2 fun v hv => (h v hv).depth)

theorem printable_object {entries : List (String × Value)} (hnodup : (entries.map Prod.fst).Nodup)
    (h : ∀ e ∈ entries, Printable d e.2) : Printable (d + 1) (.object entries) where
  plain := .object hnodup fun e he => (h e he).plain
  depth := by
    rw [Value.depth_eq]
    refine Nat.succ_le_succ (Value.depthItems_le.2 fun v hv => ?_)
    obtain ⟨e, he, rfl⟩ := List.mem_map.1 hv
    exact (h e he).depth

/-- What is written of `a` is printed, and read as `a` again. -/
structure Kept (d : ℕ) (c : Codec α) (a : α) : Prop where
  printable : Printable d (c.toValue a)
  ne_null : c.toValue a ≠ .null
  read : c.read (c.toValue a) = some a

namespace Codec

def text : Codec String := ⟨string, readString⟩

theorem kept_text (s : String) : Kept 1 text s where
  printable := ⟨.string s, le_rfl⟩
  ne_null h := by cases h
  read := rfl

def bool : Codec Bool := ⟨Serializer.bool, readBool⟩

theorem kept_bool (b : Bool) : Kept 1 bool b where
  printable := ⟨.bool b, le_rfl⟩
  ne_null h := by cases h
  read := rfl

/-- An unsigned number of some bits. -/
def unsigned (bits : ℕ) : Codec ℕ where
  toSerializer := nat
  read
    | .number (.int n) => if 0 ≤ n ∧ n < 2 ^ bits then some n.toNat else none
    | _ => none

theorem kept_unsigned {bits n : ℕ} (hbits : bits ≤ 64) (hn : n < 2 ^ bits) :
    Kept 1 (unsigned bits) n where
  printable := by
    have hlt : n < 2 ^ 64 := hn.trans_le (Nat.pow_le_pow_right (by norm_num) hbits)
    exact ⟨.int ⟨by omega, by exact_mod_cast hlt⟩, le_rfl⟩
  ne_null h := by cases h
  read := by
    have hrange : 0 ≤ (n : ℤ) ∧ (n : ℤ) < 2 ^ bits := ⟨by omega, by exact_mod_cast hn⟩
    exact (if_pos hrange).trans (congrArg some (Int.toNat_natCast n))

/-- A signed number of 64 bits. -/
def i64 : Codec ℤ where
  toSerializer := int
  read
    | .number (.int n) => if -(2 : ℤ) ^ 63 ≤ n ∧ n < 2 ^ 63 then some n else none
    | _ => none

theorem kept_i64 {n : ℤ} (hn : -(2 : ℤ) ^ 63 ≤ n ∧ n < 2 ^ 63) : Kept 1 i64 n where
  printable := ⟨.int ⟨hn.1, hn.2.trans (by norm_num)⟩, le_rfl⟩
  ne_null h := by cases h
  read := if_pos hn

/-- The value of a text, as another type reads it. -/
def parsed (name : α → String) (hname : Function.Injective name) (parse : String → Option α) :
    Codec α := ⟨variant name hname, fun v => (readString v).bind parse⟩

theorem kept_parsed {name : α → String} {hname : Function.Injective name}
    {parse : String → Option α} {a : α} (h : parse (name a) = some a) :
    Kept 1 (parsed name hname parse) a where
  printable := ⟨.string _, le_rfl⟩
  ne_null h := by cases h
  read := h

/-- A variant without data, by its name. -/
def named (s : Serializer α) (all : List α) (name : α → String) : Codec α where
  toSerializer := s
  read v := (readVariant v).bind fun text => all.find? fun a => name a = text

theorem kept_named {all : List α} {name : α → String} {hname : Function.Injective name}
    (hall : ∀ a, a ∈ all) (a : α) : Kept 1 (named (variant name hname) all name) a where
  printable := ⟨.string _, le_rfl⟩
  ne_null h := by cases h
  read := by
    have hsome : (all.find? fun b => name b = name a).isSome :=
      List.find?_isSome.2 ⟨a, hall a, by simp⟩
    obtain ⟨b, hb⟩ := Option.isSome_iff_exists.1 hsome
    have hsame : name b = name a := by simpa using List.find?_some hb
    exact hb.trans (congrArg some (hname hsame))

def list (c : Codec α) : Codec (List α) where
  toSerializer := Serializer.list c.toSerializer
  read
    | .array items => items.mapM c.read
    | _ => none

theorem kept_list {c : Codec α} {l : List α} (h : ∀ a ∈ l, Kept d c a) :
    Kept (d + 1) (list c) l where
  printable := printable_array fun v hv => by
    obtain ⟨a, ha, rfl⟩ := List.mem_map.1 hv
    exact (h a ha).printable
  ne_null h := by cases h
  read := by
    change (l.map c.toValue).mapM c.read = some l
    induction l with
    | nil => rfl
    | cons a l ih =>
      obtain ⟨ha, hl⟩ := List.forall_mem_cons.1 h
      rw [List.map_cons, List.mapM_cons, ha.read, ih hl]
      rfl

end Codec

end Kept

/-! ### Structs -/

/-- The fields of a struct `α`, with the reader of each. What is read makes a `δ`. -/
inductive Shape (α δ : Type) : Type → Type 1
  | done : Shape α δ δ
  | field {β γ : Type} (f : Json.Field α) (read : Option Value → Option β) (get : α → β)
      (rest : Shape α δ γ) : Shape α δ (β → γ)

namespace Shape

variable {α β γ δ : Type}

/-- A field that has to be there. -/
def required (name : String) (c : Codec β) (get : α → β) (rest : Shape α δ γ) :
    Shape α δ (β → γ) :=
  field (.required name c.toSerializer get) (·.bind c.read) get rest

/-- A field that is left out when it is `None`. -/
def optional (name : String) (c : Codec β) (get : α → Option β) (rest : Shape α δ γ) :
    Shape α δ (Option β → γ) :=
  field (.optional name c.toSerializer get) (readOption c.read) get rest

/-- A list that is empty when it is left out. -/
def list (name : String) (c : Codec β) (get : α → List β) (rest : Shape α δ γ) :
    Shape α δ (List β → γ) :=
  field (.required name (Serializer.list c.toSerializer) get)
    (fun v => v.elim (some []) c.list.read) get rest

def fields : {γ : Type} → Shape α δ γ → List (Json.Field α)
  | _, done => []
  | _, field f _ _ rest => f :: rest.fields

/-- The value that is made of the fields of `a`. -/
def build (a : α) : {γ : Type} → Shape α δ γ → γ → δ
  | _, done, c => c
  | _, field _ _ get rest, make => rest.build a (make (get a))

/-- The reader of the entries. -/
def readEntries (entries : List (String × Value)) : {γ : Type} → Shape α δ γ → γ → Option δ
  | _, done, c => some c
  | _, field f read _ rest, make =>
      (read (entries.lookup f.name)).bind fun b => rest.readEntries entries (make b)

/-- The reader `serde` derives. -/
def read (shape : Shape α δ γ) (make : γ) (v : Value) : Option δ :=
  (structEntries (shape.fields.map Json.Field.name) v).bind fun entries =>
    shape.readEntries entries make

/-! ### Shapes that are read back -/

variable {d d' : ℕ} {a : α} {name : String} {c : Codec β}

/-- A field is printed, and read as it was. -/
structure KeptField (d : ℕ) (a : α) (f : Json.Field α) (read : Option Value → Option β)
    (get : α → β) : Prop where
  printable : ∀ v ∈ f.write a, Printable d v
  read : read (f.write a) = some (get a)

/-- All fields are. -/
def Keeps (d : ℕ) (a : α) : {γ : Type} → Shape α δ γ → Prop
  | _, done => True
  | _, field f read get rest => KeptField d a f read get ∧ rest.Keeps d a

theorem keeps_done : (done : Shape α δ δ).Keeps d a := trivial

theorem Keeps.required {get : α → β} {rest : Shape α δ γ} (h : Kept d c (get a))
    (hrest : rest.Keeps d' a) (hd : d ≤ d' := by decide) :
    (Shape.required name c get rest).Keeps d' a := by
  refine ⟨⟨?_, h.read⟩, hrest⟩
  rintro v ⟨⟩
  exact h.printable.mono hd

theorem Keeps.optional {get : α → Option β} {rest : Shape α δ γ} (h : ∀ b ∈ get a, Kept d c b)
    (hrest : rest.Keeps d' a) (hd : d ≤ d' := by decide) :
    (Shape.optional name c get rest).Keeps d' a := by
  refine ⟨⟨fun v hv => ?_, ?_⟩, hrest⟩
  · obtain ⟨b, hb, rfl⟩ := Option.mem_map.1 hv
    exact (h b hb).printable.mono hd
  · change readOption c.read ((get a).map c.toValue) = some (get a)
    cases hget : get a with
    | none => rfl
    | some b => exact readOption_some (h b hget).ne_null (h b hget).read

theorem Keeps.list {get : α → List β} {rest : Shape α δ γ} (h : ∀ b ∈ get a, Kept d c b)
    (hrest : rest.Keeps d' a) (hd : d + 1 ≤ d' := by decide) :
    (Shape.list name c get rest).Keeps d' a := by
  refine ⟨⟨?_, (Codec.kept_list h).read⟩, hrest⟩
  rintro v ⟨⟩
  exact (Codec.kept_list h).printable.mono hd

theorem Keeps.printable {shape : Shape α δ γ} (h : shape.Keeps d a) :
    ∀ f ∈ shape.fields, ∀ v ∈ f.write a, Printable d v := by
  induction shape with
  | done => exact List.forall_mem_nil _
  | field f read get rest ih => exact List.forall_mem_cons.2 ⟨h.1.printable, ih h.2⟩

/-- Every field is looked up under its name, where it was written. -/
theorem Keeps.readEntries {entries : List (String × Value)} {shape : Shape α δ γ}
    (h : shape.Keeps d a) (hlookup : ∀ f ∈ shape.fields, entries.lookup f.name = f.write a)
    (make : γ) : shape.readEntries entries make = some (shape.build a make) := by
  induction shape with
  | done => rfl
  | field f read get rest ih =>
    obtain ⟨hf, hfields⟩ := List.forall_mem_cons.1 hlookup
    rw [Shape.readEntries, hf, h.1.read]
    exact ih h.2 hfields (make (get a))

section Struct

variable {shape : Shape α δ γ} (hnames : (shape.fields.map Json.Field.name).Nodup)
  (hfields : ∀ a b, (∀ f ∈ shape.fields, f.write a = f.write b) → a = b)

theorem Keeps.printable_struct (h : shape.Keeps d a) :
    Printable (d + 1) ((struct shape.fields hnames hfields).toValue a) := by
  refine printable_object ((keys_writeFields_sublist _ a).nodup hnames) fun e he => ?_
  obtain ⟨f, hf, he⟩ := List.mem_filterMap.1 he
  obtain ⟨v, hv, rfl⟩ := Option.map_eq_some_iff.1 he
  exact h.printable f hf v hv

theorem Keeps.read_struct (h : shape.Keeps d a) (make : γ) :
    shape.read make ((struct shape.fields hnames hfields).toValue a) =
      some (shape.build a make) := by
  refine Option.bind_eq_some_iff.2 ⟨_, structEntries_object
    (fun e he => name_of_mem_writeFields he) ((keys_writeFields_sublist _ a).nodup hnames), ?_⟩
  exact h.readEntries (fun f hf => lookup_writeFields hnames hf a) make

end Struct

/-- **A struct is kept when its fields are.** -/
theorem kept_struct (shape : Shape α α γ) (make : γ)
    {hnames : (shape.fields.map Json.Field.name).Nodup}
    {hfields : ∀ a b, (∀ f ∈ shape.fields, f.write a = f.write b) → a = b}
    (h : shape.Keeps d a) (hbuild : shape.build a make = a) :
    Kept (d + 1) ⟨struct shape.fields hnames hfields, shape.read make⟩ a where
  printable := h.printable_struct hnames hfields
  ne_null h := by cases h
  read := (h.read_struct hnames hfields make).trans (congrArg some hbuild)

end Shape

end Protocol
end AgentDb
