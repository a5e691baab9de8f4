import Mathlib.Tactic
import Mathlib.Data.List.Sort

/-!
# JSON values

A JSON value as an ordered document: the entries of an object keep the order they were written
in. An integer is a number of its own; a floating-point number is kept as the text it prints as,
since nothing here computes with one. `Value.ind` is the induction over all three levels (values,
item lists, entry lists), and `NoFloat` the values without floating-point numbers.
-/

namespace Json

/-- A JSON number. -/
inductive Number
  | int (n : ℤ)
  | float (text : String)
  deriving DecidableEq, Repr

/-- A JSON value. -/
inductive Value
  | null
  | bool (b : Bool)
  | number (n : Number)
  | string (s : String)
  | array (items : List Value)
  | object (entries : List (String × Value))
  deriving Repr

namespace Value

/-- Induction over a value, with the hypothesis for every item and every entry. -/
theorem ind {motive : Value → Prop} (null : motive .null) (bool : ∀ b, motive (.bool b))
    (number : ∀ n, motive (.number n)) (string : ∀ s, motive (.string s))
    (array : ∀ items, (∀ v ∈ items, motive v) → motive (.array items))
    (object : ∀ entries, (∀ e ∈ entries, motive e.2) → motive (.object entries)) :
    ∀ v, motive v := by
  refine @Value.rec motive (fun items => ∀ v ∈ items, motive v)
    (fun entries => ∀ e ∈ entries, motive e.2) (fun e => motive e.2)
    null bool number string array object ?_ ?_ ?_ ?_ ?_
  · intro v hv
    cases hv
  · intro v vs hv hvs w hw
    rcases List.mem_cons.1 hw with rfl | hw
    exacts [hv, hvs w hw]
  · intro e he
    cases he
  · intro e es he hes f hf
    rcases List.mem_cons.1 hf with rfl | hf
    exacts [he, hes f hf]
  · intro k v hv
    exact hv

/-- The value holds no floating-point number at any depth. -/
inductive NoFloat : Value → Prop
  | null : NoFloat .null
  | bool (b : Bool) : NoFloat (.bool b)
  | int (n : ℤ) : NoFloat (.number (.int n))
  | string (s : String) : NoFloat (.string s)
  | array {items : List Value} : (∀ v ∈ items, NoFloat v) → NoFloat (.array items)
  | object {entries : List (String × Value)} :
      (∀ e ∈ entries, NoFloat e.2) → NoFloat (.object entries)

theorem noFloat_array {items : List Value} :
    NoFloat (.array items) ↔ ∀ v ∈ items, NoFloat v :=
  ⟨fun h => by cases h; assumption, .array⟩

theorem noFloat_object {entries : List (String × Value)} :
    NoFloat (.object entries) ↔ ∀ e ∈ entries, NoFloat e.2 :=
  ⟨fun h => by cases h; assumption, .object⟩

mutual

/-- Equality of documents as written: the entries of an object in the same order. Two floating
point zeros are equal whatever their sign. -/
def beq : Value → Value → Bool
  | .null, .null => true
  | .bool a, .bool b => a == b
  | .number (.int m), .number (.int n) => m == n
  | .number (.float s), .number (.float t) =>
      s == t || (s ∈ ["0.0", "-0.0"] && t ∈ ["0.0", "-0.0"])
  | .string s, .string t => s == t
  | .array vs, .array ws => beqItems vs ws
  | .object es, .object fs => beqEntries es fs
  | _, _ => false

def beqItems : List Value → List Value → Bool
  | [], [] => true
  | v :: vs, w :: ws => beq v w && beqItems vs ws
  | _, _ => false

def beqEntries : List (String × Value) → List (String × Value) → Bool
  | [], [] => true
  | (k, v) :: es, (l, w) :: fs => k == l && beq v w && beqEntries es fs
  | _, _ => false

end

end Value

end Json
