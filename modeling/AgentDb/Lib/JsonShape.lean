import AgentDb.Lib.Json

/-!
# JSON values up to their floating-point numbers

A printer and a reader of JSON need not agree on the last digits of a floating-point number.
`shape` forgets these numbers and keeps everything else; a value without any is determined by its
shape among all values (`eq_of_shape_eq`).
-/

namespace Json
namespace Value

mutual

/-- A value with every floating-point number replaced by one and the same. -/
def shape : Value → Value
  | .number (.float _) => .number (.float "")
  | .array items => .array (shapeItems items)
  | .object entries => .object (shapeEntries entries)
  | v => v

def shapeItems : List Value → List Value
  | [] => []
  | v :: vs => shape v :: shapeItems vs

def shapeEntries : List (String × Value) → List (String × Value)
  | [] => []
  | (k, v) :: es => (k, shape v) :: shapeEntries es

end

theorem shapeItems_eq_map (items : List Value) : shapeItems items = items.map shape := by
  induction items with
  | nil => rfl
  | cons v vs ih => rw [shapeItems, ih, List.map_cons]

theorem shapeEntries_eq_map (entries : List (String × Value)) :
    shapeEntries entries = entries.map fun e => (e.1, shape e.2) := by
  induction entries with
  | nil => rfl
  | cons e es ih => rw [shapeEntries, ih, List.map_cons]

/-- Two lists with one image are the same if every member of one is determined by its image. -/
theorem eq_of_map_eq {α β : Type} {f : α → β} {l l' : List α}
    (hdetermined : ∀ a ∈ l, ∀ b, f b = f a → b = a) (h : l'.map f = l.map f) : l' = l := by
  induction l generalizing l' with
  | nil => exact List.map_eq_nil_iff.1 h
  | cons a l ih =>
    obtain ⟨b, bs, rfl, hb, hbs⟩ := List.map_eq_cons_iff.1 h
    rw [hdetermined a List.mem_cons_self b hb,
      ih (fun c hc => hdetermined c (List.mem_cons_of_mem a hc)) hbs]

theorem shape_object (entries : List (String × Value)) :
    shape (.object entries) = .object (entries.map fun e => (e.1, shape e.2)) := by
  rw [shape, shapeEntries_eq_map]

/-- What has the shape of an object is one, with the same keys in the same order. -/
theorem eq_object_of_shape_eq {v : Value} {entries : List (String × Value)}
    (h : shape v = shape (.object entries)) : ∃ es, v = .object es ∧
      es.map (fun e => (e.1, shape e.2)) = entries.map fun e => (e.1, shape e.2) := by
  cases v with
  | object es =>
    rw [shape_object, shape_object] at h
    exact ⟨es, rfl, Value.object.inj h⟩
  | number n => cases n <;> simp [shape] at h
  | _ => simp [shape] at h

/-- **A value without floating-point numbers is determined by its shape.** -/
theorem eq_of_shape_eq {v w : Value} (hv : NoFloat v) (h : shape w = shape v) : w = v := by
  induction v using Value.ind generalizing w with
  | number n =>
    cases hv
    rcases w with _ | _ | (_ | _) | _ | _ | _ <;> simp_all [shape]
  | array items ih =>
    rw [noFloat_array] at hv
    cases w with
    | array items' =>
      rw [shape, shape, Value.array.injEq, shapeItems_eq_map, shapeItems_eq_map] at h
      rw [eq_of_map_eq (fun v hmem w hw => ih v hmem (hv v hmem) hw) h]
    | number n => cases n <;> simp [shape] at h
    | _ => simp [shape] at h
  | object entries ih =>
    rw [noFloat_object] at hv
    obtain ⟨es, rfl, hes⟩ := eq_object_of_shape_eq h
    refine congrArg Value.object (eq_of_map_eq (fun e hmem f hf => ?_) hes)
    obtain ⟨hkey, hshape⟩ := Prod.ext_iff.1 hf
    exact Prod.ext hkey (ih e hmem (hv e hmem) hshape)
  | _ => rcases w with _ | _ | (_ | _) | _ | _ | _ <;> simp_all [shape]

end Value
end Json
