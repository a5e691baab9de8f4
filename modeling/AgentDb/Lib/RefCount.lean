import Mathlib.Data.List.Basic
import Mathlib.Data.List.Nodup

/-!
# Shared values with counted owners

A shared value lives as long as somebody owns it. Owners are kept by name, so that the count of a
value is the number of its owners and an owner that gives up its share is known. The lemmas say
who owns the value after each operation.
-/

universe u v

/-- A value and its owners. -/
structure Rc (ω : Type u) (α : Type v) where
  owners : List ω
  value : α

namespace Rc

variable {ω : Type u} {α : Type v} {o o' o₁ : ω} {r : Rc ω α}

/-- Another owner. -/
def clone (o : ω) (r : Rc ω α) : Rc ω α := { r with owners := o :: r.owners }

@[simp] theorem value_clone (o : ω) (r : Rc ω α) : (r.clone o).value = r.value := rfl

@[simp] theorem mem_clone : o₁ ∈ (r.clone o).owners ↔ o₁ = o ∨ o₁ ∈ r.owners := List.mem_cons

theorem nodup_clone (h : r.owners.Nodup) (hnew : o ∉ r.owners) : (r.clone o).owners.Nodup :=
  List.nodup_cons.2 ⟨hnew, h⟩

section

variable [DecidableEq ω]

/-- One owner less. -/
def drop (o : ω) (r : Rc ω α) : Rc ω α := { r with owners := r.owners.erase o }

/-- The share goes from one owner to another. -/
def move (o o' : ω) (r : Rc ω α) : Rc ω α := { r with owners := o' :: r.owners.erase o }

@[simp] theorem value_drop (o : ω) (r : Rc ω α) : (r.drop o).value = r.value := rfl

@[simp] theorem value_move (o o' : ω) (r : Rc ω α) : (r.move o o').value = r.value := rfl

theorem mem_drop (h : r.owners.Nodup) : o₁ ∈ (r.drop o).owners ↔ o₁ ≠ o ∧ o₁ ∈ r.owners :=
  h.mem_erase_iff

theorem mem_move (h : r.owners.Nodup) :
    o₁ ∈ (r.move o o').owners ↔ o₁ = o' ∨ o₁ ≠ o ∧ o₁ ∈ r.owners := by
  unfold move
  rw [List.mem_cons, h.mem_erase_iff]

theorem nodup_drop (h : r.owners.Nodup) : (r.drop o).owners.Nodup := h.erase o

theorem nodup_move (h : r.owners.Nodup) (hnew : o' ∉ r.owners) : (r.move o o').owners.Nodup :=
  List.nodup_cons.2 ⟨fun hmem => hnew (List.mem_of_mem_erase hmem), h.erase o⟩

/-- A sole owner stays one when somebody else has nothing to give up. -/
theorem drop_sole (h : r.owners = [o']) (hne : o' ≠ o) : (r.drop o).owners = [o'] := by
  unfold drop
  rw [h, List.erase_of_not_mem]
  rw [List.mem_singleton]
  exact hne.symm

end

end Rc
