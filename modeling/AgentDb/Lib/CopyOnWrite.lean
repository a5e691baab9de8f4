import Mathlib.Logic.Basic
import Mathlib.Data.Option.Basic

/-!
# Copy on write

Holders point to items that are kept elsewhere. A value is never written over: it is stored as a
new item, then the holder is pointed to it, and the item before it is removed when nothing points
to it any more. `Sound` says that every holder points to an item of its own, with the value it was
last supplied with; a rotation keeps it, and so does everything that only lets go of items.
-/

namespace CopyOnWrite

variable {H I V : Type*} {pointer pointer' : H → Option I} {item item' : I → Option V}
  {supplied supplied' : H → Option V}

/-- Every pointer names an item with the value last supplied, and no item is named twice. -/
structure Sound (pointer : H → Option I) (item : I → Option V) (supplied : H → Option V) :
    Prop where
  usable : ∀ h i, pointer h = some i → ∃ v, item i = some v ∧ supplied h = some v
  distinct : ∀ h h' i, pointer h = some i → pointer h' = some i → h = h'

/-- Pointers may be let go, and so may items that nothing points to. -/
theorem Sound.frame (hs : Sound pointer item supplied)
    (hpointer : ∀ h i, pointer' h = some i → pointer h = some i)
    (hitem : ∀ h i, pointer' h = some i → item' i = item i)
    (hsupplied : ∀ h i, pointer' h = some i → supplied' h = supplied h) :
    Sound pointer' item' supplied' where
  usable h i hi := by
    obtain ⟨v, hv, hlast⟩ := hs.usable h i (hpointer h i hi)
    exact ⟨v, (hitem h i hi).trans hv, (hsupplied h i hi).trans hlast⟩
  distinct h h' i hi hi' := hs.distinct h h' i (hpointer h i hi) (hpointer h' i hi')

/-- A new item is stored for a holder, and the item it had before may be removed. -/
theorem Sound.rotate (hs : Sound pointer item supplied) (holder : H) (new : I) {v : V}
    (hfresh : item new = none) (hholder : pointer' holder = some new)
    (hother : ∀ h i, h ≠ holder → pointer' h = some i → pointer h = some i)
    (hnew : item' new = some v)
    (hitem : ∀ i, i ≠ new → pointer holder ≠ some i → item' i = item i)
    (hlast : supplied' holder = some v) (hsupplied : ∀ h, h ≠ holder → supplied' h = supplied h) :
    Sound pointer' item' supplied' := by
  -- The new item was nobody's.
  have hnobody : ∀ h, pointer h ≠ some new := fun h hi => by
    obtain ⟨w, hw, -⟩ := hs.usable h new hi
    rw [hfresh] at hw
    cases hw
  have hkept : ∀ h i, h ≠ holder → pointer' h = some i → i ≠ new ∧ pointer holder ≠ some i :=
    fun h i hne hi => by
      have hold := hother h i hne hi
      refine ⟨fun heq => hnobody h (heq ▸ hold), fun hmine => hne ?_⟩
      exact hs.distinct h holder i hold hmine
  refine ⟨fun h i hi => ?_, fun h h' i hi hi' => ?_⟩
  · by_cases hh : h = holder
    · subst hh
      rw [hholder] at hi
      cases hi
      exact ⟨v, hnew, hlast⟩
    · obtain ⟨hne, hmine⟩ := hkept h i hh hi
      obtain ⟨w, hw, hsup⟩ := hs.usable h i (hother h i hh hi)
      exact ⟨w, (hitem i hne hmine).trans hw, (hsupplied h hh).trans hsup⟩
  · by_cases hh : h = holder
    · by_cases hh' : h' = holder
      · rw [hh, hh']
      · rw [hh, hholder] at hi
        cases hi
        exact absurd rfl (hkept h' new hh' hi').1
    · by_cases hh' : h' = holder
      · rw [hh', hholder] at hi'
        cases hi'
        exact absurd rfl (hkept h new hh hi).1
      · exact hs.distinct h h' i (hother h i hh hi) (hother h' i hh' hi')

end CopyOnWrite
