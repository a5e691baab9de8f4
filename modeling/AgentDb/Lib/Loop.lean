import Mathlib.Tactic

/-!
# Loops that may fail

A turn of a loop fails, goes on in a new state, or leaves with a result. `loop` takes a bounded
number of turns, and also answers `none` when they are used up: an answer of a loop with enough
turns says that no turn failed and that the loop came to an end. `loop_total` is the rule for it:
an invariant that every turn keeps, and a measure that every turn makes smaller.
-/

namespace Looping

variable {σ τ : Type*}

/-- At most so many turns. -/
def loop (turn : σ → Option (σ ⊕ τ)) : ℕ → σ → Option τ
  | 0, _ => none
  | n + 1, s =>
      match turn s with
      | none => none
      | some (.inl s') => loop turn n s'
      | some (.inr r) => some r

/-- The turn does not fail, and either goes on with the invariant and a smaller measure or leaves
with a good result. -/
def TurnKeeps (Inv : σ → Prop) (measure : σ → ℕ) (Post : τ → Prop) (s : σ) :
    Option (σ ⊕ τ) → Prop
  | none => False
  | some (.inl s') => Inv s' ∧ measure s' < measure s
  | some (.inr r) => Post r

/-- **Total correctness of a loop.** -/
theorem loop_total {turn : σ → Option (σ ⊕ τ)} (Inv : σ → Prop) (measure : σ → ℕ)
    {Post : τ → Prop} (hturn : ∀ s, Inv s → TurnKeeps Inv measure Post s (turn s)) {n : ℕ} {s : σ}
    (hs : Inv s) (hn : measure s < n) : ∃ r, loop turn n s = some r ∧ Post r := by
  induction n generalizing s with
  | zero => omega
  | succ n ih =>
    have hkeeps := hturn s hs
    rw [loop]
    rcases hresult : turn s with _ | ⟨s' | r⟩ <;> rw [hresult] at hkeeps
    · exact hkeeps.elim
    · obtain ⟨hs', hlt⟩ := hkeeps
      exact ih hs' (by omega)
    · exact ⟨r, rfl, hkeeps⟩

/-- A loop whose result is known. -/
theorem loop_eq {turn : σ → Option (σ ⊕ τ)} (Inv : σ → Prop) (measure : σ → ℕ) {r : τ}
    (hturn : ∀ s, Inv s → TurnKeeps Inv measure (· = r) s (turn s)) {n : ℕ} {s : σ} (hs : Inv s)
    (hn : measure s < n) : loop turn n s = some r := by
  obtain ⟨_, hloop, rfl⟩ := loop_total Inv measure hturn hs hn
  exact hloop

end Looping
