import Mathlib.Tactic

/-!
# Transactions over a store

A transaction over a store `σ` reads and writes it step by step and either produces a value or
fails; a failure undoes everything. `Tx.settle` is its end: what the caller is told, and the
store that is left. A transaction may commit and still report an error, so the value of a
settled transaction is itself a result.

The `_eq_ok` lemmas are the inversion lemmas: from a transaction that went through they give
back every intermediate result.
-/

universe u

/-- A transaction. -/
abbrev Tx (σ ε : Type u) := StateT σ (Except ε)

/-- Fail with `e` when `c` holds. -/
def refuseIf {ε : Type u} (c : Prop) [Decidable c] (e : ε) : Except ε PUnit :=
  if c then .error e else .ok ⟨⟩

theorem refuseIf_eq_ok {ε : Type u} {c : Prop} [Decidable c] {e : ε} {u : PUnit} :
    refuseIf c e = .ok u ↔ ¬ c := by
  unfold refuseIf
  split_ifs with h <;> simp [h]

theorem refuseIf_eq_error {ε : Type u} {c : Prop} [Decidable c] {e e' : ε} :
    refuseIf c e = .error e' ↔ c ∧ e = e' := by
  unfold refuseIf
  split_ifs with h <;> simp [h]

namespace Except

variable {ε α β : Type u}

theorem bind_eq_ok {m : Except ε α} {f : α → Except ε β} {b : β} :
    (m >>= f) = .ok b ↔ ∃ a, m = .ok a ∧ f a = .ok b := by
  cases m <;> simp [bind, Except.bind]

theorem map_eq_ok {m : Except ε α} {f : α → β} {b : β} :
    m.map f = .ok b ↔ ∃ a, m = .ok a ∧ f a = b := by
  cases m <;> simp [Except.map]

theorem pure_eq_ok {a b : α} : (pure a : Except ε α) = .ok b ↔ a = b := by
  simp [pure, Except.pure]

theorem throw_eq_ok {e : ε} {b : α} : (throw e : Except ε α) = .ok b ↔ False := by
  simp [throw, throwThe, MonadExceptOf.throw]

end Except

namespace Tx

variable {σ ε α β : Type u} {s s' : σ} {a b : α}

theorem bind_eq_ok {m : Tx σ ε α} {f : α → Tx σ ε β} {b : β} :
    (m >>= f) s = .ok (b, s') ↔ ∃ a s₁, m s = .ok (a, s₁) ∧ f a s₁ = .ok (b, s') := by
  change (m s >>= fun p => f p.1 p.2) = _ ↔ _
  rw [Except.bind_eq_ok]
  simp only [Prod.exists]

theorem pure_eq_ok : (pure a : Tx σ ε α) s = .ok (b, s') ↔ a = b ∧ s = s' := by
  change Except.ok (a, s) = _ ↔ _
  simp

theorem throw_eq_ok {e : ε} : (throw e : Tx σ ε α) s = .ok (b, s') ↔ False := by
  change Except.error e = _ ↔ _
  simp

theorem get_eq_ok {r : σ} : (get : Tx σ ε σ) s = .ok (r, s') ↔ s = r ∧ s = s' := by
  change Except.ok (s, s) = _ ↔ _
  simp

theorem set_eq_ok {t : σ} {u : PUnit} : (set t : Tx σ ε PUnit) s = .ok (u, s') ↔ t = s' := by
  change Except.ok (PUnit.unit, t) = _ ↔ _
  simp

theorem modify_eq_ok {f : σ → σ} {u : PUnit} :
    (modify f : Tx σ ε PUnit) s = .ok (u, s') ↔ f s = s' := by
  change Except.ok (PUnit.unit, f s) = _ ↔ _
  simp

theorem lift_eq_ok {m : Except ε α} :
    (liftM m : Tx σ ε α) s = .ok (a, s') ↔ m = .ok a ∧ s = s' := by
  change (m >>= fun a => pure (a, s)) = _ ↔ _
  rw [Except.bind_eq_ok]
  simp [Except.pure_eq_ok]

/-! Peeling the first step off a transaction that went through. -/

theorem get_bind_eq_ok {f : σ → Tx σ ε α} :
    ((get : Tx σ ε σ) >>= f) s = .ok (a, s') ↔ f s s = .ok (a, s') := by
  simp only [bind_eq_ok, get_eq_ok]
  constructor
  · rintro ⟨_, _, ⟨rfl, rfl⟩, h⟩
    exact h
  · exact fun h => ⟨s, s, ⟨rfl, rfl⟩, h⟩

theorem set_bind_eq_ok {t : σ} {f : PUnit → Tx σ ε α} :
    ((set t : Tx σ ε PUnit) >>= f) s = .ok (a, s') ↔ f ⟨⟩ t = .ok (a, s') := by
  simp only [bind_eq_ok, set_eq_ok]
  constructor
  · rintro ⟨_, _, rfl, h⟩
    exact h
  · exact fun h => ⟨⟨⟩, t, rfl, h⟩

theorem lift_bind_eq_ok {m : Except ε β} {f : β → Tx σ ε α} :
    ((liftM m : Tx σ ε β) >>= f) s = .ok (a, s') ↔ ∃ b, m = .ok b ∧ f b s = .ok (a, s') := by
  simp only [bind_eq_ok, lift_eq_ok]
  constructor
  · rintro ⟨b, _, ⟨hm, rfl⟩, h⟩
    exact ⟨b, hm, h⟩
  · rintro ⟨b, hm, h⟩
    exact ⟨b, s, ⟨hm, rfl⟩, h⟩

theorem refuseIf_bind_eq_ok {c : Prop} [Decidable c] {e : ε} {f : PUnit → Tx σ ε α} :
    ((liftM (refuseIf c e) : Tx σ ε PUnit) >>= f) s = .ok (a, s') ↔
      ¬ c ∧ f ⟨⟩ s = .ok (a, s') := by
  simp only [lift_bind_eq_ok, refuseIf_eq_ok]
  constructor
  · rintro ⟨⟨⟩, hc, h⟩
    exact ⟨hc, h⟩
  · rintro ⟨hc, h⟩
    exact ⟨⟨⟩, hc, h⟩

/-- Commit, or undo everything. -/
def settle (m : Tx σ ε (Except ε α)) (s : σ) : Except ε α × σ :=
  match m s with
  | .ok (r, s') => (r, s')
  | .error e => (.error e, s)

/-- A settled transaction went through, or left the store as it was and failed. -/
theorem settle_cases {m : Tx σ ε (Except ε α)} {out : Except ε α × σ} (h : m.settle s = out) :
    (∃ r s', m s = .ok (r, s') ∧ out = (r, s')) ∨ ∃ e, out = (.error e, s) := by
  subst h
  unfold settle
  rcases m s with e | ⟨r, s'⟩
  · exact .inr ⟨e, rfl⟩
  · exact .inl ⟨r, s', rfl, rfl⟩

theorem settle_of_eq_ok {m : Tx σ ε (Except ε α)} {r : Except ε α} (h : m s = .ok (r, s')) :
    m.settle s = (r, s') := by
  simp [settle, h]

end Tx
