import Mathlib.Tactic

/-!
# A claim with a counter as its only token

A resource is worked on by whoever has claimed it. A claim is the number of an attempt and the time
it was made at; when it has become stale, the resource may be claimed again, while its first worker
may still be running. The counter grows with every claim, and a worker acts on the resource only
with the number it has. `Sound` relates the resource to all claims that workers still believe in:
a claim with another number has been overtaken and is stale, and of two claims at most one is not.
-/

namespace Fencing

variable {W T : Type*}

/-- What the resource says of its claims. -/
structure Lock (T : Type*) where
  attempts : ℕ
  claimedAt : Option T
  closed : Prop

/-- A claim of a worker: the number it has, and when it was made. -/
abbrev Holds (W T : Type*) := W → ℕ → T → Prop

/-- The claims that workers believe in agree with the resource. -/
structure Sound (Stale : T → T → Prop) (now : T) (lock : Lock T) (holds : Holds W T) : Prop where
  bounded : ∀ w a t, holds w a t → a ≤ lock.attempts
  current : ∀ w a t, holds w a t → a = lock.attempts → lock.closed ∨ lock.claimedAt = some t
  overtaken : ∀ w a t, holds w a t → a < lock.attempts → Stale t now
  one : ∀ w w' a a' t t', holds w a t → holds w' a' t' → w ≠ w' →
    a ≠ a' ∧ (Stale t now ∨ Stale t' now)

variable {Stale : T → T → Prop} {now : T} {lock : Lock T} {holds holds' : Holds W T}

theorem sound_of_unclaimed (h : ∀ w a t, ¬ holds w a t) : Sound Stale now lock holds where
  bounded w a t hw := absurd hw (h w a t)
  current w a t hw := absurd hw (h w a t)
  overtaken w a t hw := absurd hw (h w a t)
  one w _ a _ t _ hw := absurd hw (h w a t)

/-- Time passes. -/
theorem Sound.later (hs : Sound Stale now lock holds) {now' : T}
    (hstale : ∀ t, Stale t now → Stale t now') : Sound Stale now' lock holds where
  bounded := hs.bounded
  current := hs.current
  overtaken w a t hw hlt := hstale t (hs.overtaken w a t hw hlt)
  one w w' a a' t t' hw hw' hne := by
    obtain ⟨hattempt, hold⟩ := hs.one w w' a a' t t' hw hw' hne
    exact ⟨hattempt, hold.imp (hstale t) (hstale t')⟩

/-- Workers stop to believe in claims. -/
theorem Sound.drop (hs : Sound Stale now lock holds)
    (hsub : ∀ w a t, holds' w a t → holds w a t) : Sound Stale now lock holds' where
  bounded w a t hw := hs.bounded w a t (hsub w a t hw)
  current w a t hw := hs.current w a t (hsub w a t hw)
  overtaken w a t hw := hs.overtaken w a t (hsub w a t hw)
  one w w' a a' t t' hw hw' := hs.one w w' a a' t t' (hsub w a t hw) (hsub w' a' t' hw')

/-- The resource changes, and what it says of its claims stays, or it is closed for ever. -/
theorem Sound.keep (hs : Sound Stale now lock holds) {lock' : Lock T}
    (hattempts : lock'.attempts = lock.attempts) (hclaimed : ∀ t,
      lock.closed ∨ lock.claimedAt = some t → lock'.closed ∨ lock'.claimedAt = some t) :
    Sound Stale now lock' holds where
  bounded w a t hw := hattempts ▸ hs.bounded w a t hw
  current w a t hw heq := hclaimed t (hs.current w a t hw (heq.trans hattempts))
  overtaken w a t hw hlt := hs.overtaken w a t hw (hattempts ▸ hlt)
  one := hs.one

/-- The worker with the current number gives its claim back. -/
theorem Sound.release (hs : Sound Stale now lock holds) {w : W} {t : T}
    (hw : holds w lock.attempts t) (hsub : ∀ w a t, holds' w a t → holds w a t)
    (hgone : ∀ a t, ¬ holds' w a t) {lock' : Lock T}
    (hattempts : lock'.attempts = lock.attempts) : Sound Stale now lock' holds' := by
  -- Nobody else has the current number.
  have hother : ∀ w' a' t', holds' w' a' t' → a' ≠ lock.attempts := fun w' a' t' hw' heq => by
    have hne : w' ≠ w := by
      rintro rfl
      exact hgone a' t' hw'
    exact (hs.one w' w a' _ t' t (hsub w' a' t' hw') hw hne).1 heq
  have hs' := hs.drop hsub
  exact ⟨fun w' a' t' hw' => hattempts ▸ hs'.bounded w' a' t' hw',
    fun w' a' t' hw' heq => absurd (heq.trans hattempts) (hother w' a' t' hw'),
    fun w' a' t' hw' hlt => hs'.overtaken w' a' t' hw' (hattempts ▸ hlt), hs'.one⟩

/-- Every claim is stale where the resource can be claimed. -/
theorem Sound.stale_of_claimable (hs : Sound Stale now lock holds) (hopen : ¬ lock.closed)
    (hclaimable : ∀ t, lock.claimedAt = some t → Stale t now) :
    ∀ w a t, holds w a t → Stale t now := fun w a t hw => by
  obtain hlt | heq := (hs.bounded w a t hw).lt_or_eq
  · exact hs.overtaken w a t hw hlt
  · obtain hclosed | hclaimed := hs.current w a t hw heq
    · exact absurd hclosed hopen
    · exact hclaimable t hclaimed

/-- A new worker claims the resource with the next number. -/
theorem Sound.claim (hs : Sound Stale now lock holds) (hopen : ¬ lock.closed)
    (hclaimable : ∀ t, lock.claimedAt = some t → Stale t now) (w₀ : W)
    (hnew : ∀ w a t, holds' w a t → (w ≠ w₀ ∧ holds w a t) ∨
      (w = w₀ ∧ a = lock.attempts + 1 ∧ t = now)) {lock' : Lock T}
    (hattempts : lock'.attempts = lock.attempts + 1) (hclaimed : lock'.claimedAt = some now) :
    Sound Stale now lock' holds' := by
  have hstale := hs.stale_of_claimable hopen hclaimable
  refine ⟨fun w a t hw => ?_, fun w a t hw heq => .inr ?_, fun w a t hw hlt => ?_,
    fun w w' a a' t t' hw hw' hne => ?_⟩
  · obtain ⟨-, hw⟩ | ⟨-, rfl, -⟩ := hnew w a t hw
    · exact hattempts ▸ (hs.bounded w a t hw).trans (Nat.le_succ _)
    · exact hattempts.ge
  · obtain ⟨-, hw⟩ | ⟨-, -, rfl⟩ := hnew w a t hw
    · have := hs.bounded w a t hw
      omega
    · exact hclaimed
  · obtain ⟨-, hw⟩ | ⟨-, rfl, -⟩ := hnew w a t hw
    · exact hstale w a t hw
    · omega
  · obtain ⟨-, hold⟩ | ⟨rfl, rfl, rfl⟩ := hnew w a t hw
    · refine ⟨?_, .inl (hstale w a t hold)⟩
      obtain ⟨-, hold'⟩ | ⟨-, rfl, -⟩ := hnew w' a' t' hw'
      · exact (hs.one w w' a a' t t' hold hold' hne).1
      · have := hs.bounded w a t hold
        omega
    · obtain ⟨-, hold'⟩ | ⟨rfl, -⟩ := hnew w' a' t' hw'
      · have := hs.bounded w' a' t' hold'
        exact ⟨by omega, .inr (hstale w' a' t' hold')⟩
      · exact absurd rfl hne

end Fencing
