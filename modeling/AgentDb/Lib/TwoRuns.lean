import AgentDb.Lib.Transaction

/-!
# Two runs of a transaction

`R` says which stores an observer cannot tell apart. `Alike R f g` says that `f` and `g`, run from
two such stores, return the same and leave two such stores. What reads the store is compared where
it reads it, so a transaction is alike with itself when its reads are.
-/

universe u

namespace Tx

variable {σ ε α β : Type u} {R : σ → σ → Prop}

/-- Two outcomes that are the same to an observer. -/
inductive Agree (R : σ → σ → Prop) : Except ε (α × σ) → Except ε (α × σ) → Prop
  | error (e : ε) : Agree R (.error e) (.error e)
  | ok (a : α) {s t : σ} (h : R s t) : Agree R (.ok (a, s)) (.ok (a, t))

def Alike (R : σ → σ → Prop) (f g : Tx σ ε α) : Prop := ∀ s t, R s t → Agree R (f s) (g t)

theorem alike_pure (a : α) : Alike R (pure a : Tx σ ε α) (pure a) := fun _ _ h => .ok a h

theorem alike_throw (e : ε) : Alike R (throw e : Tx σ ε α) (throw e) := fun _ _ _ => .error e

theorem alike_lift (m : Except ε α) : Alike R (liftM m : Tx σ ε α) (liftM m) := by
  intro s t h
  cases m with
  | error e => exact .error e
  | ok a => exact .ok a h

/-- The same pure step, and then what follows it. -/
theorem agree_lift_bind {m : Except ε α} {f g : α → Tx σ ε β} {s t : σ}
    (hfg : ∀ a, m = .ok a → Agree R (f a s) (g a t)) :
    Agree R (((liftM m : Tx σ ε α) >>= f) s) (((liftM m : Tx σ ε α) >>= g) t) := by
  cases m with
  | error e => exact .error e
  | ok a => exact hfg a rfl

/-- A step that is alike, and then what follows it, where the value may be remembered. -/
theorem agree_bind_of {f g : Tx σ ε α} {h k : α → Tx σ ε β} {s t : σ} (hfg : Agree R (f s) (g t))
    (hhk : ∀ a s' t', f s = .ok (a, s') → R s' t' → Agree R (h a s') (k a t')) :
    Agree R ((f >>= h) s) ((g >>= k) t) := by
  change Agree R (f s >>= fun p => h p.1 p.2) (g t >>= fun p => k p.1 p.2)
  generalize f s = m, g t = m' at hfg hhk
  cases hfg with
  | error e => exact .error e
  | ok a hR => exact hhk a _ _ rfl hR

theorem agree_bind {f g : Tx σ ε α} {h k : α → Tx σ ε β} {s t : σ} (hfg : Agree R (f s) (g t))
    (hhk : ∀ a, Alike R (h a) (k a)) : Agree R ((f >>= h) s) ((g >>= k) t) :=
  agree_bind_of hfg fun a s' t' _ hR => hhk a s' t' hR

theorem Alike.bind {f g : Tx σ ε α} {h k : α → Tx σ ε β} (hfg : Alike R f g)
    (hhk : ∀ a, Alike R (h a) (k a)) : Alike R (f >>= h) (g >>= k) :=
  fun s t hR => agree_bind (hfg s t hR) hhk

/-- What follows a read is compared at the two stores that were read. -/
theorem alike_get_bind {h k : σ → Tx σ ε β}
    (hhk : ∀ s t, R s t → Agree R (h s s) (k t t)) : Alike R (get >>= h) (get >>= k) :=
  fun s t hR => hhk s t hR

/-- Two checks that come out the same, and then what follows them. -/
theorem agree_refuseIf_bind {c d : Prop} [Decidable c] [Decidable d] {e : ε}
    {f g : PUnit → Tx σ ε β} {s t : σ} (hcd : c ↔ d) (hfg : Agree R (f ⟨⟩ s) (g ⟨⟩ t)) :
    Agree R (((liftM (refuseIf c e) : Tx σ ε PUnit) >>= f) s)
      (((liftM (refuseIf d e) : Tx σ ε PUnit) >>= g) t) := by
  by_cases hc : c
  · rw [refuseIf, refuseIf, if_pos hc, if_pos (hcd.1 hc)]
    exact .error e
  · rw [refuseIf, refuseIf, if_neg hc, if_neg (fun hd => hc (hcd.2 hd))]
    exact hfg

/-- **Two runs end alike**: the caller is told the same, and the stores stay alike. -/
theorem Alike.settle {f g : Tx σ ε (Except ε α)} (h : Alike R f g) {s t : σ} (hR : R s t) :
    (f.settle s).1 = (g.settle t).1 ∧ R (f.settle s).2 (g.settle t).2 := by
  have hends := h s t hR
  unfold Tx.settle
  generalize f s = m, g t = m' at hends
  cases hends with
  | error e => exact ⟨rfl, hR⟩
  | ok a hR' => exact ⟨rfl, hR'⟩

end Tx
