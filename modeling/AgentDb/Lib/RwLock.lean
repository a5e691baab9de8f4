import Mathlib.Data.List.Basic
import Mathlib.Logic.Basic

/-!
# A fair readers-writer lock

The lock is held by any number of readers or by one writer; which of the two is a constructor, so
readers beside a writer cannot be stated. Who asks for the lock is queued, and only the head of
the queue is let in: a reader that asks after a writer waits for it. The lemmas say for each
operation who holds the lock afterwards.
-/

universe u

/-- The side of the lock that is asked for. -/
inductive LockMode
  | read
  | write
  deriving DecidableEq, Repr

/-- Who holds the lock. -/
inductive Holders (τ : Type u)
  | readers (ts : List τ)
  | writer (t : τ)

structure RwLock (τ : Type u) where
  holders : Holders τ
  queue : List (τ × LockMode)

namespace RwLock

variable {τ : Type u}

/-- Nobody holds the lock and nobody waits. -/
def free : RwLock τ := ⟨.readers [], []⟩

/-- The task holds the shared side. -/
def ReadBy (t : τ) (l : RwLock τ) : Prop := ∃ ts, l.holders = .readers ts ∧ t ∈ ts

/-- The task holds the exclusive side. -/
def WrittenBy (t : τ) (l : RwLock τ) : Prop := l.holders = .writer t

/-- The task asks for a side of the lock. -/
def request (t : τ) (mode : LockMode) (l : RwLock τ) : RwLock τ :=
  { l with queue := l.queue ++ [(t, mode)] }

/-! ### Exclusion -/

variable {t t' : τ} {l l' : RwLock τ} {mode : LockMode}

/-- **No reader beside a writer.** -/
theorem ReadBy.not_writtenBy (h : l.ReadBy t) : ¬ l.WrittenBy t' := by
  obtain ⟨ts, hts, -⟩ := h
  intro hw
  rw [WrittenBy, hts] at hw
  cases hw

/-- Two writers are one. -/
theorem WrittenBy.unique (h : l.WrittenBy t) (h' : l.WrittenBy t') : t = t' :=
  Holders.writer.inj (h.symm.trans h')

@[simp] theorem readBy_request : (l.request t mode).ReadBy t' ↔ l.ReadBy t' := Iff.rfl

@[simp] theorem writtenBy_request : (l.request t mode).WrittenBy t' ↔ l.WrittenBy t' := Iff.rfl

theorem mem_queue_request {e : τ × LockMode} :
    e ∈ (l.request t mode).queue ↔ e ∈ l.queue ∨ e = (t, mode) := by
  simp [request]

/-! ### Letting in and letting go -/

section

variable [DecidableEq τ]

/-- The task at the head of the queue gets what it asked for, if that is free. -/
def grant (t : τ) (l : RwLock τ) : Option (RwLock τ) :=
  match l.queue, l.holders with
  | (head, .read) :: rest, .readers ts =>
      if head = t then some ⟨.readers (t :: ts), rest⟩ else none
  | (head, .write) :: rest, .readers [] => if head = t then some ⟨.writer t, rest⟩ else none
  | _, _ => none

/-- The task gives up what it holds. -/
def release (t : τ) (l : RwLock τ) : RwLock τ :=
  match l.holders with
  | .readers ts => { l with holders := .readers (ts.erase t) }
  | .writer w => if w = t then { l with holders := .readers [] } else l

/-- The task that is let in was the head of the queue; a reader joins the readers, and a writer
finds nobody. -/
theorem grant_cases (h : l.grant t = some l') :
    (l.queue = (t, .read) :: l'.queue ∧ l'.ReadBy t ∧
        (∀ t', l.ReadBy t' → l'.ReadBy t') ∧ ∀ t', ¬ l.WrittenBy t') ∨
      l.queue = (t, .write) :: l'.queue ∧ l'.WrittenBy t ∧
        (∀ t', ¬ l.ReadBy t') ∧ ∀ t', ¬ l.WrittenBy t' := by
  unfold grant at h
  split at h
  · rename_i head rest ts hqueue hholders
    split at h
    · rename_i heq
      subst heq
      obtain rfl := Option.some.inj h
      refine .inl ⟨hqueue, ⟨_, rfl, List.mem_cons_self⟩, ?_, ?_⟩
      · rintro t' ⟨us, hus, hmem⟩
        rw [hholders] at hus
        obtain rfl := Holders.readers.inj hus
        exact ⟨_, rfl, List.mem_cons_of_mem _ hmem⟩
      · intro t' hw
        rw [WrittenBy, hholders] at hw
        cases hw
    · cases h
  · rename_i head rest hqueue hholders
    split at h
    · rename_i heq
      subst heq
      obtain rfl := Option.some.inj h
      refine .inr ⟨hqueue, rfl, ?_, ?_⟩
      · rintro t' ⟨us, hus, hmem⟩
        rw [hholders] at hus
        obtain rfl := Holders.readers.inj hus
        cases hmem
      · intro t' hw
        rw [WrittenBy, hholders] at hw
        cases hw
    · cases h
  · cases h

@[simp] theorem queue_release (t : τ) (l : RwLock τ) : (l.release t).queue = l.queue := by
  unfold release
  split
  · rfl
  · split
    · rfl
    · rfl

/-- Whoever else reads goes on reading. -/
theorem ReadBy.release_of_ne (h : l.ReadBy t') (hne : t' ≠ t) : (l.release t).ReadBy t' := by
  obtain ⟨ts, hts, hmem⟩ := h
  unfold release
  rw [hts]
  exact ⟨_, rfl, (List.mem_erase_of_ne hne).2 hmem⟩

/-- Another writer goes on writing. -/
theorem WrittenBy.release_of_ne (h : l.WrittenBy t') (hne : t' ≠ t) :
    (l.release t).WrittenBy t' := by
  unfold release
  rw [show l.holders = .writer t' from h]
  show (if t' = t then _ else l).WrittenBy t'
  rw [if_neg hne]
  exact h

end

end RwLock
