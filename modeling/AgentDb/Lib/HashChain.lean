import Mathlib.Tactic

/-!
# Hash-linked lists

A list of records each of which stores the hash of the record before it. `Linked p` says that
the links hold from the tail `p` on; `tip` is the hash a further record has to store. When equal
hashes determine the records (`R`), a linked list is determined by its last hash:
`forall₂_of_tip_eq`.
-/

namespace HashChain

variable {α β H : Type*}

section Linked

variable (prev : α → Option H) (hash : α → H)

/-- Every record stores the hash of the one before it, the first one stores `p`. -/
def Linked : Option H → List α → Prop
  | _, [] => True
  | p, e :: es => prev e = p ∧ Linked (some (hash e)) es

/-- The hash of the last record, or `p` when there is none. -/
def tip (p : Option H) : List α → Option H
  | [] => p
  | e :: es => tip (some (hash e)) es

@[simp] theorem linked_nil (p : Option H) : Linked prev hash p [] := trivial

theorem linked_cons {p : Option H} {e : α} {es : List α} :
    Linked prev hash p (e :: es) ↔ prev e = p ∧ Linked prev hash (some (hash e)) es := Iff.rfl

@[simp] theorem tip_nil (p : Option H) : tip hash p [] = p := rfl

@[simp] theorem tip_cons (p : Option H) (e : α) (es : List α) :
    tip hash p (e :: es) = tip hash (some (hash e)) es := rfl

@[simp] theorem tip_append (p : Option H) (es fs : List α) :
    tip hash p (es ++ fs) = tip hash (tip hash p es) fs := by
  induction es generalizing p with
  | nil => rfl
  | cons e es ih => simp [ih]

theorem tip_none_eq_getLast? (es : List α) : tip hash none es = es.getLast?.map hash := by
  induction es using List.reverseRecOn with
  | nil => rfl
  | append_singleton es e _ => simp

theorem linked_append {p : Option H} {es fs : List α} :
    Linked prev hash p (es ++ fs) ↔
      Linked prev hash p es ∧ Linked prev hash (tip hash p es) fs := by
  induction es generalizing p with
  | nil => simp
  | cons e es ih => simp [linked_cons, ih, and_assoc]

theorem linked_concat {p : Option H} {es : List α} {e : α} :
    Linked prev hash p (es ++ [e]) ↔ Linked prev hash p es ∧ prev e = tip hash p es := by
  rw [linked_append, linked_cons]
  simp

end Linked

/-- **A linked list is determined by its last hash**, up to what a hash determines of a
record. -/
theorem forall₂_of_tip_eq {prev : α → Option H} {prev' : β → Option H} {hash : α → H}
    {hash' : β → H} {R : α → β → Prop} {xs : List α} {ys : List β}
    (hx : Linked prev hash none xs) (hy : Linked prev' hash' none ys)
    (hR : ∀ a ∈ xs, ∀ b ∈ ys, hash a = hash' b → R a b)
    (hprev : ∀ a ∈ xs, ∀ b ∈ ys, R a b → prev a = prev' b)
    (htip : tip hash none xs = tip hash' none ys) : List.Forall₂ R xs ys := by
  -- from the last record backwards: equal hashes give equal links, the tips of the rest
  induction xs using List.reverseRecOn generalizing ys with
  | nil =>
    cases ys using List.reverseRecOn with
    | nil => exact .nil
    | append_singleton ys b => simp at htip
  | append_singleton xs a ih =>
    cases ys using List.reverseRecOn with
    | nil => simp at htip
    | append_singleton ys b =>
      rw [linked_concat] at hx hy
      have hab : R a b := hR a (by simp) b (by simp) (by simpa using htip)
      have hrest : tip hash none xs = tip hash' none ys := by
        rw [← hx.2, ← hy.2]
        exact hprev a (by simp) b (by simp) hab
      refine List.rel_append (ih hx.1 hy.1 ?_ ?_ hrest) (.cons hab .nil)
      · exact fun c hc d hd => hR c (by simp [hc]) d (by simp [hd])
      · exact fun c hc d hd => hprev c (by simp [hc]) d (by simp [hd])

end HashChain
