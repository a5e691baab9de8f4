import Mathlib.Data.List.Forall2
import Mathlib.Tactic

/-!
# Sorting by a key

A stable sort by a key in a linear order. What is left of two lists after sorting is the same
exactly when one is a permutation of the other, as far as the key tells: `map_sortBy_eq_iff` is
stated for the image of the sorted lists under a map that determines the key and is determined by
it. Where the key does not tell members apart they stay in the order they came in:
`sortBy_eq_iff_filter` says exactly when two lists are sorted into the same one.
-/

namespace Sorting

variable {α β K : Type*} [LinearOrder K]

/-- A stable sort by a key. -/
def sortBy (key : α → K) (l : List α) : List α := l.mergeSort fun a b => key a ≤ key b

variable {key : α → K} {l l₁ l₂ : List α}

theorem sortBy_perm (key : α → K) (l : List α) : (sortBy key l).Perm l := List.mergeSort_perm l _

theorem pairwise_sortBy (key : α → K) (l : List α) :
    (sortBy key l).Pairwise fun a b => key a ≤ key b := by
  have htrans : ∀ a b c : α, decide (key a ≤ key b) = true → decide (key b ≤ key c) = true →
      decide (key a ≤ key c) = true := by
    intro a b c hab hbc
    simp only [decide_eq_true_eq] at hab hbc ⊢
    exact hab.trans hbc
  have htotal : ∀ a b : α, (decide (key a ≤ key b) || decide (key b ≤ key a)) = true := by
    intro a b
    simp only [Bool.or_eq_true, decide_eq_true_eq]
    exact le_total _ _
  exact (List.pairwise_mergeSort htrans htotal l).imp fun h => by simpa using h

/-- **Sorting forgets the order and nothing else.** -/
theorem map_sortBy_eq_iff {f : α → β} {g : β → K} (hg : Function.Injective g)
    (hkey : ∀ a, key a = g (f a)) :
    (sortBy key l₁).map f = (sortBy key l₂).map f ↔ (l₁.map f).Perm (l₂.map f) := by
  constructor
  · intro h
    calc (l₁.map f).Perm ((sortBy key l₁).map f) := ((sortBy_perm key l₁).map f).symm
      _ = (sortBy key l₂).map f := h
      List.Perm _ (l₂.map f) := (sortBy_perm key l₂).map f
  · intro h
    have hperm : ((sortBy key l₁).map f).Perm ((sortBy key l₂).map f) :=
      (((sortBy_perm key l₁).map f).trans h).trans ((sortBy_perm key l₂).map f).symm
    have hsorted : ∀ l : List α, ((sortBy key l).map f).Pairwise fun b c => g b ≤ g c := by
      intro l
      refine List.pairwise_map.2 ((pairwise_sortBy key l).imp fun hab => ?_)
      rw [← hkey, ← hkey]
      exact hab
    refine hperm.eq_of_pairwise (fun b c _ _ hbc hcb => hg (le_antisymm hbc hcb)) (hsorted l₁)
      (hsorted l₂)

theorem sortBy_eq_iff (hkey : Function.Injective key) :
    sortBy key l₁ = sortBy key l₂ ↔ l₁.Perm l₂ := by
  have h : (sortBy key l₁).map id = (sortBy key l₂).map id ↔ (l₁.map id).Perm (l₂.map id) :=
    map_sortBy_eq_iff hkey fun _ => rfl
  rwa [List.map_id, List.map_id, List.map_id, List.map_id] at h

theorem map_eq_map_iff {f : α → β} :
    l₁.map f = l₂.map f ↔ List.Forall₂ (fun a b => f a = f b) l₁ l₂ := by
  rw [← List.forall₂_eq_eq_eq, List.forall₂_map_left_iff, List.forall₂_map_right_iff]

/-- Lists whose images agree up to order agree up to order and what the map forgets. -/
theorem map_perm_map_iff {f : α → β} : (l₁.map f).Perm (l₂.map f) ↔
    ∃ l, l₁.Perm l ∧ List.Forall₂ (fun a b => f a = f b) l l₂ := by
  constructor
  · induction l₂ generalizing l₁ with
    | nil =>
      intro h
      obtain rfl : l₁ = [] := by simpa using h.eq_nil
      exact ⟨[], .refl _, .nil⟩
    | cons b l₂ ih =>
      intro h
      have hmem : f b ∈ l₁.map f := h.symm.subset (by simp)
      obtain ⟨a, ha, hab⟩ := List.mem_map.1 hmem
      obtain ⟨pre, post, rfl⟩ := List.append_of_mem ha
      have hrest : ((pre ++ post).map f).Perm (l₂.map f) := by
        have hmiddle : (f b :: (pre ++ post).map f).Perm ((pre ++ a :: post).map f) := by
          rw [← hab, ← List.map_cons]
          exact List.perm_middle.symm.map f
        exact (hmiddle.trans h).cons_inv
      obtain ⟨l, hl, hforall⟩ := ih hrest
      exact ⟨a :: l, List.perm_middle.trans (hl.cons a), .cons hab hforall⟩
  · rintro ⟨l, hperm, hforall⟩
    rw [← map_eq_map_iff.2 hforall]
    exact hperm.map f

/-! ### Members with one key -/

/-- What is sorted already stays as it is. -/
theorem sortBy_of_pairwise (h : l.Pairwise fun a b => key a ≤ key b) : sortBy key l = l :=
  List.mergeSort_of_pairwise (h.imp fun hab => decide_eq_true hab)

theorem sortBy_sortBy (key : α → K) (l : List α) : sortBy key (sortBy key l) = sortBy key l :=
  sortBy_of_pairwise (pairwise_sortBy key l)

/-- A sorted list inside of another is inside of it after the sort as well. -/
theorem sublist_sortBy (hl : l₁.Pairwise fun a b => key a ≤ key b) (h : l₁.Sublist l) :
    l₁.Sublist (sortBy key l) := by
  refine List.sublist_mergeSort (fun a b c hab hbc => ?_) (fun a b => ?_)
    (hl.imp fun hab => decide_eq_true hab) h
  · exact decide_eq_true ((of_decide_eq_true hab).trans (of_decide_eq_true hbc))
  · simpa using le_total (key a) (key b)

/-- The sort is stable: members with one key stay in the order they came in. -/
theorem filter_sortBy (key : α → K) (l : List α) (k : K) :
    (sortBy key l).filter (fun a => key a = k) = l.filter fun a => key a = k := by
  have hties : (l.filter fun a => key a = k).Pairwise fun a b => key a ≤ key b := by
    refine List.pairwise_of_forall_mem_list fun a ha b hb => ?_
    rw [of_decide_eq_true (List.mem_filter.1 ha).2, of_decide_eq_true (List.mem_filter.1 hb).2]
  have hsublist := (sublist_sortBy hties List.filter_sublist).filter fun a => key a = k
  rw [List.filter_filter] at hsublist
  have hlength := ((sortBy_perm key l).filter fun a => key a = k).length_eq
  simp only [Bool.and_self] at hsublist
  exact (hsublist.eq_of_length hlength.symm).symm

/-- The first of a sorted list has the least key. -/
theorem key_le_of_filter {a b : α} (h : (b :: l₂).Pairwise fun a b => key a ≤ key b)
    (hsame : ((a :: l₁).filter fun c => key c = key a) =
      (b :: l₂).filter fun c => key c = key a) : key b ≤ key a := by
  have ha : a ∈ (b :: l₂).filter fun c => key c = key a := by
    rw [← hsame]
    simp
  rcases List.mem_cons.1 (List.mem_filter.1 ha).1 with rfl | hrest
  · exact le_rfl
  · exact (List.pairwise_cons.1 h).1 a hrest

/-- Sorted lists are the same when they agree about the members of each key. -/
theorem eq_of_filter (h₁ : l₁.Pairwise fun a b => key a ≤ key b)
    (h₂ : l₂.Pairwise fun a b => key a ≤ key b)
    (h : ∀ k, l₁.filter (fun a => key a = k) = l₂.filter fun a => key a = k) : l₁ = l₂ := by
  induction l₁ generalizing l₂ with
  | nil =>
    cases l₂ with
    | nil => rfl
    | cons b l₂ => simpa using h (key b)
  | cons a l₁ ih =>
    cases l₂ with
    | nil => simpa using h (key a)
    | cons b l₂ =>
      have hkey : key a = key b :=
        le_antisymm (key_le_of_filter h₁ (h (key b)).symm) (key_le_of_filter h₂ (h (key a)))
      have hhead := h (key a)
      rw [List.filter_cons_of_pos (by simp), List.filter_cons_of_pos (by simp [hkey])] at hhead
      obtain rfl := (List.cons_eq_cons.1 hhead).1
      congr 1
      refine ih (List.pairwise_cons.1 h₁).2 (List.pairwise_cons.1 h₂).2 fun k => ?_
      have hk := h k
      by_cases hak : key a = k
      · rw [List.filter_cons_of_pos (by simpa using hak),
          List.filter_cons_of_pos (by simpa using hak)] at hk
        exact (List.cons_eq_cons.1 hk).2
      · rwa [List.filter_cons_of_neg (by simpa using hak),
          List.filter_cons_of_neg (by simpa using hak)] at hk

/-- **A stable sort keeps, of each key, the members in their order, and nothing else.** -/
theorem sortBy_eq_iff_filter : sortBy key l₁ = sortBy key l₂ ↔
    ∀ k, l₁.filter (fun a => key a = k) = l₂.filter fun a => key a = k := by
  constructor
  · intro h k
    rw [← filter_sortBy key l₁, h, filter_sortBy]
  · intro h
    refine eq_of_filter (pairwise_sortBy key l₁) (pairwise_sortBy key l₂) fun k => ?_
    rw [filter_sortBy, filter_sortBy]
    exact h k

end Sorting
