import Mathlib.Data.List.Basic
import Mathlib.Logic.Basic

/-!
# A shared log and who wrote it

Parties write entries under keys to one log. A party owns one key at most and writes under no
other; a key that was taken is never taken again. So whatever the others do, the entries under a
key are those of its owner, in the order it wrote them. The parties are a list, in which each is
a member of its own right.
-/

namespace Ownership

variable {K B M : Type*} [DecidableEq K]

/-- The entries of a log under a key. -/
def under (key : B → Option K) (k : K) (log : List B) : List B :=
  log.filter fun b => key b = some k

variable {key : B → Option K} {k : K} {log : List B}

@[simp] theorem under_nil : under key k [] = [] := rfl

theorem under_concat_self {b : B} (hb : key b = some k) :
    under key k (log ++ [b]) = under key k log ++ [b] := by
  simp [under, List.filter_append, hb]

theorem under_concat_ne {b : B} (hb : key b ≠ some k) :
    under key k (log ++ [b]) = under key k log := by
  simp [under, List.filter_append, hb]

/-- The parties that are there, what they own and what they have written, agree with the log. -/
structure Owned (own : M → Option K) (wrote : M → List B) (key : B → Option K) (taken : K → Prop)
    (log : List B) (ms : List M) : Prop where
  taken_of_own : ∀ m ∈ ms, ∀ k, own m = some k → taken k
  distinct : ms.Pairwise fun m m' => ∀ k, own m = some k → own m' ≠ some k
  said : ∀ m ∈ ms, ∀ k, own m = some k → under key k log = wrote m
  unsaid : ∀ k, (∀ m ∈ ms, own m ≠ some k) → under key k log = []

variable {own : M → Option K} {wrote : M → List B} {taken taken' : K → Prop}
  {before after ms : List M} {m m' : M}

theorem Owned.nil : Owned own wrote key taken [] ([] : List M) where
  taken_of_own _ hm := absurd hm List.not_mem_nil
  distinct := .nil
  said _ hm := absurd hm List.not_mem_nil
  unsaid _ _ := rfl

/-- What is taken stays taken. -/
theorem Owned.mono (h : Owned own wrote key taken log ms) (htaken : ∀ k, taken k → taken' k) :
    Owned own wrote key taken' log ms :=
  { h with taken_of_own := fun m hm k hk => htaken k (h.taken_of_own m hm k hk) }

/-- The owner of a key is one. -/
theorem Owned.unique (h : Owned own wrote key taken log (before ++ m :: after)) {m' : M}
    (hm' : m' ∈ before ++ after) (hk : own m = some k) : own m' ≠ some k := by
  have hpairs := List.pairwise_append.1 h.distinct
  obtain ⟨-, hrest, hacross⟩ := hpairs
  rcases List.mem_append.1 hm' with hm' | hm'
  · exact fun hk' => hacross m' hm' m List.mem_cons_self k hk' hk
  · exact (List.pairwise_cons.1 hrest).1 m' hm' k hk

/-- A party joins, owning nothing. -/
theorem Owned.join (h : Owned own wrote key taken log ms) (hm : own m = none) :
    Owned own wrote key taken log (m :: ms) := by
  have hnone : ∀ k, own m ≠ some k := by simp [hm]
  refine ⟨?_, ?_, ?_, ?_⟩
  · exact List.forall_mem_cons.2 ⟨fun k hk => absurd hk (hnone k), h.taken_of_own⟩
  · exact List.pairwise_cons.2 ⟨fun m' _ k hk => absurd hk (hnone k), h.distinct⟩
  · exact List.forall_mem_cons.2 ⟨fun k hk => absurd hk (hnone k), h.said⟩
  · exact fun k hk => h.unsaid k fun m' hm' => hk m' (List.mem_cons_of_mem _ hm')

/-- What holds of the parties that stay and of the one that changes holds of all. -/
theorem forall_mem_replace {p : M → Prop} (hp : ∀ a ∈ before ++ m :: after, p a) (hm' : p m') :
    ∀ a ∈ before ++ m' :: after, p a := by
  intro a ha
  rcases List.mem_append.1 ha with ha | ha
  · exact hp a (List.mem_append_left _ ha)
  · rcases List.mem_cons.1 ha with rfl | ha
    · exact hm'
    · exact hp a (List.mem_append_right _ (List.mem_cons_of_mem _ ha))

theorem pairwise_replace {R : M → M → Prop} (hR : (before ++ m :: after).Pairwise R)
    (hleft : ∀ a ∈ before, R a m') (hright : ∀ a ∈ after, R m' a) :
    (before ++ m' :: after).Pairwise R := by
  obtain ⟨hbefore, hrest, hacross⟩ := List.pairwise_append.1 hR
  refine List.pairwise_append.2 ⟨hbefore,
    List.pairwise_cons.2 ⟨hright, (List.pairwise_cons.1 hrest).2⟩, fun a ha => ?_⟩
  exact List.forall_mem_cons.2
    ⟨hleft a ha, fun b hb => hacross a ha b (List.mem_cons_of_mem _ hb)⟩

/-- A party goes on without a word. -/
theorem Owned.quiet (h : Owned own wrote key taken log (before ++ m :: after))
    (hown : own m' = own m) (hwrote : wrote m' = wrote m) :
    Owned own wrote key taken log (before ++ m' :: after) := by
  have hmem : m ∈ before ++ m :: after := List.mem_append_right _ List.mem_cons_self
  refine ⟨forall_mem_replace h.taken_of_own ?_, pairwise_replace h.distinct ?_ ?_,
    forall_mem_replace h.said ?_, fun k hk => h.unsaid k ?_⟩
  · exact fun k hk => h.taken_of_own m hmem k (hown ▸ hk)
  · exact fun a ha k hk hk' => h.unique (List.mem_append_left _ ha) (hown ▸ hk') hk
  · exact fun a ha k hk => h.unique (List.mem_append_right _ ha) (hown ▸ hk)
  · exact fun k hk => hwrote ▸ h.said m hmem k (hown ▸ hk)
  · exact forall_mem_replace hk (hown ▸ hk m' (List.mem_append_right _ List.mem_cons_self))

/-- What holds of one party and of the others holds of all. -/
theorem forall_mem_others {p : M → Prop} (hm : p m) (hothers : ∀ a ∈ before ++ after, p a) :
    ∀ a ∈ before ++ m :: after, p a := by
  intro a ha
  rcases List.mem_append.1 ha with ha | ha
  · exact hothers a (List.mem_append_left _ ha)
  · rcases List.mem_cons.1 ha with rfl | ha
    · exact hm
    · exact hothers a (List.mem_append_right _ ha)

/-- A party that owned nothing takes a key that was free. -/
theorem Owned.take (h : Owned own wrote key taken log (before ++ m :: after)) (hfree : ¬ taken k)
    (hmono : ∀ k, taken k → taken' k) (htaken : taken' k) (hm : own m = none)
    (hown : own m' = some k) (hwrote : wrote m' = []) :
    Owned own wrote key taken' log (before ++ m' :: after) := by
  have hnobody : ∀ a ∈ before ++ m :: after, own a ≠ some k := fun a ha hk =>
    hfree (h.taken_of_own a ha k hk)
  have hothers : ∀ a ∈ before ++ after, own a ≠ some k := fun a ha =>
    hnobody a (by grind)
  refine ⟨forall_mem_replace (h.mono hmono).taken_of_own ?_, pairwise_replace h.distinct ?_ ?_,
    forall_mem_replace h.said ?_, fun k' hk' => ?_⟩
  · intro k' hk'
    obtain rfl : k = k' := Option.some.inj (hown.symm.trans hk')
    exact htaken
  · intro a ha k' hk' hk
    obtain rfl : k = k' := Option.some.inj (hown.symm.trans hk)
    exact hothers a (List.mem_append_left _ ha) hk'
  · intro a ha k' hk
    obtain rfl : k = k' := Option.some.inj (hown.symm.trans hk)
    exact hothers a (List.mem_append_right _ ha)
  · intro k' hk'
    obtain rfl : k = k' := Option.some.inj (hown.symm.trans hk')
    rw [hwrote]
    exact h.unsaid k hnobody
  · exact h.unsaid k' (forall_mem_replace hk' (by simp [hm]))

/-- The owner of a key writes under it. -/
theorem Owned.write {b : B} (h : Owned own wrote key taken log (before ++ m :: after))
    (hk : own m = some k) (hb : key b = some k) (hown : own m' = some k)
    (hwrote : wrote m' = wrote m ++ [b]) :
    Owned own wrote key taken (log ++ [b]) (before ++ m' :: after) := by
  have hmem : m ∈ before ++ m :: after := List.mem_append_right _ List.mem_cons_self
  have hsame : own m' = own m := hown.trans hk.symm
  -- Nobody else's entries change, for the entry has the key of its writer.
  have hne : ∀ a ∈ before ++ after, ∀ k', own a = some k' → key b ≠ some k' := by
    intro a ha k' hk' hb'
    obtain rfl : k = k' := Option.some.inj (hb.symm.trans hb')
    exact h.unique ha hk hk'
  refine ⟨forall_mem_replace h.taken_of_own fun k hk => h.taken_of_own m hmem k (hsame ▸ hk),
    pairwise_replace h.distinct ?_ ?_, forall_mem_others ?_ ?_, fun k' hk' => ?_⟩
  · exact fun a ha k hk hk' => h.unique (List.mem_append_left _ ha) (hsame ▸ hk') hk
  · exact fun a ha k hk => h.unique (List.mem_append_right _ ha) (hsame ▸ hk)
  · intro k' hk'
    obtain rfl : k = k' := Option.some.inj (hown.symm.trans hk')
    rw [under_concat_self hb, hwrote, h.said m hmem k hk]
  · intro a ha k' hk'
    rw [under_concat_ne (hne a ha k' hk')]
    exact h.said a (by grind) k' hk'
  · have hb' : key b ≠ some k' := fun hb' => hk' m' (List.mem_append_right _ List.mem_cons_self)
      (hown.trans (hb.symm.trans hb'))
    rw [under_concat_ne hb']
    exact h.unsaid k' (forall_mem_replace hk' (hsame ▸
      hk' m' (List.mem_append_right _ List.mem_cons_self)))

/-- Nobody writes under a key but who owns it: an entry without a key is nobody's. -/
theorem Owned.note {b : B} (h : Owned own wrote key taken log ms) (hb : key b = none) :
    Owned own wrote key taken (log ++ [b]) ms := by
  have hne : ∀ k, key b ≠ some k := by simp [hb]
  refine ⟨h.taken_of_own, h.distinct, fun m hm k hk => ?_, fun k hk => ?_⟩
  · rw [under_concat_ne (hne k)]
    exact h.said m hm k hk
  · rw [under_concat_ne (hne k)]
    exact h.unsaid k hk

end Ownership
