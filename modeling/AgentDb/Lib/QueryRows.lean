import AgentDb.Lib.OuterJoin
import AgentDb.Lib.Sorting

/-!
# Rows of a query, and the groups made of them

An answer to a query with an `ORDER BY` is any arrangement of its rows that the order allows
(`Answer`). Where the rows are listed group by group under distinct keys, what the answer has of one
group is known: `Answer.filter_eq`. A loop over the answer that puts every row into the group of its
key makes one group for every key (`gathered_foldl`), out of the rows of that key; a loop that
changes the groups that are there changes each by its own rows (`foldl_change`).
-/

namespace QueryRows

variable {ρ κ τ α β K : Type}

/-! ### Lists -/

theorem filter_key_eq [DecidableEq κ] {key : α → κ} {l : List α} (h : (l.map key).Nodup) {a : α}
    (ha : a ∈ l) : l.filter (fun b => key b = key a) = [a] := by
  induction l with
  | nil => cases ha
  | cons b l ih =>
    rw [List.map_cons, List.nodup_cons] at h
    rcases List.mem_cons.1 ha with rfl | ha
    · have hothers : l.filter (fun b => key b = key a) = [] := by
        refine List.filter_eq_nil_iff.2 fun b hb hkey => h.1 ?_
        rw [← of_decide_eq_true hkey]
        exact List.mem_map_of_mem hb
      rw [List.filter_cons_of_pos (by simp), hothers]
    · have hne : ¬ key b = key a := by
        intro hkey
        exact h.1 (hkey ▸ List.mem_map_of_mem ha)
      rw [List.filter_cons_of_neg (by simpa using hne)]
      exact ih h.2 ha

/-- What is listed for one of several keyed members. -/
theorem filter_flatMap_key [DecidableEq κ] {key : α → κ} {tag : β → κ} {l : List α}
    {f : α → List β} (h : (l.map key).Nodup) (hf : ∀ a ∈ l, ∀ b ∈ f a, tag b = key a) {a : α}
    (ha : a ∈ l) : (l.flatMap f).filter (fun b => tag b = key a) = f a := by
  have hkeys : ((l.map fun a => (key a, a)).map Prod.fst).Nodup := by
    rw [List.map_map]
    exact h
  have hfilter := Table.filter_flatMap_of_tag (f := fun p => f p.2) (p := (key a, a)) hkeys
    (by
      intro p hp c hc
      obtain ⟨b, hb, rfl⟩ := List.mem_map.1 hp
      exact hf b hb c hc)
    (List.mem_map_of_mem ha)
  rwa [List.flatMap_map] at hfilter

/-- Lists that carry distinct keys are one member each exactly if the whole is. -/
theorem flatMap_eq_map_iff [DecidableEq κ] {key : α → κ} {tag : β → κ} {l : List α}
    {f : α → List β} {g : α → β} (h : (l.map key).Nodup)
    (hf : ∀ a ∈ l, ∀ b ∈ f a, tag b = key a) (hg : ∀ a ∈ l, tag (g a) = key a) :
    l.flatMap f = l.map g ↔ ∀ a ∈ l, f a = [g a] := by
  constructor
  · intro heq a ha
    rw [← filter_flatMap_key h hf ha, heq, List.map_eq_flatMap]
    refine filter_flatMap_key h (fun a ha b hb => ?_) ha
    rw [List.mem_singleton.1 hb, hg a ha]
  · intro heq
    rw [List.flatMap_congr heq, List.map_eq_flatMap]

/-! ### Answers -/

/-- `rows` is an answer to a query for `all` in an order. -/
structure Answer [LinearOrder K] (order : ρ → K) (all rows : List ρ) : Prop where
  perm : rows.Perm all
  sorted : rows.Pairwise fun a b => order a ≤ order b

/-- There is always an answer. -/
theorem answer_sortBy [LinearOrder K] (order : ρ → K) (all : List ρ) :
    Answer order all (Sorting.sortBy order all) :=
  ⟨Sorting.sortBy_perm order all, Sorting.pairwise_sortBy order all⟩

/-- **What an answer has of a part of the rows**, if the order tells the rows of the part apart. -/
theorem Answer.filter_eq [LinearOrder K] {order : ρ → K} {all rows part : List ρ} {p : ρ → Bool}
    (h : Answer order all rows) (hpart : (all.filter p).Perm part)
    (hsorted : part.Pairwise fun a b => order a ≤ order b)
    (hinj : ∀ a ∈ part, ∀ b ∈ part, order a = order b → a = b) : rows.filter p = part := by
  have hperm : (rows.filter p).Perm part := (h.perm.filter p).trans hpart
  refine hperm.eq_of_pairwise (fun a b ha hb hab hba => ?_) (h.sorted.filter p) hsorted
  exact hinj a (hperm.subset ha) b hb (le_antisymm hab hba)

/-- The same, where the part is in strict order. -/
theorem Answer.filter_eq_of_lt [LinearOrder K] {order : ρ → K} {all rows part : List ρ}
    {p : ρ → Bool} (h : Answer order all rows) (hpart : (all.filter p).Perm part)
    (hsorted : part.Pairwise fun a b => order a < order b) : rows.filter p = part := by
  refine h.filter_eq hpart (hsorted.imp fun hab => hab.le) ?_
  have hnodup : (part.map order).Nodup :=
    List.pairwise_map.2 (hsorted.imp fun hab => hab.ne)
  exact fun a ha b hb => List.inj_on_of_nodup_map hnodup ha hb

theorem pairwise_lt_sortBy [LinearOrder K] {key : α → K} {l : List α} (h : (l.map key).Nodup) :
    (Sorting.sortBy key l).Pairwise fun a b => key a < key b := by
  have hne : (Sorting.sortBy key l).Pairwise fun a b => key a ≠ key b :=
    List.pairwise_map.1 (((Sorting.sortBy_perm key l).map key).nodup_iff.2 h)
  exact (Sorting.pairwise_sortBy key l).imp₂ (fun a b hab hne => lt_of_le_of_ne hab hne) hne

theorem pairwise_zipIdx (l : List α) (n : ℕ) : (l.zipIdx n).Pairwise fun a b => a.2 < b.2 := by
  refine List.pairwise_map.1 ?_
  rw [List.zipIdx_map_snd]
  exact List.pairwise_lt_range'

/-! ### Groups -/

section Groups

theorem key_foldl {key : τ → κ} {f : ρ → τ → τ} (hf : ∀ r g, key (f r g) = key g) (rows : List ρ)
    (g : τ) : key (rows.foldl (fun g r => f r g) g) = key g := by
  induction rows generalizing g with
  | nil => rfl
  | cons r rows ih => rw [List.foldl_cons, ih, hf]

variable [DecidableEq κ] (key : τ → κ)

/-- Change the group of a key. -/
def change (k : κ) (f : τ → τ) (groups : List τ) : List τ :=
  groups.map fun g => if key g = k then f g else g

/-- The same, where the group is opened if it is not there. -/
def enter (fresh : κ → τ) (k : κ) (f : τ → τ) (groups : List τ) : List τ :=
  if k ∈ groups.map key then change key k f groups else groups ++ [f (fresh k)]

variable {key} {fresh : κ → τ} {keyOf : ρ → κ} {f : ρ → τ → τ}

/-- **Every group is changed by the rows of its key.** -/
theorem foldl_change (hf : ∀ r g, key (f r g) = key g) (rows : List ρ) (groups : List τ) :
    rows.foldl (fun gs r => change key (keyOf r) (f r) gs) groups =
      groups.map fun g => (rows.filter fun r => keyOf r = key g).foldl (fun g r => f r g) g := by
  induction rows generalizing groups with
  | nil => exact (List.map_id _).symm
  | cons r rows ih =>
    rw [List.foldl_cons, ih, change, List.map_map]
    refine List.map_congr_left fun g _ => ?_
    by_cases hg : key g = keyOf r
    · simp [hg, hf]
    · simp [hg, Ne.symm hg]

/-- What the groups are that a loop over rows makes. -/
structure Gathered (key : τ → κ) (fresh : κ → τ) (keyOf : ρ → κ) (f : ρ → τ → τ) (rows : List ρ)
    (groups : List τ) : Prop where
  nodup : (groups.map key).Nodup
  mem_iff : ∀ k, k ∈ groups.map key ↔ k ∈ rows.map keyOf
  eq : ∀ g ∈ groups,
    g = (rows.filter fun r => keyOf r = key g).foldl (fun g r => f r g) (fresh (key g))

theorem map_key_change {k : κ} {h : τ → τ} (hh : ∀ g, key (h g) = key g) (groups : List τ) :
    (change key k h groups).map key = groups.map key := by
  rw [change, List.map_map]
  refine List.map_congr_left fun g _ => ?_
  change key (if key g = k then h g else g) = key g
  split_ifs with hg
  · exact hh g
  · rfl

/-- A row more. -/
theorem gathered_snoc (hfresh : ∀ k, key (fresh k) = k) (hf : ∀ r g, key (f r g) = key g)
    {rows : List ρ} {groups : List τ} (h : Gathered key fresh keyOf f rows groups) (r : ρ) :
    Gathered key fresh keyOf f (rows ++ [r]) (enter key fresh (keyOf r) (f r) groups) := by
  have hother : ∀ g : τ, keyOf r ≠ key g →
      (rows ++ [r]).filter (fun r => keyOf r = key g) = rows.filter fun r => keyOf r = key g := by
    intro g hne
    simp [hne]
  by_cases hmem : keyOf r ∈ groups.map key
  · rw [enter, if_pos hmem]
    refine ⟨?_, fun k => ?_, fun g' hg' => ?_⟩
    · rw [map_key_change (hf r)]
      exact h.nodup
    · rw [map_key_change (hf r), h.mem_iff, List.map_append, List.mem_append]
      refine ⟨.inl, fun hk => hk.elim id fun hk => ?_⟩
      rw [List.mem_singleton.1 hk]
      exact (h.mem_iff _).1 hmem
    · obtain ⟨g, hg, rfl⟩ := List.mem_map.1 hg'
      by_cases hkey : key g = keyOf r
      · rw [if_pos hkey, hf, List.filter_append, List.foldl_append, ← h.eq g hg]
        simp [hkey]
      · rw [if_neg hkey, hother g (Ne.symm hkey)]
        exact h.eq g hg
  · rw [enter, if_neg hmem]
    have hnew : key (f r (fresh (keyOf r))) = keyOf r := by rw [hf, hfresh]
    refine ⟨?_, fun k => ?_, fun g hg => ?_⟩
    · rw [List.map_append, List.map_singleton, hnew]
      exact List.nodup_append.2 ⟨h.nodup, List.nodup_singleton _, by
        intro k hk k' hk' heq
        exact hmem (List.mem_singleton.1 hk' ▸ heq ▸ hk)⟩
    · rw [List.map_append, List.map_singleton, hnew, List.mem_append, h.mem_iff, List.map_append,
        List.mem_append, List.map_singleton]
    · rcases List.mem_append.1 hg with hg | hg
      · rw [hother g fun heq => hmem (heq ▸ List.mem_map_of_mem hg)]
        exact h.eq g hg
      · obtain rfl := List.mem_singleton.1 hg
        have hnone : rows.filter (fun r' => keyOf r' = keyOf r) = [] := by
          refine List.filter_eq_nil_iff.2 fun r' hr' heq => hmem ((h.mem_iff _).2 ?_)
          rw [← of_decide_eq_true heq]
          exact List.mem_map_of_mem hr'
        rw [hnew, List.filter_append, hnone]
        simp

/-- **A loop over rows makes one group for every key, out of the rows of the key.** -/
theorem gathered_foldl (hfresh : ∀ k, key (fresh k) = k) (hf : ∀ r g, key (f r g) = key g)
    (rows : List ρ) : Gathered key fresh keyOf f rows
      (rows.foldl (fun gs r => enter key fresh (keyOf r) (f r) gs) []) := by
  induction rows using List.reverseRecOn with
  | nil => exact ⟨List.nodup_nil, fun k => .rfl, fun g hg => absurd hg List.not_mem_nil⟩
  | append_singleton rows r ih =>
    rw [List.foldl_append]
    exact gathered_snoc hfresh hf ih r

end Groups

end QueryRows
