import AgentDb.Lib.Table

/-!
# Two tables side by side

`outerJoin` lists the keys of two tables, those of the first one first, with what either table
holds under each. Exchanging the tables exchanges the two columns and nothing else but the order
(`outerJoin_swap`). A pair of loops, one over the first table and one over what only the second one
holds, is a fold over the join (`foldl_outerJoin`); what such a fold accumulates in one field of
its state is a `flatMap` or a sum over the join.
-/

namespace Table

variable {κ ν α β σ γ : Type} [DecidableEq κ]

/-! ### Tables from lists -/

/-- Write the entries one after another: the last one of a key stays, in the place of the first. -/
def ofList (entries : List (κ × ν)) : Table κ ν := entries.foldl (fun t e => t.put e.1 e.2) empty

@[simp] theorem ofList_nil : ofList ([] : List (κ × ν)) = empty := rfl

theorem ofList_snoc (entries : List (κ × ν)) (e : κ × ν) :
    ofList (entries ++ [e]) = (ofList entries).put e.1 e.2 := by
  rw [ofList, List.foldl_append]
  rfl

/-- Under distinct keys the rows are the entries. -/
theorem rows_ofList {entries : List (κ × ν)} (h : (entries.map Prod.fst).Nodup) :
    (ofList entries).rows = entries := by
  induction entries using List.reverseRecOn with
  | nil => rfl
  | append_singleton entries e ih =>
    rw [List.map_append, List.nodup_append] at h
    obtain ⟨hentries, -, hdisjoint⟩ := h
    rw [ofList_snoc, rows_put, ih hentries]
    refine if_neg fun hmem => ?_
    exact hdisjoint _ hmem _ (List.mem_singleton_self _) rfl

theorem get_ofList {entries : List (κ × ν)} (h : (entries.map Prod.fst).Nodup) {k : κ} {v : ν} :
    (ofList entries).get k = some v ↔ (k, v) ∈ entries := by
  rw [← mem_rows_iff, rows_ofList h]

/-! ### The join -/

/-- The keys of both tables, with what stands under them. -/
def outerJoin (t : Table κ α) (u : Table κ β) : List (κ × Option α × Option β) :=
  t.rows.map (fun r => (r.1, some r.2, u.get r.1)) ++
    (u.rows.filter fun r => (t.get r.1).isNone).map fun r => (r.1, none, some r.2)

variable {t : Table κ α} {u : Table κ β} {k : κ} {x : Option α} {y : Option β}

theorem mem_outerJoin : (k, x, y) ∈ outerJoin t u ↔
    x = t.get k ∧ y = u.get k ∧ (x.isSome ∨ y.isSome) := by
  rw [outerJoin, List.mem_append, List.mem_map, List.mem_map]
  constructor
  · rintro (⟨⟨l, a⟩, hmem, heq⟩ | ⟨⟨l, b⟩, hmem, heq⟩)
    · obtain ⟨rfl, rfl, rfl⟩ := by simpa only [Prod.mk.injEq] using heq
      exact ⟨(mem_rows_iff.1 hmem).symm, rfl, .inl rfl⟩
    · obtain ⟨rfl, rfl, rfl⟩ := by simpa only [Prod.mk.injEq] using heq
      obtain ⟨hb, hnone⟩ := List.mem_filter.1 hmem
      exact ⟨(Option.isNone_iff_eq_none.1 hnone).symm, (mem_rows_iff.1 hb).symm, .inr rfl⟩
  · rintro ⟨rfl, rfl, hsome⟩
    cases ha : t.get k with
    | some a => exact .inl ⟨(k, a), mem_rows_iff.2 ha, rfl⟩
    | none =>
      rw [ha] at hsome
      obtain ⟨b, hb⟩ := Option.isSome_iff_exists.1 (hsome.resolve_left Bool.false_ne_true)
      refine .inr ⟨(k, b), List.mem_filter.2 ⟨mem_rows_iff.2 hb, ?_⟩, ?_⟩
      · rw [ha]
        rfl
      · rw [hb]

theorem not_mem_outerJoin : (k, none, none) ∉ outerJoin t u := fun h => by
  simpa using (mem_outerJoin.1 h).2.2

theorem nodup_keys_outerJoin (t : Table κ α) (u : Table κ β) :
    ((outerJoin t u).map Prod.fst).Nodup := by
  rw [outerJoin, List.map_append, List.map_map, List.map_map, List.nodup_append]
  refine ⟨t.nodup, (List.filter_sublist.map _).nodup u.nodup, ?_⟩
  rintro a ha b hb rfl
  obtain ⟨r, hr, rfl⟩ := List.mem_map.1 hb
  have hnone := (List.mem_filter.1 hr).2
  have hsome := mem_keys_iff.1 ha
  rw [← Option.not_isSome, Bool.not_eq_true'] at hnone
  exact Bool.false_ne_true (hnone.symm.trans hsome)

theorem nodup_outerJoin (t : Table κ α) (u : Table κ β) : (outerJoin t u).Nodup :=
  (nodup_keys_outerJoin t u).of_map _

/-- **Exchanging the tables exchanges the columns.** -/
theorem outerJoin_swap (t : Table κ α) (u : Table κ β) :
    (outerJoin u t).Perm ((outerJoin t u).map fun p => (p.1, p.2.2, p.2.1)) := by
  have hinjective : Function.Injective fun p : κ × Option α × Option β => (p.1, p.2.2, p.2.1) := by
    rintro ⟨k, x, y⟩ ⟨k', x', y'⟩ h
    simp only [Prod.mk.injEq] at h
    rw [h.1, h.2.1, h.2.2]
  refine (List.perm_ext_iff_of_nodup (nodup_outerJoin u t)
    ((nodup_outerJoin t u).map hinjective)).2 ?_
  rintro ⟨k, y, x⟩
  rw [mem_outerJoin, List.mem_map]
  constructor
  · rintro ⟨hy, hx, hsome⟩
    exact ⟨(k, x, y), mem_outerJoin.2 ⟨hx, hy, hsome.symm⟩, rfl⟩
  · rintro ⟨⟨l, x', y'⟩, hmem, heq⟩
    obtain ⟨rfl, rfl, rfl⟩ := by simpa only [Prod.mk.injEq] using heq
    obtain ⟨hx, hy, hsome⟩ := mem_outerJoin.1 hmem
    exact ⟨hy, hx, hsome.symm⟩

/-- What is listed for every key of two exchanged tables. -/
theorem flatMap_outerJoin_swap {f : κ × Option α × Option β → List γ}
    {g : κ × Option β × Option α → List γ}
    (h : ∀ k x y, (k, x, y) ∈ outerJoin t u → (g (k, y, x)).Perm (f (k, x, y))) :
    ((outerJoin u t).flatMap g).Perm ((outerJoin t u).flatMap f) := by
  refine ((outerJoin_swap t u).flatMap fun p _ => .refl (g p)).trans ?_
  rw [List.flatMap_map]
  exact List.Perm.flatMap_left _ fun p hp => h p.1 p.2.1 p.2.2 hp

/-- What is counted for every key of two exchanged tables. -/
theorem sum_outerJoin_swap {f : κ × Option α × Option β → ℕ} {g : κ × Option β × Option α → ℕ}
    (h : ∀ k x y, (k, x, y) ∈ outerJoin t u → g (k, y, x) = f (k, x, y)) :
    ((outerJoin u t).map g).sum = ((outerJoin t u).map f).sum := by
  rw [((outerJoin_swap t u).map g).sum_eq, List.map_map]
  exact congrArg List.sum (List.map_congr_left fun p hp => h p.1 p.2.1 p.2.2 hp)

/-! ### What is listed under a key -/

section Tags

variable {δ : Type} {entries : List (κ × δ)} {tag : γ → κ} {f g : κ × δ → List γ}

/-- What is listed under the key of one entry. -/
theorem filter_flatMap_of_tag (hnodup : (entries.map Prod.fst).Nodup)
    (hf : ∀ p ∈ entries, ∀ c ∈ f p, tag c = p.1) {p : κ × δ} (hp : p ∈ entries) :
    (entries.flatMap f).filter (fun c => tag c = p.1) = f p := by
  induction entries with
  | nil => cases hp
  | cons q entries ih =>
    rw [List.map_cons, List.nodup_cons] at hnodup
    rw [List.forall_mem_cons] at hf
    rw [List.flatMap_cons, List.filter_append]
    rcases List.mem_cons.1 hp with rfl | hp
    · have hself : (f p).filter (fun c => tag c = p.1) = f p :=
        List.filter_eq_self.2 fun c hc => decide_eq_true (hf.1 c hc)
      have hothers : (entries.flatMap f).filter (fun c => tag c = p.1) = [] := by
        refine List.filter_eq_nil_iff.2 fun c hc htag => hnodup.1 ?_
        obtain ⟨q, hq, hcq⟩ := List.mem_flatMap.1 hc
        rw [← of_decide_eq_true htag, hf.2 q hq c hcq]
        exact List.mem_map_of_mem hq
      rw [hself, hothers, List.append_nil]
    · have hother : (f q).filter (fun c => tag c = p.1) = [] := by
        refine List.filter_eq_nil_iff.2 fun c hc htag => hnodup.1 ?_
        rw [← hf.1 c hc, of_decide_eq_true htag]
        exact List.mem_map_of_mem hp
      rw [hother, List.nil_append]
      exact ih hnodup.2 hf.2 hp

/-- **Lists that carry the keys they are listed under** are permutations key by key. -/
theorem flatMap_perm_iff (hnodup : (entries.map Prod.fst).Nodup)
    (hf : ∀ p ∈ entries, ∀ c ∈ f p, tag c = p.1) (hg : ∀ p ∈ entries, ∀ c ∈ g p, tag c = p.1) :
    (entries.flatMap g).Perm (entries.flatMap f) ↔ ∀ p ∈ entries, (g p).Perm (f p) := by
  constructor
  · intro h p hp
    rw [← filter_flatMap_of_tag hnodup hf hp, ← filter_flatMap_of_tag hnodup hg hp]
    exact h.filter _
  · exact fun h => List.Perm.flatMap_left _ h

end Tags

/-! ### Loops -/

/-- A loop over one table and one over what only the other holds. -/
theorem foldl_outerJoin (t : Table κ α) (u : Table κ β) (f : σ → κ × Option α × Option β → σ)
    (s : σ) :
    u.rows.foldl (fun s r => if (t.get r.1).isSome then s else f s (r.1, none, some r.2))
      (t.rows.foldl (fun s r => f s (r.1, some r.2, u.get r.1)) s) = (outerJoin t u).foldl f s := by
  rw [outerJoin, List.foldl_append, List.foldl_map, List.foldl_map, List.foldl_filter]
  generalize t.rows.foldl (fun s r => f s (r.1, some r.2, u.get r.1)) s = s'
  congr 1
  funext s r
  cases t.get r.1 with
  | none => rfl
  | some a => rfl

/-- A list that a loop only appends to. -/
theorem foldl_append_field (p : σ → List γ) {f : σ → α → σ} {g : α → List γ}
    (h : ∀ s a, p (f s a) = p s ++ g a) (l : List α) (s : σ) :
    p (l.foldl f s) = p s ++ l.flatMap g := by
  induction l generalizing s with
  | nil => simp
  | cons a l ih => rw [List.foldl_cons, ih, h, List.flatMap_cons, List.append_assoc]

/-- A number that a loop only adds to. -/
theorem foldl_add_field (p : σ → ℕ) {f : σ → α → σ} {g : α → ℕ} (h : ∀ s a, p (f s a) = p s + g a)
    (l : List α) (s : σ) : p (l.foldl f s) = p s + (l.map g).sum := by
  induction l generalizing s with
  | nil => simp
  | cons a l ih => rw [List.foldl_cons, ih, h, List.map_cons, List.sum_cons, Nat.add_assoc]

end Table
