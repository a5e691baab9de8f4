import Mathlib.Tactic

/-!
# Keyed tables

A table is a list of rows with keys no two of which are equal. Rows are read by key (`get`),
written by key (`put`, in place or at the end), and changed or removed in bulk (`mapRows`,
`filterRows`). Each operation has one lemma that says what is read by key afterwards; nothing
else about a table is used but that a row stands in the list exactly when it is read by its key.
-/

/-- Rows under distinct keys. -/
structure Table (κ ν : Type) where
  rows : List (κ × ν)
  nodup : (rows.map Prod.fst).Nodup
  deriving DecidableEq

namespace Table

variable {κ ν : Type}

def empty : Table κ ν := ⟨[], List.nodup_nil⟩

/-- Change the rows and keep the keys. -/
def mapRows (f : κ → ν → ν) (t : Table κ ν) : Table κ ν where
  rows := t.rows.map fun r => (r.1, f r.1 r.2)
  nodup := by
    rw [List.map_map]
    exact t.nodup

/-- Keep some rows. -/
def filterRows (p : κ → ν → Bool) (t : Table κ ν) : Table κ ν where
  rows := t.rows.filter fun r => p r.1 r.2
  nodup := (List.filter_sublist.map Prod.fst).nodup t.nodup

variable [DecidableEq κ]

/-- The row under a key. -/
def get (t : Table κ ν) (k : κ) : Option ν := (t.rows.find? fun r => r.1 = k).map Prod.snd

/-- Write a row: in place of the row under its key, or at the end. -/
def put (t : Table κ ν) (k : κ) (v : ν) : Table κ ν where
  rows := if k ∈ t.rows.map Prod.fst then t.rows.map fun r => if r.1 = k then (k, v) else r
    else t.rows ++ [(k, v)]
  nodup := by
    split_ifs with h
    · have hkeys : (t.rows.map fun r => if r.1 = k then (k, v) else r).map Prod.fst =
          t.rows.map Prod.fst := by
        rw [List.map_map]
        refine List.map_congr_left fun r _ => ?_
        rw [Function.comp_apply]
        split_ifs with hr
        · exact hr.symm
        · rfl
      rw [hkeys]
      exact t.nodup
    · rw [List.map_append, List.map_singleton]
      exact List.nodup_append.2 ⟨t.nodup, List.nodup_singleton k, by
        rintro a ha b hb rfl
        rw [List.mem_singleton] at hb
        rw [hb] at ha
        exact h ha⟩

variable {t : Table κ ν} {k l : κ} {v : ν}

theorem mem_rows_iff : (k, v) ∈ t.rows ↔ t.get k = some v := by
  have hnodup := t.nodup
  rw [get]
  generalize t.rows = rows at hnodup ⊢
  induction rows with
  | nil => simp
  | cons r rows ih =>
    rw [List.map_cons, List.nodup_cons] at hnodup
    have ih := ih hnodup.2
    obtain ⟨a, b⟩ := r
    by_cases ha : a = k
    · subst ha
      have hnot : (a, v) ∉ rows := fun h => hnodup.1 (List.mem_map.2 ⟨_, h, rfl⟩)
      rw [List.find?_cons_of_pos (by simp), List.mem_cons]
      simp only [hnot, or_false, Option.map_some, Option.some.injEq, Prod.mk.injEq, true_and]
      exact eq_comm
    · rw [List.find?_cons_of_neg (by simpa using ha), List.mem_cons]
      refine Iff.trans ?_ ih
      constructor
      · rintro (h | h)
        · exact absurd (Prod.ext_iff.1 h).1.symm ha
        · exact h
      · exact Or.inr

@[simp] theorem get_empty (k : κ) : (empty : Table κ ν).get k = none := rfl

theorem mem_keys_iff : k ∈ t.rows.map Prod.fst ↔ (t.get k).isSome := by
  rw [List.mem_map, Option.isSome_iff_exists]
  constructor
  · rintro ⟨⟨k', v⟩, h, rfl⟩
    exact ⟨v, mem_rows_iff.1 h⟩
  · rintro ⟨v, h⟩
    exact ⟨(k, v), mem_rows_iff.2 h, rfl⟩

/-- Two tables with the same rows read the same. -/
theorem get_eq_of_mem {t' : Table κ ν} (h : ∀ v, (k, v) ∈ t.rows ↔ (l, v) ∈ t'.rows) :
    t.get k = t'.get l := by
  refine Option.ext fun v => ?_
  rw [← mem_rows_iff, ← mem_rows_iff]
  exact h v

@[simp] theorem get_mapRows (f : κ → ν → ν) (t : Table κ ν) (k : κ) :
    (t.mapRows f).get k = (t.get k).map (f k) := by
  rw [get, get, mapRows, List.find?_map, Option.map_map, Option.map_map]
  cases h : t.rows.find? fun r => r.1 = k with
  | none =>
    have hnone : t.rows.find? ((fun r => decide (r.1 = k)) ∘ fun r => (r.1, f r.1 r.2)) = none := h
    rw [hnone]
    rfl
  | some r =>
    have hsome : t.rows.find? ((fun r => decide (r.1 = k)) ∘ fun r => (r.1, f r.1 r.2)) = some r :=
      h
    have hk : r.1 = k := by simpa using List.find?_some h
    rw [hsome]
    simp [hk]

@[simp] theorem get_filterRows (p : κ → ν → Bool) (t : Table κ ν) (k : κ) :
    (t.filterRows p).get k = (t.get k).filter (p k) := by
  refine Option.ext fun v => ?_
  rw [← mem_rows_iff, filterRows, List.mem_filter, mem_rows_iff, Option.filter_eq_some_iff]

theorem get_filterRows_of_keep {p : κ → ν → Bool} (h : ∀ v, p k v = true) :
    (t.filterRows p).get k = t.get k := by
  rw [get_filterRows]
  cases t.get k with
  | none => rfl
  | some v => exact Option.filter_some_pos (h v)

theorem get_filterRows_of_drop {p : κ → ν → Bool} (h : ∀ v, p k v = false) :
    (t.filterRows p).get k = none := by
  rw [get_filterRows, Option.filter_eq_none_iff]
  intro v _
  rw [h v]
  exact Bool.false_ne_true

/-- Without one row every other is found as before. -/
theorem get_filterRows_ne (t : Table κ ν) (k l : κ) :
    (t.filterRows fun k' _ => k' ≠ k).get l = if l = k then none else t.get l := by
  split
  · rename_i heq
    rw [heq]
    exact get_filterRows_of_drop fun _ => decide_eq_false (not_not.2 rfl)
  · rename_i hne
    exact get_filterRows_of_keep fun _ => decide_eq_true hne

theorem rows_put (t : Table κ ν) (k : κ) (v : ν) : (t.put k v).rows =
    if k ∈ t.rows.map Prod.fst then t.rows.map fun r => if r.1 = k then (k, v) else r
    else t.rows ++ [(k, v)] := rfl

theorem get_put (t : Table κ ν) (k l : κ) (v : ν) :
    (t.put k v).get l = if l = k then some v else t.get l := by
  refine Option.ext fun w => ?_
  rw [← mem_rows_iff, rows_put]
  by_cases hmem : k ∈ t.rows.map Prod.fst
  · rw [if_pos hmem, List.mem_map]
    obtain ⟨⟨k', u⟩, hu, rfl⟩ := List.mem_map.1 hmem
    by_cases hl : l = k'
    · subst hl
      rw [if_pos rfl]
      constructor
      · rintro ⟨⟨a, b⟩, -, hr⟩
        by_cases ha : a = l
        · rw [if_pos ha] at hr
          exact congrArg some (Prod.ext_iff.1 hr).2
        · rw [if_neg ha] at hr
          exact absurd (Prod.ext_iff.1 hr).1 ha
      · intro hw
        exact ⟨(l, u), hu, by rw [if_pos rfl, Option.some.inj hw]⟩
    · rw [if_neg hl, ← mem_rows_iff]
      constructor
      · rintro ⟨⟨a, b⟩, hab, hr⟩
        by_cases ha : a = k'
        · rw [if_pos ha] at hr
          exact absurd (Prod.ext_iff.1 hr).1.symm hl
        · rw [if_neg ha] at hr
          exact hr ▸ hab
      · intro hw
        exact ⟨(l, w), hw, if_neg hl⟩
  · rw [if_neg hmem, List.mem_append, List.mem_singleton, mem_rows_iff, Prod.mk.injEq]
    by_cases hl : l = k
    · subst hl
      rw [if_pos rfl]
      have hnone : t.get l = none := by
        rw [mem_keys_iff, Bool.not_eq_true, Option.isSome_eq_false_iff, Option.isNone_iff_eq_none]
          at hmem
        exact hmem
      rw [hnone]
      simp [eq_comm]
    · rw [if_neg hl]
      simp [hl]

@[simp] theorem get_put_self (t : Table κ ν) (k : κ) (v : ν) : (t.put k v).get k = some v := by
  rw [get_put, if_pos rfl]

theorem get_put_of_ne (t : Table κ ν) (v : ν) (h : l ≠ k) : (t.put k v).get l = t.get l := by
  rw [get_put, if_neg h]

/-- Write a row as the conflict with the row under its key says; a conflict may leave the row as
it is. -/
def upsert (t : Table κ ν) (k : κ) (new : ν) (onConflict : ν → ν) : Table κ ν :=
  t.put k ((t.get k).elim new onConflict)

theorem get_upsert (t : Table κ ν) (k l : κ) (new : ν) (onConflict : ν → ν) :
    (t.upsert k new onConflict).get l =
      if l = k then some ((t.get k).elim new onConflict) else t.get l :=
  get_put _ _ _ _

/-- Some row satisfies the predicate. -/
def any (t : Table κ ν) (p : κ → ν → Bool) : Bool := t.rows.any fun r => p r.1 r.2

theorem any_eq_true {p : κ → ν → Bool} :
    t.any p = true ↔ ∃ k v, t.get k = some v ∧ p k v = true := by
  rw [any, List.any_eq_true]
  constructor
  · rintro ⟨⟨k, v⟩, h, hp⟩
    exact ⟨k, v, mem_rows_iff.1 h, hp⟩
  · rintro ⟨k, v, h, hp⟩
    exact ⟨(k, v), mem_rows_iff.2 h, hp⟩

end Table
