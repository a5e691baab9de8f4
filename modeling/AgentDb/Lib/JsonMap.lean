import AgentDb.Lib.Json

/-!
# The entries of a JSON object as a map

An object is a map from its keys that keeps the order they came in: an entry is written in its
place or at the end (`insert`), and is removed by moving the last one to its place (`swapRemove`).
Each operation has the lemmas that say what is read by key afterwards; where the keys are
different, an entry that was written at the end is removed without a trace
(`swapRemove_insert_of_not_mem`).
-/

namespace Json
namespace Entries

variable {ν : Type} {key other : String} {v w : ν} {entries : List (String × ν)}

/-- Write an entry: in place of the one of its key, or at the end. -/
def insert (key : String) (v : ν) : List (String × ν) → List (String × ν)
  | [] => [(key, v)]
  | (k, w) :: entries => if k = key then (k, v) :: entries else (k, w) :: insert key v entries

/-- Remove the entry of a key: the last one takes its place. -/
def swapRemove (key : String) (entries : List (String × ν)) : List (String × ν) :=
  match entries.findIdx? fun e => e.1 = key, entries.getLast? with
  | some i, some last => entries.dropLast.set i last
  | _, _ => entries

/-! ### Writing -/

theorem lookup_insert_self (key : String) (v : ν) (entries : List (String × ν)) :
    (insert key v entries).lookup key = some v := by
  induction entries with
  | nil => simp [insert]
  | cons e entries ih =>
    obtain ⟨k, w⟩ := e
    rw [insert]
    by_cases hk : k = key
    · rw [if_pos hk, hk, List.lookup_cons_self]
    · rw [if_neg hk, List.lookup_cons, beq_eq_false_iff_ne.2 (Ne.symm hk)]
      exact ih

theorem lookup_insert_of_ne (h : other ≠ key) (v : ν) (entries : List (String × ν)) :
    (insert key v entries).lookup other = entries.lookup other := by
  induction entries with
  | nil => rw [insert, List.lookup_cons, beq_eq_false_iff_ne.2 h]
  | cons e entries ih =>
    obtain ⟨k, w⟩ := e
    rw [insert]
    by_cases hk : k = key
    · rw [if_pos hk, List.lookup_cons, List.lookup_cons]
      rw [hk, beq_eq_false_iff_ne.2 h]
    · rw [if_neg hk, List.lookup_cons, List.lookup_cons, ih]

/-- What is written last counts. -/
theorem insert_insert (key : String) (v w : ν) (entries : List (String × ν)) :
    insert key v (insert key w entries) = insert key v entries := by
  induction entries with
  | nil => rw [insert, insert, insert, if_pos rfl]
  | cons e entries ih =>
    obtain ⟨k, u⟩ := e
    by_cases hk : k = key
    · rw [insert, if_pos hk, insert, if_pos hk, insert, if_pos hk]
    · rw [insert, if_neg hk, insert, if_neg hk, insert, if_neg hk, ih]

theorem insert_of_lookup (h : entries.lookup key = some v) : insert key v entries = entries := by
  induction entries with
  | nil => cases h
  | cons e entries ih =>
    obtain ⟨k, u⟩ := e
    by_cases hk : k = key
    · rw [hk, List.lookup_cons_self] at h
      rw [insert, if_pos hk, Option.some.inj h]
    · rw [List.lookup_cons, beq_eq_false_iff_ne.2 (Ne.symm hk)] at h
      rw [insert, if_neg hk, ih h]

theorem insert_of_not_mem (h : entries.lookup key = none) (v : ν) :
    insert key v entries = entries ++ [(key, v)] := by
  induction entries with
  | nil => rfl
  | cons e entries ih =>
    obtain ⟨k, w⟩ := e
    by_cases hk : k = key
    · rw [hk, List.lookup_cons_self] at h
      cases h
    · rw [List.lookup_cons, beq_eq_false_iff_ne.2 (Ne.symm hk)] at h
      rw [insert, if_neg hk, ih h, List.cons_append]

/-! ### Removing -/

/-- Where the keys are different, what is read is what is there. -/
theorem lookup_eq_some_iff (h : (entries.map Prod.fst).Nodup) :
    entries.lookup key = some v ↔ (key, v) ∈ entries := by
  induction entries with
  | nil => simp
  | cons e entries ih =>
    obtain ⟨k, w⟩ := e
    obtain ⟨hk, hrest⟩ := List.nodup_cons.1 h
    rw [List.mem_cons, List.lookup_cons]
    by_cases hkey : key = k
    · rw [hkey, beq_self_eq_true]
      constructor
      · intro hv
        exact .inl (by rw [Option.some.inj hv])
      · rintro (heq | hmem)
        · rw [(Prod.mk.inj heq).2]
        · exact absurd (List.mem_map_of_mem hmem) hk
    · rw [beq_eq_false_iff_ne.2 hkey]
      constructor
      · exact fun hv => .inr ((ih hrest).1 hv)
      · rintro (heq | hmem)
        · exact absurd (Prod.mk.inj heq).1 hkey
        · exact (ih hrest).2 hmem

theorem lookup_perm {entries' : List (String × ν)} (hperm : entries'.Perm entries)
    (h : (entries.map Prod.fst).Nodup) : entries'.lookup key = entries.lookup key := by
  have h' : (entries'.map Prod.fst).Nodup := (hperm.map _).nodup_iff.2 h
  refine Option.ext fun v => ?_
  rw [lookup_eq_some_iff h', lookup_eq_some_iff h, hperm.mem_iff]

/-- The entry of a key, with what stands before and after it. -/
theorem exists_of_lookup (h : entries.lookup key = some v) :
    ∃ front back, entries = front ++ (key, v) :: back ∧ ∀ e ∈ front, e.1 ≠ key := by
  induction entries with
  | nil => cases h
  | cons e entries ih =>
    obtain ⟨k, w⟩ := e
    by_cases hk : k = key
    · rw [hk, List.lookup_cons_self] at h
      rw [hk, Option.some.inj h]
      exact ⟨[], entries, rfl, by simp⟩
    · rw [List.lookup_cons, beq_eq_false_iff_ne.2 (Ne.symm hk)] at h
      obtain ⟨front, back, rfl, hfront⟩ := ih h
      exact ⟨(k, w) :: front, back, rfl, List.forall_mem_cons.2 ⟨hk, hfront⟩⟩

theorem swapRemove_of_lookup_none (h : entries.lookup key = none) :
    swapRemove key entries = entries := by
  have hnone : entries.findIdx? (fun e => decide (e.1 = key)) = none := by
    refine List.findIdx?_eq_none_iff.2 fun e he => ?_
    have hne : key ≠ e.1 := by simpa using List.lookup_eq_none_iff.1 h e he
    simpa using hne.symm
  rw [swapRemove, hnone]

theorem findIdx?_append {front back : List (String × ν)} (hfront : ∀ e ∈ front, e.1 ≠ key) :
    (front ++ (key, v) :: back).findIdx? (fun e => decide (e.1 = key)) = some front.length := by
  have hnone : front.findIdx? (fun e => decide (e.1 = key)) = none :=
    List.findIdx?_eq_none_iff.2 fun e he => by simpa using hfront e he
  rw [List.findIdx?_append, hnone, List.findIdx?_cons]
  simp

/-- The last entry is removed without a trace. -/
theorem swapRemove_concat {front : List (String × ν)} (hfront : ∀ e ∈ front, e.1 ≠ key) :
    swapRemove key (front ++ [(key, v)]) = front := by
  rw [swapRemove, findIdx?_append hfront, List.getLast?_concat, List.dropLast_concat]
  exact List.set_eq_of_length_le le_rfl

/-- What is left are the other entries, in another order. -/
theorem swapRemove_perm {front back : List (String × ν)} (hfront : ∀ e ∈ front, e.1 ≠ key) :
    (swapRemove key (front ++ (key, v) :: back)).Perm (front ++ back) := by
  rcases List.eq_nil_or_concat back with rfl | ⟨middle, last, rfl⟩
  · rw [swapRemove_concat hfront, List.append_nil]
  · have hlast : front ++ (key, v) :: middle.concat last =
        front ++ (key, v) :: middle ++ [last] := by simp
    rw [swapRemove, findIdx?_append hfront, hlast, List.getLast?_concat, List.dropLast_concat]
    have hset : (front ++ (key, v) :: middle).set front.length last =
        front ++ last :: middle := by simp
    dsimp only
    rw [hset, List.concat_eq_append]
    exact (List.perm_append_singleton last middle).symm.append_left front

section Distinct

variable (h : (entries.map Prod.fst).Nodup)

include h

theorem lookup_swapRemove_self : (swapRemove key entries).lookup key = none := by
  cases hkey : entries.lookup key with
  | none => rwa [swapRemove_of_lookup_none hkey]
  | some v =>
    obtain ⟨front, back, rfl, hfront⟩ := exists_of_lookup hkey
    rw [List.map_append, List.map_cons, List.nodup_middle, List.nodup_cons, ← List.map_append] at h
    rw [lookup_perm (swapRemove_perm hfront) h.2]
    refine List.lookup_eq_none_iff.2 fun e he => ?_
    have hne : key ≠ e.1 := by
      rintro rfl
      exact h.1 (List.mem_map.2 ⟨e, he, rfl⟩)
    simpa using hne

theorem lookup_swapRemove_of_ne (hne : other ≠ key) :
    (swapRemove key entries).lookup other = entries.lookup other := by
  cases hkey : entries.lookup key with
  | none => rw [swapRemove_of_lookup_none hkey]
  | some v =>
    obtain ⟨front, back, rfl, hfront⟩ := exists_of_lookup hkey
    have hall := h
    rw [List.map_append, List.map_cons, List.nodup_middle, List.nodup_cons, ← List.map_append] at h
    rw [lookup_perm (swapRemove_perm hfront) h.2, ← lookup_perm List.perm_middle.symm hall,
      List.lookup_cons, beq_eq_false_iff_ne.2 hne]

end Distinct

/-- What is written at the end and removed again leaves no trace. -/
theorem swapRemove_insert_of_not_mem (h : entries.lookup key = none) (v : ν) :
    swapRemove key (insert key v entries) = entries := by
  have hkeys : ∀ e ∈ entries, e.1 ≠ key := by
    intro e he
    have hne : key ≠ e.1 := by simpa using List.lookup_eq_none_iff.1 h e he
    exact hne.symm
  rw [insert_of_not_mem h, swapRemove_concat hkeys]

end Entries
end Json
