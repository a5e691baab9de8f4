import Mathlib.Tactic

/-!
# Reading a stream up to a cap

A stream hands out items until it ends or until an item could not be read. A capped reader keeps
at most `max` items (`length_le_of_read`) and looks at one more, so that it knows whether it cut
the stream off (`read_ok`). What a page ought to be is said without the reader: the first items of
what the caller asked for, with the flag that there are more of them (`IsPage`).
-/

namespace Capped

variable {α ε : Type*} {max : ℕ}

/-- The loop of a capped reader: `taken` is the page so far. -/
def read (max : ℕ) (taken : List α) : List (Except ε α) → Except ε (List α × Bool)
  | [] => .ok (taken, false)
  | .error e :: _ => .error e
  | .ok a :: rest => if max ≤ taken.length then .ok (taken, true) else read max (taken ++ [a]) rest

/-- What a caller asked to see of a result: all of it, or `limit` items at most. -/
def asked (limit : Option ℕ) (items : List α) : List α :=
  match limit with
  | none => items
  | some limit => items.take limit

/-- The page a caller ought to get of what it asked for. -/
structure IsPage (cap : ℕ) (wanted : List α) (page : List α × Bool) : Prop where
  first : page.1 = wanted.take cap
  truncated_iff : page.2 = true ↔ page.1.length < wanted.length

theorem isPage_take (cap : ℕ) (wanted : List α) :
    IsPage cap wanted (wanted.take cap, decide (cap < wanted.length)) where
  first := rfl
  truncated_iff := by
    simp only [decide_eq_true_iff, List.length_take]
    omega

/-- There is one page for a result and a cap. -/
theorem IsPage.eq {cap : ℕ} {wanted : List α} {page : List α × Bool} (h : IsPage cap wanted page) :
    page = (wanted.take cap, decide (cap < wanted.length)) := by
  obtain ⟨shown, truncated⟩ := page
  have hfirst : shown = wanted.take cap := h.first
  have hflag : truncated = true ↔ shown.length < wanted.length := h.truncated_iff
  subst hfirst
  rw [Prod.mk.injEq]
  refine ⟨rfl, Bool.eq_iff_iff.2 (hflag.trans ?_)⟩
  simp only [decide_eq_true_iff, List.length_take]
  omega

theorem isPage_iff {cap : ℕ} {wanted : List α} {page : List α × Bool} :
    IsPage cap wanted page ↔ page = (wanted.take cap, decide (cap < wanted.length)) := by
  constructor
  · exact IsPage.eq
  · rintro rfl
    exact isPage_take cap wanted

/-- The loop on a stream that yields `items`, with a page that is not over the cap yet. -/
theorem read_append {taken : List α} (htaken : taken.length ≤ max) (items : List α) :
    read max taken (items.map (Except.ok (ε := ε))) =
      .ok ((taken ++ items).take max, decide (max < (taken ++ items).length)) := by
  induction items generalizing taken with
  | nil =>
      rw [List.append_nil, List.take_of_length_le htaken]
      simp [read, htaken]
  | cons a items ih =>
      rw [List.map_cons, read]
      by_cases hfull : max ≤ taken.length
      · have hlen : taken.length = max := le_antisymm htaken hfull
        rw [if_pos hfull, List.take_append_of_le_length hfull, List.take_of_length_le htaken]
        simp [hlen]
      · rw [if_neg hfull, ih (by simp; omega), List.append_assoc, List.singleton_append]

/-- A stream without a failure is read to its page. -/
theorem read_ok (max : ℕ) (items : List α) :
    read max [] (items.map (Except.ok (ε := ε))) =
      .ok (items.take max, decide (max < items.length)) :=
  read_append (Nat.zero_le _) items

/-- Whatever the stream yields, the page stays under the cap. -/
theorem length_le_of_read {stream : List (Except ε α)} {taken page : List α} {truncated : Bool}
    (htaken : taken.length ≤ max) (h : read max taken stream = .ok (page, truncated)) :
    page.length ≤ max := by
  induction stream generalizing taken with
  | nil =>
      cases h
      exact htaken
  | cons item rest ih =>
      cases item with
      | error e => cases h
      | ok a =>
          rw [read] at h
          split at h
          · cases h
            exact htaken
          · rename_i hroom
            exact ih (by simp; omega) h

end Capped
