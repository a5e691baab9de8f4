import AgentDb.Lib.TextCode

/-!
# Padded numbers, trimmed fractions and joined words

A number with zeros in front (`zeroPadded`), a fraction of a fixed width without the zeros at its
end (`trimZeros`), and words with blanks between them, each with the lemma that it can be read
back: `zeroPadded_injective`, `trimZeros_inj` and `joinWords_inj`.
-/

namespace TextCode

/-! ### Padded numbers -/

/-- A decimal of at least `w` digits, as `{:0w}` writes it. -/
def zeroPadded (w n : ℕ) : List Char :=
  List.replicate (w - (decimal n).length) '0' ++ decimal n

theorem decimal_eq (n : ℕ) : decimal n = Nat.toDigits 10 n := by
  rw [decimal, Nat.repr_eq_ofList_toDigits, String.toList_ofList]

/-- The zeros in front do not count. -/
theorem zeroPadded_injective (w : ℕ) : Function.Injective (zeroPadded w) := by
  have hvalue : ∀ n, Nat.ofDigitChars 10 (zeroPadded w n) 0 = n := by
    intro n
    rw [zeroPadded, Nat.ofDigitChars_append, Nat.ofDigitChars_replicate_zero, decimal_eq,
      Nat.mul_zero, Nat.ofDigitChars_ten_toDigits]
  intro m n h
  rw [← hvalue m, h, hvalue n]

theorem isDigit_of_mem_zeroPadded {w n : ℕ} {c : Char} (h : c ∈ zeroPadded w n) :
    c.isDigit = true := by
  rcases List.mem_append.1 h with h | h
  · rw [List.eq_of_mem_replicate h]
    rfl
  · rw [decimal_eq] at h
    exact Nat.isDigit_of_mem_toDigits (by omega) (by omega) h

/-- A character that is no digit stands in no padded number. -/
theorem not_mem_zeroPadded {w n : ℕ} {c : Char} (hc : c.isDigit = false) :
    c ∉ zeroPadded w n := by
  intro h
  rw [isDigit_of_mem_zeroPadded h] at hc
  cases hc

/-- A number of at most `w` digits is written with `w` of them. -/
theorem length_zeroPadded {w n : ℕ} (hw : 0 < w) (hn : n < 10 ^ w) :
    (zeroPadded w n).length = w := by
  have hle : (decimal n).length ≤ w := by
    rw [decimal_eq]
    exact (Nat.length_toDigits_le_iff (by omega) hw).2 hn
  rw [zeroPadded, List.length_append, List.length_replicate]
  omega

/-! ### Fractions -/

/-- `trim_end_matches('0')`. -/
def trimZeros (l : List Char) : List Char := l.rdropWhile (· = '0')

/-- Digits of one length are told apart without the zeros at their ends. -/
theorem trimZeros_inj {l l' : List Char} (hlength : l.length = l'.length)
    (h : trimZeros l = trimZeros l') : l = l' := by
  have hzeros : ∀ l : List Char,
      l = trimZeros l ++ List.replicate (l.length - (trimZeros l).length) '0' := by
    intro l
    have hsplit : trimZeros l ++ l.rtakeWhile (fun c : Char => decide (c = '0')) = l :=
      List.rdropWhile_append_rtakeWhile
    have hlen := congrArg List.length hsplit
    rw [List.length_append] at hlen
    have hall : l.rtakeWhile (fun c : Char => decide (c = '0')) =
        List.replicate (l.length - (trimZeros l).length) '0' := by
      refine List.eq_replicate_iff.2 ⟨?_, fun c hc => ?_⟩
      · omega
      · have hzero : decide (c = '0') = true :=
          List.mem_rtakeWhile_imp (p := fun c : Char => decide (c = '0')) hc
        exact of_decide_eq_true hzero
    rw [← hall]
    exact hsplit.symm
  rw [hzeros l, hzeros l', h, hlength]

/-! ### Joined words -/

/-- Words with blanks between them. -/
def joinWords (words : List (List Char)) : List Char := [' '].intercalate words

theorem joinWords_inj {l l' : List (List Char)} (hl : ∀ w ∈ l, ' ' ∉ w) (hl' : ∀ w ∈ l', ' ' ∉ w)
    (hne : l ≠ []) (hne' : l' ≠ []) (h : joinWords l = joinWords l') : l = l' := by
  rw [← List.splitOn_intercalate ' ' hl hne, ← List.splitOn_intercalate ' ' hl' hne']
  exact congrArg _ h

theorem joinWords_singleton (w : List Char) : joinWords [w] = w := List.intercalate_singleton

theorem joinWords_cons {l : List (List Char)} (w : List Char) (h : l ≠ []) :
    joinWords (w :: l) = w ++ ' ' :: joinWords l := by
  rw [joinWords, List.intercalate_cons_of_ne_nil h, List.append_assoc, List.singleton_append,
    joinWords]

theorem joinWords_append {l l' : List (List Char)} (h : l ≠ []) (h' : l' ≠ []) :
    joinWords (l ++ l') = joinWords l ++ ' ' :: joinWords l' := by
  induction l with
  | nil => exact absurd rfl h
  | cons w l ih =>
    by_cases hl : l = []
    · rw [hl, List.singleton_append, joinWords_cons w h', joinWords_singleton]
    · rw [List.cons_append, joinWords_cons w (by simp [hl]), ih hl, joinWords_cons w hl,
        List.append_assoc, List.cons_append]

/-- Groups of words joined to a text are the words of all the groups joined. -/
theorem joinWords_map_joinWords {groups : List (List (List Char))} (h : ∀ g ∈ groups, g ≠ []) :
    joinWords (groups.map joinWords) = joinWords groups.flatten := by
  induction groups with
  | nil => rfl
  | cons g groups ih =>
    obtain ⟨hg, hgroups⟩ := List.forall_mem_cons.1 h
    rw [List.map_cons, List.flatten_cons]
    cases groups with
    | nil => rw [List.map_nil, List.flatten_nil, List.append_nil, joinWords_singleton]
    | cons g' groups =>
      have hrest : (g' :: groups).flatten ≠ [] := by simp [hgroups g' List.mem_cons_self]
      rw [joinWords_append hg hrest, joinWords_cons _ (by simp), ih hgroups]

end TextCode
