import AgentDb.Lib.Words

/-!
# Intervals: `fmt_interval` of `executor/read.rs`

An interval of PostgreSQL is a number of months, of days and of microseconds, and is shown as the
words of those that are not zero. The arithmetic is that of the fixed widths: `abs` has no value
at the least number of an `i32`, where a checked build panics. The day count is the one number
that reaches it; the years and the months left over are quotients, and the microseconds are taken
through `unsigned_abs`.

`fmtInterval_iff` says that this is all: every other interval is shown, and as no other one is.
-/

namespace AgentDb
namespace Executor

open TextCode

/-- `PgInterval`, an `i32`, an `i32` and an `i64`. -/
structure PgInterval where
  months : ℤ
  days : ℤ
  microseconds : ℤ
  months_range : -(2 : ℤ) ^ 31 ≤ months ∧ months < 2 ^ 31
  days_range : -(2 : ℤ) ^ 31 ≤ days ∧ days < 2 ^ 31
  microseconds_range : -(2 : ℤ) ^ 63 ≤ microseconds ∧ microseconds < 2 ^ 63
  deriving DecidableEq

/-- `i32::MIN`. -/
def i32Min : ℤ := -(2 : ℤ) ^ 31

/-- `i32::abs`, which overflows at the least number. -/
def abs32 (n : ℤ) : Option ℤ := if n = i32Min then none else some |n|

/-- `"{n} unit"`, in the singular for one of either sign. -/
def quantity (n : ℤ) (unit : String) : Option (List Char) := do
  let magnitude ← abs32 n
  return signed n ++ ' ' :: (unit ++ if magnitude = 1 then "" else "s").toList

/-- A quantity that is not shown when it is zero. -/
def quantityUnlessZero (n : ℤ) (unit : String) : Option (List (List Char)) :=
  if n ≠ 0 then (quantity n unit).map ([·]) else some []

/-- The time part, from the microseconds. -/
def timeText (microseconds : ℤ) : List Char :=
  let sign := if microseconds < 0 then ['-'] else []
  let total := microseconds.natAbs
  let secs := total / 1000000
  let us := total % 1000000
  let h := secs / 3600
  let m := secs % 3600 / 60
  let s := secs % 60
  let clock := sign ++ zeroPadded 2 h ++ ':' :: zeroPadded 2 m ++ ':' :: zeroPadded 2 s
  if us = 0 then clock else clock ++ '.' :: trimZeros (zeroPadded 6 us)

/-- `fmt_interval`; `none` is an overflow. -/
def fmtInterval (iv : PgInterval) : Option String := do
  let years ← quantityUnlessZero (iv.months.tdiv 12) "year"
  let mons ← quantityUnlessZero (iv.months.tmod 12) "mon"
  let days ← quantityUnlessZero iv.days "day"
  let out := years ++ mons ++ days
  let out := if iv.microseconds ≠ 0 ∨ out = [] then out ++ [timeText iv.microseconds] else out
  return String.ofList (joinWords out)

/-! ### What is computed without an overflow -/

theorem abs32_eq_some {n : ℤ} (h : n ≠ i32Min) : abs32 n = some |n| := if_neg h

/-- The unit of a number. -/
def unitText (n : ℤ) (unit : String) : List Char := (unit ++ if |n| = 1 then "" else "s").toList

/-- The words of a quantity, none for zero. -/
def quantityWords (n : ℤ) (unit : String) : List (List Char) :=
  if n = 0 then [] else [signed n, unitText n unit]

theorem quantityUnlessZero_eq_some {n : ℤ} (h : n ≠ i32Min) (unit : String) :
    ∃ groups : List (List (List Char)), (∀ g ∈ groups, g ≠ []) ∧
      groups.flatten = quantityWords n unit ∧
      quantityUnlessZero n unit = some (groups.map joinWords) := by
  by_cases hn : n = 0
  · refine ⟨[], by simp, ?_, ?_⟩
    · rw [quantityWords, if_pos hn, List.flatten_nil]
    · rw [quantityUnlessZero, if_neg (not_not.2 hn), List.map_nil]
  · refine ⟨[[signed n, unitText n unit]], by simp, ?_, ?_⟩
    · rw [quantityWords, if_neg hn]
      rfl
    · have hjoin : joinWords [signed n, unitText n unit] = signed n ++ ' ' :: unitText n unit := by
        rw [joinWords_cons _ (by simp), joinWords_singleton]
      rw [quantityUnlessZero, if_pos hn, quantity, abs32_eq_some h, List.map_singleton, hjoin]
      rfl

/-- The words of the time part, which stands alone when nothing else does. -/
def timeWords (iv : PgInterval) (out : List (List Char)) : List (List Char) :=
  if iv.microseconds ≠ 0 ∨ out = [] then [timeText iv.microseconds] else []

/-- The words of the months and the days. -/
def dateWords (iv : PgInterval) : List (List Char) :=
  quantityWords (iv.months.tdiv 12) "year" ++
    (quantityWords (iv.months.tmod 12) "mon" ++ quantityWords iv.days "day")

/-- All words of an interval. -/
def intervalWords (iv : PgInterval) : List (List Char) :=
  dateWords iv ++ timeWords iv (dateWords iv)

theorem years_ne (iv : PgInterval) : iv.months.tdiv 12 ≠ i32Min := by
  intro h
  have hrange := iv.months_range
  have hyears : iv.months.natAbs / 12 = 2 ^ 31 :=
    (Int.natAbs_tdiv iv.months 12).symm.trans (congrArg Int.natAbs h)
  omega

theorem mons_ne (iv : PgInterval) : iv.months.tmod 12 ≠ i32Min := by
  intro h
  have hmons : iv.months.natAbs % 12 = 2 ^ 31 :=
    (Int.natAbs_tmod iv.months 12).symm.trans (congrArg Int.natAbs h)
  omega

theorem fmtInterval_eq_some {iv : PgInterval} (h : iv.days ≠ i32Min) :
    fmtInterval iv = some (String.ofList (joinWords (intervalWords iv))) := by
  obtain ⟨years, hyears, hyearWords, hyear⟩ := quantityUnlessZero_eq_some (years_ne iv) "year"
  obtain ⟨mons, hmons, hmonWords, hmon⟩ := quantityUnlessZero_eq_some (mons_ne iv) "mon"
  obtain ⟨days, hdays, hdayWords, hday⟩ := quantityUnlessZero_eq_some h "day"
  obtain ⟨groups, hall⟩ : ∃ groups, groups = years ++ mons ++ days := ⟨_, rfl⟩
  have hgroups : ∀ g ∈ groups, g ≠ [] := by
    rw [hall]
    exact List.forall_mem_append.2 ⟨List.forall_mem_append.2 ⟨hyears, hmons⟩, hdays⟩
  have hflatten : groups.flatten = dateWords iv := by
    rw [hall, dateWords, ← hyearWords, ← hmonWords, ← hdayWords, List.flatten_append,
      List.flatten_append, List.append_assoc]
  have hempty : groups.map joinWords = [] ↔ dateWords iv = [] := by
    rw [← hflatten, List.map_eq_nil_iff]
    constructor
    · intro hnil
      rw [hnil, List.flatten_nil]
    · intro hnil
      by_contra hne
      obtain ⟨g, rest, hcons⟩ := List.exists_cons_of_ne_nil hne
      rw [hcons, List.flatten_cons, List.append_eq_nil_iff] at hnil
      exact hgroups g (hcons ▸ List.mem_cons_self) hnil.1
  have hout : years.map joinWords ++ mons.map joinWords ++ days.map joinWords =
      groups.map joinWords := by
    rw [hall, List.map_append, List.map_append]
  rw [fmtInterval, hyear, hmon, hday]
  simp only [Option.bind_eq_bind, Option.bind_some]
  rw [hout, intervalWords, timeWords]
  by_cases htime : iv.microseconds ≠ 0 ∨ dateWords iv = []
  · have hlast : groups.map joinWords ++ [timeText iv.microseconds] =
        (groups ++ [[timeText iv.microseconds]]).map joinWords := by
      rw [List.map_append, List.map_singleton, joinWords_singleton]
    have hwithTime : ∀ g ∈ groups ++ [[timeText iv.microseconds]], g ≠ [] :=
      List.forall_mem_append.2 ⟨hgroups, by simp⟩
    rw [if_pos (htime.imp_right hempty.2), if_pos htime, hlast,
      joinWords_map_joinWords hwithTime, List.flatten_append, hflatten]
    rfl
  · rw [if_neg fun h => htime (h.imp_right hempty.1), if_neg htime,
      joinWords_map_joinWords hgroups, hflatten, List.append_nil]
    rfl

/-! ### Reading the words back -/

theorem second_quantityWords (n : ℤ) (unit : String) (rest : List (List Char)) :
    (quantityWords n unit ++ rest)[1]? = if n = 0 then rest[1]? else some (unitText n unit) := by
  by_cases hn : n = 0
  · rw [quantityWords, if_pos hn, if_pos hn, List.nil_append]
  · rw [quantityWords, if_neg hn, if_neg hn]
    rfl

/-- A quantity in front is told apart from what comes after it by its unit. -/
theorem quantityWords_append_inj {m n : ℤ} {unit : String} {rest rest' : List (List Char)}
    (hrest : ∀ k, rest[1]? ≠ some (unitText k unit))
    (hrest' : ∀ k, rest'[1]? ≠ some (unitText k unit))
    (h : quantityWords m unit ++ rest = quantityWords n unit ++ rest') : m = n ∧ rest = rest' := by
  have hsecond : (quantityWords m unit ++ rest)[1]? = (quantityWords n unit ++ rest')[1]? := by
    rw [h]
  rw [second_quantityWords, second_quantityWords] at hsecond
  by_cases hm : m = 0
  · by_cases hn : n = 0
    · rw [quantityWords, quantityWords, if_pos hm, if_pos hn] at h
      exact ⟨hm.trans hn.symm, h⟩
    · rw [if_pos hm, if_neg hn] at hsecond
      exact absurd hsecond (hrest n)
  · by_cases hn : n = 0
    · rw [if_neg hm, if_pos hn] at hsecond
      exact absurd hsecond.symm (hrest' m)
    · rw [quantityWords, quantityWords, if_neg hm, if_neg hn] at h
      obtain ⟨hnumber, htail⟩ := List.cons_eq_cons.1 h
      exact ⟨signed_injective hnumber, (List.cons_eq_cons.1 htail).2⟩

/-- Units that begin differently are different, in the singular and in the plural. -/
theorem unitText_ne {unit unit' : String} (h : unit.toList.head? ≠ unit'.toList.head?)
    (hne : unit.toList ≠ []) (hne' : unit'.toList ≠ []) (m n : ℤ) :
    unitText m unit ≠ unitText n unit' := by
  intro heq
  have hhead : ∀ (k : ℤ) (u : String), u.toList ≠ [] → (unitText k u).head? = u.toList.head? := by
    intro k u hu
    rw [unitText, String.toList_append, List.head?_append_of_ne_nil _ hu]
  rw [← hhead m unit hne, heq, hhead n unit' hne'] at h
  exact h rfl

theorem second_timeWords (iv : PgInterval) (out : List (List Char)) :
    (timeWords iv out)[1]? = none := by
  unfold timeWords
  split <;> rfl

theorem dateWords_inj {iv iv' : PgInterval} {rest rest' : List (List Char)}
    (hrest : rest[1]? = none) (hrest' : rest'[1]? = none)
    (h : dateWords iv ++ rest = dateWords iv' ++ rest') :
    iv.months = iv'.months ∧ iv.days = iv'.days ∧ rest = rest' := by
  have hday : ∀ (d : ℤ) (k : ℤ) (u : String) (l : List (List Char)), l[1]? = none →
      u.toList ≠ [] → "day".toList.head? ≠ u.toList.head? →
      (quantityWords d "day" ++ l)[1]? ≠ some (unitText k u) := by
    intro d k u l hl hne hu
    rw [second_quantityWords, hl]
    split
    · simp
    · exact fun heq => unitText_ne hu (by decide) hne d k (Option.some.inj heq)
  have hmon : ∀ (m d : ℤ) (k : ℤ) (l : List (List Char)), l[1]? = none →
      (quantityWords m "mon" ++ (quantityWords d "day" ++ l))[1]? ≠ some (unitText k "year") := by
    intro m d k l hl
    rw [second_quantityWords]
    split
    · exact hday d k "year" l hl (by decide) (by decide)
    · exact fun heq => unitText_ne (by decide) (by decide) (by decide) m k (Option.some.inj heq)
  rw [dateWords, dateWords, List.append_assoc, List.append_assoc, List.append_assoc,
    List.append_assoc] at h
  obtain ⟨hyears, h⟩ := quantityWords_append_inj (fun k => hmon _ _ k _ hrest)
    (fun k => hmon _ _ k _ hrest') h
  obtain ⟨hmons, h⟩ := quantityWords_append_inj
    (fun k => hday _ k "mon" _ hrest (by decide) (by decide))
    (fun k => hday _ k "mon" _ hrest' (by decide) (by decide)) h
  have hno : ∀ (k : ℤ) (rest : List (List Char)), rest[1]? = none →
      rest[1]? ≠ some (unitText k "day") := by
    intro k rest hnone hsome
    rw [hnone] at hsome
    cases hsome
  obtain ⟨hdays, h⟩ := quantityWords_append_inj (fun k => hno k _ hrest) (fun k => hno k _ hrest') h
  refine ⟨?_, hdays, h⟩
  rw [← Int.mul_tdiv_add_tmod iv.months 12, hyears, hmons, Int.mul_tdiv_add_tmod]

/-- The clock without its sign, of a number of microseconds. -/
def clockText (total : ℕ) : List Char :=
  zeroPadded 2 (total / 1000000 / 3600) ++ ':' :: zeroPadded 2 (total / 1000000 % 3600 / 60) ++
    ':' :: (zeroPadded 2 (total / 1000000 % 60) ++
      if total % 1000000 = 0 then [] else '.' :: trimZeros (zeroPadded 6 (total % 1000000)))

theorem timeText_eq (us : ℤ) :
    timeText us = if us < 0 then '-' :: clockText us.natAbs else clockText us.natAbs := by
  have hsplit : timeText us = (if us < 0 then ['-'] else []) ++ clockText us.natAbs := by
    unfold timeText clockText
    dsimp only
    by_cases h : us.natAbs % 1000000 = 0
    · rw [if_pos h, if_pos h, List.append_nil]
      simp only [List.append_assoc, List.cons_append]
    · rw [if_neg h, if_neg h]
      simp only [List.append_assoc, List.cons_append]
  rw [hsplit]
  by_cases h : us < 0
  · rw [if_pos h, if_pos h, List.singleton_append]
  · rw [if_neg h, if_neg h, List.nil_append]

theorem fraction_inj {m n : ℕ} (hm : m < 1000000) (hn : n < 1000000)
    (h : (if m = 0 then [] else '.' :: trimZeros (zeroPadded 6 m)) =
      if n = 0 then [] else '.' :: trimZeros (zeroPadded 6 n)) : m = n := by
  by_cases hm0 : m = 0
  · by_cases hn0 : n = 0
    · rw [hm0, hn0]
    · rw [if_pos hm0, if_neg hn0] at h
      cases h
  · by_cases hn0 : n = 0
    · rw [if_neg hm0, if_pos hn0] at h
      cases h
    · rw [if_neg hm0, if_neg hn0] at h
      have hlength : (zeroPadded 6 m).length = (zeroPadded 6 n).length := by
        rw [length_zeroPadded (by decide) hm, length_zeroPadded (by decide) hn]
      exact zeroPadded_injective 6 (trimZeros_inj hlength (List.cons_eq_cons.1 h).2)

theorem clockText_injective : Function.Injective clockText := by
  intro m n h
  rw [clockText, clockText, List.append_assoc, List.append_assoc, List.cons_append,
    List.cons_append] at h
  obtain ⟨hhours, h⟩ := append_cons_inj_of_not_mem (not_mem_zeroPadded rfl)
    (not_mem_zeroPadded rfl) h
  obtain ⟨hminutes, h⟩ := append_cons_inj_of_not_mem (not_mem_zeroPadded rfl)
    (not_mem_zeroPadded rfl) h
  have hlength : ∀ k : ℕ, (zeroPadded 2 (k % 60)).length = 2 := by
    intro k
    have hk : k % 60 < 10 ^ 2 := by omega
    exact length_zeroPadded (by decide) hk
  obtain ⟨hseconds, hfraction⟩ := List.append_inj h (by rw [hlength, hlength])
  have hh := zeroPadded_injective 2 hhours
  have hm := zeroPadded_injective 2 hminutes
  have hs := zeroPadded_injective 2 hseconds
  have hf := fraction_inj (Nat.mod_lt _ (by decide)) (Nat.mod_lt _ (by decide)) hfraction
  omega

theorem not_mem_clockText {c : Char} (hdigit : c.isDigit = false) (hcolon : c ≠ ':')
    (hdot : c ≠ '.') (total : ℕ) : c ∉ clockText total := by
  have hfraction : c ∉ trimZeros (zeroPadded 6 (total % 1000000)) := fun h =>
    not_mem_zeroPadded hdigit ((List.rdropWhile_prefix _ _).subset h)
  simp only [clockText, List.mem_append, List.mem_cons, not_or]
  refine ⟨⟨not_mem_zeroPadded hdigit, hcolon, not_mem_zeroPadded hdigit⟩, hcolon,
    not_mem_zeroPadded hdigit, ?_⟩
  split
  · simp
  · simpa [hdot] using hfraction

theorem timeText_injective : Function.Injective timeText := by
  intro us us' h
  rw [timeText_eq, timeText_eq] at h
  have hsign : ∀ m n : ℕ, '-' :: clockText m ≠ clockText n := by
    intro m n heq
    refine not_mem_clockText (c := '-') rfl (by decide) (by decide) n ?_
    rw [← heq]
    exact List.mem_cons_self
  by_cases hneg : us < 0
  · by_cases hneg' : us' < 0
    · rw [if_pos hneg, if_pos hneg'] at h
      have htotal := clockText_injective (List.cons_eq_cons.1 h).2
      omega
    · rw [if_pos hneg, if_neg hneg'] at h
      exact absurd h (hsign _ _)
  · by_cases hneg' : us' < 0
    · rw [if_neg hneg, if_pos hneg'] at h
      exact absurd h.symm (hsign _ _)
    · rw [if_neg hneg, if_neg hneg'] at h
      have htotal := clockText_injective h
      omega

/-! ### What is shown -/

theorem quantityWords_no_blank {n : ℤ} {unit : String} (h : ' ' ∉ unit.toList) :
    ∀ w ∈ quantityWords n unit, ' ' ∉ w := by
  have hsigned : ' ' ∉ signed n := by
    rw [signed]
    have hdecimal : ' ' ∉ decimal n.natAbs := by
      rw [decimal_eq]
      exact fun hmem => absurd (Nat.isDigit_of_mem_toDigits (by omega) (by omega) hmem) (by decide)
    split
    · simpa using hdecimal
    · exact hdecimal
  have hunit : ' ' ∉ unitText n unit := by
    rw [unitText, String.toList_append, List.mem_append, not_or]
    refine ⟨h, ?_⟩
    split <;> decide
  intro w hw
  by_cases hn : n = 0
  · rw [quantityWords, if_pos hn] at hw
    cases hw
  · rw [quantityWords, if_neg hn] at hw
    rcases List.mem_pair.1 hw with rfl | rfl
    exacts [hsigned, hunit]

theorem blank_not_mem_timeText (us : ℤ) : ' ' ∉ timeText us := by
  have hclock : ' ' ∉ clockText us.natAbs :=
    not_mem_clockText rfl (by decide) (by decide) _
  rw [timeText_eq]
  split
  · simpa using hclock
  · exact hclock

theorem intervalWords_no_blank (iv : PgInterval) : ∀ w ∈ intervalWords iv, ' ' ∉ w := by
  refine List.forall_mem_append.2 ⟨List.forall_mem_append.2 ⟨?_, List.forall_mem_append.2 ⟨?_, ?_⟩⟩,
    ?_⟩
  · exact quantityWords_no_blank (by decide)
  · exact quantityWords_no_blank (by decide)
  · exact quantityWords_no_blank (by decide)
  · intro w hw
    unfold timeWords at hw
    split at hw
    · rw [List.mem_singleton.1 hw]
      exact blank_not_mem_timeText _
    · cases hw

theorem intervalWords_ne_nil (iv : PgInterval) : intervalWords iv ≠ [] := by
  intro h
  obtain ⟨hdate, htime⟩ := List.append_eq_nil_iff.1 h
  rw [timeWords, if_pos (.inr hdate)] at htime
  cases htime

/-- The words determine the interval. -/
theorem intervalWords_injective : Function.Injective intervalWords := by
  intro iv iv' h
  obtain ⟨hmonths, hdays, htime⟩ := dateWords_inj (second_timeWords _ _) (second_timeWords _ _) h
  have hdate : dateWords iv = dateWords iv' := by
    rw [dateWords, dateWords, hmonths, hdays]
  have hmicroseconds : iv.microseconds = iv'.microseconds := by
    rw [hdate] at htime
    by_cases hempty : dateWords iv' = []
    · rw [timeWords, timeWords, if_pos (.inr hempty), if_pos (.inr hempty)] at htime
      exact timeText_injective (List.cons_eq_cons.1 htime).1
    · by_cases hus : iv.microseconds = 0
      · by_cases hus' : iv'.microseconds = 0
        · rw [hus, hus']
        · rw [timeWords, timeWords, if_neg (by simp [hus, hempty]), if_pos (.inl hus')] at htime
          cases htime
      · by_cases hus' : iv'.microseconds = 0
        · rw [timeWords, timeWords, if_pos (.inl hus), if_neg (by simp [hus', hempty])] at htime
          cases htime
        · rw [timeWords, timeWords, if_pos (.inl hus), if_pos (.inl hus')] at htime
          exact timeText_injective (List.cons_eq_cons.1 htime).1
  cases iv
  cases iv'
  simp_all

/-- The least day count has no absolute value. -/
theorem fmtInterval_eq_none {iv : PgInterval} (h : iv.days = i32Min) : fmtInterval iv = none := by
  have hdays : quantityUnlessZero iv.days "day" = none := by
    rw [quantityUnlessZero, if_pos (by rw [h]; decide), quantity, abs32, if_pos h]
    rfl
  have hbind : ∀ {α β : Type} (m : Option α), (m.bind fun _ => (none : Option β)) = none := by
    intro α β m
    cases m <;> rfl
  rw [fmtInterval, hdays]
  simp only [Option.bind_eq_bind, Option.bind_none, hbind]

/-- **An interval is shown, and as no other one is, exactly when its day count is not the least
`i32`.** -/
theorem fmtInterval_iff (iv : PgInterval) :
    (∃ text, fmtInterval iv = some text ∧ ∀ iv', fmtInterval iv' = some text → iv' = iv) ↔
      iv.days ≠ i32Min := by
  constructor
  · rintro ⟨text, htext, -⟩ hdays
    rw [fmtInterval_eq_none hdays] at htext
    cases htext
  · intro hdays
    refine ⟨_, fmtInterval_eq_some hdays, fun iv' h => ?_⟩
    have hdays' : iv'.days ≠ i32Min := by
      intro hmin
      rw [fmtInterval_eq_none hmin] at h
      cases h
    rw [fmtInterval_eq_some hdays'] at h
    exact intervalWords_injective (joinWords_inj (intervalWords_no_blank _)
      (intervalWords_no_blank _) (intervalWords_ne_nil _) (intervalWords_ne_nil _)
      (String.ofList_inj.1 (Option.some.inj h)))

/-- An interval of the least number of days, which PostgreSQL has. -/
def leastDays : PgInterval :=
  ⟨0, i32Min, 0, by decide, by decide, by decide⟩

theorem fmtInterval_leastDays : ¬ ∀ iv : PgInterval,
    ∃ text, fmtInterval iv = some text ∧ ∀ iv', fmtInterval iv' = some text → iv' = iv := by
  intro h
  obtain ⟨text, htext, -⟩ := h leastDays
  cases htext

end Executor
end AgentDb
