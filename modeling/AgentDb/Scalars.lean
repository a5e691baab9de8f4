import AgentDb.Lib.TextCode

/-!
# Identifiers, instants and blank texts

The scalar types the records are made of: `Uuid` with its hyphenated text, `DateTime` (a UTC
instant as its civil date and time) with the two texts `chrono` prints for it, and Rust's notion
of a blank string. The texts are what the database stores and
what the hashes are taken of, so each is shown to determine its value.
-/

namespace AgentDb

open TextCode

/-! ### UUIDs -/

/-- A UUID: sixteen bytes. -/
structure Uuid where
  bytes : Vector UInt8 16
  deriving DecidableEq

/-- The nil UUID with its last byte replaced. -/
def Uuid.ofByte (b : UInt8) : Uuid := ⟨(Vector.replicate 16 0).set 15 b⟩

def Uuid.digits (u : Uuid) : List Char := hex u.bytes.toList

/-- The hyphenated lowercase text of a UUID. -/
def Uuid.toText (u : Uuid) : String :=
  String.ofList (u.digits.take 8 ++ '-' :: (u.digits.drop 8).take 4 ++
    '-' :: (u.digits.drop 12).take 4 ++ '-' :: (u.digits.drop 16).take 4 ++ '-' :: u.digits.drop 20)

theorem Uuid.toText_injective : Function.Injective Uuid.toText := by
  intro a b h
  have hlen : ∀ u : Uuid, (digits u).length = 32 := fun u => by simp [digits]
  have ha := hlen a
  have hb := hlen b
  simp only [toText, String.ofList_inj, List.append_assoc, List.cons_append] at h
  -- the hyphens stand at fixed places, so the five groups agree one by one
  obtain ⟨h1, h⟩ := List.append_inj h (by simp [ha, hb])
  obtain ⟨h2, h⟩ := List.append_inj (List.cons_eq_cons.1 h).2 (by simp [ha, hb])
  obtain ⟨h3, h⟩ := List.append_inj (List.cons_eq_cons.1 h).2 (by simp [ha, hb])
  obtain ⟨h4, h⟩ := List.append_inj (List.cons_eq_cons.1 h).2 (by simp [ha, hb])
  have h5 := (List.cons_eq_cons.1 h).2
  have group : ∀ i j, (digits a |>.drop i).take j = (digits b |>.drop i).take j →
      (digits a).drop (i + j) = (digits b).drop (i + j) →
      (digits a).drop i = (digits b).drop i := fun i j htake hdrop => by
    rw [← List.take_append_drop j ((digits a).drop i),
      ← List.take_append_drop j ((digits b).drop i), List.drop_drop, List.drop_drop, htake, hdrop]
  have hdigits : digits a = digits b :=
    group 0 8 h1 (group 8 4 h2 (group 12 4 h3 (group 16 4 h4 h5)))
  cases a
  cases b
  exact congrArg Uuid.mk (Vector.toList_inj.1 (hex_injective hdigits))

/-! ### Instants -/

/-- A UTC instant as its civil date and time. Second `60` is a leap second. -/
structure DateTime where
  year : ℤ
  month : ℕ
  day : ℕ
  hour : ℕ
  minute : ℕ
  second : ℕ
  nano : ℕ
  month_le : month ≤ 12
  day_le : day ≤ 31
  hour_lt : hour < 24
  minute_lt : minute < 60
  second_le : second ≤ 60
  nano_lt : nano < 10 ^ 9
  deriving DecidableEq

namespace DateTime

/-- The position of an instant in the order of instants. -/
def instant (t : DateTime) : ℤ :=
  (((((t.year * 100 + t.month) * 100 + t.day) * 100 + t.hour) * 100 + t.minute) * 100 + t.second) *
    10 ^ 9 + t.nano

instance : LE DateTime := ⟨fun a b => a.instant ≤ b.instant⟩
instance : LT DateTime := ⟨fun a b => a.instant < b.instant⟩
instance (a b : DateTime) : Decidable (a ≤ b) := inferInstanceAs (Decidable (_ ≤ _))
instance (a b : DateTime) : Decidable (a < b) := inferInstanceAs (Decidable (_ < _))

/-- So that the days below are numerals. -/
instance neZero_days : NeZero 32 := ⟨by decide⟩

/-- Midnight of the `d`-th of January 2026. -/
def ofDay (d : Fin 32) : DateTime where
  year := 2026
  month := 1
  day := d
  hour := 0
  minute := 0
  second := 0
  nano := 0
  month_le := by norm_num
  day_le := by omega
  hour_lt := by norm_num
  minute_lt := by norm_num
  second_le := by norm_num
  nano_lt := by norm_num

/-- The digits of a year outside `0..=9999`, at least four. -/
def yearDigits (n : ℕ) : List Char :=
  List.replicate (4 - (decimal n).length) '0' ++ decimal n

/-- The year as `chrono` writes it: four digits, or an explicit sign and the digits. -/
def yearText (y : ℤ) : List Char :=
  if 0 ≤ y ∧ y < 10 ^ 4 then pad 4 y.toNat
  else (if y < 0 then '-' else '+') :: yearDigits y.natAbs

/-- The date and time up to the second: `YYYY-MM-DDTHH:MM:SS`. -/
def civil (t : DateTime) : List Char :=
  yearText t.year ++ '-' :: pad 2 t.month ++ '-' :: pad 2 t.day ++ 'T' :: pad 2 t.hour ++
    ':' :: pad 2 t.minute ++ ':' :: pad 2 t.second

/-- `to_rfc3339_opts(SecondsFormat::Nanos, true)`, which `repository.rs` calls `timestamp`. -/
def timestamp (t : DateTime) : String :=
  String.ofList (t.civil ++ '.' :: pad 9 t.nano ++ ['Z'])

/-- The fraction `to_rfc3339` prints: none, or 3, 6 or 9 digits, as many as needed. -/
def fraction (n : ℕ) : List Char :=
  if n = 0 then []
  else if n % 10 ^ 6 = 0 then '.' :: pad 3 (n / 10 ^ 6)
  else if n % 10 ^ 3 = 0 then '.' :: pad 6 (n / 10 ^ 3)
  else '.' :: pad 9 n

/-- `to_rfc3339` of a UTC instant. -/
def toRfc3339 (t : DateTime) : String :=
  String.ofList (t.civil ++ fraction t.nano ++ "+00:00".toList)

theorem yearDigits_injective : Function.Injective yearDigits := by
  have hvalue : ∀ n, Nat.ofDigitChars 10 (yearDigits n) 0 = n := by
    intro n
    rw [yearDigits, Nat.ofDigitChars_append, Nat.ofDigitChars_replicate_zero, mul_zero, decimal,
      Nat.repr_eq_ofList_toDigits, String.toList_ofList, Nat.ofDigitChars_ten_toDigits]
  intro m n h
  rw [← hvalue m, ← hvalue n, h]

theorem hyphen_not_mem_yearDigits (n : ℕ) : '-' ∉ yearDigits n := by
  intro h
  rcases List.mem_append.1 h with h | h
  · exact absurd (List.eq_of_mem_replicate h) (by decide)
  · exact hyphen_not_mem_decimal n h

/-- A year can be read off the front of a text, up to the hyphen after it. -/
theorem yearText_append_inj {a b : ℤ} {x y : List Char}
    (h : yearText a ++ '-' :: x = yearText b ++ '-' :: y) : a = b ∧ x = y := by
  -- four digits never start like a sign
  have hdigit : ∀ (n : ℕ) (c : Char) (x y : List Char), c = '-' ∨ c = '+' →
      pad 4 n ++ x ≠ c :: y := by
    intro n c x y hc hpad
    obtain ⟨d, ds, hds⟩ := List.exists_cons_of_length_pos (l := pad 4 n) (by simp)
    rw [hds, List.cons_append] at hpad
    obtain ⟨e, he, hdigit⟩ := digitChar_mem_pad (w := 4) (n := n) (c := d)
      (by rw [hds]; exact List.mem_cons_self)
    have key : ∀ e : Fin 10, Nat.digitChar e ≠ '-' ∧ Nat.digitChar e ≠ '+' := by decide
    rw [(List.cons_eq_cons.1 hpad).1] at hdigit
    rcases hc with rfl | rfl
    · exact (key ⟨e, he⟩).1 hdigit.symm
    · exact (key ⟨e, he⟩).2 hdigit.symm
  have hsign : ∀ y : ℤ, (if y < 0 then '-' else '+') = '-' ∨
      (if y < 0 then '-' else '+') = '+' := fun y => by
    split_ifs <;> simp
  unfold yearText at h
  by_cases ha : 0 ≤ a ∧ a < 10 ^ 4 <;> by_cases hb : 0 ≤ b ∧ b < 10 ^ 4
  · rw [if_pos ha, if_pos hb] at h
    obtain ⟨hyear, hrest⟩ := List.append_inj h (by simp)
    have := pad_inj (by omega) (by omega) hyear
    exact ⟨by omega, (List.cons_eq_cons.1 hrest).2⟩
  · rw [if_pos ha, if_neg hb, List.cons_append] at h
    exact absurd h (hdigit _ _ _ _ (hsign b))
  · rw [if_neg ha, if_pos hb, List.cons_append] at h
    exact absurd h.symm (hdigit _ _ _ _ (hsign a))
  · rw [if_neg ha, if_neg hb, List.cons_append, List.cons_append, List.cons_eq_cons] at h
    obtain ⟨hchar, h⟩ := h
    obtain ⟨hyear, hrest⟩ := append_cons_inj_of_not_mem (hyphen_not_mem_yearDigits _)
      (hyphen_not_mem_yearDigits _) h
    have habs := yearDigits_injective hyear
    refine ⟨?_, hrest⟩
    by_cases hneg : a < 0 <;> by_cases hneg' : b < 0
    · omega
    · rw [if_pos hneg, if_neg hneg'] at hchar
      exact absurd hchar (by decide)
    · rw [if_neg hneg, if_pos hneg'] at hchar
      exact absurd hchar (by decide)
    · omega

/-- A date and time can be read off the front of a text. -/
theorem civil_append_inj {s t : DateTime} {x y : List Char} (h : s.civil ++ x = t.civil ++ y) :
    (s.nano = t.nano → s = t) ∧ x = y := by
  simp only [civil, List.append_assoc, List.cons_append] at h
  obtain ⟨e1, h⟩ := yearText_append_inj h
  obtain ⟨h2, h⟩ := List.append_inj h (by simp)
  obtain ⟨h3, h⟩ := List.append_inj (List.cons_eq_cons.1 h).2 (by simp)
  obtain ⟨h4, h⟩ := List.append_inj (List.cons_eq_cons.1 h).2 (by simp)
  obtain ⟨h5, h⟩ := List.append_inj (List.cons_eq_cons.1 h).2 (by simp)
  obtain ⟨h6, h⟩ := List.append_inj (List.cons_eq_cons.1 h).2 (by simp)
  have two : ∀ {m n : ℕ}, m ≤ 60 → n ≤ 60 → pad 2 m = pad 2 n → m = n := fun hm hn =>
    pad_inj (by omega) (by omega)
  have e2 := two (s.month_le.trans (by omega)) (t.month_le.trans (by omega)) h2
  have e3 := two (s.day_le.trans (by omega)) (t.day_le.trans (by omega)) h3
  have e4 := two (s.hour_lt.le.trans (by omega)) (t.hour_lt.le.trans (by omega)) h4
  have e5 := two s.minute_lt.le t.minute_lt.le h5
  have e6 := two s.second_le t.second_le h6
  refine ⟨fun hn => ?_, h⟩
  cases s
  cases t
  simp_all

theorem fraction_inj {m n : ℕ} (hm : m < 10 ^ 9) (hn : n < 10 ^ 9)
    (h : fraction m = fraction n) : m = n := by
  -- the number of digits printed tells which of the four forms was used
  have hlen := congrArg List.length h
  unfold fraction at h hlen
  split_ifs at h hlen with h1 h2 h3 h4 h5 h6 h7 h8 <;>
    simp only [List.length_nil, List.length_cons, length_pad, List.cons.injEq, true_and] at h hlen
  any_goals omega
  · have := pad_inj (by omega) (by omega) h
    omega
  · have := pad_inj (by omega) (by omega) h
    omega
  · exact pad_inj hm hn h

theorem toRfc3339_injective : Function.Injective toRfc3339 := by
  intro s t h
  simp only [toRfc3339, String.ofList_inj, List.append_assoc] at h
  obtain ⟨hext, hfraction⟩ := civil_append_inj h
  exact hext (fraction_inj s.nano_lt t.nano_lt (List.append_cancel_right hfraction))

/-- What `serde` writes for a UTC instant: `to_rfc3339_opts(SecondsFormat::AutoSi, true)`. -/
def wireText (t : DateTime) : String := String.ofList (t.civil ++ fraction t.nano ++ ['Z'])

theorem wireText_injective : Function.Injective wireText := by
  intro s t h
  simp only [wireText, String.ofList_inj, List.append_assoc] at h
  obtain ⟨hext, hfraction⟩ := civil_append_inj h
  exact hext (fraction_inj s.nano_lt t.nano_lt (List.append_cancel_right hfraction))

end DateTime

/-! ### Blank texts -/

/-- The Unicode white space Rust's `str::trim` removes. -/
def isWhitespace (c : Char) : Bool :=
  let n := c.toNat
  (9 ≤ n && n ≤ 13) || n == 0x20 || n == 0x85 || n == 0xA0 || n == 0x1680 ||
    (0x2000 ≤ n && n ≤ 0x200A) || n == 0x2028 || n == 0x2029 || n == 0x202F || n == 0x205F ||
    n == 0x3000

/-- `s.trim().is_empty()`. -/
def isBlank (s : String) : Bool := s.toList.all isWhitespace

end AgentDb
