import Mathlib

/-!
# Codes of numbers, bytes and fields as text

Fixed-width decimals (`pad`), hexadecimal bytes (`hex`) and length-prefixed fields (`field`,
`fields`), as lists of characters, each with the lemma that it can be read back: `pad_inj`,
`hex_injective`, `field_append_inj` and `fields_injective`. A length prefix counts the UTF-8
bytes of the field, so the last two need that a text is determined by its byte length inside a
longer one (`append_inj_of_byteLength`).
-/

namespace TextCode

/-! ### Digits -/

theorem digitChar_inj {a b : ℕ} (ha : a < 16) (hb : b < 16)
    (h : Nat.digitChar a = Nat.digitChar b) : a = b := by
  have key : ∀ a b : Fin 16, Nat.digitChar a = Nat.digitChar b → a = b := by decide
  exact congrArg Fin.val (key ⟨a, ha⟩ ⟨b, hb⟩ h)

/-- The last `w` decimal digits of `n`. -/
def pad : ℕ → ℕ → List Char
  | 0, _ => []
  | w + 1, n => pad w (n / 10) ++ [Nat.digitChar (n % 10)]

@[simp] theorem length_pad (w n : ℕ) : (pad w n).length = w := by
  induction w generalizing n with
  | zero => rfl
  | succ w ih => simp [pad, ih]

theorem pad_inj {w m n : ℕ} (hm : m < 10 ^ w) (hn : n < 10 ^ w) (h : pad w m = pad w n) :
    m = n := by
  induction w generalizing m n with
  | zero => omega
  | succ w ih =>
    obtain ⟨hhigh, hlow⟩ := List.append_inj h (by simp)
    have hdiv : m / 10 = n / 10 := by
      rw [pow_succ] at hm hn
      exact ih (by omega) (by omega) hhigh
    have hmod : m % 10 = n % 10 :=
      digitChar_inj (by omega) (by omega) (List.cons_eq_cons.1 hlow).1
    omega

theorem digitChar_mem_pad {w n : ℕ} {c : Char} (h : c ∈ pad w n) :
    ∃ d < 10, c = Nat.digitChar d := by
  induction w generalizing n with
  | zero => cases h
  | succ w ih =>
    rcases List.mem_append.1 h with h | h
    · exact ih h
    · exact ⟨n % 10, by omega, List.mem_singleton.1 h⟩

/-- The lowercase hexadecimal digits of a byte string. -/
def hex (bytes : List UInt8) : List Char :=
  bytes.flatMap fun byte =>
    [Nat.digitChar (byte.toNat / 16), Nat.digitChar (byte.toNat % 16)]

@[simp] theorem length_hex (bytes : List UInt8) : (hex bytes).length = 2 * bytes.length := by
  induction bytes with
  | nil => rfl
  | cons b bs ih =>
    rw [hex, List.flatMap_cons, List.length_append, ← hex, ih]
    simp only [List.length_cons, List.length_nil]
    omega

theorem hex_injective : Function.Injective hex := by
  intro a
  induction a with
  | nil =>
    intro b h
    have := congrArg List.length h
    simp only [length_hex, List.length_nil] at this
    exact (List.eq_nil_of_length_eq_zero (by omega)).symm
  | cons x a ih =>
    intro b h
    cases b with
    | nil => simp [hex] at h
    | cons y b =>
      simp only [hex, List.flatMap_cons, List.cons_append, List.nil_append,
        List.cons.injEq] at h
      obtain ⟨h1, h2, h3⟩ := h
      have hx := x.toNat_lt
      have hy := y.toNat_lt
      have hhigh := digitChar_inj (by omega) (by omega) h1
      have hlow := digitChar_inj (by omega) (by omega) h2
      rw [UInt8.toNat_inj.1 (by omega : x.toNat = y.toNat), ih h3]

theorem digitChar_mem_hex {bytes : List UInt8} {c : Char} (h : c ∈ hex bytes) :
    ∃ d < 16, c = Nat.digitChar d := by
  obtain ⟨b, -, hb⟩ := List.mem_flatMap.1 h
  have := b.toNat_lt
  rcases List.mem_cons.1 hb with rfl | hb
  · exact ⟨_, by omega, rfl⟩
  · exact ⟨_, by omega, List.mem_singleton.1 hb⟩

/-! ### Bytes -/

/-- The UTF-8 bytes of a text. -/
def utf8 (s : String) : List UInt8 := s.toList.flatMap String.utf8EncodeChar

theorem utf8EncodeChar_ne_nil (c : Char) : String.utf8EncodeChar c ≠ [] := by
  intro h
  have := congrArg List.length h
  rw [String.length_utf8EncodeChar] at this
  have := c.utf8Size_pos
  simp_all

theorem utf8_eq_nil {s : String} : utf8 s = [] ↔ s = "" := by
  constructor
  · intro h
    rw [utf8, List.flatMap_eq_nil_iff] at h
    rw [← String.toList_inj]
    exact List.eq_nil_iff_forall_not_mem.2 fun c hc => utf8EncodeChar_ne_nil c (h c hc)
  · rintro rfl
    rfl

theorem utf8_append (s t : String) : utf8 (s ++ t) = utf8 s ++ utf8 t := by
  simp [utf8]

theorem utf8_injective : Function.Injective utf8 := by
  intro s t h
  have h' : s.toList.utf8Encode = t.toList.utf8Encode := congrArg List.toByteArray h
  rwa [String.utf8Encode_toList, String.utf8Encode_toList, String.toByteArray_inj] at h'

theorem mk_utf8 (s : String) : (⟨(utf8 s).toArray⟩ : ByteArray) = s.toByteArray := by
  rw [← String.utf8Encode_toList]
  exact ByteArray.ext List.data_toByteArray.symm

theorem fromUTF8?_utf8 (s : String) : String.fromUTF8? ⟨(utf8 s).toArray⟩ = some s := by
  rw [mk_utf8, String.fromUTF8?, dif_pos s.isValidUTF8]
  rfl

/-- A text at the start of a longer one is determined by the number of its UTF-8 bytes. -/
theorem append_inj_of_byteLength {s t x y : List Char} (h : s ++ x = t ++ y)
    (hlen : (s.flatMap String.utf8EncodeChar).length =
      (t.flatMap String.utf8EncodeChar).length) : s = t ∧ x = y := by
  induction s generalizing t with
  | nil =>
    cases t with
    | nil => exact ⟨rfl, h⟩
    | cons c t =>
      simp only [List.flatMap_nil, List.length_nil, List.flatMap_cons, List.length_append] at hlen
      exact absurd (List.eq_nil_of_length_eq_zero (by omega)) (utf8EncodeChar_ne_nil c)
  | cons d s ih =>
    cases t with
    | nil =>
      simp only [List.flatMap_nil, List.length_nil, List.flatMap_cons, List.length_append] at hlen
      exact absurd (List.eq_nil_of_length_eq_zero (by omega)) (utf8EncodeChar_ne_nil d)
    | cons c t =>
      obtain ⟨rfl, htail⟩ := List.cons_eq_cons.1 h
      simp only [List.flatMap_cons, List.length_append, add_right_inj] at hlen
      obtain ⟨rfl, hxy⟩ := ih htail hlen
      exact ⟨rfl, hxy⟩

/-! ### Length-prefixed fields -/

/-- Rust's `usize::to_string`. -/
def decimal (n : ℕ) : List Char := (Nat.repr n).toList

theorem decimal_injective : Function.Injective decimal := fun _ _ h =>
  Nat.repr_injective (String.toList_inj.1 h)

theorem colon_not_mem_decimal (n : ℕ) : ':' ∉ decimal n := by
  rw [decimal, Nat.repr_eq_ofList_toDigits, String.toList_ofList]
  intro h
  exact absurd (Nat.isDigit_of_mem_toDigits (by omega) (by omega) h) (by decide)

/-- Rust's `i64::to_string`. -/
def signed (n : ℤ) : List Char :=
  if n < 0 then '-' :: decimal n.natAbs else decimal n.natAbs

theorem hyphen_not_mem_decimal (n : ℕ) : '-' ∉ decimal n := by
  rw [decimal, Nat.repr_eq_ofList_toDigits, String.toList_ofList]
  intro h
  exact absurd (Nat.isDigit_of_mem_toDigits (by omega) (by omega) h) (by decide)

theorem signed_ne_nil (n : ℤ) : signed n ≠ [] := by
  unfold signed
  split_ifs
  · simp
  · rw [decimal, Nat.repr_eq_ofList_toDigits, String.toList_ofList]
    exact Nat.toDigits_ne_nil

theorem signed_injective : Function.Injective signed := by
  -- only a negative number has a hyphen in front
  have hsign : ∀ (n : ℕ) (s : List Char), '-' :: s ≠ decimal n := by
    intro n s h
    exact hyphen_not_mem_decimal n (h ▸ List.mem_cons_self)
  intro m n h
  unfold signed at h
  split_ifs at h with hm hn hn
  · have := decimal_injective (List.cons_eq_cons.1 h).2
    omega
  · exact absurd h (hsign _ _)
  · exact absurd h.symm (hsign _ _)
  · have := decimal_injective h
    omega

theorem append_cons_inj_of_not_mem {α : Type*} {a : α} {s t x y : List α} (hs : a ∉ s)
    (ht : a ∉ t) (h : s ++ a :: x = t ++ a :: y) : s = t ∧ x = y := by
  induction s generalizing t with
  | nil =>
    cases t with
    | nil => exact ⟨rfl, (List.cons_eq_cons.1 h).2⟩
    | cons b t =>
      obtain ⟨rfl, -⟩ := List.cons_eq_cons.1 h
      exact absurd List.mem_cons_self ht
  | cons b s ih =>
    cases t with
    | nil =>
      obtain ⟨rfl, -⟩ := List.cons_eq_cons.1 h
      exact absurd List.mem_cons_self hs
    | cons c t =>
      obtain ⟨rfl, htail⟩ := List.cons_eq_cons.1 h
      obtain ⟨rfl, hxy⟩ := ih (List.not_mem_of_not_mem_cons hs)
        (List.not_mem_of_not_mem_cons ht) htail
      exact ⟨rfl, hxy⟩

/-- One field with its byte length in front: `<byte-len>:<field>`. -/
def field (s : String) : List Char := decimal (utf8 s).length ++ ':' :: s.toList

/-- A length-prefixed field can be read off the front of a text. -/
theorem field_append_inj {s t : String} {x y : List Char}
    (h : field s ++ x = field t ++ y) : s = t ∧ x = y := by
  simp only [field, List.append_assoc, List.cons_append] at h
  obtain ⟨hlen, h⟩ := append_cons_inj_of_not_mem (colon_not_mem_decimal _)
    (colon_not_mem_decimal _) h
  obtain ⟨hst, hxy⟩ := append_inj_of_byteLength h (decimal_injective hlen)
  exact ⟨String.toList_inj.1 hst, hxy⟩

/-- The length-prefixed fields of a record, one after the other. -/
def fields (ss : List String) : List Char := ss.flatMap field

theorem fields_injective : Function.Injective fields := by
  have field_ne_nil : ∀ s x, field s ++ x ≠ [] := fun s x h => by
    simp [field] at h
  intro ss
  induction ss with
  | nil =>
    intro ts h
    cases ts with
    | nil => rfl
    | cons t ts => exact absurd h.symm (field_ne_nil t (fields ts))
  | cons s ss ih =>
    intro ts h
    cases ts with
    | nil => exact absurd h (field_ne_nil s (fields ss))
    | cons t ts =>
      obtain ⟨rfl, htail⟩ := field_append_inj (x := fields ss) (y := fields ts) h
      rw [ih htail]

end TextCode
