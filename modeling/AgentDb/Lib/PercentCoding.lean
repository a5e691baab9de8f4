import AgentDb.Lib.TextCode

/-!
# Percent-encoding

A text as its UTF-8 bytes, those outside a set of plain characters as `%` and two hexadecimal
digits. Decoding reads an escape wherever there is one and takes every other byte as it is; the
bytes must be UTF-8 again. `decode_encode` is the round trip, and `isPlain_of_mem_encode` says which
characters an encoded text is made of, so that it can stand between others.
-/

namespace PercentCoding

open TextCode

/-! ### Encoding -/

/-- An uppercase hexadecimal digit. -/
def hexDigit (n : ℕ) : Char := (Nat.digitChar n).toUpper

/-- The unreserved characters of a URI: letters, digits, `-`, `.`, `_` and `~`. -/
def isUnreserved (byte : UInt8) : Bool :=
  (65 ≤ byte && byte ≤ 90) || (97 ≤ byte && byte ≤ 122) || (48 ≤ byte && byte ≤ 57) ||
    byte ∈ [45, 46, 95, 126]

/-- One byte of an encoded text. -/
def encodeByte (byte : UInt8) : List Char :=
  if isUnreserved byte then [Char.ofNat byte.toNat]
  else ['%', hexDigit (byte.toNat / 16), hexDigit (byte.toNat % 16)]

/-- A text with everything but the unreserved characters escaped. -/
def encode (s : String) : List Char := (utf8 s).flatMap encodeByte

/-! ### Decoding -/

/-- The value of a hexadecimal digit. -/
def hexValue (byte : UInt8) : Option ℕ :=
  if 48 ≤ byte ∧ byte ≤ 57 then some (byte.toNat - 48)
  else if 65 ≤ byte ∧ byte ≤ 70 then some (byte.toNat - 55)
  else if 97 ≤ byte ∧ byte ≤ 102 then some (byte.toNat - 87)
  else none

/-- The byte of an escape. -/
def escaped (percent high low : UInt8) : Option UInt8 :=
  if percent = 37 then do
    let h ← hexValue high
    let l ← hexValue low
    return UInt8.ofNat (16 * h + l)
  else none

/-- The bytes of an encoded text; what is no escape stands for itself. -/
def decodeBytes : List UInt8 → List UInt8
  | percent :: high :: low :: rest =>
      match escaped percent high low with
      | some byte => byte :: decodeBytes rest
      | none => percent :: decodeBytes (high :: low :: rest)
  | bytes => bytes

/-- The text of an encoded text, if its bytes are one. -/
def decode (cs : List Char) : Option String :=
  String.fromUTF8? ⟨(decodeBytes (utf8 (String.ofList cs))).toArray⟩

/-! ### The round trip -/

theorem utf8_ofList_append (cs ds : List Char) :
    utf8 (String.ofList (cs ++ ds)) = utf8 (String.ofList cs) ++ utf8 (String.ofList ds) := by
  rw [utf8, utf8, utf8, String.toList_ofList, String.toList_ofList, String.toList_ofList,
    List.flatMap_append]

/-- What holds of all 256 bytes holds of every byte. -/
theorem forall_byte {p : UInt8 → Prop} (h : ∀ n : Fin 256, p (UInt8.ofNat n)) (byte : UInt8) :
    p byte := by
  have hbyte := h ⟨byte.toNat, byte.toNat_lt⟩
  rwa [UInt8.ofNat_toNat] at hbyte

/-- A hexadecimal digit as a byte. -/
def hexByte (n : ℕ) : UInt8 := UInt8.ofNat (hexDigit n).toNat

/-- An encoded byte is that byte or an escape of it. -/
theorem utf8_encodeByte (byte : UInt8) : utf8 (String.ofList (encodeByte byte)) =
    if isUnreserved byte then [byte]
    else [37, hexByte (byte.toNat / 16), hexByte (byte.toNat % 16)] := by
  revert byte
  exact forall_byte (by decide +kernel)

theorem escaped_hexByte (byte : UInt8) :
    escaped 37 (hexByte (byte.toNat / 16)) (hexByte (byte.toNat % 16)) = some byte := by
  revert byte
  exact forall_byte (by decide +kernel)

theorem ne_percent_of_isUnreserved {byte : UInt8} (h : isUnreserved byte = true) : byte ≠ 37 := by
  rintro rfl
  cases h

theorem decodeBytes_cons {byte : UInt8} (h : byte ≠ 37) (rest : List UInt8) :
    decodeBytes (byte :: rest) = byte :: decodeBytes rest := by
  have hnone : ∀ high low, escaped byte high low = none := fun high low => if_neg h
  cases rest with
  | nil => rfl
  | cons high rest =>
    cases rest with
    | nil => rfl
    | cons low rest => rw [decodeBytes, hnone]

theorem decodeBytes_encodeByte (byte : UInt8) (rest : List UInt8) :
    decodeBytes (utf8 (String.ofList (encodeByte byte)) ++ rest) = byte :: decodeBytes rest := by
  rw [utf8_encodeByte]
  by_cases h : isUnreserved byte = true
  · rw [if_pos h, List.singleton_append, decodeBytes_cons (ne_percent_of_isUnreserved h)]
  · rw [if_neg h, List.cons_append, List.cons_append, List.cons_append, List.nil_append,
      decodeBytes, escaped_hexByte]

theorem decodeBytes_flatMap_encodeByte (bytes : List UInt8) :
    decodeBytes (utf8 (String.ofList (bytes.flatMap encodeByte))) = bytes := by
  induction bytes with
  | nil => rfl
  | cons byte bytes ih =>
    rw [List.flatMap_cons, utf8_ofList_append, decodeBytes_encodeByte, ih]

/-- **An encoded text is decoded to what it was.** -/
theorem decode_encode (s : String) : decode (encode s) = some s := by
  rw [decode, encode, decodeBytes_flatMap_encodeByte, fromUTF8?_utf8]

/-! ### Text that decoding leaves alone -/

/-- Somewhere in the bytes there is an escape. -/
def HasEscape (bytes : List UInt8) : Prop :=
  ∃ before high low after byte, bytes = before ++ 37 :: high :: low :: after ∧
    escaped 37 high low = some byte

theorem length_decodeBytes_le (bytes : List UInt8) :
    (decodeBytes bytes).length ≤ bytes.length := by
  fun_induction decodeBytes bytes with
  | case1 percent high low rest byte h ih =>
    simp only [List.length_cons]
    omega
  | case2 percent high low rest h ih =>
    simp only [List.length_cons] at ih ⊢
    omega
  | case3 => exact le_rfl

/-- An escape is three bytes long, and what it stands for is one. -/
theorem length_decodeBytes_lt {bytes : List UInt8} (h : HasEscape bytes) :
    (decodeBytes bytes).length < bytes.length := by
  fun_induction decodeBytes bytes with
  | case1 percent high low rest byte hbyte ih =>
    have hle := length_decodeBytes_le rest
    simp only [List.length_cons]
    omega
  | case2 percent high low rest hnone ih =>
    obtain ⟨before, high', low', after, byte, heq, hbyte⟩ := h
    cases before with
    | nil =>
      obtain ⟨rfl, rfl, rfl, rfl⟩ : percent = 37 ∧ high = high' ∧ low = low' ∧ rest = after := by
        simpa using heq
      rw [hnone] at hbyte
      cases hbyte
    | cons b before =>
      rw [List.cons_append, List.cons.injEq] at heq
      have hlt := ih ⟨before, high', low', after, byte, heq.2, hbyte⟩
      simp only [List.length_cons] at hlt ⊢
      omega
  | case3 bytes hshort =>
    obtain ⟨before, high, low, after, byte, rfl, -⟩ := h
    cases before with
    | nil => exact absurd rfl (hshort _ _ _ _)
    | cons b before =>
      cases before with
      | nil => exact absurd rfl (hshort _ _ _ _)
      | cons b' before => cases before <;> exact absurd rfl (hshort _ _ _ _)

theorem decodeBytes_eq_self {bytes : List UInt8} (h : ¬HasEscape bytes) :
    decodeBytes bytes = bytes := by
  fun_induction decodeBytes bytes with
  | case1 percent high low rest byte hbyte ih =>
    have hpercent : percent = 37 := by
      by_contra hne
      rw [escaped, if_neg hne] at hbyte
      cases hbyte
    subst hpercent
    exact absurd ⟨[], high, low, rest, byte, rfl, hbyte⟩ h
  | case2 percent high low rest hnone ih =>
    rw [ih]
    rintro ⟨before, high', low', after, byte, heq, hbyte⟩
    exact h ⟨percent :: before, high', low', after, byte, by rw [heq, List.cons_append], hbyte⟩
  | case3 => rfl

theorem fromUTF8?_eq_some {bytes : List UInt8} {s : String}
    (h : String.fromUTF8? ⟨bytes.toArray⟩ = some s) : bytes = utf8 s := by
  rw [String.fromUTF8?] at h
  split_ifs at h with hvalid
  have hbytes := congrArg String.toByteArray (Option.some.inj h)
  rw [← mk_utf8 s] at hbytes
  exact congrArg (fun b : ByteArray => b.data.toList) hbytes

/-- **Decoding leaves exactly the texts without an escape as they are.** -/
theorem decode_toList_iff (s : String) : decode s.toList = some s ↔ ¬HasEscape (utf8 s) := by
  rw [decode, String.ofList_toList]
  constructor
  · intro h hescape
    have hlt := length_decodeBytes_lt hescape
    rw [fromUTF8?_eq_some h] at hlt
    exact lt_irrefl _ hlt
  · intro h
    rw [decodeBytes_eq_self h, fromUTF8?_utf8]

/-! ### The characters of an encoded text -/

/-- The characters an encoded text may hold. -/
def isPlain (c : Char) : Bool :=
  (65 ≤ c.toNat && c.toNat ≤ 90) || (97 ≤ c.toNat && c.toNat ≤ 122) ||
    (48 ≤ c.toNat && c.toNat ≤ 57) || c.toNat ∈ [37, 45, 46, 95, 126]

theorem isPlain_of_mem_encode {s : String} {c : Char} (h : c ∈ encode s) : isPlain c = true := by
  have hbyte : ∀ byte, (encodeByte byte).all isPlain = true := forall_byte (by decide +kernel)
  obtain ⟨byte, -, hc⟩ := List.mem_flatMap.1 h
  exact List.all_eq_true.1 (hbyte byte) c hc

/-- A delimiter does not stand in an encoded text. -/
theorem not_mem_encode {s : String} {c : Char} (h : isPlain c = false) : c ∉ encode s := by
  intro hc
  rw [isPlain_of_mem_encode hc] at h
  cases h

end PercentCoding
