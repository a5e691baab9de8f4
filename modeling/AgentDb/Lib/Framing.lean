import Mathlib.Tactic

/-!
# Length prefixes and bounded writers

A 32-bit length as four bytes, the highest first, and a writer that takes a sequence of pieces up
to a total length. `ofBeBytes_beBytes` is the round trip of a length; `writeAll_eq_some` says what
a writer that did not overflow holds.
-/

namespace Framing

/-! ### Lengths -/

/-- The low 32 bits of a number, highest byte first. -/
def beBytes (n : ℕ) : Vector UInt8 4 :=
  #v[.ofNat (n / 2 ^ 24), .ofNat (n / 2 ^ 16), .ofNat (n / 2 ^ 8), .ofNat n]

def ofBeBytes (bytes : Vector UInt8 4) : ℕ :=
  bytes[0].toNat * 2 ^ 24 + bytes[1].toNat * 2 ^ 16 + bytes[2].toNat * 2 ^ 8 + bytes[3].toNat

theorem ofBeBytes_beBytes {n : ℕ} (h : n < 2 ^ 32) : ofBeBytes (beBytes n) = n := by
  simp only [ofBeBytes, beBytes, Vector.getElem_mk, List.getElem_toArray, List.getElem_cons_zero,
    List.getElem_cons_succ, UInt8.toNat_ofNat']
  omega

/-! ### A bounded writer -/

/-- The bytes written so far, and whether a piece did not fit. -/
structure BoundedWriter where
  bytes : List UInt8 := []
  overflowed : Bool := false

variable (maximum : ℕ)

/-- Write one piece: as much of it as fits. -/
def BoundedWriter.write (w : BoundedWriter) (piece : List UInt8) : BoundedWriter :=
  let remaining := maximum - w.bytes.length
  if piece.length > remaining then
    { bytes := w.bytes ++ piece.take remaining, overflowed := true }
  else { w with bytes := w.bytes ++ piece }

/-- Write pieces up to the first that does not fit. -/
def BoundedWriter.writeAll (w : BoundedWriter) : List (List UInt8) → BoundedWriter
  | [] => w
  | piece :: pieces =>
      let w := w.write maximum piece
      if w.overflowed then w else w.writeAll pieces

variable {maximum}

theorem writeAll_of_not_overflowed {w : BoundedWriter} (hw : w.overflowed = false)
    (hlength : w.bytes.length ≤ maximum) {pieces : List (List UInt8)}
    (h : (w.writeAll maximum pieces).overflowed = false) :
    (w.writeAll maximum pieces).bytes = w.bytes ++ pieces.flatten ∧
      (w.bytes ++ pieces.flatten).length ≤ maximum := by
  induction pieces generalizing w with
  | nil => simp [BoundedWriter.writeAll, hlength]
  | cons piece pieces ih =>
    rw [BoundedWriter.writeAll] at h ⊢
    by_cases hfits : piece.length > maximum - w.bytes.length
    · simp [BoundedWriter.write, hfits] at h
    · have hwrite : w.write maximum piece = { w with bytes := w.bytes ++ piece } := by
        simp [BoundedWriter.write, hfits]
      simp only [hwrite, hw, Bool.false_eq_true, if_false] at h ⊢
      obtain ⟨hbytes, hle⟩ := ih (w := ⟨w.bytes ++ piece, false⟩) rfl
        (by rw [List.length_append]; omega) h
      rw [hbytes, List.flatten_cons, ← List.append_assoc]
      exact ⟨rfl, hle⟩

/-- **A fresh writer that did not overflow holds all the pieces**, within its maximum. -/
theorem writeAll_eq {pieces : List (List UInt8)}
    (h : (({} : BoundedWriter).writeAll maximum pieces).overflowed = false) :
    (({} : BoundedWriter).writeAll maximum pieces).bytes = pieces.flatten ∧
      pieces.flatten.length ≤ maximum := by
  have hall := writeAll_of_not_overflowed rfl (Nat.zero_le maximum) h
  rwa [List.nil_append] at hall

theorem writeAll_append {w : BoundedWriter} (hw : w.overflowed = false) {pieces : List (List UInt8)}
    (h : (w.bytes ++ pieces.flatten).length ≤ maximum) :
    w.writeAll maximum pieces = ⟨w.bytes ++ pieces.flatten, false⟩ := by
  induction pieces generalizing w with
  | nil =>
    obtain ⟨bytes, overflowed⟩ := w
    obtain rfl : overflowed = false := hw
    simp [BoundedWriter.writeAll]
  | cons piece pieces ih =>
    rw [List.flatten_cons, ← List.append_assoc] at h ⊢
    have hfits : ¬piece.length > maximum - w.bytes.length := by
      simp only [List.length_append] at h
      omega
    have hwrite : w.write maximum piece = ⟨w.bytes ++ piece, false⟩ := by
      rw [BoundedWriter.write, if_neg hfits, hw]
    rw [BoundedWriter.writeAll, hwrite]
    exact ih (w := ⟨w.bytes ++ piece, false⟩) rfl h

/-- **A fresh writer takes all of what fits.** -/
theorem writeAll_of_length_le {pieces : List (List UInt8)} (h : pieces.flatten.length ≤ maximum) :
    ({} : BoundedWriter).writeAll maximum pieces = ⟨pieces.flatten, false⟩ :=
  writeAll_append rfl h

end Framing
