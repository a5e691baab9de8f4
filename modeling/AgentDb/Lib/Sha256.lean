import Mathlib.Tactic

/-!
# SHA-256

The hash function on byte strings. Words are natural numbers below `2 ^ 32`, so that a digest is
computed by arithmetic on numerals.
-/

namespace Sha256

/-- The sixty-four round constants. -/
def roundConstants : List ℕ := [
  0x428a2f98, 0x71374491, 0xb5c0fbcf, 0xe9b5dba5, 0x3956c25b, 0x59f111f1, 0x923f82a4, 0xab1c5ed5,
  0xd807aa98, 0x12835b01, 0x243185be, 0x550c7dc3, 0x72be5d74, 0x80deb1fe, 0x9bdc06a7, 0xc19bf174,
  0xe49b69c1, 0xefbe4786, 0x0fc19dc6, 0x240ca1cc, 0x2de92c6f, 0x4a7484aa, 0x5cb0a9dc, 0x76f988da,
  0x983e5152, 0xa831c66d, 0xb00327c8, 0xbf597fc7, 0xc6e00bf3, 0xd5a79147, 0x06ca6351, 0x14292967,
  0x27b70a85, 0x2e1b2138, 0x4d2c6dfc, 0x53380d13, 0x650a7354, 0x766a0abb, 0x81c2c92e, 0x92722c85,
  0xa2bfe8a1, 0xa81a664b, 0xc24b8b70, 0xc76c51a3, 0xd192e819, 0xd6990624, 0xf40e3585, 0x106aa070,
  0x19a4c116, 0x1e376c08, 0x2748774c, 0x34b0bcb5, 0x391c0cb3, 0x4ed8aa4a, 0x5b9cca4f, 0x682e6ff3,
  0x748f82ee, 0x78a5636f, 0x84c87814, 0x8cc70208, 0x90befffa, 0xa4506ceb, 0xbef9a3f7, 0xc67178f2]

/-- The eight words the state starts with, and the registers of a round. -/
structure State where
  a : ℕ
  b : ℕ
  c : ℕ
  d : ℕ
  e : ℕ
  f : ℕ
  g : ℕ
  h : ℕ

def initial : State :=
  ⟨0x6a09e667, 0xbb67ae85, 0x3c6ef372, 0xa54ff53a, 0x510e527f, 0x9b05688c, 0x1f83d9ab, 0x5be0cd19⟩

def wrap (n : ℕ) : ℕ := n % 2 ^ 32

def rotateRight (n w : ℕ) : ℕ := (w >>> n) ||| wrap (w <<< (32 - n))

/-- The message schedule: `w` holds the words so far, the last one first. -/
def schedule : ℕ → List ℕ → List ℕ
  | 0, w => w
  | n + 1, w =>
      let w2 := w.getD 1 0
      let w15 := w.getD 14 0
      let s0 := rotateRight 7 w15 ^^^ rotateRight 18 w15 ^^^ (w15 >>> 3)
      let s1 := rotateRight 17 w2 ^^^ rotateRight 19 w2 ^^^ (w2 >>> 10)
      schedule n (wrap (w.getD 15 0 + s0 + w.getD 6 0 + s1) :: w)

/-- One round with its constant and its word. -/
def round (s : State) (k w : ℕ) : State :=
  let s1 := rotateRight 6 s.e ^^^ rotateRight 11 s.e ^^^ rotateRight 25 s.e
  let ch := (s.e &&& s.f) ^^^ ((2 ^ 32 - 1 - s.e) &&& s.g)
  let t1 := s.h + s1 + ch + k + w
  let s0 := rotateRight 2 s.a ^^^ rotateRight 13 s.a ^^^ rotateRight 22 s.a
  let maj := (s.a &&& s.b) ^^^ (s.a &&& s.c) ^^^ (s.b &&& s.c)
  ⟨wrap (t1 + s0 + maj), s.a, s.b, s.c, wrap (s.d + t1), s.e, s.f, s.g⟩

/-- One block of sixteen words. -/
def compress (s : State) (block : List ℕ) : State :=
  let words := (schedule 48 block.reverse).reverse
  let r := (roundConstants.zip words).foldl (fun s p => round s p.1 p.2) s
  ⟨wrap (s.a + r.a), wrap (s.b + r.b), wrap (s.c + r.c), wrap (s.d + r.d),
    wrap (s.e + r.e), wrap (s.f + r.f), wrap (s.g + r.g), wrap (s.h + r.h)⟩

/-- The message, a one bit, zeros, and the number of its bits in eight bytes. -/
def padded (bytes : List ℕ) : List ℕ :=
  let zeros := (119 - bytes.length % 64) % 64
  bytes ++ 0x80 :: List.replicate zeros 0 ++
    (List.range 8).map fun i => (8 * bytes.length) >>> (8 * (7 - i)) % 256

/-- Four bytes to a word. -/
def words : List ℕ → List ℕ
  | a :: b :: c :: d :: r => (((a * 256 + b) * 256 + c) * 256 + d) :: words r
  | _ => []

/-- The digest of a byte string. -/
def sha256 (bytes : List UInt8) : Vector UInt8 32 :=
  let ws := words (padded (bytes.map (·.toNat)))
  let s := (List.range (ws.length / 16)).foldl
    (fun s i => compress s ((ws.drop (16 * i)).take 16)) initial
  let out := [s.a, s.b, s.c, s.d, s.e, s.f, s.g, s.h]
  Vector.ofFn fun i => UInt8.ofNat (out.getD (i.val / 4) 0 >>> (8 * (3 - i.val % 4)))

/-- The digest of the empty message. -/
example : (sha256 []).toList.take 4 = [0xe3, 0xb0, 0xc4, 0x42] := by decide +kernel

end Sha256
