import Mathlib.Data.List.Basic

/-!
# SHA-256

The hash function of FIPS 180-4 on lists of bytes, and the hexadecimal text of a digest. Only its
value is used, through the first digits of the text; no security property is claimed.
-/

set_option autoImplicit false

namespace Byoh.Foundation.Sha256

/-- Rotate right. -/
def rotr (x n : UInt32) : UInt32 := (x >>> n) ||| (x <<< (32 - n))

/-- The round constants. -/
def roundConstants : List UInt32 := [
  0x428a2f98, 0x71374491, 0xb5c0fbcf, 0xe9b5dba5, 0x3956c25b, 0x59f111f1, 0x923f82a4, 0xab1c5ed5,
  0xd807aa98, 0x12835b01, 0x243185be, 0x550c7dc3, 0x72be5d74, 0x80deb1fe, 0x9bdc06a7, 0xc19bf174,
  0xe49b69c1, 0xefbe4786, 0x0fc19dc6, 0x240ca1cc, 0x2de92c6f, 0x4a7484aa, 0x5cb0a9dc, 0x76f988da,
  0x983e5152, 0xa831c66d, 0xb00327c8, 0xbf597fc7, 0xc6e00bf3, 0xd5a79147, 0x06ca6351, 0x14292967,
  0x27b70a85, 0x2e1b2138, 0x4d2c6dfc, 0x53380d13, 0x650a7354, 0x766a0abb, 0x81c2c92e, 0x92722c85,
  0xa2bfe8a1, 0xa81a664b, 0xc24b8b70, 0xc76c51a3, 0xd192e819, 0xd6990624, 0xf40e3585, 0x106aa070,
  0x19a4c116, 0x1e376c08, 0x2748774c, 0x34b0bcb5, 0x391c0cb3, 0x4ed8aa4a, 0x5b9cca4f, 0x682e6ff3,
  0x748f82ee, 0x78a5636f, 0x84c87814, 0x8cc70208, 0x90befffa, 0xa4506ceb, 0xbef9a3f7, 0xc67178f2]

/-- The eight working words. -/
structure Digest where
  a : UInt32
  b : UInt32
  c : UInt32
  d : UInt32
  e : UInt32
  f : UInt32
  g : UInt32
  h : UInt32

/-- The initial hash value. -/
def initial : Digest :=
  ⟨0x6a09e667, 0xbb67ae85, 0x3c6ef372, 0xa54ff53a, 0x510e527f, 0x9b05688c, 0x1f83d9ab, 0x5be0cd19⟩

/-- `n` more words of the message schedule; the list holds the newest word first. -/
def extend : Nat → List UInt32 → List UInt32
  | 0, ws => ws
  | n + 1, ws =>
      let w := fun i => ws.getD i 0
      let s0 := rotr (w 14) 7 ^^^ rotr (w 14) 18 ^^^ (w 14 >>> 3)
      let s1 := rotr (w 1) 17 ^^^ rotr (w 1) 19 ^^^ (w 1 >>> 10)
      extend n ((w 15 + s0 + w 6 + s1) :: ws)

/-- One round with its constant and schedule word. -/
def round (s : Digest) (kw : UInt32 × UInt32) : Digest :=
  let s1 := rotr s.e 6 ^^^ rotr s.e 11 ^^^ rotr s.e 25
  let ch := (s.e &&& s.f) ^^^ (~~~s.e &&& s.g)
  let t1 := s.h + s1 + ch + kw.1 + kw.2
  let s0 := rotr s.a 2 ^^^ rotr s.a 13 ^^^ rotr s.a 22
  let maj := (s.a &&& s.b) ^^^ (s.a &&& s.c) ^^^ (s.b &&& s.c)
  ⟨t1 + (s0 + maj), s.a, s.b, s.c, s.d + t1, s.e, s.f, s.g⟩

/-- Wordwise sum. -/
def Digest.add (s t : Digest) : Digest :=
  ⟨s.a + t.a, s.b + t.b, s.c + t.c, s.d + t.d, s.e + t.e, s.f + t.f, s.g + t.g, s.h + t.h⟩

/-- The compression of one block of sixteen words. -/
def compress (s : Digest) (block : List UInt32) : Digest :=
  s.add ((roundConstants.zip (extend 48 block.reverse).reverse).foldl round s)

/-- The padded message. -/
def pad (msg : List UInt8) : List UInt8 :=
  msg ++ [0x80] ++ List.replicate ((119 - msg.length % 64) % 64) 0 ++
    (List.range 8).map fun i => UInt8.ofNat (8 * msg.length / Nat.pow 256 (7 - i) % 256)

/-- Big-endian words. -/
def words : List UInt8 → List UInt32
  | a :: b :: c :: d :: rest =>
      ((a.toUInt32 <<< 24) ||| (b.toUInt32 <<< 16) ||| (c.toUInt32 <<< 8) ||| d.toUInt32) ::
        words rest
  | _ => []

/-- The first `n` blocks of sixteen words. -/
def blocks : Nat → List UInt32 → List (List UInt32)
  | 0, _ => []
  | n + 1, ws => ws.take 16 :: blocks n (ws.drop 16)

/-- The SHA-256 digest of a message. -/
def digest (msg : List UInt8) : Digest :=
  let ws := words (pad msg)
  (blocks (ws.length / 16) ws).foldl compress initial

/-- A hexadecimal digit. -/
def hexDigit (n : Nat) : Char := "0123456789abcdef".toList.getD n '0'

/-- The eight hexadecimal digits of a word. -/
def hexWord (w : UInt32) : List Char :=
  (List.range 8).map fun i => hexDigit (w.toNat / Nat.pow 16 (7 - i) % 16)

/-- The hexadecimal digits of a digest. -/
def Digest.hex (s : Digest) : List Char :=
  [s.a, s.b, s.c, s.d, s.e, s.f, s.g, s.h].flatMap hexWord

end Byoh.Foundation.Sha256
