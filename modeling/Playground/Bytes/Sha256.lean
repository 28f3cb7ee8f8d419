import Playground.Bytes.Octets

/-!
# SHA-256

The digest of FIPS 180-4: the message is padded to whole blocks of 64 octets, each block is
spread over a schedule of 64 words, and 64 rounds mix the schedule into the eight words of the
state.  `digest` gives the 32 octets of the last state.
-/

namespace Playground.Bytes.Sha256

/-- The fractional parts of the cube roots of the first 64 primes. -/
def roundConstants : List UInt32 := [
  0x428a2f98, 0x71374491, 0xb5c0fbcf, 0xe9b5dba5, 0x3956c25b, 0x59f111f1, 0x923f82a4, 0xab1c5ed5,
  0xd807aa98, 0x12835b01, 0x243185be, 0x550c7dc3, 0x72be5d74, 0x80deb1fe, 0x9bdc06a7, 0xc19bf174,
  0xe49b69c1, 0xefbe4786, 0x0fc19dc6, 0x240ca1cc, 0x2de92c6f, 0x4a7484aa, 0x5cb0a9dc, 0x76f988da,
  0x983e5152, 0xa831c66d, 0xb00327c8, 0xbf597fc7, 0xc6e00bf3, 0xd5a79147, 0x06ca6351, 0x14292967,
  0x27b70a85, 0x2e1b2138, 0x4d2c6dfc, 0x53380d13, 0x650a7354, 0x766a0abb, 0x81c2c92e, 0x92722c85,
  0xa2bfe8a1, 0xa81a664b, 0xc24b8b70, 0xc76c51a3, 0xd192e819, 0xd6990624, 0xf40e3585, 0x106aa070,
  0x19a4c116, 0x1e376c08, 0x2748774c, 0x34b0bcb5, 0x391c0cb3, 0x4ed8aa4a, 0x5b9cca4f, 0x682e6ff3,
  0x748f82ee, 0x78a5636f, 0x84c87814, 0x8cc70208, 0x90befffa, 0xa4506ceb, 0xbef9a3f7, 0xc67178f2]

/-- The eight words of the state. -/
structure State where
  a : UInt32
  b : UInt32
  c : UInt32
  d : UInt32
  e : UInt32
  f : UInt32
  g : UInt32
  h : UInt32

/-- The fractional parts of the square roots of the first eight primes. -/
def State.first : State :=
  ⟨0x6a09e667, 0xbb67ae85, 0x3c6ef372, 0xa54ff53a, 0x510e527f, 0x9b05688c, 0x1f83d9ab, 0x5be0cd19⟩

/-- The words of the state, one by one. -/
def State.words (s : State) : List UInt32 := [s.a, s.b, s.c, s.d, s.e, s.f, s.g, s.h]

def State.add (s t : State) : State :=
  ⟨s.a + t.a, s.b + t.b, s.c + t.c, s.d + t.d, s.e + t.e, s.f + t.f, s.g + t.g, s.h + t.h⟩

/-- Rotation to the right by `n` places, for `0 < n < 32`. -/
def rotateRight (x n : UInt32) : UInt32 := (x >>> n) ||| (x <<< (32 - n))

/-- The padded message: a one bit, zeros up to eight octets before the end of a block, and the
length in bits as a big-endian number of eight octets. -/
def pad (message : ByteArray) : ByteArray :=
  let zeros := (119 - message.size % 64) % 64
  let length := (littleEndian 8 (8 * message.size)).reverse
  (message.push 0x80).append (ofOctets (List.replicate zeros 0 ++ length))

/-- The words that octets spell, big-endian. -/
def words : List UInt8 → List UInt32
  | a :: b :: c :: d :: octets =>
    ((a.toUInt32 <<< 24) ||| (b.toUInt32 <<< 16) ||| (c.toUInt32 <<< 8) ||| d.toUInt32) ::
      words octets
  | _ => []

/-- The next word of a schedule whose words so far are `w`, the last one first. -/
def nextWord (w : List UInt32) : UInt32 :=
  let back (k : Nat) : UInt32 := w[k - 1]?.getD 0
  let s0 := rotateRight (back 15) 7 ^^^ rotateRight (back 15) 18 ^^^ (back 15 >>> 3)
  let s1 := rotateRight (back 2) 17 ^^^ rotateRight (back 2) 19 ^^^ (back 2 >>> 10)
  back 16 + s0 + back 7 + s1

/-- The 64 words of a block of 64 octets. -/
def schedule (block : List UInt8) : List UInt32 :=
  ((List.range 48).foldl (fun w _ => nextWord w :: w) (words block).reverse).reverse

/-- One round, with the sum of its constant and its schedule word. -/
def round (s : State) (k : UInt32) : State :=
  let s1 := rotateRight s.e 6 ^^^ rotateRight s.e 11 ^^^ rotateRight s.e 25
  let choice := (s.e &&& s.f) ^^^ (~~~s.e &&& s.g)
  let t1 := s.h + s1 + choice + k
  let s0 := rotateRight s.a 2 ^^^ rotateRight s.a 13 ^^^ rotateRight s.a 22
  let majority := (s.a &&& s.b) ^^^ (s.a &&& s.c) ^^^ (s.b &&& s.c)
  ⟨t1 + (s0 + majority), s.a, s.b, s.c, s.d + t1, s.e, s.f, s.g⟩

/-- The state after a block. -/
def absorb (s : State) (block : List UInt8) : State :=
  s.add ((List.zipWith (· + ·) roundConstants (schedule block)).foldl round s)

/-- The state after the first `n` blocks of a padded message. -/
def absorbAll : Nat → State → List UInt8 → State
  | 0, s, _ => s
  | n + 1, s, message => absorbAll n (absorb s (message.take 64)) (message.drop 64)

/-- The 32 octets of the digest of a message. -/
def digest (message : ByteArray) : ByteArray :=
  let padded := pad message
  let last := absorbAll (padded.size / 64) .first (octets padded)
  ofOctets (last.words.flatMap fun w => (littleEndian 4 w.toNat).reverse)

end Playground.Bytes.Sha256
