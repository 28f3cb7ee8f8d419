/-!
# Octets of a byte string

The list view of a `ByteArray` and the little-endian numbers of the archive formats.  The two
directions `octets` and `ofOctets` are inverse to each other.
-/

namespace Playground.Bytes

def octets (b : ByteArray) : List UInt8 := b.data.toList

def ofOctets (xs : List UInt8) : ByteArray := ⟨xs.toArray⟩

@[simp] theorem octets_ofOctets (xs : List UInt8) : octets (ofOctets xs) = xs := by
  simp [octets, ofOctets]

@[simp] theorem ofOctets_octets (b : ByteArray) : ofOctets (octets b) = b := by
  simp [octets, ofOctets]

theorem octets_inj {a b : ByteArray} : octets a = octets b ↔ a = b :=
  ⟨fun h => by rw [← ofOctets_octets a, h, ofOctets_octets], fun h => h ▸ rfl⟩

/-- Byte strings are compared octet by octet. -/
instance decidableEqBytes : DecidableEq ByteArray := fun _ _ => decidable_of_iff _ octets_inj

/-- `width` octets of a number, least significant first. -/
def littleEndian : Nat → Nat → List UInt8
  | 0, _ => []
  | width + 1, n => UInt8.ofNat n :: littleEndian width (n / 256)

/-- The number that octets spell, least significant first. -/
def ofLittleEndian : List UInt8 → Nat
  | [] => 0
  | x :: xs => x.toNat + 256 * ofLittleEndian xs

@[simp] theorem length_littleEndian (width n : Nat) : (littleEndian width n).length = width := by
  induction width generalizing n <;> simp [littleEndian, *]

end Playground.Bytes
