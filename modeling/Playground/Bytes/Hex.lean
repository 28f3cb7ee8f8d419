import Playground.Bytes.Octets

/-!
# Hexadecimal text

Two lowercase digits per byte, the high half first.
-/

namespace Playground.Bytes.Hex

def digit (n : Nat) : Char := if n < 10 then Char.ofNat (48 + n) else Char.ofNat (87 + n)

/-- The value of a digit, upper or lower case. -/
def value? (c : Char) : Option Nat :=
  if '0' ≤ c ∧ c ≤ '9' then some (c.toNat - 48)
  else if 'a' ≤ c ∧ c ≤ 'f' then some (c.toNat - 87)
  else if 'A' ≤ c ∧ c ≤ 'F' then some (c.toNat - 55)
  else none

def digits (xs : List UInt8) : List Char :=
  xs.flatMap fun x => [digit (x.toNat / 16), digit (x.toNat % 16)]

def encode (b : ByteArray) : String := String.ofList (digits (octets b))

/-- The octets that pairs of digits spell. -/
def undigits? : List Char → Option (List UInt8)
  | [] => some []
  | [_] => none
  | a :: b :: rest => do
    let high ← value? a
    let low ← value? b
    return UInt8.ofNat (16 * high + low) :: (← undigits? rest)

/-- The byte string that a hexadecimal text spells. -/
def decode? (s : String) : Option ByteArray := (undigits? s.toList).map ofOctets

end Playground.Bytes.Hex
