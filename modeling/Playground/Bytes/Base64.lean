import Playground.Bytes.Octets

/-!
# Base64

The alphabet of capital letters, small letters, digits, `+` and `/`, with padding.  `decode?` is
strict: the padding has to be there, nothing may follow it, and the bits that carry no data have to
be zero, so that a byte string has only the text that `encode` writes.
-/

namespace Playground.Bytes.Base64

def digit (n : Nat) : Char :=
  if n < 26 then Char.ofNat (65 + n)
  else if n < 52 then Char.ofNat (71 + n)
  else if n < 62 then Char.ofNat (n - 4)
  else if n = 62 then '+' else '/'

def value? (c : Char) : Option Nat :=
  let n := c.toNat
  if 65 ≤ n ∧ n ≤ 90 then some (n - 65)
  else if 97 ≤ n ∧ n ≤ 122 then some (n - 71)
  else if 48 ≤ n ∧ n ≤ 57 then some (n + 4)
  else if c = '+' then some 62
  else if c = '/' then some 63
  else none

/-- Four digits for each three octets, with the text written so far in reverse. -/
def digitsOnto (done : List Char) : List UInt8 → List Char
  | [] => done.reverse
  | [x] =>
    let n := x.toNat * 16
    (['=', '=', digit (n % 64), digit (n / 64)] ++ done).reverse
  | [x, y] =>
    let n := (x.toNat * 256 + y.toNat) * 4
    (['=', digit (n % 64), digit (n / 64 % 64), digit (n / 4096)] ++ done).reverse
  | x :: y :: z :: rest =>
    let n := (x.toNat * 256 + y.toNat) * 256 + z.toNat
    digitsOnto
      ([digit (n % 64), digit (n / 64 % 64), digit (n / 4096 % 64), digit (n / 262144)] ++ done)
      rest

def encode (b : ByteArray) : String := String.ofList (digitsOnto [] (octets b))

/-- The octets behind groups of four digits, with those read so far in reverse. -/
def undigitsOnto? (done : List UInt8) : List Char → Option (List UInt8)
  | [] => some done.reverse
  | [a, b, '=', '='] => do
    let n := (← value? a) * 64 + (← value? b)
    if n % 16 = 0 then some (UInt8.ofNat (n / 16) :: done).reverse else none
  | [a, b, c, '='] => do
    let n := ((← value? a) * 64 + (← value? b)) * 64 + (← value? c)
    if n % 4 = 0 then
      some (UInt8.ofNat (n / 4) :: UInt8.ofNat (n / 1024) :: done).reverse
    else none
  | a :: b :: c :: d :: rest => do
    let n := (((← value? a) * 64 + (← value? b)) * 64 + (← value? c)) * 64 + (← value? d)
    undigitsOnto? (UInt8.ofNat n :: UInt8.ofNat (n / 256) :: UInt8.ofNat (n / 65536) :: done) rest
  | _ => none

def decode? (s : String) : Option ByteArray := (undigitsOnto? [] s.toList).map ofOctets

end Playground.Bytes.Base64
