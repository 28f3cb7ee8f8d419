/-!
# Binary64 numbers

The nearest binary64 number of a natural number, and the quotient by a power of two written with
one decimal place.
-/

namespace Playground.Number

/-- A quotient rounded to the nearest whole number, a tie to the even neighbour. -/
def divideToNearest (n unit : Nat) : Nat :=
  let low := n / unit
  let rest := n % unit
  if 2 * rest > unit ∨ (2 * rest = unit ∧ low % 2 = 1) then low + 1 else low

/-- A number rounded to 53 binary digits, a tie to the even neighbour. -/
def toBinary64 (n : Nat) : Nat :=
  let unit := 1 <<< (n.log2 - 52)
  divideToNearest n unit * unit

/-- The least number that is rounded beyond the greatest binary64 number. -/
def binary64Limit : Nat := (1 <<< 1024) - (1 <<< 970)

/-- A quotient by a power of two with one decimal place. -/
def tenths (n unit : Nat) : String :=
  let t := divideToNearest (10 * toBinary64 n) unit
  toString (t / 10) ++ "." ++ toString (t % 10)

end Playground.Number
