import Playground.Json.Value
import Playground.Number.Binary64

/-!
# Numbers of JSON

A number is a sign, digits, and perhaps a fraction and an exponent.  Whole numbers from `-2^63` to
`2^64 - 1` that are written without fraction and exponent are kept, apart from a negative zero.
Any other number is only tested: it has no value when its significand, of which as many digits
count as fit in 64 bits, times its power of ten is greater than the greatest binary64 number.
-/

namespace Playground.Json

/-- One above the greatest significand. -/
def significandLimit : Nat := UInt64.size

/-- The greatest exponent that is written out; a greater one only fits a zero. -/
def exponentLimit : Nat := 308

/-- One above the greatest exponent that is read. -/
def readExponentLimit : Nat := UInt32.size / 2

/-- The digits of a number, in three places. -/
structure NumberText where
  negative : Bool
  whole : List Nat
  /-- The digits after the point, if there is one. -/
  fraction : Option (List Nat)
  /-- The sign and the digits of the exponent, if there is one. -/
  exponent : Option (Bool × List Nat)

namespace NumberText

open Playground.Number

def digitValue (c : Char) : Nat := c.toNat - 48

/-- The digits that some text begins with, and what follows them. -/
def digits (cs : List Char) : List Nat × List Char :=
  ((cs.takeWhile Char.isDigit).map digitValue, cs.dropWhile Char.isDigit)

/-- The sign and the digits after the letter of an exponent. -/
def readExponent? : List Char → Option (Bool × List Nat)
  | '+' :: cs => readDigits? false cs
  | '-' :: cs => readDigits? true cs
  | cs => readDigits? false cs
where
  /-- Digits to the end. -/
  readDigits? (negative : Bool) (cs : List Char) : Option (Bool × List Nat) :=
    match digits cs with
    | ([], _) | (_, _ :: _) => none
    | (ds, []) => some (negative, ds)

/-- The digits of a number without its sign. -/
def readUnsigned? (negative : Bool) (cs : List Char) : Option NumberText :=
  match digits cs with
  | ([], _) | (0 :: _ :: _, _) => none
  | (whole, rest) =>
    match rest with
    | [] => some ⟨negative, whole, none, none⟩
    | '.' :: rest =>
      match digits rest with
      | ([], _) => none
      | (fraction, []) => some ⟨negative, whole, some fraction, none⟩
      | (fraction, e :: rest) =>
        if e = 'e' ∨ e = 'E' then
          (readExponent? rest).map fun exponent => ⟨negative, whole, some fraction, some exponent⟩
        else none
    | e :: rest =>
      if e = 'e' ∨ e = 'E' then
        (readExponent? rest).map fun exponent => ⟨negative, whole, none, some exponent⟩
      else none

/-- The digits of a number. -/
def read? : List Char → Option NumberText
  | '-' :: cs => readUnsigned? true cs
  | cs => readUnsigned? false cs

/-- The number that digits spell. -/
def value (ds : List Nat) : Nat := ds.foldl (fun n d => 10 * n + d) 0

/-- Appends digits to a significand as long as it stays below the limit; also how many are left. -/
def extend : Nat → List Nat → Nat × Nat
  | n, [] => (n, 0)
  | n, d :: ds =>
    if 10 * n + d < significandLimit then extend (10 * n + d) ds else (n, ds.length + 1)

def powerOfTen : Nat → Nat
  | 0 => 1
  | n + 1 => 10 * powerOfTen n

/-- Whether a significand times a power of ten has a value. -/
def inRange (significand : Nat) (exponent : Int) : Bool :=
  significand = 0 || exponent < 0 ||
    (exponent ≤ exponentLimit &&
      toBinary64 significand * toBinary64 (powerOfTen exponent.toNat) < binary64Limit)

/-- Whether a number has a value. -/
def hasValue (t : NumberText) : Bool :=
  let (significand, dropped) := extend 0 t.whole
  let (significand, kept) :=
    match t.fraction with
    | none => (significand, 0)
    | some ds =>
      let (n, dropped) := extend significand ds
      (n, ds.length - dropped)
  let exponent : Int := dropped - kept
  match t.exponent with
  | none => inRange significand exponent
  | some (negative, ds) =>
    if value ds < readExponentLimit then
      inRange significand (if negative then exponent - value ds else exponent + value ds)
    else significand = 0 || negative

/-- The value of a number, if it is a whole number in range. -/
def whole? (t : NumberText) : Option Int :=
  let n := value t.whole
  if t.fraction.isSome || t.exponent.isSome then none
  else if t.negative then if 0 < n ∧ n ≤ significandLimit / 2 then some (-n) else none
  else if n < significandLimit then some n
  else none

/-- A number as a JSON value. -/
def toValue (t : NumberText) : Value :=
  match t.whole? with
  | some n => .number n
  | none => .other t.hasValue

end NumberText

end Playground.Json
