import Playground.Bytes.Octets

/-!
# UTF-8

`decode` reads a byte string as text.  When it is not UTF-8 the fault tells where the longest
valid beginning ends and, unless the input stops inside a character, how many bytes from there on
cannot start one.
-/

namespace Playground.Bytes.Utf8

/-- Why a byte string is not UTF-8. -/
structure Fault where
  /-- The number of bytes before the fault. -/
  validUpTo : Nat
  /-- How many bytes are at fault; none when the input ends inside a character. -/
  length : Option Nat
  deriving DecidableEq, Repr

def Fault.message (f : Fault) : String :=
  match f.length with
  | some n => s!"invalid utf-8 sequence of {n} bytes from index {f.validUpTo}"
  | none => s!"incomplete utf-8 byte sequence from index {f.validUpTo}"

/-- Whether an octet continues a character. -/
def continues (x : UInt8) : Bool := 0x80 ≤ x && x ≤ 0xBF

/-- Whether `y` may follow `x` as the second octet of a character of three. -/
def secondOfThree (x y : UInt8) : Bool :=
  if x == 0xE0 then 0xA0 ≤ y && y ≤ 0xBF
  else if x == 0xED then 0x80 ≤ y && y ≤ 0x9F
  else continues y

/-- Whether `y` may follow `x` as the second octet of a character of four. -/
def secondOfFour (x y : UInt8) : Bool :=
  if x == 0xF0 then 0x90 ≤ y && y ≤ 0xBF
  else if x == 0xF4 then 0x80 ≤ y && y ≤ 0x8F
  else continues y

/-- The length of the faulty part at the start of `xs`, when it starts with no whole character;
otherwise the number of octets of that character. -/
def firstChar : List UInt8 → Except (Option Nat) Nat
  | [] => .ok 0
  | x :: xs =>
    if x < 0x80 then .ok 1
    else if 0xC2 ≤ x && x ≤ 0xDF then
      match xs with
      | [] => .error none
      | y :: _ => if continues y then .ok 2 else .error (some 1)
    else if 0xE0 ≤ x && x ≤ 0xEF then
      match xs with
      | [] => .error none
      | [y] => if secondOfThree x y then .error none else .error (some 1)
      | y :: z :: _ =>
        if !secondOfThree x y then .error (some 1)
        else if continues z then .ok 3 else .error (some 2)
    else if 0xF0 ≤ x && x ≤ 0xF4 then
      match xs with
      | [] => .error none
      | [y] => if secondOfFour x y then .error none else .error (some 1)
      | [y, z] =>
        if !secondOfFour x y then .error (some 1)
        else if continues z then .error none else .error (some 2)
      | y :: z :: w :: _ =>
        if !secondOfFour x y then .error (some 1)
        else if !continues z then .error (some 2)
        else if continues w then .ok 4 else .error (some 3)
    else .error (some 1)

/-- The first fault of `xs` at or after the position `start`, where `skip` octets still belong to
a character that was already checked. -/
def faultFrom : (start skip : Nat) → List UInt8 → Option Fault
  | _, _, [] => none
  | start, skip + 1, _ :: xs => faultFrom (start + 1) skip xs
  | start, 0, x :: xs =>
    match firstChar (x :: xs) with
    | .error length => some ⟨start, length⟩
    | .ok size => faultFrom (start + 1) (size - 1) xs

def decode (b : ByteArray) : Except Fault String :=
  match String.fromUTF8? b with
  | some s => .ok s
  | none => .error ((faultFrom 0 0 (octets b)).getD ⟨0, none⟩)

/-- The text with the given UTF-8 bytes, and the empty text when they are no UTF-8. -/
def decodeOrEmpty (b : ByteArray) : String := (String.fromUTF8? b).getD ""

theorem decode_toByteArray (s : String) : decode s.toByteArray = .ok s := by
  simp only [decode, String.fromUTF8?, dif_pos s.isValidUTF8]
  rfl

theorem decode_eq_ok_iff {b : ByteArray} {s : String} :
    decode b = .ok s ↔ s.toByteArray = b := by
  constructor
  · intro h
    unfold decode at h
    split at h
    · rename_i t ht
      cases h
      unfold String.fromUTF8? at ht
      split at ht
      · cases ht; rfl
      · cases ht
    · cases h
  · rintro rfl
    exact decode_toByteArray s

end Playground.Bytes.Utf8
