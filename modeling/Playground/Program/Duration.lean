import Playground.Text.Blank

/-!
# Lengths of time in words

A length of time is written as numbers with units, such as `1m 30s`.  A month has 30.44 days and a
year 365.25.  Reading allows blanks between numbers and units, many names for a unit, and digits
behind a point.

Fewer than `2^64` seconds can be counted.  A text that asks for more is refused, except that there
is no way on when parts of a second come to exactly one second after the last.
-/

namespace Playground.Duration

open Playground.Text

/-- The nanoseconds of a second. -/
def second : Nat := 1000000000

/-- The seconds of a month. -/
def month : Nat := 2630016

/-- The seconds of a year. -/
def year : Nat := 31557600

/-- The nanoseconds of a unit. -/
def unit? (name : String) : Option Nat :=
  match name with
  | "nanos" | "nsec" | "ns" => some 1
  | "usec" | "us" | "µs" => some 1000
  | "millis" | "msec" | "ms" => some 1000000
  | "seconds" | "second" | "secs" | "sec" | "s" => some second
  | "minutes" | "minute" | "min" | "mins" | "m" => some (60 * second)
  | "hours" | "hour" | "hr" | "hrs" | "h" => some (3600 * second)
  | "days" | "day" | "d" => some (86400 * second)
  | "weeks" | "week" | "wk" | "wks" | "w" => some (604800 * second)
  | "months" | "month" | "M" => some (month * second)
  | "years" | "year" | "yr" | "yrs" | "y" => some (year * second)
  | _ => none

/-- A number of units: a whole number, and the digits behind its point as a number of their own. -/
structure Amount where
  whole : Nat
  digits : Nat
  /-- How many digits stand behind the point. -/
  places : Nat

/-- Where the reader is. -/
inductive Mode where
  /-- Before a number. -/
  | start
  /-- In a whole number, or between it and its unit. -/
  | number (n : Nat)
  /-- Behind a point. -/
  | fraction (a : Amount)
  /-- In a unit; what was read of it is in reverse. -/
  | unit (a : Amount) (held : List Char)

/-- One above the greatest number. -/
def numberLimit : Nat := UInt64.size

/-- One above the greatest length of time. -/
def limit : Nat := numberLimit * second

/-- Why some text gives no length of time. -/
inductive Fault where
  /-- It is not written as one, or it asks for more than can be counted. -/
  | unreadable
  /-- Its parts of a second come to exactly one second after the last that can be counted. -/
  | overrun
  deriving DecidableEq, Repr

/-- Whether a whole number of a unit can be added to `total`.  Units shorter than a second are
counted in nanoseconds, together with those that `total` has beyond its seconds; all others are
counted in seconds. -/
def fits (total n nanos : Nat) : Bool :=
  n < numberLimit &&
    if nanos < second then total % second + n * nanos < numberLimit
    else n * nanos < numberLimit * second

/-- The nanoseconds of the digits behind a point.  They have to come out even: in nanoseconds for
a unit of at most a minute, in seconds for one above.  A nanosecond has no parts. -/
def fraction? (a : Amount) (nanos : Nat) : Option Nat :=
  if a.places = 0 then some 0
  else
    let grain := if nanos ≤ 60 * second then 1 else second
    let scale := Nat.pow 10 a.places
    let scaled := a.digits * (nanos / grain)
    if nanos ≠ 1 ∧ scale < numberLimit ∧ scaled < numberLimit ∧ scaled % scale = 0 then
      some (scaled / scale * grain)
    else none

/-- What `total` becomes with some nanoseconds; `fine` says that they are no whole seconds by
their unit. -/
def extend (total nanos : Nat) (fine : Bool) : Except Fault Nat :=
  if total + nanos < limit then .ok (total + nanos)
  else if fine ∧ total % second + nanos = second then .error .overrun
  else .error .unreadable

/-- What `total` becomes with an amount of a unit: the whole number is added first. -/
def add (total : Nat) (a : Amount) (held : List Char) : Except Fault Nat :=
  match unit? (String.ofList held.reverse) with
  | none => .error .unreadable
  | some nanos =>
    if fits total a.whole nanos then
      (extend total (a.whole * nanos) (nanos < second)).bind fun total =>
        match fraction? a nanos with
        | none => .error .unreadable
        | some part => extend total part (nanos ≤ 60 * second)
    else .error .unreadable

/-- Whether a unit can have the character. -/
def isUnitChar (c : Char) : Bool := c.isAlpha || c = 'µ'

/-- What `total` becomes with the length that some text adds to it. -/
def readFrom : Mode → (total : Nat) → List Char → Except Fault Nat
  | .start, total, [] => .ok total
  | .number _, _, [] | .fraction _, _, [] => .error .unreadable
  | .unit a held, total, [] => add total a held
  | .start, total, c :: cs =>
    if c.isDigit then readFrom (.number (c.toNat - 48)) total cs
    else if isBlank c then readFrom .start total cs
    else .error .unreadable
  | .number n, total, c :: cs =>
    if c.isDigit then readFrom (.number (10 * n + (c.toNat - 48))) total cs
    else if isBlank c then readFrom (.number n) total cs
    else if isUnitChar c then readFrom (.unit ⟨n, 0, 0⟩ [c]) total cs
    else if c = '.' then readFrom (.fraction ⟨n, 0, 0⟩) total cs
    else .error .unreadable
  | .fraction a, total, c :: cs =>
    if c.isDigit then
      readFrom (.fraction ⟨a.whole, 10 * a.digits + (c.toNat - 48), a.places + 1⟩) total cs
    else if isBlank c then readFrom (.fraction a) total cs
    else if isUnitChar c && a.places ≠ 0 then readFrom (.unit a [c]) total cs
    else .error .unreadable
  | .unit a held, total, c :: cs =>
    if c.isDigit then
      (add total a held).bind fun total => readFrom (.number (c.toNat - 48)) total cs
    else if isBlank c then (add total a held).bind fun total => readFrom .start total cs
    else if isUnitChar c then readFrom (.unit a (c :: held)) total cs
    else .error .unreadable

/-- The nanoseconds of a length of time in words.  Only a lone zero needs no unit. -/
def read (text : String) : Except Fault Nat :=
  let cs := text.toList
  if cs = ['0'] then .ok 0
  else if cs.all isBlank then .error .unreadable
  else readFrom .start 0 cs

/-- A number of something, if there is any. -/
def item (n : Nat) (name : String) : List String := if n = 0 then [] else [toString n ++ name]

/-- A number of something whose name has a plural, if there is any. -/
def plural (n : Nat) (name : String) : List String :=
  item n (if 1 < n then name ++ "s" else name)

/-- A number of seconds in words. -/
def text (seconds : Nat) : String :=
  if seconds = 0 then "0s"
  else
    let days := seconds % year % month
    let parts := plural (seconds / year) "year" ++ plural (seconds % year / month) "month" ++
      plural (days / 86400) "day" ++ item (days % 86400 / 3600) "h" ++
      item (days % 3600 / 60) "m" ++ item (days % 60) "s"
    " ".intercalate parts

end Playground.Duration
