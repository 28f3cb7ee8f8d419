import Playground.Artifact
import Playground.Number.Binary64

/-!
# Figures in reports

How sizes, times and digests are written for people.
-/

namespace Playground.Report

open Playground.Number

/-- A number of bytes. -/
def bytes (n : Nat) : String :=
  if 1048576 ≤ n then tenths n 1048576 ++ " MB"
  else if 1024 ≤ n then tenths n 1024 ++ " KB"
  else toString n ++ " B"

/-- A number below 100 with two digits. -/
def twoDigits (n : Nat) : String := if n < 10 then "0" ++ toString n else toString n

/-- A time that passed, in nanoseconds. -/
def elapsed (nanos : Nat) : String :=
  let seconds := nanos / 1000000000
  let millis := nanos / 1000000 % 1000
  if 60 ≤ seconds then toString (seconds / 60) ++ "m " ++ toString (seconds % 60) ++ "s"
  else if 0 < seconds then toString seconds ++ "." ++ twoDigits (millis / 10) ++ "s"
  else toString millis ++ "ms"

/-- A rendered package: its digests, or the one of both variants when they are the same, and the
size of its full module. -/
def rendered (path : String) (package : RenderedPackage) : String :=
  let size := " (" ++ bytes package.full.bytes.size ++ ")"
  if package.optimized.digest = package.full.digest then
    path ++ " " ++ package.full.digest.short ++ size
  else
    path ++ " min:" ++ package.optimized.digest.short ++ " full:" ++ package.full.digest.short ++
      size

end Playground.Report
