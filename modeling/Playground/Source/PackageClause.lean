import Playground.Text.Letter
import Playground.Text.Lines

/-!
# The package clause of a source file

`packageName` finds the first line with something on it besides comments and reads the package
clause there.  It works line by line: a comment in block form is passed over wherever it ends, and
a line counts as empty when nothing is left of it.
-/

namespace Playground.Source

open Playground.Text

/-- A place in a source file; lines and columns count from one, and columns count bytes. -/
structure Position where
  file : String
  line : UInt32
  column : UInt32
  deriving DecidableEq, Repr

def Position.text (p : Position) : String :=
  p.file ++ ":" ++ toString p.line.toNat ++ ":" ++ toString p.column.toNat

/-- What is wrong with the first line that says something. -/
inductive ClauseFault where
  | expected
  | invalidName (name : String)
  deriving DecidableEq, Repr

def ClauseFault.message : ClauseFault → String
  | expected => "expected 'package' clause"
  | invalidName name => "invalid package name '" ++ name ++ "'"

theorem length_after? {mark cs rest : List Char} (h : after? mark cs = some rest) :
    rest.length + mark.length ≤ cs.length := by
  induction cs with
  | nil =>
    simp only [after?] at h
    split at h
    · rename_i hm
      cases h
      simp [hm]
    · cases h
  | cons c cs ih =>
    simp only [after?] at h
    split at h
    · rename_i hm
      cases h
      have := (List.isPrefixOf_iff_prefix.1 hm).length_le
      simp only [List.length_drop]
      omega
    · have := ih h
      simp only [List.length_cons]
      omega

theorem length_trimLeft (cs : List Char) : (trimLeft cs).length ≤ cs.length :=
  (List.dropWhile_suffix _).length_le

/-- Passes over the block comments that a line begins with: whether the last of them is still
open, and what is left of the line. -/
def skipBlocks (isOpen : Bool) (rest : List Char) : Bool × List Char :=
  if isOpen then
    match h : after? ['*', '/'] rest with
    | none => (true, [])
    | some inner =>
      have := length_after? h
      have := length_trimLeft inner
      skipBlocks false (trimLeft inner)
  else
    match rest with
    | '/' :: '*' :: inner => skipBlocks true inner
    | _ => (false, rest)
  termination_by rest.length
  decreasing_by all_goals simp only [List.length_cons, List.length_nil] at *; omega

/-- The word that begins a package clause, and the blank after it. -/
def clauseMark : List Char := "package ".toList

/-- The name in a package clause, given what follows its first word. -/
def clauseName (rest : List Char) : List Char :=
  ((trim (before ['/', '/'] rest)).reverse.dropWhile (· = ';')).reverse

/-- The package name that the first line with something on it gives. -/
def readClause (rest : List Char) : Except ClauseFault String :=
  if clauseMark.isPrefixOf rest then
    let name := clauseName (rest.drop clauseMark.length)
    if name = [] || !name.all continuesName then .error (.invalidName (String.ofList name))
    else .ok (String.ofList name)
  else .error .expected

/-- The column of the first character of a line that is not blank. -/
def firstColumn (line : List Char) : Nat :=
  byteLength line - byteLength (trimLeft line) + 1

/-- The package name in the lines from number `number` on, when a block comment is open or not. -/
def packageNameFrom (file : String) :
    (number : Nat) → (isOpen : Bool) → List (List Char) → Except (Position × ClauseFault) String
  | _, _, [] => .error (⟨file, 1, 1⟩, .expected)
  | number, isOpen, line :: rest =>
    let (isOpen, code) := skipBlocks isOpen (trim line)
    if code = [] || ['/', '/'].isPrefixOf code then packageNameFrom file (number + 1) isOpen rest
    else
      (readClause code).mapError (⟨file, .ofNat number, .ofNat (firstColumn line)⟩, ·)

/-- The package name of the file `file`. -/
def packageName (file : String) (cs : List Char) : Except (Position × ClauseFault) String :=
  packageNameFrom file 1 false (lines cs)

end Playground.Source
