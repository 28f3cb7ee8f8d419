import Playground.Text.Blank

/-!
# Pieces and lines

`splitOn` cuts a text at every occurrence of a separator; `lines` are the pieces between line
feeds, without the carriage return that may precede one and without the empty piece after the
last.
-/

namespace Playground.Text

/-- The pieces between the occurrences of `sep`: always one more than there are separators. -/
def splitOn (sep : Char) : List Char → List (List Char)
  | [] => [[]]
  | c :: cs =>
    if c = sep then [] :: splitOn sep cs
    else
      match splitOn sep cs with
      | [] => [[c]]
      | piece :: pieces => (c :: piece) :: pieces

theorem splitOn_ne_nil (sep : Char) (cs : List Char) : splitOn sep cs ≠ [] := by
  cases cs with
  | nil => simp [splitOn]
  | cons c cs => unfold splitOn; split <;> (try split) <;> simp

/-- The pieces with a separator between each two. -/
def glue (sep : Char) : List (List Char) → List Char
  | [] => []
  | [piece] => piece
  | piece :: pieces => piece ++ sep :: glue sep pieces

theorem splitOn_of_notMem {sep : Char} {piece : List Char} (h : sep ∉ piece) :
    splitOn sep piece = [piece] := by
  induction piece with
  | nil => rfl
  | cons c cs ih =>
    simp only [List.mem_cons, not_or] at h
    simp [splitOn, ih h.2, Ne.symm h.1]

theorem splitOn_append_cons {sep : Char} {piece rest : List Char} (h : sep ∉ piece) :
    splitOn sep (piece ++ sep :: rest) = piece :: splitOn sep rest := by
  induction piece with
  | nil => simp [splitOn]
  | cons c cs ih =>
    simp only [List.mem_cons, not_or] at h
    simp [splitOn, ih h.2, Ne.symm h.1]

theorem splitOn_glue {sep : Char} {pieces : List (List Char)} (hne : pieces ≠ [])
    (h : ∀ piece ∈ pieces, sep ∉ piece) : splitOn sep (glue sep pieces) = pieces := by
  induction pieces with
  | nil => exact absurd rfl hne
  | cons piece pieces ih =>
    cases pieces with
    | nil => exact splitOn_of_notMem (h piece List.mem_cons_self)
    | cons next pieces =>
      rw [glue, splitOn_append_cons (h piece List.mem_cons_self),
        ih (by simp) fun p hp => h p (List.mem_cons_of_mem _ hp)]
      simp

/-- The line without the carriage return at its end. -/
def dropReturn (line : List Char) : List Char :=
  if line.getLast? = some '\r' then line.dropLast else line

/-- The lines of a text.  Only a line that a line feed ends loses its carriage return. -/
def lines (cs : List Char) : List (List Char) :=
  let pieces := splitOn '\n' cs
  pieces.dropLast.map dropReturn ++ (pieces.getLast?.filter (· ≠ [])).toList

/-- The text before the first place where `mark` occurs, and all of it when it does not. -/
def before (mark : List Char) : List Char → List Char
  | [] => []
  | c :: cs => if mark.isPrefixOf (c :: cs) then [] else c :: before mark cs

/-- What follows the first occurrence of `mark`. -/
def after? (mark : List Char) : List Char → Option (List Char)
  | [] => if mark = [] then some [] else none
  | c :: cs =>
    if mark.isPrefixOf (c :: cs) then some ((c :: cs).drop mark.length) else after? mark cs

/-- The lines with something on them other than blanks and a comment, trimmed. -/
def codeLines (cs : List Char) : List (List Char) :=
  ((lines cs).map trim).filter fun line => line ≠ [] && !(['/', '/'].isPrefixOf line)

end Playground.Text
