import Playground.Text.Blank
import Playground.Text.Letter

/-!
# Tokens of a source file

Only what the head of a file needs is told apart: identifiers, texts between quotes or backquotes,
and single characters for everything else.  Blanks and comments separate tokens and leave no
trace.

The reader takes one character at a time: `step` is what a character does in a `Mode`, `finish`
what the end of the file does.  A text that is not closed ends with the file, and one between
double quotes also ends with its line.
-/

namespace Playground.Source

open Playground.Text

/-- A token. -/
inductive Token where
  | ident (name : String)
  | text (content : String)
  | punct (char : Char)
  deriving DecidableEq, Repr

/-- Where the reader is.  What it holds of an unfinished token is in reverse. -/
inductive Mode where
  /-- Between tokens. -/
  | code
  /-- After a slash that may begin a comment. -/
  | slash
  /-- In a comment that ends with the line. -/
  | line
  /-- In a comment that ends with a star and a slash; `star` tells whether the last character
  was a star that can end it. -/
  | block (star : Bool)
  /-- Between double quotes. -/
  | quoted (held : List Char)
  /-- Between double quotes, after a backslash. -/
  | escaped (held : List Char)
  /-- Between backquotes. -/
  | raw (held : List Char)
  /-- In an identifier. -/
  | ident (held : List Char)
  deriving DecidableEq, Repr

/-- The text of what the reader holds. -/
def heldText (held : List Char) : String := String.ofList held.reverse

/-- What a character between tokens does. -/
def startToken (c : Char) : List Token × Mode :=
  if isBlank c then ([], .code)
  else if c = '/' then ([], .slash)
  else if c = '"' then ([], .quoted [])
  else if c = '\x60' then ([], .raw [])
  else if startsName c then ([], .ident [c])
  else ([.punct c], .code)

/-- What a character does: the tokens that it completes, and where it leads. -/
def step : Mode → Char → List Token × Mode
  | .code, c => startToken c
  | .slash, c =>
    if c = '/' then ([], .line)
    else if c = '*' then ([], .block false)
    else
      let (tokens, mode) := startToken c
      (.punct '/' :: tokens, mode)
  | .line, c => ([], if c = '\n' then .code else .line)
  | .block star, c => ([], if star ∧ c = '/' then .code else .block (c = '*'))
  | .quoted held, c =>
    if c = '"' ∨ c = '\n' then ([.text (heldText held)], .code)
    else if c = '\\' then ([], .escaped held)
    else ([], .quoted (c :: held))
  | .escaped held, c =>
    ([], .quoted ((if c = 'n' then '\n' else if c = 't' then '\t' else c) :: held))
  | .raw held, c =>
    if c = '\x60' then ([.text (heldText held)], .code) else ([], .raw (c :: held))
  | .ident held, c =>
    if continuesName c then ([], .ident (c :: held))
    else
      let (tokens, mode) := startToken c
      (.ident (heldText held) :: tokens, mode)

/-- The tokens that the end of the file completes. -/
def finish : Mode → List Token
  | .code | .line | .block _ => []
  | .slash => [.punct '/']
  | .quoted held | .escaped held | .raw held => [.text (heldText held)]
  | .ident held => [.ident (heldText held)]

/-- The tokens of what follows when the reader is in some mode. -/
def tokensFrom : Mode → List Char → List Token
  | mode, [] => finish mode
  | mode, c :: cs =>
    let (tokens, next) := step mode c
    tokens ++ tokensFrom next cs

/-- The tokens of a source file. -/
def tokens (cs : List Char) : List Token := tokensFrom .code cs

end Playground.Source
