/-!
# Quoted text

A text between double quotes in which the quote, the backslash and the characters below the space
are escaped: by a letter where there is one, otherwise by four hexadecimal digits.  All other
characters stand for themselves, so a quoted text has no line break in it.
-/

namespace Playground.Json

def hexDigit (n : Nat) : Char := (Nat.digitChar n)

/-- The letter that stands for a character after a backslash, if there is one. -/
def escapeLetter? (c : Char) : Option Char :=
  match c with
  | '"' => some '"'
  | '\\' => some '\\'
  | '\x08' => some 'b'
  | '\t' => some 't'
  | '\n' => some 'n'
  | '\x0c' => some 'f'
  | '\r' => some 'r'
  | _ => none

/-- A character as it is written in a quoted text. -/
def quoteChar (c : Char) : List Char :=
  match escapeLetter? c with
  | some letter => ['\\', letter]
  | none =>
    if c < ' ' then ['\\', 'u', '0', '0', hexDigit (c.toNat / 16), hexDigit (c.toNat % 16)]
    else [c]

def quoteChars (cs : List Char) : List Char := '"' :: cs.flatMap quoteChar ++ ['"']

/-- A text in quotes. -/
def quote (s : String) : String := String.ofList (quoteChars s.toList)

end Playground.Json
