import Playground.Json.Number

/-!
# Reading JSON

A text is first cut into tokens, one character at a time, and the tokens are then put together on
a stack of the arrays and objects that are open.  Between tokens only the space, the line feed,
the carriage return and the tab are passed over.

`Value.read?` accepts whatever is well formed.  `Value.readStrict?` also asks that everything has
a value and that fewer than 128 arrays and objects lie inside each other.
-/

namespace Playground.Json

/-! ### Tokens -/

/-- A token.  A text without a value has an escape that names no character. -/
inductive Token where
  | text (s : Option String)
  /-- A literal or a number. -/
  | leaf (v : Value)
  /-- A bracket, a brace, a comma or a colon. -/
  | mark (c : Char)

/-- A character of a quoted text, or a 16-bit unit that is written by its number. -/
inductive Piece where
  | char (c : Char)
  | code (n : Nat)
  deriving DecidableEq, Repr

/-- Where the reader is.  What it holds is in reverse. -/
inductive ReadMode where
  | between
  /-- In a literal or a number. -/
  | word (held : List Char)
  /-- In a quoted text. -/
  | quoted (held : List Piece)
  /-- After a backslash in a quoted text. -/
  | escaped (held : List Piece)
  /-- In the digits of an escape, of which `left` are to come. -/
  | coded (held : List Piece) (left n : Nat)

/-- Whether a character may stand between tokens. -/
def isBetween (c : Char) : Bool := c = ' ' || c = '\n' || c = '\r' || c = '\t'

/-- Whether a character is a token by itself. -/
def isMark (c : Char) : Bool :=
  c = '[' || c = ']' || c = '\x7b' || c = '\x7d' || c = ',' || c = ':'

/-- The character that a letter names after a backslash. -/
def unescape? (c : Char) : Option Char :=
  match c with
  | '"' => some '"'
  | '\\' => some '\\'
  | '/' => some '/'
  | 'b' => some '\x08'
  | 'f' => some '\x0c'
  | 'n' => some '\n'
  | 'r' => some '\r'
  | 't' => some '\t'
  | _ => none

def hexValue? (c : Char) : Option Nat :=
  if '0' ≤ c ∧ c ≤ '9' then some (c.toNat - 48)
  else if 'a' ≤ c ∧ c ≤ 'f' then some (c.toNat - 87)
  else if 'A' ≤ c ∧ c ≤ 'F' then some (c.toNat - 55)
  else none

/-- The characters of a quoted text.  Two units of a pair make one character, and a unit that
needs a partner and has none makes none. -/
def pieceChars : List Piece → Option (List Char)
  | [] => some []
  | .char c :: ps => (pieceChars ps).map (c :: ·)
  | .code n :: .code m :: ps =>
    if 0xD800 ≤ n ∧ n < 0xDC00 then
      if 0xDC00 ≤ m ∧ m < 0xE000 then
        (pieceChars ps).map (Char.ofNat (0x10000 + (n - 0xD800) * 0x400 + (m - 0xDC00)) :: ·)
      else none
    else if 0xDC00 ≤ n ∧ n < 0xE000 then none
    else (pieceChars (.code m :: ps)).map (Char.ofNat n :: ·)
  | .code n :: ps =>
    if 0xD800 ≤ n ∧ n < 0xE000 then none else (pieceChars ps).map (Char.ofNat n :: ·)

/-- The token of a literal or a number. -/
def wordToken? (word : List Char) : Option Token :=
  if word = "null".toList then some (.leaf .null)
  else if word = "true".toList then some (.leaf (.bool true))
  else if word = "false".toList then some (.leaf (.bool false))
  else (NumberText.read? word).map fun t => .leaf t.toValue

/-- The token of a quoted text. -/
def textToken (held : List Piece) : Token := .text ((pieceChars held.reverse).map String.ofList)

/-- What a character between tokens does. -/
def startRead (c : Char) : List Token × ReadMode :=
  if isBetween c then ([], .between)
  else if isMark c then ([.mark c], .between)
  else if c = '"' then ([], .quoted [])
  else ([], .word [c])

/-- What a character does: the tokens that it completes, and where it leads. -/
def readChar? : ReadMode → Char → Option (List Token × ReadMode)
  | .between, c => some (startRead c)
  | .word held, c =>
    if isBetween c || isMark c || c = '"' then do
      let token ← wordToken? held.reverse
      let (tokens, mode) := startRead c
      return (token :: tokens, mode)
    else some ([], .word (c :: held))
  | .quoted held, c =>
    if c = '"' then some ([textToken held], .between)
    else if c = '\\' then some ([], .escaped held)
    else if c < ' ' then none
    else some ([], .quoted (.char c :: held))
  | .escaped held, c =>
    if c = 'u' then some ([], .coded held 4 0)
    else (unescape? c).map fun c => ([], .quoted (.char c :: held))
  | .coded held left n, c =>
    (hexValue? c).map fun d =>
      ([], if left ≤ 1 then .quoted (.code (16 * n + d) :: held)
        else .coded held (left - 1) (16 * n + d))

/-- The tokens of what follows when the reader is in some mode. -/
def tokensFrom? : ReadMode → List Char → Option (List Token)
  | .between, [] => some []
  | .word held, [] => (wordToken? held.reverse).map ([·])
  | .quoted _, [] | .escaped _, [] | .coded _ _ _, [] => none
  | mode, c :: cs => do
    let (tokens, next) ← readChar? mode c
    return tokens ++ (← tokensFrom? next cs)

/-! ### Values -/

/-- An array or an object that is open, with what it holds in reverse.  An object waits for the
value of `name`. -/
inductive Frame where
  | items (held : List Value)
  | members (held : List (Option String × Value)) (name : Option String)

/-- What may come next. -/
inductive Expect where
  /-- A value. -/
  | value
  /-- The first item of an array, or its end. -/
  | firstItem
  /-- The first name of an object, or its end. -/
  | firstName
  /-- A name of an object that holds something. -/
  | name (held : List (Option String × Value))
  /-- The colon after a name. -/
  | colon (held : List (Option String × Value)) (name : Option String)
  /-- What goes on after a value, or ends what it lies in. -/
  | after (v : Value)

/-- The reader's state: what may come next, and what is open. -/
structure Reading where
  expect : Expect
  stack : List Frame

/-- The object with some members; without value when a name has none. -/
def objectOf (members : List (Option String × Value)) : Value :=
  match members.mapM fun (name, v) => name.map (·, v) with
  | some members => .object members
  | none => .other false

/-- What a token does where a value begins. -/
def beginValue? (stack : List Frame) : Token → Option Reading
  | .leaf v => some ⟨.after v, stack⟩
  | .text (some s) => some ⟨.after (.string s), stack⟩
  | .text none => some ⟨.after (.other false), stack⟩
  | .mark c =>
    if c = '[' then some ⟨.firstItem, stack⟩
    else if c = '\x7b' then some ⟨.firstName, stack⟩
    else none

/-- What a mark does after a value. -/
def endValue? (v : Value) (c : Char) : List Frame → Option Reading
  | [] => none
  | .items held :: stack =>
    if c = ',' then some ⟨.value, .items (v :: held) :: stack⟩
    else if c = ']' then some ⟨.after (.array (v :: held).reverse), stack⟩
    else none
  | .members held name :: stack =>
    if c = ',' then some ⟨.name ((name, v) :: held), stack⟩
    else if c = '\x7d' then some ⟨.after (objectOf ((name, v) :: held).reverse), stack⟩
    else none

/-- What a token does. -/
def readToken? : Reading → Token → Option Reading
  | ⟨.value, stack⟩, t => beginValue? stack t
  | ⟨.firstItem, stack⟩, t =>
    match t with
    | .mark ']' => some ⟨.after (.array []), stack⟩
    | t => beginValue? (.items [] :: stack) t
  | ⟨.firstName, stack⟩, t =>
    match t with
    | .mark '\x7d' => some ⟨.after (.object []), stack⟩
    | .text s => some ⟨.colon [] s, stack⟩
    | _ => none
  | ⟨.name held, stack⟩, t =>
    match t with
    | .text s => some ⟨.colon held s, stack⟩
    | _ => none
  | ⟨.colon held name, stack⟩, t =>
    match t with
    | .mark ':' => some ⟨.value, .members held name :: stack⟩
    | _ => none
  | ⟨.after v, stack⟩, t =>
    match t with
    | .mark c => endValue? v c stack
    | _ => none

/-- The value that tokens make. -/
def valueFrom? : Reading → List Token → Option Value
  | ⟨.after v, []⟩, [] => some v
  | _, [] => none
  | r, t :: ts => do valueFrom? (← readToken? r t) ts

namespace Value

/-- The value of a well-formed text. -/
def read? (cs : List Char) : Option Value := do
  valueFrom? ⟨.value, []⟩ (← tokensFrom? .between cs)

/-- One above the greatest depth of a strict reading. -/
def depthLimit : Nat := 128

/-- The value of a well-formed text, if it is not too deep and everything in it has a value. -/
def readStrict? (cs : List Char) : Option Value :=
  (read? cs).filter fun v => v.depth < depthLimit && v.isSound

end Value

end Playground.Json
