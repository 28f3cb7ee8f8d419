import Playground.Json.Quoted

/-!
# JSON values

A `Value` holds what the formats of this library are made of.  Numbers are whole; another number
can be read but stands for nothing here, and is a `Value.other`.  The members of an object keep
their order and may repeat a name.

`compact` writes a value without blanks, `pretty` one member a line.
-/

namespace Playground.Json

/-- A JSON value. -/
inductive Value where
  | null
  | bool (b : Bool)
  | number (n : Int)
  | string (s : String)
  | array (items : List Value)
  | object (members : List (String × Value))
  /-- A leaf that nothing uses: a number that is not whole, or, when it is not `sound`, something
  well formed that has no value, such as a number beyond all bounds. -/
  | other (sound : Bool)
  deriving Repr, Inhabited

namespace Value

def nat (n : Nat) : Value := .number n

def leaf : Value → List Char
  | null => "null".toList
  | bool true => "true".toList
  | bool false => "false".toList
  | number n => (toString n).toList
  | string s => quoteChars s.toList
  | other _ => "null".toList
  | array _ | object _ => []

mutual

/-- The text of a value without blanks. -/
def compactChars : Value → List Char
  | array items => '[' :: compactItems items ++ [']']
  | object members => '\x7b' :: compactMembers members ++ ['\x7d']
  | v => leaf v

def compactItems : List Value → List Char
  | [] => []
  | [v] => compactChars v
  | v :: vs => compactChars v ++ ',' :: compactItems vs

def compactMembers : List (String × Value) → List Char
  | [] => []
  | [(name, v)] => quoteChars name.toList ++ ':' :: compactChars v
  | (name, v) :: rest =>
    quoteChars name.toList ++ ':' :: compactChars v ++ ',' :: compactMembers rest

end

/-- The text of a value without blanks. -/
def compact (v : Value) : String := String.ofList v.compactChars

/-- A new line at a depth. -/
def newLine (depth : Nat) : List Char := '\n' :: List.replicate (2 * depth) ' '

mutual

/-- The text of a value with one item or member a line, indented by its depth. -/
def prettyChars (depth : Nat) : Value → List Char
  | array (v :: vs) =>
    '[' :: newLine (depth + 1) ++ prettyItems (depth + 1) (v :: vs) ++ newLine depth ++ [']']
  | object (m :: ms) =>
    '\x7b' :: newLine (depth + 1) ++ prettyMembers (depth + 1) (m :: ms) ++ newLine depth ++
      ['\x7d']
  | array [] => ['[', ']']
  | object [] => ['\x7b', '\x7d']
  | v => leaf v

def prettyItems (depth : Nat) : List Value → List Char
  | [] => []
  | [v] => prettyChars depth v
  | v :: vs => prettyChars depth v ++ ',' :: newLine depth ++ prettyItems depth vs

def prettyMembers (depth : Nat) : List (String × Value) → List Char
  | [] => []
  | [(name, v)] => quoteChars name.toList ++ ':' :: ' ' :: prettyChars depth v
  | (name, v) :: rest =>
    quoteChars name.toList ++ ':' :: ' ' :: prettyChars depth v ++ ',' :: newLine depth ++
      prettyMembers depth rest

end

/-- The text of a value with one item or member a line. -/
def pretty (v : Value) : String := String.ofList (v.prettyChars 0)

mutual

/-- How many arrays and objects lie inside each other. -/
def depth : Value → Nat
  | array items => depthItems items + 1
  | object members => depthMembers members + 1
  | _ => 0

def depthItems : List Value → Nat
  | [] => 0
  | v :: vs => max (depth v) (depthItems vs)

def depthMembers : List (String × Value) → Nat
  | [] => 0
  | (_, v) :: rest => max (depth v) (depthMembers rest)

end

mutual

/-- Whether everything in a value has a value. -/
def isSound : Value → Bool
  | array items => itemsSound items
  | object members => membersSound members
  | other sound => sound
  | _ => true

def itemsSound : List Value → Bool
  | [] => true
  | v :: vs => isSound v && itemsSound vs

def membersSound : List (String × Value) → Bool
  | [] => true
  | (_, v) :: rest => isSound v && membersSound rest

end

end Value

end Playground.Json
