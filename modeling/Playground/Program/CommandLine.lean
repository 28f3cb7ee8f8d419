import Playground.Program.Duration

/-!
# The command line

Options may stand before or after the command and have their value behind them or after an equals
sign; single letters can be joined.  An option is given once at most at each of the two places, and
the later place wins.  After `--` everything is an argument.
-/

namespace Playground

/-- What to do instead of a command. -/
inductive Halt where
  /-- Something is shown, and that is all. -/
  | shown (text : String)
  /-- The command line makes no sense. -/
  | refused
  /-- There is no way on: a length of time outgrew its count. -/
  | aborted
  deriving DecidableEq, Repr

/-- Where published modules go. -/
inductive PublishTarget where
  | directory (path : String)
  | address (url : String)
  deriving DecidableEq, Repr

/-- What the program is asked to do. -/
inductive Command where
  | session (localPath mirror : Option String) (timeout : Option Nat)
  | publish (packages : List String) (target : PublishTarget) (table : String) (json : Bool)
  | build (packages : List String) (json : Bool)
  | info
  deriving DecidableEq, Repr

/-- A command with what is common to all. -/
structure Invocation where
  verbose : Bool
  root : Option String
  command : Command
  deriving DecidableEq, Repr

namespace CommandLine

/-- A rule for an option. -/
structure Rule where
  name : String
  letter : Option Char
  takesValue : Bool
  /-- Accepts a value or says what becomes of it. -/
  check : String → Except Halt Unit

/-- Accepts the values that have a property. -/
def only (p : String → Bool) (value : String) : Except Halt Unit :=
  if p value then .ok () else .error .refused

/-- An option that is given or not. -/
def flag (name : String) (letter : Option Char) : Rule := ⟨name, letter, false, fun _ => .ok ()⟩

/-- An option with a path. -/
def pathOption (name : String) : Rule := ⟨name, none, true, only (· ≠ "")⟩

/-- An option with any text. -/
def textOption (name : String) : Rule := ⟨name, none, true, fun _ => .ok ()⟩

/-- The option for the form of the output. -/
def outputOption : Rule := ⟨"output", some 'o', true, only (["text", "json"].contains ·)⟩

def checkDuration (value : String) : Except Halt Unit :=
  match Duration.read value with
  | .ok _ => .ok ()
  | .error .unreadable => .error .refused
  | .error .overrun => .error .aborted

/-- The option for a length of time. -/
def timeoutOption : Rule := ⟨"timeout", none, true, checkDuration⟩

/-- The options that every command has. -/
def commonRules : List Rule := [flag "verbose" (some 'v'), pathOption "root"]

def versionText : String := "playbuild 0.1.0"

def helpText : String :=
  "playbuild - compile playground programs and sync them to clients\n\n" ++
    "Usage: playbuild [OPTIONS] <COMMAND>\n\nCommands:\n" ++
    "  session  Serve one interactive session over stdin/stdout (JSON lines)\n" ++
    "  publish  Precompile library packages and upload them to storage\n" ++
    "  build    Build packages from the root and print their hashes\n" ++
    "  info     Show the resolved configuration\n" ++
    "  help     Print this message or the help of the given subcommand(s)"

/-- What the arguments of a place are. -/
inductive Arguments where
  /-- There are none. -/
  | none
  /-- The first one is a command, which ends the place. -/
  | command
  /-- There can be any number. -/
  | any
  deriving DecidableEq

/-- What can be given at one place of the command line. -/
structure Place where
  rules : List Rule
  /-- Whether the version can be asked for. -/
  hasVersion : Bool
  arguments : Arguments

/-- An option that was begun. -/
structure Begun where
  rule : Rule
  /-- Its value, when that was in a word of its own. -/
  value : Option String

/-- What was given at one place. -/
structure Given where
  options : List (String × String)
  arguments : List String
  /-- The last option, when its value is not yet looked at. -/
  begun : Option Begun
  /-- Whether everything else is an argument. -/
  literal : Bool

namespace Given

/-- Nothing was given. -/
def nothing : Given := ⟨[], [], none, false⟩

/-- The value of an option. -/
def value? (g : Given) (name : String) : Option String := g.options.lookup name

/-- Takes an option with its value. -/
def add (g : Given) (rule : Rule) (value : String) : Except Halt Given :=
  if (g.value? rule.name).isSome then .error .refused
  else (rule.check value).map fun _ => { g with options := (rule.name, value) :: g.options }

/-- Takes the option that was begun, which has to have its value. -/
def settle (g : Given) : Except Halt Given :=
  match g.begun with
  | none => .ok g
  | some ⟨_, none⟩ => .error .refused
  | some ⟨rule, some value⟩ => { g with begun := none }.add rule value

/-- Takes an option whose value is still to come. -/
def await (g : Given) (rule : Rule) : Given := { g with begun := some ⟨rule, none⟩ }

end Given

/-- Takes an option by its name, with a value if there is an equals sign. -/
def takeLong (place : Place) (g : Given) (body : List Char) : Except Halt Given :=
  let name := String.ofList (body.takeWhile (· ≠ '='))
  let value := if body.contains '=' then some (String.ofList ((body.dropWhile (· ≠ '=')).drop 1))
    else none
  match place.rules.find? fun rule => rule.name = name with
  | some rule =>
    match rule.takesValue, value with
    | true, some value => g.add rule value
    | true, none => .ok (g.await rule)
    | false, none => g.add rule ""
    | false, some _ => .error .refused
  | none =>
    if value.isSome then .error .refused
    else if name = "help" then .error (.shown helpText)
    else if name = "version" ∧ place.hasVersion then .error (.shown versionText)
    else .error .refused

/-- Takes options by their letters; what follows the letter of one with a value is its value. -/
def takeShort (place : Place) (g : Given) : List Char → Except Halt Given
  | [] => .ok g
  | c :: cs =>
    match place.rules.find? fun rule => rule.letter = some c with
    | some rule =>
      if rule.takesValue then
        match cs with
        | [] => .ok (g.await rule)
        | '=' :: value => g.add rule (String.ofList value)
        | value => g.add rule (String.ofList value)
      else (g.add rule "").bind fun g => takeShort place g cs
    | none =>
      if c = 'h' then .error (.shown helpText)
      else if c = 'V' ∧ place.hasVersion then .error (.shown versionText)
      else .error .refused

/-- Takes one word of the command line that is no argument. -/
def takeOption (place : Place) (g : Given) (word : String) : Except Halt Given := do
  let g ← g.settle
  match word.toList with
  | ['-', '-'] => return { g with literal := true }
  | '-' :: '-' :: body => takeLong place g body
  | _ :: letters => takeShort place g letters
  | [] => return g

/-- Whether a word is an option or the mark that ends them. -/
def isOption (word : String) : Bool := word.toList.head? == some '-' && word ≠ "-"

/-- Takes the words of a place; those that are left follow the command that ended it.  A value in a
word of its own is looked at only when something else is taken, so one before a command waits for
the command. -/
def takeAll (place : Place) (g : Given) : List String → Except Halt (Given × List String)
  | [] => .ok (g, [])
  | word :: words =>
    if !g.literal && isOption word then do takeAll place (← takeOption place g word) words
    else
      match g.begun with
      | some ⟨rule, none⟩ => takeAll place { g with begun := some ⟨rule, some word⟩ } words
      | _ =>
        match place.arguments with
        | .none => g.settle.bind fun _ => .error .refused
        | .command => .ok ({ g with arguments := [word] }, words)
        | .any => do
          let g ← g.settle
          takeAll place { g with arguments := g.arguments ++ [word] } words

/-- What can be given before a command. -/
def topPlace : Place := ⟨commonRules, true, .command⟩

/-- What can be given with a command. -/
def commandPlace (rules : List Rule) (arguments : Arguments) : Place :=
  ⟨commonRules ++ rules, false, arguments⟩

def commandNames : List String := ["session", "publish", "build", "info", "help"]

def help : List String → Halt
  | [] => .shown helpText
  | [name] => if commandNames.contains name then .shown helpText else .refused
  | _ => .refused

/-- Whether JSON was asked for. -/
def asksJson (g : Given) : Bool := g.value? "output" = some "json"

/-- What can be given with each command. -/
def place? (name : String) : Option Place :=
  match name with
  | "session" => some (commandPlace [pathOption "local", textOption "mirror", timeoutOption] .none)
  | "publish" =>
    some (commandPlace
      [pathOption "out", textOption "bucket-url", pathOption "table", outputOption] .any)
  | "build" => some (commandPlace [outputOption] .any)
  | "info" => some (commandPlace [] .none)
  | _ => none

/-- The place where modules go, of which there has to be exactly one. -/
def targetOf (g : Given) : Except Halt PublishTarget :=
  match g.value? "out", g.value? "bucket-url" with
  | some path, none => .ok (.directory path)
  | none, some url => .ok (.address url)
  | _, _ => .error .refused

/-- The file of the lookup table unless another is given. -/
def defaultTable : String := "table.json"

/-- The command that was given. -/
def commandOf (name : String) (g : Given) : Except Halt Command :=
  match name with
  | "session" =>
    let timeout := (g.value? "timeout").bind fun value => (Duration.read value).toOption
    .ok (.session (g.value? "local") (g.value? "mirror") timeout)
  | "publish" => do
    let target ← targetOf g
    return .publish g.arguments target ((g.value? "table").getD defaultTable) (asksJson g)
  | "build" => if g.arguments = [] then .error .refused else .ok (.build g.arguments (asksJson g))
  | "info" => .ok .info
  | _ => .error .refused

/-- What a command line asks for. -/
def read (words : List String) : Except Halt Invocation := do
  let (top, words) ← takeAll topPlace .nothing words
  match top.arguments with
  | [name] =>
    if top.literal then throw .refused
    if name = "help" then throw (help words)
    match place? name with
    | none => throw .refused
    | some place =>
      let (given, _) ← takeAll place .nothing words
      let given ← given.settle
      let command ← commandOf name given
      let top ← top.settle
      let root := (given.value? "root").orElse fun _ => top.value? "root"
      let verbose := (given.value? "verbose").isSome || (top.value? "verbose").isSome
      return ⟨verbose, root, command⟩
  | _ => throw .refused

end CommandLine

end Playground
