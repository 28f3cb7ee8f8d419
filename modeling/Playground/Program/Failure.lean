import Playground.Publish.Publisher
import Playground.Session

/-!
# How failures are shown

A failure of the program is shown with the chain of its causes, each with its own wording.
-/

namespace Playground

open Playground.Text

/-- The chain of causes of a failure, from the failure down. -/
def TreeError.chain (e : TreeError) : List String :=
  match e with
  | .io _ cause => [e.message, cause]
  | e => [e.message]

def BuildError.chain (e : BuildError) : List String :=
  match e with
  | .load (.tree cause) => e.message :: cause.chain
  | .compile cause => [e.message, cause.message]
  | e => [e.message]

def FetchError.chain (e : FetchError) : List String :=
  match e with
  | .tree cause => e.message :: cause.chain
  | e => [e.message]

def ProtocolError.chain (e : ProtocolError) : List String :=
  match e with
  | .malformed cause | .io cause => [e.message, cause]
  | e => [e.message]

def SessionError.chain (e : SessionError) : List String :=
  match e with
  | .protocol cause => cause.chain
  | .fetch cause => cause.chain
  | .build cause => cause.chain
  | .render cause => [cause.message]
  | .tree cause => e.message :: cause.chain
  | .cancelled | .disconnected => [e.message]

def PublishError.chain (e : PublishError) : List String :=
  match e with
  | .build cause => cause.chain
  | .render cause => [cause.message]
  | .storage (.io _ cause) => [e.message, cause]
  | .storage _ => [e.message]
  | .tree cause => e.message :: cause.chain
  | .table (.file _ cause) | .table (.content cause) => [e.message, cause]

namespace Failure

/-- A text whose lines but the first are indented. -/
def hang (indent : Nat) (s : String) : List Char :=
  glue '\n' (match splitOn '\n' s.toList with
    | [] => []
    | line :: lines => line :: lines.map (List.replicate indent ' ' ++ ·))

/-- A number that takes up five places. -/
def placed (n : Nat) : List Char :=
  let digits := (toString n).toList
  List.replicate (5 - digits.length) ' ' ++ digits

/-- The lines of the causes of a failure; they are numbered when there are several. -/
def causeLines : List String → List (List Char)
  | [] => []
  | [cause] => [List.replicate 4 ' ' ++ hang 4 cause]
  | causes => causes.mapIdx fun i cause => placed i ++ ':' :: ' ' :: hang 7 cause

/-- A failure with its causes, as the program shows it at its end. -/
def text (failure : String) (causes : List String) : String :=
  "Error: " ++ failure ++
    (if causes = [] then ""
      else "\n\nCaused by:\n" ++ String.ofList (glue '\n' (causeLines causes))) ++ "\n"

end Failure

end Playground
