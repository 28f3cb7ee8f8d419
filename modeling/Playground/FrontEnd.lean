import Playground.Package
import Playground.Source.PackageClause
import Playground.Variant

/-!
# Compiled units and front ends

A front end turns a package, given the compiled units of the packages it imports, into a unit of
its own, or rejects it.  It may keep a state of its own between calls, may ask for the session to be
cancelled, and may break down.  Builds rely on nothing else.
-/

namespace Playground

/-- What a front end makes of a package. -/
structure CompiledUnit where
  importPath : String
  payload : ByteArray
  /-- The import paths of the units it was built against. -/
  dependencies : List String
  deriving DecidableEq

/-- Compiled units by import path. -/
abbrev UnitSet := Named CompiledUnit

structure CompileError where
  importPath : String
  text : String
  position : Option Source.Position
  deriving DecidableEq, Repr

/-- The wording of a rejection. -/
def CompileError.message (e : CompileError) : String :=
  match e.position with
  | some position => e.importPath ++ ": " ++ position.text ++ ": " ++ e.text
  | none => e.importPath ++ ": " ++ e.text

/-- What a front end is given. -/
structure CompileRequest where
  package : Package
  /-- The units of the package's imports, in their order. -/
  dependencies : List CompiledUnit
  variant : Variant

/-- How a call of a front end ends. -/
inductive Outcome where
  | built (unit : CompiledUnit)
  | rejected (error : CompileError)
  /-- The front end broke down. -/
  | panicked (cause : String)

/-- What a front end answers. -/
structure CompileReply where
  outcome : Outcome
  /-- Whether the session was cancelled during the call. -/
  cancels : Bool

/-- A front end with a state of type `σ`. -/
structure FrontEnd (σ : Type) where
  compile : CompileRequest → σ → CompileReply × σ

namespace FrontEnd

/-- The front end that computes its answer from the request alone. -/
def ofFunction (f : CompileRequest → Except CompileError CompiledUnit) : FrontEnd σ where
  compile request state :=
    match f request with
    | .ok unit => (⟨.built unit, false⟩, state)
    | .error e => (⟨.rejected e, false⟩, state)

end FrontEnd

end Playground
