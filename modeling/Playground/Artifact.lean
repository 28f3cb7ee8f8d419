import Playground.Build.Variants
import Playground.Bytes.Gzip
import Playground.Bytes.Utf8
import Playground.Json.Quoted

/-!
# Artifacts

An artifact is a compiled unit as a module that registers itself when it is run.  Its text, and so
its digest, depends on the unit and the variant alone.  The optimized variant is the full text
without its empty lines, its comment lines and the blanks around each line.
-/

namespace Playground

open Playground.Bytes
open Playground.Text

/-- Why units cannot be rendered. -/
inductive RenderError where
  /-- The payload of a unit is not text. -/
  | invalidPayload (importPath : String)
  /-- There is no unit of a variant. -/
  | missingUnit (importPath : String) (variant : Variant)
  deriving DecidableEq, Repr

def RenderError.message : RenderError → String
  | invalidPayload importPath => "unit for \"" ++ importPath ++ "\" is not valid UTF-8"
  | missingUnit importPath variant =>
    "internal error: no " ++ variant.name ++ " unit for \"" ++ importPath ++ "\""

/-- A rendered module. -/
structure Artifact where
  importPath : String
  variant : Variant
  bytes : ByteArray
  digest : Digest
  deriving DecidableEq

namespace Artifact

def commentLines (unit : CompiledUnit) : String :=
  "// package " ++ unit.importPath ++ "\n" ++
    if unit.dependencies = [] then ""
    else "// imports: " ++ ", ".intercalate unit.dependencies ++ "\n"

/-- The line that opens a module. -/
def openLine (importPath : String) : String :=
  "$module(" ++ Json.quote importPath ++ ", function () \x7b\n"

/-- The line that loads a dependency. -/
def loadLine (dependency : String) : String := "$load(" ++ Json.quote dependency ++ ");\n"

/-- The line that closes a module. -/
def closeLine : String := "\x7d);\n"

def endLine (payload : String) : String :=
  if payload.toList.getLast? = some '\n' then payload else payload ++ "\n"

/-- The full text of the module of a unit whose payload is `payload`. -/
def moduleText (unit : CompiledUnit) (payload : String) : String :=
  commentLines unit ++ openLine unit.importPath ++
    "".intercalate (unit.dependencies.map loadLine) ++ endLine payload ++ closeLine

/-- The lines of a text that say something, trimmed, each with a line feed. -/
def strip (cs : List Char) : List Char := (codeLines cs).flatMap (· ++ ['\n'])

/-- The text of a module in a variant. -/
def variantText (variant : Variant) (text : String) : String :=
  match variant with
  | .full => text
  | .optimized => String.ofList (strip text.toList)

/-- Renders a unit. -/
def render (unit : CompiledUnit) (variant : Variant) : Except RenderError Artifact :=
  match Utf8.decode unit.payload with
  | .error _ => .error (.invalidPayload unit.importPath)
  | .ok payload =>
    let bytes := (variantText variant (moduleText unit payload)).toByteArray
    .ok ⟨unit.importPath, variant, bytes, .ofBytes bytes⟩

/-- The module as it is sent. -/
def compressed [Gzip.Encoder] (a : Artifact) : ByteArray := Gzip.compress a.bytes

end Artifact

/-- Both renderings of a package. -/
abbrev RenderedPackage := PerVariant Artifact

/-- Rendered packages by import path. -/
abbrev RenderedSet := Named RenderedPackage

namespace RenderedSet

/-- Renders a package in both variants. -/
def renderPackage (importPath : String) (full : CompiledUnit) (optimized : Option CompiledUnit) :
    Except RenderError RenderedPackage :=
  match optimized with
  | none => .error (.missingUnit importPath .optimized)
  | some optimized => do
    let optimized ← Artifact.render optimized .optimized
    let full ← Artifact.render full .full
    return ⟨optimized, full⟩

/-- Renders every package that has a full unit. -/
def render (units : VariantUnits) : Except RenderError RenderedSet :=
  units.full.toList.foldlM (fun rendered (path, full) => do
    return rendered.insert path (← renderPackage path full units.optimized[path]?)) ∅

end RenderedSet

end Playground
