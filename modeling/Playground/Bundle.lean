import Playground.FrontEnd
import Playground.Json.Quoted

/-!
# Bundling

The front end that puts sources together and compiles nothing.  It checks that every file begins
with a package clause and that all name the same package.  The payload of a unit has one line for
each dependency, with the digest of that unit's payload, so that a change reaches every dependent,
and one line for each file.  For size, files lose their empty lines, their comment lines and the
blanks around each line.
-/

namespace Playground.Bundle

open Playground.Bytes
open Playground.Text

/-- The lines of a source text that say something, trimmed. -/
def minify (cs : List Char) : List Char := glue '\n' (codeLines cs)

/-- The body of a source file in a unit. -/
def body (variant : Variant) (cs : List Char) : List Char :=
  match variant with
  | .optimized => minify cs
  | .full => cs

/-- The line that heads the payload of a full unit. -/
def headLine (package : Package) : String :=
  "// sources " ++ (Digest.ofFiles package.files).short ++ "\n"

/-- The line of a dependency. -/
def dependencyLine (unit : CompiledUnit) : String :=
  "$dep(" ++ Json.quote unit.importPath ++ ", \"" ++ (Digest.ofBytes unit.payload).text ++ "\");\n"

/-- The line of a file. -/
def fileLine (variant : Variant) (name : String) (cs : List Char) : String :=
  "$file(" ++ Json.quote name ++ ", " ++ Json.quote (String.ofList (body variant cs)) ++ ");\n"

/-- The lines of some files, all of which have to name the package `expected` if it is given. -/
def fileLines (importPath : String) (variant : Variant) :
    (expected : Option String) → List (String × ByteArray) → Except CompileError String
  | _, [] => .ok ""
  | expected, (name, content) :: files =>
    match Utf8.decode content with
    | .error e => .error ⟨importPath, "invalid UTF-8: " ++ e.message, some ⟨name, 1, 1⟩⟩
    | .ok source =>
      match Source.packageName name source.toList with
      | .error (position, fault) => .error ⟨importPath, fault.message, some position⟩
      | .ok found =>
        if expected.all (· = found) then
          (fileLines importPath variant (some found) files).map
            (fileLine variant name source.toList ++ ·)
        else
          .error ⟨importPath,
            "found packages " ++ expected.getD "" ++ " and " ++ found ++ " in the same directory",
            some ⟨name, 1, 1⟩⟩

/-- The payload of the unit of a package. -/
def payload (request : CompileRequest) : Except CompileError String :=
  let package := request.package
  if package.files.isEmpty then
    .error ⟨package.importPath, "no buildable source files", none⟩
  else
    let head :=
      match request.variant with
      | .full => headLine package
      | .optimized => ""
    let dependencies := request.dependencies.map dependencyLine
    (fileLines package.importPath request.variant none package.files.toList).map
      ("".intercalate (head :: dependencies) ++ ·)

/-- The unit of a package. -/
def compile (request : CompileRequest) : Except CompileError CompiledUnit :=
  (payload request).map fun text =>
    ⟨request.package.importPath, text.toByteArray, request.dependencies.map (·.importPath)⟩

/-- Where the payload of a unit is left in the scratch tree. -/
def scratchPath (variant : Variant) (importPath : String) : String :=
  Path.join ("pkg/" ++ variant.name) (importPath ++ ".a")

/-- The scratch tree with the payload of a unit; as it was when it cannot be written there. -/
def leave (variant : Variant) (unit : CompiledUnit) (scratch : MemoryTree) : MemoryTree :=
  match scratch.writeAt (scratchPath variant unit.importPath) unit.payload with
  | .ok scratch => scratch
  | .error _ => scratch

/-- The front end that bundles, and leaves the payloads in a scratch tree. -/
def frontEnd : FrontEnd MemoryTree where
  compile request scratch :=
    match compile request with
    | .ok unit => (⟨.built unit, false⟩, leave request.variant unit scratch)
    | .error e => (⟨.rejected e, false⟩, scratch)

end Playground.Bundle
