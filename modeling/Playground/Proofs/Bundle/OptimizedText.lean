import Playground.Proofs.Bundle.ModuleText
import Playground.Proofs.Rendered
import Playground.Proofs.Text.CodeLines

/-!
# The text of an optimized module

An optimized module is meant to be the line that opens it, a line for each dependency, what the
payload says, and the line that closes it (`Artifact.optimizedLines`).  It is made from the full
text, in which the import path and the dependencies also stand as they are, behind comment marks.
A comment ends with its line, so what they say after a line feed is left over and comes first
(`Artifact.strayLines`).

Main statement: an optimized module has these lines and no others, and so it is what it is meant to
be exactly if nothing is left over (`Artifact.render_optimized_iff`).
-/

namespace Playground.Artifact

open Playground.Bytes
open Playground.Text

variable {unit : CompiledUnit} {payload : String}

/-- The lines that an optimized module is meant to have. -/
def optimizedLines (unit : CompiledUnit) (payload : String) : List (List Char) :=
  openText unit.importPath :: moduleLines unit (codeLines payload.toList)

/-- The lines of the comments that head a module which are no comments: those of the import path
and of the list of dependencies after the first. -/
def headerLines (unit : CompiledUnit) : List (List Char) :=
  laterLines unit.importPath.toList ++ laterLines (", ".intercalate unit.dependencies).toList

/-- What is left over of the comments that head a module. -/
def strayLines (unit : CompiledUnit) : List (List Char) := codeOf (headerLines unit)

/-! ### The parts of a module -/

theorem getLast?_append_append {a b c : List Char} {d : Char} (h : c.getLast? = some d) :
    (a ++ (b ++ c)).getLast? = some d := by
  rw [List.getLast?_append, List.getLast?_append, h]
  rfl

theorem isCodeLine_openText (path : String) : IsCodeLine (openText path) where
  newline := newline_notMem_openText path
  trimmed := trim_eq_self (a := '$') rfl (by decide)
    (getLast?_append_append (by decide) : _ = some '\x7b') (by decide)
  code := rfl

theorem isCodeLine_loadText (path : String) : IsCodeLine (loadText path) where
  newline := newline_notMem_loadText path
  trimmed := trim_eq_self (a := '$') rfl (by decide)
    (getLast?_append_append (by decide) : _ = some ';') (by decide)
  code := rfl

/-- A comment line leaves the lines of its text after the first. -/
theorem codeLines_commentLine {mark text : String} {ds cs : List Char}
    (hmark : mark.toList = '/' :: '/' :: ds) (h : '\n' ∉ ds) :
    codeLines ((mark ++ text ++ "\n").toList ++ cs) =
      codeOf (laterLines text.toList) ++ codeLines cs := by
  have hline : (mark ++ text ++ "\n").toList ++ cs =
      '/' :: '/' :: (ds ++ text.toList) ++ '\n' :: cs := by
    simp [hmark]
  rw [hline, codeLines_append, codeLines_comment h]

theorem codeLines_commentLines (unit : CompiledUnit) (cs : List Char) :
    codeLines ((commentLines unit).toList ++ cs) = strayLines unit ++ codeLines cs := by
  rw [strayLines, headerLines, codeOf_append, commentLines]
  split
  next hnone =>
    have hempty : codeOf (laterLines (", ".intercalate []).toList) = [] := by decide
    rw [hnone, String.append_empty, codeLines_commentLine rfl (by decide), hempty, List.append_nil]
  next =>
    rw [String.toList_append, List.append_assoc, codeLines_commentLine rfl (by decide),
      codeLines_commentLine rfl (by decide), List.append_assoc]

theorem codeLines_endLine (payload : String) (cs : List Char) :
    codeLines ((endLine payload).toList ++ cs) = codeLines payload.toList ++ codeLines cs := by
  have hnil : codeLines [] = [] := rfl
  rw [endLine]
  split
  next hlast =>
    obtain ⟨ds, hds⟩ := List.getLast?_eq_some_iff.1 hlast
    rw [hds, List.append_assoc, List.singleton_append, codeLines_append, codeLines_append, hnil,
      List.append_nil]
  next =>
    rw [String.toList_append, List.append_assoc]
    exact codeLines_append _ _

/-! ### Whole modules -/

theorem codeLines_moduleText (unit : CompiledUnit) (payload : String) :
    codeLines (moduleText unit payload).toList =
      strayLines unit ++ optimizedLines unit payload := by
  have hopen : (openLine unit.importPath).toList = unlines [openText unit.importPath] :=
    (toList_openLine _).trans (List.append_nil _).symm
  have hload : (unit.dependencies.map loadLine).flatMap String.toList =
      unlines (unit.dependencies.map loadText) := by
    rw [List.flatMap_map, unlines_map]
    exact congrArg (unit.dependencies.flatMap ·) (funext toList_loadLine)
  have hclose : codeLines closeLine.toList = [closeText] := by decide
  have hloads : ∀ line ∈ unit.dependencies.map loadText, IsCodeLine line := by
    simpa using fun d _ => isCodeLine_loadText d
  rw [moduleText, String.toList_append, String.toList_append, String.toList_append,
    String.toList_append, toList_intercalate_empty, hload, hopen, List.append_assoc,
    List.append_assoc, List.append_assoc, codeLines_commentLines,
    codeLines_unlines_append (by simpa using isCodeLine_openText _),
    codeLines_unlines_append hloads, codeLines_endLine, hclose]
  rfl

theorem unlines_eq_nil_iff {ls : List (List Char)} : unlines ls = [] ↔ ls = [] := by
  cases ls <;> simp [unlines]

theorem toByteArray_ofList_inj {cs ds : List Char} :
    (String.ofList cs).toByteArray = (String.ofList ds).toByteArray ↔ cs = ds := by
  refine ⟨fun h => ?_, fun h => by rw [h]⟩
  have := String.toByteArray_inj.1 h
  simpa using congrArg String.toList this

theorem strayLines_eq_nil_iff : strayLines unit = [] ↔
    ∀ line ∈ headerLines unit, trim line = [] ∨ ['/', '/'] <+: trim line := by
  simp [strayLines, codeOf, List.filter_eq_nil_iff, isCode_eq_false_iff]

theorem render_optimized (h : Utf8.decode unit.payload = .ok payload) :
    ∃ artifact, render unit .optimized = .ok artifact ∧ artifact.bytes =
      (String.ofList (unlines (strayLines unit ++ optimizedLines unit payload))).toByteArray := by
  refine ⟨_, render_of_payload (Utf8.decode_eq_ok_iff.1 h).symm .optimized, ?_⟩
  rw [variantText, strip, codeLines_moduleText]
  rfl

/-- An optimized module is what is left over of the comments that head it, and then the lines that
it is meant to have.  So it is what it is meant to be exactly if every line of the import path and
of the list of dependencies after the first is blank or a comment. -/
theorem render_optimized_iff (h : Utf8.decode unit.payload = .ok payload) :
    ∃ artifact, render unit .optimized = .ok artifact ∧
      artifact.bytes =
        (String.ofList (unlines (strayLines unit ++ optimizedLines unit payload))).toByteArray ∧
      (artifact.bytes = (String.ofList (unlines (optimizedLines unit payload))).toByteArray ↔
        ∀ line ∈ headerLines unit, trim line = [] ∨ ['/', '/'] <+: trim line) := by
  obtain ⟨artifact, hrender, hbytes⟩ := render_optimized h
  refine ⟨artifact, hrender, hbytes, ?_⟩
  rw [hbytes, ← strayLines_eq_nil_iff, toByteArray_ofList_inj, unlines_append]
  simp [unlines_eq_nil_iff]

/-- A unit whose import path goes on after a line feed. -/
def brokenUnit : CompiledUnit where
  importPath := "a\nstop();"
  payload := "  run();\n\n// done".toByteArray
  dependencies := ["b"]

theorem decode_brokenUnit : Utf8.decode brokenUnit.payload = .ok "  run();\n\n// done" :=
  Utf8.decode_toByteArray "  run();\n\n// done"

theorem render_optimized_brokenUnit :
    Utf8.decode brokenUnit.payload = .ok "  run();\n\n// done" ∧
      ∃ artifact, render brokenUnit .optimized = .ok artifact ∧ artifact.bytes =
        ("stop();\n$module(\"a\\nstop();\", function () \x7b\n$load(\"b\");\nrun();\n" ++
          "\x7d);\n").toByteArray := by
  obtain ⟨artifact, hrender, hbytes, -⟩ := render_optimized_iff decode_brokenUnit
  refine ⟨decode_brokenUnit, artifact, hrender, hbytes.trans (congrArg String.toByteArray ?_)⟩
  decide +kernel

/-- So what an import path says after a line feed does stand in the module, outside of quotes. -/
theorem not_render_optimized_meant :
    ¬ ∀ (unit : CompiledUnit) (payload : String), Utf8.decode unit.payload = .ok payload →
      ∃ artifact, render unit .optimized = .ok artifact ∧
        artifact.bytes = (String.ofList (unlines (optimizedLines unit payload))).toByteArray := by
  intro h
  obtain ⟨artifact, hrender, hbytes⟩ := h brokenUnit _ decode_brokenUnit
  obtain ⟨artifact', hrender', hbytes'⟩ := render_optimized decode_brokenUnit
  obtain rfl : artifact = artifact' := Except.ok.inj (hrender.symm.trans hrender')
  rw [hbytes, toByteArray_ofList_inj] at hbytes'
  revert hbytes'
  decide +kernel

end Playground.Artifact
