import Playground.Artifact
import Playground.Proofs.Bundle.Payload

/-!
# Modules give their payloads back

The full text of a module begins with comment lines in which import paths stand as they are, so
these lines cannot be told apart by what is in them.  But no line after the one that opens the
module reads like that line, and from there on every line tells what it stands for
(`payload_eq_of_moduleText`).
-/

namespace Playground

open Playground.Bytes
open Playground.Text
open Playground.Bundle

namespace Artifact

/-! ### Lines -/

def openText (path : String) : List Char :=
  "$module(".toList ++ (Json.quoteChars path.toList ++ ", function () \x7b".toList)

def loadText (path : String) : List Char :=
  "$load(".toList ++ (Json.quoteChars path.toList ++ ");".toList)

def closeText : List Char := "\x7d);".toList

theorem append_three (a b c d : List Char) : a ++ b ++ (c ++ d) = a ++ (b ++ c) ++ d := by
  rw [List.append_assoc, List.append_assoc, List.append_assoc]

theorem toList_openLine (path : String) : (openLine path).toList = openText path ++ ['\n'] := by
  have hend : ", function () \x7b\n".toList = ", function () \x7b".toList ++ ['\n'] := by decide
  rw [openLine, String.toList_append, String.toList_append, toList_quote path, hend]
  exact append_three _ _ _ _

theorem toList_loadLine (path : String) : (loadLine path).toList = loadText path ++ ['\n'] := by
  have hend : ");\n".toList = ");".toList ++ ['\n'] := by decide
  rw [loadLine, String.toList_append, String.toList_append, toList_quote path, hend]
  exact append_three _ _ _ _

theorem toList_closeLine : closeLine.toList = closeText ++ ['\n'] := by decide

theorem newline_notMem_openText (path : String) : '\n' ∉ openText path :=
  List.not_mem_append (by decide)
    (List.not_mem_append Json.newline_notMem_quoteChars (by decide))

theorem newline_notMem_loadText (path : String) : '\n' ∉ loadText path :=
  List.not_mem_append (by decide)
    (List.not_mem_append Json.newline_notMem_quoteChars (by decide))

theorem mark_openText (path : String) : mark (openText path) = ['$', 'm'] := rfl

theorem mark_loadText (path : String) : mark (loadText path) = ['$', 'l'] := rfl

theorem openText_ne_nil (path : String) : openText path ≠ [] := by
  intro h
  have := mark_openText path
  rw [h] at this
  cases this

theorem exists_commentLines (unit : CompiledUnit) :
    ∃ cs, (commentLines unit).toList = cs ++ ['\n'] := by
  unfold commentLines
  split
  · exact ⟨("// package " ++ unit.importPath).toList, by
      rw [String.toList_append, String.toList_append]
      exact List.append_nil _⟩
  · exact ⟨("// package " ++ unit.importPath ++ "\n" ++
      ("// imports: " ++ ", ".intercalate unit.dependencies)).toList, by
        rw [← String.append_assoc, ← String.append_assoc, String.toList_append]
        rfl⟩

/-! ### Whole modules -/

/-- The lines of a module after the one that opens it, when the payload has the given lines. -/
def moduleLines (unit : CompiledUnit) (lines : List (List Char)) : List (List Char) :=
  unit.dependencies.map loadText ++ (lines ++ [closeText])

theorem endLine_of_toList {payload : String} {lines : List (List Char)} (hne : lines ≠ [])
    (h : payload.toList = unlines lines) : endLine payload = payload := by
  rw [endLine, if_pos]
  rw [h, getLast?_unlines hne]

theorem exists_toList_moduleText (unit : CompiledUnit) {payload : String}
    {lines : List (List Char)} (hne : lines ≠ []) (h : payload.toList = unlines lines) :
    ∃ cs, (moduleText unit payload).toList =
      cs ++ '\n' :: unlines (openText unit.importPath :: moduleLines unit lines) := by
  obtain ⟨cs, hcs⟩ := exists_commentLines unit
  have hload : (unit.dependencies.map loadLine).flatMap String.toList =
      unlines (unit.dependencies.map loadText) := by
    rw [List.flatMap_map, unlines_map]
    exact congrArg (unit.dependencies.flatMap ·) (funext toList_loadLine)
  have hclose : closeLine.toList = unlines [closeText] := toList_closeLine
  refine ⟨cs, ?_⟩
  have hlines : unlines (openText unit.importPath :: moduleLines unit lines) =
      openText unit.importPath ++ '\n' :: (unlines (unit.dependencies.map loadText) ++
        (unlines lines ++ unlines [closeText])) := by
    rw [unlines_cons, moduleLines, unlines_append, unlines_append]
  rw [moduleText, String.toList_append, String.toList_append, String.toList_append,
    String.toList_append, toList_intercalate_empty, hload, endLine_of_toList hne h, h, hclose, hcs,
    toList_openLine, hlines]
  rw [List.append_assoc, List.append_assoc, List.append_assoc, List.append_assoc,
    List.append_assoc]
  rfl

/-- No line after the one that opens a module reads like it. -/
theorem of_mem_moduleLines {unit : CompiledUnit} {lines : List (List Char)} {path : String}
    (hlines : IsPayload lines) {line : List Char} (h : line ∈ moduleLines unit lines) :
    '\n' ∉ line ∧ line ≠ openText path := by
  have hmark (hm : mark line ≠ ['$', 'm']) : line ≠ openText path := by
    rintro rfl
    exact hm (mark_openText path)
  rw [moduleLines, List.mem_append, List.mem_append, List.mem_map, List.mem_singleton] at h
  rcases h with ⟨d, -, rfl⟩ | h | rfl
  · exact ⟨newline_notMem_loadText d, hmark (by rw [mark_loadText]; decide)⟩
  · obtain ⟨hnewline, hm⟩ := hlines line h
    refine ⟨hnewline, hmark ?_⟩
    rcases hm with hm | hm | hm <;> rw [hm] <;> decide
  · exact ⟨by decide, hmark (by decide)⟩

/-- Whether a line of a module loads a dependency. -/
def isLoad (line : List Char) : Bool := mark line == ['$', 'l']

theorem isLoad_loadText (path : String) : isLoad (loadText path) = true := rfl

/-- Modules of one package with the same full text have the same payload. -/
theorem payload_eq_of_moduleText {unit unit' : CompiledUnit} {payload payload' : String}
    {lines lines' : List (List Char)} (hne : lines ≠ []) (hne' : lines' ≠ [])
    (hlines : IsPayload lines) (hlines' : IsPayload lines')
    (hpayload : payload.toList = unlines lines) (hpayload' : payload'.toList = unlines lines')
    (hpath : unit.importPath = unit'.importPath)
    (h : moduleText unit payload = moduleText unit' payload') : payload = payload' := by
  obtain ⟨cs, hcs⟩ := exists_toList_moduleText unit hne hpayload
  obtain ⟨ds, hds⟩ := exists_toList_moduleText unit' hne' hpayload'
  rw [← h, hcs, hpath] at hds
  have hafter : moduleLines unit lines = moduleLines unit' lines' :=
    eq_of_unlines_after (newline_notMem_openText _) (openText_ne_nil _)
      (fun line hline => of_mem_moduleLines hlines hline)
      (fun line hline => of_mem_moduleLines hlines' hline) hds
  have hload (paths : List String) : ∀ line ∈ paths.map loadText, isLoad line = true := by
    intro line hline
    obtain ⟨path, -, rfl⟩ := List.mem_map.1 hline
    exact isLoad_loadText path
  have hrest {ls : List (List Char)} (hls : IsPayload ls) :
      ∀ line ∈ ls ++ [closeText], isLoad line = false := by
    intro line hline
    rcases List.mem_append.1 hline with hline | hline
    · rcases (hls line hline).2 with hm | hm | hm <;> rw [isLoad, hm] <;> rfl
    · rw [List.mem_singleton.1 hline]
      rfl
  have hclosed := (append_inj_of_class (hload _) (hload _) (hrest hlines) (hrest hlines') hafter).2
  apply String.toList_injective
  rw [hpayload, hpayload', List.append_cancel_right hclosed]

end Artifact

end Playground
