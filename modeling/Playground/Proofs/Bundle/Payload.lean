import Playground.Proofs.Bundle.FrontEnd
import Playground.Proofs.Json.Quoted
import Playground.Proofs.Text.Lines

/-!
# Payloads can be decoded

The payload of a unit is a text of lines, and no line of it has a line feed inside
(`toList_payload`).  The first characters of a line tell what it stands for, and the line gives back
all of it.  So the payload of a full unit tells the files of the package and, for each dependency,
the import path and the digest of the payload (`payload_inj`).
-/

namespace Playground

open Playground.Bytes
open Playground.Text

/-! ### Digests -/

theorem Digest.newline_notMem_text (b : ByteArray) : '\n' ∉ (Digest.ofBytes b).text.toList := by
  have hdigit : ∀ n < 16, '\n' ≠ Hex.digit n := by decide
  rw [Digest.ofBytes, Hex.encode, String.toList_ofList, Hex.digits, List.mem_flatMap]
  rintro ⟨x, -, hx⟩
  have hlt : x.toNat < 256 := x.toNat_lt
  rw [List.mem_cons, List.mem_singleton] at hx
  rcases hx with hx | hx
  · exact hdigit (x.toNat / 16) (by omega) hx
  · exact hdigit (x.toNat % 16) (by omega) hx

theorem Digest.mem_of_cut? {n : Nat} {cs ds : List Char} (h : Digest.cut? n cs = some ds) {c : Char}
    (hc : c ∈ ds) : c ∈ cs := by
  fun_induction Digest.cut? n cs generalizing ds with
  | case1 =>
    cases h
    cases hc
  | case2 =>
    cases h
    cases hc
  | case3 n c' cs hle ih =>
    obtain ⟨es, hes, rfl⟩ := Option.map_eq_some_iff.1 h
    rcases List.mem_cons.1 hc with rfl | hc
    · exact List.mem_cons_self
    · exact List.mem_cons_of_mem _ (ih hes hc)
  | case4 => cases h

theorem Digest.newline_notMem_short (b : ByteArray) : '\n' ∉ (Digest.ofBytes b).short.toList := by
  intro hmem
  rw [Digest.short, Digest.short?] at hmem
  cases hcut : Digest.cut? Digest.shortLength (Digest.ofBytes b).text.toList with
  | none =>
    rw [hcut] at hmem
    exact Digest.newline_notMem_text b hmem
  | some ds =>
    rw [hcut, Option.map_some, Option.getD_some, String.toList_ofList] at hmem
    exact Digest.newline_notMem_text b (Digest.mem_of_cut? hcut hmem)

namespace Bundle

/-! ### Lines -/

def headText (package : Package) : List Char :=
  "// sources ".toList ++ (Digest.ofFiles package.files).short.toList

def dependencyText (path : String) (digest : Digest) : List Char :=
  "$dep(".toList ++ (Json.quoteChars path.toList ++
    (", \"".toList ++ (digest.text.toList ++ "\");".toList)))

def fileText (name : String) (cs : List Char) : List Char :=
  "$file(".toList ++ (Json.quoteChars name.toList ++
    (", ".toList ++ (Json.quoteChars cs ++ ");".toList)))

theorem toList_quote (s : String) : (Json.quote s).toList = Json.quoteChars s.toList :=
  String.toList_ofList

theorem toList_quote_ofList (cs : List Char) :
    (Json.quote (String.ofList cs)).toList = Json.quoteChars cs := by
  rw [toList_quote, String.toList_ofList]

theorem toList_headLine (package : Package) :
    (headLine package).toList = headText package ++ ['\n'] := by
  rw [headLine, String.toList_append, String.toList_append]
  rfl

theorem append_parts (a b c d e f : List Char) :
    a ++ b ++ c ++ d ++ (e ++ f) = a ++ (b ++ (c ++ (d ++ e))) ++ f := by
  rw [List.append_assoc, List.append_assoc, List.append_assoc, List.append_assoc,
    List.append_assoc, List.append_assoc, List.append_assoc]

theorem toList_dependencyLine (unit : CompiledUnit) :
    (dependencyLine unit).toList =
      dependencyText unit.importPath (.ofBytes unit.payload) ++ ['\n'] := by
  have hend : "\");\n".toList = "\");".toList ++ ['\n'] := by decide
  rw [dependencyLine, String.toList_append, String.toList_append, String.toList_append,
    String.toList_append, toList_quote unit.importPath, hend]
  exact append_parts _ _ _ _ _ _

theorem toList_fileLine (variant : Variant) (name : String) (cs : List Char) :
    (fileLine variant name cs).toList = fileText name (body variant cs) ++ ['\n'] := by
  have hend : ");\n".toList = ");".toList ++ ['\n'] := by decide
  rw [fileLine, String.toList_append, String.toList_append, String.toList_append,
    String.toList_append, toList_quote name, toList_quote_ofList (body variant cs), hend]
  exact append_parts _ _ _ _ _ _

theorem dependencyText_inj {path path' : String} {digest digest' : Digest}
    (h : dependencyText path digest = dependencyText path' digest') :
    path = path' ∧ digest = digest' := by
  obtain ⟨hpath, hrest⟩ := Json.quoteChars_append_inj (List.append_cancel_left h)
  have htext := List.append_cancel_right (List.append_cancel_left hrest)
  exact ⟨String.toList_injective hpath, congrArg Digest.mk (String.toList_injective htext)⟩

theorem fileText_inj {name name' : String} {cs cs' : List Char}
    (h : fileText name cs = fileText name' cs') : name = name' ∧ cs = cs' := by
  obtain ⟨hname, hrest⟩ := Json.quoteChars_append_inj (List.append_cancel_left h)
  obtain ⟨hcs, -⟩ := Json.quoteChars_append_inj (List.append_cancel_left hrest)
  exact ⟨String.toList_injective hname, hcs⟩

/-- The two characters that tell what a line stands for. -/
def mark (line : List Char) : List Char := line.take 2

theorem mark_headText (package : Package) : mark (headText package) = ['/', '/'] := rfl

theorem mark_dependencyText (path : String) (digest : Digest) :
    mark (dependencyText path digest) = ['$', 'd'] := rfl

theorem mark_fileText (name : String) (cs : List Char) : mark (fileText name cs) = ['$', 'f'] := rfl

/-! ### Whole payloads -/

/-- The lines of the payload of a unit, when its files have the given texts. -/
def payloadLines (request : CompileRequest) (texts : List (String × String)) :
    List (List Char) :=
  (match request.variant with
    | .full => [headText request.package]
    | .optimized => []) ++
  request.dependencies.map (fun unit => dependencyText unit.importPath (.ofBytes unit.payload)) ++
  texts.map fun (name, text) => fileText name (body request.variant text.toList)

def textFiles (texts : List (String × String)) : List (String × ByteArray) :=
  texts.map fun (name, text) => (name, text.toByteArray)

theorem fileLines_eq_ok {importPath : String} {variant : Variant} {expected : Option String}
    {files : List (String × ByteArray)} {lines : String}
    (h : fileLines importPath variant expected files = .ok lines) :
    ∃ texts, files = textFiles texts ∧ lines.toList =
      unlines (texts.map fun (name, text) => fileText name (body variant text.toList)) := by
  induction files generalizing expected lines with
  | nil =>
    cases h
    exact ⟨[], rfl, rfl⟩
  | cons file files ih =>
    obtain ⟨name, content⟩ := file
    rw [fileLines] at h
    cases hdecode : Utf8.decode content with
    | error e =>
      rw [hdecode] at h
      cases h
    | ok text =>
      rw [hdecode] at h
      dsimp only at h
      cases hname : Source.packageName name text.toList with
      | error e =>
        rw [hname] at h
        cases h
      | ok found =>
        rw [hname] at h
        dsimp only at h
        split at h
        · obtain ⟨rest, hrest, rfl⟩ := Results.map_eq_ok.1 h
          obtain ⟨texts, rfl, hlines⟩ := ih hrest
          obtain rfl := Utf8.decode_eq_ok_iff.1 hdecode
          refine ⟨(name, text) :: texts, rfl, ?_⟩
          rw [String.toList_append, toList_fileLine, hlines, List.map_cons, unlines_cons,
            List.append_assoc]
          rfl
        · cases h

theorem payload_eq_ok {request : CompileRequest} {text : String}
    (h : payload request = .ok text) :
    ∃ texts, request.package.files.toList = textFiles texts ∧
      text.toList = unlines (payloadLines request texts) := by
  rw [payload] at h
  dsimp only at h
  split at h
  · cases h
  · obtain ⟨lines, hlines, rfl⟩ := Results.map_eq_ok.1 h
    obtain ⟨texts, htexts, hlines⟩ := fileLines_eq_ok hlines
    refine ⟨texts, htexts, ?_⟩
    have hdependencies : (request.dependencies.map dependencyLine).flatMap String.toList =
        unlines (request.dependencies.map fun unit =>
          dependencyText unit.importPath (.ofBytes unit.payload)) := by
      rw [List.flatMap_map, unlines_map]
      exact congrArg (request.dependencies.flatMap ·) (funext toList_dependencyLine)
    rw [String.toList_append, toList_intercalate_empty, List.flatMap_cons, hdependencies, hlines,
      payloadLines, unlines_append, unlines_append]
    congr 2
    cases request.variant with
    | full =>
      show (headLine request.package).toList = unlines [headText request.package]
      rw [toList_headLine, unlines_cons]
      rfl
    | optimized => rfl

/-! ### Reading lines back -/

theorem newline_notMem_headText (package : Package) : '\n' ∉ headText package :=
  List.not_mem_append (by decide) (Digest.newline_notMem_short _)

theorem newline_notMem_dependencyText (path : String) (b : ByteArray) :
    '\n' ∉ dependencyText path (.ofBytes b) := by
  refine List.not_mem_append (by decide) (List.not_mem_append Json.newline_notMem_quoteChars ?_)
  exact List.not_mem_append (by decide)
    (List.not_mem_append (Digest.newline_notMem_text b) (by decide))

theorem newline_notMem_fileText (name : String) (cs : List Char) : '\n' ∉ fileText name cs := by
  refine List.not_mem_append (by decide) (List.not_mem_append Json.newline_notMem_quoteChars ?_)
  exact List.not_mem_append (by decide)
    (List.not_mem_append Json.newline_notMem_quoteChars (by decide))

/-- Lines without a line feed inside, with the marks of a payload. -/
def IsPayload (lines : List (List Char)) : Prop :=
  ∀ line ∈ lines, '\n' ∉ line ∧
    (mark line = ['/', '/'] ∨ mark line = ['$', 'd'] ∨ mark line = ['$', 'f'])

theorem isPayload_payloadLines (request : CompileRequest) (texts : List (String × String)) :
    IsPayload (payloadLines request texts) := by
  intro line h
  rw [payloadLines, List.mem_append, List.mem_append, List.mem_map, List.mem_map] at h
  rcases h with (h | ⟨unit, -, rfl⟩) | ⟨⟨name, text⟩, -, rfl⟩
  · split at h
    · cases List.mem_singleton.1 h
      exact ⟨newline_notMem_headText _, .inl (mark_headText _)⟩
    · cases h
  · exact ⟨newline_notMem_dependencyText _ _, .inr (.inl (mark_dependencyText _ _))⟩
  · exact ⟨newline_notMem_fileText _ _, .inr (.inr (mark_fileText _ _))⟩

def isDependency (line : List Char) : Bool := mark line == ['$', 'd']

theorem isDependency_dependencyText (path : String) (digest : Digest) :
    isDependency (dependencyText path digest) = true := rfl

theorem isDependency_fileText (name : String) (cs : List Char) :
    isDependency (fileText name cs) = false := rfl

/-- The payload of a full unit tells the files of the package, and the import path and the digest of
each dependency. -/
theorem payload_inj {request request' : CompileRequest} {text : String}
    (hfull : request.variant = .full) (hfull' : request'.variant = .full)
    (h : payload request = .ok text) (h' : payload request' = .ok text) :
    request.package.files = request'.package.files ∧
      request.dependencies.map (fun unit => (unit.importPath, Digest.ofBytes unit.payload)) =
        request'.dependencies.map fun unit => (unit.importPath, Digest.ofBytes unit.payload) := by
  obtain ⟨texts, hfiles, hlines⟩ := payload_eq_ok h
  obtain ⟨texts', hfiles', hlines'⟩ := payload_eq_ok h'
  have heq : payloadLines request texts = payloadLines request' texts' :=
    unlines_inj (fun line hline => (isPayload_payloadLines request texts line hline).1)
      (fun line hline => (isPayload_payloadLines request' texts' line hline).1)
      (hlines.symm.trans hlines')
  rw [payloadLines, payloadLines, hfull, hfull', List.append_assoc, List.append_assoc] at heq
  -- the lines behind the first are told apart by their marks
  have hdependency (units : List CompiledUnit) : ∀ line ∈ units.map fun unit =>
      dependencyText unit.importPath (.ofBytes unit.payload), isDependency line = true := by
    intro line hline
    obtain ⟨unit, -, rfl⟩ := List.mem_map.1 hline
    exact isDependency_dependencyText _ _
  have hfile (texts : List (String × String)) : ∀ line ∈ texts.map fun (name, text) =>
      fileText name (body .full text.toList), isDependency line = false := by
    intro line hline
    obtain ⟨⟨name, text⟩, -, rfl⟩ := List.mem_map.1 hline
    exact isDependency_fileText _ _
  obtain ⟨hdependencies, htexts⟩ := append_inj_of_class (hdependency _) (hdependency _)
    (hfile texts) (hfile texts') (List.tail_eq_of_cons_eq heq)
  constructor
  · have hsame : texts = texts' := by
      refine (List.map_inj_right ?_).1 htexts
      rintro ⟨name, text⟩ ⟨name', text'⟩ he
      obtain ⟨rfl, hcs⟩ := fileText_inj he
      rw [String.toList_injective hcs]
    rw [← Std.ExtTreeMap.toList_inj, hfiles, hfiles', hsame]
  · have hpairs (units : List CompiledUnit) :
        units.map (fun unit => dependencyText unit.importPath (.ofBytes unit.payload)) =
          (units.map fun unit => (unit.importPath, Digest.ofBytes unit.payload)).map
            fun (path, digest) => dependencyText path digest := by
      rw [List.map_map]
      rfl
    rw [hpairs, hpairs] at hdependencies
    refine (List.map_inj_right ?_).1 hdependencies
    rintro ⟨path, digest⟩ ⟨path', digest'⟩ he
    obtain ⟨rfl, rfl⟩ := dependencyText_inj he
    rfl

end Bundle

end Playground
