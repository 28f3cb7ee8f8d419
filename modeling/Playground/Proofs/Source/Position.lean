import Playground.Proofs.Source.Clause

/-!
# Where a fault is reported

The reader of package clauses reports a fault on the line of the first token, at what stands first
on this line.  That is where the token is, unless a comment stands before it on its line.

Main statement: the position of a fault, for every text with a token, and when it is that of the
token (`position_of_packageName`).
-/

namespace Playground.Source

open Playground.Text

variable {file : String} {position : Position} {fault : ClauseFault}
  {cs before rest : List Char}

namespace Position

/-- The position in a file of what follows a text. -/
def after (file : String) (before : List Char) : Position where
  file := file
  line := .ofNat (before.count '\n' + 1)
  column := .ofNat (byteLength (lastLine before) + 1)

/-- The position in a file of what stands first on the line on which a text ends. -/
def firstOnLine (file : String) (before : List Char) : Position where
  file := file
  line := .ofNat (before.count '\n' + 1)
  column := .ofNat (byteLength ((lastLine before).takeWhile isBlank) + 1)

/-- What stands first on a line is what follows the text if only blanks stand before it there. -/
theorem firstOnLine_eq_after_iff (h : byteLength (lastLine before) + 1 < UInt32.size) :
    firstOnLine file before = after file before ↔ ∀ c ∈ lastLine before, isBlank c = true := by
  have hle : byteLength ((lastLine before).takeWhile isBlank) ≤ byteLength (lastLine before) := by
    rw [← byteLength_takeWhile_add isBlank (lastLine before)]
    exact Nat.le_add_right _ _
  calc firstOnLine file before = after file before
    _ ↔ UInt32.ofNat (byteLength ((lastLine before).takeWhile isBlank) + 1) =
        UInt32.ofNat (byteLength (lastLine before) + 1) := by
      rw [firstOnLine, after, Position.mk.injEq]
      simp only [true_and]
    _ ↔ byteLength ((lastLine before).takeWhile isBlank) = byteLength (lastLine before) := by
      rw [← UInt32.toNat_inj, UInt32.toNat_ofNat_of_lt' (Nat.lt_of_le_of_lt (by omega) h),
        UInt32.toNat_ofNat_of_lt' h, Nat.add_right_cancel_iff]
    _ ↔ ∀ c ∈ lastLine before, isBlank c = true := byteLength_takeWhile_eq_iff

end Position

/-! ### The line of the first token -/

theorem packageNameFrom_lines (file : String) (number : Nat) (isOpen : Bool) (cs : List Char) :
    packageNameFrom file number isOpen (lines cs) =
      packageNameFrom file number isOpen (splitOn '\n' cs) := by
  refine apply_lines (fun s : Nat × Bool => packageNameFrom file s.1 s.2)
    (fun s line ls ls' h => ?_) (fun s => ?_) (number, isOpen) cs
  · obtain ⟨isOpen', code, hskip⟩ :
        ∃ isOpen' code, skipBlocks s.2 (trim line) = (isOpen', code) := ⟨_, _, rfl⟩
    simp only [packageNameFrom, trim_dropReturn, hskip, h (s.1 + 1, isOpen')]
    split
    next => rfl
    next hcode =>
      have hleft : trimLeft line ≠ [] := by
        intro hempty
        obtain ⟨passed, hpassed, -⟩ := exists_passes_of_skipBlocks hskip
        rw [trim, hempty] at hpassed
        simp [(List.append_eq_nil_iff.1 hpassed.symm).2] at hcode
      rw [firstColumn_eq, firstColumn_eq, takeWhile_dropReturn hleft]
  · cases s.2 <;> simp [packageNameFrom, skipBlocks, after?, trim, trimLeft, trimRight]

/-- A text with a token is read from its first token on, up to the end of the line. -/
theorem exists_packageName_eq (h : FirstToken before rest cs) (file : String) :
    ∃ code tail, rest = code ++ tail ∧ (∀ c ∈ tail.head?, isBlank c = true) ∧
      packageName file cs = (readClause code).mapError (.firstOnLine file before, ·) := by
  have hls : ∀ line ∈ splitOn '\n' cs, '\n' ∉ line := fun _ => Path.notMem_splitOn
  cases hcode : firstCode false (splitOn '\n' cs) with
  | none =>
    have hnone : tokensFrom .code ('\n' :: cs) = [] := by
      rw [← continued_splitOn]
      exact tokensFrom_of_firstCode_eq_none .of_code hls hcode
    have hsome : tokens cs ≠ [] := exists_firstToken_iff.1 ⟨before, rest, h⟩
    exact absurd hnone hsome
  | some code =>
    obtain ⟨passed, tail, hfinds, hname⟩ := exists_finds .of_code hls hcode
    have hwhole : cs = passed ++ (code ++ tail) := by
      have hcontinued := hfinds.continued_eq
      rw [continued_splitOn] at hcontinued
      exact (List.cons.inj hcontinued).2
    -- Before the first token and before what is found the reader is between tokens, so that the two
    -- are one place.
    have happend : before ++ rest = passed ++ (code ++ tail) := h.append.trans hwhole
    obtain rfl : before = passed :=
      h.begins.eq_of_append_eq hfinds.begins h.stepAll_before hfinds.stepAll_eq happend
    refine ⟨code, tail, List.append_cancel_left happend, hfinds.blank, ?_⟩
    rw [packageName, packageNameFrom_lines, hname, Nat.add_comm 1]
    rfl

/-! ### Main statement -/

/-- A fault is reported on the line of the first token, at what stands first on this line.  In lines
whose columns can be counted, this is the token exactly if only blanks stand before it. -/
theorem position_of_packageName (hfirst : FirstToken before rest cs)
    (h : packageName file cs = .error (position, fault)) :
    position = .firstOnLine file before ∧
    (byteLength (lastLine before) + 1 < UInt32.size →
      (position = .after file before ↔ ∀ c ∈ lastLine before, isBlank c = true)) := by
  obtain ⟨code, tail, -, -, hname⟩ := exists_packageName_eq hfirst file
  have hposition : position = .firstOnLine file before := by
    rw [hname] at h
    cases hclause : readClause code with
    | ok name => rw [hclause] at h; cases h
    | error found => rw [hclause] at h; cases h; rfl
  refine ⟨hposition, fun hlt => ?_⟩
  rw [hposition]
  exact Position.firstOnLine_eq_after_iff hlt

/-- What stands before the first token of a file: a comment on a line of its own, and another that
ends on the line of the token. -/
def commentedBefore : List Char := "// A file\n /* with\n  no clause. */ ".toList

/-- A file that begins with no package clause, after comments. -/
def commentedFile : List Char := commentedBefore ++ "func main() {}\n".toList

theorem firstToken_commentedFile :
    FirstToken commentedBefore "func main() {}\n".toList commentedFile where
  append := rfl
  trivia :=
    ⟨[.line " A file".toList (by decide), .blank ' ' rfl,
      .block " with\n  no clause. ".toList (by decide), .blank ' ' rfl], by decide⟩
  begins := ⟨⟨'f', rfl, by decide⟩, by decide, by decide⟩

theorem packageName_commentedFile :
    packageName "a.go" commentedFile = .error (⟨"a.go", 3, 3⟩, .expected) := by
  decide +kernel

theorem position_of_packageName_commentedFile :
    FirstToken commentedBefore "func main() {}\n".toList commentedFile ∧
    packageName "a.go" commentedFile = .error (⟨"a.go", 3, 3⟩, .expected) ∧
    (⟨"a.go", 3, 3⟩ : Position) = .firstOnLine "a.go" commentedBefore ∧
    byteLength (lastLine commentedBefore) + 1 < UInt32.size ∧
    ((⟨"a.go", 3, 3⟩ : Position) = .after "a.go" commentedBefore ↔
      ∀ c ∈ lastLine commentedBefore, isBlank c = true) := by
  have hlt : byteLength (lastLine commentedBefore) + 1 < UInt32.size := by decide +kernel
  obtain ⟨hposition, hiff⟩ :=
    position_of_packageName firstToken_commentedFile packageName_commentedFile
  exact ⟨firstToken_commentedFile, packageName_commentedFile, hposition, hlt, hiff hlt⟩

/-- A fault is not always reported where the first token stands: a comment before the token on its
line is taken for it. -/
theorem not_position_eq_after :
    ¬ ∀ (file : String) (before rest cs : List Char) (position : Position),
      FirstToken before rest cs → packageName file cs = .error (position, .expected) →
      position = .after file before := by
  intro h
  have hafter := h "a.go" _ _ _ _ firstToken_commentedFile packageName_commentedFile
  exact absurd hafter (by decide +kernel)

end Playground.Source
