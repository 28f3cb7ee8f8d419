import Playground.Proofs.Source.FirstToken
import Playground.Proofs.Source.Header
import Playground.Proofs.Text.CodeLines
import Playground.Source.PackageClause

/-!
# The package clause as both readers see it

The package clause is read twice: line by line, for the name (`packageName`), and character by
character, for the imports that follow it (`importPaths`).  Both pass over the same blanks and
comments: what the first reader finds on a line is where the second is between tokens and meets
the beginning of one (`exists_finds`), and lines on which the first finds nothing have no tokens
(`tokensFrom_of_firstCode_eq_none`).  They part at the name, which for the first reader may begin
with any character that continues a name and for the second with a letter or an underscore only.

Main statement: where the first reader finds a name, the tokens are the word of the clause and,
after it, the name if it begins as one, and otherwise a single character, in which case the file
imports nothing (`tokens_of_packageName`).
-/

namespace Playground.Source

open Playground.Text

variable {mode : Mode} {isOpen isOpen' : Bool} {name : String}
  {cs line rest passed found code tail : List Char} {ls : List (List Char)}

/-! ### Passing over comments -/

/-- The reader passes over a part of a line, which `code` follows: it is between tokens then, or in
a block comment, and nothing follows. -/
inductive Passes (mode : Mode) (passed code : List Char) : Bool → Prop where
  | closed (h : stepAll mode passed = ([], .code)) : Passes mode passed code false
  | unclosed (star : Bool) (hcode : code = []) (h : stepAll mode passed = ([], .block star)) :
    Passes mode passed code true

namespace Passes

theorem congr {mode' : Mode} {passed' : List Char} (h : Passes mode passed code isOpen)
    (he : stepAll mode' passed' = stepAll mode passed) : Passes mode' passed' code isOpen := by
  cases h with
  | closed h => exact .closed (he.trans h)
  | unclosed star hcode h => exact .unclosed star hcode (he.trans h)

theorem stepAll_eq (h : Passes mode passed code isOpen) (hne : code ≠ []) :
    isOpen = false ∧ stepAll mode passed = ([], .code) := by
  cases h with
  | closed h => exact ⟨rfl, h⟩
  | unclosed _ hcode _ => exact absurd hcode hne

theorem exists_endsLine (h : Passes mode passed code isOpen) :
    ∃ next, stepAll mode passed = ([], next) ∧ EndsLine next isOpen := by
  cases h with
  | closed h => exact ⟨_, h, .of_code⟩
  | unclosed star _ h => exact ⟨_, h, .of_block star⟩

end Passes

/-- The reader passes over the comments that a line begins with, up to what is found after them. -/
theorem exists_passes_of_skipBlocks (h : skipBlocks isOpen rest = (isOpen', code)) :
    ∃ passed, rest = passed ++ code ∧ Passes (lineStart isOpen) passed code isOpen' := by
  fun_induction skipBlocks isOpen rest with
  | case1 rest hafter =>
    obtain ⟨rfl, rfl⟩ := Prod.mk.inj h
    obtain ⟨star, hrest⟩ :=
      exists_stepAll_block false (by simpa using not_infix_of_after? hafter)
    exact ⟨rest, (List.append_nil rest).symm, .unclosed star rfl hrest⟩
  | case2 rest inner hafter _ _ ih =>
    obtain ⟨body, hbody, rfl⟩ := exists_of_after? (List.cons_ne_nil _ _) hafter
    obtain ⟨blanks, hblanks, hinner⟩ := exists_blanks_trimLeft inner
    obtain ⟨passed, hpassed, hpasses⟩ := ih h
    refine ⟨body ++ ['*', '/'] ++ (blanks ++ passed), ?_, hpasses.congr ?_⟩
    · conv_lhs => rw [hinner, hpassed]
      simp
    · exact (stepAll_append_of_stepAll (stepAll_block hbody)).trans
        (stepAll_append_of_stepAll (stepAll_blanks hblanks))
  | case3 isOpen hclosed inner ih =>
    obtain ⟨passed, rfl, hpasses⟩ := ih h
    obtain rfl : isOpen = false := by simpa using hclosed
    exact ⟨'/' :: '*' :: passed, rfl, hpasses.congr rfl⟩
  | case4 isOpen rest hclosed =>
    obtain ⟨rfl, rfl⟩ := Prod.mk.inj h
    obtain rfl : isOpen = false := by simpa using hclosed
    exact ⟨[], rfl, .closed rfl⟩

/-- What is found on a line begins with no blank and with no block comment. -/
theorem beginsToken_of_skipBlocks (h : skipBlocks isOpen rest = (isOpen', code))
    (hrest : isOpen = false → ∀ c ∈ rest.head?, isBlank c = false) (hne : code ≠ [])
    (hline : ¬ ['/', '/'] <+: code) : BeginsToken code := by
  fun_induction skipBlocks isOpen rest with
  | case1 => exact absurd (Prod.mk.inj h).2.symm hne
  | case2 _ _ _ _ _ ih => exact ih h fun _ c hc => isBlank_of_head?_trimLeft hc
  | case3 _ _ _ ih => exact ih h fun hopen => by cases hopen
  | case4 isOpen rest hclosed hblock =>
    obtain ⟨rfl, rfl⟩ := Prod.mk.inj h
    have hhead := List.head?_eq_some_head hne
    refine ⟨⟨_, hhead, hrest (by simpa using hclosed) _ hhead⟩, hline, ?_⟩
    rintro ⟨inner, rfl⟩
    exact hblock inner rfl

/-! ### One line -/

theorem exists_passes (h : skipBlocks isOpen (trim line) = (isOpen', code)) :
    ∃ passed right, line = passed ++ (code ++ right) ∧ (∀ b ∈ right, isBlank b = true) ∧
      Passes (lineStart isOpen) passed code isOpen' := by
  obtain ⟨left, right, hleft, hright, hall, htrim⟩ := exists_trim line
  obtain ⟨passed, hpassed, hpasses⟩ := exists_passes_of_skipBlocks h
  refine ⟨left ++ passed, right, ?_, hright, hpasses.congr ?_⟩
  · conv_lhs => rw [hall, htrim, hpassed]
    simp
  · exact stepAll_append_of_stepAll (stepAll_lineStart hleft)

/-- The reader passes over a line on which nothing is found. -/
theorem exists_stepAll_of_isSkipped (hline : '\n' ∉ line)
    (h : skipBlocks isOpen (trim line) = (isOpen', code))
    (hcode : (code = [] || ['/', '/'].isPrefixOf code) = true) :
    ∃ mode, stepAll (lineStart isOpen) line = ([], mode) ∧ EndsLine mode isOpen' := by
  obtain ⟨passed, right, rfl, hright, hpasses⟩ := exists_passes h
  by_cases hempty : code = []
  · obtain ⟨mode, hstep, hends⟩ := hpasses.exists_endsLine
    rw [hempty, List.nil_append, stepAll_append_of_stepAll hstep]
    exact hends.stepAll_blanks hright
  · have hcomment : ['/', '/'].isPrefixOf code = true := by simpa [hempty] using hcode
    obtain ⟨body, rfl⟩ := List.isPrefixOf_iff_prefix.1 hcomment
    obtain ⟨rfl, hstep⟩ := hpasses.stepAll_eq hempty
    have hbody : stepAll .line (body ++ right) = ([], .line) :=
      stepAll_line fun hmem => hline (List.mem_append_right _ (by simpa using hmem))
    rw [stepAll_append_of_stepAll hstep]
    exact ⟨.line, hbody, .of_line⟩

/-! ### The first code -/

/-- The first of some lines with something on it besides comments, from where it says something. -/
def firstCode : Bool → List (List Char) → Option (List Char)
  | _, [] => none
  | isOpen, line :: rest =>
    let (isOpen, code) := skipBlocks isOpen (trim line)
    if code = [] || ['/', '/'].isPrefixOf code then firstCode isOpen rest else some code

theorem firstCode_lines (isOpen : Bool) (cs : List Char) :
    firstCode isOpen (lines cs) = firstCode isOpen (splitOn '\n' cs) := by
  refine apply_lines firstCode (fun isOpen line ls ls' h => ?_) (fun isOpen => ?_) isOpen cs
  · rw [firstCode, firstCode, trim_dropReturn]
    simp only [h]
  · cases isOpen <;> simp [firstCode, skipBlocks, after?, trim, trimLeft, trimRight]

theorem firstCode_of_packageNameFrom {file : String} {number : Nat}
    (h : packageNameFrom file number isOpen ls = .ok name) :
    ∃ code, firstCode isOpen ls = some code ∧ readClause code = .ok name := by
  induction ls generalizing number isOpen with
  | nil => cases h
  | cons line ls ih =>
    obtain ⟨isOpen', code, hskip⟩ :
        ∃ isOpen' code, skipBlocks isOpen (trim line) = (isOpen', code) := ⟨_, _, rfl⟩
    simp only [packageNameFrom, hskip] at h
    simp only [firstCode, hskip]
    split at h
    next hnone => rw [if_pos hnone]; exact ih h
    next hcode =>
      cases hclause : readClause code with
      | error fault => rw [hclause] at h; cases h
      | ok found =>
        rw [hclause] at h
        cases h
        exact ⟨code, if_neg hcode, hclause⟩

theorem isBlank_of_head?_append_continued {right : List Char}
    (hright : ∀ b ∈ right, isBlank b = true) :
    ∀ c ∈ (right ++ continued ls).head?, isBlank c = true := by
  cases right with
  | nil => cases ls <;> simp [continued]
  | cons b right => simpa using hright b List.mem_cons_self

/-- The first code of the text that some lines continue: the reader passes over what stands before
it, and blanks or further lines follow it. -/
structure Finds (mode : Mode) (ls : List (List Char)) (passed code tail : List Char) : Prop where
  continued_eq : continued ls = '\n' :: (passed ++ (code ++ tail))
  stepAll_eq : stepAll mode ('\n' :: passed) = ([], .code)
  begins : BeginsToken (code ++ tail)
  blank : ∀ c ∈ tail.head?, isBlank c = true

namespace Finds

theorem here (ls : List (List Char)) (hmode : EndsLine mode isOpen)
    (hskip : skipBlocks isOpen (trim line) = (isOpen', code))
    (hcode : ¬ (code = [] || ['/', '/'].isPrefixOf code) = true) :
    ∃ passed right, line = passed ++ (code ++ right) ∧
      Finds mode (line :: ls) passed code (right ++ continued ls) := by
  obtain ⟨passed, right, hline, hright, hpasses⟩ := exists_passes hskip
  rw [Bool.or_eq_true, decide_eq_true_eq, List.isPrefixOf_iff_prefix, not_or] at hcode
  have hblank : ∀ c ∈ (right ++ continued ls).head?, isBlank c = true :=
    isBlank_of_head?_append_continued hright
  refine ⟨passed, right, hline, ?_, ?_, .append ?_ hblank, hblank⟩
  · rw [continued_cons, hline]
    simp
  · rw [hmode.stepAll_newline, (hpasses.stepAll_eq hcode.1).2]
  · refine beginsToken_of_skipBlocks hskip (fun _ c hc => ?_) hcode.1 hcode.2
    obtain ⟨blanks, hblanks⟩ := isPrefix_trimRight (trimLeft line)
    apply isBlank_of_head?_trimLeft
    rw [← hblanks, List.head?_append, ← trim, hc]
    rfl

theorem later {next : Mode} (hmode : EndsLine mode isOpen)
    (hline : stepAll (lineStart isOpen) line = ([], next)) (h : Finds next ls passed code tail) :
    Finds mode (line :: ls) (line ++ '\n' :: passed) code tail where
  continued_eq := by
    rw [continued_cons, h.continued_eq]
    simp
  stepAll_eq := by rw [hmode.stepAll_newline, stepAll_append_of_stepAll hline, h.stepAll_eq]
  begins := h.begins
  blank := h.blank

end Finds

/-! ### All lines -/

theorem firstColumn_eq (line : List Char) :
    firstColumn line = byteLength (line.takeWhile isBlank) + 1 := by
  have hparts := byteLength_takeWhile_add isBlank line
  rw [firstColumn, trimLeft]
  omega

/-- The lines are read from the first of them with code on it, and a fault is reported at what
stands first on this line.  Here the place is told by the text before the code. -/
theorem exists_finds (hmode : EndsLine mode isOpen) (hls : ∀ line ∈ ls, '\n' ∉ line)
    (h : firstCode isOpen ls = some code) :
    ∃ passed tail, Finds mode ls passed code tail ∧
      ∀ file number, packageNameFrom file number isOpen ls =
        (readClause code).mapError (⟨file, .ofNat (number + passed.count '\n'),
          .ofNat (byteLength ((lastLine passed).takeWhile isBlank) + 1)⟩, ·) := by
  -- By induction on the lines, from wherever the reader may be at the end of the line before them.
  induction ls generalizing mode isOpen with
  | nil => cases h
  | cons line ls ih =>
    have hline := hls line List.mem_cons_self
    obtain ⟨isOpen', found, hskip⟩ :
        ∃ isOpen' found, skipBlocks isOpen (trim line) = (isOpen', found) := ⟨_, _, rfl⟩
    simp only [firstCode, hskip] at h
    simp only [packageNameFrom, hskip]
    split at h
    next hnone =>
      obtain ⟨next, hstep, hnext⟩ := exists_stepAll_of_isSkipped hline hskip hnone
      obtain ⟨passed, tail, hfinds, hname⟩ :=
        ih hnext (fun line hmem => hls line (List.mem_cons_of_mem _ hmem)) h
      refine ⟨_, tail, hfinds.later hmode hstep, fun file number => ?_⟩
      have hcount : (line ++ '\n' :: passed).count '\n' = 1 + passed.count '\n' := by
        rw [List.count_append, List.count_cons_self, List.count_eq_zero.2 hline]
        omega
      rw [if_pos hnone, hname, hcount, lastLine_append, Nat.add_assoc]
    next hcode =>
      obtain rfl := Option.some.inj h
      obtain ⟨passed, right, hwhole, hfinds⟩ := Finds.here ls hmode hskip hcode
      refine ⟨passed, _, hfinds, fun file number => ?_⟩
      have hpassed : '\n' ∉ passed := fun hmem => hline (by rw [hwhole]; simp [hmem])
      have hbegins : BeginsToken (found ++ right ++ continued ls) := by
        rw [List.append_assoc]
        exact hfinds.begins
      have hne : found ++ right ≠ [] := by
        intro hempty
        simp [(List.append_eq_nil_iff.1 hempty).1] at hcode
      have hblanks : line.takeWhile isBlank = passed.takeWhile isBlank := by
        rw [hwhole, takeWhile_append_of_head? (hbegins.of_append hne).head]
      rw [if_neg hcode, firstColumn_eq, hblanks, lastLine_of_notMem hpassed,
        List.count_eq_zero.2 hpassed]
      rfl

/-- Lines without code have no tokens. -/
theorem tokensFrom_of_firstCode_eq_none (hmode : EndsLine mode isOpen)
    (hls : ∀ line ∈ ls, '\n' ∉ line) (h : firstCode isOpen ls = none) :
    tokensFrom mode (continued ls) = [] := by
  induction ls generalizing mode isOpen with
  | nil => exact hmode.finish_eq_nil
  | cons line ls ih =>
    obtain ⟨isOpen', found, hskip⟩ :
        ∃ isOpen' found, skipBlocks isOpen (trim line) = (isOpen', found) := ⟨_, _, rfl⟩
    simp only [firstCode, hskip] at h
    split at h
    next hnone =>
      obtain ⟨next, hstep, hnext⟩ :=
        exists_stepAll_of_isSkipped (hls line List.mem_cons_self) hskip hnone
      have hline : stepAll mode ('\n' :: line) = ([], next) := by
        rw [hmode.stepAll_newline, hstep]
      rw [continued_cons, ← List.cons_append, tokensFrom_append_of_stepAll hline]
      exact ih hnext (fun line hmem => hls line (List.mem_cons_of_mem _ hmem)) h
    next => cases h

/-- The tokens begin with those of the first code. -/
theorem tokens_of_firstCode (hls : ∀ line ∈ ls, '\n' ∉ line)
    (h : firstCode isOpen ls = some code) :
    ∃ tail, (∀ c ∈ tail.head?, isBlank c = true) ∧
      tokensFrom (lineStart isOpen) (continued ls) = tokens (code ++ tail) := by
  obtain ⟨passed, tail, hfinds, -⟩ := exists_finds (.of_lineStart isOpen) hls h
  refine ⟨tail, hfinds.blank, ?_⟩
  rw [hfinds.continued_eq, ← List.cons_append, tokensFrom_append_of_stepAll hfinds.stepAll_eq,
    ← tokens]

/-! ### The name -/

theorem EndsName.append (h : ∀ c ∈ cs, continuesName c = false) (htail : EndsName tail) :
    EndsName (cs ++ tail) := by
  cases cs with
  | nil => exact htail
  | cons c cs => exact .of_head (h c List.mem_cons_self)

theorem exists_clauseName (rest : List Char) :
    ∃ blanks after, (∀ b ∈ blanks, isBlank b = true) ∧
      (∀ tail, EndsName tail → EndsName (after ++ tail)) ∧
      rest = blanks ++ (clauseName rest ++ after) := by
  obtain ⟨comment, hrest, hcomment⟩ := exists_before ['/', '/'] rest
  obtain ⟨left, right, hleft, hright, hbefore, htrim⟩ := exists_trim (before ['/', '/'] rest)
  let marks := ((trim (before ['/', '/'] rest)).reverse.takeWhile (· = ';')).reverse
  have hmarks : ∀ c ∈ marks, continuesName c = false := by
    intro c hc
    have hmark := List.mem_takeWhile_imp (List.mem_reverse.1 hc)
    rw [of_decide_eq_true hmark]
    decide
  have hname : trim (before ['/', '/'] rest) = clauseName rest ++ marks := by
    rw [clauseName, ← List.reverse_append, List.takeWhile_append_dropWhile, List.reverse_reverse]
  refine ⟨left, marks ++ (right ++ comment), hleft, fun tail htail => ?_, ?_⟩
  · have hend : EndsName (comment ++ tail) := by
      rcases hcomment with rfl | ⟨body, rfl⟩
      · exact htail
      · exact .of_head (by decide)
    rw [List.append_assoc, List.append_assoc]
    exact .append hmarks (.append (fun b hb => continuesName_of_isBlank (hright b hb)) hend)
  · calc rest = left ++ (clauseName rest ++ marks ++ right) ++ comment := by
          rw [← hname, ← htrim, ← hbefore, ← hrest]
      _ = left ++ (clauseName rest ++ (marks ++ (right ++ comment))) := by
        simp only [List.append_assoc]

/-- The reader of tokens takes a name as a whole only if it begins as one. -/
theorem tokens_nameChars {first : Char} {chars : List Char}
    (h : ∀ c ∈ first :: chars, continuesName c = true) (hend : EndsName tail) :
    ∃ ts, tokens (first :: chars ++ tail) =
      (if startsName first then .ident (String.ofList (first :: chars)) else .punct first) ::
        ts := by
  split
  next hstart =>
    exact ⟨_, tokens_name ⟨first, chars, hstart, fun c hc => h c (List.mem_cons_of_mem _ hc)⟩ hend⟩
  next hstart =>
    refine ⟨tokens (chars ++ tail), ?_⟩
    rw [List.cons_append, tokens, tokensFrom_cons, step,
      startToken_of_continuesName (h first List.mem_cons_self), if_neg hstart]
    rfl

theorem tokens_of_readClause (h : readClause code = .ok name)
    (htail : ∀ c ∈ tail.head?, isBlank c = true) :
    ∃ first chars ts, name = String.ofList (first :: chars) ∧
      tokens (code ++ tail) =
        .ident "package" :: (if startsName first then .ident name else .punct first) :: ts := by
  rw [readClause] at h
  split at h
  case isFalse => cases h
  case isTrue hmark =>
    obtain ⟨rest, rfl⟩ := List.isPrefixOf_iff_prefix.1 hmark
    rw [List.drop_left] at h
    simp only at h
    split at h
    case isTrue => cases h
    case isFalse hname =>
      rw [Bool.not_eq_true, Bool.or_eq_false_iff, decide_eq_false_iff_not, Bool.not_eq_false',
        List.all_eq_true] at hname
      obtain ⟨first, chars, hchars⟩ := List.exists_cons_of_ne_nil hname.1
      obtain ⟨blanks, after, hblanks, hafter, hrest⟩ := exists_clauseName rest
      have hend : EndsName tail := .inr fun c hc => continuesName_of_isBlank (htail c hc)
      obtain ⟨ts, hts⟩ := tokens_nameChars (hchars ▸ hname.2) (hafter tail hend)
      cases h
      refine ⟨first, chars, ts, by rw [hchars], ?_⟩
      have hword : EndsName (' ' :: (rest ++ tail)) := .of_head (by decide)
      calc tokens (clauseMark ++ rest ++ tail)
        _ = .ident "package" :: tokens (' ' :: (rest ++ tail)) := tokens_name Header.word hword
        _ = .ident "package" :: tokens (first :: chars ++ (after ++ tail)) := by
          have hspace : ∀ b ∈ ' ' :: blanks, isBlank b = true := by
            intro b hb
            rcases List.mem_cons.1 hb with rfl | hb
            · decide
            · exact hblanks b hb
          have hparts : ' ' :: (rest ++ tail) =
              ' ' :: blanks ++ (first :: chars ++ (after ++ tail)) := by
            conv_lhs => rw [hrest, hchars]
            simp
          rw [hparts, tokens, tokensFrom_append_of_stepAll (stepAll_blanks hspace), ← tokens]
        _ = _ := by rw [hts, hchars]

/-! ### Main statement -/

/-- The tokens of a file in which a package clause is found begin with it, and its imports are those
that follow, if the name begins with a character that starts names.  Otherwise the file imports
nothing. -/
theorem tokens_of_packageName {file : String} (h : packageName file cs = .ok name) :
    ∃ first chars ts, name = String.ofList (first :: chars) ∧
      tokens cs =
        .ident "package" :: (if startsName first then .ident name else .punct first) :: ts ∧
      importPaths cs = if startsName first then pathsFrom .between ts else [] := by
  obtain ⟨code, hcode, hclause⟩ := firstCode_of_packageNameFrom h
  rw [firstCode_lines] at hcode
  obtain ⟨tail, htail, htokens⟩ := tokens_of_firstCode (fun _ => Path.notMem_splitOn) hcode
  obtain ⟨first, chars, ts, hname, hts⟩ := tokens_of_readClause hclause htail
  have hwhole : tokens cs = tokens (code ++ tail) := by
    rw [← htokens, continued_splitOn]
    rfl
  rw [hts] at hwhole
  refine ⟨first, chars, ts, hname, hwhole, ?_⟩
  by_cases hstart : startsName first = true
  · rw [importPaths, hwhole, if_pos hstart, if_pos hstart]
    exact if_pos rfl
  · rw [importPaths, hwhole, if_neg hstart, if_neg hstart]

/-- A file whose package has a name that begins with a numeral, after comments of both kinds. -/
def numberedFile : List Char :=
  "/* A\n * file. */ // It has\n\t/**/package  1st;; // a number.\nimport \"lib\"\n".toList

theorem packageName_numberedFile : packageName "a.go" numberedFile = .ok "1st" := by
  decide +kernel

theorem tokens_of_packageName_numberedFile :
    packageName "a.go" numberedFile = .ok "1st" ∧
    ∃ first chars ts, "1st" = String.ofList (first :: chars) ∧
      tokens numberedFile =
        .ident "package" :: (if startsName first then .ident "1st" else .punct first) :: ts ∧
      importPaths numberedFile = if startsName first then pathsFrom .between ts else [] :=
  ⟨packageName_numberedFile, tokens_of_packageName packageName_numberedFile⟩

/-- The readers disagree: for one the file has a package and for the other it has none, so that
what it imports is lost. -/
theorem not_tokens_of_packageName_ident :
    ¬ ∀ (file : String) (cs : List Char) (name : String), packageName file cs = .ok name →
      (tokens cs).take 2 = [.ident "package", .ident name] := by
  intro h
  have hnumbered := h "a.go" numberedFile "1st" packageName_numberedFile
  exact absurd hnumbered (by decide +kernel)

end Playground.Source
