import Mathlib.Data.List.TakeWhile
import Playground.Proofs.Text.Lines

/-!
# Lines that say something

What is computed line by line from the lines of a text may be computed from its pieces, where
neither the carriage return before a line feed nor an empty last line matters (`apply_lines`).  So
the lines of a text that say something are found piece by piece, since lines are trimmed and empty
ones left out (`codeLines_eq`).  Where a line feed stands between two texts, their lines are those
of the first and those of the second (`codeLines_append`).  The first line of a text that begins as
a comment says nothing, and its later lines say what they say alone (`codeLines_comment`).
-/

namespace Playground.Text

variable {c : Char} {cs ds line : List Char} {ls : List (List Char)}

/-! ### Blanks at the ends -/

theorem exists_blanks_trimLeft (cs : List Char) :
    ∃ blanks, (∀ b ∈ blanks, isBlank b = true) ∧ cs = blanks ++ trimLeft cs :=
  ⟨cs.takeWhile isBlank, fun _ => List.mem_takeWhile_imp, List.takeWhile_append_dropWhile.symm⟩

theorem exists_blanks_trimRight (cs : List Char) :
    ∃ blanks, (∀ b ∈ blanks, isBlank b = true) ∧ cs = trimRight cs ++ blanks := by
  obtain ⟨blanks, hblanks, he⟩ := exists_blanks_trimLeft cs.reverse
  refine ⟨blanks.reverse, fun b hb => hblanks b (List.mem_reverse.1 hb), ?_⟩
  have hreverse := congrArg List.reverse he
  rwa [List.reverse_reverse, List.reverse_append] at hreverse

theorem exists_trim (cs : List Char) :
    ∃ left right, (∀ b ∈ left, isBlank b = true) ∧ (∀ b ∈ right, isBlank b = true) ∧
      cs = left ++ trimLeft cs ∧ trimLeft cs = trim cs ++ right := by
  obtain ⟨left, hleft, hcs⟩ := exists_blanks_trimLeft cs
  obtain ⟨right, hright, htrim⟩ := exists_blanks_trimRight (trimLeft cs)
  exact ⟨left, right, hleft, hright, hcs, htrim⟩

theorem isPrefix_trimRight (cs : List Char) : trimRight cs <+: cs := by
  obtain ⟨blanks, -, hcs⟩ := exists_blanks_trimRight cs
  exact ⟨blanks, hcs.symm⟩

theorem isBlank_of_head?_trimLeft (h : (trimLeft cs).head? = some c) : isBlank c = false := by
  have hnot := List.head?_dropWhile_not isBlank cs
  rw [← trimLeft, h] at hnot
  exact hnot

theorem trimLeft_of_head? (h : ∀ c ∈ cs.head?, isBlank c = false) : trimLeft cs = cs := by
  cases cs with
  | nil => rfl
  | cons c cs => simp [trimLeft, h c rfl]

theorem trimRight_of_getLast? (h : ∀ c ∈ cs.getLast?, isBlank c = false) : trimRight cs = cs := by
  have hreverse : trimLeft cs.reverse = cs.reverse :=
    trimLeft_of_head? (by rwa [List.head?_reverse])
  rw [trimRight, ← trimLeft, hreverse, List.reverse_reverse]

theorem trim_eq_self {a b : Char} (hfirst : cs.head? = some a) (ha : isBlank a = false)
    (hlast : cs.getLast? = some b) (hb : isBlank b = false) : trim cs = cs := by
  rw [trim, trimLeft_of_head? (by simpa [hfirst] using ha),
    trimRight_of_getLast? (by simpa [hlast] using hb)]

theorem trimRight_cons (h : isBlank c = false) : trimRight (c :: cs) = c :: trimRight cs := by
  rw [trimRight, trimRight, List.reverse_cons, List.dropWhile_append]
  split
  next hempty => simp [List.isEmpty_iff.1 hempty, h]
  next => simp

theorem trim_cons (h : isBlank c = false) : trim (c :: cs) = c :: trimRight cs := by
  rw [trim, trimLeft_of_head? (by simpa using h), trimRight_cons h]

theorem trim_concat (h : isBlank c = true) : trim (cs ++ [c]) = trim cs := by
  have hright (ds : List Char) : trimRight (ds ++ [c]) = trimRight ds := by
    simp [trimRight, h]
  rw [trim, trim, trimLeft, List.dropWhile_append, ← trimLeft]
  split
  next hempty => rw [List.isEmpty_iff.1 hempty]; simp [h]
  next => exact hright _

theorem trim_dropReturn (line : List Char) : trim (dropReturn line) = trim line := by
  rw [dropReturn]
  split
  next hlast =>
    obtain ⟨cs, rfl⟩ := List.getLast?_eq_some_iff.1 hlast
    rw [List.dropLast_concat, trim_concat (by decide)]
  next => rfl

/-- A carriage return at the end of a line does not matter for the blanks at its beginning. -/
theorem takeWhile_dropReturn (h : trimLeft line ≠ []) :
    (dropReturn line).takeWhile isBlank = line.takeWhile isBlank := by
  rw [dropReturn]
  split
  next hlast =>
    obtain ⟨init, rfl⟩ := List.getLast?_eq_some_iff.1 hlast
    rw [List.dropLast_concat, List.takeWhile_append]
    split
    next hall =>
      have hinit := List.takeWhile_eq_self_iff.1 ((List.takeWhile_prefix isBlank).eq_of_length hall)
      have hblank : isBlank '\r' = true := by decide
      exact absurd (List.dropWhile_eq_nil_iff.2 (by simpa [or_imp, forall_and, hblank])) h
    next => rfl
  next => rfl

theorem byteLength_takeWhile_add (P : Char → Bool) (cs : List Char) :
    byteLength (cs.takeWhile P) + byteLength (cs.dropWhile P) = byteLength cs := by
  rw [← byteLength_append, List.takeWhile_append_dropWhile]

theorem byteLength_eq_zero_iff : byteLength cs = 0 ↔ cs = [] := by
  refine ⟨fun h => ?_, fun h => h ▸ rfl⟩
  have hle := length_le_byteLength cs
  exact List.length_eq_zero_iff.1 (by omega)

theorem byteLength_takeWhile_eq_iff {P : Char → Bool} :
    byteLength (cs.takeWhile P) = byteLength cs ↔ ∀ c ∈ cs, P c = true := by
  rw [← byteLength_takeWhile_add P cs, ← List.dropWhile_eq_nil_iff, ← byteLength_eq_zero_iff]
  omega

/-! ### Lines and pieces -/

/-- What is computed line by line is computed from the pieces, where neither the carriage return at
the end of a line nor an empty last line matters. -/
theorem apply_lines {σ β : Type} (f : σ → List (List Char) → β)
    (hreturn : ∀ s line ls ls', (∀ s, f s ls = f s ls') →
      f s (dropReturn line :: ls) = f s (line :: ls'))
    (hempty : ∀ s, f s [[]] = f s []) (s : σ) (cs : List Char) :
    f s (lines cs) = f s (splitOn '\n' cs) := by
  obtain ⟨before, last, hpieces⟩ : ∃ before last, splitOn '\n' cs = before ++ [last] :=
    ⟨_, _, (List.dropLast_concat_getLast (splitOn_ne_nil '\n' cs)).symm⟩
  have hlines : lines cs = before.map dropReturn ++ ((some last).filter (· ≠ [])).toList := by
    rw [lines, hpieces, List.dropLast_concat, List.getLast?_concat]
  have hlast (s : σ) : f s ((some last).filter (· ≠ [])).toList = f s [last] := by
    by_cases h : last = []
    · rw [h, hempty]
      rfl
    · simp [Option.filter, h]
  rw [hlines, hpieces]
  clear hlines hpieces
  induction before generalizing s with
  | nil => exact hlast s
  | cons line before ih => exact hreturn s line _ _ ih

/-! ### What says something -/

/-- Whether a trimmed line says something. -/
def isCode (line : List Char) : Bool := line ≠ [] && !(['/', '/'].isPrefixOf line)

theorem isCode_eq_false_iff : isCode line = false ↔ line = [] ∨ ['/', '/'] <+: line := by
  rw [isCode, Bool.and_eq_false_iff, decide_eq_false_iff_not, not_not, Bool.not_eq_false',
    List.isPrefixOf_iff_prefix]

/-- The lines among some that say something, trimmed. -/
def codeOf (ls : List (List Char)) : List (List Char) := (ls.map trim).filter isCode

theorem exists_of_mem_codeOf (h : line ∈ codeOf ls) :
    ∃ c cs, line = c :: cs ∧ isBlank c = false ∧ isCode line = true := by
  rw [codeOf, List.mem_filter, List.mem_map] at h
  obtain ⟨⟨whole, -, rfl⟩, hcode⟩ := h
  cases hleft : trimLeft whole with
  | nil => simp [trim, hleft, trimRight, isCode] at hcode
  | cons c cs =>
    have hc : isBlank c = false := isBlank_of_head?_trimLeft (by rw [hleft]; rfl)
    exact ⟨c, trimRight cs, by rw [trim, hleft, trimRight_cons hc], hc, hcode⟩

theorem codeOf_append (ls ls' : List (List Char)) :
    codeOf (ls ++ ls') = codeOf ls ++ codeOf ls' := by
  rw [codeOf, List.map_append, List.filter_append]
  rfl

theorem codeLines_eq (cs : List Char) : codeLines cs = codeOf (splitOn '\n' cs) := by
  have hreturn (line : List Char) (ls ls' : List (List Char)) (h : codeOf ls = codeOf ls') :
      codeOf (dropReturn line :: ls) = codeOf (line :: ls') := by
    rw [codeOf, codeOf, List.map_cons, List.map_cons, trim_dropReturn, List.filter_cons,
      List.filter_cons, ← codeOf, ← codeOf, h]
  exact apply_lines (fun _ : Unit => codeOf)
    (fun _ line ls ls' h => hreturn line ls ls' (h ())) (fun _ => rfl) () cs

theorem codeLines_append (cs ds : List Char) :
    codeLines (cs ++ '\n' :: ds) = codeLines cs ++ codeLines ds := by
  rw [codeLines_eq, codeLines_eq, codeLines_eq, Path.splitOn_append, codeOf_append]

/-- A line that is trimmed and says something. -/
structure IsCodeLine (line : List Char) : Prop where
  newline : '\n' ∉ line
  trimmed : trim line = line
  code : isCode line = true

theorem codeLines_unlines_append (h : ∀ line ∈ ls, IsCodeLine line) :
    codeLines (unlines ls ++ cs) = ls ++ codeLines cs := by
  induction ls with
  | nil => rfl
  | cons line ls ih =>
    have hself := h line List.mem_cons_self
    have hline : codeLines line = [line] := by
      rw [codeLines_eq, splitOn_of_notMem hself.newline]
      simp [codeOf, hself.trimmed, hself.code]
    rw [unlines_cons, List.append_assoc, List.cons_append, codeLines_append, hline,
      ih fun line hmem => h line (List.mem_cons_of_mem _ hmem)]
    rfl

/-! ### Comments that go on -/

def laterLines (cs : List Char) : List (List Char) := (splitOn '\n' cs).tail

theorem exists_splitOn (cs : List Char) :
    ∃ first, '\n' ∉ first ∧ splitOn '\n' cs = first :: laterLines cs := by
  cases h : splitOn '\n' cs with
  | nil => exact absurd h (splitOn_ne_nil _ _)
  | cons first later =>
    exact ⟨first, Path.notMem_splitOn (h ▸ List.mem_cons_self), by rw [laterLines, h]; rfl⟩

theorem splitOn_append_of_notMem (h : '\n' ∉ cs) {first : List Char}
    (hfirst : splitOn '\n' ds = first :: ls) : splitOn '\n' (cs ++ ds) = (cs ++ first) :: ls := by
  induction cs with
  | nil => exact hfirst
  | cons c cs ih =>
    rw [List.mem_cons, not_or] at h
    rw [List.cons_append, splitOn, if_neg (Ne.symm h.1), ih h.2]
    rfl

/-- A comment says nothing on its first line. -/
theorem codeLines_comment (h : '\n' ∉ cs) :
    codeLines ('/' :: '/' :: (cs ++ ds)) = codeOf (laterLines ds) := by
  obtain ⟨first, -, hsplit⟩ := exists_splitOn ds
  have hcomment : '\n' ∉ '/' :: '/' :: cs := by simp [h]
  have hpieces := splitOn_append_of_notMem hcomment hsplit
  have hnone : isCode (trim ('/' :: '/' :: (cs ++ first))) = false := by
    rw [trim_cons (by decide), trimRight_cons (by decide)]
    rfl
  rw [codeLines_eq, ← List.cons_append, ← List.cons_append, hpieces]
  simp [codeOf, hnone]

end Playground.Text
