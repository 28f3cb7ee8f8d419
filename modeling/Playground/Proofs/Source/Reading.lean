import Mathlib.Data.List.Infix
import Playground.Proofs.Text.Lines
import Playground.Source.Token

/-!
# Reading a text in parts

What the reader does with a text (`stepAll`) is what it does with its parts in turn: the tokens
that the first part completes, and then those of the second part from where the first one leads
(`tokensFrom_append`).  Blanks between tokens, the rest of a line comment and the rest of a block
comment complete nothing.
-/

namespace Playground.Source

open Playground.Text

variable {mode : Mode} {c : Char} {cs ds body : List Char} {star isOpen : Bool}

/-! ### A text in parts -/

/-- What a text does: the tokens that it completes, and where it leads. -/
def stepAll : Mode → List Char → List Token × Mode
  | mode, [] => ([], mode)
  | mode, c :: cs =>
    let (tokens, next) := step mode c
    let (more, last) := stepAll next cs
    (tokens ++ more, last)

theorem stepAll_nil (mode : Mode) : stepAll mode [] = ([], mode) := rfl

theorem stepAll_cons (mode : Mode) (c : Char) (cs : List Char) :
    stepAll mode (c :: cs) =
      ((step mode c).1 ++ (stepAll (step mode c).2 cs).1, (stepAll (step mode c).2 cs).2) := rfl

theorem stepAll_append (mode : Mode) (cs ds : List Char) :
    stepAll mode (cs ++ ds) =
      ((stepAll mode cs).1 ++ (stepAll (stepAll mode cs).2 ds).1,
        (stepAll (stepAll mode cs).2 ds).2) := by
  induction cs generalizing mode with
  | nil => rfl
  | cons c cs ih => rw [List.cons_append, stepAll_cons, ih, stepAll_cons, List.append_assoc]

theorem tokensFrom_cons (mode : Mode) (c : Char) (cs : List Char) :
    tokensFrom mode (c :: cs) = (step mode c).1 ++ tokensFrom (step mode c).2 cs := rfl

theorem tokensFrom_append (mode : Mode) (cs ds : List Char) :
    tokensFrom mode (cs ++ ds) = (stepAll mode cs).1 ++ tokensFrom (stepAll mode cs).2 ds := by
  induction cs generalizing mode with
  | nil => rfl
  | cons c cs ih =>
    rw [List.cons_append, tokensFrom_cons, ih, stepAll_cons, List.append_assoc]

/-- A text that completes nothing is passed over. -/
theorem tokensFrom_append_of_stepAll {next : Mode} (h : stepAll mode cs = ([], next)) :
    tokensFrom mode (cs ++ ds) = tokensFrom next ds := by
  rw [tokensFrom_append, h, List.nil_append]

theorem stepAll_append_of_stepAll {next : Mode} (h : stepAll mode cs = ([], next)) :
    stepAll mode (cs ++ ds) = stepAll next ds := by
  rw [stepAll_append, h]
  rfl

/-- The tokens of a text are those that it completes and those that its end completes. -/
theorem tokensFrom_eq (mode : Mode) (cs : List Char) :
    tokensFrom mode cs = (stepAll mode cs).1 ++ finish (stepAll mode cs).2 := by
  have hend := tokensFrom_append mode cs []
  rwa [List.append_nil] at hend

/-! ### Blanks and comments -/

theorem ne_of_isBlank {d : Char} (hc : isBlank c = true) (hd : isBlank d = false) : c ≠ d := by
  rintro rfl
  simp [hd] at hc

theorem continuesName_of_isBlank (h : isBlank c = true) : continuesName c = false := by
  have hmem : c.toNat ∈ List.range' 9 5 ++ [0x20, 0x85, 0xA0, 0x1680] ++ List.range' 0x2000 11 ++
      [0x2028, 0x2029, 0x202F, 0x205F, 0x3000] := by
    simp only [isBlank, Bool.or_eq_true, Bool.and_eq_true, decide_eq_true_eq, beq_iff_eq] at h
    simp only [List.mem_append, List.mem_range'_1, List.mem_cons, List.not_mem_nil, or_false]
    omega
  rw [← Char.ofNat_toNat c]
  generalize c.toNat = n at hmem
  revert n
  decide +kernel

@[simp]
theorem isBlank_newline : isBlank '\n' = true := by decide

@[simp]
theorem continuesName_newline : continuesName '\n' = false :=
  continuesName_of_isBlank isBlank_newline

/-- Where the reader is at the beginning of a line, unless it is in a text. -/
def lineStart (isOpen : Bool) : Mode := if isOpen then .block false else .code

theorem step_lineStart (h : isBlank c = true) :
    step (lineStart isOpen) c = ([], lineStart isOpen) := by
  cases isOpen with
  | false => simp [lineStart, step, startToken, h]
  | true =>
    have hstar : c ≠ '*' := ne_of_isBlank h (by decide)
    simp [lineStart, step, hstar]

theorem stepAll_lineStart (h : ∀ b ∈ cs, isBlank b = true) :
    stepAll (lineStart isOpen) cs = ([], lineStart isOpen) := by
  induction cs with
  | nil => rfl
  | cons c cs ih =>
    rw [stepAll_cons, step_lineStart (h c List.mem_cons_self),
      ih fun b hb => h b (List.mem_cons_of_mem _ hb)]
    rfl

theorem stepAll_blanks (h : ∀ b ∈ cs, isBlank b = true) : stepAll .code cs = ([], .code) := by
  have hstart : stepAll (lineStart false) cs = ([], lineStart false) := stepAll_lineStart h
  exact hstart

theorem stepAll_line (h : '\n' ∉ body) : stepAll .line body = ([], .line) := by
  induction body with
  | nil => rfl
  | cons c body ih =>
    rw [List.mem_cons, not_or] at h
    rw [stepAll_cons, step, if_neg (Ne.symm h.1), ih h.2]
    rfl

/-- A comment goes on to where it is closed.  A star that has just been read may begin its end, so
that what must not hold the end includes it. -/
theorem exists_stepAll_block (star : Bool)
    (h : ¬ ['*', '/'] <:+: (if star then ['*'] else []) ++ body) :
    ∃ star', stepAll (.block star) body = ([], .block star') := by
  induction body generalizing star with
  | nil => exact ⟨star, rfl⟩
  | cons c body ih =>
    have hopen : ¬ (star = true ∧ c = '/') := by
      rintro ⟨rfl, rfl⟩
      exact h ⟨[], body, rfl⟩
    have hbody : ¬ ['*', '/'] <:+: (if decide (c = '*') then ['*'] else []) ++ body := by
      refine fun hmem => h (hmem.trans ?_)
      split
      next hc =>
        rw [of_decide_eq_true hc]
        exact ⟨if star then ['*'] else [], [], by simp⟩
      next => exact ⟨(if star then ['*'] else []) ++ [c], [], by simp⟩
    obtain ⟨star', hrest⟩ := ih _ hbody
    refine ⟨star', ?_⟩
    rw [stepAll_cons, step, if_neg hopen, hrest]
    rfl

theorem tokensFrom_line_eq_nil (h : '\n' ∉ body) : tokensFrom .line body = [] := by
  rw [tokensFrom_eq, stepAll_line h]
  rfl

theorem tokensFrom_block_eq_nil (h : ¬ ['*', '/'] <:+: body) :
    tokensFrom (.block false) body = [] := by
  obtain ⟨star, hbody⟩ := exists_stepAll_block false (by simpa using h)
  rw [tokensFrom_eq, hbody]
  rfl

/-! ### Inside and outside a text -/

namespace Mode

/-- Whether the reader is inside a text, where every character counts. -/
def inText : Mode → Bool
  | quoted _ | escaped _ | raw _ => true
  | _ => false

/-- What the reader holds of an unfinished token. -/
def held : Mode → List Char
  | quoted cs | escaped cs | raw cs | ident cs => cs
  | _ => []

end Mode

theorem step_newline (mode : Mode) :
    (∃ isOpen, (step mode '\n').2 = lineStart isOpen) ∨ (step mode '\n').2.inText = true := by
  cases mode with
  | code | slash | line | quoted | ident =>
    exact .inl ⟨false, by simp [step, startToken, lineStart]⟩
  | block => exact .inl ⟨true, by simp [step, lineStart]⟩
  | escaped | raw => exact .inr (by simp [step, Mode.inText])

/-- Outside a text, a blank completes what the end would complete. -/
theorem step_blank (h : mode.inText = false) (hc : isBlank c = true) :
    (step mode c).1 = finish mode := by
  have hname := continuesName_of_isBlank hc
  have hslash : c ≠ '/' := ne_of_isBlank hc (by decide)
  have hstar : c ≠ '*' := ne_of_isBlank hc (by decide)
  cases mode with
  | code | line | block => simp [step, startToken, finish, hc]
  | slash => simp [step, startToken, finish, hc, hslash, hstar]
  | ident => simp [step, startToken, finish, hc, hname]
  | quoted | escaped | raw => simp [Mode.inText] at h

/-- Outside a text, a blank in a line leads to where the end completes nothing and the line ends as
it would without the blank. -/
theorem step_blank_snd (h : mode.inText = false) (hc : isBlank c = true) (hne : c ≠ '\n') :
    (step mode c).2.inText = false ∧ finish (step mode c).2 = [] ∧
      (step (step mode c).2 '\n').2 = (step mode '\n').2 := by
  have hname := continuesName_of_isBlank hc
  have hslash : c ≠ '/' := ne_of_isBlank hc (by decide)
  have hstar : c ≠ '*' := ne_of_isBlank hc (by decide)
  cases mode with
  | code | line => simp [step, startToken, finish, Mode.inText, hc, hne]
  | block => simp [step, finish, Mode.inText, hslash]
  | slash => simp [step, startToken, finish, Mode.inText, hc, hslash, hstar]
  | ident => simp [step, startToken, finish, Mode.inText, hc, hname]
  | quoted | escaped | raw => simp [Mode.inText] at h

/-! ### The end of a line -/

/-- Where the reader may be at the end of a line: the line feed completes nothing and leads to the
beginning of a line, in a block comment or not. -/
def EndsLine (mode : Mode) (isOpen : Bool) : Prop := step mode '\n' = ([], lineStart isOpen)

namespace EndsLine

theorem of_code : EndsLine .code false := by
  rw [EndsLine]
  decide

theorem of_line : EndsLine .line false := by
  rw [EndsLine]
  decide

theorem of_block (star : Bool) : EndsLine (.block star) true := by
  simp [EndsLine, step, lineStart]

theorem of_lineStart (isOpen : Bool) : EndsLine (lineStart isOpen) isOpen :=
  step_lineStart isBlank_newline

theorem not_inText (h : EndsLine mode isOpen) : mode.inText = false := by
  cases mode with
  | code | slash | line | block | ident => rfl
  | quoted | escaped | raw => cases isOpen <;> simp [EndsLine, step, lineStart] at h

theorem finish_eq_nil (h : EndsLine mode isOpen) : finish mode = [] := by
  rw [← Source.step_blank h.not_inText isBlank_newline, h]

theorem stepAll_newline (h : EndsLine mode isOpen) (cs : List Char) :
    stepAll mode ('\n' :: cs) = stepAll (lineStart isOpen) cs := by
  rw [stepAll_cons, h]
  rfl

theorem step_blank (h : EndsLine mode isOpen) (hc : isBlank c = true) :
    ∃ next, step mode c = ([], next) ∧ EndsLine next isOpen := by
  by_cases hne : c = '\n'
  · subst hne
    exact ⟨_, h, of_lineStart isOpen⟩
  · obtain ⟨hnext, hfinish, hline⟩ := step_blank_snd h.not_inText hc hne
    have hnone : (step mode c).1 = [] := by
      rw [Source.step_blank h.not_inText hc, h.finish_eq_nil]
    have hend : (step (step mode c).2 '\n').1 = [] := by
      rw [Source.step_blank hnext isBlank_newline, hfinish]
    exact ⟨_, Prod.ext hnone rfl, Prod.ext hend (hline.trans (congrArg Prod.snd h))⟩

theorem stepAll_blanks (h : EndsLine mode isOpen) (hcs : ∀ b ∈ cs, isBlank b = true) :
    ∃ next, stepAll mode cs = ([], next) ∧ EndsLine next isOpen := by
  induction cs generalizing mode with
  | nil => exact ⟨mode, rfl, h⟩
  | cons c cs ih =>
    obtain ⟨next, hstep, hnext⟩ := h.step_blank (hcs c List.mem_cons_self)
    obtain ⟨last, hcs, hlast⟩ := ih hnext fun b hb => hcs b (List.mem_cons_of_mem _ hb)
    refine ⟨last, ?_, hlast⟩
    rw [stepAll_cons, hstep, hcs]
    rfl

end EndsLine

/-! ### Inside a text -/

/-- A character ends a text, or the reader goes on in it and holds what it held before. -/
theorem step_of_inText (h : mode.inText = true) (c : Char) :
    (step mode c).1 = [.text (heldText mode.held)] ∨
      (step mode c).1 = [] ∧ (step mode c).2.inText = true ∧
        ∃ more, (step mode c).2.held = more ++ mode.held := by
  cases mode with
  | quoted held =>
    by_cases hend : c = '"' ∨ c = '\n'
    · exact .inl (by simp [step, hend, Mode.held])
    · by_cases hslash : c = '\\'
      · exact .inr (by simp [step, hslash, Mode.inText, Mode.held])
      · exact .inr (by simpa [step, hend, hslash, Mode.inText, Mode.held] using ⟨[c], rfl⟩)
  | escaped held => exact .inr ⟨rfl, rfl, [_], rfl⟩
  | raw held =>
    by_cases hend : c = '\x60'
    · exact .inl (by simp [step, hend, Mode.held])
    · exact .inr (by simpa [step, hend, Mode.inText, Mode.held] using ⟨[c], rfl⟩)
  | code | slash | line | block | ident => simp [Mode.inText] at h

theorem exists_tokensFrom_of_inText (h : mode.inText = true) (cs : List Char) :
    ∃ more ts, tokensFrom mode cs = .text (String.ofList (mode.held.reverse ++ more)) :: ts := by
  induction cs generalizing mode with
  | nil =>
    cases mode with
    | quoted | escaped | raw => exact ⟨[], [], by simp [tokensFrom, finish, heldText, Mode.held]⟩
    | code | slash | line | block | ident => simp [Mode.inText] at h
  | cons c cs ih =>
    rw [tokensFrom_cons]
    rcases step_of_inText h c with hend | ⟨hnone, hnext, more, hheld⟩
    · exact ⟨[], _, by rw [hend, List.append_nil]; rfl⟩
    · obtain ⟨later, ts, htext⟩ := ih hnext
      refine ⟨more.reverse ++ later, ts, ?_⟩
      rw [hnone, htext, hheld, List.reverse_append, List.append_assoc]
      rfl

/-- A blank in a text is held, unless it is a line feed that ends the text. -/
theorem step_blank_of_inText (h : mode.inText = true) (hc : isBlank c = true) (hne : c ≠ '\n') :
    (step mode c).1 = [] ∧ (step mode c).2.inText = true ∧
      (step mode c).2.held = c :: mode.held := by
  have hquote : c ≠ '"' := ne_of_isBlank hc (by decide)
  have hslash : c ≠ '\\' := ne_of_isBlank hc (by decide)
  have hraw : c ≠ '\x60' := ne_of_isBlank hc (by decide)
  have hn : c ≠ 'n' := ne_of_isBlank hc (by decide)
  have ht : c ≠ 't' := ne_of_isBlank hc (by decide)
  cases mode with
  | quoted => simp [step, hquote, hne, hslash, Mode.inText, Mode.held]
  | escaped => simp [step, hn, ht, Mode.inText, Mode.held]
  | raw => simp [step, hraw, Mode.inText, Mode.held]
  | code | slash | line | block | ident => simp [Mode.inText] at h

theorem exists_tokensFrom_continued (h : mode.inText = true) (ls : List (List Char)) :
    ∃ more ts, (∀ c ∈ more.head?, c = '\n') ∧
      tokensFrom mode (continued ls) = .text (String.ofList (mode.held.reverse ++ more)) :: ts := by
  cases ls with
  | nil =>
    cases mode with
    | quoted | escaped | raw =>
      exact ⟨[], [], by simp, by simp [tokensFrom, continued, finish, heldText, Mode.held]⟩
    | code | slash | line | block | ident => simp [Mode.inText] at h
  | cons line ls =>
    rw [continued_cons, tokensFrom_cons]
    have hheld (next : Mode) (hnext : next.inText = true)
        (hnewline : next.held = '\n' :: mode.held) :
        ∃ more ts, (∀ c ∈ more.head?, c = '\n') ∧ tokensFrom next (line ++ continued ls) =
          .text (String.ofList (mode.held.reverse ++ more)) :: ts := by
      obtain ⟨more, ts, htext⟩ := exists_tokensFrom_of_inText hnext (line ++ continued ls)
      refine ⟨'\n' :: more, ts, by simp, ?_⟩
      rw [htext, hnewline, List.reverse_cons, List.append_assoc]
      rfl
    cases mode with
    | quoted held => exact ⟨[], _, by simp, by simp [step, heldText, Mode.held]; rfl⟩
    | escaped held => exact hheld (.quoted _) rfl rfl
    | raw held => exact hheld (.raw _) rfl rfl
    | code | slash | line | block | ident => simp [Mode.inText] at h

end Playground.Source
