import Playground.Proofs.Source.Lexemes

/-!
# Where the tokens of a text begin

What stands before the first token of a text is made of blanks and of comments that end
(`FirstToken`).  A text has a first token exactly if the reader finds any token in it
(`exists_firstToken_iff`), and there is one place only where the reader can be between tokens and
meet the beginning of one (`BeginsToken.eq_of_append_eq`).
-/

namespace Playground.Source

open Playground.Text

variable {cs before before' mid rest rest' : List Char}

/-! ### The beginning of a token -/

/-- A text that begins with a token: what stands first is no blank and begins no comment. -/
structure BeginsToken (cs : List Char) : Prop where
  not_blank : ∃ c ∈ cs.head?, isBlank c = false
  not_line : ¬ ['/', '/'] <+: cs
  not_block : ¬ ['/', '*'] <+: cs

/-- A text with its first token: `before` are blanks and comments, and a token begins `rest`. -/
structure FirstToken (before rest cs : List Char) : Prop where
  append : before ++ rest = cs
  trivia : ∃ ts : List Trivium, ts.flatMap Trivium.chars = before
  begins : BeginsToken rest

theorem tokensFrom_ident_ne_nil (held cs : List Char) : tokensFrom (.ident held) cs ≠ [] := by
  induction cs generalizing held with
  | nil => simp [tokensFrom, finish]
  | cons c cs ih =>
    rw [tokensFrom_cons, step]
    split
    next => exact ih _
    next => simp

theorem tokensFrom_ne_nil_of_inText {mode : Mode} (h : mode.inText = true) (cs : List Char) :
    tokensFrom mode cs ≠ [] := by
  obtain ⟨more, ts, htext⟩ := exists_tokensFrom_of_inText h cs
  simp [htext]

namespace BeginsToken

theorem head (h : BeginsToken cs) : ∀ c ∈ cs.head?, isBlank c = false := by
  obtain ⟨d, hd, hblank⟩ := h.not_blank
  intro c hc
  rwa [Option.mem_unique hc hd]

theorem tokens_ne_nil (h : BeginsToken cs) : tokens cs ≠ [] := by
  obtain ⟨c, hc, hblank⟩ := h.not_blank
  cases cs with
  | nil => cases hc
  | cons d cs =>
    obtain rfl : d = c := by simpa using hc
    by_cases hslash : d = '/'
    · subst hslash
      cases cs with
      | nil => decide
      | cons e cs =>
        have hline : e ≠ '/' := by
          rintro rfl
          exact h.not_line ⟨cs, rfl⟩
        have hblock : e ≠ '*' := by
          rintro rfl
          exact h.not_block ⟨cs, rfl⟩
        have hwhole : tokens ('/' :: e :: cs) = tokensFrom .slash (e :: cs) := rfl
        rw [hwhole, tokensFrom_cons, step, if_neg hline, if_neg hblock]
        simp
    · rw [tokens, tokensFrom_cons, step, startToken, if_neg (by simp [hblank]), if_neg hslash]
      split
      next => exact tokensFrom_ne_nil_of_inText rfl cs
      next =>
        split
        next => exact tokensFrom_ne_nil_of_inText rfl cs
        next =>
          split
          next => exact tokensFrom_ident_ne_nil [d] cs
          next => simp

theorem of_append (h : BeginsToken (cs ++ rest)) (hne : cs ≠ []) : BeginsToken cs where
  not_blank := by
    have hblank := h.not_blank
    rwa [List.head?_append_of_ne_nil cs hne] at hblank
  not_line hmem := h.not_line (hmem.trans (List.prefix_append cs rest))
  not_block hmem := h.not_block (hmem.trans (List.prefix_append cs rest))

theorem append (h : BeginsToken cs) (hrest : ∀ c ∈ rest.head?, isBlank c = true) :
    BeginsToken (cs ++ rest) := by
  have hne : cs ≠ [] := by
    rintro rfl
    obtain ⟨c, hc, -⟩ := h.not_blank
    cases hc
  -- A mark of two characters does not reach into what begins with a blank.
  have hmark {a b : Char} (hb : isBlank b = false) (hnot : ¬ [a, b] <+: cs) :
      ¬ [a, b] <+: cs ++ rest := by
    rintro ⟨after, hafter⟩
    cases cs with
    | nil => exact hne rfl
    | cons c cs =>
      cases cs with
      | nil =>
        obtain rfl : b :: after = rest := (List.cons.inj hafter).2
        have hblank := hrest b rfl
        rw [hb] at hblank
        cases hblank
      | cons d cs =>
        obtain ⟨rfl, htail⟩ := List.cons.inj hafter
        obtain rfl : b = d := (List.cons.inj htail).1
        exact hnot ⟨cs, rfl⟩
  exact {
    not_blank := by
      rw [List.head?_append_of_ne_nil cs hne]
      exact h.not_blank
    not_line := hmark (by decide) h.not_line
    not_block := hmark (by decide) h.not_block }

theorem eq_nil_of_stepAll (h : BeginsToken (mid ++ rest)) (hmid : stepAll .code mid = ([], .code)) :
    mid = [] := by
  by_contra hne
  apply (h.of_append hne).tokens_ne_nil
  rw [tokens, tokensFrom_eq, hmid]
  rfl

/-- There is one place where the reader is between tokens and meets the beginning of one. -/
theorem eq_of_append_eq (h : BeginsToken rest) (h' : BeginsToken rest')
    (hbefore : stepAll .code before = ([], .code)) (hbefore' : stepAll .code before' = ([], .code))
    (happend : before ++ rest = before' ++ rest') : before = before' := by
  rcases List.append_eq_append_iff.1 happend with ⟨mid, hwhole, hrest⟩ | ⟨mid, hwhole, hrest⟩
  · rw [hrest] at h
    rw [hwhole, stepAll_append_of_stepAll hbefore] at hbefore'
    rw [hwhole, h.eq_nil_of_stepAll hbefore', List.append_nil]
  · rw [hrest] at h'
    rw [hwhole, stepAll_append_of_stepAll hbefore'] at hbefore
    rw [hwhole, h'.eq_nil_of_stepAll hbefore, List.append_nil]

end BeginsToken

/-! ### The first token -/

theorem stepAll_trivia (ts : List Trivium) :
    stepAll .code (ts.flatMap Trivium.chars) = ([], .code) := by
  induction ts with
  | nil => rfl
  | cons t ts ih => rw [List.flatMap_cons, stepAll_append_of_stepAll (stepAll_trivium t), ih]

theorem exists_of_tokensFrom_line (h : tokensFrom .line cs ≠ []) :
    ∃ body later, '\n' ∉ body ∧ cs = body ++ '\n' :: later := by
  have hmem : '\n' ∈ cs := by
    by_contra hmem
    exact h (tokensFrom_line_eq_nil hmem)
  obtain ⟨body, later, hcs, hbody⟩ := List.eq_append_cons_of_mem hmem
  exact ⟨body, later, hbody, hcs⟩

theorem exists_of_tokensFrom_block (h : tokensFrom (.block false) cs ≠ []) :
    ∃ body later, ¬ ['*', '/'] <:+: body ∧ cs = body ++ (['*', '/'] ++ later) := by
  cases hafter : after? ['*', '/'] cs with
  | none => exact absurd (tokensFrom_block_eq_nil (not_infix_of_after? hafter)) h
  | some later =>
    obtain ⟨body, hbody, hcs⟩ := exists_of_after? (List.cons_ne_nil _ _) hafter
    exact ⟨body, later, hbody, hcs⟩

/-- A text that has tokens but begins with none begins with what separates. -/
theorem exists_trivium (h : tokens cs ≠ []) (hbegins : ¬ BeginsToken cs) :
    ∃ (t : Trivium) (later : List Char), t.chars ++ later = cs := by
  cases cs with
  | nil => exact absurd rfl h
  | cons c cs =>
    cases hblank : isBlank c with
    | true => exact ⟨.blank c hblank, cs, rfl⟩
    | false =>
      by_cases hline : ['/', '/'] <+: c :: cs
      · obtain ⟨comment, hcomment⟩ := hline
        rw [← hcomment] at h ⊢
        obtain ⟨body, later, hbody, rfl⟩ := exists_of_tokensFrom_line h
        exact ⟨.line body hbody, later, by simp [Trivium.chars]⟩
      · by_cases hblock : ['/', '*'] <+: c :: cs
        · obtain ⟨comment, hcomment⟩ := hblock
          rw [← hcomment] at h ⊢
          obtain ⟨body, later, hbody, rfl⟩ := exists_of_tokensFrom_block h
          exact ⟨.block body hbody, later, by simp [Trivium.chars]⟩
        · exact absurd ⟨⟨c, rfl, hblank⟩, hline, hblock⟩ hbegins

theorem exists_firstToken (h : tokens cs ≠ []) : ∃ before rest, FirstToken before rest cs := by
  induction hn : cs.length using Nat.strong_induction_on generalizing cs with
  | _ n ih =>
    by_cases hbegins : BeginsToken cs
    · exact ⟨[], cs, rfl, ⟨[], rfl⟩, hbegins⟩
    · obtain ⟨t, later, rfl⟩ := exists_trivium h hbegins
      rw [tokens_trivium] at h
      have hlt : later.length < n := by
        have hpos := t.length_chars_pos
        rw [List.length_append] at hn
        omega
      obtain ⟨before, rest, rfl, ⟨ts, rfl⟩, hrest⟩ := ih _ hlt h rfl
      exact ⟨(t :: ts).flatMap Trivium.chars, rest, by simp, ⟨t :: ts, rfl⟩, hrest⟩

namespace FirstToken

theorem stepAll_before (h : FirstToken before rest cs) : stepAll .code before = ([], .code) := by
  obtain ⟨ts, rfl⟩ := h.trivia
  exact stepAll_trivia ts

theorem tokens_eq (h : FirstToken before rest cs) : tokens cs = tokens rest := by
  rw [← h.append, tokens, tokensFrom_append_of_stepAll h.stepAll_before, ← tokens]

end FirstToken

/-- A text has a first token if it has any. -/
theorem exists_firstToken_iff : (∃ before rest, FirstToken before rest cs) ↔ tokens cs ≠ [] := by
  constructor
  · rintro ⟨before, rest, h⟩
    rw [h.tokens_eq]
    exact h.begins.tokens_ne_nil
  · exact exists_firstToken

end Playground.Source
