import Playground.Bundle
import Playground.Proofs.Source.Reading
import Playground.Proofs.Text.CodeLines
import Playground.Source.PackageClause

/-!
# What is read of a minified file

Minifying takes a file line by line, whatever the reader of tokens is in when a line begins.  A
line keeps what is read (`Keeps`) if nothing of a text is trimmed off it or left out with it, and
if it is no comment line that closes a block comment.  Lines that do so may be minified in front of
any others (`tokensFrom_codeOf_append`).

Main statement: a file whose lines all keep what is read has the tokens of its minified form, and a
file has others if the first line that does not keep it spoils a text (`tokens_minify`).
-/

namespace Playground.Bundle

open Playground.Source
open Playground.Text

variable {mode : Mode} {isOpen : Bool} {c d : Char} {cs ds line : List Char}
  {ls after : List (List Char)}

/-! ### Lines and where the reader is -/

/-- Some lines, each with where the reader is at its beginning. -/
def begun : Mode → List (List Char) → List (Mode × List Char)
  | _, [] => []
  | mode, line :: ls => (mode, line) :: begun (stepAll mode (line ++ ['\n'])).2 ls

/-- A line that is read as before when it is trimmed or, if it says nothing, left out. -/
structure Keeps (mode : Mode) (line : List Char) : Prop where
  /-- A line that begins in a text is not left out, and nothing is missing at its left. -/
  start : mode.inText = true → isCode (trim line) = true ∧ trimLeft line = line
  /-- Nothing is missing at the right of a line that ends in a text. -/
  finish : (stepAll mode (trim line)).2.inText = true → trim line = trimLeft line
  /-- A line of a block comment that looks like a line comment does not end the block. -/
  comment : mode = .block false → ['/', '/'] <+: trim line → ¬ ['*', '/'] <:+: line

/-- A line that loses some of a text: it begins in a raw text and is left out or trimmed at its
left, or it ends in a text and is trimmed at its right. -/
inductive Spoils (mode : Mode) (line : List Char) : Prop where
  | start (held : List Char) (hmode : mode = .raw held)
    (h : ¬ (isCode (trim line) = true ∧ trimLeft line = line))
  | finish (hcode : isCode (trim line) = true)
    (hstart : mode.inText = true → trimLeft line = line)
    (hmode : (stepAll mode (trim line)).2.inText = true) (h : trim line ≠ trimLeft line)

instance (mode : Mode) (line : List Char) : Decidable (Keeps mode line) :=
  decidable_of_iff
    ((mode.inText = true → isCode (trim line) = true ∧ trimLeft line = line) ∧
      ((stepAll mode (trim line)).2.inText = true → trim line = trimLeft line) ∧
      (mode = .block false → ['/', '/'] <+: trim line → ¬ ['*', '/'] <:+: line))
    ⟨fun ⟨start, finish, comment⟩ => ⟨start, finish, comment⟩,
      fun h => ⟨h.start, h.finish, h.comment⟩⟩

/-! ### Texts that are read alike -/

/-- Two texts that are read alike, before a line feed and before the end. -/
structure ReadAlike (mode : Mode) (cs ds : List Char) : Prop where
  newline : stepAll mode (cs ++ ['\n']) = stepAll mode (ds ++ ['\n'])
  finish : tokensFrom mode cs = tokensFrom mode ds

namespace ReadAlike

theorem refl (mode : Mode) (cs : List Char) : ReadAlike mode cs cs := ⟨rfl, rfl⟩

theorem tokensFrom_continued (h : ReadAlike mode cs ds) (ls : List (List Char)) :
    tokensFrom mode (cs ++ continued ls) = tokensFrom mode (ds ++ continued ls) := by
  cases ls with
  | nil => simpa [continued] using h.finish
  | cons line ls =>
    have hcut (es : List Char) : es ++ continued (line :: ls) =
        es ++ ['\n'] ++ (line ++ continued ls) := by
      rw [continued_cons, List.append_assoc]
      rfl
    rw [hcut, hcut, tokensFrom_append, h.newline, ← tokensFrom_append]

theorem append (h : ReadAlike (stepAll mode line).2 cs ds) :
    ReadAlike mode (line ++ cs) (line ++ ds) where
  newline := by
    rw [List.append_assoc, List.append_assoc, stepAll_append, stepAll_append mode line, h.newline]
  finish := by rw [tokensFrom_append, tokensFrom_append, h.finish]

theorem blanks_append {blanks : List Char} (h : ∀ b ∈ blanks, isBlank b = true) (cs : List Char) :
    ReadAlike (lineStart isOpen) (blanks ++ cs) cs where
  newline := by
    rw [List.append_assoc, stepAll_append, stepAll_lineStart h]
    rfl
  finish := tokensFrom_append_of_stepAll (stepAll_lineStart h)

theorem trans {es : List Char} (h : ReadAlike mode cs ds) (h' : ReadAlike mode ds es) :
    ReadAlike mode cs es :=
  ⟨h.newline.trans h'.newline, h.finish.trans h'.finish⟩

/-- A blank outside a text does not matter before the end of a line. -/
theorem blank {b : Char} (hmode : mode.inText = false) (hb : isBlank b = true) (hne : b ≠ '\n') :
    ReadAlike mode [b] [] := by
  obtain ⟨hnext, hfinish, hline⟩ := step_blank_snd hmode hb hne
  constructor
  case newline =>
    simp [stepAll_cons, stepAll_nil, step_blank hmode hb, step_blank hmode isBlank_newline,
      step_blank hnext isBlank_newline, hfinish, hline]
  case finish =>
    rw [tokensFrom_cons, step_blank hmode hb, tokensFrom, hfinish, List.append_nil]
    rfl

theorem blanks (hmode : mode.inText = false) (h : ∀ b ∈ cs, isBlank b = true ∧ b ≠ '\n') :
    ReadAlike mode cs [] := by
  induction cs generalizing mode with
  | nil => exact refl mode []
  | cons b cs ih =>
    obtain ⟨hb, hne⟩ := h b List.mem_cons_self
    have hnext : (stepAll mode [b]).2.inText = false := (step_blank_snd hmode hb hne).1
    have hrest := ih hnext fun b hmem => h b (List.mem_cons_of_mem _ hmem)
    have hafter : ReadAlike mode ([b] ++ cs) ([b] ++ []) := append hrest
    exact hafter.trans (blank hmode hb hne)

theorem comment {body : List Char} (h : '\n' ∉ body) : ReadAlike .code ('/' :: '/' :: body) [] where
  newline := by
    have hbody : stepAll .line (body ++ ['\n']) = ([], .code) := by
      rw [stepAll_append, stepAll_line h]
      rfl
    exact hbody
  finish := by
    have hbody : tokensFrom .line body = [] := tokensFrom_line_eq_nil h
    exact hbody

/-- A text that does not end a block comment does not matter inside it. -/
theorem block (h : ¬ ['*', '/'] <:+: cs) : ReadAlike (.block false) cs [] where
  newline := by
    obtain ⟨star, hbody⟩ := exists_stepAll_block false (by simpa using h)
    rw [stepAll_append, hbody]
    simp [stepAll, step]
  finish := tokensFrom_block_eq_nil h

end ReadAlike

/-! ### Lines that keep what is read -/

theorem exists_trim_of_notMem (hline : '\n' ∉ line) :
    ∃ left right, (∀ b ∈ left, isBlank b = true) ∧ (∀ b ∈ right, isBlank b = true ∧ b ≠ '\n') ∧
      line = left ++ trimLeft line ∧ trimLeft line = trim line ++ right := by
  obtain ⟨left, right, hleft, hright, hall, htrim⟩ := exists_trim line
  refine ⟨left, right, hleft, fun b hb => ⟨hright b hb, ?_⟩, hall, htrim⟩
  rintro rfl
  apply hline
  rw [hall, htrim]
  simp [hb]

theorem Keeps.readAlike_trim (h : Keeps mode line) (hline : '\n' ∉ line)
    (hmode : (∃ isOpen, mode = lineStart isOpen) ∨ mode.inText = true) :
    ReadAlike mode line (trim line) := by
  obtain ⟨left, right, hleft, hright, hall, htrim⟩ := exists_trim_of_notMem hline
  have hend : ReadAlike mode (trimLeft line) (trim line) := by
    cases hin : (stepAll mode (trim line)).2.inText with
    | true => rw [h.finish hin]; exact .refl mode _
    | false =>
      have hblanks : ReadAlike (stepAll mode (trim line)).2 right [] := .blanks hin hright
      have happend := hblanks.append
      rwa [← htrim, List.append_nil] at happend
  rcases hmode with ⟨isOpen, rfl⟩ | hin
  · have hbegin : ReadAlike (lineStart isOpen) (left ++ trimLeft line) (trimLeft line) :=
      .blanks_append hleft _
    rw [← hall] at hbegin
    exact hbegin.trans hend
  · rwa [(h.start hin).2] at hend

/-- A line that keeps what is read and says nothing may be left out. -/
theorem Keeps.readAlike_nil (h : Keeps (lineStart isOpen) line) (hline : '\n' ∉ line)
    (hcode : isCode (trim line) = false) : ReadAlike (lineStart isOpen) line [] := by
  obtain ⟨left, right, hleft, hright, hall, htrim⟩ := exists_trim line
  have hbegin : ReadAlike (lineStart isOpen) (left ++ trimLeft line) (trimLeft line) :=
    .blanks_append hleft _
  rw [← hall] at hbegin
  refine hbegin.trans ?_
  rcases isCode_eq_false_iff.1 hcode with hempty | hcomment
  · rw [htrim, hempty, List.nil_append]
    have hblanks : ReadAlike (lineStart isOpen) (right ++ []) [] := .blanks_append hright []
    rwa [List.append_nil] at hblanks
  · have hlater : '\n' ∉ trimLeft line :=
      fun hmem => hline ((List.dropWhile_suffix _).subset hmem)
    cases isOpen with
    | false =>
      obtain ⟨body, hbody⟩ := hcomment.trans ⟨right, htrim.symm⟩
      rw [← hbody] at hlater ⊢
      exact .comment (by simpa using hlater)
    | true =>
      refine .block fun hmem => h.comment rfl hcomment ?_
      exact hmem.trans (List.dropWhile_suffix _).isInfix

theorem tokensFrom_newline_continued (h : (step mode '\n').2 = lineStart isOpen)
    (ls : List (List Char)) :
    tokensFrom mode ('\n' :: continued ls) = tokensFrom mode (continued ls) := by
  cases ls with
  | nil =>
    have hfinish : (step mode '\n').1 = finish mode := by
      cases mode with
      | quoted => rfl
      | escaped | raw => cases isOpen <;> simp [step, lineStart] at h
      | code | slash | line | block | ident => exact step_blank rfl (by decide)
    have hend : finish (lineStart isOpen) = [] := by cases isOpen <;> rfl
    calc tokensFrom mode ['\n']
      _ = (step mode '\n').1 ++ finish (lineStart isOpen) := by rw [← h]; rfl
      _ = finish mode := by rw [hend, hfinish, List.append_nil]
  | cons line ls =>
    rw [continued_cons, tokensFrom_cons, h, tokensFrom_cons, step_lineStart (by decide),
      tokensFrom_cons mode, h]
    rfl

/-- Lines that keep what is read may be minified where others follow. -/
theorem tokensFrom_codeOf_append (hls : ∀ line ∈ ls, '\n' ∉ line)
    (h : ∀ l ∈ begun (step mode '\n').2 ls, Keeps l.1 l.2) (more : List (List Char)) :
    tokensFrom mode (continued (codeOf ls ++ more)) = tokensFrom mode (continued (ls ++ more)) := by
  induction ls generalizing mode with
  | nil => rfl
  | cons line ls ih =>
    have hkeeps : Keeps (step mode '\n').2 line := h _ List.mem_cons_self
    have hline : '\n' ∉ line := hls line List.mem_cons_self
    have hlater : ∀ line ∈ ls, '\n' ∉ line :=
      fun line hmem => hls line (List.mem_cons_of_mem _ hmem)
    have hbegun : ∀ l ∈ begun (stepAll (step mode '\n').2 (line ++ ['\n'])).2 ls, Keeps l.1 l.2 :=
      fun l hmem => h l (List.mem_cons_of_mem _ hmem)
    rw [List.cons_append, continued_cons]
    cases hcode : isCode (trim line) with
    | true =>
      have halike := hkeeps.readAlike_trim hline (step_newline mode)
      have hnext : stepAll (step mode '\n').2 (line ++ ['\n']) = _ := stepAll_append _ line ['\n']
      rw [hnext] at hbegun
      have hcodes : codeOf (line :: ls) = trim line :: codeOf ls := by simp [codeOf, hcode]
      rw [hcodes, List.cons_append, continued_cons, tokensFrom_cons, tokensFrom_cons,
        ← halike.tokensFrom_continued, tokensFrom_append _ line, tokensFrom_append _ line,
        ih hlater hbegun]
    | false =>
      obtain ⟨isOpen, hstart⟩ : ∃ isOpen, (step mode '\n').2 = lineStart isOpen := by
        rcases step_newline mode with hstart | hin
        · exact hstart
        · simp [(hkeeps.start hin).1] at hcode
      rw [hstart] at hkeeps hbegun
      have halike := hkeeps.readAlike_nil hline hcode
      rw [halike.newline] at hbegun
      have hcodes : codeOf (line :: ls) = codeOf ls := by simp [codeOf, hcode]
      calc tokensFrom mode (continued (codeOf (line :: ls) ++ more))
        _ = tokensFrom mode (continued (codeOf ls ++ more)) := by rw [hcodes]
        _ = tokensFrom mode ('\n' :: continued (codeOf ls ++ more)) :=
          (tokensFrom_newline_continued hstart _).symm
        _ = tokensFrom mode ('\n' :: continued (ls ++ more)) := by
          rw [tokensFrom_cons, tokensFrom_cons, hstart, ih hlater hbegun]
        _ = tokensFrom mode ('\n' :: (line ++ continued (ls ++ more))) := by
          rw [tokensFrom_cons, tokensFrom_cons, hstart, halike.tokensFrom_continued,
            List.nil_append]

theorem tokens_codeOf_append (hls : ∀ line ∈ ls, '\n' ∉ line)
    (h : ∀ l ∈ begun .code ls, Keeps l.1 l.2) (more : List (List Char)) :
    tokens (continued (codeOf ls ++ more)) = tokens (continued (ls ++ more)) := by
  have hstart : (step .code '\n').2 = .code := by decide
  rw [tokens, tokens, tokensFrom_codeOf_append hls (by rwa [hstart])]

/-! ### Lines that spoil a text -/

theorem newline_unlines (ls : List (List Char)) : '\n' :: unlines ls = continued ls ++ ['\n'] := by
  induction ls with
  | nil => rfl
  | cons line ls ih => rw [unlines_cons, continued_cons, ih]; simp

theorem tokens_glue (ls : List (List Char)) : tokens (glue '\n' ls) = tokens (continued ls) := by
  cases ls with
  | nil => rfl
  | cons line ls =>
    rw [← cons_glue (List.cons_ne_nil _ _)]
    rfl

theorem tokens_continued_splitOn (cs : List Char) :
    tokens (continued (splitOn '\n' cs)) = tokens cs := by
  rw [continued_splitOn]
  rfl

theorem tokens_minify_eq (cs : List Char) :
    tokens (minify cs) = tokens (continued (codeOf (splitOn '\n' cs))) := by
  rw [minify, tokens_glue, codeLines_eq]

/-- What of a text belongs to a raw text that it goes on with. -/
def rawPart (cs : List Char) : List Char := cs.takeWhile (· ≠ '\x60')

theorem rawPart_cons (h : c ≠ '\x60') : rawPart (c :: cs) = c :: rawPart cs := by
  simp [rawPart, h]

theorem of_rawPart_cons (h : rawPart (c :: cs) = d :: ds) : c = d ∧ rawPart cs = ds := by
  rw [rawPart, List.takeWhile_cons] at h
  split at h
  next => exact List.cons.inj h
  next => cases h

theorem head?_tokensFrom_raw (held cs : List Char) :
    (tokensFrom (.raw held) cs).head? =
      some (.text (String.ofList (held.reverse ++ rawPart cs))) := by
  induction cs generalizing held with
  | nil => simp [tokensFrom, finish, heldText, rawPart]
  | cons c cs ih =>
    by_cases hend : c = '\x60'
    · simp [tokensFrom, step, hend, heldText, rawPart]
    · simp [tokensFrom, step, hend, ih, rawPart_cons]

theorem exists_code_of_rawPart
    (h : rawPart (continued (codeOf (line :: after))) = rawPart (continued (line :: after))) :
    ∃ c code codes, codeOf (line :: after) = (c :: code) :: codes ∧ isBlank c = false ∧
      isCode (c :: code) = true ∧
      rawPart (c :: (code ++ continued codes)) = rawPart (line ++ continued after) := by
  rw [continued_cons, rawPart_cons (by decide)] at h
  cases hcodes : codeOf (line :: after) with
  | nil => simp [hcodes, continued, rawPart] at h
  | cons code codes =>
    obtain ⟨c, code, rfl, hc, hcode⟩ := exists_of_mem_codeOf (hcodes ▸ List.mem_cons_self)
    rw [hcodes, continued_cons, rawPart_cons (by decide)] at h
    exact ⟨c, code, codes, rfl, hc, hcode, (List.cons.inj h).2⟩

theorem exists_cons_of_rawPart (hcodes : codeOf (line :: after) ≠ []) (hc : isBlank c = false)
    (h : rawPart (c :: cs) = rawPart (line ++ continued after)) :
    ∃ d ds, line = d :: ds ∧ isBlank d = false := by
  have hfirst {d : Char} {ds : List Char} (hds : line ++ continued after = d :: ds) :
      isBlank d = false := by
    by_contra hd
    rw [Bool.not_eq_false] at hd
    rw [hds, rawPart_cons (ne_of_isBlank hd (by decide))] at h
    rw [(of_rawPart_cons h).1, hd] at hc
    cases hc
  cases line with
  | nil =>
    cases after with
    | nil => exact absurd rfl hcodes
    | cons next after =>
      rw [List.nil_append, continued_cons] at hfirst
      exact absurd (hfirst rfl) (by decide)
  | cons d ds => exact ⟨d, ds, rfl, hfirst rfl⟩

theorem not_comment_of_rawPart {code : List Char} {codes : List (List Char)}
    (hcode : isCode (c :: code) = true)
    (h : rawPart (c :: (code ++ continued codes)) = rawPart (line ++ continued after)) :
    ¬ ['/', '/'] <+: line := by
  rintro ⟨body, rfl⟩
  have hslash : ∀ cs, rawPart ('/' :: cs) = '/' :: rawPart cs := fun cs => rawPart_cons (by decide)
  obtain ⟨rfl, hrest⟩ := of_rawPart_cons (h.trans (hslash _))
  replace hrest := hrest.trans (hslash _)
  -- The second slash is no line feed, so that it is on the first line that says something.
  cases code with
  | nil =>
    cases codes with
    | nil => simp [continued, rawPart] at hrest
    | cons next codes => exact absurd (of_rawPart_cons hrest).1 (by decide)
  | cons e code =>
    obtain ⟨rfl, -⟩ := of_rawPart_cons hrest
    cases hcode

/-- A raw text that is as it was when lines are minified has not lost any of their first line. -/
theorem keeps_of_rawPart
    (h : rawPart (continued (codeOf (line :: after))) = rawPart (continued (line :: after))) :
    isCode (trim line) = true ∧ trimLeft line = line := by
  obtain ⟨c, code, codes, hcodes, hc, hcode, hrest⟩ := exists_code_of_rawPart h
  obtain ⟨d, ds, rfl, hd⟩ := exists_cons_of_rawPart (by simp [hcodes]) hc hrest
  refine ⟨?_, trimLeft_of_head? (by simpa using hd)⟩
  by_contra hnone
  rw [Bool.not_eq_true, isCode_eq_false_iff, trim_cons hd] at hnone
  have hcomment := hnone.resolve_left (List.cons_ne_nil _ _)
  exact not_comment_of_rawPart hcode hrest
    (hcomment.trans ((List.prefix_cons_inj d).2 (isPrefix_trimRight ds)))

/-- A raw text that loses some of the first line that it goes on with is another one. -/
theorem tokensFrom_ne_of_start {held : List Char}
    (h : ¬ (isCode (trim line) = true ∧ trimLeft line = line)) :
    tokensFrom (.raw held) (continued (codeOf (line :: after))) ≠
      tokensFrom (.raw held) (continued (line :: after)) := by
  intro he
  have hhead := congrArg List.head? he
  rw [head?_tokensFrom_raw, head?_tokensFrom_raw, Option.some_inj, Token.text.injEq,
    String.ofList_inj] at hhead
  exact h (keeps_of_rawPart (List.append_cancel_left hhead))

theorem tokensFrom_ne_of_finish {right : List Char} (hmode : mode.inText = true)
    (hne : right ≠ []) (hright : ∀ b ∈ right, isBlank b = true ∧ b ≠ '\n')
    (ls : List (List Char)) :
    tokensFrom mode (continued ls) ≠ tokensFrom mode (right ++ cs) := by
  obtain ⟨b, right, rfl⟩ := List.exists_cons_of_ne_nil hne
  obtain ⟨hb, hbline⟩ := hright b List.mem_cons_self
  obtain ⟨hnone, hnext, hheld⟩ := step_blank_of_inText hmode hb hbline
  obtain ⟨more, ts, hmore, htext⟩ := exists_tokensFrom_continued hmode ls
  obtain ⟨later, ts', htext'⟩ := exists_tokensFrom_of_inText hnext (right ++ cs)
  intro he
  rw [htext, List.cons_append, tokensFrom_cons, hnone, List.nil_append, htext', hheld] at he
  have hchars := String.ofList_inj.1 (Token.text.inj (List.cons.inj he).1)
  rw [List.reverse_cons, List.append_assoc] at hchars
  rw [List.append_cancel_left hchars] at hmore
  exact hbline (hmore b rfl)

/-- Only a raw text goes on over a line feed as one. -/
theorem exists_eq_raw {held : List Char} (h : (step mode '\n').2 = .raw held) :
    ∃ held', mode = .raw held' := by
  cases mode with
  | raw held' => exact ⟨held', rfl⟩
  | code | slash | line | block | quoted | escaped | ident => simp [step, startToken] at h

/-- A spoilt text changes what is read, whatever follows. -/
theorem tokensFrom_ne_of_spoils (hline : '\n' ∉ line) (h : Spoils (step mode '\n').2 line)
    (after : List (List Char)) :
    tokensFrom mode (continued (codeOf (line :: after))) ≠
      tokensFrom mode (continued (line :: after)) := by
  cases h with
  | start held hmode hlost =>
    obtain ⟨held', rfl⟩ := exists_eq_raw hmode
    exact tokensFrom_ne_of_start hlost
  | finish hcode hstart hmode hlost =>
    obtain ⟨left, right, hleft, hright, hall, htrim⟩ := exists_trim_of_notMem hline
    have hne : right ≠ [] := by
      rintro rfl
      rw [List.append_nil] at htrim
      exact hlost htrim.symm
    have hbegin : tokensFrom (step mode '\n').2 (line ++ continued after) =
        tokensFrom (step mode '\n').2 (trim line ++ (right ++ continued after)) := by
      rw [← List.append_assoc, ← htrim]
      rcases step_newline mode with ⟨isOpen, hopen⟩ | hin
      · rw [hopen]
        conv_lhs => rw [hall, List.append_assoc]
        exact tokensFrom_append_of_stepAll (stepAll_lineStart hleft)
      · rw [hstart hin]
    have hcodes : codeOf (line :: after) = trim line :: codeOf after := by simp [codeOf, hcode]
    intro he
    rw [hcodes, continued_cons, continued_cons, tokensFrom_cons, tokensFrom_cons, hbegin,
      tokensFrom_append _ (trim line), tokensFrom_append _ (trim line)] at he
    exact tokensFrom_ne_of_finish hmode hne hright (codeOf after)
      (List.append_cancel_left (List.append_cancel_left he))

theorem tokens_minify_ne {before : List (List Char)}
    (hcs : splitOn '\n' cs = before ++ line :: after)
    (hbefore : ∀ l ∈ begun .code before, Keeps l.1 l.2)
    (h : Spoils (stepAll .code (unlines before)).2 line) : tokens (minify cs) ≠ tokens cs := by
  have hlines : ∀ l ∈ before ++ line :: after, '\n' ∉ l := by
    rw [← hcs]
    exact fun _ => Path.notMem_splitOn
  have hmode : (stepAll .code (unlines before)).2 =
      (step (stepAll .code (continued before)).2 '\n').2 := by
    have hwhole := congrArg (stepAll .code) (newline_unlines before)
    rw [stepAll_append] at hwhole
    have hmodes := congrArg Prod.snd hwhole
    exact hmodes
  rw [hmode] at h
  have hminified : tokens (minify cs) = (stepAll .code (continued before)).1 ++
      tokensFrom (stepAll .code (continued before)).2 (continued (codeOf (line :: after))) := by
    have hkept := tokens_codeOf_append (fun l hl => hlines l (List.mem_append_left _ hl)) hbefore
    rw [tokens_minify_eq, hcs, codeOf_append, hkept, ← tokensFrom_append, ← continued_append]
    rfl
  have hcut : tokens cs = (stepAll .code (continued before)).1 ++
      tokensFrom (stepAll .code (continued before)).2 (continued (line :: after)) := by
    rw [← tokens_continued_splitOn, hcs, ← tokensFrom_append, ← continued_append]
    rfl
  rw [hminified, hcut]
  intro he
  exact tokensFrom_ne_of_spoils (hlines line (by simp)) h after (List.append_cancel_left he)

/-! ### Main statement -/

/-- Minifying keeps the tokens of a file whose lines all keep what is read.  It does not if the
first line that does not keep it spoils a text. -/
theorem tokens_minify (cs : List Char) :
    ((∀ l ∈ begun .code (splitOn '\n' cs), Keeps l.1 l.2) → tokens (minify cs) = tokens cs) ∧
    ∀ before line after, splitOn '\n' cs = before ++ line :: after →
      (∀ l ∈ begun .code before, Keeps l.1 l.2) →
      Spoils (stepAll .code (unlines before)).2 line → tokens (minify cs) ≠ tokens cs := by
  refine ⟨fun h => ?_, fun before line after => tokens_minify_ne⟩
  have hkept := tokens_codeOf_append (fun _ => Path.notMem_splitOn) h []
  rw [List.append_nil, List.append_nil] at hkept
  rw [tokens_minify_eq, hkept, tokens_continued_splitOn]

/-- A file with a raw text over two lines that nothing is trimmed off. -/
def keptFile : List Char := "\tpackage p\r\n\n// A /*\n/* B\n*/ var s =\x60a \\\nb\x60  \n".toList

/-- A file with a raw text over three lines, the second of which is empty. -/
def spoiltFile : List Char := "package p\nvar s = \x60a\n\n  b\x60\n".toList

theorem keeps_keptFile : ∀ l ∈ begun .code (splitOn '\n' keptFile), Keeps l.1 l.2 := by
  decide +kernel

theorem spoils_spoiltFile :
    Spoils (stepAll .code (unlines ["package p".toList, "var s = \x60a".toList])).2 [] :=
  .start "\na".toList (by decide +kernel) (by decide)

theorem tokens_minify_keptFile_spoiltFile :
    (∀ l ∈ begun .code (splitOn '\n' keptFile), Keeps l.1 l.2) ∧
      tokens (minify keptFile) = tokens keptFile ∧
      ∃ before line after, splitOn '\n' spoiltFile = before ++ line :: after ∧
        (∀ l ∈ begun .code before, Keeps l.1 l.2) ∧
        Spoils (stepAll .code (unlines before)).2 line ∧
        tokens (minify spoiltFile) ≠ tokens spoiltFile := by
  have hsplit : splitOn '\n' spoiltFile =
      ["package p".toList, "var s = \x60a".toList] ++ [] :: ["  b\x60".toList, []] := by
    decide +kernel
  have hbefore : ∀ l ∈ begun .code ["package p".toList, "var s = \x60a".toList], Keeps l.1 l.2 := by
    decide +kernel
  exact ⟨keeps_keptFile, (tokens_minify keptFile).1 keeps_keptFile, _, _, _, hsplit, hbefore,
    spoils_spoiltFile, (tokens_minify spoiltFile).2 _ _ _ hsplit hbefore spoils_spoiltFile⟩

/-- Minifying a file with a package clause may change its tokens. -/
theorem not_tokens_minify_eq :
    ¬ ∀ (file : String) (cs : List Char) (name : String), packageName file cs = .ok name →
      tokens (minify cs) = tokens cs := by
  intro h
  have hspoilt := h "a.go" spoiltFile "p" (by decide +kernel)
  exact absurd hspoilt (by decide +kernel)

end Playground.Bundle
