import Playground.Proofs.Source.Reading

/-!
# Lexemes and what separates them

The written side of tokens: names, texts between backquotes or double quotes, and marks, with
blanks and comments anywhere between them (`Written`).  The reader gives back the token of every
lexeme, in order, and then the tokens of the text that follows (`tokens_of_written`).
-/

namespace Playground.Source

open Playground.Text

variable {c : Char} {cs tail held : List Char}

/-! ### What separates -/

/-- What may stand between lexemes: a blank, a comment up to the end of its line, or a comment
that is closed. -/
inductive Trivium where
  | blank (c : Char) (h : isBlank c = true)
  | line (body : List Char) (h : '\n' ∉ body)
  | block (body : List Char) (h : ¬ ['*', '/'] <:+: body)

namespace Trivium

def chars : Trivium → List Char
  | blank c _ => [c]
  | line body _ => '/' :: '/' :: (body ++ ['\n'])
  | block body _ => '/' :: '*' :: (body ++ ['*', '/'])

theorem length_chars_pos (t : Trivium) : 0 < t.chars.length := by
  cases t <;> simp [chars]

end Trivium

/-! ### What is read -/

/-- A name: what starts one, and any number of characters that continue it. -/
structure Name where
  first : Char
  rest : List Char
  starts : startsName first = true
  continues : ∀ c ∈ rest, continuesName c = true

namespace Name

def chars (n : Name) : List Char := n.first :: n.rest

end Name

/-- A piece of a text between double quotes: a character that stands for itself, or one of the
four escapes. -/
inductive Piece where
  | plain (c : Char) (h : c ≠ '"' ∧ c ≠ '\\' ∧ c ≠ '\n')
  | newline
  | tab
  | quote
  | backslash

namespace Piece

def chars : Piece → List Char
  | plain c _ => [c]
  | newline => ['\\', 'n']
  | tab => ['\\', 't']
  | quote => ['\\', '"']
  | backslash => ['\\', '\\']

def meaning : Piece → Char
  | plain c _ => c
  | newline => '\n'
  | tab => '\t'
  | quote => '"'
  | backslash => '\\'

end Piece

/-- A text between backquotes, which holds none, or between double quotes. -/
inductive Literal where
  | raw (content : List Char) (h : '\x60' ∉ content)
  | quoted (pieces : List Piece)

namespace Literal

def chars : Literal → List Char
  | raw content _ => '\x60' :: (content ++ ['\x60'])
  | quoted pieces => '"' :: (pieces.flatMap Piece.chars ++ ['"'])

def meaning : Literal → String
  | raw content _ => String.ofList content
  | quoted pieces => String.ofList (pieces.map Piece.meaning)

end Literal

/-- The marks of import declarations. -/
inductive Mark where
  | semicolon
  | dot
  | opening
  | closing

namespace Mark

def char : Mark → Char
  | semicolon => ';'
  | dot => '.'
  | opening => '('
  | closing => ')'

end Mark

/-- What a header is made of. -/
inductive Lexeme where
  | name (n : Name)
  | literal (l : Literal)
  | mark (m : Mark)

namespace Lexeme

/-- The token that it stands for. -/
def token : Lexeme → Token
  | name n => .ident (String.ofList n.chars)
  | literal l => .text l.meaning
  | mark m => .punct m.char

end Lexeme

/-! ### How lexemes are written -/

/-- A name may stand right before the text: something separates it from what follows, or what
follows cannot continue it. -/
def EndsName (cs : List Char) : Prop :=
  (∃ t : Trivium, t.chars <+: cs) ∨ ∀ c ∈ cs.head?, continuesName c = false

theorem EndsName.of_head (h : continuesName c = false) : EndsName (c :: cs) :=
  .inr fun d hd => by rwa [← Option.some.inj hd]

/-- The texts that consist of some lexemes, with anything that separates before, between and after
them, and end with `tail`. -/
inductive Written (tail : List Char) : List Lexeme → List Char → Prop where
  | done : Written tail [] tail
  | trivium {ls cs} (t : Trivium) : Written tail ls cs → Written tail ls (t.chars ++ cs)
  | name {ls cs} (n : Name) : EndsName cs → Written tail ls cs →
      Written tail (.name n :: ls) (n.chars ++ cs)
  | literal {ls cs} (l : Literal) : Written tail ls cs →
      Written tail (.literal l :: ls) (l.chars ++ cs)
  | mark {ls cs} (m : Mark) : Written tail ls cs → Written tail (.mark m :: ls) (m.char :: cs)

/-! ### What leaves no token -/

theorem stepAll_block {body : List Char} (h : ¬ ['*', '/'] <:+: body) :
    stepAll (.block false) (body ++ ['*', '/']) = ([], .code) := by
  obtain ⟨star, hbody⟩ := exists_stepAll_block false (by simpa using h)
  rw [stepAll_append_of_stepAll hbody]
  simp [stepAll, step]

theorem stepAll_trivium (t : Trivium) : stepAll .code t.chars = ([], .code) := by
  cases t with
  | blank c h => exact stepAll_blanks (by simpa [Trivium.chars] using h)
  | line body h =>
    have hline : stepAll .line (body ++ ['\n']) = ([], .code) := by
      rw [stepAll_append_of_stepAll (stepAll_line h)]
      rfl
    exact hline
  | block body h => exact stepAll_block h

theorem tokens_trivium (t : Trivium) : tokens (t.chars ++ cs) = tokens cs :=
  tokensFrom_append_of_stepAll (stepAll_trivium t)

/-! ### What leaves one token -/

theorem EndsName.head (h : EndsName cs) : ∀ c ∈ cs.head?, continuesName c = false := by
  rcases h with ⟨t, rest, rfl⟩ | h
  · cases t with
    | blank c h => simpa [Trivium.chars] using continuesName_of_isBlank h
    | line => simp [Trivium.chars, show continuesName '/' = false by decide]
    | block => simp [Trivium.chars, show continuesName '/' = false by decide]
  · exact h

/-- The reader leaves a name where it ends. -/
theorem tokensFrom_ident (h : EndsName cs) :
    tokensFrom (.ident held) cs = .ident (heldText held) :: tokens cs := by
  cases cs with
  | nil => rfl
  | cons c cs =>
    have hc : continuesName c = false := h.head c (by simp)
    simp [tokens, tokensFrom, step, hc]

theorem tokensFrom_ident_append {name : List Char} (hname : ∀ c ∈ name, continuesName c = true)
    (h : EndsName cs) :
    tokensFrom (.ident held) (name ++ cs) =
      .ident (heldText (name.reverse ++ held)) :: tokens cs := by
  induction name generalizing held with
  | nil => exact tokensFrom_ident h
  | cons c name ih =>
    have hc : continuesName c = true := hname c (by simp)
    simp [tokensFrom, step, hc, ih fun c hmem => hname c (by simp [hmem])]

/-- A character of a name starts one or is a token. -/
theorem startToken_of_continuesName (h : continuesName c = true) :
    startToken c = if startsName c then ([], .ident [c]) else ([.punct c], .code) := by
  have hblank : isBlank c = false := by
    by_contra hc
    simp [continuesName_of_isBlank (by simpa using hc)] at h
  have hne (d : Char) (hd : continuesName d = false) : c ≠ d := by
    rintro rfl
    simp [hd] at h
  simp [startToken, hblank, hne '/' (by decide), hne '"' (by decide), hne '\x60' (by decide)]

theorem startToken_of_startsName (h : startsName c = true) : startToken c = ([], .ident [c]) := by
  rw [startToken_of_continuesName (continuesName_of_startsName h), if_pos h]

theorem tokens_name (n : Name) (h : EndsName cs) :
    tokens (n.chars ++ cs) = .ident (String.ofList n.chars) :: tokens cs := by
  have hrest : tokensFrom (.ident [n.first]) (n.rest ++ cs) = _ :=
    tokensFrom_ident_append n.continues h
  simpa [Name.chars, tokens, tokensFrom, step, startToken_of_startsName n.starts, heldText]
    using hrest

theorem tokensFrom_raw {content : List Char} (h : '\x60' ∉ content) :
    tokensFrom (.raw held) (content ++ '\x60' :: cs) =
      .text (heldText (content.reverse ++ held)) :: tokens cs := by
  induction content generalizing held with
  | nil => simp [tokens, tokensFrom, step]
  | cons c content ih =>
    rw [List.mem_cons, not_or] at h
    simp [tokensFrom, step, Ne.symm h.1, ih h.2]

theorem tokensFrom_piece (p : Piece) :
    tokensFrom (.quoted held) (p.chars ++ cs) = tokensFrom (.quoted (p.meaning :: held)) cs := by
  cases p with
  | plain c h => simp [Piece.chars, Piece.meaning, tokensFrom, step, h]
  | _ => simp [Piece.chars, Piece.meaning, tokensFrom, step]

theorem tokensFrom_quoted (pieces : List Piece) :
    tokensFrom (.quoted held) (pieces.flatMap Piece.chars ++ '"' :: cs) =
      .text (heldText ((pieces.map Piece.meaning).reverse ++ held)) :: tokens cs := by
  induction pieces generalizing held with
  | nil => simp [tokens, tokensFrom, step]
  | cons p pieces ih =>
    rw [List.flatMap_cons, List.append_assoc, tokensFrom_piece, ih]
    simp

theorem tokens_literal (l : Literal) : tokens (l.chars ++ cs) = .text l.meaning :: tokens cs := by
  cases l with
  | raw content h =>
    have hraw : tokens ('\x60' :: (content ++ '\x60' :: cs)) = _ := tokensFrom_raw h
    simpa [Literal.chars, Literal.meaning, heldText] using hraw
  | quoted pieces =>
    have hquoted : tokens ('"' :: (pieces.flatMap Piece.chars ++ '"' :: cs)) = _ :=
      tokensFrom_quoted pieces
    simpa [Literal.chars, Literal.meaning, heldText] using hquoted

theorem tokens_mark (m : Mark) : tokens (m.char :: cs) = .punct m.char :: tokens cs := by
  cases m <;> rfl

/-! ### What leaves the tokens of all lexemes -/

/-- A text that consists of some lexemes is read as their tokens and then as what follows. -/
theorem tokens_of_written {lexemes : List Lexeme} (h : Written tail lexemes cs) :
    tokens cs = lexemes.map Lexeme.token ++ tokens tail := by
  induction h with
  | done => rfl
  | trivium t _ ih => rw [tokens_trivium, ih]
  | name n hends _ ih => rw [tokens_name n hends, ih]; rfl
  | literal l _ ih => rw [tokens_literal, ih]; rfl
  | mark m _ ih => rw [tokens_mark, ih]; rfl

end Playground.Source
