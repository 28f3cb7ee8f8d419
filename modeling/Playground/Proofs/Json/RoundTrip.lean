import Playground.Proofs.Json.Quoted

/-!
# What is written is read back

A value has one list of tokens, whichever way it is written.  The reader cuts both texts of a value
into these tokens (`tokensFrom?_prettyChars`), and puts them together to the value
(`valueFrom?_tokens`).  So `Value.read?` gives a value back from its text (`read?_prettyChars`).

Words, that is the literals and numbers, end only where a character stands that no word contains;
everything else ends by itself.
-/

namespace Playground.Json

variable {c : Char} {cs rest : List Char} {held : List Piece}

/-! ### Quoted texts -/

/-- What the reader holds of a character of a quoted text. -/
def pieceOf (c : Char) : Piece :=
  if escapeLetter? c = none ∧ c < ' ' then .code c.toNat else .char c

theorem tokensFrom?_quoteChar (c : Char) (rest : List Char) :
    tokensFrom? (.quoted held) (quoteChar c ++ rest) =
      tokensFrom? (.quoted (pieceOf c :: held)) rest := by
  unfold quoteChar
  split
  · rename_i letter hletter
    have hpiece : pieceOf c = .char c := by simp [pieceOf, hletter]
    rw [hpiece]
    unfold escapeLetter? at hletter
    split at hletter <;> cases hletter <;> simp [tokensFrom?, readChar?, unescape?]
  · rename_i hletter
    split
    · rename_i hc
      have hpiece : pieceOf c = .code c.toNat := by simp [pieceOf, hletter, hc]
      have hlt : c.toNat < 32 := hc
      have hhigh := hexValue?_hexDigit (c.toNat / 16) (by omega)
      have hlow := hexValue?_hexDigit (c.toNat % 16) (by omega)
      have hzero : hexValue? '0' = some 0 := by decide
      have hcode : 16 * (c.toNat / 16) + c.toNat % 16 = c.toNat := by omega
      simp [tokensFrom?, readChar?, hzero, hhigh, hlow, hpiece, hcode]
    · rename_i hc
      have hpiece : pieceOf c = .char c := by simp [pieceOf, hc]
      have hquote : c ≠ '"' := by
        rintro rfl
        cases hletter
      have hbackslash : c ≠ '\\' := by
        rintro rfl
        cases hletter
      simp [tokensFrom?, readChar?, hquote, hbackslash, hc, hpiece]

theorem tokensFrom?_flatMap_quoteChar (cs rest : List Char) :
    tokensFrom? (.quoted held) (cs.flatMap quoteChar ++ rest) =
      tokensFrom? (.quoted ((cs.map pieceOf).reverse ++ held)) rest := by
  induction cs generalizing held with
  | nil => rfl
  | cons c cs ih =>
    rw [List.flatMap_cons, List.append_assoc, tokensFrom?_quoteChar, ih]
    simp

/-- A unit that is no part of a pair is a character by itself. -/
theorem pieceChars_code {n : Nat} (h : n < 0xD800) (pieces : List Piece) :
    pieceChars (.code n :: pieces) = (pieceChars pieces).map (Char.ofNat n :: ·) := by
  have hlow : ¬ 0xD800 ≤ n := by omega
  have hhigh : ¬ 0xDC00 ≤ n := by omega
  cases pieces with
  | nil => simp [pieceChars, hlow]
  | cons piece pieces => cases piece <;> simp [pieceChars, hlow, hhigh]

theorem pieceChars_pieceOf (cs : List Char) : pieceChars (cs.map pieceOf) = some cs := by
  induction cs with
  | nil => rfl
  | cons c cs ih =>
    rw [List.map_cons]
    by_cases hc : escapeLetter? c = none ∧ c < ' '
    · have hpiece : pieceOf c = .code c.toNat := if_pos hc
      have hlt : c.toNat < 32 := hc.2
      rw [hpiece, pieceChars_code (by omega), ih, Option.map_some, Char.ofNat_toNat]
    · have hpiece : pieceOf c = .char c := if_neg hc
      rw [hpiece, pieceChars, ih]
      rfl

theorem tokensFrom?_quoteChars (cs rest : List Char) :
    tokensFrom? .between (quoteChars cs ++ rest) =
      (tokensFrom? .between rest).map (.text (some (String.ofList cs)) :: ·) := by
  have hstart : tokensFrom? .between (quoteChars cs ++ rest) =
      tokensFrom? (.quoted []) (cs.flatMap quoteChar ++ '"' :: rest) := by
    simp [quoteChars, tokensFrom?, readChar?, startRead, isBetween, isMark]
  rw [hstart, tokensFrom?_flatMap_quoteChar]
  cases htokens : tokensFrom? .between rest <;>
    simp [tokensFrom?, readChar?, textToken, pieceChars_pieceOf, htokens]

/-! ### Between quoted texts -/

/-- Whether no word goes on with a character. -/
def isDelimiter (c : Char) : Bool := isBetween c || isMark c || c = '"'

/-- Whether a word ends before a text. -/
def EndsWord (rest : List Char) : Prop := ∀ c ∈ rest.head?, isDelimiter c = true

theorem tokensFrom?_mark (hc : isMark c = true) (rest : List Char) :
    tokensFrom? .between (c :: rest) = (tokensFrom? .between rest).map (.mark c :: ·) := by
  have hbetween : isBetween c = false := by
    simp only [isMark, Bool.or_eq_true, decide_eq_true_eq] at hc
    rcases hc with ((((rfl | rfl) | rfl) | rfl) | rfl) | rfl <;> rfl
  cases htokens : tokensFrom? .between rest <;>
    simp [tokensFrom?, readChar?, startRead, hc, hbetween, htokens]

theorem tokensFrom?_blank (hc : isBetween c = true) (rest : List Char) :
    tokensFrom? .between (c :: rest) = tokensFrom? .between rest := by
  simp [tokensFrom?, readChar?, startRead, hc]

theorem tokensFrom?_newLine (depth : Nat) (rest : List Char) :
    tokensFrom? .between (Value.newLine depth ++ rest) = tokensFrom? .between rest := by
  have hblanks : ∀ n, tokensFrom? .between (List.replicate n ' ' ++ rest) =
      tokensFrom? .between rest := by
    intro n
    induction n with
    | zero => rfl
    | succ n ih =>
      rw [List.replicate_succ, List.cons_append, tokensFrom?_blank (by rfl), ih]
  rw [Value.newLine, List.cons_append, tokensFrom?_blank (by rfl), hblanks]

/-- A leaf whose text is read as one word. -/
structure IsWord (v : Value) : Prop where
  token : wordToken? v.leaf = some (.leaf v)
  begins : v.leaf ≠ []
  plain : ∀ c ∈ v.leaf, isDelimiter c = false

theorem tokensFrom?_word {held word : List Char} {token : Token}
    (hplain : ∀ c ∈ word, isDelimiter c = false) (hrest : EndsWord rest)
    (htoken : wordToken? (held.reverse ++ word) = some token) :
    tokensFrom? (.word held) (word ++ rest) = (tokensFrom? .between rest).map (token :: ·) := by
  induction word generalizing held with
  | nil =>
    rw [List.append_nil] at htoken
    cases rest with
    | nil => simp [tokensFrom?, htoken]
    | cons c rest =>
      have hc : isDelimiter c = true := hrest c rfl
      simp only [isDelimiter] at hc
      rw [List.nil_append]
      cases htokens : tokensFrom? (startRead c).2 rest <;>
        simp [tokensFrom?, readChar?, hc, htoken, htokens]
  | cons c word ih =>
    have hc : isDelimiter c = false := hplain c List.mem_cons_self
    simp only [isDelimiter] at hc
    have htoken' : wordToken? ((c :: held).reverse ++ word) = some token := by simpa using htoken
    rw [← ih (fun c hc => hplain c (List.mem_cons_of_mem _ hc)) htoken']
    simp [tokensFrom?, readChar?, hc]

theorem tokensFrom?_leaf {v : Value} (hv : IsWord v) (hrest : EndsWord rest) :
    tokensFrom? .between (v.leaf ++ rest) = (tokensFrom? .between rest).map (.leaf v :: ·) := by
  cases hleaf : v.leaf with
  | nil => exact absurd hleaf hv.begins
  | cons c word =>
    have hplain := hv.plain
    have htoken := hv.token
    rw [hleaf] at hplain htoken
    have hc : isDelimiter c = false := hplain c List.mem_cons_self
    have hread : tokensFrom? (.word [c]) (word ++ rest) =
        (tokensFrom? .between rest).map (.leaf v :: ·) :=
      tokensFrom?_word (fun c hc => hplain c (List.mem_cons_of_mem _ hc)) hrest htoken
    rw [← hread]
    simp only [isDelimiter, Bool.or_eq_false_iff, decide_eq_false_iff_not] at hc
    simp [tokensFrom?, readChar?, startRead, hc]

/-! ### Values -/

namespace Value

mutual

/-- The tokens of a value. -/
def tokens : Value → List Token
  | array items => .mark '[' :: itemTokens items ++ [.mark ']']
  | object members => .mark '\x7b' :: memberTokens members ++ [.mark '\x7d']
  | string s => [.text (some s)]
  | v => [.leaf v]

def itemTokens : List Value → List Token
  | [] => []
  | [v] => v.tokens
  | v :: vs => v.tokens ++ .mark ',' :: itemTokens vs

def memberTokens : List (String × Value) → List Token
  | [] => []
  | [(name, v)] => .text (some name) :: .mark ':' :: v.tokens
  | (name, v) :: rest =>
    .text (some name) :: .mark ':' :: v.tokens ++ .mark ',' :: memberTokens rest

end

mutual

/-- All leaves of a value but its texts are words. -/
def IsPlain : Value → Prop
  | array items => ItemsPlain items
  | object members => MembersPlain members
  | string _ => True
  | v => IsWord v

def ItemsPlain : List Value → Prop
  | [] => True
  | v :: vs => v.IsPlain ∧ ItemsPlain vs

def MembersPlain : List (String × Value) → Prop
  | [] => True
  | (_, v) :: rest => v.IsPlain ∧ MembersPlain rest

end

end Value

open Value

theorem Value.membersPlain_iff {ms : List (String × Value)} :
    MembersPlain ms ↔ ∀ m ∈ ms, m.2.IsPlain := by
  induction ms with
  | nil => simp [MembersPlain]
  | cons m ms ih => simp [MembersPlain, ih]

theorem endsWord_newLine (depth : Nat) (rest : List Char) :
    EndsWord (newLine depth ++ rest) := by
  rintro c hc
  cases hc
  rfl

theorem endsWord_mark (hc : isMark c = true) (rest : List Char) : EndsWord (c :: rest) := by
  rintro _ ⟨⟩
  simp [isDelimiter, hc]

mutual

/-- The text of a value is cut into its tokens. -/
theorem tokensFrom?_prettyChars (depth : Nat) : ∀ (v : Value) (rest : List Char), v.IsPlain →
    EndsWord rest → tokensFrom? .between (v.prettyChars depth ++ rest) =
      (tokensFrom? .between rest).map (v.tokens ++ ·)
  | array [], rest, _, _ => by
    simp [prettyChars, tokens, itemTokens, tokensFrom?_mark, isMark, Function.comp_def]
  | array (v :: vs), rest, hv, _ => by
    have hitems := tokensFrom?_prettyItems (depth + 1) (v :: vs)
      (newLine depth ++ ']' :: rest) hv (endsWord_newLine _ _)
    simp only [prettyChars, List.cons_append, List.append_assoc, List.nil_append]
    rw [tokensFrom?_mark (by rfl), tokensFrom?_newLine, hitems, tokensFrom?_newLine,
      tokensFrom?_mark (by rfl)]
    simp [tokens, Function.comp_def]
  | object [], rest, _, _ => by
    simp [prettyChars, tokens, memberTokens, tokensFrom?_mark, isMark, Function.comp_def]
  | object (m :: ms), rest, hv, _ => by
    have hmembers := tokensFrom?_prettyMembers (depth + 1) (m :: ms)
      (newLine depth ++ '\x7d' :: rest) hv (endsWord_newLine _ _)
    simp only [prettyChars, List.cons_append, List.append_assoc, List.nil_append]
    rw [tokensFrom?_mark (by rfl), tokensFrom?_newLine, hmembers, tokensFrom?_newLine,
      tokensFrom?_mark (by rfl)]
    simp [tokens, Function.comp_def]
  | string s, rest, _, _ => by
    have htext := tokensFrom?_quoteChars s.toList rest
    rw [String.ofList_toList] at htext
    exact htext
  | null, rest, hv, hrest => tokensFrom?_leaf hv hrest
  | Value.bool b, rest, hv, hrest => tokensFrom?_leaf hv hrest
  | number n, rest, hv, hrest => tokensFrom?_leaf hv hrest
  | other sound, rest, hv, hrest => tokensFrom?_leaf hv hrest

theorem tokensFrom?_prettyItems (depth : Nat) : ∀ (vs : List Value) (rest : List Char),
    ItemsPlain vs → EndsWord rest → tokensFrom? .between (prettyItems depth vs ++ rest) =
      (tokensFrom? .between rest).map (itemTokens vs ++ ·)
  | [], rest, _, _ => by simp [prettyItems, itemTokens]
  | [v], rest, hv, hrest => tokensFrom?_prettyChars depth v rest hv.1 hrest
  | v :: w :: vs, rest, hv, hrest => by
    have hfirst := tokensFrom?_prettyChars depth v
      (',' :: newLine depth ++ prettyItems depth (w :: vs) ++ rest) hv.1 (endsWord_mark (by rfl) _)
    have hothers := tokensFrom?_prettyItems depth (w :: vs) rest hv.2 hrest
    simp only [prettyItems, List.cons_append, List.append_assoc] at hfirst ⊢
    rw [hfirst, tokensFrom?_mark (by rfl), tokensFrom?_newLine, hothers]
    simp [itemTokens, Function.comp_def]

theorem tokensFrom?_prettyMembers (depth : Nat) : ∀ (ms : List (String × Value))
    (rest : List Char), MembersPlain ms → EndsWord rest →
    tokensFrom? .between (prettyMembers depth ms ++ rest) =
      (tokensFrom? .between rest).map (memberTokens ms ++ ·)
  | [], rest, _, _ => by simp [prettyMembers, memberTokens]
  | [(name, v)], rest, hv, hrest => by
    have hvalue := tokensFrom?_prettyChars depth v rest hv.1 hrest
    simp only [prettyMembers, List.cons_append, List.append_assoc]
    rw [tokensFrom?_quoteChars, tokensFrom?_mark (by rfl), tokensFrom?_blank (by rfl), hvalue]
    simp [memberTokens, Function.comp_def]
  | (name, v) :: m :: ms, rest, hv, hrest => by
    have hvalue := tokensFrom?_prettyChars depth v
      (',' :: newLine depth ++ prettyMembers depth (m :: ms) ++ rest) hv.1
      (endsWord_mark (by rfl) _)
    have hothers := tokensFrom?_prettyMembers depth (m :: ms) rest hv.2 hrest
    simp only [prettyMembers, List.cons_append, List.append_assoc] at hvalue ⊢
    rw [tokensFrom?_quoteChars, tokensFrom?_mark (by rfl), tokensFrom?_blank (by rfl), hvalue,
      tokensFrom?_mark (by rfl), tokensFrom?_newLine, hothers]
    simp [memberTokens, Function.comp_def]

end

mutual

theorem tokensFrom?_compactChars : ∀ (v : Value) (rest : List Char), v.IsPlain → EndsWord rest →
    tokensFrom? .between (v.compactChars ++ rest) =
      (tokensFrom? .between rest).map (v.tokens ++ ·)
  | array items, rest, hv, _ => by
    have hitems := tokensFrom?_compactItems items (']' :: rest) hv (endsWord_mark (by rfl) _)
    simp only [compactChars, List.cons_append, List.append_assoc, List.nil_append]
    rw [tokensFrom?_mark (by rfl), hitems, tokensFrom?_mark (by rfl)]
    simp [tokens, Function.comp_def]
  | object members, rest, hv, _ => by
    have hmembers := tokensFrom?_compactMembers members ('\x7d' :: rest) hv
      (endsWord_mark (by rfl) _)
    simp only [compactChars, List.cons_append, List.append_assoc, List.nil_append]
    rw [tokensFrom?_mark (by rfl), hmembers, tokensFrom?_mark (by rfl)]
    simp [tokens, Function.comp_def]
  | string s, rest, _, _ => by
    have htext := tokensFrom?_quoteChars s.toList rest
    rw [String.ofList_toList] at htext
    exact htext
  | null, rest, hv, hrest => tokensFrom?_leaf hv hrest
  | Value.bool b, rest, hv, hrest => tokensFrom?_leaf hv hrest
  | number n, rest, hv, hrest => tokensFrom?_leaf hv hrest
  | other sound, rest, hv, hrest => tokensFrom?_leaf hv hrest

theorem tokensFrom?_compactItems : ∀ (vs : List Value) (rest : List Char), ItemsPlain vs →
    EndsWord rest → tokensFrom? .between (compactItems vs ++ rest) =
      (tokensFrom? .between rest).map (itemTokens vs ++ ·)
  | [], rest, _, _ => by simp [compactItems, itemTokens]
  | [v], rest, hv, hrest => tokensFrom?_compactChars v rest hv.1 hrest
  | v :: w :: vs, rest, hv, hrest => by
    have hfirst := tokensFrom?_compactChars v (',' :: compactItems (w :: vs) ++ rest) hv.1
      (endsWord_mark (by rfl) _)
    have hothers := tokensFrom?_compactItems (w :: vs) rest hv.2 hrest
    simp only [compactItems, List.cons_append, List.append_assoc] at hfirst ⊢
    rw [hfirst, tokensFrom?_mark (by rfl), hothers]
    simp [itemTokens, Function.comp_def]

theorem tokensFrom?_compactMembers : ∀ (ms : List (String × Value)) (rest : List Char),
    MembersPlain ms → EndsWord rest → tokensFrom? .between (compactMembers ms ++ rest) =
      (tokensFrom? .between rest).map (memberTokens ms ++ ·)
  | [], rest, _, _ => by simp [compactMembers, memberTokens]
  | [(name, v)], rest, hv, hrest => by
    have hvalue := tokensFrom?_compactChars v rest hv.1 hrest
    simp only [compactMembers, List.cons_append, List.append_assoc]
    rw [tokensFrom?_quoteChars, tokensFrom?_mark (by rfl), hvalue]
    simp [memberTokens, Function.comp_def]
  | (name, v) :: m :: ms, rest, hv, hrest => by
    have hvalue := tokensFrom?_compactChars v (',' :: compactMembers (m :: ms) ++ rest) hv.1
      (endsWord_mark (by rfl) _)
    have hothers := tokensFrom?_compactMembers (m :: ms) rest hv.2 hrest
    simp only [compactMembers, List.cons_append, List.append_assoc] at hvalue ⊢
    rw [tokensFrom?_quoteChars, tokensFrom?_mark (by rfl), hvalue, tokensFrom?_mark (by rfl),
      hothers]
    simp [memberTokens, Function.comp_def]

end

/-! ### Putting tokens together -/

variable {stack : List Frame} {ts : List Token}

theorem objectOf_map_some (ms : List (String × Value)) :
    objectOf (ms.map fun (name, v) => (some name, v)) = .object ms := by
  have hnames : (ms.map fun (name, v) => (some name, v)).mapM
      (fun (m : Option String × Value) => m.1.map (·, m.2)) = some ms := by
    induction ms with
    | nil => rfl
    | cons m ms ih =>
      rw [List.map_cons, List.mapM_cons, ih]
      rfl
  rw [objectOf]
  simp only [hnames]

/-- An array that is not empty begins like the value of its first item. -/
theorem valueFrom?_firstItem (v : Value) :
    valueFrom? ⟨.firstItem, stack⟩ (v.tokens ++ ts) =
      valueFrom? ⟨.value, .items [] :: stack⟩ (v.tokens ++ ts) := by
  cases v <;> simp [tokens, valueFrom?, readToken?]

/-- A member waits for its value once its name and the colon are read. -/
theorem valueFrom?_memberName (held : List (Option String × Value)) (name : String) :
    valueFrom? ⟨.name held, stack⟩ (.text (some name) :: .mark ':' :: ts) =
      valueFrom? ⟨.value, .members held (some name) :: stack⟩ ts := by
  simp [valueFrom?, readToken?]

theorem valueFrom?_firstName (m : String × Value) (ms : List (String × Value)) :
    valueFrom? ⟨.firstName, stack⟩ (memberTokens (m :: ms) ++ ts) =
      valueFrom? ⟨.name [], stack⟩ (memberTokens (m :: ms) ++ ts) := by
  cases ms <;> simp [memberTokens, valueFrom?, readToken?]

mutual

/-- The tokens of a value are put together to the value. -/
theorem valueFrom?_tokens : ∀ (v : Value) (stack : List Frame) (ts : List Token),
    valueFrom? ⟨.value, stack⟩ (v.tokens ++ ts) = valueFrom? ⟨.after v, stack⟩ ts
  | array items, stack, ts => by
    have hitems := valueFrom?_itemTokens items [] stack ts
    cases items with
    | nil => simp [tokens, itemTokens, valueFrom?, readToken?, beginValue?]
    | cons v vs =>
      have hfirst : ∃ ts', itemTokens (v :: vs) ++ .mark ']' :: ts = v.tokens ++ ts' := by
        cases vs <;> simp [itemTokens]
      obtain ⟨ts', hfirst⟩ := hfirst
      have hbegin := hitems (List.cons_ne_nil _ _)
      rw [hfirst, ← valueFrom?_firstItem, ← hfirst] at hbegin
      simpa [tokens, valueFrom?, readToken?, beginValue?] using hbegin
  | object members, stack, ts => by
    have hmembers := valueFrom?_memberTokens members [] stack ts
    cases members with
    | nil => simp [tokens, memberTokens, valueFrom?, readToken?, beginValue?]
    | cons m ms =>
      have hbegin := hmembers (List.cons_ne_nil _ _)
      rw [List.map_nil, ← valueFrom?_firstName] at hbegin
      simpa [tokens, valueFrom?, readToken?, beginValue?] using hbegin
  | string s, stack, ts => by simp [tokens, valueFrom?, readToken?, beginValue?]
  | null, stack, ts => by simp [tokens, valueFrom?, readToken?, beginValue?]
  | Value.bool b, stack, ts => by simp [tokens, valueFrom?, readToken?, beginValue?]
  | number n, stack, ts => by simp [tokens, valueFrom?, readToken?, beginValue?]
  | other sound, stack, ts => by simp [tokens, valueFrom?, readToken?, beginValue?]

theorem valueFrom?_itemTokens : ∀ (vs held : List Value) (stack : List Frame) (ts : List Token),
    vs ≠ [] → valueFrom? ⟨.value, .items held :: stack⟩ (itemTokens vs ++ .mark ']' :: ts) =
      valueFrom? ⟨.after (.array (held.reverse ++ vs)), stack⟩ ts
  | [], _, _, _, h => absurd rfl h
  | [v], held, stack, ts, _ => by
    have hv := valueFrom?_tokens v (.items held :: stack) (.mark ']' :: ts)
    rw [itemTokens, hv]
    simp [valueFrom?, readToken?, endValue?]
  | v :: w :: vs, held, stack, ts, _ => by
    have hv := valueFrom?_tokens v (.items held :: stack)
      (.mark ',' :: itemTokens (w :: vs) ++ .mark ']' :: ts)
    have hothers := valueFrom?_itemTokens (w :: vs) (v :: held) stack ts (List.cons_ne_nil _ _)
    have hitems : itemTokens (v :: w :: vs) = v.tokens ++ .mark ',' :: itemTokens (w :: vs) := by
      simp [itemTokens]
    rw [hitems, List.append_assoc, List.cons_append, ← List.cons_append, hv]
    simpa [valueFrom?, readToken?, endValue?] using hothers

theorem valueFrom?_memberTokens : ∀ (ms held : List (String × Value)) (stack : List Frame)
    (ts : List Token), ms ≠ [] →
    valueFrom? ⟨.name (held.map fun (name, v) => (some name, v)), stack⟩
      (memberTokens ms ++ .mark '\x7d' :: ts) =
        valueFrom? ⟨.after (.object (held.reverse ++ ms)), stack⟩ ts
  | [], _, _, _, h => absurd rfl h
  | [(name, v)], held, stack, ts, _ => by
    have hv := valueFrom?_tokens v
      (.members (held.map fun (name, v) => (some name, v)) (some name) :: stack)
      (.mark '\x7d' :: ts)
    have hobject := objectOf_map_some (held.reverse ++ [(name, v)])
    rw [memberTokens, List.cons_append, List.cons_append, valueFrom?_memberName, hv]
    simpa [valueFrom?, readToken?, endValue?] using congrArg
      (fun object => valueFrom? ⟨.after object, stack⟩ ts) hobject
  | (name, v) :: m :: ms, held, stack, ts, _ => by
    have hv := valueFrom?_tokens v
      (.members (held.map fun (name, v) => (some name, v)) (some name) :: stack)
      (.mark ',' :: memberTokens (m :: ms) ++ .mark '\x7d' :: ts)
    have hothers := valueFrom?_memberTokens (m :: ms) ((name, v) :: held) stack ts
      (List.cons_ne_nil _ _)
    have hmembers : memberTokens ((name, v) :: m :: ms) = .text (some name) :: .mark ':' ::
        (v.tokens ++ .mark ',' :: memberTokens (m :: ms)) := by
      simp [memberTokens]
    rw [hmembers, List.cons_append, List.cons_append, valueFrom?_memberName, List.append_assoc, hv]
    simpa [valueFrom?, readToken?, endValue?] using hothers

end

theorem read?_of_tokensFrom? {v : Value} (h : tokensFrom? .between cs = some v.tokens) :
    Value.read? cs = some v := by
  have hvalue := valueFrom?_tokens v [] []
  rw [List.append_nil] at hvalue
  rw [Value.read?, h]
  simp [hvalue, valueFrom?]

/-- A plain value is read back from its text. -/
theorem read?_prettyChars {v : Value} (hv : v.IsPlain) :
    Value.read? (v.prettyChars 0) = some v := by
  have htokens := tokensFrom?_prettyChars 0 v [] hv (by simp [EndsWord])
  rw [List.append_nil] at htokens
  exact read?_of_tokensFrom? (by simpa [tokensFrom?] using htokens)

/-- A plain value is read back from its text without blanks. -/
theorem read?_compactChars {v : Value} (hv : v.IsPlain) :
    Value.read? v.compactChars = some v := by
  have htokens := tokensFrom?_compactChars v [] hv (by simp [EndsWord])
  rw [List.append_nil] at htokens
  exact read?_of_tokensFrom? (by simpa [tokensFrom?] using htokens)

/-! ### Strict reading -/

mutual

theorem isSound_of_isPlain : ∀ v : Value, v.IsPlain → v.isSound = true
  | array items, hv => itemsSound_of_itemsPlain items hv
  | object members, hv => membersSound_of_membersPlain members hv
  | string _, _ => rfl
  | null, _ => rfl
  | Value.bool _, _ => rfl
  | number _, _ => rfl
  | other sound, hv => by
    -- what is written for it is the word of another value
    have hnull : wordToken? (other sound).leaf = some (.leaf null) := rfl
    have htoken := hv.token
    rw [hnull] at htoken
    cases htoken

theorem itemsSound_of_itemsPlain : ∀ vs : List Value, ItemsPlain vs → itemsSound vs = true
  | [], _ => rfl
  | v :: vs, hv => by
    rw [itemsSound, isSound_of_isPlain v hv.1, itemsSound_of_itemsPlain vs hv.2]
    rfl

theorem membersSound_of_membersPlain : ∀ ms : List (String × Value), MembersPlain ms →
    membersSound ms = true
  | [], _ => rfl
  | (_, v) :: ms, hv => by
    rw [membersSound, isSound_of_isPlain v hv.1, membersSound_of_membersPlain ms hv.2]
    rfl

end

theorem Value.depthMembers_le_iff {ms : List (String × Value)} {n : Nat} :
    depthMembers ms ≤ n ↔ ∀ m ∈ ms, m.2.depth ≤ n := by
  induction ms with
  | nil => simp [depthMembers]
  | cons m ms ih => rw [depthMembers, Nat.max_le, ih, List.forall_mem_cons]

/-- A plain value that is not too deep is read back strictly from its text without blanks. -/
theorem readStrict?_compactChars {v : Value} (hv : v.IsPlain) (hdepth : v.depth < depthLimit) :
    Value.readStrict? v.compactChars = some v := by
  rw [readStrict?, read?_compactChars hv]
  simp [isSound_of_isPlain v hv, hdepth]

/-! ### One line -/

def isLineBreak (c : Char) : Bool := c = '\n' || c = '\r'

theorem notMem_quoteChars (hc : isLineBreak c = true) (cs : List Char) : c ∉ quoteChars cs := by
  intro h
  have hle := le_of_mem_quoteChars h
  simp only [isLineBreak, Bool.or_eq_true, decide_eq_true_eq] at hc
  rcases hc with rfl | rfl <;> revert hle <;> decide

theorem notMem_leaf {v : Value} (hc : isLineBreak c = true) (hv : IsWord v) : c ∉ v.leaf := by
  intro h
  have hplain := hv.plain c h
  simp only [isLineBreak, Bool.or_eq_true, decide_eq_true_eq] at hc
  rcases hc with rfl | rfl <;> cases hplain

mutual

theorem notMem_compactChars (hc : isLineBreak c = true) : ∀ v : Value, v.IsPlain →
    c ∉ v.compactChars
  | array items, hv => by
    have hitems := notMem_compactItems hc items hv
    simp only [compactChars, List.cons_append, List.mem_cons, List.mem_append, List.not_mem_nil,
      or_false, not_or]
    refine ⟨?_, hitems, ?_⟩ <;> rintro rfl <;> cases hc
  | object members, hv => by
    have hmembers := notMem_compactMembers hc members hv
    simp only [compactChars, List.cons_append, List.mem_cons, List.mem_append, List.not_mem_nil,
      or_false, not_or]
    refine ⟨?_, hmembers, ?_⟩ <;> rintro rfl <;> cases hc
  | string s, _ => notMem_quoteChars hc s.toList
  | null, hv => notMem_leaf hc hv
  | Value.bool b, hv => notMem_leaf hc hv
  | number n, hv => notMem_leaf hc hv
  | other sound, hv => notMem_leaf hc hv

theorem notMem_compactItems (hc : isLineBreak c = true) : ∀ vs : List Value, ItemsPlain vs →
    c ∉ compactItems vs
  | [], _ => List.not_mem_nil
  | [v], hv => notMem_compactChars hc v hv.1
  | v :: w :: vs, hv => by
    have hfirst := notMem_compactChars hc v hv.1
    have hothers := notMem_compactItems hc (w :: vs) hv.2
    simp only [compactItems, List.mem_append, List.mem_cons, not_or]
    refine ⟨hfirst, ?_, hothers⟩
    rintro rfl
    cases hc

theorem notMem_compactMembers (hc : isLineBreak c = true) : ∀ ms : List (String × Value),
    MembersPlain ms → c ∉ compactMembers ms
  | [], _ => List.not_mem_nil
  | [(name, v)], hv => by
    have hvalue := notMem_compactChars hc v hv.1
    simp only [compactMembers, List.mem_append, List.mem_cons, not_or]
    refine ⟨notMem_quoteChars hc name.toList, ?_, hvalue⟩
    rintro rfl
    cases hc
  | (name, v) :: m :: ms, hv => by
    have hvalue := notMem_compactChars hc v hv.1
    have hothers := notMem_compactMembers hc (m :: ms) hv.2
    simp only [compactMembers, List.mem_append, List.mem_cons, not_or]
    refine ⟨⟨notMem_quoteChars hc name.toList, ?_, hvalue⟩, ?_, hothers⟩ <;> rintro rfl <;> cases hc

end

end Playground.Json
