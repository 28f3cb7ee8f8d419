import Playground.Json.Quoted
import Playground.Json.Read

/-!
# Quoted texts end where they end

The character that begins a quoted text can be read off together with what follows
(`unquoteChar?_quoteChar`), so what stands for a character never begins what stands for another
one, and never with a quote.  Hence a quoted text can be told from whatever comes after it
(`quoteChars_append_inj`).  There is no line feed in it.
-/

namespace Playground.Json

variable {c : Char} {cs ds x y : List Char}

/-! ### Single characters -/

/-- The first character of what stands between quotes, and what follows; none at the end. -/
def unquoteChar? : List Char → Option (Char × List Char)
  | '"' :: _ => none
  | '\\' :: 'u' :: '0' :: '0' :: high :: low :: rest => do
    return (Char.ofNat (16 * (← hexValue? high) + (← hexValue? low)), rest)
  | '\\' :: letter :: rest => (unescape? letter).map (·, rest)
  | c :: rest => some (c, rest)
  | [] => none

theorem hexValue?_hexDigit : ∀ n < 16, hexValue? (hexDigit n) = some n := by decide

theorem unquoteChar?_quoteChar (c : Char) (rest : List Char) :
    unquoteChar? (quoteChar c ++ rest) = some (c, rest) := by
  unfold quoteChar
  split
  · rename_i letter hletter
    unfold escapeLetter? at hletter
    split at hletter <;> cases hletter <;> rfl
  · rename_i hletter
    split
    · rename_i hc
      have hlt : c.toNat < 32 := hc
      have hhigh := hexValue?_hexDigit (c.toNat / 16) (by omega)
      have hlow := hexValue?_hexDigit (c.toNat % 16) (by omega)
      show (do return (Char.ofNat (16 * (← hexValue? (hexDigit (c.toNat / 16))) +
        (← hexValue? (hexDigit (c.toNat % 16)))), rest)) = some (c, rest)
      rw [hhigh, hlow]
      show some (Char.ofNat (16 * (c.toNat / 16) + c.toNat % 16), rest) = _
      rw [Nat.div_add_mod, Char.ofNat_toNat]
    · rw [List.singleton_append]
      unfold unquoteChar?
      split
      · rename_i he
        cases he
        cases hletter
      · rename_i he
        cases he
        cases hletter
      · rename_i he
        cases he
        cases hletter
      · rename_i he
        cases he
        rfl
      · rename_i he
        cases he

theorem le_of_mem_quoteChar {d : Char} (h : d ∈ quoteChar c) : ' ' ≤ d := by
  unfold quoteChar at h
  split at h
  · rename_i letter hletter
    have hle : ' ' ≤ letter := by
      unfold escapeLetter? at hletter
      split at hletter <;> cases hletter <;> decide
    simp only [List.mem_cons, List.not_mem_nil, or_false] at h
    rcases h with rfl | rfl
    · decide
    · exact hle
  · rename_i hletter
    have hdigit : ∀ n < 16, ' ' ≤ hexDigit n := by decide
    split at h
    · rename_i hc
      have hlt : c.toNat < 32 := hc
      have hhigh := hdigit (c.toNat / 16) (by omega)
      have hlow := hdigit (c.toNat % 16) (by omega)
      simp only [List.mem_cons, List.not_mem_nil, or_false] at h
      rcases h with rfl | rfl | rfl | rfl | rfl | rfl
      · decide
      · decide
      · decide
      · decide
      · exact hhigh
      · exact hlow
    · rename_i hc
      rw [List.mem_singleton.1 h]
      exact Char.not_lt.1 hc

/-! ### Whole texts -/

theorem le_of_mem_quoteChars (h : c ∈ quoteChars cs) : ' ' ≤ c := by
  unfold quoteChars at h
  rw [List.cons_append, List.mem_cons, List.mem_append, List.mem_flatMap, List.mem_singleton] at h
  rcases h with rfl | ⟨d, -, hd⟩ | rfl
  · decide
  · exact le_of_mem_quoteChar hd
  · decide

theorem newline_notMem_quoteChars : '\n' ∉ quoteChars cs := fun h =>
  absurd (le_of_mem_quoteChars h) (by decide)

/-- Where the closing quote of a text stands is settled by what comes before it. -/
theorem flatMap_quoteChar_append_inj
    (h : cs.flatMap quoteChar ++ '"' :: x = ds.flatMap quoteChar ++ '"' :: y) :
    cs = ds ∧ x = y := by
  induction cs generalizing ds with
  | nil =>
    cases ds with
    | nil => exact ⟨rfl, List.tail_eq_of_cons_eq h⟩
    | cons d ds =>
      rw [List.flatMap_cons, List.append_assoc] at h
      have hread := congrArg unquoteChar? h
      rw [unquoteChar?_quoteChar] at hread
      cases hread
  | cons c cs ih =>
    rw [List.flatMap_cons, List.append_assoc] at h
    cases ds with
    | nil =>
      have hread := congrArg unquoteChar? h
      rw [unquoteChar?_quoteChar] at hread
      cases hread
    | cons d ds =>
      rw [List.flatMap_cons, List.append_assoc] at h
      have hread := congrArg unquoteChar? h
      rw [unquoteChar?_quoteChar, unquoteChar?_quoteChar, Option.some_inj, Prod.mk.injEq] at hread
      obtain ⟨rfl, hrest⟩ := hread
      obtain ⟨rfl, hxy⟩ := ih hrest
      exact ⟨rfl, hxy⟩

theorem quoteChars_append_inj (h : quoteChars cs ++ x = quoteChars ds ++ y) : cs = ds ∧ x = y := by
  have hassoc (es z : List Char) :
      quoteChars es ++ z = '"' :: (es.flatMap quoteChar ++ '"' :: z) := by
    rw [quoteChars, List.cons_append, List.cons_append, List.append_assoc, List.singleton_append]
  rw [hassoc, hassoc] at h
  exact flatMap_quoteChar_append_inj (List.tail_eq_of_cons_eq h)

end Playground.Json
