import Mathlib.Data.List.TakeWhile
import Playground.Proofs.Json.RoundTrip

/-!
# Whole numbers are read back

A natural number is written by its decimal digits, without a zero in front, and these digits spell
it (`NumberText.read?_toDigits`, `NumberText.value_toDigits`).  So a number below `2^64` is one word
of a text and is read back from it (`isWord_number`).
-/

namespace Playground.Json

variable {n : Nat} {cs : List Char}

namespace NumberText

theorem digits_of_isDigit (h : ∀ c ∈ cs, c.isDigit = true) :
    digits cs = (cs.map digitValue, []) := by
  rw [digits, List.takeWhile_eq_self_iff.2 h, List.dropWhile_eq_nil_iff.2 h]

theorem value_toDigits (n : Nat) : value ((Nat.toDigits 10 n).map digitValue) = n := by
  calc value ((Nat.toDigits 10 n).map digitValue)
      = Nat.ofDigitChars 10 (Nat.toDigits 10 n) 0 := by
        rw [value, List.foldl_map, Nat.ofDigitChars_eq_foldl]
        rfl
    _ = n := Nat.ofDigitChars_ten_toDigits

theorem exists_toDigits_eq_cons (h : 0 < n) :
    ∃ c cs, Nat.toDigits 10 n = c :: cs ∧ digitValue c ≠ 0 := by
  induction n using Nat.strongRecOn with
  | _ n ih =>
    rw [Nat.toDigits_eq_if (by decide)]
    split
    · rename_i hlt
      have hdigit : ∀ d < 10, 0 < d → digitValue d.digitChar ≠ 0 := by decide
      exact ⟨_, [], rfl, hdigit n hlt h⟩
    · rename_i hge
      obtain ⟨c, cs, hcs, hc⟩ := ih (n / 10) (by omega) (by omega)
      exact ⟨c, cs ++ [(n % 10).digitChar], by rw [hcs]; rfl, hc⟩

theorem read?_toDigits (n : Nat) :
    read? (Nat.toDigits 10 n) = some ⟨false, (Nat.toDigits 10 n).map digitValue, none, none⟩ := by
  have hdigits : ∀ c ∈ Nat.toDigits 10 n, c.isDigit = true :=
    fun c hc => Nat.isDigit_of_mem_toDigits (by decide) (by decide) hc
  obtain ⟨c, cs, hcs, hhead⟩ : ∃ c cs, Nat.toDigits 10 n = c :: cs ∧
      (cs = [] ∨ digitValue c ≠ 0) := by
    rcases Nat.eq_zero_or_pos n with rfl | hpos
    · exact ⟨'0', [], rfl, .inl rfl⟩
    · obtain ⟨c, cs, hcs, hc⟩ := exists_toDigits_eq_cons hpos
      exact ⟨c, cs, hcs, .inr hc⟩
  rw [hcs] at hdigits ⊢
  have hsign : c ≠ '-' := by
    rintro rfl
    exact absurd (hdigits '-' List.mem_cons_self) (by decide)
  have hunsigned : read? (c :: cs) = readUnsigned? false (c :: cs) := by
    unfold read?
    split
    · rename_i he
      exact absurd (List.cons.inj he).1 hsign
    · rfl
  rw [hunsigned, readUnsigned?, digits_of_isDigit hdigits, List.map_cons]
  -- a zero in front is refused only when digits follow
  split
  · rename_i he
    cases he
  · rename_i he
    obtain ⟨hzero, hmore⟩ := List.cons.inj (Prod.mk.inj he).1
    rcases hhead with rfl | hne
    · cases hmore
    · exact absurd hzero hne
  · rename_i he
    cases he
    rfl

end NumberText

open NumberText

theorem isWord_number (h : n < significandLimit) : IsWord (.number n) := by
  have hleaf : (Value.number n).leaf = Nat.toDigits 10 n := Nat.toList_repr
  have hdigit : ∀ c ∈ Nat.toDigits 10 n, c.isDigit = true :=
    fun c hc => Nat.isDigit_of_mem_toDigits (by decide) (by decide) hc
  have hliteral : ∀ literal : String, literal.toList.all Char.isDigit = false →
      Nat.toDigits 10 n ≠ literal.toList := by
    intro literal hliteral he
    rw [← he, List.all_eq_true.2 hdigit] at hliteral
    cases hliteral
  constructor
  · have hwhole :
        whole? ⟨false, (Nat.toDigits 10 n).map digitValue, none, none⟩ = some (n : Int) := by
      rw [whole?, value_toDigits]
      simp [h]
    rw [hleaf, wordToken?, if_neg (hliteral "null" rfl), if_neg (hliteral "true" rfl),
      if_neg (hliteral "false" rfl), read?_toDigits, Option.map_some, toValue, hwhole]
  · rw [hleaf]
    exact Nat.toDigits_ne_nil
  · rw [hleaf]
    intro c hc
    have hc := hdigit c hc
    cases hdelimiter : isDelimiter c with
    | false => rfl
    | true =>
      simp only [isDelimiter, isBetween, isMark, Bool.or_eq_true, decide_eq_true_eq] at hdelimiter
      rcases hdelimiter with
        (((((rfl | rfl) | rfl) | rfl) | (((((rfl | rfl) | rfl) | rfl) | rfl) | rfl)) | rfl) <;>
        cases hc

theorem isWord_bool (b : Bool) : IsWord (.bool b) := by
  have hplain : (Value.bool b).leaf.all (fun c => !isDelimiter c) = true := by
    cases b <;> rfl
  refine ⟨?_, ?_, fun c hc => ?_⟩
  · cases b <;> rfl
  · cases b <;> nofun
  · rw [← Bool.not_eq_true', List.all_eq_true.1 hplain c hc]

end Playground.Json
