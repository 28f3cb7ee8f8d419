import Playground.Bytes.Base64

/-!
# Base64 is read back

What `encode` writes, `decode?` reads (`decode?_encode`).  Both functions take three octets, or the
four digits for them, at a time, and so does the induction; a last group of one or two octets is
padded, and the digit before the padding carries zero bits.
-/

namespace Playground.Bytes.Base64

variable {a b c d : Nat} {read : List UInt8}

theorem value?_digit (h : a < 64) : value? (digit a) = some a := by
  have hall : ∀ n < 64, value? (digit n) = some n := by decide
  exact hall a h

theorem digit_ne_pad (h : a < 64) : digit a ≠ '=' := by
  have hall : ∀ n < 64, digit n ≠ '=' := by decide
  exact hall a h

/-! ### Groups of digits -/

theorem undigitsOnto?_one (ha : a < 64) (hb : b < 64) (hzero : (a * 64 + b) % 16 = 0) :
    undigitsOnto? read [digit a, digit b, '=', '='] =
      some (UInt8.ofNat ((a * 64 + b) / 16) :: read).reverse := by
  simp [undigitsOnto?, value?_digit, ha, hb, hzero]

theorem undigitsOnto?_two (ha : a < 64) (hb : b < 64) (hc : c < 64)
    (hzero : ((a * 64 + b) * 64 + c) % 4 = 0) :
    undigitsOnto? read [digit a, digit b, digit c, '='] =
      some (UInt8.ofNat (((a * 64 + b) * 64 + c) / 4) ::
        UInt8.ofNat (((a * 64 + b) * 64 + c) / 1024) :: read).reverse := by
  rw [undigitsOnto?]
  · simp [value?_digit, ha, hb, hc, hzero]
  · exact digit_ne_pad hc

theorem undigitsOnto?_three {rest : List Char} (ha : a < 64) (hb : b < 64) (hc : c < 64)
    (hd : d < 64) :
    undigitsOnto? read (digit a :: digit b :: digit c :: digit d :: rest) =
      undigitsOnto? (UInt8.ofNat (((a * 64 + b) * 64 + c) * 64 + d) ::
        UInt8.ofNat ((((a * 64 + b) * 64 + c) * 64 + d) / 256) ::
        UInt8.ofNat ((((a * 64 + b) * 64 + c) * 64 + d) / 65536) :: read) rest := by
  rw [undigitsOnto?]
  · simp [value?_digit, ha, hb, hc, hd]
  · exact fun h => absurd h (digit_ne_pad hc)
  · exact fun h => absurd h (digit_ne_pad hd)

/-! ### Octets -/

theorem ofNat_eq {x : UInt8} {n : Nat} (h : n % 256 = x.toNat) : UInt8.ofNat n = x := by
  apply UInt8.toNat_inj.1
  rw [UInt8.toNat_ofNat', h]

/-- The digits of octets stand behind those written before, and are read back. -/
theorem exists_digitsOnto (done : List Char) (xs : List UInt8) :
    ∃ cs, digitsOnto done xs = done.reverse ++ cs ∧
      ∀ read, undigitsOnto? read cs = some (read.reverse ++ xs) := by
  fun_induction digitsOnto done xs with
  | case1 done => exact ⟨[], by simp, fun read => by simp [undigitsOnto?]⟩
  | case2 done x n =>
    have hx := x.toNat_lt
    refine ⟨[digit (n / 64), digit (n % 64), '=', '='], by simp, fun read => ?_⟩
    have hn : n / 64 * 64 + n % 64 = n := by omega
    rw [undigitsOnto?_one (by omega) (by omega) (by omega), hn, ofNat_eq (x := x) (by omega)]
    simp
  | case3 done x y n =>
    have hx := x.toNat_lt
    have hy := y.toNat_lt
    refine ⟨[digit (n / 4096), digit (n / 64 % 64), digit (n % 64), '='], by simp, fun read => ?_⟩
    have hn : (n / 4096 * 64 + n / 64 % 64) * 64 + n % 64 = n := by omega
    rw [undigitsOnto?_two (by omega) (by omega) (by omega) (by omega), hn,
      ofNat_eq (x := y) (by omega), ofNat_eq (x := x) (by omega)]
    simp
  | case4 done x y z rest n ih =>
    have hx := x.toNat_lt
    have hy := y.toNat_lt
    have hz := z.toNat_lt
    obtain ⟨cs, hcs, hread⟩ := ih
    refine ⟨[digit (n / 262144), digit (n / 4096 % 64), digit (n / 64 % 64), digit (n % 64)] ++ cs,
      by simpa using hcs, fun read => ?_⟩
    have hn : ((n / 262144 * 64 + n / 4096 % 64) * 64 + n / 64 % 64) * 64 + n % 64 = n := by omega
    simp only [List.cons_append, List.nil_append]
    rw [undigitsOnto?_three (by omega) (by omega) (by omega) (by omega), hn,
      ofNat_eq (x := z) (by omega), ofNat_eq (x := y) (by omega), ofNat_eq (x := x) (by omega),
      hread]
    simp

theorem decode?_encode (b : ByteArray) : decode? (encode b) = some b := by
  obtain ⟨cs, hcs, hread⟩ := exists_digitsOnto [] (octets b)
  have hdigits : digitsOnto [] (octets b) = cs := hcs
  rw [decode?, encode, String.toList_ofList, hdigits, hread]
  simp

end Playground.Bytes.Base64
