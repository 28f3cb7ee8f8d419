import Mathlib.Algebra.Group.Nat.Defs
import Playground.Bytes.Gzip

/-!
# What is compressed can be read back

Stored blocks are read back octet by octet (`Deflate.blocks_storedBlocks`), so a frame of them
gives back its content (`Gzip.decompress?_store`).
-/

namespace Playground.Bytes

namespace Deflate

variable {bs rest : List Bool} {out : ByteArray} {xs more : List UInt8}

/-! ### Bits -/

theorem take_add (m n : Nat) :
    take (m + n) bs = (take m bs).bind fun (low, rest) =>
      (take n rest).map fun (high, rest) => (low + 2 ^ m * high, rest) := by
  induction m generalizing bs with
  | zero =>
    rw [Nat.zero_add]
    show take n bs = (take n bs).map fun (high, rest) => (0 + 2 ^ 0 * high, rest)
    cases take n bs with
    | none => rfl
    | some r =>
      obtain ⟨high, rest⟩ := r
      show some (high, rest) = some (0 + 2 ^ 0 * high, rest)
      rw [Nat.zero_add, Nat.pow_zero, Nat.one_mul]
  | succ m ih =>
    rw [Nat.add_right_comm]
    cases bs with
    | nil => rfl
    | cons b bs =>
      rw [take, take, ih]
      cases take m bs with
      | none => rfl
      | some low =>
        obtain ⟨low, rest⟩ := low
        rw [Option.bind_some, Option.map_some, Option.bind_some]
        dsimp only
        cases take n rest with
        | none => rfl
        | some high =>
          obtain ⟨high, rest⟩ := high
          rw [Option.map_some, Option.map_some, Option.map_some, Nat.pow_succ]
          congr 2
          rw [Nat.mul_add, Nat.add_assoc, Nat.mul_comm (2 ^ m) 2, Nat.mul_assoc]

theorem take_octetBits (x : UInt8) : take 8 (octetBits x ++ rest) = some (x.toNat, rest) := by
  have hbits : ∀ n < 256, (n.testBit 0).toNat + 2 * ((n.testBit 1).toNat +
      2 * ((n.testBit 2).toNat + 2 * ((n.testBit 3).toNat + 2 * ((n.testBit 4).toNat +
        2 * ((n.testBit 5).toNat + 2 * ((n.testBit 6).toNat +
          2 * ((n.testBit 7).toNat + 2 * 0))))))) = n := by decide +kernel
  exact congrArg (fun n => some (n, rest)) (hbits x.toNat x.toNat_lt)

theorem bits_cons (x : UInt8) : bits (x :: xs) = octetBits x ++ bits xs := List.flatMap_cons

theorem bits_append : bits (xs ++ more) = bits xs ++ bits more := List.flatMap_append

theorem length_bits (xs : List UInt8) : (bits xs).length = 8 * xs.length := by
  induction xs with
  | nil => rfl
  | cons x xs ih =>
    have hoctet : (octetBits x).length = 8 := rfl
    rw [bits_cons, List.length_append, ih, hoctet, List.length_cons]
    omega

theorem take_littleEndian {n : Nat} (h : n < 65536) :
    take 16 (bits (littleEndian 2 n) ++ rest) = some (n, rest) := by
  have hbits : bits (littleEndian 2 n) ++ rest =
      octetBits (UInt8.ofNat n) ++ (octetBits (UInt8.ofNat (n / 256)) ++ rest) := by
    rw [littleEndian, littleEndian, littleEndian, bits_cons, bits_cons, List.append_assoc,
      List.append_assoc]
    rfl
  rw [hbits, take_add 8 8, take_octetBits, Option.bind_some]
  dsimp only
  rw [take_octetBits, Option.map_some, UInt8.toNat_ofNat', UInt8.toNat_ofNat']
  congr 2
  omega

/-! ### Stored blocks -/

theorem copy_bits (xs : List UInt8) (out : ByteArray) :
    stored.copy xs.length out (bits xs ++ rest) = .ok (xs.foldl ByteArray.push out, rest) := by
  induction xs generalizing out with
  | nil => rfl
  | cons x xs ih =>
    rw [List.length_cons, stored.copy, bits_cons, List.append_assoc, take_octetBits]
    dsimp only
    rw [UInt8.ofNat_toNat, ih, List.foldl_cons]

theorem stored_eq {bs' : List Bool} {length check : Nat}
    (hlength : take 16 (bs.drop (bs.length % 8)) = some (length, bs'))
    (hcheck : take 16 bs' = some (check, rest)) (h : length + check = storedLimit) :
    stored out bs = stored.copy length out rest := by
  unfold stored
  rw [hlength]
  dsimp only [Option.bind_eq_bind, Option.bind_some]
  rw [hcheck]
  dsimp only [Option.bind_some]
  rw [if_pos h]

theorem stored_bits (h : xs.length ≤ storedLimit) :
    stored out (List.replicate 5 false ++ (bits (littleEndian 2 xs.length) ++
      (bits (littleEndian 2 (storedLimit - xs.length)) ++ (bits xs ++ bits more)))) =
        .ok (xs.foldl ByteArray.push out, bits more) := by
  have hlimit : storedLimit = 65535 := rfl
  have hpad : (List.replicate 5 false ++ (bits (littleEndian 2 xs.length) ++
      (bits (littleEndian 2 (storedLimit - xs.length)) ++ (bits xs ++ bits more)))).length % 8 =
        5 := by
    simp only [List.length_append, List.length_replicate, length_bits]
    omega
  rw [← copy_bits xs out]
  apply stored_eq
  · rw [hpad, List.drop_left' List.length_replicate]
    exact take_littleEndian (by omega)
  · exact take_littleEndian (by omega)
  · omega

theorem blocks_stored {out' : ByteArray} (steps : Nat) (last : Bool)
    (h : stored out bs = .ok (out', rest)) :
    blocks (steps + 1) out (last :: false :: false :: bs) =
      if last then .ok (out', rest) else blocks steps out' rest := by
  have hlast : take 1 (last :: false :: false :: bs) = some (last.toNat, false :: false :: bs) :=
    rfl
  have hkind : take 2 (false :: false :: bs) = some (0, bs) := rfl
  rw [blocks]
  rw [hlast]
  dsimp only [Option.bind_eq_bind, Option.bind_some]
  rw [hkind]
  dsimp only [Option.bind_some, Option.pure_def]
  rw [if_pos rfl, h]
  cases last <;> rfl

theorem blocks_storedBlock (steps : Nat) (last : Bool) (h : xs.length ≤ storedLimit) :
    blocks (steps + 1) out (bits (storedBlock last xs ++ more)) =
      if last then .ok (xs.foldl ByteArray.push out, bits more)
      else blocks steps (xs.foldl ByteArray.push out) (bits more) := by
  have hflag : octetBits (if last then 1 else 0) =
      last :: false :: false :: List.replicate 5 false := by
    cases last <;> decide
  rw [storedBlock, bits_append, List.cons_append, List.cons_append, bits_cons, hflag,
    bits_append, bits_append]
  simp only [List.append_assoc, List.cons_append]
  exact blocks_stored steps last (stored_bits h)

theorem blocks_storedBlocks (count : Nat) (h : xs.length < (count + 1) * storedLimit) {steps : Nat}
    (hsteps : count < steps) :
    blocks steps out (bits (storedBlocks count xs ++ more)) =
      .ok (xs.foldl ByteArray.push out, bits more) := by
  induction count generalizing xs out steps with
  | zero =>
    obtain ⟨steps, rfl⟩ := Nat.exists_eq_succ_of_ne_zero (Nat.ne_of_gt hsteps)
    rw [storedBlocks, blocks_storedBlock steps true (by omega)]
    rfl
  | succ count ih =>
    obtain ⟨steps, rfl⟩ := Nat.exists_eq_succ_of_ne_zero (Nat.ne_of_gt (Nat.zero_lt_of_lt hsteps))
    rw [storedBlocks]
    split
    · rw [blocks_storedBlock steps true ‹_›]
      rfl
    · have hdrop : (xs.drop storedLimit).length < (count + 1) * storedLimit := by
        rw [List.length_drop]
        rw [Nat.succ_mul] at h
        omega
      rw [List.append_assoc, blocks_storedBlock steps false (List.length_take_le _ _)]
      show blocks steps _ _ = _
      rw [ih hdrop (by omega), ← List.foldl_append, List.take_append_drop]

theorem octets_foldl_push (xs : List UInt8) (out : ByteArray) :
    octets (xs.foldl ByteArray.push out) = octets out ++ xs := by
  induction xs generalizing out with
  | nil => rw [List.foldl_nil, List.append_nil]
  | cons x xs ih =>
    have hpush : octets (out.push x) = octets out ++ [x] := Array.toList_push
    rw [List.foldl_cons, ih, hpush, List.append_assoc]
    rfl

theorem length_le_storedBlocks (count : Nat) (xs : List UInt8) :
    xs.length ≤ (storedBlocks count xs).length := by
  have hblock : ∀ (last : Bool) (ys : List UInt8), ys.length ≤ (storedBlock last ys).length := by
    intro last ys
    rw [storedBlock, List.length_append]
    omega
  induction count generalizing xs with
  | zero => exact hblock true xs
  | succ count ih =>
    rw [storedBlocks]
    split
    · exact hblock true xs
    · have htake := hblock false (xs.take storedLimit)
      have hdrop := ih (xs.drop storedLimit)
      rw [List.length_take] at htake
      rw [List.length_drop] at hdrop
      rw [List.length_append]
      omega

/-- A stored byte string is read back, up to the octets that follow it. -/
theorem inflate_store (b : ByteArray) (more : List UInt8) :
    inflate (octets (store b) ++ more) = .ok (b, more) := by
  have hsize : (octets b).length = b.size := Array.length_toList
  have hcount : (octets b).length < (b.size / storedLimit + 1) * storedLimit := by
    rw [hsize, Nat.mul_comm]
    exact Nat.lt_mul_div_succ b.size (by decide)
  have hstore : octets (store b) = storedBlocks (b.size / storedLimit) (octets b) :=
    octets_ofOctets _
  have hsteps : b.size / storedLimit < 8 * (octets (store b) ++ more).length + 1 := by
    have hlength := length_le_storedBlocks (b.size / storedLimit) (octets b)
    have hdiv := Nat.div_le_self b.size storedLimit
    rw [hstore, List.length_append]
    omega
  have hout : (octets b).foldl ByteArray.push ByteArray.empty = b :=
    octets_inj.1 (octets_foldl_push (octets b) ByteArray.empty)
  have hblocks : blocks (8 * (octets (store b) ++ more).length + 1) .empty
      (bits (octets (store b) ++ more)) = .ok (b, bits more) := by
    rw [hstore] at hsteps ⊢
    rw [blocks_storedBlocks _ hcount hsteps, hout]
  unfold inflate
  rw [hblocks]
  dsimp only
  rw [length_bits, Nat.mul_div_cancel_left _ (by decide), List.length_append, Nat.add_sub_cancel,
    List.drop_left]

end Deflate

namespace Gzip

theorem skipHeader?_header (rest : List UInt8) : skipHeader? (header ++ rest) = some rest := rfl

theorem length_trailer (b : ByteArray) : (trailer b).length = 8 := by
  rw [trailer, List.length_append, length_littleEndian, length_littleEndian]

theorem decompress?_store (b : ByteArray) : decompress? (store b) = some b := by
  have hunpack : unpack (store b) = (b, true) := by
    unfold unpack
    rw [store, octets_ofOctets, List.append_assoc, skipHeader?_header]
    dsimp only
    rw [Deflate.inflate_store]
    dsimp only
    rw [List.take_of_length_le (Nat.le_of_eq (length_trailer b)), decide_eq_true rfl]
  unfold decompress?
  rw [hunpack]

end Gzip

end Playground.Bytes
