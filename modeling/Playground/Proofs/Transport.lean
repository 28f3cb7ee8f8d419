import Playground.Transport
import Playground.Proofs.Message
import Playground.Proofs.Text.Lines

/-!
# Messages over lines

No octet of a character other than the line feed is that of the line feed, so the octets of a text
are cut into lines where the text is (`Inbound.pieces_utf8`), and each of the lines is a text
again.  A message is written on one line that starts with a brace, which neither loses a carriage
return nor counts as blank.  Messages that one side writes are the messages that the other reads,
whether the text is cut before it is sent or its octets are cut on arrival
(`Session.read_outboundText`).
-/

namespace Playground

open Playground.Bytes Playground.Json

namespace Inbound

variable {c : Char} {cs : List Char} {xs ys : List UInt8} {ls : List (List Char)}

/-! ### Octets of a text -/

/-- The octets of a text, character by character. -/
def utf8 (cs : List Char) : List UInt8 := cs.flatMap String.utf8EncodeChar

theorem utf8_cons : utf8 (c :: cs) = String.utf8EncodeChar c ++ utf8 cs := List.flatMap_cons

theorem ofOctets_utf8 (cs : List Char) : ofOctets (utf8 cs) = (String.ofList cs).toByteArray := by
  rw [String.toByteArray_ofList, ← ofOctets_octets cs.utf8Encode, octets, List.utf8Encode,
    List.data_toByteArray, List.toList_toArray]
  rfl

theorem octets_toByteArray (s : String) : octets s.toByteArray = utf8 s.toList := by
  rw [← octets_ofOctets (utf8 s.toList), ofOctets_utf8, String.ofList_toList]

theorem newline_notMem_utf8EncodeChar (h : c ≠ '\n') : 10 ∉ String.utf8EncodeChar c := by
  have hne : c.val.toNat ≠ 10 := fun hval => h (Char.ext (UInt32.toNat_inj.1 hval))
  have hoctet {n : Nat} (heq : (10 : UInt8) = UInt8.ofNat n) : n % 256 = 10 := by
    have hnat := congrArg UInt8.toNat heq
    rw [UInt8.toNat_ofNat'] at hnat
    exact hnat.symm
  intro hmem
  simp only [String.utf8EncodeChar] at hmem
  split at hmem
  · have := hoctet (List.mem_singleton.1 hmem)
    omega
  · -- The octets of a character of several octets all have their highest bit set.
    obtain ⟨n, heq, hhigh⟩ : ∃ n, (10 : UInt8) = UInt8.ofNat n ∧ 128 ≤ n % 256 := by
      split at hmem
      · simp only [List.mem_cons, List.not_mem_nil, or_false] at hmem
        rcases hmem with h | h <;> exact ⟨_, h, by omega⟩
      · split at hmem
        · simp only [List.mem_cons, List.not_mem_nil, or_false] at hmem
          rcases hmem with h | h | h <;> exact ⟨_, h, by omega⟩
        · simp only [List.mem_cons, List.not_mem_nil, or_false] at hmem
          rcases hmem with h | h | h | h <;> exact ⟨_, h, by omega⟩
    have := hoctet heq
    omega

/-! ### Lines -/

/-- Octets without a line feed belong to the piece that follows them. -/
theorem pieces_append {piece : List UInt8} {rest : List (List UInt8)} (h : 10 ∉ xs)
    (hys : pieces ys = piece :: rest) : pieces (xs ++ ys) = (xs ++ piece) :: rest := by
  induction xs with
  | nil => exact hys
  | cons x xs ih =>
    rw [List.mem_cons, not_or] at h
    rw [List.cons_append, pieces, if_neg (Ne.symm h.1), ih h.2]
    rfl

theorem pieces_utf8 (cs : List Char) : pieces (utf8 cs) = (Text.splitOn '\n' cs).map utf8 := by
  induction cs with
  | nil => rfl
  | cons c cs ih =>
    by_cases hc : c = '\n'
    · rw [hc, utf8_cons, Text.splitOn, if_pos rfl, List.map_cons, ← ih]
      rfl
    · obtain ⟨piece, rest, hsplit⟩ := List.exists_cons_of_ne_nil (Text.splitOn_ne_nil '\n' cs)
      rw [hsplit] at ih
      rw [utf8_cons, Text.splitOn, if_neg hc, hsplit,
        pieces_append (newline_notMem_utf8EncodeChar hc) ih]
      exact congrArg (· :: rest.map utf8) utf8_cons.symm

theorem texts_utf8 (ls : List (List Char)) :
    texts (ls.map utf8) = (ls.map String.ofList, false) := by
  induction ls with
  | nil => rfl
  | cons line ls ih =>
    rw [List.map_cons, texts, ofOctets_utf8, Utf8.decode_toByteArray]
    simp only [ih, List.map_cons]

/-- Lines that are all ended come whole, whether or not something comes after them. -/
theorem lines_unlines {s : String} {ends : Bool} (hs : s.toList = Text.unlines ls)
    (h : ∀ line ∈ ls, '\n' ∉ line) : lines ⟨s.toByteArray, ends⟩ = ls.map utf8 := by
  have hpieces : pieces (octets s.toByteArray) = ls.map utf8 ++ [[]] := by
    rw [octets_toByteArray, hs, pieces_utf8, Text.splitOn_unlines h, List.map_append]
    rfl
  simp [lines, hpieces]

theorem trim_ne_nil (hmem : c ∈ cs) (h : Text.isBlank c = false) : Text.trim cs ≠ [] := by
  -- What is not blank is dropped from neither end.
  have hkept {ds : List Char} (hds : c ∈ ds) : c ∈ ds.dropWhile Text.isBlank := by
    rw [← List.takeWhile_append_dropWhile (p := Text.isBlank) (l := ds), List.mem_append] at hds
    refine hds.resolve_left fun htake => ?_
    rw [List.mem_takeWhile_imp htake] at h
    cases h
  exact List.ne_nil_of_mem (List.mem_reverse.2 (hkept (List.mem_reverse.2 (hkept hmem))))

/-- A line on which something stands and that ends with no carriage return is kept as it is. -/
theorem messageLines_of_forall {texts : List String}
    (h : ∀ line ∈ texts, '\r' ∉ line.toList ∧ ∃ c ∈ line.toList, Text.isBlank c = false) :
    messageLines texts = texts := by
  have hreturn : texts.map withoutReturn = texts := by
    refine (List.map_congr_left fun line hline => ?_).trans (List.map_id texts)
    rw [withoutReturn, Text.dropReturn_of_notMem (h line hline).1, String.ofList_toList, id]
  rw [messageLines, hreturn, List.filter_eq_self]
  intro line hline
  obtain ⟨c, hmem, hblank⟩ := (h line hline).2
  exact decide_eq_true (trim_ne_nil hmem hblank)

end Inbound

namespace Session

/-! ### Messages -/

theorem toList_outboundText (messages : List Message) :
    (outboundText messages).toList = Text.unlines (messages.map fun m => m.text.toList) := by
  rw [outboundText, Text.toList_intercalate_empty, List.flatMap_map, Text.unlines_map]
  simp only [String.toList_append]
  rfl

theorem mapM_read?_text (messages : List Message) :
    (messages.map Message.text).mapM Message.read? = some messages := by
  induction messages with
  | nil => rfl
  | cons m messages ih => simp [Message.read?_text, ih]

theorem exists_mem_text (m : Message) : ∃ c ∈ m.text.toList, Text.isBlank c = false := by
  refine ⟨'\x7b', ?_, rfl⟩
  rw [Message.text, Value.compact, String.toList_ofList, Message.value, Value.compactChars]
  exact List.mem_cons_self

/-- Messages are each written on one line, and the lines are read back as the messages.  So are
the octets of the lines, whether or not they are the last to come. -/
theorem read_outboundText (messages : List Message) (ends : Bool) :
    (∀ m ∈ messages, '\n' ∉ m.text.toList ∧ '\r' ∉ m.text.toList) ∧
      ((Text.lines (outboundText messages).toList).map String.ofList).mapM Message.read? =
        some messages ∧
      let texts := Inbound.texts (Inbound.lines ⟨(outboundText messages).toByteArray, ends⟩)
      texts.2 = false ∧ (Inbound.messageLines texts.1).mapM Message.read? = some messages := by
  have htext : ∀ m ∈ messages, '\n' ∉ m.text.toList ∧ '\r' ∉ m.text.toList := fun m _ =>
    ⟨m.notMem_text (by decide), m.notMem_text (by decide)⟩
  have hlines : ∀ line ∈ messages.map fun m => m.text.toList, '\n' ∉ line := by
    intro line hline
    obtain ⟨m, hm, rfl⟩ := List.mem_map.1 hline
    exact (htext m hm).1
  have hreturns : ∀ line ∈ messages.map fun m => m.text.toList, '\r' ∉ line := by
    intro line hline
    obtain ⟨m, hm, rfl⟩ := List.mem_map.1 hline
    exact (htext m hm).2
  have hofList : (messages.map fun m => m.text.toList).map String.ofList =
      messages.map Message.text := by
    rw [List.map_map]
    exact List.map_congr_left fun m _ => String.ofList_toList
  refine ⟨htext, ?_, ?_⟩
  · rw [toList_outboundText, Text.lines_unlines hlines hreturns, hofList, mapM_read?_text]
  · have htexts := Inbound.texts_utf8 (messages.map fun m => m.text.toList)
    rw [Inbound.lines_unlines (toList_outboundText messages) hlines, htexts, hofList]
    refine ⟨rfl, ?_⟩
    rw [Inbound.messageLines_of_forall, mapM_read?_text]
    intro line hline
    obtain ⟨m, hm, rfl⟩ := List.mem_map.1 hline
    exact ⟨(htext m hm).2, exists_mem_text m⟩

end Session

end Playground
