import Playground.Message
import Playground.Proofs.Json.Numeral
import Playground.Proofs.Named

/-!
# Messages are read back

A map is written as an object with a member for each entry.  The names of its members are all
different, so nothing is lost when the object is read as a map (`Message.readMap?_mapValue`).
A message is an object whose member `type` names its kind and whose other members are read back
field by field, those that were left out by their defaults (`Message.ofKind?_fields`).  It is
written on one line and read back from it (`Message.read?_text`, `Message.notMem_text`).
-/

namespace Playground.Message

open Playground.Json

variable {α : Type} {f : α → Value} {read : Value → Option α}

theorem readMap?_mapValue (hread : ∀ a, read (f a) = some a) (m : Named α) :
    readMap? read (mapValue f m) = some m := by
  have hfold : ∀ (entries : List (String × α)) (start : Named α),
      (entries.map fun entry => (entry.1, f entry.2)).foldlM
        (fun m member => (read member.2).map fun a => m.insert member.1 a) start =
          some (start.insertMany entries) := by
    intro entries
    induction entries with
    | nil => exact fun start => rfl
    | cons entry entries ih =>
      intro start
      rw [List.map_cons, List.foldlM_cons, Std.ExtTreeMap.insertMany_cons, ← ih]
      simp [hread]
  refine (hfold m.toList ∅).trans ?_
  rw [← Std.ExtTreeMap.ofList_eq_insertMany_empty, Named.ofList_toList]

theorem isPlain_mapValue (h : ∀ a, (f a).IsPlain) (m : Named α) : (mapValue f m).IsPlain := by
  refine Value.membersPlain_iff.2 fun member hmem => ?_
  obtain ⟨⟨name, a⟩, -, rfl⟩ := List.mem_map.1 hmem
  exact h a

theorem read?_pretty_mapValue (hplain : ∀ a, (f a).IsPlain) (hread : ∀ a, read (f a) = some a)
    (m : Named α) :
    (Value.read? (mapValue f m).pretty.toList).bind (readMap? read) = some m := by
  rw [Value.pretty, String.toList_ofList, read?_prettyChars (isPlain_mapValue hplain m)]
  exact readMap?_mapValue hread m

/-! ### Fields -/

section fields

variable {members : List (String × Value)} {name : String} {v : Value} {n : Nat}

theorem field?_cons_self (h : ∀ m ∈ members, m.1 ≠ name) :
    field? ((name, v) :: members) name = some (some v) := by
  have hothers : members.filter (fun m => m.1 = name) = [] := by
    simpa [List.filter_eq_nil_iff] using h
  rw [field?, List.filter_cons_of_pos (by simp), hothers]

theorem membersPlain_append {others : List (String × Value)} :
    Value.MembersPlain (members ++ others) ↔
      Value.MembersPlain members ∧ Value.MembersPlain others := by
  simp only [Value.membersPlain_iff, List.mem_append, or_imp, forall_and]

theorem membersPlain_flagField (name : String) (b : Bool) :
    Value.MembersPlain (flagField name b) := by
  cases b
  · trivial
  · exact ⟨isWord_bool true, trivial⟩

theorem membersPlain_optionField {option : Option Value} (h : ∀ v ∈ option, v.IsPlain) :
    Value.MembersPlain (optionField name option) := by
  cases option with
  | none => trivial
  | some v => exact ⟨h v rfl, trivial⟩

theorem depthMembers_append {others : List (String × Value)} :
    Value.depthMembers (members ++ others) ≤ n ↔
      Value.depthMembers members ≤ n ∧ Value.depthMembers others ≤ n := by
  simp only [Value.depthMembers_le_iff, List.mem_append, or_imp, forall_and]

theorem depthMembers_flagField (name : String) (b : Bool) :
    Value.depthMembers (flagField name b) ≤ n := by
  cases b <;> exact Nat.zero_le n

theorem depthMembers_optionField {option : Option Value} (h : ∀ v ∈ option, v.depth ≤ n) :
    Value.depthMembers (optionField name option) ≤ n := by
  cases option with
  | none => exact Nat.zero_le n
  | some v => exact Nat.max_le.2 ⟨h v rfl, Nat.zero_le n⟩

theorem depth_mapValue (h : ∀ a, (f a).depth ≤ n) (m : Named α) :
    (mapValue f m).depth ≤ n + 1 := by
  refine Nat.succ_le_succ (Value.depthMembers_le_iff.2 fun member hmem => ?_)
  obtain ⟨⟨name, a⟩, -, rfl⟩ := List.mem_map.1 hmem
  exact h a

end fields

theorem readWord?_nat (w : UInt32) : readWord? (.nat w.toNat) = some w := by
  have hlt : (w.toNat : Int).toNat < UInt32.size := w.toNat_lt_size
  rw [Value.nat, readWord?, if_pos ⟨Int.natCast_nonneg _, hlt⟩, Int.toNat_natCast,
    UInt32.ofNat_toNat]

theorem isPlain_word (w : UInt32) : (Value.nat w.toNat).IsPlain :=
  isWord_number (Nat.lt_trans w.toNat_lt_size (by decide))

/-! ### Messages -/

theorem readNotice?_noticeFields (n : Notice) :
    readNotice? (.object (noticeFields n)) = some n := by
  obtain ⟨starting, done, text⟩ := n
  cases starting <;> cases done <;> cases text <;>
    simp [noticeFields, flagField, optionField, readNotice?, record?, field?, default?, readBool?,
      readString?, nullable?]

theorem readPosition?_positionFields (p : Source.Position) :
    readPosition? (.object (positionFields p)) = some p := by
  simp [positionFields, readPosition?, record?, field?, required?, readString?, readWord?_nat]

theorem readIndexEntry?_indexFields (e : IndexEntry) :
    readIndexEntry? (.object (indexFields e)) = some e := by
  simp [indexFields, readIndexEntry?, record?, field?, required?, readDigest?, digestValue,
    readString?, readBool?]

theorem readVariant?_name (variant : Variant) :
    readVariant? (.string variant.name) = some variant := by
  cases variant <;> simp [readVariant?, variantOfName?, Variant.name]

theorem readUpdate?_fields (u : Update) : readUpdate? (.object (update u).fields) = some u := by
  have htext : ∀ s, readString? (.string s) = some s := fun _ => rfl
  have hdigest : ∀ d, readDigest? (digestValue d) = some d := fun _ => rfl
  have hsource := readMap?_mapValue (readMap?_mapValue htext) u.source
  have hcache := readMap?_mapValue hdigest u.cache
  simp [fields, readUpdate?, record?, field?, required?, default?, hsource, hcache,
    readVariant?_name]

theorem readError_fields (text : String) (path : Option String)
    (position : Option Source.Position) :
    record? ["message", "path", "position"] (.object (error text path position).fields) =
      some [some (.string text), path.map .string,
        position.map fun p => .object (positionFields p)] := by
  cases path <;> cases position <;> simp [fields, optionField, record?, field?]

/-- The fields of a message and its kind give it back. -/
theorem ofKind?_fields (m : Message) : ofKind? m.kind (.object m.fields) = some m := by
  cases m with
  | update u => rw [kind, ofKind?, if_pos rfl, readUpdate?_fields, Option.map_some]
  | downloading n =>
    rw [kind, ofKind?, if_neg (by decide), if_pos rfl, fields, readNotice?_noticeFields,
      Option.map_some]
  | updating n =>
    rw [kind, ofKind?, if_neg (by decide), if_neg (by decide), if_pos rfl, fields,
      readNotice?_noticeFields, Option.map_some]
  | index packages =>
    have hpackages := readMap?_mapValue readIndexEntry?_indexFields packages
    simp [kind, ofKind?, fields, record?, field?, required?, hpackages]
  | archive path digest contents =>
    simp [kind, ofKind?, fields, record?, field?, required?, readString?, readDigest?, digestValue]
  | error text path position =>
    have hfields := readError_fields text path position
    have hposition := readPosition?_positionFields
    cases path <;> cases position <;>
      simp_all [kind, ofKind?, required?, default?, nullable?, readString?]

theorem fst_of_mem_flagField {name : String} {b : Bool} {field : String × Value}
    (h : field ∈ flagField name b) : field.1 = name := by
  cases b with
  | false => cases h
  | true => rw [List.mem_singleton.1 h]

theorem fst_of_mem_optionField {name : String} {v : Option Value} {field : String × Value}
    (h : field ∈ optionField name v) : field.1 = name := by
  cases v with
  | none => cases h
  | some v => rw [List.mem_singleton.1 h]

theorem fst_ne_of_mem_fields (m : Message) : ∀ field ∈ m.fields, field.1 ≠ "type" := by
  have hnotice : ∀ n : Notice, ∀ field ∈ noticeFields n, field.1 ≠ "type" := by
    intro n field h
    rw [noticeFields, List.mem_append, List.mem_append] at h
    rcases h with (h | h) | h
    · rw [fst_of_mem_flagField h]
      decide
    · rw [fst_of_mem_flagField h]
      decide
    · rw [fst_of_mem_optionField h]
      decide
  cases m with
  | update u => simp [fields]
  | downloading n => exact hnotice n
  | updating n => exact hnotice n
  | index packages => simp [fields]
  | archive path digest contents => simp [fields]
  | error text path position =>
    intro field h
    rw [fields, List.mem_append, List.mem_cons] at h
    rcases h with (rfl | h) | h
    · exact (by decide : "message" ≠ "type")
    · rw [fst_of_mem_optionField h]
      decide
    · rw [fst_of_mem_optionField h]
      decide

theorem kind_mem_kinds (m : Message) : m.kind ∈ kinds := by
  cases m <;> simp [kind, kinds]

theorem tagged_value (m : Message) : tagged m.value = .ok (m.kind, .object m.fields) := by
  have hkind := field?_cons_self (v := .string m.kind) (fst_ne_of_mem_fields m)
  have hothers : (("type", Value.string m.kind) :: m.fields).filter (fun m => m.1 ≠ "type") =
      m.fields := by
    rw [List.filter_cons_of_neg (by simp), List.filter_eq_self]
    simpa using fst_ne_of_mem_fields m
  rw [value, tagged, hkind, hothers]

/-- The value of a message stands for the message. -/
theorem ofValue_value (m : Message) : ofValue m.value = .ok m := by
  rw [ofValue, tagged_value]
  show (if m.kind ∉ kinds then _ else _) = _
  rw [if_neg (not_not_intro (kind_mem_kinds m)), ofKind?_fields]
  rfl

/-! ### Lines -/

theorem isPlain_value (m : Message) : m.value.IsPlain := by
  refine ⟨trivial, ?_⟩
  have hnotice (n : Notice) : Value.MembersPlain (noticeFields n) := by
    refine membersPlain_append.2 ⟨membersPlain_append.2
      ⟨membersPlain_flagField _ _, membersPlain_flagField _ _⟩, membersPlain_optionField ?_⟩
    intro v hv
    obtain ⟨text, -, rfl⟩ := Option.map_eq_some_iff.1 hv
    trivial
  cases m with
  | update u =>
    have hsource := isPlain_mapValue (isPlain_mapValue (f := .string) fun _ => trivial) u.source
    have hcache := isPlain_mapValue (f := digestValue) (fun _ => trivial) u.cache
    exact ⟨hsource, hcache, trivial, trivial⟩
  | downloading n => exact hnotice n
  | updating n => exact hnotice n
  | index packages =>
    refine ⟨isPlain_mapValue (fun e => ?_) packages, trivial⟩
    exact ⟨trivial, trivial, isWord_bool e.unchanged, trivial⟩
  | archive path digest contents => exact ⟨trivial, trivial, trivial, trivial⟩
  | error text path position =>
    refine membersPlain_append.2 ⟨⟨trivial, membersPlain_optionField ?_⟩,
      membersPlain_optionField ?_⟩
    · intro v hv
      obtain ⟨text, -, rfl⟩ := Option.map_eq_some_iff.1 hv
      trivial
    · intro v hv
      obtain ⟨p, -, rfl⟩ := Option.map_eq_some_iff.1 hv
      exact ⟨trivial, isPlain_word p.line, isPlain_word p.column, trivial⟩

theorem depthMembers_fields (m : Message) : Value.depthMembers m.fields ≤ 2 := by
  have hleaf {n : Nat} : ∀ s : String, (Value.string s).depth ≤ n := fun _ => Nat.zero_le n
  have htext {n : Nat} (text : Option String) : ∀ v ∈ text.map Value.string, v.depth ≤ n := by
    intro v hv
    obtain ⟨s, -, rfl⟩ := Option.map_eq_some_iff.1 hv
    exact hleaf s
  have hnotice (n : Notice) : Value.depthMembers (noticeFields n) ≤ 2 :=
    depthMembers_append.2 ⟨depthMembers_append.2 ⟨depthMembers_flagField _ _,
      depthMembers_flagField _ _⟩, depthMembers_optionField (htext _)⟩
  cases m with
  | update u =>
    have hsource := depth_mapValue (depth_mapValue (n := 0) hleaf) u.source
    have hcache := depth_mapValue (f := digestValue) (n := 1) (fun d => hleaf d.text) u.cache
    exact Nat.max_le.2 ⟨hsource, Nat.max_le.2 ⟨hcache, Nat.max_le.2 ⟨Nat.zero_le 2, Nat.zero_le 2⟩⟩⟩
  | downloading n => exact hnotice n
  | updating n => exact hnotice n
  | index packages =>
    have hpackages := depth_mapValue (f := fun e => .object (indexFields e)) (n := 1)
      (fun e => Nat.le_refl 1) packages
    exact Nat.max_le.2 ⟨hpackages, Nat.zero_le 2⟩
  | archive path digest contents => exact (by decide : 0 ≤ 2)
  | error text path position =>
    refine depthMembers_append.2 ⟨Nat.max_le.2 ⟨Nat.zero_le 2, depthMembers_optionField (htext _)⟩,
      depthMembers_optionField ?_⟩
    intro v hv
    obtain ⟨p, -, rfl⟩ := Option.map_eq_some_iff.1 hv
    exact (by decide : 1 ≤ 2)

/-- A message is read back from its line. -/
theorem read?_text (m : Message) : read? m.text = some m := by
  have hdepth : m.value.depth < Value.depthLimit := by
    refine Nat.lt_of_le_of_lt (Nat.succ_le_succ (m := 2) ?_) (by decide)
    exact Nat.max_le.2 ⟨Nat.zero_le 2, depthMembers_fields m⟩
  rw [read?, read, text, Value.compact, String.toList_ofList,
    readStrict?_compactChars (isPlain_value m) hdepth]
  exact congrArg Except.toOption (ofValue_value m)

theorem notMem_text (m : Message) {c : Char} (hc : isLineBreak c = true) :
    c ∉ m.text.toList := by
  rw [text, Value.compact, String.toList_ofList]
  exact notMem_compactChars hc m.value (isPlain_value m)

end Playground.Message
