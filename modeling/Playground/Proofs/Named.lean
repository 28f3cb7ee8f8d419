import Playground.Digest
import Playground.Proofs.Results

/-!
# Maps from names

What the proofs use of maps from names to values, with names compared by equality.
-/

namespace Playground.Named

variable {α β : Type} {m m' : Named α} {name name' : String} {a : α}

theorem mem_iff : name ∈ m ↔ ∃ a, m[name]? = some a := by
  rw [← Std.ExtTreeMap.isSome_getElem?_iff_mem, Option.isSome_iff_exists]

theorem mem_of_getElem? (h : m[name]? = some a) : name ∈ m := mem_iff.2 ⟨a, h⟩

theorem mem_insert : name ∈ m.insert name' a ↔ name = name' ∨ name ∈ m := by
  rw [Std.ExtTreeMap.mem_insert, Std.LawfulEqOrd.compare_eq_iff_eq, eq_comm]

theorem getElem?_insert :
    (m.insert name' a)[name]? = if name = name' then some a else m[name]? := by
  rw [Std.ExtTreeMap.getElem?_insert]
  by_cases h : name = name'
  · rw [if_pos (Std.LawfulEqOrd.compare_eq_iff_eq.2 h.symm), if_pos h]
  · rw [if_neg fun he => h (Std.LawfulEqOrd.compare_eq_iff_eq.1 he).symm, if_neg h]

theorem nodup_keys : m.keys.Nodup :=
  m.distinct_keys.imp fun hne he => hne (Std.LawfulEqOrd.compare_eq_iff_eq.2 he)

theorem ext (h : ∀ (name : String) (a : α), m[name]? = some a ↔ m'[name]? = some a) : m = m' :=
  Std.ExtTreeMap.ext_getElem? fun {name} => Option.ext (h name)

theorem values_eq (m : Named α) : m.values = m.toList.map Prod.snd := by
  have hfold : m.values = m.foldr (fun _ a as => a :: as) [] := by
    obtain ⟨⟨t⟩⟩ := m
    induction t using Quotient.ind
    rfl
  rw [hfold, Std.ExtTreeMap.foldr_eq_foldr_toList]
  induction m.toList with
  | nil => rfl
  | cons entry entries ih => rw [List.foldr_cons, ih, List.map_cons]

theorem mem_map_toList {g : α → β} {b : β} :
    (name, b) ∈ m.toList.map (fun (name, a) => (name, g a)) ↔
      ∃ a, m[name]? = some a ∧ g a = b := by
  rw [List.mem_map]
  constructor
  · rintro ⟨⟨name', a⟩, hmem, he⟩
    cases he
    exact ⟨a, Std.ExtTreeMap.mem_toList_iff_getElem?_eq_some.1 hmem, rfl⟩
  · rintro ⟨a, ha, rfl⟩
    exact ⟨(name, a), Std.ExtTreeMap.mem_toList_iff_getElem?_eq_some.2 ha, rfl⟩

theorem mem_map_fst_toList {g : α → β} :
    name ∈ (m.toList.map fun (name, a) => (name, g a)).map Prod.fst ↔ name ∈ m := by
  rw [List.mem_map, mem_iff]
  constructor
  · rintro ⟨⟨name', b⟩, hmem, rfl⟩
    obtain ⟨a, ha, -⟩ := mem_map_toList.1 hmem
    exact ⟨a, ha⟩
  · rintro ⟨a, ha⟩
    exact ⟨(name, g a), mem_map_toList.2 ⟨a, ha, rfl⟩, rfl⟩

/-! ### Maps that are made of their entries -/

theorem nodup_map_fst_toList (m : Named α) : (m.toList.map Prod.fst).Nodup := by
  rw [Std.ExtTreeMap.map_fst_toList_eq_keys]
  exact nodup_keys

theorem ofList_toList (m : Named α) : Std.ExtTreeMap.ofList m.toList compare = m := by
  have hpairs : m.toList.Pairwise fun a b => ¬ compare a.1 b.1 = .eq :=
    (List.pairwise_map.1 (nodup_map_fst_toList m)).imp fun hne he =>
      hne (Std.LawfulEqOrd.compare_eq_iff_eq.1 he)
  refine Std.ExtTreeMap.ext_getElem? fun {name} => ?_
  cases h : m[name]? with
  | none =>
    have hnot : name ∉ m.toList.map Prod.fst := by
      rw [Std.ExtTreeMap.map_fst_toList_eq_keys, Std.ExtTreeMap.mem_keys, mem_iff]
      simp [h]
    refine Std.ExtTreeMap.getElem?_ofList_of_contains_eq_false ?_
    simpa using hnot
  | some a =>
    exact Std.ExtTreeMap.getElem?_ofList_of_mem Std.ReflCmp.compare_self hpairs
      (Std.ExtTreeMap.mem_toList_iff_getElem?_eq_some.2 h)

section foldlM

variable {ε : Type} {g : String → α → Except ε β} {entries : List (String × α)}
  {start made : Named β}

/-- Making a map from entries with different names succeeds with what is made of each of them. -/
theorem of_foldlM_insert (hnodup : (entries.map Prod.fst).Nodup)
    (h : entries.foldlM (fun (m : Named β) (name, a) => do return m.insert name (← g name a))
      start = .ok made) :
    (∀ name a, (name, a) ∈ entries → ∃ b, g name a = .ok b ∧ made[name]? = some b) ∧
      ∀ name ∉ entries.map Prod.fst, made[name]? = start[name]? := by
  induction entries generalizing start with
  | nil =>
    cases h
    exact ⟨fun _ _ hmem => absurd hmem List.not_mem_nil, fun _ _ => rfl⟩
  | cons entry entries ih =>
    obtain ⟨name, a⟩ := entry
    rw [List.foldlM_cons] at h
    obtain ⟨next, hnext, hrest⟩ := Results.bind_eq_ok.1 h
    obtain ⟨b, hb, hnext⟩ := Results.bind_eq_ok.1 hnext
    cases hnext
    rw [List.map_cons, List.nodup_cons] at hnodup
    obtain ⟨hmade, hother⟩ := ih hnodup.2 hrest
    constructor
    · intro name' a' hmem
      rcases List.mem_cons.1 hmem with he | hmem
      · cases he
        refine ⟨b, hb, ?_⟩
        rw [hother name hnodup.1, getElem?_insert, if_pos rfl]
      · exact hmade name' a' hmem
    · intro name' hnot
      rw [List.map_cons, List.mem_cons, not_or] at hnot
      rw [hother name' hnot.2, getElem?_insert, if_neg hnot.1]

theorem exists_foldlM_insert (h : ∀ name a, (name, a) ∈ entries → ∃ b, g name a = .ok b) :
    ∃ made, entries.foldlM
      (fun (m : Named β) (name, a) => do return m.insert name (← g name a)) start = .ok made := by
  induction entries generalizing start with
  | nil => exact ⟨start, rfl⟩
  | cons entry entries ih =>
    obtain ⟨name, a⟩ := entry
    obtain ⟨b, hb⟩ := h name a List.mem_cons_self
    obtain ⟨made, hmade⟩ := ih fun name a hmem => h name a (List.mem_cons_of_mem _ hmem)
    refine ⟨made, ?_⟩
    rw [List.foldlM_cons]
    exact Results.bind_eq_ok.2 ⟨_, Results.bind_eq_ok.2 ⟨b, hb, rfl⟩, hmade⟩

end foldlM

end Playground.Named
