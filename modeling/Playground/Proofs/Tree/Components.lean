import Mathlib.Data.List.Infix
import Playground.Tree.Path

/-!
# Components of written paths

The components of a written path are the texts between its separators; the empty text writes the
root and has none.  A written path reads back as it stands exactly when all its components are
names (`Path.canonical?_eq_self_iff`), and so do all texts that reading gives back.  Joining two
paths puts the components of the second behind those of the first, whether they are brought into
this form before or afterwards (`Path.canonical?_join`).
-/

namespace Playground

/-! ### Pieces of a text -/

namespace Text

variable {sep c : Char} {piece : List Char} {pieces pieces' : List (List Char)}

theorem glue_cons (h : pieces ≠ []) :
    glue sep (piece :: pieces) = piece ++ sep :: glue sep pieces := by
  obtain ⟨next, pieces, rfl⟩ := List.exists_cons_of_ne_nil h
  rfl

theorem glue_append (h : pieces ≠ []) (h' : pieces' ≠ []) :
    glue sep (pieces ++ pieces') = glue sep pieces ++ sep :: glue sep pieces' := by
  induction pieces with
  | nil => exact absurd rfl h
  | cons piece pieces ih =>
    cases pieces with
    | nil => exact glue_cons h'
    | cons next pieces =>
      rw [List.cons_append, glue_cons (by simp), ih (List.cons_ne_nil _ _),
        glue_cons (List.cons_ne_nil _ _), List.append_assoc, List.cons_append]

theorem glue_splitOn (sep : Char) (cs : List Char) : glue sep (splitOn sep cs) = cs := by
  induction cs with
  | nil => rfl
  | cons c cs ih =>
    have hne := splitOn_ne_nil sep cs
    rw [splitOn]
    split
    · rename_i hc
      rw [glue_cons hne, ih, hc, List.nil_append]
    · obtain ⟨piece, pieces, hpieces⟩ := List.exists_cons_of_ne_nil hne
      rw [hpieces] at ih ⊢
      cases pieces with
      | nil => exact congrArg (c :: ·) ih
      | cons next pieces =>
        rw [glue_cons (List.cons_ne_nil _ _)] at ih ⊢
        exact congrArg (c :: ·) ih

theorem mem_glue_iff (hc : c ≠ sep) : c ∈ glue sep pieces ↔ ∃ piece ∈ pieces, c ∈ piece := by
  induction pieces with
  | nil => simp [glue]
  | cons piece pieces ih =>
    by_cases hpieces : pieces = []
    · simp [hpieces, glue]
    · rw [glue_cons hpieces, List.mem_append, List.mem_cons, or_iff_right hc, ih]
      simp

end Text

namespace Path

variable {p q : Path} {s name : String}

/-! ### Names -/

theorem isName_iff : IsName name ↔
    (name ≠ "" ∧ name ≠ "." ∧ name ≠ "..") ∧ '\\' ∉ name.toList ∧ '/' ∉ name.toList := by
  have hempty : name.toList = [] ↔ name = "" := @String.toList_inj name ""
  have hdot : name.toList = ['.'] ↔ name = "." := @String.toList_inj name "."
  have hup : name.toList = ['.', '.'] ↔ name = ".." := @String.toList_inj name ".."
  simp only [IsName, isSkipped, isForbidden, Bool.or_eq_false_iff, decide_eq_false_iff_not,
    List.contains_eq_mem, hempty, hdot, hup, and_assoc, ne_eq]

theorem IsName.toList_ne_nil (h : IsName name) : name.toList ≠ [] := by
  intro he
  have hskip := h.1
  rw [he] at hskip
  cases hskip

theorem text_singleton (name : String) : text [name] = name := by
  simp [text, Text.glue]

theorem read?_name (hname : IsName name) : read? name = some [name] := by
  have := read?_text (p := [name]) (by simpa [IsCanonical] using hname)
  rwa [text_singleton] at this

/-! ### Texts of places -/

theorem toList_text_append (hp : p ≠ []) (hq : q ≠ []) :
    (text (p ++ q)).toList = (text p).toList ++ '/' :: (text q).toList := by
  rw [text, text, text, String.toList_ofList, String.toList_ofList, String.toList_ofList,
    List.map_append, Text.glue_append (by simpa using hp) (by simpa using hq)]

theorem text_cons (hq : q ≠ []) : text (name :: q) = name ++ "/" ++ text q := by
  rw [← String.toList_inj, ← List.singleton_append, toList_text_append (List.cons_ne_nil _ _) hq,
    text_singleton]
  simp

/-- What follows a written place continues its last name. -/
theorem text_concat_append (dir : Path) (name suffix : String) :
    text (dir ++ [name]) ++ suffix = text (dir ++ [name ++ suffix]) := by
  induction dir with
  | nil => rw [List.nil_append, List.nil_append, text_singleton, text_singleton]
  | cons first dir ih =>
    rw [List.cons_append, List.cons_append, text_cons (by simp), text_cons (by simp), ← ih,
      String.append_assoc]

theorem exists_text_concat (dir : Path) (name : String) :
    ∃ before, (text (dir ++ [name])).toList = before ++ name.toList := by
  by_cases hdir : dir = []
  · exact ⟨[], by rw [hdir, List.nil_append, text_singleton, List.nil_append]⟩
  · refine ⟨(text dir).toList ++ ['/'], ?_⟩
    rw [toList_text_append hdir (List.cons_ne_nil _ _), text_singleton, List.append_assoc,
      List.singleton_append]

theorem text_eq_empty_iff (h : p.IsCanonical) : p.text = "" ↔ p = [] := by
  constructor
  · exact text_inj (q := []) h nofun
  · rintro rfl
    rfl

theorem backslash_notMem_text : '\\' ∉ p.text.toList ↔ ∀ name ∈ p, '\\' ∉ name.toList := by
  rw [text, String.toList_ofList, Text.mem_glue_iff (by decide)]
  simp

/-! ### Components -/

/-- The components of a written path. -/
def components (s : String) : Path :=
  if s = "" then [] else (Text.splitOn '/' s.toList).map String.ofList

theorem text_components (s : String) : text (components s) = s := by
  unfold components
  split
  · rename_i h
    rw [h]
    rfl
  · rw [text, List.map_map]
    simp [Function.comp_def, Text.glue_splitOn]

theorem components_text (h : p.IsCanonical) : components p.text = p := by
  unfold components
  split
  · rename_i he
    exact ((text_eq_empty_iff h).1 he).symm
  · rename_i hne
    have hp : p ≠ [] := fun he => hne ((text_eq_empty_iff h).2 he)
    rw [text, String.toList_ofList, Text.splitOn_glue (by simpa using hp), List.map_map]
    · simp [Function.comp_def]
    · intro piece hpiece
      obtain ⟨name, hname, rfl⟩ := List.mem_map.1 hpiece
      exact (h name hname).2.2

/-! ### Texts that reading gives back -/

theorem canonical?_eq_some_iff : canonical? s = some name ↔ ∃ p, read? s = some p ∧ p.text = name :=
  Option.map_eq_some_iff

theorem canonical?_text (h : p.IsCanonical) : canonical? p.text = some p.text := by
  rw [canonical?, read?_text h]
  rfl

theorem isCanonical_components (h : canonical? s = some name) : (components name).IsCanonical := by
  obtain ⟨p, hp, rfl⟩ := canonical?_eq_some_iff.1 h
  have hp := isCanonical_of_read? hp
  rwa [components_text hp]

/-- A path reads back as it stands exactly when its components are names. -/
theorem canonical?_eq_self_iff : canonical? s = some s ↔ (components s).IsCanonical := by
  refine ⟨isCanonical_components, fun h => ?_⟩
  have hself := canonical?_text h
  rwa [text_components] at hself

/-! ### Joining -/

theorem dropSlashesRight_append {cs name : List Char} (hne : name ≠ []) (hname : '/' ∉ name) :
    dropSlashesRight (cs ++ name) = cs ++ name := by
  obtain ⟨init, c, rfl⟩ := (List.eq_nil_or_concat' name).resolve_left hne
  have hc : c ≠ '/' := fun he => hname (by simp [he])
  rw [dropSlashesRight, ← List.append_assoc, List.reverse_append, List.reverse_singleton,
    List.singleton_append, List.dropWhile_cons_of_neg (by simpa using hc), List.reverse_cons,
    List.reverse_reverse]

theorem dropSlashesRight_text (h : p.IsCanonical) :
    dropSlashesRight p.text.toList = p.text.toList := by
  rcases List.eq_nil_or_concat' p with rfl | ⟨dir, last, rfl⟩
  · rfl
  · have hlast := h last (by simp)
    obtain ⟨before, hbefore⟩ := exists_text_concat dir last
    rw [hbefore, dropSlashesRight_append hlast.toList_ne_nil hlast.2.2]

theorem dropWhile_text (h : p.IsCanonical) :
    p.text.toList.dropWhile (· = '/') = p.text.toList := by
  cases p with
  | nil => rfl
  | cons name rest =>
    have hname := h name List.mem_cons_self
    obtain ⟨c, cs, hcs⟩ := List.exists_cons_of_ne_nil hname.toList_ne_nil
    have hc : c ≠ '/' := fun he => hname.2.2 (by simp [hcs, he])
    obtain ⟨after, hafter⟩ : ∃ after, (text (name :: rest)).toList = c :: after := by
      by_cases hrest : rest = []
      · exact ⟨cs, by rw [hrest, text_singleton, hcs]⟩
      · have happend := toList_text_append (List.cons_ne_nil name []) hrest
        rw [text_singleton, hcs, List.cons_append] at happend
        exact ⟨_, happend⟩
    rw [hafter, List.dropWhile_cons_of_neg (by simpa using hc)]

/-- Written forms of places, joined, are the written form of the second place below the first. -/
theorem join_text_text (hp : p.IsCanonical) (hq : q.IsCanonical) :
    join p.text q.text = text (p ++ q) := by
  by_cases hp' : p = []
  · rw [hp', List.nil_append]
    rfl
  · by_cases hq' : q = []
    · rw [hq', List.append_nil, join, if_neg (mt (text_eq_empty_iff hp).1 hp')]
      rfl
    · rw [join, if_neg (mt (text_eq_empty_iff hp).1 hp'), if_neg (mt (text_eq_empty_iff hq).1 hq'),
        dropSlashesRight_text hp, dropWhile_text hq, ← toList_text_append hp' hq',
        String.ofList_toList]

theorem join_text (hp : p.IsCanonical) (hname : IsName name) :
    join p.text name = text (p ++ [name]) := by
  have hjoin := join_text_text hp (q := [name]) (by simpa [IsCanonical] using hname)
  rwa [text_singleton] at hjoin

theorem canonical?_join (a b : String) :
    canonical? (join a b) = (canonical? a).bind fun a => (canonical? b).map (join a ·) := by
  rw [canonical?, canonical?, canonical?, read?_join]
  cases hp : read? a with
  | none => rfl
  | some p =>
    cases hq : read? b with
    | none => rfl
    | some q =>
      have hjoin := join_text_text (isCanonical_of_read? hp) (isCanonical_of_read? hq)
      simp [hjoin]

end Path

end Playground
