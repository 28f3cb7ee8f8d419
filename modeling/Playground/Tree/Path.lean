import Playground.Text.Lines

/-!
# Paths inside a tree

A path is the list of names from the root of a tree down.  Written, the names are separated by
`/`; empty names and `.` are dropped in reading, and a name that could lead out of the tree makes
the text no path.  `join` works on written paths and leaves what it joins as it is written.
-/

namespace Playground

/-- A place in a tree: the names from its root down. -/
abbrev Path := List String

namespace Path

open Playground.Text

def text (p : Path) : String := String.ofList (glue '/' (p.map String.toList))

/-- Whether a name between separators has no meaning for the place. -/
def isSkipped (name : List Char) : Bool := name = [] || name = ['.']

/-- Whether a name could lead out of a tree. -/
def isForbidden (name : List Char) : Bool := name = ['.', '.'] || name.contains '\\'

/-- The names in a text. -/
def names (cs : List Char) : List (List Char) :=
  (splitOn '/' cs).filter fun name => !isSkipped name

/-- The place that names lead to; none when they could lead out of a tree. -/
def ofNames? (names : List (List Char)) : Option Path :=
  if names.any isForbidden then none else some (names.map String.ofList)

/-- The place that a text names; none when the text could lead out of a tree. -/
def read? (s : String) : Option Path := ofNames? (names s.toList)

/-- The written form that reading gives back. -/
def canonical? (s : String) : Option String := (read? s).map text

/-- The text without the separators it ends with. -/
def dropSlashesRight (cs : List Char) : List Char := (cs.reverse.dropWhile (· = '/')).reverse

/-- One written path below another.  An empty side leaves the other as it is; otherwise exactly
one separator stands between the two. -/
def join (base rest : String) : String :=
  if base = "" then rest
  else if rest = "" then base
  else
    String.ofList
      (dropSlashesRight base.toList ++ '/' :: rest.toList.dropWhile (· = '/'))

/-- Names that can stand in a path: not skipped, not forbidden, without a separator. -/
def IsName (name : String) : Prop :=
  isSkipped name.toList = false ∧ isForbidden name.toList = false ∧ '/' ∉ name.toList

instance (name : String) : Decidable (IsName name) := inferInstanceAs (Decidable (_ ∧ _ ∧ _))

/-- Whether a path is made of names. -/
def IsCanonical (p : Path) : Prop := ∀ name ∈ p, IsName name

instance (p : Path) : Decidable p.IsCanonical := inferInstanceAs (Decidable (∀ name ∈ p, _))

/-- The places on the way to `p`, the root left out and `p` included. -/
def onTheWay : Path → List Path
  | [] => []
  | name :: p => [name] :: (onTheWay p).map (name :: ·)

/-- Whether `p` lies strictly above `q`. -/
def isAbove (p q : Path) : Bool := p.isPrefixOf q && p.length < q.length

/-- The directory that holds `p`; none for the root and what lies directly in it. -/
def parent? (p : Path) : Option Path := if p.length ≤ 1 then none else some p.dropLast

/-- The name of `p` in the directory `dir`, when `p` lies directly in it. -/
def nameIn? (dir p : Path) : Option String := if p.dropLast = dir then p.getLast? else none

/-! ### Reading what was written -/

theorem notMem_splitOn {sep : Char} {cs piece : List Char} (h : piece ∈ splitOn sep cs) :
    sep ∉ piece := by
  induction cs generalizing piece with
  | nil => simp_all [splitOn]
  | cons c cs ih =>
    unfold splitOn at h
    split at h
    · rcases List.mem_cons.1 h with rfl | h
      · simp
      · exact ih h
    · rename_i hc
      split at h
      · rename_i h0
        exact absurd h0 (splitOn_ne_nil sep cs)
      · rename_i first others h0
        rw [h0] at ih
        rcases List.mem_cons.1 h with rfl | h
        · have := ih (List.mem_cons_self)
          simp only [List.mem_cons, not_or]
          exact ⟨fun e => hc e.symm, this⟩
        · exact ih (List.mem_cons_of_mem _ h)

theorem isCanonical_of_read? {s : String} {p : Path} (h : read? s = some p) : p.IsCanonical := by
  simp only [read?, ofNames?] at h
  split at h
  · cases h
  · rename_i hn
    cases h
    intro name hname
    obtain ⟨cs, hcs, rfl⟩ := List.mem_map.1 hname
    obtain ⟨hmem, hskip⟩ := List.mem_filter.1 hcs
    refine ⟨by simpa using hskip, ?_, by simpa using notMem_splitOn hmem⟩
    simp only [Bool.not_eq_true, List.any_eq_false] at hn
    simpa using hn cs hcs

theorem read?_text {p : Path} (h : p.IsCanonical) : read? p.text = some p := by
  have hsplit : names p.text.toList = p.map String.toList := by
    unfold names
    cases p with
    | nil => simp [text, glue, splitOn, isSkipped]
    | cons name p =>
      rw [text, String.toList_ofList, splitOn_glue (by simp), List.filter_eq_self.2]
      · intro piece hp
        obtain ⟨n, hn, rfl⟩ := List.mem_map.1 hp
        simp [(h n hn).1]
      · intro piece hp
        obtain ⟨n, hn, rfl⟩ := List.mem_map.1 hp
        exact (h n hn).2.2
  simp only [read?, ofNames?, hsplit]
  rw [if_neg]
  · simp [Function.comp_def]
  · simp only [Bool.not_eq_true, List.any_eq_false]
    intro piece hp
    obtain ⟨n, hn, rfl⟩ := List.mem_map.1 hp
    simp [(h n hn).2.1]

theorem text_inj {p q : Path} (hp : p.IsCanonical) (hq : q.IsCanonical) (h : p.text = q.text) :
    p = q := by
  have := read?_text hp
  rw [h, read?_text hq] at this
  exact (Option.some.inj this).symm

/-! ### Joining -/

theorem splitOn_append {sep : Char} (a b : List Char) :
    splitOn sep (a ++ sep :: b) = splitOn sep a ++ splitOn sep b := by
  induction a with
  | nil => simp [splitOn]
  | cons c a ih =>
    by_cases hc : c = sep
    · simp [splitOn, hc, ih]
    · have hne := splitOn_ne_nil sep a
      simp only [List.cons_append, splitOn, if_neg hc, ih]
      cases h : splitOn sep a with
      | nil => exact absurd h hne
      | cons piece pieces => simp

theorem names_append (a b : List Char) : names (a ++ '/' :: b) = names a ++ names b := by
  simp [names, splitOn_append]

theorem names_nil : names [] = [] := by simp [names, splitOn, isSkipped]

theorem names_dropWhile (cs : List Char) : names (cs.dropWhile (· = '/')) = names cs := by
  induction cs with
  | nil => rfl
  | cons c cs ih =>
    by_cases hc : c = '/'
    · subst hc
      have := names_append [] cs
      simp only [List.nil_append, names_nil] at this
      simp [ih, this]
    · simp [hc]

theorem names_append_replicate (cs : List Char) (k : Nat) :
    names (cs ++ List.replicate k '/') = names cs := by
  induction k with
  | zero => simp
  | succ k ih =>
    rw [List.replicate_succ', ← List.append_assoc]
    have := names_append (cs ++ List.replicate k '/') []
    rw [this, ih, names_nil, List.append_nil]

theorem names_dropSlashesRight (cs : List Char) : names (dropSlashesRight cs) = names cs := by
  have htake : ∀ xs : List Char,
      xs.takeWhile (· = '/') = List.replicate (xs.takeWhile (· = '/')).length '/' := by
    intro xs
    refine List.eq_replicate_iff.2 ⟨rfl, fun x hx => ?_⟩
    have := List.all_takeWhile (p := fun x : Char => decide (x = '/')) (l := xs)
    simpa using List.all_eq_true.1 this x hx
  have hsplit : cs = dropSlashesRight cs ++
      List.replicate (cs.reverse.takeWhile (· = '/')).length '/' := by
    have := congrArg List.reverse
      (List.takeWhile_append_dropWhile (p := (· = '/')) (l := cs.reverse))
    rw [List.reverse_append, List.reverse_reverse, htake cs.reverse, List.reverse_replicate] at this
    simpa [dropSlashesRight] using this.symm
  have := congrArg names hsplit
  rw [names_append_replicate] at this
  exact this.symm

theorem names_join (base rest : String) :
    names (join base rest).toList = names base.toList ++ names rest.toList := by
  unfold join
  split
  · rename_i h
    simp [h, names_nil]
  · split
    · rename_i h
      simp [h, names_nil]
    · rw [String.toList_ofList, names_append, names_dropSlashesRight, names_dropWhile]

theorem ofNames?_append (a b : List (List Char)) :
    ofNames? (a ++ b) = (ofNames? a).bind fun p => (ofNames? b).map (p ++ ·) := by
  unfold ofNames?
  by_cases ha : a.any isForbidden
  · simp [ha]
  · by_cases hb : b.any isForbidden
    · simp [hb]
    · simp [ha, hb]

/-- A joined path leads to the second place below the first. -/
theorem read?_join (base rest : String) :
    read? (join base rest) = (read? base).bind fun p => (read? rest).map (p ++ ·) := by
  simp only [read?, names_join, ofNames?_append]

end Path

end Playground
