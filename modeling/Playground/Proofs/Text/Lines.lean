import Mathlib.Data.List.DropRight
import Playground.Tree.Path

/-!
# Texts made of lines

A text that is made of lines without line feeds gives the lines back (`splitOn_unlines`).  When such
lines follow some text, what comes after the last of them that has a given content is settled by
the whole (`eq_of_unlines_after`), whatever the text before it is.
-/

namespace Playground.Text

variable {sep : Char} {cs ds line mark rest : List Char} {ls ls' : List (List Char)}

/-- Lines, each with a line feed. -/
def unlines (ls : List (List Char)) : List Char := ls.flatMap (· ++ ['\n'])

theorem toList_intercalate_empty (parts : List String) :
    ("".intercalate parts).toList = parts.flatMap String.toList := by
  have hempty : "".toList = [] := rfl
  rw [String.toList_intercalate, hempty]
  induction parts with
  | nil => rfl
  | cons part parts ih =>
    cases parts with
    | nil =>
      rw [List.flatMap_cons, List.flatMap_nil, List.append_nil]
      exact List.intercalate_singleton
    | cons next parts =>
      rw [List.map_cons, List.map_cons, List.intercalate_cons_cons, List.append_nil,
        ← List.map_cons, ih]
      rfl

theorem unlines_cons : unlines (line :: ls) = line ++ '\n' :: unlines ls := by
  rw [unlines, List.flatMap_cons, List.append_assoc]
  rfl

theorem unlines_append : unlines (ls ++ ls') = unlines ls ++ unlines ls' := List.flatMap_append

theorem unlines_map {α : Type} (g : α → List Char) (xs : List α) :
    unlines (xs.map g) = xs.flatMap fun x => g x ++ ['\n'] := by
  rw [unlines, List.flatMap_map]

/-- Lines that continue a text, each after a line feed. -/
def continued (ls : List (List Char)) : List Char := ls.flatMap ('\n' :: ·)

theorem continued_cons : continued (line :: ls) = '\n' :: (line ++ continued ls) := by
  rw [continued, List.flatMap_cons, List.cons_append]
  rfl

theorem continued_append : continued (ls ++ ls') = continued ls ++ continued ls' :=
  List.flatMap_append

theorem cons_glue (h : ls ≠ []) : '\n' :: glue '\n' ls = continued ls := by
  induction ls with
  | nil => exact absurd rfl h
  | cons line ls ih =>
    cases ls with
    | nil => simp [glue, continued]
    | cons next ls =>
      have hglue : glue '\n' (line :: next :: ls) = line ++ '\n' :: glue '\n' (next :: ls) := rfl
      rw [hglue, continued_cons, ih (List.cons_ne_nil _ _)]

theorem continued_splitOn (cs : List Char) : continued (splitOn '\n' cs) = '\n' :: cs := by
  induction cs with
  | nil => rfl
  | cons c cs ih =>
    rw [splitOn]
    cases hpieces : splitOn '\n' cs with
    | nil => exact absurd hpieces (splitOn_ne_nil _ _)
    | cons piece pieces =>
      rw [hpieces, continued_cons] at ih
      split
      next hc => rw [hc, continued_cons, continued_cons, ih]; rfl
      next => rw [continued_cons, List.cons_append, (List.cons.inj ih).2]

theorem splitOn_concat (sep : Char) (cs : List Char) :
    splitOn sep (cs ++ [sep]) = splitOn sep cs ++ [[]] := by
  induction cs with
  | nil => simp [splitOn]
  | cons c cs ih =>
    rw [List.cons_append, splitOn, splitOn, ih]
    cases hpieces : splitOn sep cs with
    | nil => exact absurd hpieces (splitOn_ne_nil sep cs)
    | cons piece pieces => split <;> rfl

theorem splitOn_unlines (h : ∀ line ∈ ls, '\n' ∉ line) :
    splitOn '\n' (unlines ls) = ls ++ [[]] := by
  induction ls with
  | nil => rfl
  | cons line ls ih =>
    rw [unlines_cons, splitOn_append_cons (h line List.mem_cons_self),
      ih fun line hline => h line (List.mem_cons_of_mem _ hline)]
    rfl

theorem dropReturn_of_notMem (h : '\r' ∉ line) : dropReturn line = line :=
  if_neg fun hlast => h (List.mem_of_getLast? hlast)

theorem lines_unlines (h : ∀ line ∈ ls, '\n' ∉ line) (hreturn : ∀ line ∈ ls, '\r' ∉ line) :
    lines (unlines ls) = ls := by
  have hdrop : ls.map dropReturn = ls :=
    (List.map_congr_left fun line hline => dropReturn_of_notMem (hreturn line hline)).trans
      (List.map_id ls)
  simp [lines, splitOn_unlines h, hdrop]

theorem unlines_inj (h : ∀ line ∈ ls, '\n' ∉ line) (h' : ∀ line ∈ ls', '\n' ∉ line)
    (he : unlines ls = unlines ls') : ls = ls' := by
  have hpieces := congrArg (splitOn '\n') he
  rw [splitOn_unlines h, splitOn_unlines h'] at hpieces
  exact List.append_cancel_right hpieces

theorem getLast?_unlines (h : ls ≠ []) : (unlines ls).getLast? = some '\n' := by
  have hlast : unlines (ls.dropLast ++ [ls.getLast h]) =
      unlines ls.dropLast ++ ls.getLast h ++ ['\n'] := by
    rw [unlines_append, unlines_cons, List.append_assoc]
    rfl
  rw [List.dropLast_concat_getLast] at hlast
  rw [hlast, List.getLast?_concat]

/-- A list that consists of members with a property and of members without it can be cut in one
way. -/
theorem append_inj_of_class {α : Type} {P : α → Bool} {as as' bs bs' : List α}
    (has : ∀ a ∈ as, P a = true) (has' : ∀ a ∈ as', P a = true) (hbs : ∀ b ∈ bs, P b = false)
    (hbs' : ∀ b ∈ bs', P b = false) (h : as ++ bs = as' ++ bs') : as = as' ∧ bs = bs' := by
  have hfilter (xs ys : List α) (hxs : ∀ x ∈ xs, P x = true) (hys : ∀ y ∈ ys, P y = false) :
      (xs ++ ys).filter P = xs := by
    rw [List.filter_append, List.filter_eq_self.2 hxs,
      List.filter_eq_nil_iff.2 fun y hy => Bool.not_eq_true _ ▸ hys y hy, List.append_nil]
  have hcut := congrArg (List.filter P) h
  rw [hfilter as bs has hbs, hfilter as' bs' has' hbs'] at hcut
  subst hcut
  exact ⟨rfl, List.append_cancel_left h⟩

theorem eq_of_append_cons {α : Type} {a : α} {before before' after after' : List α}
    (h : a ∉ after) (h' : a ∉ after') (he : before ++ a :: after = before' ++ a :: after') :
    after = after' := by
  rcases List.append_eq_append_iff.1 he with ⟨mid, hbefore, hmid⟩ | ⟨mid, hbefore, hmid⟩
  · cases mid with
    | nil => exact (List.cons.inj hmid).2
    | cons b mid =>
      have : a ∈ after := by
        rw [(List.cons.inj hmid).2]
        exact List.mem_append_right _ List.mem_cons_self
      exact absurd this h
  · cases mid with
    | nil => exact (List.cons.inj hmid).2.symm
    | cons b mid =>
      have : a ∈ after' := by
        rw [(List.cons.inj hmid).2]
        exact List.mem_append_right _ List.mem_cons_self
      exact absurd this h'

/-- The lines after the last one that reads `line` are settled by the text, whatever comes before
them. -/
theorem eq_of_unlines_after (hline : '\n' ∉ line) (hne : line ≠ [])
    (h : ∀ l ∈ ls, '\n' ∉ l ∧ l ≠ line) (h' : ∀ l ∈ ls', '\n' ∉ l ∧ l ≠ line)
    (he : cs ++ '\n' :: unlines (line :: ls) = ds ++ '\n' :: unlines (line :: ls')) : ls = ls' := by
  have hcut (es : List Char) (ms : List (List Char)) (hms : ∀ l ∈ ms, '\n' ∉ l ∧ l ≠ line) :
      splitOn '\n' (es ++ '\n' :: unlines (line :: ms)) =
        splitOn '\n' es ++ line :: (ms ++ [[]]) := by
    rw [Path.splitOn_append, splitOn_unlines, List.cons_append]
    intro l hl
    rcases List.mem_cons.1 hl with rfl | hl
    · exact hline
    · exact (hms l hl).1
  have hnotMem (ms : List (List Char)) (hms : ∀ l ∈ ms, '\n' ∉ l ∧ l ≠ line) :
      line ∉ ms ++ [[]] := by
    intro hmem
    rcases List.mem_append.1 hmem with hmem | hmem
    · exact (hms line hmem).2 rfl
    · exact hne (List.mem_singleton.1 hmem)
  have hpieces := congrArg (splitOn '\n') he
  rw [hcut cs ls h, hcut ds ls' h'] at hpieces
  exact List.append_cancel_right (eq_of_append_cons (hnotMem ls h) (hnotMem ls' h') hpieces)

/-! ### The last line -/

/-- What a text has after its last line feed. -/
def lastLine (cs : List Char) : List Char := cs.rtakeWhile (· ≠ '\n')

theorem takeWhile_append_of_head? {α : Type} {P : α → Bool} {as bs : List α}
    (h : ∀ b ∈ bs.head?, P b = false) : (as ++ bs).takeWhile P = as.takeWhile P := by
  rw [List.takeWhile_append]
  split
  next hall =>
    have hnone : bs.takeWhile P = [] := by cases bs <;> simp_all
    rw [hnone, List.append_nil, (List.takeWhile_prefix P).eq_of_length hall]
  next => rfl

theorem lastLine_append (cs ds : List Char) : lastLine (cs ++ '\n' :: ds) = lastLine ds := by
  have hreverse : (cs ++ '\n' :: ds).reverse = ds.reverse ++ '\n' :: cs.reverse := by simp
  rw [lastLine, lastLine, List.rtakeWhile, hreverse, takeWhile_append_of_head? (by simp)]
  rfl

theorem lastLine_of_notMem (h : '\n' ∉ cs) : lastLine cs = cs := by
  rw [lastLine, List.rtakeWhile_eq_self_iff]
  rintro c hc
  rw [decide_eq_true_eq]
  rintro rfl
  exact h hc

/-! ### Marks -/

theorem exists_before (mark cs : List Char) :
    ∃ after, cs = before mark cs ++ after ∧ (after = [] ∨ mark <+: after) := by
  induction cs with
  | nil => exact ⟨[], rfl, .inl rfl⟩
  | cons c cs ih =>
    rw [before]
    split
    next hmark => exact ⟨c :: cs, rfl, .inr (List.isPrefixOf_iff_prefix.1 hmark)⟩
    next =>
      obtain ⟨after, hcs, hafter⟩ := ih
      exact ⟨after, by rw [List.cons_append, ← hcs], hafter⟩

theorem exists_of_after? (hne : mark ≠ []) (h : after? mark cs = some rest) :
    ∃ body, ¬ mark <:+: body ∧ cs = body ++ (mark ++ rest) := by
  induction cs with
  | nil => simp [after?, hne] at h
  | cons c cs ih =>
    rw [after?] at h
    split at h
    next hmark =>
      obtain ⟨more, hcs⟩ := List.isPrefixOf_iff_prefix.1 hmark
      rw [← hcs, Option.some_inj, List.drop_left] at h
      exact ⟨[], by simpa using hne, by rw [← hcs, h]; rfl⟩
    next hmark =>
      obtain ⟨body, hbody, rfl⟩ := ih h
      refine ⟨c :: body, fun hmem => ?_, rfl⟩
      rcases List.infix_cons_iff.1 hmem with hfront | hmem
      · exact hmark (List.isPrefixOf_iff_prefix.2 (hfront.trans (List.prefix_append (c :: body) _)))
      · exact hbody hmem

theorem not_infix_of_after? (h : after? mark cs = none) : ¬ mark <:+: cs := by
  induction cs with
  | nil =>
    have hne : mark ≠ [] := by
      rintro rfl
      simp [after?] at h
    simpa using hne
  | cons c cs ih =>
    rw [after?] at h
    split at h
    next => cases h
    next hmark =>
      rw [List.infix_cons_iff, not_or]
      exact ⟨fun hfront => hmark (List.isPrefixOf_iff_prefix.2 hfront), ih h⟩

end Playground.Text
