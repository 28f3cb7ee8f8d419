import Mathlib.Data.List.ReduceOption
import Playground.Source.Imports
import Playground.Proofs.Source.Lexemes

/-!
# Headers of source files

A header is a package clause and import declarations, each a single spec or a list of specs in
parentheses, with semicolons anywhere between declarations and between the specs of a list.  A file
opens with a header (`Header.Opens`) if it is written as its lexemes, with blanks and comments
anywhere between them, and what follows begins no further declaration.

Main statement: the files that open with some headers import the declared paths in order, and
merging them keeps each path that names a package at its first place
(`importPaths_and_mergeImports_of_opens`).
-/

namespace Playground.Source

variable {ts : List Token}

/-! ### The grammar -/

/-- What may stand before the path of a spec. -/
inductive Qualifier where
  | name (n : Name)
  | dot

/-- An import spec. -/
structure Spec where
  qualifier : Option Qualifier
  literal : Literal

/-- An import declaration: a spec, or a list of specs in parentheses.  In the list, `none` is a
semicolon. -/
inductive Declaration where
  | single (spec : Spec)
  | list (items : List (Option Spec))

/-- The head of a file: the name of its package, and its import declarations.  Among these, `none`
is a semicolon. -/
structure Header where
  package : Name
  items : List (Option Declaration)

/-- The lexemes of items with semicolons between them. -/
def itemLexemes {α : Type} (lexemes : α → List Lexeme) (items : List (Option α)) : List Lexeme :=
  items.flatMap fun item => item.elim [.mark .semicolon] lexemes

namespace Qualifier

def lexeme : Qualifier → Lexeme
  | name n => .name n
  | dot => .mark .dot

end Qualifier

namespace Spec

def lexemes (s : Spec) : List Lexeme :=
  s.qualifier.toList.map Qualifier.lexeme ++ [.literal s.literal]

def path (s : Spec) : String := s.literal.meaning

end Spec

namespace Declaration

def word : Name where
  first := 'i'
  rest := ['m', 'p', 'o', 'r', 't']
  starts := by decide
  continues := List.all_eq_true.1 rfl

def lexemes : Declaration → List Lexeme
  | single s => .name word :: s.lexemes
  | list items =>
    .name word :: .mark .opening :: (itemLexemes Spec.lexemes items ++ [.mark .closing])

def paths : Declaration → List String
  | single s => [s.path]
  | list items => items.reduceOption.map Spec.path

end Declaration

namespace Header

def word : Name where
  first := 'p'
  rest := ['a', 'c', 'k', 'a', 'g', 'e']
  starts := by decide
  continues := List.all_eq_true.1 rfl

def lexemes (h : Header) : List Lexeme :=
  .name word :: .name h.package :: itemLexemes Declaration.lexemes h.items

def paths (h : Header) : List String := h.items.reduceOption.flatMap Declaration.paths

/-- A file opens with a header: what follows, if anything, begins with no semicolon and no further
declaration. -/
def Opens (h : Header) (file : List Char) : Prop :=
  ∃ tail, Written tail h.lexemes file ∧
    (tokens tail).head? ≠ some (.punct ';') ∧ (tokens tail).head? ≠ some (.ident "import")

end Header

/-! ### Reading declarations -/

theorem pathsFrom_items {α : Type} {mode : HeadMode} {lexemes : α → List Lexeme}
    {paths : α → List String}
    (hsemicolon : ∀ ts, pathsFrom mode (.punct ';' :: ts) = pathsFrom mode ts)
    (hitem : ∀ a ts, pathsFrom mode ((lexemes a).map Lexeme.token ++ ts) =
      paths a ++ pathsFrom mode ts) (items : List (Option α)) :
    pathsFrom mode ((itemLexemes lexemes items).map Lexeme.token ++ ts) =
      items.reduceOption.flatMap paths ++ pathsFrom mode ts := by
  induction items with
  | nil => rfl
  | cons item items ih =>
    cases item with
    | none => rw [List.reduceOption_cons_of_none, ← ih]; exact hsemicolon _
    | some a =>
      rw [itemLexemes, List.flatMap_cons, List.map_append, List.append_assoc]
      rw [Option.elim_some, hitem, List.reduceOption_cons_of_some, List.flatMap_cons,
        List.append_assoc, ← ih, itemLexemes]

/-- A spec is read where one is expected, in a list or not. -/
theorem pathsFrom_spec (inList : Bool) (s : Spec) (ts : List Token) :
    pathsFrom (if inList then .inList else .declared) (s.lexemes.map Lexeme.token ++ ts) =
      s.path :: pathsFrom (.afterSpec inList) ts := by
  obtain ⟨qualifier, l⟩ := s
  rcases qualifier with _ | n | _ <;> cases inList <;> rfl

theorem pathsFrom_declaration (d : Declaration) (ts : List Token) :
    pathsFrom .between (d.lexemes.map Lexeme.token ++ ts) = d.paths ++ pathsFrom .between ts := by
  cases d with
  | single s => exact pathsFrom_spec false s ts
  | list items =>
    have hspec (s : Spec) (ts : List Token) : pathsFrom .inList (s.lexemes.map Lexeme.token ++ ts) =
        [s.path] ++ pathsFrom .inList ts := pathsFrom_spec true s ts
    have hitems : pathsFrom .inList ((itemLexemes Spec.lexemes items).map Lexeme.token ++
        .punct ')' :: ts) = _ := pathsFrom_items (fun _ => rfl) hspec items
    rw [← List.map_eq_flatMap] at hitems
    rw [Declaration.paths, Declaration.lexemes, List.map_cons, List.map_cons, List.map_append,
      List.cons_append, List.cons_append, List.append_assoc]
    exact hitems

theorem pathsFrom_tail (hsemicolon : ts.head? ≠ some (.punct ';'))
    (hword : ts.head? ≠ some (.ident "import")) : pathsFrom .between ts = [] := by
  have hdone (ts : List Token) : pathsFrom .done ts = [] := by
    induction ts with
    | nil => rfl
    | cons t ts ih => exact ih
  cases ts with
  | nil => rfl
  | cons t ts =>
    rw [List.head?_cons, Ne, Option.some_inj] at hsemicolon hword
    simp [pathsFrom, readHead, hsemicolon, hword, hdone]

/-- A file imports what the header declares that it opens with. -/
theorem importPaths_of_opens {h : Header} {file : List Char} (hopens : h.Opens file) :
    importPaths file = h.paths := by
  obtain ⟨tail, hwritten, hsemicolon, hword⟩ := hopens
  have hitems : pathsFrom .between ((itemLexemes Declaration.lexemes h.items).map Lexeme.token ++
      tokens tail) = h.paths ++ pathsFrom .between (tokens tail) :=
    pathsFrom_items (fun _ => rfl) pathsFrom_declaration h.items
  rw [pathsFrom_tail hsemicolon hword, List.append_nil] at hitems
  have htokens : tokens file = .ident "package" :: .ident (String.ofList h.package.chars) ::
      ((itemLexemes Declaration.lexemes h.items).map Lexeme.token ++ tokens tail) :=
    tokens_of_written hwritten
  rw [importPaths, htokens]
  exact hitems

/-! ### Merging -/

/-- A list keeps, of the paths of another, each that names a package, in the order of their first
places. -/
structure KeepsFirst (all kept : List String) : Prop where
  mem_iff : ∀ path, path ∈ kept ↔ path ∈ all ∧ path ≠ "C" ∧ path ≠ ""
  ordered : kept.Pairwise fun p q => all.idxOf p < all.idxOf q

theorem idxOf_lt_of_filter {α : Type} [DecidableEq α] {f : α → Bool} {l : List α} {a b : α}
    (ha : f a = true) (hb : f b = true) (h : (l.filter f).idxOf a < (l.filter f).idxOf b) :
    l.idxOf a < l.idxOf b := by
  induction l with
  | nil => simp at h
  | cons c l ih => grind

theorem eraseDups_pairwise_idxOf {α : Type} [DecidableEq α] (l : List α) :
    l.eraseDups.Pairwise fun a b => l.idxOf a < l.idxOf b := by
  induction hn : l.length using Nat.strong_induction_on generalizing l with
  | _ n ih =>
    cases l with
    | nil => simp
    | cons c l =>
      have hne {a : α} (ha : a ∈ (l.filter fun b => !b == c).eraseDups) :
          a ≠ c ∧ (!a == c) = true := by
        have := List.of_mem_filter (List.mem_eraseDups.1 ha)
        exact ⟨by simpa using this, this⟩
      rw [List.eraseDups_cons, List.pairwise_cons]
      refine ⟨fun a ha => ?_, ?_⟩
      · rw [List.idxOf_cons_self, List.idxOf_cons_ne _ (hne ha).1.symm]
        exact Nat.succ_pos _
      · have hlt : (l.filter fun b => !b == c).length < n := by
          have := List.length_filter_le (fun b => !b == c) l
          simp only [List.length_cons] at hn
          omega
        refine (ih _ hlt _ rfl).imp_of_mem fun {a b} ha hb hab => ?_
        rw [List.idxOf_cons_ne _ (hne ha).1.symm, List.idxOf_cons_ne _ (hne hb).1.symm]
        exact Nat.succ_lt_succ (idxOf_lt_of_filter (hne ha).2 (hne hb).2 hab)

theorem keepsFirst_mergeImports (files : List (List Char)) :
    KeepsFirst (files.flatMap importPaths) (mergeImports files) where
  mem_iff path := by
    rw [mergeImports, List.mem_eraseDups, List.mem_filter, namesPackage, Bool.and_eq_true,
      decide_eq_true_eq, decide_eq_true_eq]
    rfl
  ordered := by
    refine (eraseDups_pairwise_idxOf _).imp_of_mem fun {p q} hp hq hpq => ?_
    have hnames {path : String} (h : path ∈ mergeImports files) : namesPackage path = true :=
      List.of_mem_filter (List.mem_eraseDups.1 h)
    exact idxOf_lt_of_filter (hnames hp) (hnames hq) hpq

/-! ### Main statement -/

theorem importPaths_and_mergeImports_of_opens {headers : List Header} {files : List (List Char)}
    (h : List.Forall₂ Header.Opens headers files) :
    files.map importPaths = headers.map Header.paths ∧
      KeepsFirst (headers.flatMap Header.paths) (mergeImports files) := by
  have hpaths : files.map importPaths = headers.map Header.paths := by
    induction h with
    | nil => rfl
    | cons hopens _ ih => rw [List.map_cons, List.map_cons, importPaths_of_opens hopens, ih]
  refine ⟨hpaths, ?_⟩
  have hkeeps := keepsFirst_mergeImports files
  rwa [List.flatMap_def, hpaths, ← List.flatMap_def] at hkeeps

/-- A header with declarations of both kinds, a path that is declared twice, and one that names no
package. -/
def Header.sample : Header where
  package := ⟨'p', [], by decide, List.all_eq_true.1 rfl⟩
  items := [
    some (.single ⟨some .dot, .raw ['a'] (by decide)⟩),
    none,
    some (.list [
      some ⟨some (.name ⟨'x', ['1'], by decide, List.all_eq_true.1 rfl⟩),
        .quoted [.plain 'b' (by decide), .tab, .quote]⟩,
      none,
      none,
      some ⟨none, .quoted [.plain 'C' (by decide)]⟩,
      some ⟨none, .raw ['a'] (by decide)⟩])]

/-- A file that opens with it. -/
def sampleFile : List Char :=
  "// A file.\npackage p/**/import .`a`;import(x1\"b\\t\\\"\";;/* C * */\"C\"\n`a`)func".toList

theorem opens_sampleFile : Header.sample.Opens sampleFile := by
  have hwritten : Written "func".toList Header.sample.lexemes _ :=
    .trivium (.line " A file.".toList (by decide)) <|
    .name _ (.inl ⟨.blank ' ' rfl, _, rfl⟩) <| .trivium (.blank ' ' rfl) <|
    .name _ (.inl ⟨.block [] (by decide), _, rfl⟩) <| .trivium (.block [] (by decide)) <|
    .name _ (.inl ⟨.blank ' ' rfl, _, rfl⟩) <| .trivium (.blank ' ' rfl) <|
    .mark .dot <| .literal _ <| .mark .semicolon <|
    .name _ (.of_head (by decide)) <| .mark .opening <|
    .name _ (.of_head (by decide)) <| .literal _ <| .mark .semicolon <| .mark .semicolon <|
    .trivium (.block " C * ".toList (by decide)) <| .literal _ <|
    .trivium (.blank '\n' rfl) <| .literal _ <| .mark .closing .done
  exact ⟨_, hwritten, by decide, by decide⟩

theorem importPaths_and_mergeImports_of_opens_sampleFile :
    List.Forall₂ Header.Opens [Header.sample] [sampleFile] ∧
      [sampleFile].map importPaths = [["a", "b\t\"", "C", "a"]] ∧
      KeepsFirst ["a", "b\t\"", "C", "a"] (mergeImports [sampleFile]) := by
  have hopens : List.Forall₂ Header.Opens [Header.sample] [sampleFile] :=
    .cons opens_sampleFile .nil
  exact ⟨hopens, importPaths_and_mergeImports_of_opens hopens⟩

end Playground.Source
