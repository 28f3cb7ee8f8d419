import Mathlib.Data.List.Nodup
import Playground.Proofs.Named
import Playground.Proofs.Tree.Calls

/-!
# Mounted trees

A tree is coherent when it lists exactly its directories, each with exactly what lies in it, and
reads exactly its files (`View.IsCoherent`).  A mount answers from two sides: the host, and behind
it the mounted tree with the directories on the way to it.  Its kinds and its listings fall back to
the second side in different ways: kinds when the host has nothing, listings when the host finds
nothing, and a listing of the second side is asked for even when the host has the directory.

So a mount of coherent trees need not be coherent.  `View.Clash` lists the ways in which the two
sides can disagree about a place, and the mount answers there as a coherent tree does exactly when
none of them occurs (`View.agreesAt_mount_iff`).  Between trees in which nothing lies below what is
no directory, two of them are left: a file behind a directory of the host, for which the mount has a
directory and does not list it, and a mount point where there is nothing
(`View.agrees_mount_iff_of_plain`).
-/

namespace Playground

/-! ### Listings -/

namespace Entry

/-- What a listing says of a name, by its first line that has it. -/
def lookup (es : List Entry) (name : String) : Option Kind :=
  (es.find? fun e => e.name = name).map Entry.kind

theorem lookup_cons (e : Entry) (es : List Entry) (name : String) :
    lookup (e :: es) name = if e.name = name then some e.kind else lookup es name := by
  rw [lookup, List.find?_cons]
  by_cases h : e.name = name <;> simp [h, lookup]

theorem lookup_append (es es' : List Entry) (name : String) :
    lookup (es ++ es') name = (lookup es name).or (lookup es' name) := by
  rw [lookup, List.find?_append, Option.map_or]
  rfl

theorem lookup_eq {es : List Entry} {f : String → Option Kind}
    (h : ∀ name kind, ⟨name, kind⟩ ∈ es ↔ f name = some kind) (name : String) :
    lookup es name = f name := by
  unfold lookup
  cases hfind : es.find? fun e => e.name = name with
  | none =>
    rw [List.find?_eq_none] at hfind
    cases hf : f name with
    | none => rfl
    | some kind => exact absurd (decide_eq_true rfl) (hfind _ ((h name kind).2 hf))
  | some e =>
    have hname : e.name = name := by simpa using List.find?_some hfind
    have hmem : (⟨name, e.kind⟩ : Entry) ∈ es := by
      rw [← hname]
      exact List.mem_of_find?_eq_some hfind
    exact ((h name e.kind).1 hmem).symm

end Entry

namespace View

theorem getElem?_foldl_insertIfNew (es : List Entry) (kinds : Named Kind) (name : String) :
    (es.foldl (fun kinds e => kinds.insertIfNew e.name e.kind) kinds)[name]? =
      kinds[name]?.or (Entry.lookup es name) := by
  induction es generalizing kinds with
  | nil => exact (Option.or_none).symm
  | cons e es ih =>
    rw [List.foldl_cons, ih, Entry.lookup_cons, Std.ExtTreeMap.getElem?_insertIfNew]
    by_cases hname : e.name = name
    · subst hname
      cases hold : kinds[e.name]? <;> simp [Named.mem_iff, hold]
    · have hne : compare e.name name ≠ .eq := fun he =>
        hname (Std.LawfulEqOrd.compare_eq_iff_eq.1 he)
      simp [hname, hne]

/-- Merged listings say of each name what the first of them says that has it. -/
theorem mem_mergeListings {listings : List (List Entry)} {name : String} {kind : Kind} :
    ⟨name, kind⟩ ∈ mergeListings listings ↔ Entry.lookup listings.flatten name = some kind := by
  unfold mergeListings
  rw [(Entry.sort_perm _).mem_iff, List.mem_map]
  have hget := getElem?_foldl_insertIfNew listings.flatten ∅ name
  rw [Std.ExtTreeMap.getElem?_empty, Option.none_or] at hget
  rw [← hget, ← Std.ExtTreeMap.mem_toList_iff_getElem?_eq_some]
  constructor
  · rintro ⟨⟨name', kind'⟩, hmem, he⟩
    cases he
    exact hmem
  · exact fun hmem => ⟨(name, kind), hmem, rfl⟩

theorem nodup_mergeListings (listings : List (List Entry)) :
    ((mergeListings listings).map Entry.name).Nodup := by
  unfold mergeListings
  refine ((Entry.sort_perm _).map Entry.name).nodup_iff.2 ?_
  rw [List.map_map]
  exact Named.nodup_map_fst_toList _

/-! ### Coherent trees -/

/-- The tree lists a written path exactly if it has a directory there, and then it lists in order
exactly what lies in it, each once and as what it is. -/
structure AgreesAt (v : View) (path : String) : Prop where
  isOk_listAt_iff : (v.listAt path).isOk = true ↔ v.kindAt path = some .dir
  sorted : ∀ es, v.listAt path = .ok es → es.Pairwise fun a b => Entry.le a b = true
  nodup : ∀ es, v.listAt path = .ok es → (es.map Entry.name).Nodup
  mem_iff : ∀ es, v.listAt path = .ok es → ∀ name kind, ⟨name, kind⟩ ∈ es ↔
    Path.IsName name ∧ v.kindAt (Path.join path name) = some kind

/-- The tree lists exactly its directories, with exactly what lies in them, and reads exactly its
files. -/
structure IsCoherent (v : View) : Prop where
  agreesAt : ∀ path p, Path.read? path = some p → v.AgreesAt path
  isOk_readAt_iff : ∀ path p, Path.read? path = some p →
    ((v.readAt path).isOk = true ↔ v.kindAt path = some .file)

/-- The same as `AgreesAt`, of a place. -/
structure Agrees (v : View) (p : Path) : Prop where
  isOk_list_iff : (v.list p).isOk = true ↔ v.kind p = some .dir
  sorted : ∀ es, v.list p = .ok es → es.Pairwise fun a b => Entry.le a b = true
  nodup : ∀ es, v.list p = .ok es → (es.map Entry.name).Nodup
  mem_iff : ∀ es, v.list p = .ok es → ∀ name kind, ⟨name, kind⟩ ∈ es ↔
    Path.IsName name ∧ v.kind (p ++ [name]) = some kind

variable {v host mounted : View} {path name : String} {point p q : Path} {kind : Kind}

theorem kindAt_join (h : Path.read? path = some p) (hname : Path.IsName name) :
    v.kindAt (Path.join path name) = v.kind (p ++ [name]) := by
  rw [kindAt, Path.read?_join, h, Path.read?_name hname]
  rfl

theorem agreesAt_iff (h : Path.read? path = some p) : v.AgreesAt path ↔ v.Agrees p := by
  have hlist : v.listAt path = v.list p := v.listAt_of_read? h
  have hkind : v.kindAt path = v.kind p := by
    rw [kindAt, h]
    rfl
  have hchild (name : String) (kind : Kind) :
      Path.IsName name ∧ v.kindAt (Path.join path name) = some kind ↔
        Path.IsName name ∧ v.kind (p ++ [name]) = some kind :=
    and_congr_right fun hname => by rw [kindAt_join h hname]
  constructor
  · rintro ⟨hok, hsorted, hnodup, hmem⟩
    rw [hlist] at hok hsorted hnodup hmem
    rw [hkind] at hok
    exact ⟨hok, hsorted, hnodup, fun es hes name kind =>
      (hmem es hes name kind).trans (hchild name kind)⟩
  · rintro ⟨hok, hsorted, hnodup, hmem⟩
    rw [← hlist] at hok hsorted hnodup hmem
    rw [← hkind] at hok
    exact ⟨hok, hsorted, hnodup, fun es hes name kind =>
      (hmem es hes name kind).trans (hchild name kind).symm⟩

theorem agreesAt_of_read?_eq_none (h : Path.read? path = none) : v.AgreesAt path := by
  have hlist : v.listAt path = .error (.invalidPath path) := by
    rw [listAt, locate, h]
    rfl
  have hkind : v.kindAt path = none := by
    rw [kindAt, h]
    rfl
  constructor
  · rw [hlist, hkind]
    exact iff_of_false Bool.false_ne_true (Option.some_ne_none _).symm
  all_goals
    intro es hes
    rw [hlist] at hes
    cases hes

theorem IsCoherent.agrees (h : v.IsCoherent) (hp : p.IsCanonical) : v.Agrees p :=
  (agreesAt_iff (Path.read?_text hp)).1 (h.agreesAt p.text p (Path.read?_text hp))

/-! ### The two sides of a mount -/

/-- What there is at a place that the host does not have: a directory on the way to the mount point,
or what the mounted tree has there. -/
def fallbackKind (point : Path) (mounted : View) (p : Path) : Option Kind :=
  if p.isAbove point then some .dir else inner? point p >>= mounted.kind

/-- The listing of a place besides the host's. -/
def fallbackList (point : Path) (mounted : View) (p : Path) : Except TreeError (List Entry) :=
  match inner? point p with
  | some q => mounted.list q
  | none =>
    match wayListing point p with
    | es :: _ => .ok es
    | [] => .error (.notFound p.text)

/-- What the listing besides the host's says of a name: the mount point is a directory in it. -/
def fallbackChild (point : Path) (mounted : View) (p : Path) (name : String) : Option Kind :=
  if p ++ [name] = point then some .dir else fallbackKind point mounted (p ++ [name])

/-- A listing fails, and not because there is nothing. -/
def Refuses (r : Except TreeError (List Entry)) : Prop :=
  ∃ e, r = .error e ∧ e.isNotFound = false

/-- The lines of a listing, if there is one. -/
def lines (r : Except TreeError (List Entry)) : List Entry := r.toOption.getD []

theorem mountKind_eq (host : View) (point : Path) (mounted : View) (p : Path) :
    mountKind host point mounted p = (host.kind p).or (fallbackKind point mounted p) := by
  unfold mountKind fallbackKind
  cases host.kind p <;> rfl

theorem inner?_eq_some_iff : inner? point p = some q ↔ p = point ++ q := by
  refine ⟨inner?_eq_some, ?_⟩
  rintro rfl
  rw [inner?, if_pos (List.isPrefixOf_iff_prefix.2 (List.prefix_append point q)),
    List.drop_left]

theorem not_isAbove_of_inner? (h : inner? point p = some q) : p.isAbove point = false := by
  obtain rfl := inner?_eq_some h
  simp [Path.isAbove]

theorem fallbackKind_of_inner? (h : inner? point p = some q) :
    fallbackKind point mounted p = mounted.kind q := by
  rw [fallbackKind, not_isAbove_of_inner? h, h]
  rfl

theorem fallbackChild_of_inner? (h : inner? point p = some q) :
    fallbackChild point mounted p name = mounted.kind (q ++ [name]) := by
  obtain rfl := inner?_eq_some h
  have hne : point ++ q ++ [name] ≠ point := by
    intro he
    have := congrArg List.length he
    simp only [List.length_append, List.length_singleton] at this
    omega
  rw [fallbackChild, if_neg hne]
  exact fallbackKind_of_inner? (inner?_eq_some_iff.2 (List.append_assoc ..))

theorem fallbackChild_of_isAbove (h : p.isAbove point = true) :
    fallbackChild point mounted p name = some kind ↔ p ++ [name] <+: point ∧ kind = .dir := by
  unfold fallbackChild
  split
  · rename_i he
    rw [Option.some.injEq, and_iff_right ⟨[], by rw [he, List.append_nil]⟩, eq_comm]
  · rename_i hne
    have hinner : inner? point (p ++ [name]) = none := by
      cases hq : inner? point (p ++ [name]) with
      | none => rfl
      | some q =>
        -- the mount point would lie between `p` and what lies directly in it
        obtain ⟨hpre, hne'⟩ := Path.isAbove_iff.1 h
        have hpoint : point <+: p ++ [name] := ⟨q, (inner?_eq_some hq).symm⟩
        rcases List.prefix_concat_iff.1 hpoint with he | hle
        · exact absurd he.symm hne
        · exact absurd (hpre.eq_of_length (le_antisymm hpre.length_le hle.length_le)) hne'
    rw [fallbackKind, hinner]
    by_cases hpre : p ++ [name] <+: point
    · rw [if_pos (Path.isAbove_iff.2 ⟨hpre, hne⟩), Option.some.injEq, and_iff_right hpre, eq_comm]
    · rw [if_neg fun habove => hpre (Path.isAbove_iff.1 habove).1]
      exact iff_of_false (Option.some_ne_none _).symm fun hand => hpre hand.1

theorem isOk_fallbackList_iff (h : mounted.IsCoherent) (hp : p.IsCanonical) :
    (fallbackList point mounted p).isOk = true ↔ fallbackKind point mounted p = some .dir := by
  unfold fallbackList
  cases hq : inner? point p with
  | some q =>
    obtain rfl := inner?_eq_some hq
    have hcanonical : q.IsCanonical := fun name hname => hp name (List.mem_append_right _ hname)
    rw [fallbackKind_of_inner? hq]
    exact (h.agrees hcanonical).isOk_list_iff
  | none =>
    rw [fallbackKind, hq]
    dsimp only
    unfold wayListing
    by_cases habove : p.isAbove point = true
    · have hlength : p.length < point.length := by
        simpa [Path.isAbove] using (Bool.and_eq_true_iff.1 habove).2
      rw [if_pos habove, if_pos habove, List.getElem?_eq_getElem hlength]
      exact iff_of_true rfl rfl
    · rw [if_neg habove, if_neg habove]
      exact iff_of_false Bool.false_ne_true (Option.some_ne_none _).symm

theorem mem_fallbackList_iff (h : mounted.IsCoherent) (hpoint : point.IsCanonical)
    (hp : p.IsCanonical) {es : List Entry} (hes : fallbackList point mounted p = .ok es) :
    ⟨name, kind⟩ ∈ es ↔ Path.IsName name ∧ fallbackChild point mounted p name = some kind := by
  unfold fallbackList at hes
  cases hq : inner? point p with
  | some q =>
    rw [hq] at hes
    obtain rfl := inner?_eq_some hq
    have hcanonical : q.IsCanonical := fun name hname => hp name (List.mem_append_right _ hname)
    rw [fallbackChild_of_inner? hq]
    exact (h.agrees hcanonical).mem_iff es hes name kind
  | none =>
    rw [hq] at hes
    dsimp only at hes
    unfold wayListing at hes
    by_cases habove : p.isAbove point = true
    · obtain ⟨⟨rest, rfl⟩, hne⟩ := Path.isAbove_iff.1 habove
      cases rest with
      | nil => exact absurd (List.append_nil p).symm hne
      | cons next rest =>
        rw [if_pos habove, List.getElem?_append_right (Nat.le_refl _), Nat.sub_self] at hes
        cases hes
        have hnext : Path.IsName next := hpoint next (by simp)
        rw [fallbackChild_of_isAbove habove, List.mem_singleton, Entry.mk.injEq,
          List.prefix_append_right_inj, List.cons_prefix_cons]
        constructor
        · rintro ⟨rfl, rfl⟩
          exact ⟨hnext, ⟨rfl, List.nil_prefix⟩, rfl⟩
        · rintro ⟨-, ⟨rfl, -⟩, rfl⟩
          exact ⟨rfl, rfl⟩
    · rw [if_neg habove] at hes
      cases hes

/-! ### Listings of a mount -/

theorem listing?_of_refuses {r : Except TreeError (List Entry)} (h : Refuses r) :
    ∃ e, listing? r = .error e := by
  obtain ⟨e, rfl, he⟩ := h
  exact ⟨e, by rw [listing?, he]; rfl⟩

theorem listing?_of_not_refuses {r : Except TreeError (List Entry)} (h : ¬ Refuses r) :
    ∃ listings, listing? r = .ok listings ∧ listings.flatten = lines r ∧
      (listings ≠ [] ↔ r.isOk = true) := by
  cases r with
  | ok es => exact ⟨[es], rfl, List.append_nil es, iff_of_true (List.cons_ne_nil es []) rfl⟩
  | error e =>
    have he : e.isNotFound = true := by
      rw [← Bool.not_eq_false]
      exact fun he => h ⟨e, rfl, he⟩
    exact ⟨[], by rw [listing?, he]; rfl, rfl,
      iff_of_false (absurd rfl) Bool.false_ne_true⟩

theorem mountListings_eq (host : View) (point : Path) (mounted : View) (p : Path) :
    mountListings host point mounted p = do
      let own ← listing? (host.list p)
      let others ← listing? (fallbackList point mounted p)
      return own ++ others := by
  unfold mountListings fallbackList
  cases inner? point p with
  | some q => rfl
  | none =>
    have hway : listing? (match wayListing point p with
        | es :: _ => .ok es
        | [] => .error (.notFound p.text)) = .ok (wayListing point p) := by
      unfold wayListing
      by_cases habove : p.isAbove point = true
      · rw [if_pos habove]
        cases point[p.length]? <;> rfl
      · rw [if_neg habove]
        rfl
    dsimp only
    rw [hway]
    rfl

theorem mountList_eq_ok {listings : List (List Entry)} {es : List Entry}
    (h : mountListings host point mounted p = .ok listings) :
    mountList host point mounted p = .ok es ↔ listings ≠ [] ∧ mergeListings listings = es := by
  rw [mountList, h]
  cases listings <;> simp

/-- A place of a mount is listed if one of the sides lists it and none refuses; the lines of the
host come first. -/
theorem mountList_eq_ok_iff {es : List Entry} : mountList host point mounted p = .ok es ↔
    (¬ Refuses (host.list p) ∧ ¬ Refuses (fallbackList point mounted p)) ∧
      ((host.list p).isOk = true ∨ (fallbackList point mounted p).isOk = true) ∧
      mergeListings [lines (host.list p), lines (fallbackList point mounted p)] = es := by
  have herror {e : TreeError} (h : mountListings host point mounted p = .error e) :
      mountList host point mounted p ≠ .ok es := by
    intro hes
    rw [mountList, h] at hes
    cases hes
  rw [mountListings_eq] at herror
  by_cases hhost : Refuses (host.list p)
  · obtain ⟨e, he⟩ := listing?_of_refuses hhost
    exact iff_of_false (herror (by rw [he]; rfl)) fun h => h.1.1 hhost
  by_cases hfallback : Refuses (fallbackList point mounted p)
  · obtain ⟨own, hown, -⟩ := listing?_of_not_refuses hhost
    obtain ⟨e, he⟩ := listing?_of_refuses hfallback
    exact iff_of_false (herror (by rw [hown, he]; rfl)) fun h => h.1.2 hfallback
  obtain ⟨own, hown, hlines, hsome⟩ := listing?_of_not_refuses hhost
  obtain ⟨others, hothers, hlines', hsome'⟩ := listing?_of_not_refuses hfallback
  have hall : mountListings host point mounted p = .ok (own ++ others) := by
    rw [mountListings_eq, hown, hothers]
    rfl
  have hmerge : mergeListings [own.flatten, others.flatten] = mergeListings (own ++ others) := by
    simp [mergeListings]
  rw [mountList_eq_ok hall, ← hsome, ← hsome', ← hlines, ← hlines', hmerge, Ne, Ne, Ne,
    List.append_eq_nil_iff, not_and_or]
  exact (and_iff_right ⟨hhost, hfallback⟩).symm

/-! ### Where the sides disagree -/

/-- The ways in which a host and what is shown behind it can disagree about a place. -/
inductive Clash (host : View) (point : Path) (mounted : View) (p : Path) : Prop where
  /-- The host has a directory, and the mounted tree refuses to list what it has at the same place,
  as a tree does that has a file there. -/
  | overRefused (q : Path) (own : host.kind p = some .dir) (inside : inner? point p = some q)
      (refused : Refuses (mounted.list q))
  /-- The host has nothing, but refuses a listing, and there is a directory behind it. -/
  | refused (own : host.kind p = none) (refused : Refuses (host.list p))
      (behind : fallbackKind point mounted p = some .dir)
  /-- The host has a file, but does not refuse a listing, and there is a directory behind it. -/
  | unrefused (own : host.kind p = some .file) (listed : ¬ Refuses (host.list p))
      (behind : fallbackKind point mounted p = some .dir)
  /-- The host has a directory, and something lies behind it in what is no directory. -/
  | looseBehind (name : String) (own : host.kind p = some .dir)
      (behind : fallbackKind point mounted p ≠ some .dir) (isName : Path.IsName name)
      (hidden : host.kind (p ++ [name]) = none)
      (below : fallbackKind point mounted (p ++ [name]) ≠ none)
  /-- The host has nothing, but something lies below it, and the directory behind lists another kind
  or nothing there. -/
  | loose (name : String) (kind : Kind) (own : host.kind p = none)
      (behind : fallbackKind point mounted p = some .dir) (isName : Path.IsName name)
      (below : host.kind (p ++ [name]) = some kind)
      (shown : fallbackChild point mounted p name ≠ some kind)
  /-- The mount point is listed as a directory, and there is none: neither in the host, nor at the
  root of the mounted tree. -/
  | rootless (name : String) (own : host.kind p ≠ some .file) (above : p ++ [name] = point)
      (hidden : host.kind point = none) (root : mounted.kind [] ≠ some .dir)

theorem refuses_fallbackList_iff :
    Refuses (fallbackList point mounted p) ↔ ∃ q, inner? point p = some q ∧
      Refuses (mounted.list q) := by
  unfold fallbackList
  cases inner? point p with
  | some q => exact ⟨fun h => ⟨q, rfl, h⟩, fun ⟨q, hq, h⟩ => Option.some.inj hq ▸ h⟩
  | none =>
    refine iff_of_false ?_ (by simp)
    rintro ⟨e, he, hnot⟩
    dsimp only at he
    split at he
    · cases he
    · cases he
      cases hnot

theorem not_refuses_of_isOk {r : Except TreeError (List Entry)} (h : r.isOk = true) :
    ¬ Refuses r := by
  rintro ⟨e, rfl, -⟩
  cases h

theorem fallbackKind_point : fallbackKind point mounted point = mounted.kind [] :=
  fallbackKind_of_inner? (inner?_eq_some_iff.2 (List.append_nil point).symm)

theorem fallbackKind_of_concat (h : p ++ [name] = point) :
    fallbackKind point mounted p = some .dir := by
  have habove : p.isAbove point = true := by
    rw [← h]
    simp [Path.isAbove]
  rw [fallbackKind, if_pos habove]

theorem lookup_lines {r : Except TreeError (List Entry)} {f : String → Option Kind}
    (h : ∀ es, r = .ok es → ∀ name kind, ⟨name, kind⟩ ∈ es ↔ Path.IsName name ∧ f name = some kind)
    (name : String) :
    Entry.lookup (lines r) name = if r.isOk = true ∧ Path.IsName name then f name else none := by
  cases r with
  | error e => rw [if_neg fun hok => nomatch hok.1]; rfl
  | ok es =>
    have hnamed (name : String) (kind : Kind) :
        ⟨name, kind⟩ ∈ es ↔ (if Path.IsName name then f name else none) = some kind := by
      rw [h es rfl]
      split <;> simp_all
    exact (Entry.lookup_eq hnamed name).trans (if_congr (and_iff_right rfl).symm rfl rfl)

section sides

variable (hhost : host.IsCoherent) (hmounted : mounted.IsCoherent) (hp : p.IsCanonical)
include hhost hmounted hp

theorem isOk_mountList_iff : (mountList host point mounted p).isOk = true ↔
    (¬ Refuses (host.list p) ∧ ¬ Refuses (fallbackList point mounted p)) ∧
      (host.kind p = some .dir ∨ fallbackKind point mounted p = some .dir) := by
  rw [← (hhost.agrees hp).isOk_list_iff, ← isOk_fallbackList_iff hmounted hp]
  constructor
  · intro h
    cases hes : mountList host point mounted p with
    | ok es =>
      obtain ⟨hnot, hok, -⟩ := mountList_eq_ok_iff.1 hes
      exact ⟨hnot, hok⟩
    | error e =>
      rw [hes] at h
      cases h
  · rintro ⟨hnot, hok⟩
    rw [mountList_eq_ok_iff.2 ⟨hnot, hok, rfl⟩]
    rfl

/-- A place of a mount is listed exactly if it is a directory, unless a side refuses its listing or
fails to refuse it. -/
theorem isOk_mountList_iff_kind (point : Path) :
    ((mountList host point mounted p).isOk = true ↔ mountKind host point mounted p = some .dir) ↔
      ¬ (host.kind p = some .dir ∧ Refuses (fallbackList point mounted p)) ∧
      ¬ (host.kind p = none ∧ Refuses (host.list p) ∧
          fallbackKind point mounted p = some .dir) ∧
      ¬ (host.kind p = some .file ∧ ¬ Refuses (host.list p) ∧
          fallbackKind point mounted p = some .dir) := by
  have hown : host.kind p = some .dir → ¬ Refuses (host.list p) := fun hdir =>
    not_refuses_of_isOk ((hhost.agrees hp).isOk_list_iff.2 hdir)
  have hbehind : fallbackKind point mounted p = some .dir →
      ¬ Refuses (fallbackList point mounted p) := fun hdir =>
    not_refuses_of_isOk ((isOk_fallbackList_iff hmounted hp).2 hdir)
  rw [isOk_mountList_iff hhost hmounted hp, mountKind_eq]
  cases hkind : host.kind p with
  | none => simp; tauto
  | some kind =>
    cases kind with
    | file => simp; tauto
    | dir => simp [hown hkind]

/-- What a mount lists in a directory: the lines of the host, and then those shown behind it. -/
theorem mem_mountList_iff (hpoint : point.IsCanonical) {es : List Entry}
    (hes : mountList host point mounted p = .ok es) :
    ⟨name, kind⟩ ∈ es ↔ Path.IsName name ∧
      ((if host.kind p = some .dir then host.kind (p ++ [name]) else none).or
        (if fallbackKind point mounted p = some .dir then fallbackChild point mounted p name
          else none)) = some kind := by
  obtain ⟨-, -, rfl⟩ := mountList_eq_ok_iff.1 hes
  rw [mem_mergeListings, List.flatten_cons, List.flatten_singleton, Entry.lookup_append,
    lookup_lines fun es hes name kind => (hhost.agrees hp).mem_iff es hes name kind,
    lookup_lines fun es hes name kind => mem_fallbackList_iff hmounted hpoint hp hes]
  simp only [(hhost.agrees hp).isOk_list_iff, isOk_fallbackList_iff hmounted hp]
  by_cases hname : Path.IsName name
  · simp only [hname, and_true, true_and]
  · simp [hname]

end sides

/-- A mount lists in a directory exactly what lies in it, unless something lies loose or the mount
point is no directory. -/
theorem children_eq_of_not_clash (h : ¬ Clash host point mounted p) (hname : Path.IsName name)
    (hdir : mountKind host point mounted p = some .dir) :
    (if host.kind p = some .dir then host.kind (p ++ [name]) else none).or
        (if fallbackKind point mounted p = some .dir then fallbackChild point mounted p name
          else none) =
      mountKind host point mounted (p ++ [name]) := by
  rw [mountKind_eq] at hdir ⊢
  have hchild (hown : host.kind p ≠ some .file) (hhidden : host.kind (p ++ [name]) = none) :
      fallbackChild point mounted p name = fallbackKind point mounted (p ++ [name]) := by
    unfold fallbackChild
    split
    · rename_i he
      rw [he, fallbackKind_point]
      by_contra hroot
      exact h (.rootless name hown he (he ▸ hhidden) fun hroot' => hroot hroot'.symm)
    · rfl
  cases hown : host.kind p with
  | none =>
    rw [hown, Option.none_or] at hdir
    rw [if_neg nofun, if_pos hdir, Option.none_or]
    cases hbelow : host.kind (p ++ [name]) with
    | none => exact hchild (hown ▸ nofun) hbelow
    | some kind =>
      rw [Option.some_or]
      by_contra hne
      exact h (.loose name kind hown hdir hname hbelow hne)
  | some kind =>
    rw [hown, Option.some_or] at hdir
    cases hdir
    rw [if_pos rfl]
    cases hbelow : host.kind (p ++ [name]) with
    | some kind => rfl
    | none =>
      rw [Option.none_or, Option.none_or]
      by_cases hbehind : fallbackKind point mounted p = some .dir
      · rw [if_pos hbehind]
        exact hchild (hown ▸ nofun) hbelow
      · rw [if_neg hbehind]
        by_contra hne
        exact h (.looseBehind name hown hbehind hname hbelow fun hnone => hne hnone.symm)

/-- Between coherent trees, a mount answers at a place as a coherent tree does exactly if its sides
do not disagree there. -/
theorem agrees_mount_iff (hhost : host.IsCoherent) (hmounted : mounted.IsCoherent)
    (hpoint : point.IsCanonical) (hp : p.IsCanonical) :
    (mount host point mounted).Agrees p ↔ ¬ Clash host point mounted p := by
  have hlisted := isOk_mountList_iff_kind hhost hmounted hp point
  constructor
  · intro hagrees hclash
    obtain ⟨hrefused, hmissing, hfile⟩ := hlisted.1 hagrees.isOk_list_iff
    -- where the mount has a directory, it lists what its sides list
    have hchildren (hdir : mountKind host point mounted p = some .dir) {name : String}
        (hname : Path.IsName name) :
        (if host.kind p = some .dir then host.kind (p ++ [name]) else none).or
            (if fallbackKind point mounted p = some .dir then fallbackChild point mounted p name
              else none) =
          mountKind host point mounted (p ++ [name]) := by
      cases hes : mountList host point mounted p with
      | error e =>
        have hok := hagrees.isOk_list_iff.2 hdir
        change (mountList host point mounted p).isOk = true at hok
        rw [hes] at hok
        cases hok
      | ok es =>
        refine Option.ext fun kind => ?_
        have hmem := (hagrees.mem_iff es hes name kind).symm.trans
          (mem_mountList_iff hhost hmounted hp hpoint hes)
        rw [and_iff_right hname, and_iff_right hname] at hmem
        exact hmem.symm
    cases hclash with
    | overRefused q own inside refused =>
      exact hrefused ⟨own, refuses_fallbackList_iff.2 ⟨q, inside, refused⟩⟩
    | refused own refused behind => exact hmissing ⟨own, refused, behind⟩
    | unrefused own listed behind => exact hfile ⟨own, listed, behind⟩
    | looseBehind name own behind isName hidden below =>
      have hchild := hchildren (by rw [mountKind_eq, own]; rfl) isName
      rw [if_pos own, if_neg behind, mountKind_eq, hidden] at hchild
      exact below hchild.symm
    | loose name kind own behind isName below shown =>
      have hchild := hchildren (by rw [mountKind_eq, own]; exact behind) isName
      rw [own, if_neg nofun, if_pos behind, mountKind_eq, below] at hchild
      exact shown hchild
    | rootless name own above hidden root =>
      have hbehind : fallbackKind point mounted p = some .dir := fallbackKind_of_concat above
      have hdir : mountKind host point mounted p = some .dir := by
        rw [mountKind_eq, hbehind]
        cases hown : host.kind p with
        | none => rfl
        | some kind =>
          cases kind with
          | file => exact absurd hown own
          | dir => rfl
      have hname : Path.IsName name := hpoint name (by simp [← above])
      have hchild := hchildren hdir hname
      rw [if_pos hbehind, fallbackChild, if_pos above, above, mountKind_eq, hidden,
        fallbackKind_point, ite_self, Option.none_or, Option.none_or] at hchild
      exact root hchild.symm
  · intro h
    have hiff := hlisted.2 ⟨fun ⟨own, hrefused⟩ => by
      obtain ⟨q, inside, refused⟩ := refuses_fallbackList_iff.1 hrefused
      exact h (.overRefused q own inside refused),
      fun ⟨own, refused, behind⟩ => h (.refused own refused behind),
      fun ⟨own, listed, behind⟩ => h (.unrefused own listed behind)⟩
    refine ⟨hiff, fun es hes => ?_, fun es hes => ?_, fun es hes name kind => ?_⟩
    · obtain ⟨-, -, rfl⟩ := mountList_eq_ok_iff.1 hes
      exact Entry.pairwise_sort _
    · obtain ⟨-, -, rfl⟩ := mountList_eq_ok_iff.1 hes
      exact nodup_mergeListings _
    · have hok : (mountList host point mounted p).isOk = true := by
        change mountList host point mounted p = .ok es at hes
        rw [hes]
        rfl
      rw [mem_mountList_iff hhost hmounted hp hpoint hes]
      exact and_congr_right fun hname => by
        rw [children_eq_of_not_clash h hname (hiff.1 hok)]
        rfl

/-- Between coherent trees, a mount answers at a written path as a coherent tree does exactly if the
path is no place, or its sides do not disagree about the place. -/
theorem agreesAt_mount_iff (hhost : host.IsCoherent) (hmounted : mounted.IsCoherent)
    (mountPoint path : String) :
    (mount host ((Path.read? mountPoint).getD []) mounted).AgreesAt path ↔
      ∀ p, Path.read? path = some p →
        ¬ Clash host ((Path.read? mountPoint).getD []) mounted p := by
  have hpoint : Path.IsCanonical ((Path.read? mountPoint).getD []) := by
    cases hread : Path.read? mountPoint with
    | none => nofun
    | some point => exact Path.isCanonical_of_read? hread
  cases hp : Path.read? path with
  | none => exact iff_of_true (agreesAt_of_read?_eq_none hp) nofun
  | some p =>
    rw [agreesAt_iff hp, agrees_mount_iff hhost hmounted hpoint (Path.isCanonical_of_read? hp)]
    constructor
    · rintro h _ ⟨⟩
      exact h
    · intro h
      exact h p rfl

/-! ### Trees without loose ends -/

/-- The tree finds nothing to list exactly where it has nothing, and nothing lies in it below what
is no directory. -/
structure IsPlain (v : View) : Prop where
  isNotFound_iff : ∀ p e, v.list p = .error e → (e.isNotFound = true ↔ v.kind p = none)
  kind_of_child : ∀ p name, v.kind (p ++ [name]) ≠ none → v.kind p = some .dir

theorem IsPlain.refuses_iff (hplain : v.IsPlain) (h : v.Agrees p) :
    Refuses (v.list p) ↔ v.kind p = some .file := by
  cases hlist : v.list p with
  | ok es =>
    have hdir := h.isOk_list_iff.1 (by rw [hlist]; rfl)
    rw [hdir]
    exact iff_of_false nofun nofun
  | error e =>
    have hnotDir : v.kind p ≠ some .dir := by
      intro hdir
      have hok := h.isOk_list_iff.2 hdir
      rw [hlist] at hok
      cases hok
    have hnone := hplain.isNotFound_iff p e hlist
    constructor
    · rintro ⟨_, ⟨⟩, he⟩
      cases hkind : v.kind p with
      | none => exact absurd (hnone.2 hkind) (he ▸ Bool.false_ne_true)
      | some kind =>
        cases kind with
        | file => rfl
        | dir => exact absurd hkind hnotDir
    · intro hfile
      refine ⟨e, rfl, Bool.eq_false_iff.2 fun he => ?_⟩
      rw [hnone.1 he] at hfile
      cases hfile

theorem IsPlain.fallbackKind_of_child (hplain : mounted.IsPlain)
    (h : fallbackKind point mounted (p ++ [name]) ≠ none) :
    fallbackKind point mounted p = some .dir := by
  unfold fallbackKind at h
  split at h
  · rename_i habove
    obtain ⟨hpre, hne⟩ := Path.isAbove_iff.1 habove
    have hpre' : p <+: point := (List.prefix_append p [name]).trans hpre
    have hne' : p ≠ point := by
      rintro rfl
      have hlength := hpre.length_le
      rw [List.length_append, List.length_singleton] at hlength
      omega
    rw [fallbackKind, if_pos (Path.isAbove_iff.2 ⟨hpre', hne'⟩)]
  · cases hq : inner? point (p ++ [name]) with
    | none =>
      rw [hq] at h
      exact absurd rfl h
    | some q =>
      rw [hq] at h
      have heq := inner?_eq_some hq
      rcases List.eq_nil_or_concat q with rfl | ⟨q, last, rfl⟩
      · exact fallbackKind_of_concat (heq.trans (List.append_nil point))
      · rw [List.concat_eq_append, ← List.append_assoc] at heq
        obtain ⟨rfl, -⟩ := List.append_inj' heq rfl
        rw [fallbackKind_of_inner? (inner?_eq_some_iff.2 rfl)]
        rw [List.concat_eq_append] at h
        exact hplain.kind_of_child q last h

/-- Between coherent trees without loose ends, a mount answers at a place as a coherent tree does,
unless the host has a directory over a file of the mounted tree, or the place is directly above a
mount point at which there is no directory. -/
theorem agrees_mount_iff_of_plain (hhost : host.IsCoherent) (hmounted : mounted.IsCoherent)
    (hhostPlain : host.IsPlain) (hmountedPlain : mounted.IsPlain) (hpoint : point.IsCanonical)
    (hp : p.IsCanonical) :
    (mount host point mounted).Agrees p ↔
      (∀ q, inner? point p = some q → host.kind p = some .dir → mounted.kind q ≠ some .file) ∧
        ∀ name, p ++ [name] = point → host.kind p ≠ some .file → host.kind point = none →
          mounted.kind [] = some .dir := by
  rw [agrees_mount_iff hhost hmounted hpoint hp]
  have hrefuses := hhostPlain.refuses_iff (hhost.agrees hp)
  constructor
  · intro h
    refine ⟨fun q inside own hfile => ?_, fun name above own hidden => ?_⟩
    · have hq : q.IsCanonical := fun name hname =>
        hp name (inner?_eq_some inside ▸ List.mem_append_right _ hname)
      exact h (.overRefused q own inside ((hmountedPlain.refuses_iff (hmounted.agrees hq)).2 hfile))
    · by_contra root
      exact h (.rootless name own above hidden root)
  · rintro ⟨hover, hroot⟩ hclash
    cases hclash with
    | overRefused q own inside refused =>
      have hq : q.IsCanonical := fun name hname =>
        hp name (inner?_eq_some inside ▸ List.mem_append_right _ hname)
      exact hover q inside own ((hmountedPlain.refuses_iff (hmounted.agrees hq)).1 refused)
    | refused own refused behind =>
      rw [hrefuses.1 refused] at own
      cases own
    | unrefused own listed behind => exact listed (hrefuses.2 own)
    | looseBehind name own behind isName hidden below =>
      exact behind (hmountedPlain.fallbackKind_of_child below)
    | loose name kind own behind isName below shown =>
      have hdir := hhostPlain.kind_of_child p name (below ▸ nofun)
      rw [own] at hdir
      cases hdir
    | rootless name own above hidden root => exact root (hroot name above own hidden)

end View

/-! ### Trees held in memory -/

namespace MemoryTree

variable {t : MemoryTree} {dir p : Path} {name : String} {kind : Kind}

theorem mem_entries_iff (h : ∀ p, ¬ t.IsBoth p) :
    ⟨name, kind⟩ ∈ t.entries dir ↔ t.kind (dir ++ [name]) = some kind := by
  rw [mem_entries]
  cases kind with
  | file =>
    rw [kind_eq_file_iff, iff_and_self]
    exact fun hmem hdir => h _ ⟨hmem, hdir⟩
  | dir => rfl

theorem nodup_names_entries (h : ∀ p, ¬ t.IsBoth p) (dir : Path) :
    ((t.entries dir).map Entry.name).Nodup := by
  refine List.Nodup.map_on ?_ (nodup_entries t dir)
  rintro ⟨name, kind⟩ hmem ⟨name', kind'⟩ hmem' rfl
  have hkind := (mem_entries_iff h).1 hmem
  rw [(mem_entries_iff h).1 hmem'] at hkind
  cases hkind
  rfl

/-- A tree held in memory in which no place is both a file and a directory is coherent. -/
theorem isCoherent_view (ht : t.IsClosed) (h : ∀ p, ¬ t.IsBoth p) : t.view.IsCoherent where
  agreesAt path p hp := by
    rw [View.agreesAt_iff hp]
    have hentries {es : List Entry} (hes : t.view.list p = .ok es) : es = t.entries p := by
      change t.list p = .ok es at hes
      unfold list at hes
      split at hes <;> cases hes
      rfl
    refine ⟨t.isOk_list_iff, fun es hes => ?_, fun es hes => ?_, fun es hes name kind => ?_⟩
    · exact hentries hes ▸ Entry.pairwise_sort _
    · exact hentries hes ▸ nodup_names_entries h p
    · rw [hentries hes, mem_entries_iff h]
      refine (and_iff_right_of_imp fun hkind => ?_).symm
      have hthere : t.kind (p ++ [name]) = some .dir ∨ p ++ [name] ∈ t.files := by
        cases kind with
        | dir => exact .inl hkind
        | file => exact .inr (kind_eq_file_iff.1 hkind).2
      exact (ht _ (by simp) hthere).1 name (by simp)
  isOk_readAt_iff path p hp := by
    have hread : t.view.readAt path = t.read p := by
      rw [View.readAt, locate_eq_ok.2 hp]
      rfl
    have hkind : t.view.kindAt path = t.kind p := by
      rw [View.kindAt, hp]
      rfl
    rw [hread, hkind, kind_eq_file_iff, and_iff_right_of_imp fun hmem hdir => h p ⟨hmem, hdir⟩,
      mem_files_iff]
    unfold read
    cases t.files[p]? with
    | none => exact iff_of_false Bool.false_ne_true (by simp)
    | some content => exact iff_of_true rfl ⟨content, rfl⟩

theorem isPlain_view (ht : t.IsClosed) : t.view.IsPlain where
  isNotFound_iff p e he := by
    change t.list p = .error e at he
    change _ ↔ t.kind p = none
    unfold list at he
    split at he <;> cases he <;> simp_all [TreeError.isNotFound]
  kind_of_child p name h := by
    change t.kind (p ++ [name]) ≠ none at h
    have hthere : t.kind (p ++ [name]) = some .dir ∨ p ++ [name] ∈ t.files := by
      cases hkind : t.kind (p ++ [name]) with
      | none => exact absurd hkind h
      | some kind =>
        cases kind with
        | dir => exact .inl rfl
        | file => exact .inr (kind_eq_file_iff.1 hkind).2
    have hdir := (ht _ (by simp) hthere).2
    rwa [List.dropLast_concat] at hdir

/-! ### A file behind a directory -/

/-- A host with a file in the directory `d`. -/
def directoryHost : MemoryTree :=
  ((∅ : MemoryTree).addDirs ["src", "d"]).put ["src", "d", "x"] "1".toByteArray

/-- A tree with a file `d`. -/
def fileBehind : MemoryTree := (∅ : MemoryTree).put ["d"] "2".toByteArray

theorem isCoherent_of_only_file {content : ByteArray} (ht : t.Reachable)
    (hfiles : t.files = (∅ : Std.ExtTreeMap Path ByteArray compare).insert p content)
    (hdir : t.kind p ≠ some .dir) : t.view.IsCoherent ∧ t.view.IsPlain := by
  have hclosed := isClosed_of_reachable ht
  refine ⟨isCoherent_view hclosed ?_, isPlain_view hclosed⟩
  rintro q ⟨hmem, hboth⟩
  rw [hfiles, Std.ExtTreeMap.mem_insert] at hmem
  rcases hmem with he | hmem
  · rw [Std.LawfulEqOrd.compare_eq_iff_eq.1 he] at hdir
    exact hdir hboth
  · exact Std.ExtTreeMap.not_mem_empty hmem

theorem isCoherent_directoryHost : directoryHost.view.IsCoherent ∧ directoryHost.view.IsPlain := by
  have hwrite : (∅ : MemoryTree).writeAt "src/d/x" "1".toByteArray = .ok directoryHost := rfl
  exact isCoherent_of_only_file (.write .empty hwrite) rfl (by decide +kernel)

theorem isCoherent_fileBehind : fileBehind.view.IsCoherent ∧ fileBehind.view.IsPlain := by
  have hwrite : (∅ : MemoryTree).writeAt "d" "2".toByteArray = .ok fileBehind := rfl
  exact isCoherent_of_only_file (.write .empty hwrite) rfl (by decide +kernel)

end MemoryTree

namespace View

open MemoryTree (directoryHost fileBehind isCoherent_directoryHost isCoherent_fileBehind)

/-- Mounted at `src`, the tree with the file `d` agrees with the host about `src` and not about
`src/d`. -/
theorem agreesAt_src_of_mount :
    directoryHost.view.IsCoherent ∧ fileBehind.view.IsCoherent ∧
      (mount directoryHost.view ((Path.read? "src").getD []) fileBehind.view).AgreesAt "src" ∧
      ¬ (mount directoryHost.view ((Path.read? "src").getD []) fileBehind.view).AgreesAt
        "src/d" := by
  obtain ⟨hhost, hhostPlain⟩ := isCoherent_directoryHost
  obtain ⟨hmounted, hmountedPlain⟩ := isCoherent_fileBehind
  have hread : (Path.read? "src").getD [] = ["src"] := by decide +kernel
  refine ⟨hhost, hmounted, (agreesAt_mount_iff hhost hmounted "src" "src").2 ?_, fun hagrees => ?_⟩
  · intro p hp
    have hsrc : p = ["src"] := Option.some.inj (hp.symm.trans (by decide +kernel))
    subst hsrc
    rw [hread, ← agrees_mount_iff hhost hmounted (by decide) (by decide),
      agrees_mount_iff_of_plain hhost hmounted hhostPlain hmountedPlain (by decide) (by decide)]
    refine ⟨fun q hq _ => ?_, fun name hname => ?_⟩
    · have hroot : q = [] := by simpa using inner?_eq_some hq
      subst hroot
      decide +kernel
    · simp at hname
  · refine (agreesAt_mount_iff hhost hmounted "src" "src/d").1 hagrees ["src", "d"]
      (by decide +kernel) ?_
    rw [hread]
    exact .overRefused ["d"] (by decide +kernel) (by decide) ⟨.notADirectory "d", rfl, rfl⟩

/-- So a mount of coherent trees can have a directory that it does not list. -/
theorem not_listed_of_mount :
    ¬ ∀ (host mounted : View) (mountPoint path : String), host.IsCoherent → mounted.IsCoherent →
      let v := mount host ((Path.read? mountPoint).getD []) mounted
      ((v.listAt path).isOk = true ↔ v.kindAt path = some .dir) ∧
        ∀ es, v.listAt path = .ok es → (es.map Entry.name).Nodup ∧
          ∀ name kind, ⟨name, kind⟩ ∈ es ↔
            Path.IsName name ∧ v.kindAt (Path.join path name) = some kind := by
  intro h
  have hlisted := (h directoryHost.view fileBehind.view "src" "src/d" isCoherent_directoryHost.1
    isCoherent_fileBehind.1).1
  have hkind : (mount directoryHost.view ((Path.read? "src").getD []) fileBehind.view).kindAt
    "src/d" = some .dir := by decide +kernel
  have hlist : ((mount directoryHost.view ((Path.read? "src").getD []) fileBehind.view).listAt
    "src/d").isOk = false := by decide +kernel
  exact Bool.false_ne_true (hlist.symm.trans (hlisted.2 hkind))

end View

end Playground
