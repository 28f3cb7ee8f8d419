import Playground.Digest
import Playground.Tree.View

/-!
# Composed trees

`View.mount` shows a second tree under a place of a host tree: what the host does not have is
looked up there.  Directories of both sides are merged, the host's entries first.
`View.overlay` stacks trees: a path belongs to the first layer that has it, and directories are
not merged, so that a directory in an earlier layer hides the same directory in a later one.
-/

namespace Playground.View

/-! ### Mounting -/

/-- The place inside the mounted tree that a place of the host stands for. -/
def inner? (point p : Path) : Option Path :=
  if point.isPrefixOf p then some (p.drop point.length) else none

/-- Listings merged by name; the first listing that has a name decides what it is. -/
def mergeListings (listings : List (List Entry)) : List Entry :=
  let kinds : Named Kind :=
    listings.flatten.foldl (fun kinds e => kinds.insertIfNew e.name e.kind) ∅
  Entry.sort (kinds.toList.map fun (name, kind) => ⟨name, kind⟩)

/-- A listing that may be missing; any other failure is passed on. -/
def listing? (r : Except TreeError (List Entry)) : Except TreeError (List (List Entry)) :=
  match r with
  | .ok es => .ok [es]
  | .error e => if e.isNotFound then .ok [] else .error e

/-- The next name on the way from `p` to the mount point, as a listing. -/
def wayListing (point p : Path) : List (List Entry) :=
  if p.isAbove point then (point[p.length]?).toList.map fun name => [⟨name, .dir⟩] else []

/-- The listings that make up a directory of a mounted tree. -/
def mountListings (host : View) (point : Path) (mounted : View) (p : Path) :
    Except TreeError (List (List Entry)) := do
  let own ← listing? (host.list p)
  match inner? point p with
  | some q => return own ++ (← listing? (mounted.list q))
  | none => return own ++ wayListing point p

/-- The listing of a directory of a mounted tree. -/
def mountList (host : View) (point : Path) (mounted : View) (p : Path) :
    Except TreeError (List Entry) :=
  match mountListings host point mounted p with
  | .error e => .error e
  | .ok [] => .error (.notFound p.text)
  | .ok listings => .ok (mergeListings listings)

def mountRead (host : View) (point : Path) (mounted : View) (p : Path) :
    Except TreeError ByteArray :=
  match host.read p with
  | .ok content => .ok content
  | .error e =>
    if e.isNotFound then
      match inner? point p with
      | some q => mounted.read q
      | none => .error e
    else .error e

/-- What there is at a place of a mounted tree. -/
def mountKind (host : View) (point : Path) (mounted : View) (p : Path) : Option Kind :=
  match host.kind p with
  | some kind => some kind
  | none => if p.isAbove point then some .dir else inner? point p >>= mounted.kind

theorem listing?_ne_nil {r : Except TreeError (List Entry)} {es : List (List Entry)}
    (h : listing? r = .ok es) (hne : es ≠ []) : r.isOk = true := by
  unfold listing? at h
  split at h
  · rfl
  · split at h <;> simp_all

/-- A directory of a mounted tree is one of the host, one of the mounted tree, or on the way to
the mount point. -/
theorem isOk_of_isOk_mountList {host mounted : View} {point p : Path}
    (h : (mountList host point mounted p).isOk = true) :
    (host.list p).isOk = true ∨ (∃ q, inner? point p = some q ∧ (mounted.list q).isOk = true) ∨
      p.isAbove point = true := by
  unfold mountList at h
  split at h
  · simp [Except.isOk, Except.toBool] at h
  · simp [Except.isOk, Except.toBool] at h
  · rename_i listings hne hl
    unfold mountListings at hl
    cases h1 : listing? (host.list p) with
    | error e => rw [h1] at hl; cases hl
    | ok own =>
      rw [h1] at hl
      by_cases hown : own = []
      · subst hown
        cases h2 : inner? point p with
        | none =>
          rw [h2] at hl
          have hl' : wayListing point p = listings := by
            simpa [bind, Except.bind, pure, Except.pure] using hl
          refine .inr (.inr ?_)
          unfold wayListing at hl'
          split at hl'
          · assumption
          · exact absurd hl'.symm hne
        | some q =>
          rw [h2] at hl
          cases h3 : listing? (mounted.list q) with
          | error e => simp [h3, bind, Except.bind] at hl
          | ok es =>
            simp only [h3, bind, Except.bind, pure, Except.pure, List.nil_append,
              Except.ok.injEq] at hl
            exact .inr (.inl ⟨q, rfl, listing?_ne_nil h3 (hl ▸ hne)⟩)
      · exact .inl (listing?_ne_nil h1 hown)

/-- The mount point and the places above it. -/
def wayPlaces (point : Path) : List Path := (List.range point.length).map point.take

theorem mem_wayPlaces {point p : Path} (h : p.isAbove point = true) : p ∈ wayPlaces point := by
  simp only [Path.isAbove, Bool.and_eq_true, decide_eq_true_eq, List.isPrefixOf_iff_prefix] at h
  refine List.mem_map.2 ⟨p.length, List.mem_range.2 h.2, ?_⟩
  exact (List.prefix_iff_eq_take.1 h.1).symm

theorem inner?_eq_some {point p q : Path} (h : inner? point p = some q) : p = point ++ q := by
  unfold inner? at h
  split at h
  · rename_i hp
    cases h
    obtain ⟨r, rfl⟩ := List.isPrefixOf_iff_prefix.1 hp
    simp
  · cases h

theorem nodup_filterMap_inner? {point : Path} {places : List Path} (h : places.Nodup) :
    (places.filterMap (inner? point)).Nodup := by
  refine List.Pairwise.filterMap _ ?_ h
  intro a b hab q hq r hr e
  subst e
  exact hab ((inner?_eq_some hq).trans (inner?_eq_some hr).symm)

/-- The host with `mounted` shown under `point`. -/
def mount (host : View) (point : Path) (mounted : View) : View where
  read := mountRead host point mounted
  list := mountList host point mounted
  kind := mountKind host point mounted
  breadth := host.breadth + (mounted.breadth + point.length)
  le_breadth := by
    intro places hnodup hok
    have hhost := host.le_breadth (places.filter fun p => (host.list p).isOk) (hnodup.filter _)
      fun p hp => by simpa using (List.mem_filter.1 hp).2
    let others := places.filter fun p => !(host.list p).isOk
    have hothers : others.Nodup := hnodup.filter _
    let inside (p : Path) : Bool := (inner? point p).any fun q => (mounted.list q).isOk
    have hinside : (others.filter inside).length ≤ mounted.breadth := by
      have hlen : ((others.filter inside).filterMap (inner? point)).length =
          (others.filter inside).length := by
        rw [List.length_filterMap_eq_countP, List.countP_eq_length]
        intro p hp
        have := (List.mem_filter.1 hp).2
        revert this
        cases h : inner? point p <;> simp [inside, h]
      rw [← hlen]
      refine mounted.le_breadth _ (nodup_filterMap_inner? (hothers.filter _)) fun q hq => ?_
      obtain ⟨p, hp, hpq⟩ := List.mem_filterMap.1 hq
      have := (List.mem_filter.1 hp).2
      simpa [inside, hpq] using this
    have hway : (others.filter fun p => !inside p).length ≤ point.length := by
      have : (wayPlaces point).length = point.length := by simp [wayPlaces]
      rw [← this]
      refine length_le_of_subset (hothers.filter _) fun p hp => ?_
      obtain ⟨hp, hni⟩ := List.mem_filter.1 hp
      obtain ⟨hp, hnh⟩ := List.mem_filter.1 hp
      rcases isOk_of_isOk_mountList (hok p hp) with h | ⟨q, hq, h⟩ | h
      · simp [h] at hnh
      · simp [inside, hq, h] at hni
      · exact mem_wayPlaces h
    have h1 : _ + others.length = _ := length_filter_add places fun p => (host.list p).isOk
    have h2 := length_filter_add others inside
    omega

/-! ### Stacking -/

/-- The position of the first layer that has something at a place. -/
def layerOf? (layers : List View) (p : Path) : Option Nat :=
  layers.findIdx? fun layer => (layer.kind p).isSome

/-- The first layer that has something at a place. -/
def layer? (layers : List View) (p : Path) : Option View :=
  layers.find? fun layer => (layer.kind p).isSome

/-- The content of a file of a stack: the first answer of a layer other than that there is
nothing. -/
def overlayRead : List View → Path → Except TreeError ByteArray
  | [], p => .error (.notFound p.text)
  | layer :: layers, p =>
    match layer.read p with
    | .ok content => .ok content
    | .error e => if e.isNotFound then overlayRead layers p else .error e

def overlayList (layers : List View) (p : Path) : Except TreeError (List Entry) :=
  match layer? layers p with
  | some layer => layer.list p
  | none => .error (.notFound p.text)

/-- The breadth of all layers of a stack together. -/
def totalBreadth : List View → Nat
  | [] => 0
  | layer :: layers => layer.breadth + totalBreadth layers

theorem length_le_of_layers (layers : List View) (places : List Path) (hnodup : places.Nodup)
    (h : ∀ p ∈ places, ∃ layer ∈ layers, (layer.list p).isOk = true) :
    places.length ≤ totalBreadth layers := by
  induction layers generalizing places with
  | nil =>
    cases places with
    | nil => simp
    | cons p _ => simpa using h p List.mem_cons_self
  | cons layer layers ih =>
    have h1 := layer.le_breadth (places.filter fun p => (layer.list p).isOk) (hnodup.filter _)
      fun p hp => by simpa using (List.mem_filter.1 hp).2
    have h2 := ih (places.filter fun p => !(layer.list p).isOk) (hnodup.filter _) fun p hp => by
      obtain ⟨hp, hn⟩ := List.mem_filter.1 hp
      obtain ⟨other, hmem, hok⟩ := h p hp
      rcases List.mem_cons.1 hmem with rfl | hmem
      · simp [hok] at hn
      · exact ⟨other, hmem, hok⟩
    have h3 := length_filter_add places fun p => (layer.list p).isOk
    simp only [totalBreadth]
    omega

/-- A stack of trees, the first on top. -/
def overlay (layers : List View) : View where
  read := overlayRead layers
  list := overlayList layers
  kind p := layers.findSome? fun layer => layer.kind p
  breadth := totalBreadth layers
  le_breadth := by
    intro places hnodup hok
    refine length_le_of_layers layers places hnodup fun p hp => ?_
    have := hok p hp
    unfold overlayList at this
    split at this
    · rename_i layer hl
      exact ⟨layer, List.mem_of_find?_eq_some hl, this⟩
    · simp [Except.isOk, Except.toBool] at this

end Playground.View
