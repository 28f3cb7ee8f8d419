import Mathlib.Tactic.ByContra
import Playground.Proofs.Tree.Disk

/-!
# Walks on the disk

`Disk.Leads` says where a walk ends that succeeds.  Such a walk depends on the directories and links
that it passes and on what stands at its end, and on nothing else: a disk that keeps these leads to
the same end (`Leads.transfer`).
-/

namespace Playground.Disk

/-- Whether nothing but separators is left of a written path. -/
def IsEnd (rest : List String) : Prop := rest.all (· = "") = true

/-- A name that a walk looks up: it is no mere step, not too long, and not refused as the name of a
directory. -/
structure IsLookedUp (purpose : Purpose) (name : String) (rest : List String) : Prop where
  plain : ¬ (name = "" ∨ name = ".")
  down : name ≠ ".."
  fits : ¬ name.utf8ByteSize > nameLimit
  written : ¬ (purpose = .file ∧ rest ≠ [] ∧ IsEnd rest)

/-- Where the walk from a directory ends. -/
inductive Leads (d : Disk) (purpose : Purpose) : Nat → Path → List String → Spot → Prop where
  | here {links : Nat} {place : Path} :
      Leads d purpose links place [] (.taken place ((d.node? place).getD .dir))
  | idle {links : Nat} {place : Path} {name : String} {rest : List String} {spot : Spot}
      (hname : name = "" ∨ name = ".") (h : Leads d purpose links place rest spot) :
      Leads d purpose links place (name :: rest) spot
  | up {links : Nat} {place : Path} {rest : List String} {spot : Spot}
      (h : Leads d purpose links place.dropLast rest spot) :
      Leads d purpose links place (".." :: rest) spot
  | free {links : Nat} {place : Path} {name : String} {rest : List String}
      (hname : IsLookedUp purpose name rest) (hnode : d.node? (place ++ [name]) = none)
      (hend : IsEnd rest) : Leads d purpose links place (name :: rest) (.free (place ++ [name]))
  | entry {links : Nat} {place : Path} {name : String} {rest : List String} {node : Node}
      (hname : IsLookedUp purpose name rest) (hnode : d.node? (place ++ [name]) = some node)
      (hpurpose : purpose = .entry) (hend : IsEnd rest) :
      Leads d purpose links place (name :: rest) (.taken (place ++ [name]) node)
  | file {links : Nat} {place : Path} {name : String} {content : ByteArray}
      (hname : IsLookedUp purpose name [])
      (hnode : d.node? (place ++ [name]) = some (.file content)) :
      Leads d purpose links place [name] (.taken (place ++ [name]) (.file content))
  | dir {links : Nat} {place : Path} {name : String} {rest : List String} {spot : Spot}
      (hname : IsLookedUp purpose name rest) (hnode : d.node? (place ++ [name]) = some .dir)
      (hentry : ¬ (purpose = .entry ∧ IsEnd rest))
      (h : Leads d purpose links (place ++ [name]) rest spot) :
      Leads d purpose links place (name :: rest) spot
  | look {links : Nat} {place : Path} {name target : String} (hname : IsLookedUp purpose name [])
      (hnode : d.node? (place ++ [name]) = some (.link target)) (hpurpose : purpose = .look) :
      Leads d purpose links place [name] (.taken (place ++ [name]) (.link target))
  | link {links : Nat} {place : Path} {name target : String} {rest : List String} {spot : Spot}
      (hname : IsLookedUp purpose name rest)
      (hnode : d.node? (place ++ [name]) = some (.link target))
      (hentry : ¬ (purpose = .entry ∧ IsEnd rest)) (hlook : ¬ (purpose = .look ∧ rest = []))
      (htarget : target ≠ "")
      (h : Leads d purpose links (if DiskPath.isAbsolute target then [] else place)
        (names target ++ rest) spot) :
      Leads d purpose (links + 1) place (name :: rest) spot

variable {d e : Disk} {purpose : Purpose} {links : Nat} {place p q : Path} {name path : String}
  {todo rest : List String} {node node' : Node} {spot : Spot} {content : ByteArray}

theorem IsLookedUp.walk_eq (h : IsLookedUp purpose name rest) :
    d.walk purpose links place (name :: rest) =
      match d.node? (place ++ [name]) with
      | none => if rest.all (· = "") then .ok (.free (place ++ [name])) else .error .missing
      | some node =>
        if purpose = .entry ∧ rest.all (· = "") then .ok (.taken (place ++ [name]) node)
        else
          match node with
          | .file content =>
            if rest = [] then .ok (.taken (place ++ [name]) (.file content))
            else .error .notADirectory
          | .dir => d.walk purpose links (place ++ [name]) rest
          | .link target =>
            if purpose = .look ∧ rest = [] then .ok (.taken (place ++ [name]) (.link target))
            else if target = "" then .error .missing
            else
              match links with
              | 0 => .error .tooManyLinks
              | links + 1 =>
                d.walk purpose links (if DiskPath.isAbsolute target then [] else place)
                  (names target ++ rest) := by
  have hwritten : ¬ (purpose = .file ∧ rest ≠ [] ∧ rest.all (· = "") = true) := h.written
  rw [walk, if_neg h.plain, if_neg h.down, if_neg hwritten]
  exact if_neg h.fits

theorem walk_eq_ok_iff :
    d.walk purpose links place todo = .ok spot ↔ d.Leads purpose links place todo spot := by
  constructor
  · intro h
    fun_induction walk d purpose links place todo with
    | case1 => cases h; exact .here
    | case2 _ _ _ _ hname ih => exact .idle hname (ih h)
    | case3 _ _ _ _ ih => exact .up (ih h)
    | case6 _ _ _ _ h₁ h₂ h₃ h₄ _ hnode hend => cases h; exact .free ⟨h₁, h₂, h₄, h₃⟩ hnode hend
    | case8 _ _ _ _ h₁ h₂ h₃ h₄ _ _ hnode hentry =>
      cases h
      exact .entry ⟨h₁, h₂, h₄, h₃⟩ hnode hentry.1 hentry.2
    | case9 _ _ _ h₁ h₂ h₄ _ _ h₃ _ hnode => cases h; exact .file ⟨h₁, h₂, h₄, h₃⟩ hnode
    | case11 _ _ _ _ h₁ h₂ h₃ h₄ _ hentry hnode ih =>
      exact .dir ⟨h₁, h₂, h₄, h₃⟩ hnode hentry (ih h)
    | case12 _ _ _ _ h₁ h₂ h₃ h₄ _ _ _ hlook hnode =>
      cases h
      obtain ⟨hpurpose, rfl⟩ := hlook
      exact .look ⟨h₁, h₂, h₄, h₃⟩ hnode hpurpose
    | case15 _ _ _ h₁ h₂ h₃ h₄ _ hentry _ hlook htarget _ hnode ih =>
      exact .link ⟨h₁, h₂, h₄, h₃⟩ hnode hentry hlook htarget (ih h)
    | _ => cases h
  · intro h
    induction h with
    | here => rw [walk]
    | idle hname _ ih => rw [walk, if_pos hname, ih]
    | up _ ih =>
      rw [walk, if_neg (by decide), if_pos rfl, ih]
    | free hname hnode hend => rw [hname.walk_eq, hnode]; exact if_pos hend
    | entry hname hnode hpurpose hend =>
      rw [hname.walk_eq, hnode]
      exact if_pos ⟨hpurpose, hend⟩
    | file hname hnode =>
      rw [hname.walk_eq, hnode]
      exact ite_self _
    | dir hname hnode hentry _ ih =>
      rw [hname.walk_eq, hnode]
      exact (if_neg hentry).trans ih
    | look hname hnode hpurpose =>
      rw [hname.walk_eq, hnode]
      simp [hpurpose]
    | link hname hnode hentry hlook htarget _ ih =>
      rw [hname.walk_eq, hnode]
      refine (if_neg hentry).trans ?_
      simpa [hlook, htarget] using ih

/-! ### Where walks end -/

theorem IsLookedUp.of_ne_file {purpose' : Purpose} (h : IsLookedUp purpose name rest)
    (hpurpose : purpose' ≠ .file) : IsLookedUp purpose' name rest :=
  ⟨h.plain, h.down, h.fits, fun hwritten => hpurpose hwritten.1⟩

theorem leads_here (h : d.node? p = some node) : d.Leads purpose links p [] (.taken p node) := by
  have hhere : d.Leads purpose links p [] (.taken p ((d.node? p).getD .dir)) := .here
  rwa [h, Option.getD_some] at hhere

theorem leads_of_isEnd (h : IsEnd rest) :
    d.Leads purpose links place rest spot ↔ spot = .taken place ((d.node? place).getD .dir) := by
  induction rest with
  | nil =>
    constructor
    · rintro ⟨⟩
      rfl
    · rintro rfl
      exact .here
  | cons name rest ih =>
    simp only [IsEnd, List.all_cons, Bool.and_eq_true, decide_eq_true_eq] at h
    obtain ⟨rfl, hrest⟩ := h
    rw [← ih hrest, ← walk_eq_ok_iff, walk, if_pos (.inl rfl), walk_eq_ok_iff]

/-- A walk that ends at a free name ends below the root, where nothing is. -/
theorem Leads.of_free (h : d.Leads purpose links place todo (.free p)) :
    p ≠ [] ∧ d.node? p = none := by
  generalize hspot : Spot.free p = spot at h
  induction h with
  | here => cases hspot
  | idle _ _ ih | up _ ih | dir _ _ _ _ ih | link _ _ _ _ _ _ ih => exact ih hspot
  | free _ hnode =>
    cases hspot
    exact ⟨by simp, hnode⟩
  | entry | file | look => cases hspot

theorem Leads.of_taken (h : d.Leads purpose links place todo (.taken p node)) (hdir : node ≠ .dir) :
    p ≠ [] ∧ d.node? p = some node := by
  have hroot : d.node? p = some node → p ≠ [] := by
    rintro hnode rfl
    cases hnode
    exact hdir rfl
  suffices hnode : d.node? p = some node from ⟨hroot hnode, hnode⟩
  generalize hspot : Spot.taken p node = spot at h
  induction h with
  | here =>
    cases hspot
    cases hnode : d.node? p with
    | none =>
      rw [hnode] at hdir
      exact absurd rfl hdir
    | some node => rw [Option.getD_some]
  | idle _ _ ih | up _ ih | dir _ _ _ _ ih | link _ _ _ _ _ _ ih => exact ih hspot
  | free => cases hspot
  | entry _ hnode | file _ hnode | look _ hnode =>
    cases hspot
    exact hnode

/-! ### Disks that keep what a walk passes -/

/-- Whether a walk may go on from a node. -/
def Node.isWay : Node → Bool
  | .file _ => false
  | .dir | .link _ => true

/-- A disk that keeps the directories and links of another. -/
structure KeepsWays (d e : Disk) : Prop where
  workingDir : e.workingDir = d.workingDir
  node : ∀ {place : Path} {node : Node}, d.node? place = some node → node.isWay →
    e.node? place = some node

/-- What a walk ends at is found on every disk that keeps the ways to it, and has it or, if it is a
file, another one. -/
theorem Leads.transfer (h : d.Leads purpose links place todo (.taken p node))
    (hways : KeepsWays d e) (hend : e.node? p = some node')
    (hnode : node' = node ∨ node.isWay = false ∧ node'.isWay = false) :
    e.Leads purpose links place todo (.taken p node') := by
  generalize hspot : Spot.taken p node = spot at h
  induction h with
  | here =>
    cases hspot
    exact leads_here hend
  | idle hname _ ih => exact .idle hname (ih hspot)
  | up _ ih => exact .up (ih hspot)
  | free => cases hspot
  | entry hname _ hpurpose hrest =>
    cases hspot
    exact .entry hname hend hpurpose hrest
  | file hname =>
    cases hspot
    cases node' with
    | file => exact .file hname hend
    | dir | link => simp [Node.isWay] at hnode
  | dir hname hplace hentry _ ih => exact .dir hname (hways.node hplace rfl) hentry (ih hspot)
  | look hname _ hpurpose =>
    cases hspot
    cases node' with
    | link => exact .look hname hend hpurpose
    | dir | file => simp [Node.isWay] at hnode
  | link hname hplace hentry hlook htarget _ ih =>
    exact .link hname (hways.node hplace rfl) hentry hlook htarget (ih hspot)

theorem Leads.put_dir (h : d.Leads .entry links place todo (.free p)) :
    (d.put p .dir).Leads .content links place todo (.taken p .dir) := by
  obtain ⟨hp, hfree⟩ := h.of_free
  have hkept : ∀ {q node}, d.node? q = some node → (d.put p .dir).node? q = some node := by
    intro q node hnode
    have hne : p ≠ q := by
      rintro rfl
      rw [hfree] at hnode
      cases hnode
    rw [node?_put_of_ne hp hne, hnode]
  have hmade : (d.put p .dir).node? p = some .dir := node?_put_self hp
  generalize hspot : Spot.free p = spot at h
  induction h with
  | here => cases hspot
  | idle hname _ ih => exact .idle hname (ih hspot)
  | up _ ih => exact .up (ih hspot)
  | free hname _ hrest =>
    cases hspot
    refine .dir (hname.of_ne_file (by decide)) hmade (by simp) ((leads_of_isEnd hrest).2 ?_)
    rw [hmade, Option.getD_some]
  | entry | file | look => cases hspot
  | dir hname hnode _ _ ih =>
    exact .dir (hname.of_ne_file (by decide)) (hkept hnode) (by simp) (ih hspot)
  | link hname hnode _ _ htarget _ ih =>
    exact .link (hname.of_ne_file (by decide)) (hkept hnode) (by simp) (by simp) htarget (ih hspot)

/-- The place of a file, or of one to be written. -/
def Spot.IsForFile : Spot → Path → Prop
  | .free place, p => place = p
  | .taken place (.file _), p => place = p
  | .taken _ _, _ => False

theorem Spot.IsForFile.place_eq (h : (Spot.taken place node).IsForFile p) : place = p := by
  cases node with
  | file => exact h
  | dir | link => exact h.elim

theorem Leads.of_isForFile (h : d.Leads purpose links place todo spot) (hspot : spot.IsForFile p) :
    p ≠ [] ∧ ∀ node, d.node? p = some node → node.isWay = false := by
  cases spot with
  | free =>
    cases hspot
    refine ⟨h.of_free.1, fun node hnode => ?_⟩
    rw [h.of_free.2] at hnode
    cases hnode
  | taken _ node =>
    cases node with
    | file =>
      cases hspot
      refine ⟨(h.of_taken (by simp)).1, fun node hnode => ?_⟩
      rw [(h.of_taken (by simp)).2] at hnode
      cases hnode
      rfl
    | dir | link => exact hspot.elim

theorem keepsWays_put (hp : p ≠ []) (hfree : ∀ node, d.node? p = some node → node.isWay = false) :
    KeepsWays d (d.put p node) where
  workingDir := rfl
  node := by
    intro q node' hnode hway
    have hne : p ≠ q := by
      rintro rfl
      rw [hfree _ hnode] at hway
      cases hway
    rw [node?_put_of_ne hp hne, hnode]

theorem Leads.content_put_file (h : d.Leads .file links place todo spot)
    (hspot : spot.IsForFile p) :
    (d.put p (.file content)).Leads .content links place todo (.taken p (.file content)) := by
  obtain ⟨hp, hfree⟩ := h.of_isForFile hspot
  have hways : KeepsWays d (d.put p (.file content)) := keepsWays_put hp hfree
  have hput : (d.put p (.file content)).node? p = some (.file content) := node?_put_self hp
  induction h with
  | here =>
    rw [hspot.place_eq]
    exact leads_here hput
  | idle hname _ ih => exact .idle hname (ih hspot)
  | up _ ih => exact .up (ih hspot)
  | @free _ _ _ rest hname _ hrest =>
    cases hspot
    -- a separator behind a free name is refused when a file is written
    obtain rfl : rest = [] := by
      by_contra hne
      exact hname.written ⟨rfl, hne, hrest⟩
    exact .file (hname.of_ne_file (by decide)) hput
  | entry _ _ hpurpose => cases hpurpose
  | file hname =>
    cases hspot
    exact .file (hname.of_ne_file (by decide)) hput
  | dir hname hnode _ _ ih =>
    exact .dir (hname.of_ne_file (by decide)) (hways.node hnode rfl) (by simp) (ih hspot)
  | look _ _ hpurpose => cases hpurpose
  | link hname hnode _ _ htarget _ ih =>
    exact .link (hname.of_ne_file (by decide)) (hways.node hnode rfl) (by simp) (by simp) htarget
      (ih hspot)

/-- A file that is written stands where its path points, unless a link stood there. -/
theorem Leads.put_file (h : d.Leads .file links place todo spot) (hspot : spot.IsForFile p)
    (hlink : ∀ q target, ¬ d.Leads .entry links place todo (.taken q (.link target))) :
    (d.put p (.file content)).Leads .entry links place todo (.taken p (.file content)) := by
  obtain ⟨hp, hfree⟩ := h.of_isForFile hspot
  have hways : KeepsWays d (d.put p (.file content)) := keepsWays_put hp hfree
  have hput : (d.put p (.file content)).node? p = some (.file content) := node?_put_self hp
  induction h with
  | here =>
    rw [hspot.place_eq]
    exact leads_here hput
  | idle hname _ ih => exact .idle hname (ih hspot fun q target h => hlink q target (.idle hname h))
  | up _ ih => exact .up (ih hspot fun q target h => hlink q target (.up h))
  | free hname _ hrest =>
    cases hspot
    exact .entry (hname.of_ne_file (by decide)) hput rfl hrest
  | entry _ _ hpurpose => cases hpurpose
  | file hname =>
    cases hspot
    exact .entry (hname.of_ne_file (by decide)) hput rfl rfl
  | @dir _ _ _ rest _ hname hnode _ h ih =>
    have hname' : IsLookedUp .entry _ _ := hname.of_ne_file (by decide)
    have hrest : ¬ IsEnd rest := by
      intro hrest
      rw [(leads_of_isEnd hrest).1 h, hnode] at hspot
      exact hspot
    exact .dir hname' (hways.node hnode rfl) (fun hend => hrest hend.2) (ih hspot
      fun q target h => hlink q target (.dir hname' hnode (fun hend => hrest hend.2) h))
  | look _ _ hpurpose => cases hpurpose
  | @link _ _ _ _ rest _ hname hnode _ _ htarget h ih =>
    have hname' : IsLookedUp .entry _ _ := hname.of_ne_file (by decide)
    -- the walk that writes follows a link in the last place, but there is none
    have hrest : ¬ IsEnd rest := fun hrest => hlink _ _ (.entry hname' hnode rfl hrest)
    refine .link hname' (hways.node hnode rfl) (fun hend => hrest hend.2) (by simp) htarget
      (ih hspot fun q target h => hlink q target ?_)
    exact .link hname' hnode (fun hend => hrest hend.2) (by simp) htarget h

/-- A file that takes the place of no directory and no link is found where a path points that does
not end in a separator. -/
theorem Leads.content_of_entry (h : d.Leads .entry links place todo spot) (hspot : spot.IsForFile p)
    (hlast : todo.getLast? ≠ some "") (hways : KeepsWays d e)
    (hnode : e.node? p = some (.file content)) :
    e.Leads .content links place todo (.taken p (.file content)) := by
  have htail : ∀ {name : String} {rest : List String}, (name :: rest).getLast? ≠ some "" →
      rest.getLast? ≠ some "" := by
    intro name rest hlast hrest
    rw [List.getLast?_cons, hrest] at hlast
    exact hlast rfl
  -- only separators could be left behind the last name
  have hend : ∀ {name : String} {rest : List String}, (name :: rest).getLast? ≠ some "" →
      IsEnd rest → rest = [] := by
    intro name rest hlast hrest
    by_contra hne
    have hempty : rest.getLast hne = "" := by
      simpa using List.all_eq_true.1 hrest _ (List.getLast_mem hne)
    exact htail hlast (by rw [List.getLast?_eq_some_getLast hne, hempty])
  induction h with
  | here =>
    rw [hspot.place_eq]
    exact leads_here hnode
  | idle hname _ ih => exact .idle hname (ih hspot (htail hlast))
  | up _ ih => exact .up (ih hspot (htail hlast))
  | free hname _ hrest =>
    cases hspot
    obtain rfl := hend hlast hrest
    exact .file (hname.of_ne_file (by decide)) hnode
  | entry hname _ _ hrest =>
    obtain rfl := hend hlast hrest
    obtain rfl := hspot.place_eq
    exact .file (hname.of_ne_file (by decide)) hnode
  | file hname =>
    cases hspot
    exact .file (hname.of_ne_file (by decide)) hnode
  | dir hname hplace _ _ ih =>
    exact .dir (hname.of_ne_file (by decide)) (hways.node hplace rfl) (by simp)
      (ih hspot (htail hlast))
  | look _ _ hpurpose => cases hpurpose
  | @link _ _ _ target rest _ hname hplace hentry _ htarget _ ih =>
    have hrest : rest ≠ [] := fun hrest => hentry ⟨rfl, by rw [hrest]; rfl⟩
    have hlast' : (names target ++ rest).getLast? = rest.getLast? := by
      rw [List.getLast?_append, List.getLast?_eq_some_getLast hrest, Option.some_or]
    exact .link (hname.of_ne_file (by decide)) (hways.node hplace rfl) (by simp) (by simp) htarget
      (ih hspot (hlast' ▸ htail hlast))

theorem Leads.entry_of_file (h : d.Leads .content links place todo (.taken p (.file content))) :
    ∃ q node, d.Leads .entry links place todo (.taken q node) ∧ node ≠ .dir := by
  generalize hspot : Spot.taken p (.file content) = spot at h
  induction h with
  | @here links place =>
    refine ⟨_, _, .here, fun hnode => ?_⟩
    rw [hnode] at hspot
    cases hspot
  | idle hname _ ih =>
    obtain ⟨q, node, h, hnode⟩ := ih hspot
    exact ⟨q, node, .idle hname h, hnode⟩
  | up _ ih =>
    obtain ⟨q, node, h, hnode⟩ := ih hspot
    exact ⟨q, node, .up h, hnode⟩
  | free => cases hspot
  | entry _ _ hpurpose => cases hpurpose
  | file hname hnode => exact ⟨_, _, .file (hname.of_ne_file (by decide)) hnode, by simp⟩
  | @dir _ _ _ rest _ hname hnode _ h ih =>
    have hrest : ¬ IsEnd rest := by
      intro hrest
      rw [(leads_of_isEnd hrest).1 h, hnode] at hspot
      cases hspot
    obtain ⟨q, node, h, hdir⟩ := ih hspot
    exact ⟨q, node, .dir (hname.of_ne_file (by decide)) hnode (fun hend => hrest hend.2) h, hdir⟩
  | look _ _ hpurpose => cases hpurpose
  | @link _ _ _ _ rest _ hname hnode _ _ htarget h ih =>
    have hname' : IsLookedUp .entry _ _ := hname.of_ne_file (by decide)
    by_cases hrest : IsEnd rest
    · exact ⟨_, _, .entry hname' hnode rfl hrest, by simp⟩
    · obtain ⟨q, node, h, hdir⟩ := ih hspot
      exact ⟨q, node, .link hname' hnode (fun hend => hrest hend.2) (by simp) htarget h, hdir⟩

/-! ### Separators at the end -/

/-- A place that is below directories only, and is one. -/
def IsDirectory (d : Disk) (place : Path) : Prop := ∀ q, q <+: place → d.node? q = some .dir

theorem IsDirectory.dropLast (h : IsDirectory d place) : IsDirectory d place.dropLast :=
  fun q hq => h q (hq.trans (List.dropLast_prefix place))

theorem IsDirectory.concat (h : IsDirectory d place)
    (hnode : d.node? (place ++ [name]) = some .dir) : IsDirectory d (place ++ [name]) := by
  intro q hq
  rcases List.prefix_concat_iff.1 hq with rfl | hq
  · exact hnode
  · exact h q hq

theorem IsDirectory.root : IsDirectory d [] := by
  intro q hq
  rw [List.prefix_nil.1 hq]
  rfl

/-- No file is found behind a separator, and none is written there. -/
theorem Leads.getLast?_ne (h : d.Leads purpose links place todo spot) (hspot : spot.IsForFile p)
    (hfree : spot = .free p → purpose = .file) (hpurpose : purpose ≠ .entry)
    (hplace : IsDirectory d place) : todo.getLast? ≠ some "" := by
  -- after the last name of a directory nothing but the directory is found
  have hdir : ∀ {place : Path} {links : Nat} {spot : Spot}, d.Leads purpose links place [] spot →
      IsDirectory d place → ¬ spot.IsForFile p := by
    intro place links spot h hplace hspot
    have hend : IsEnd [] := rfl
    rw [(leads_of_isEnd hend).1 h, hplace place (List.prefix_refl place)] at hspot
    exact hspot
  have hnames : ∀ {name : String} {rest : List String}, rest ≠ [] →
      (name :: rest).getLast? = rest.getLast? := by
    intro name rest hrest
    obtain ⟨next, rest, rfl⟩ := List.exists_cons_of_ne_nil hrest
    rfl
  induction h with
  | here => simp
  | @idle _ _ _ rest _ _ h ih =>
    by_cases hrest : rest = []
    · subst hrest
      exact absurd hspot (hdir h hplace)
    · rw [hnames hrest]
      exact ih hspot hfree hplace
  | @up _ _ rest _ h ih =>
    by_cases hrest : rest = []
    · subst hrest
      exact absurd hspot (hdir h hplace.dropLast)
    · rw [hnames hrest]
      exact ih hspot hfree hplace.dropLast
  | @free _ _ _ rest hname _ hend =>
    cases hspot
    have hrest : rest = [] := by
      by_contra hne
      exact hname.written ⟨hfree rfl, hne, hend⟩
    subst hrest
    simpa using fun he => hname.plain (.inl he)
  | entry _ _ hentry => exact absurd hentry hpurpose
  | file hname => simpa using fun he => hname.plain (.inl he)
  | @dir _ _ _ rest _ _ hnode _ h ih =>
    by_cases hrest : rest = []
    · subst hrest
      exact absurd hspot (hdir h (hplace.concat hnode))
    · rw [hnames hrest]
      exact ih hspot hfree (hplace.concat hnode)
  | look => exact hspot.elim
  | @link _ _ _ target rest _ hname _ _ _ _ _ ih =>
    by_cases hrest : rest = []
    · subst hrest
      simpa using fun he => hname.plain (.inl he)
    · have hlast : (names target ++ rest).getLast? = rest.getLast? := by
        rw [List.getLast?_append, List.getLast?_eq_some_getLast hrest, Option.some_or]
      rw [hnames hrest, ← hlast]
      refine ih hspot hfree ?_
      split
      · exact .root
      · exact hplace

/-! ### Disks on which files have taken the place of links -/

/-- A disk that keeps the directories of another, and its links but those that files replace. -/
structure Overwrites (d e : Disk) : Prop where
  workingDir : e.workingDir = d.workingDir
  dir : ∀ {place : Path}, d.node? place = some .dir → e.node? place = some .dir
  link : ∀ {place : Path} {target : String}, d.node? place = some (.link target) →
    e.node? place = some (.link target) ∨ ∃ content, e.node? place = some (.file content)

theorem KeepsWays.overwrites (h : KeepsWays d e) : Overwrites d e :=
  ⟨h.workingDir, fun hnode => h.node hnode rfl, fun hnode => .inl (h.node hnode rfl)⟩

theorem Overwrites.isDirectory (hover : Overwrites d e) (h : IsDirectory d d.workingDir) :
    IsDirectory e e.workingDir := by
  rw [hover.workingDir]
  exact fun q hq => hover.dir (h q hq)

theorem Leads.blocked (h : d.Leads .content links place todo (.taken p .dir))
    (hover : Overwrites d e) :
    e.walk .entry links place todo = .error .notADirectory ∨
      ∃ q node, e.walk .entry links place todo = .ok (.taken q node) := by
  generalize hspot : Spot.taken p .dir = spot at h
  induction h with
  | here => exact .inr ⟨_, _, walk_eq_ok_iff.2 .here⟩
  | idle hname _ ih =>
    rw [walk, if_pos hname]
    exact ih hspot
  | up _ ih =>
    rw [walk, if_neg (by decide), if_pos rfl]
    exact ih hspot
  | free => cases hspot
  | entry _ _ hpurpose => cases hpurpose
  | file => cases hspot
  | @dir _ _ _ rest _ hname hnode _ _ ih =>
    rw [(hname.of_ne_file (by decide)).walk_eq, hover.dir hnode]
    by_cases hrest : IsEnd rest
    · exact .inr ⟨_, _, if_pos ⟨rfl, hrest⟩⟩
    · simpa [show ¬ rest.all (· = "") = true from hrest] using ih hspot
  | look _ _ hpurpose => cases hpurpose
  | @link _ _ _ _ rest _ hname hnode _ _ htarget _ ih =>
    rw [(hname.of_ne_file (by decide)).walk_eq]
    by_cases hrest : IsEnd rest
    · rcases hover.link hnode with hnode | ⟨content, hnode⟩
      · rw [hnode]
        exact .inr ⟨_, _, if_pos ⟨rfl, hrest⟩⟩
      · rw [hnode]
        exact .inr ⟨_, _, if_pos ⟨rfl, hrest⟩⟩
    -- in the place of the link a file may stand now, which is no directory to go on from
    · have hall : ¬ rest.all (· = "") = true := hrest
      have hne : rest ≠ [] := by
        rintro rfl
        exact hrest rfl
      rcases hover.link hnode with hnode | ⟨content, hnode⟩
      · rw [hnode]
        simpa [hall, htarget] using ih hspot
      · rw [hnode]
        refine .inl ?_
        simp [hall, hne]

end Playground.Disk
