import Playground.Tree.Error
import Playground.Tree.Path

/-!
# Reading a tree

A `View` is what a tree answers to those who read it: the content of files, the listings of
directories and the kind of every place.  Every view has finitely many directories, at most
`breadth` of them, which bounds every walk through it.

The operations on written paths refuse a text that is no path before they look at the tree.
-/

namespace Playground

/-- What a place in a tree can be. -/
inductive Kind where
  | file
  | dir
  deriving DecidableEq, Repr

/-- One line of a listing. -/
structure Entry where
  name : String
  kind : Kind
  deriving DecidableEq, Repr

namespace Entry

def isDir (e : Entry) : Bool := e.kind == .dir

/-- Listings are sorted by name, and a file comes before a directory of the same name. -/
def le (a b : Entry) : Bool :=
  a.name < b.name || (a.name == b.name && (a.kind == .file || b.kind == .dir))

/-- A listing in its order. -/
def sort (es : List Entry) : List Entry := es.mergeSort le

end Entry

/-- What a tree answers to those who read it. -/
structure View where
  /-- The content of the file at a place. -/
  read : Path → Except TreeError ByteArray
  /-- The listing of the directory at a place. -/
  list : Path → Except TreeError (List Entry)
  /-- What there is at a place. -/
  kind : Path → Option Kind
  /-- A bound on the number of places that can be listed. -/
  breadth : Nat
  /-- Different places that can be listed are no more than `breadth`. -/
  le_breadth : ∀ places : List Path, places.Nodup →
    (∀ p ∈ places, (list p).isOk = true) → places.length ≤ breadth

namespace View

variable (v : View)

/-- The place that a written path names. -/
def locate (s : String) : Except TreeError Path :=
  match Path.read? s with
  | some p => .ok p
  | none => .error (.invalidPath s)

def readAt (s : String) : Except TreeError ByteArray := locate s >>= v.read

def listAt (s : String) : Except TreeError (List Entry) := locate s >>= v.list

def kindAt (s : String) : Option Kind := Path.read? s >>= v.kind

def existsAt (s : String) : Bool := (v.kindAt s).isSome

def isDirAt (s : String) : Bool := v.kindAt s == some .dir

theorem length_le_of_subset {α : Type} [DecidableEq α] {l m : List α} (hl : l.Nodup)
    (h : ∀ x ∈ l, x ∈ m) : l.length ≤ m.length := by
  induction l generalizing m with
  | nil => simp
  | cons x l ih =>
    have hx := h x List.mem_cons_self
    have hl' := List.nodup_cons.1 hl
    have := ih hl'.2 (m := m.erase x) fun y hy =>
      (List.mem_erase_of_ne fun e : y = x => hl'.1 (e ▸ hy)).2 (h y (List.mem_cons_of_mem _ hy))
    rw [List.length_erase_of_mem hx] at this
    have : 0 < m.length := List.length_pos_of_mem hx
    simp only [List.length_cons]
    omega

theorem length_filter_add {α : Type} (l : List α) (p : α → Bool) :
    (l.filter p).length + (l.filter fun x => !p x).length = l.length := by
  induction l with
  | nil => rfl
  | cons x l ih => by_cases h : p x <;> simp [h] <;> omega

/-- Some list holds every place that can be listed. -/
theorem exists_places : ∃ places : List Path, ∀ p, (v.list p).isOk = true → p ∈ places := by
  have grow : ∀ n, (∃ places : List Path, ∀ p, (v.list p).isOk = true → p ∈ places) ∨
      ∃ places : List Path, places.Nodup ∧ (∀ p ∈ places, (v.list p).isOk = true) ∧
        places.length = n := by
    intro n
    induction n with
    | zero => exact .inr ⟨[], .nil, by simp, rfl⟩
    | succ n ih =>
      rcases ih with h | ⟨places, hnodup, hok, hlen⟩
      · exact .inl h
      · by_cases hall : ∀ p, (v.list p).isOk = true → p ∈ places
        · exact .inl ⟨places, hall⟩
        · obtain ⟨p, hp⟩ := Classical.not_forall.1 hall
          obtain ⟨hpok, hpn⟩ := Classical.not_imp.1 hp
          refine .inr ⟨p :: places, List.nodup_cons.2 ⟨hpn, hnodup⟩, ?_, by simp [hlen]⟩
          intro q hq
          rcases List.mem_cons.1 hq with rfl | hq
          · exact hpok
          · exact hok q hq
  rcases grow (v.breadth + 1) with h | ⟨places, hnodup, hok, hlen⟩
  · exact h
  · have := v.le_breadth places hnodup hok
    omega

end View

end Playground
