import Playground.Digest
import Playground.Tree.View
import Std.Data.ExtTreeSet

/-!
# Trees held in memory

A `MemoryTree` stores its files by place and remembers its directories.  Writing a file makes the
directories on the way to it.  An operation that fails leaves the tree as it was.
-/

namespace Playground

/-- A tree held in memory. -/
structure MemoryTree where
  files : Std.ExtTreeMap Path ByteArray compare
  /-- The directories other than the root. -/
  dirs : Std.ExtTreeSet Path compare

namespace MemoryTree

def empty : MemoryTree := ⟨∅, ∅⟩

instance : EmptyCollection MemoryTree := ⟨empty⟩
instance : Inhabited MemoryTree := ⟨empty⟩

variable (t : MemoryTree)

def fileCount : Nat := t.files.size

def kind (p : Path) : Option Kind :=
  if p = [] || t.dirs.contains p then some .dir
  else if t.files.contains p then some .file
  else none

def read (p : Path) : Except TreeError ByteArray :=
  match t.files[p]? with
  | some content => .ok content
  | none => .error (if t.kind p = some .dir then .isADirectory p.text else .notFound p.text)

/-- What lies directly in a directory, in the order of listings. -/
def entries (p : Path) : List Entry :=
  let named (kind : Kind) (q : Path) : Option Entry := (p.nameIn? q).map (⟨·, kind⟩)
  Entry.sort (t.dirs.toList.filterMap (named .dir) ++ t.files.keys.filterMap (named .file))

def list (p : Path) : Except TreeError (List Entry) :=
  match t.kind p with
  | some .dir => .ok (t.entries p)
  | some .file => .error (.notADirectory p.text)
  | none => .error (.notFound p.text)

/-- The tree with the directories on the way to `p`, and `p` itself, added. -/
def addDirs (p : Path) : MemoryTree := { t with dirs := t.dirs.insertMany p.onTheWay }

/-- The tree with `content` in the file at `p`. -/
def put (p : Path) (content : ByteArray) : MemoryTree :=
  { t with files := t.files.insert p content }

/-- Writes a file, over the one that is there if there is one. -/
def write (p : Path) (content : ByteArray) : Except TreeError MemoryTree :=
  if t.kind p = some .dir then .error (.isADirectory p.text)
  else
    match p.parent? with
    | none => .ok (t.put p content)
    | some dir =>
      if t.files.contains dir then .error (.notADirectory dir.text)
      else .ok ((t.addDirs dir).put p content)

/-- Makes a directory and those on the way to it. -/
def createDirs (p : Path) : Except TreeError MemoryTree :=
  if t.files.contains p then .error (.notADirectory p.text) else .ok (t.addDirs p)

def writeAt (s : String) (content : ByteArray) : Except TreeError MemoryTree :=
  View.locate s >>= (t.write · content)

def createDirsAt (s : String) : Except TreeError MemoryTree := View.locate s >>= t.createDirs

theorem kind_eq_dir_iff {p : Path} : t.kind p = some .dir ↔ p = [] ∨ p ∈ t.dirs := by
  unfold kind
  split
  · rename_i h
    simpa [Std.ExtTreeSet.contains_iff_mem] using h
  · rename_i h
    have : ¬ (p = [] ∨ p ∈ t.dirs) := by simpa [Std.ExtTreeSet.contains_iff_mem] using h
    simp only [this, iff_false]
    split <;> simp

theorem isOk_list_iff {p : Path} : (t.list p).isOk = true ↔ t.kind p = some .dir := by
  unfold list
  split <;> simp_all [Except.isOk, Except.toBool]

def view : View where
  read := t.read
  list := t.list
  kind := t.kind
  breadth := t.dirs.toList.length + 1
  le_breadth := by
    intro places hnodup hok
    refine View.length_le_of_subset (m := [] :: t.dirs.toList) hnodup fun p hp => ?_
    rcases t.kind_eq_dir_iff.1 (t.isOk_list_iff.1 (hok p hp)) with rfl | h
    · exact List.mem_cons_self
    · exact List.mem_cons_of_mem _ (Std.ExtTreeSet.mem_toList.2 h)

end MemoryTree

end Playground
