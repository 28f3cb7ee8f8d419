import Playground.Digest
import Playground.Tree.DiskPath
import Playground.Tree.View

/-!
# Directories of the disk

`Disk` is what a program sees of the operating system's files: directories, files and symbolic
links, reached by written paths.  `Disk.view` reads the directory at a base path as a tree; links
are followed, and what they lead to is shown in their place.

Names have at most 255 bytes, written paths fewer than 4096, and a walk follows at most 40 links.
-/

namespace Playground

namespace Disk

/-- What there is at a place of the disk. -/
inductive Node where
  | file (content : ByteArray)
  | dir
  /-- A symbolic link, with the written path it leads to. -/
  | link (target : String)

/-- Why the operating system refuses. -/
inductive Fault where
  | missing
  | notADirectory
  | isADirectory
  | alreadyThere
  | nameTooLong
  | tooManyLinks
  | nulInName
  deriving DecidableEq, Repr

def Fault.message : Fault → String
  | missing => "No such file or directory (os error 2)"
  | notADirectory => "Not a directory (os error 20)"
  | isADirectory => "Is a directory (os error 21)"
  | alreadyThere => "File exists (os error 17)"
  | nameTooLong => "File name too long (os error 36)"
  | tooManyLinks => "Too many levels of symbolic links (os error 40)"
  | nulInName => "file name contained an unexpected NUL byte"

/-- Where a walk ends: at something, or at a free name in a directory. -/
inductive Spot where
  | taken (place : Path) (node : Node)
  | free (place : Path)

/-- What a walk is for, which decides about the last name. -/
inductive Purpose where
  /-- To what the name leads: a link is followed. -/
  | content
  /-- To what stands at the name: a link is followed only with a separator behind it. -/
  | look
  /-- To the name itself, to make, move or replace what stands there: a link is not followed. -/
  | entry
  /-- To a file to be written: a link is followed, and a name with a separator behind it, which
  could only be that of a directory, is refused. -/
  | file
  deriving DecidableEq, Repr

/-- The greatest number of bytes of a name. -/
def nameLimit : Nat := 255

/-- The number of bytes a written path has to stay below. -/
def pathLimit : Nat := 4096

/-- The number of links that a walk follows. -/
def linkLimit : Nat := 40

end Disk

/-- The operating system's files. -/
structure Disk where
  nodes : Std.ExtTreeMap Path Disk.Node compare
  /-- Where relative paths start. -/
  workingDir : Path

namespace Disk

open Playground.Text

variable (d : Disk)

/-- What there is at a place, links not followed. -/
def node? (place : Path) : Option Node := if place = [] then some .dir else d.nodes[place]?

def names (path : String) : List String := (splitOn '/' path.toList).map String.ofList

/-- Walks from the directory `place` along `todo`.  A link before the last name is always
followed. -/
def walk (purpose : Purpose) (links : Nat) (place : Path) (todo : List String) :
    Except Fault Spot :=
  match todo with
  | [] => .ok (.taken place ((d.node? place).getD .dir))
  | name :: rest =>
    if name = "" ∨ name = "." then walk purpose links place rest
    else if name = ".." then walk purpose links place.dropLast rest
    else if purpose = .file ∧ rest ≠ [] ∧ rest.all (· = "") then .error .isADirectory
    else if name.utf8ByteSize > nameLimit then .error .nameTooLong
    else
      let here := place ++ [name]
      match d.node? here with
      | none => if rest.all (· = "") then .ok (.free here) else .error .missing
      | some node =>
        if purpose = .entry ∧ rest.all (· = "") then .ok (.taken here node)
        else
          match node with
          | .file content =>
            if rest = [] then .ok (.taken here (.file content)) else .error .notADirectory
          | .dir => walk purpose links here rest
          | .link target =>
            if purpose = .look ∧ rest = [] then .ok (.taken here (.link target))
            else if target = "" then .error .missing
            else
              match links with
              | 0 => .error .tooManyLinks
              | links + 1 =>
                walk purpose links (if DiskPath.isAbsolute target then [] else place)
                  (names target ++ rest)
  termination_by (links, todo.length)

/-- Finds a written path. -/
def locate (purpose : Purpose) (path : String) : Except Fault Spot :=
  if path.toList.contains '\x00' then .error .nulInName
  else if path = "" then .error .missing
  else if pathLimit ≤ byteLength path.toList then .error .nameTooLong
  else
    d.walk purpose linkLimit (if DiskPath.isAbsolute path then [] else d.workingDir) (names path)

def stat (path : String) : Except Fault (Path × Node) :=
  match d.locate .content path with
  | .error e => .error e
  | .ok (.free _) => .error .missing
  | .ok (.taken place node) => .ok (place, node)

/-- Whether a written path leads to a directory. -/
def isDir (path : String) : Bool :=
  match d.stat path with
  | .ok (_, .dir) => true
  | _ => false

def readFile (path : String) : Except Fault ByteArray :=
  match d.stat path with
  | .error e => .error e
  | .ok (_, .file content) => .ok content
  | .ok _ => .error .isADirectory

/-- The names in a directory, in their order. -/
def readDir (path : String) : Except Fault (List String) :=
  match d.stat path with
  | .error e => .error e
  | .ok (place, .dir) => .ok (d.nodes.keys.filterMap place.nameIn?)
  | .ok _ => .error .notADirectory

/-- Puts something at a place. -/
def put (place : Path) (node : Node) : Disk := { d with nodes := d.nodes.insert place node }

/-- Writes a file; through a link it is what the link leads to that is written. -/
def writeFile (path : String) (content : ByteArray) : Except Fault Disk :=
  match d.locate .file path with
  | .error e => .error e
  | .ok (.free place) | .ok (.taken place (.file _)) => .ok (d.put place (.file content))
  | .ok (.taken _ _) => .error .isADirectory

def makeDir (path : String) : Except Fault Disk :=
  match d.locate .entry path with
  | .error e => .error e
  | .ok (.free place) => .ok (d.put place .dir)
  | .ok (.taken _ _) => .error .alreadyThere

def makeLink (path target : String) : Except Fault Disk :=
  if target = "" then .error .missing
  else
    match d.locate .entry path with
    | .error e => .error e
    | .ok (.free place) =>
      if DiskPath.endsInSeparator path then .error .missing else .ok (d.put place (.link target))
    | .ok (.taken _ _) => .error .alreadyThere

/-- Makes the first directory of a list.  Those behind it are the directories above it, nearest
first; they are made when the first misses one, and stay even if it then fails. -/
def makeDirs : Disk → List String → Disk × Except Fault Unit
  | d, [] => (d, .error .missing)
  | d, path :: above =>
    match d.makeDir path with
    | .ok d => (d, .ok ())
    | .error .missing =>
      match makeDirs d above with
      | (d, .error e) => (d, .error e)
      | (d, .ok ()) =>
        match d.makeDir path with
        | .ok d => (d, .ok ())
        | .error e => (d, if d.isDir path then .ok () else .error e)
    | .error e => (d, if d.isDir path then .ok () else .error e)

/-- Makes a directory and all those on the way to it.  No name is no directory to make. -/
def createDirs (path : String) : Disk × Except Fault Unit :=
  if path = "" then (d, .ok ()) else d.makeDirs (path :: DiskPath.above path)

def move (old new : Path) (node : Node) : Disk :=
  { d with nodes := (d.nodes.erase old).insert new node }

/-- Gives the file at `source` the path `target`, over what is there unless that is a directory. -/
def rename (source target : String) : Except Fault Disk :=
  match d.locate .entry source, d.locate .entry target with
  | .error e, _ => .error e
  | _, .error e => .error e
  | .ok (.free _), _ => .error .missing
  | .ok (.taken _ .dir), _ => .error .isADirectory
  | .ok (.taken old node), .ok spot =>
    if DiskPath.endsInSeparator source || DiskPath.endsInSeparator target then
      .error .notADirectory
    else
      match spot with
      | .taken _ .dir => .error .isADirectory
      | .taken new _ | .free new => .ok (d.move old new node)

/-! ### A directory as a tree -/

/-- The written path of a place in the tree at `base`. -/
def under (base : String) (p : Path) : String := if p = [] then base else DiskPath.join base p.text

/-- A refusal as an error of the tree at the place `p`. -/
def treeError (p : Path) (e : Fault) : TreeError :=
  match e with
  | .missing => .notFound p.text
  | e => .io p.text e.message

/-- What a written path leads to in a listing. -/
def kindOf (path : String) : Option Kind :=
  match d.stat path with
  | .ok (_, .dir) => some .dir
  | .ok (_, .file _) => some .file
  | _ => none

/-- The content of a file of the tree at `base`. -/
def treeRead (base : String) (p : Path) : Except TreeError ByteArray :=
  if d.isDir (under base p) then .error (.isADirectory p.text)
  else (d.readFile (under base p)).mapError (treeError p)

/-- The listing of a directory of the tree at `base`. -/
def treeList (base : String) (p : Path) : Except TreeError (List Entry) :=
  if ¬ p.IsCanonical then .error (.notFound p.text)
  else if d.kindOf (under base p) = some .file then .error (.notADirectory p.text)
  else
    match d.readDir (under base p) with
    | .error e => .error (treeError p e)
    | .ok found =>
      .ok (Entry.sort (found.filterMap fun name =>
        (d.kindOf (DiskPath.join (under base p) name)).map (⟨name, ·⟩)))

/-- A text as a number, so that different texts have different numbers. -/
def code : List Char → Nat
  | [] => 0
  | c :: cs => c.toNat + 1 + 0x110001 * code cs

theorem code_inj {a b : List Char} (h : code a = code b) : a = b := by
  induction a generalizing b with
  | nil =>
    cases b with
    | nil => rfl
    | cons c cs => simp only [code] at h; omega
  | cons c cs ih =>
    cases b with
    | nil => simp only [code] at h; omega
    | cons e es =>
      simp only [code] at h
      have h1 : c.toNat < 0x110000 := by
        have := c.valid
        simp only [Char.toNat, UInt32.isValidChar, Nat.isValidChar] at *
        omega
      have h2 : e.toNat < 0x110000 := by
        have := e.valid
        simp only [Char.toNat, UInt32.isValidChar, Nat.isValidChar] at *
        omega
      have hc : c.toNat = e.toNat := by omega
      have hcs : code cs = code es := by omega
      rw [ih hcs, Char.ext (UInt32.toNat_inj.1 hc)]

/-- One above the greatest number of a text of some length. -/
def codeLimit : Nat → Nat
  | 0 => 1
  | n + 1 => 0x110001 * codeLimit n

theorem codeLimit_mono {m n : Nat} (h : m ≤ n) : codeLimit m ≤ codeLimit n := by
  induction h with
  | refl => exact Nat.le_refl _
  | step _ ih => exact Nat.le_trans ih (Nat.le_mul_of_pos_left _ (by decide))

theorem code_lt (cs : List Char) : code cs < codeLimit cs.length := by
  induction cs with
  | nil => simp [code, codeLimit]
  | cons c cs ih =>
    have h1 : c.toNat < 0x110000 := by
      have := c.valid
      simp only [Char.toNat, UInt32.isValidChar, Nat.isValidChar] at *
      omega
    simp only [code, List.length_cons, codeLimit]
    omega

theorem exists_locate_eq_error (purpose : Purpose) {path : String}
    (h : pathLimit ≤ byteLength path.toList) : ∃ e, d.locate purpose path = .error e := by
  unfold locate
  split
  · exact ⟨_, rfl⟩
  · split
    · exact ⟨_, rfl⟩
    · exact ⟨_, rfl⟩

theorem byteLength_text_le (base : String) (p : Path) :
    byteLength p.text.toList ≤ byteLength (under base p).toList := by
  unfold under
  split
  · rename_i h
    subst h
    simp [Path.text, glue, byteLength]
  · unfold DiskPath.join
    split
    · exact Nat.le_refl _
    · split <;> simp only [String.toList_append, byteLength_append] <;> omega

theorem of_isOk_treeList {base : String} {p : Path} (h : (d.treeList base p).isOk = true) :
    p.IsCanonical ∧ byteLength p.text.toList < pathLimit := by
  unfold treeList at h
  split at h
  · simp [Except.isOk, Except.toBool] at h
  · rename_i hp
    refine ⟨Classical.not_not.1 hp, Nat.lt_of_not_le fun hle => ?_⟩
    obtain ⟨e, he⟩ := d.exists_locate_eq_error .content
      (Nat.le_trans hle (byteLength_text_le base p))
    have hdir : d.readDir (under base p) = .error e := by simp [readDir, stat, he]
    have hkind : d.kindOf (under base p) = none := by simp [kindOf, stat, he]
    simp [hdir, hkind, Except.isOk, Except.toBool] at h

/-- The directory at a written path as a tree. -/
def view (base : String) : View where
  read := d.treeRead base
  list := d.treeList base
  kind p := d.kindOf (under base p)
  breadth := codeLimit pathLimit
  le_breadth := by
    intro places hnodup hok
    let number (p : Path) : Nat := code p.text.toList
    have hinj : ∀ p ∈ places, ∀ q ∈ places, number p = number q → p = q := by
      intro p hp q hq h
      exact Path.text_inj (d.of_isOk_treeList (hok p hp)).1 (d.of_isOk_treeList (hok q hq)).1
        (String.toList_inj.1 (code_inj h))
    have hnodup' : (places.map number).Nodup := by
      refine List.pairwise_map.2 ?_
      refine hnodup.imp_of_mem ?_
      intro p q hp hq hne h
      exact hne (hinj p hp q hq h)
    have := View.length_le_of_subset (m := List.range (codeLimit pathLimit)) hnodup' ?_
    · simpa using this
    · intro n hn
      obtain ⟨p, hp, rfl⟩ := List.mem_map.1 hn
      refine List.mem_range.2 (Nat.lt_of_lt_of_le (code_lt _) ?_)
      refine codeLimit_mono ?_
      have := (d.of_isOk_treeList (hok p hp)).2
      have := length_le_byteLength p.text.toList
      omega

/-- Makes the directory above a written path, then writes the file. -/
def treeWrite (base : String) (p : Path) (content : ByteArray) : Disk × Except TreeError Unit :=
  let path := under base p
  match (DiskPath.parent? path).elim (d, .ok ()) d.createDirs with
  | (d, .error e) => (d, .error (treeError p e))
  | (d, .ok ()) =>
    match d.writeFile path content with
    | .error e => (d, .error (treeError p e))
    | .ok d => (d, .ok ())

/-- Makes the directory at a place of the tree at `base`. -/
def treeCreateDirs (base : String) (p : Path) : Disk × Except TreeError Unit :=
  match d.createDirs (under base p) with
  | (d, .error e) => (d, .error (treeError p e))
  | (d, .ok ()) => (d, .ok ())

end Disk

end Playground
