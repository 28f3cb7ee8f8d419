import Playground.Tree.Disk
import Playground.Tree.Memory

/-!
# Copying a directory of the disk into memory

A directory is walked from its top down, the names of each directory in order and links followed.
A link that leads nowhere, or back to a directory that the walk is in, ends the copy; what was
copied before it stays.  A directory that is no link is always entered, so one that a link leads
back above is copied once more.
-/

namespace Playground

namespace Disk

/-- What a walk meets, with the names that lead there from the directory it started in. -/
inductive Sight where
  | dir (names : List String)
  | file (names : List String) (content : ByteArray)
  | fault

/-- Whether there is a link at a written path. -/
def isLink (d : Disk) (path : String) : Bool :=
  match d.locate .look path with
  | .ok (.taken _ (.link _)) => true
  | _ => false

/-- What a walk meets at a written path.  `above` holds the places of the directories it is in,
and there are never more than `depth` of those. -/
def sights (d : Disk) : (depth : Nat) → (above : List Path) → (path : String) →
    (names : List String) → List Sight
  | 0, _, _, _ => []
  | depth + 1, above, path, names =>
    match d.stat path with
    | .error _ | .ok (_, .link _) => [.fault]
    | .ok (_, .file content) => [.file names content]
    | .ok (place, .dir) =>
      if d.isLink path && above.contains place then [.fault]
      else
        let found := (d.readDir path).toOption.getD []
        .dir names :: found.flatMap fun name =>
          d.sights depth (place :: above) (DiskPath.join path name) (names ++ [name])

end Disk

namespace MemoryTree

/-- The written path of what a walk met, below `target`. -/
def targetOf (target : String) (names : List String) : String :=
  let path := Text.glue '/' (names.map String.toList)
  Path.join target (String.ofList (path.map fun c => if c = '\\' then '/' else c))

/-- Puts what a walk met below `target`, and counts the files. -/
def addSights (source target : String) :
    MemoryTree → Nat → List Disk.Sight → MemoryTree × Except TreeError Nat
  | t, copied, [] => (t, .ok copied)
  | t, copied, sight :: rest =>
    match sight with
    | .fault => (t, .error (.io source Disk.Fault.missing.message))
    | .dir names =>
      match t.createDirsAt (targetOf target names) with
      | .error e => (t, .error e)
      | .ok t => addSights source target t copied rest
    | .file names content =>
      match t.writeAt (targetOf target names) content with
      | .error e => (t, .error e)
      | .ok t => addSights source target t (copied + 1) rest

/-- Copies the directory at the written path `source` of the disk below `target`; the result is
the number of files.  Every name makes the written path longer, so `pathLimit` bounds the depth. -/
def copyFrom (t : MemoryTree) (d : Disk) (source target : String) :
    MemoryTree × Except TreeError Nat :=
  match Path.canonical? target with
  | none => (t, .error (.invalidPath target))
  | some target => t.addSights source target 0 (d.sights Disk.pathLimit [] source [])

end MemoryTree

end Playground
