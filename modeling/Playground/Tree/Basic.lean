import Playground.Tree.Disk
import Playground.Tree.Memory
import Playground.Tree.Mount

/-!
# Trees

A tree is held in memory, is a directory of the disk, or is composed of other trees.  Writing to
a composed tree reaches exactly one of its parts: the host of a mount, or the top of a stack.
-/

namespace Playground

/-- A tree of files and directories. -/
inductive Tree where
  | memory (tree : MemoryTree)
  | disk (base : String) (disk : Disk)
  | mount (host : Tree) (point : Path) (mounted : Tree)
  | overlay (layers : List Tree)

namespace Tree

mutual

def view : Tree → View
  | memory tree => tree.view
  | disk base d => d.view base
  | mount host point mounted => View.mount host.view point mounted.view
  | overlay layers => View.overlay (views layers)

def views : List Tree → List View
  | [] => []
  | layer :: layers => layer.view :: views layers

end

/-- A tree held in memory after an operation; a failure leaves it as it was. -/
def afterMemory (tree : MemoryTree) (r : Except TreeError MemoryTree) :
    Tree × Except TreeError Unit :=
  match r with
  | .ok tree => (memory tree, .ok ())
  | .error e => (memory tree, .error e)

/-- A directory of the disk after an operation at a written path. -/
def afterDisk (base : String) (d : Disk) (path : String)
    (change : Path → Disk × Except TreeError Unit) : Tree × Except TreeError Unit :=
  match View.locate path with
  | .error e => (disk base d, .error e)
  | .ok p =>
    match change p with
    | (d, r) => (disk base d, r)

def write (content : ByteArray) (path : String) : Tree → Tree × Except TreeError Unit
  | memory tree => afterMemory tree (tree.writeAt path content)
  | disk base d => afterDisk base d path (d.treeWrite base · content)
  | mount host point mounted =>
    match host.write content path with
    | (host, r) => (mount host point mounted, r)
  | overlay [] => (overlay [], .error (.invalidPath path))
  | overlay (top :: layers) =>
    match top.write content path with
    | (top, r) => (overlay (top :: layers), r)

def createDirs (path : String) : Tree → Tree × Except TreeError Unit
  | memory tree => afterMemory tree (tree.createDirsAt path)
  | disk base d => afterDisk base d path (d.treeCreateDirs base)
  | mount host point mounted =>
    match host.createDirs path with
    | (host, r) => (mount host point mounted, r)
  | overlay [] => (overlay [], .error (.invalidPath path))
  | overlay (top :: layers) =>
    match top.createDirs path with
    | (top, r) => (overlay (top :: layers), r)

/-- A tree with `mounted` shown under the written path `point`; a text that is no path stands for
the root. -/
def mountAt (host : Tree) (point : String) (mounted : Tree) : Tree :=
  mount host ((Path.read? point).getD []) mounted

/-- The position of the first layer of a stack that has something at a written path. -/
def layerOf? (path : String) : Tree → Option Nat
  | overlay layers => (Path.read? path).bind (View.layerOf? (views layers))
  | _ => none

end Tree

end Playground
