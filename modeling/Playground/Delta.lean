import Playground.Artifact

/-!
# Deltas

A client holds modules of one variant and names them by their digests.  A `Delta` tells it what a
fresh build consists of and carries the modules that the client does not hold.  The entry package
is always sent.
-/

namespace Playground

/-- The digests that a client holds, by import path. -/
abbrev Manifest := Named Digest

/-- What a client learns about a package. -/
structure IndexEntry where
  optimized : Digest
  full : Digest
  /-- Whether the client holds the module already. -/
  unchanged : Bool
  deriving DecidableEq, Repr

def IndexEntry.digest (e : IndexEntry) : Variant → Digest
  | .optimized => e.optimized
  | .full => e.full

/-- A module to be sent. -/
structure QueuedArtifact where
  importPath : String
  digest : Digest
  /-- The module in a gzip frame. -/
  contents : ByteArray
  deriving DecidableEq

/-- What a client is told about a build. -/
structure Delta where
  /-- One entry for each package. -/
  index : Named IndexEntry
  /-- The modules to be sent, in the order of their import paths. -/
  artifacts : List QueuedArtifact

namespace Delta

open Playground.Bytes

def sent (d : Delta) : Nat := d.artifacts.length

/-- The number of packages that the client can go on with. -/
def reused (d : Delta) : Nat := (d.index.values.filter (·.unchanged)).length

/-- Whether the module of a package is to be sent. -/
def isSent (d : Delta) (importPath : String) : Bool :=
  d.artifacts.any fun a => a.importPath = importPath

/-- Whether a client with a manifest holds the module of a package.  It never counts as holding
the entry package. -/
def isHeld (manifest : Manifest) (variant : Variant) (entry path : String)
    (package : RenderedPackage) : Bool :=
  path ≠ entry && manifest[path]? == some (package.get variant).digest

def indexEntry (manifest : Manifest) (variant : Variant) (entry path : String)
    (package : RenderedPackage) : IndexEntry :=
  ⟨package.optimized.digest, package.full.digest, isHeld manifest variant entry path package⟩

def queued [Gzip.Encoder] (variant : Variant) (path : String) (package : RenderedPackage) :
    QueuedArtifact :=
  let artifact := package.get variant
  ⟨path, artifact.digest, artifact.compressed⟩

/-- What a client that tracks `variant` and holds `manifest` is told about rendered packages. -/
def compute [Gzip.Encoder] (rendered : RenderedSet) (manifest : Manifest) (variant : Variant)
    (entry : String) : Delta where
  index := rendered.map (indexEntry manifest variant entry)
  artifacts :=
    (rendered.toList.filter fun (path, package) =>
      !isHeld manifest variant entry path package).map fun (path, package) =>
        queued variant path package

/-- What a client holds after it has applied a delta. -/
def manifestAfter (d : Delta) (variant : Variant) : Manifest :=
  d.index.map fun _ entry => entry.digest variant

end Delta

end Playground
