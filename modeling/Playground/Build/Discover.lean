import Playground.Package

/-!
# Discovery

Reads every package that some roots need, directly or through others, from a tree of sources.
Packages that are known already are left out, and so is what only they need.

Packages are read in the order in which they are met, a level at a time.  A package can be read
only when its directory can be listed, so the breadth of the tree bounds their number.
-/

namespace Playground

/-- Packages by import path. -/
abbrev PackageSet := Named Package

namespace PackageSet

/-- Each package with its imports. -/
def imports (packages : PackageSet) : List (String × List String) :=
  packages.toList.map fun (path, package) => (path, package.imports)

/-- Adds to `found` the packages of a queue and those that they need.  At most `budget` packages
are read. -/
def discoverFrom (sources : View) (ext : String) (known : String → Bool) :
    (budget : Nat) → (found : PackageSet) → (queue : List String) → Except LoadError PackageSet
  | 0, found, _ => .ok found
  | budget + 1, found, queue =>
    match queue.dropWhile fun path => known path || found.contains path with
    | [] => .ok found
    | path :: queue =>
      match Package.load sources ext path with
      | .error e => .error e
      | .ok package =>
        discoverFrom sources ext known budget (found.insert path package)
          (queue ++ package.imports)

/-- The packages that the roots need and that are not known. -/
def discover (sources : View) (ext : String) (known : String → Bool) (roots : List String) :
    Except LoadError PackageSet :=
  discoverFrom sources ext known (sources.breadth + 1) ∅ roots

end PackageSet

end Playground
