import Playground.Digest
import Playground.Fetch.Policy

/-!
# Package hosts

A host answers requests for packages.  It may keep a state, so that its answers change, but it
serves only finitely many packages.
-/

namespace Playground

/-- The files of a package by name. -/
abbrev SourceTree := Named ByteArray

/-- Where packages are fetched from.  That it serves only finitely many is a condition of all that
is proved about hosts: a resolver that follows imports comes to an end because of it. -/
structure Host (η : Type) where
  /-- Answers a request for a package. -/
  fetch : String → η → Except FetchError SourceTree × η
  /-- The packages that the host can serve. -/
  served : List String
  mem_served : ∀ path state, (fetch path state).1.isOk = true → path ∈ served

namespace Host

/-- The host that serves packages held in memory.  Its state is the requests it got, newest
first. -/
def ofPackages (packages : Named SourceTree) : Host (List String) where
  fetch path requests :=
    ((match packages[path]? with
      | some files => .ok files
      | none => .error (.notFound path)), path :: requests)
  served := packages.keys
  mem_served := by
    intro path state h
    refine Std.ExtTreeMap.mem_keys.2 (Classical.byContradiction fun hn => ?_)
    simp [Std.ExtTreeMap.getElem?_eq_none hn, Except.isOk, Except.toBool] at h

/-- The same host with a record of the requests it gets, newest first. -/
def recording (host : Host η) : Host (η × List String) where
  fetch path state :=
    let (answer, next) := host.fetch path state.1
    (answer, next, path :: state.2)
  served := host.served
  mem_served path state h := host.mem_served path state.1 h

end Host

end Playground
