import Playground.Proofs.Fetch.Reports
import Playground.Proofs.Tree.Written

/-!
# What a resolver asks for

A resolver asks its host for a package only when it comes to the import path for the first time, the
policy allows it and neither tree lists source files for it.  What it does between two moments is a
sequence of such requests (`Resolver.Asks`), whatever they come to, and so is what it does over any
number of packages that are resolved one after the other, with failures among them
(`Resolver.requests_resolveAll`).

A request changes the sources of the session only when the host served the package, and then below
the directory of the package, as far as links do not lead elsewhere.  Sources that are shown from
behind those of the session are hidden where a directory is made on the way
(`Resolver.not_read_unchanged`).
-/

namespace Playground

variable {η : Type} {host : Host η} {policy : FetchPolicy} {path : String}

/-- A request for a package. -/
structure Request where
  path : String
  /-- The workspace at the moment of the request. -/
  workspace : Workspace
  /-- What the host answered. -/
  answer : Except FetchError SourceTree
  /-- Whether what the host served was stored. -/
  finished : Bool

namespace Request

def served (q : Request) : Bool := q.answer.isOk

/-- What is reported of a request. -/
def events (q : Request) : List FetchEvent :=
  .started q.path :: if q.finished then [.finished q.path] else []

/-- The directory that the request writes to: the package's, if it was served. -/
def place? (q : Request) : Option Path := if q.served then Path.read? (packageDir q.path) else none

theorem place?_eq_some_iff {q : Request} {place : Path} :
    q.place? = some place ↔ q.served = true ∧ Path.read? (packageDir q.path) = some place := by
  unfold place?
  split <;> simp_all

end Request

namespace FetchPolicy

/-- A package may be fetched exactly if the first element of its path has a dot in it and is an
allowed host. -/
theorem check_eq_ok_iff : policy.check path = .ok () ↔
    '.' ∈ path.toList.takeWhile (· ≠ '/') ∧
      String.ofList (path.toList.takeWhile (· ≠ '/')) ∈ policy.allowedHosts := by
  unfold check hostOf?
  dsimp only
  by_cases hdot : '.' ∈ path.toList.takeWhile (· ≠ '/')
  · rw [if_pos (List.contains_iff_mem.2 hdot), and_iff_right hdot]
    rw [← List.contains_iff_mem]
    dsimp only
    split <;> simp_all
  · rw [if_neg fun h => hdot (List.contains_iff_mem.1 h)]
    exact iff_of_false nofun fun h => hdot h.1

end FetchPolicy

namespace Resolver

variable {r r' r'' : Resolver η} {log log' : List Request} {pending : List String}

/-! ### One request -/

/-- The resolver has come to a path. -/
def consider (r : Resolver η) (path : String) : Resolver η := { r with seen := path :: r.seen }

def request (host : Host η) (policy : FetchPolicy) (r : Resolver η) (path : String) : Request where
  path := path
  workspace := r.workspace
  answer := (host.fetch path r.host).1
  finished := (r.fetch host policy path).1.isOk

/-- What a request did to a resolver: it is reported, and nothing was stored but what the host
served. -/
structure Responds (q : Request) (r r' : Resolver η) : Prop where
  events : r'.events = r.events ++ q.events
  served : q.finished = true → q.served = true
  workspace : r'.workspace = r.workspace ∨ ∃ files, q.answer = .ok files ∧
    r'.workspace = (r.workspace.addPackage q.path files.toList).1

theorem fetch_of_check_eq_error {e : FetchError} (h : policy.check path = .error e) :
    r.fetch host policy path = (.error e, r) := by
  rw [fetch, h]

theorem fetch_of_check (host : Host η) (r : Resolver η) (h : policy.check path = .ok ()) :
    r.fetch host policy path =
    match host.fetch path r.host with
    | (.error e, state) => (.error e, { r.report (.started path) with host := state })
    | (.ok files, state) => { r.report (.started path) with host := state }.store path files := by
  rw [fetch, h]
  rfl

theorem host_store (r : Resolver η) (path : String) (files : SourceTree) :
    (r.store path files).2.host = r.host := by
  unfold store
  dsimp only
  split
  · rfl
  · split <;> rfl

theorem host_fetch (h : policy.check path = .ok ()) :
    (r.fetch host policy path).2.host = (host.fetch path r.host).2 := by
  rw [fetch_of_check host r h]
  split
  · rename_i e state hanswer
    rw [hanswer]
  · rename_i files state hanswer
    rw [host_store, hanswer]

theorem events_store (r : Resolver η) (path : String) (files : SourceTree) :
    (r.store path files).2.events =
      r.events ++ if (r.store path files).1.isOk then [.finished path] else [] := by
  unfold store
  dsimp only
  split
  · exact (List.append_nil _).symm
  · split
    · exact (List.append_nil _).symm
    · rfl

theorem workspace_store (r : Resolver η) (path : String) (files : SourceTree) :
    (r.store path files).2.workspace = r.workspace ∨
      (r.store path files).2.workspace = (r.workspace.addPackage path files.toList).1 := by
  unfold store
  dsimp only
  split
  · exact .inl rfl
  · split
    · rename_i w e h
      exact .inr (congrArg Prod.fst h).symm
    · rename_i w h
      exact .inr (congrArg Prod.fst h).symm

theorem responds_fetch (host : Host η) (r : Resolver η) (h : policy.check path = .ok ()) :
    Responds (r.request host policy path) r (r.fetch host policy path).2 := by
  have hfetch := fetch_of_check host r h
  cases hanswer : host.fetch path r.host with
  | mk answer state =>
    rw [hanswer] at hfetch
    have hrequest : (r.request host policy path).answer = answer := by
      rw [request, hanswer]
    cases answer with
    | error e =>
      refine ⟨?_, fun hfinished => ?_, .inl ?_⟩
      · simp only [request, Request.events, hfetch, report]
        rfl
      · rw [request, hfetch] at hfinished
        cases hfinished
      · rw [hfetch]
        rfl
    | ok files =>
      refine ⟨?_, fun _ => ?_, ?_⟩
      · simp only [request, Request.events, hfetch, events_store, report]
        simp
      · rw [Request.served, hrequest]
        rfl
      · rw [hfetch]
        rcases workspace_store { r.report (.started path) with host := state } path files with
          hsame | hadded
        · exact .inl hsame
        · exact .inr ⟨files, hrequest, hadded⟩

/-! ### Runs -/

/-- What a resolver does between two moments: it comes to paths that it did not come to before, and
asks the host for some of them. -/
inductive Asks (host : Host η) (policy : FetchPolicy) :
    Resolver η → List Request → Resolver η → Prop where
  | none {r : Resolver η} : Asks host policy r [] r
  | considered {r r' : Resolver η} {path : String} {log : List Request} (unseen : path ∉ r.seen)
      (rest : Asks host policy (r.consider path) log r') : Asks host policy r log r'
  | asked {r r' : Resolver η} {path : String} {log : List Request} (unseen : path ∉ r.seen)
      (allowed : policy.check path = .ok ()) (absent : standing r.workspace path = .absent)
      (rest : Asks host policy ((r.consider path).fetch host policy path).2 log r') :
      Asks host policy r ((r.consider path).request host policy path :: log) r'

namespace Asks

theorem trans (h : Asks host policy r log r') (h' : Asks host policy r' log' r'') :
    Asks host policy r (log ++ log') r'' := by
  induction h with
  | none => exact h'
  | considered unseen _ ih => exact .considered unseen (ih h')
  | asked unseen allowed absent _ ih => exact .asked unseen allowed absent (ih h')

theorem seen_fetch_consider (r : Resolver η) (path : String) :
    ((r.consider path).fetch host policy path).2.seen = path :: r.seen :=
  seen_fetch host policy (r.consider path) path

/-- No path is asked for that the resolver came to before, and none twice. -/
theorem nodup (h : Asks host policy r log r') :
    (log.map Request.path).Nodup ∧ ∀ q ∈ log, q.path ∉ r.seen := by
  induction h with
  | none => exact ⟨List.nodup_nil, nofun⟩
  | considered unseen _ ih =>
    exact ⟨ih.1, fun q hq hseen => ih.2 q hq (List.mem_cons_of_mem _ hseen)⟩
  | @asked r r' path log unseen allowed absent _ ih =>
    rw [seen_fetch_consider] at ih
    refine ⟨List.nodup_cons.2 ⟨fun hmem => ?_, ih.1⟩, fun q hq hseen => ?_⟩
    · obtain ⟨q, hq, hpath⟩ := List.mem_map.1 hmem
      exact ih.2 q hq (hpath ▸ List.mem_cons_self)
    · rcases List.mem_cons.1 hq with rfl | hq
      · exact unseen hseen
      · exact ih.2 q hq (List.mem_cons_of_mem _ hseen)

/-- Only allowed packages are asked for, and only when no tree lists source files for them. -/
theorem allowed_absent (h : Asks host policy r log r') :
    ∀ q ∈ log, policy.check q.path = .ok () ∧ standing q.workspace q.path = .absent := by
  induction h with
  | none => nofun
  | considered _ _ ih => exact ih
  | asked _ allowed absent _ ih =>
    intro q hq
    rcases List.mem_cons.1 hq with rfl | hq
    · exact ⟨allowed, absent⟩
    · exact ih q hq

/-- What is reported are the requests, in order. -/
theorem events_eq (h : Asks host policy r log r') :
    r'.events = r.events ++ log.flatMap Request.events := by
  induction h with
  | none => exact (List.append_nil _).symm
  | considered _ _ ih => exact ih
  | asked _ allowed _ _ ih =>
    rw [ih, (responds_fetch _ _ allowed).events, List.flatMap_cons, ← List.append_assoc]
    rfl

theorem served_of_finished (h : Asks host policy r log r') :
    ∀ q ∈ log, q.finished = true → q.served = true := by
  induction h with
  | none => nofun
  | considered _ _ ih => exact ih
  | asked _ allowed _ _ ih =>
    intro q hq
    rcases List.mem_cons.1 hq with rfl | hq
    · exact (responds_fetch _ _ allowed).served
    · exact ih q hq

theorem root_eq (h : Asks host policy r log r') : r'.workspace.root = r.workspace.root := by
  induction h with
  | none => rfl
  | considered _ _ ih => exact ih
  | @asked r r' path log _ allowed _ _ ih =>
    refine ih.trans ?_
    rcases (responds_fetch host (r.consider path) allowed).workspace with
      hsame | ⟨files, -, hadded⟩
    · rw [hsame]
      rfl
    · rw [hadded]
      exact Workspace.root_addPackage r.workspace path files.toList

/-- A host that keeps a record is asked for exactly these packages, in order. -/
theorem recorded_eq {r r' : Resolver (η × List String)} (h : Asks host.recording policy r log r') :
    r'.host.2 = (log.map Request.path).reverse ++ r.host.2 := by
  induction h with
  | none => rfl
  | considered _ _ ih => exact ih
  | @asked r r' path log _ allowed _ _ ih =>
    have hhost : ((r.consider path).fetch host.recording policy path).2.host.2 =
        path :: r.host.2 := by
      rw [host_fetch allowed]
      rfl
    rw [ih, hhost, List.map_cons, List.reverse_cons, List.append_assoc]
    rfl

/-- The sources of the session change below the directories of the packages that were served. -/
theorem changesBelow (h : Asks host policy r log r') :
    Tree.ChangesBelow (log.filterMap Request.place?) r.workspace.path r'.workspace.path := by
  induction h with
  | none => exact .refl _ _
  | considered _ _ ih => exact ih
  | @asked r r' path log _ allowed _ _ ih =>
    let q := (r.consider path).request host policy path
    have hone : Tree.ChangesBelow ((q :: log).filterMap Request.place?) r.workspace.path
        ((r.consider path).fetch host policy path).2.workspace.path := by
      rcases (responds_fetch host (r.consider path) allowed).workspace with
        hsame | ⟨files, hanswer, hadded⟩
      · rw [hsame]
        exact .refl _ _
      · rw [hadded]
        change Tree.ChangesBelow _ _ (r.workspace.addPackage path files.toList).1.path
        cases hdir : Path.read? (packageDir path) with
        | none =>
          rw [Workspace.path_addPackage_of_read?_eq_none r.workspace hdir]
          exact .refl _ _
        | some place =>
          have hserved : q.served = true := by
            rw [Request.served, hanswer]
            rfl
          refine (Workspace.changesBelow_addPackage r.workspace hdir files.toList).mono ?_
          rw [List.cons_subset, and_iff_left (List.nil_subset _), List.mem_filterMap]
          exact ⟨q, List.mem_cons_self, Request.place?_eq_some_iff.2 ⟨hserved, hdir⟩⟩
    exact hone.trans (ih.mono fun place hplace => List.filterMap_subset _
      (List.subset_cons_self q log) hplace)

end Asks

theorem exists_asks_run (host : Host η) (policy : FetchPolicy) (r : Resolver η)
    (pending : List String) : ∃ log, Asks host policy r log (r.run host policy pending).2 := by
  fun_induction run host policy r pending with
  | case1 r => exact ⟨[], .none⟩
  | case2 r path pending hseen ih => exact ih
  | case3 r path pending hseen next hstanding e hi => exact ⟨[], .considered hseen .none⟩
  | case4 r path pending hseen next hstanding imports hi ih =>
    obtain ⟨log, hlog⟩ := ih
    exact ⟨log, .considered hseen hlog⟩
  | case5 r path pending hseen next hstanding ih =>
    obtain ⟨log, hlog⟩ := ih
    exact ⟨log, .considered hseen hlog⟩
  | case6 r path pending hseen next hstanding e fetched hf =>
    cases hallowed : policy.check path with
    | error e' =>
      -- the policy does not allow the package, and nothing happens
      rw [fetch_of_check_eq_error hallowed] at hf
      cases hf
      exact ⟨[], .considered hseen .none⟩
    | ok _ =>
      refine ⟨[_], .asked hseen hallowed hstanding ?_⟩
      change Asks host policy (next.fetch host policy path).2 [] fetched
      rw [hf]
      exact .none
  | case7 r path pending hseen next hstanding imports fetched hf ih =>
    cases hallowed : policy.check path with
    | error e' =>
      rw [fetch_of_check_eq_error hallowed] at hf
      cases hf
    | ok _ =>
      obtain ⟨log, hlog⟩ := ih
      refine ⟨_ :: log, .asked hseen hallowed hstanding ?_⟩
      change Asks host policy (next.fetch host policy path).2 log _
      rw [hf]
      exact hlog

/-! ### Packages resolved one after the other -/

/-- A resolver after some packages were resolved one after the other, those that failed included. -/
def resolveAll (host : Host η) (policy : FetchPolicy) (r : Resolver η) (paths : List String) :
    Resolver η :=
  paths.foldl (fun r path => (r.resolve host policy path).2) r

theorem exists_asks_resolveAll (host : Host η) (policy : FetchPolicy) (r : Resolver η)
    (paths : List String) : ∃ log, Asks host policy r log (r.resolveAll host policy paths) := by
  induction paths generalizing r with
  | nil => exact ⟨[], .none⟩
  | cons path paths ih =>
    obtain ⟨log, hlog⟩ := exists_asks_run host policy r [path]
    obtain ⟨log', hlog'⟩ := ih (r.resolve host policy path).2
    exact ⟨log ++ log', hlog.trans hlog'⟩

theorem standing_eq_absent_iff {w : Workspace} : standing w path = .absent ↔
    hasSources w.path.view sourceExt path = false ∧
      hasSources w.root.view sourceExt path = false := by
  unfold standing
  cases hasSources w.path.view sourceExt path <;>
    cases hasSources w.root.view sourceExt path <;> simp

/-- Whatever packages are resolved one after the other, successfully or not, the host is asked for
each path once at most, and only for allowed paths for which neither tree lists a source file at
that moment.  What is reported are these requests in order, each followed by its end if what the
host served was stored.  The library stays as it is, and so do the sources of the session, but for
what writing below the directories of the packages that the host served touches.  In memory that
lies in such a directory, or on the way to it where there is no file. -/
theorem requests_resolveAll (host : Host η) (policy : FetchPolicy) (w : Workspace) (state : η)
    (paths : List String) :
    let r := resolveAll host.recording policy ⟨w, (state, []), [], []⟩ paths
    ∃ log : List Request, Asks host.recording policy ⟨w, (state, []), [], []⟩ log r ∧
      r.host.2.reverse = log.map Request.path ∧ (log.map Request.path).Nodup ∧
      (∀ q ∈ log, ('.' ∈ q.path.toList.takeWhile (· ≠ '/') ∧
          String.ofList (q.path.toList.takeWhile (· ≠ '/')) ∈ policy.allowedHosts) ∧
        hasSources q.workspace.path.view sourceExt q.path = false ∧
        hasSources q.workspace.root.view sourceExt q.path = false) ∧
      r.events = log.flatMap Request.events ∧
      (∀ q ∈ log, q.finished = true → q.served = true) ∧
      r.workspace.root = w.root ∧
      ∀ p, r.workspace.path.view.read p = w.path.view.read p ∨ ∃ q ∈ log, ∃ place,
        q.served = true ∧ Path.read? (packageDir q.path) = some place ∧
          Tree.Touches place w.path r.workspace.path p ∧ (w.path.onDisk = false →
            place <+: p ∨ w.path.fileAt? p = none ∧ p <+: place) := by
  obtain ⟨log, hlog⟩ :=
    exists_asks_resolveAll host.recording policy ⟨w, (state, []), [], []⟩ paths
  refine ⟨log, hlog, ?_, hlog.nodup.1, fun q hq => ?_, hlog.events_eq, hlog.served_of_finished,
    hlog.root_eq, fun p => ?_⟩
  · rw [hlog.recorded_eq, List.append_nil, List.reverse_reverse]
  · obtain ⟨hallowed, habsent⟩ := hlog.allowed_absent q hq
    exact ⟨FetchPolicy.check_eq_ok_iff.1 hallowed, standing_eq_absent_iff.1 habsent⟩
  · refine (hlog.changesBelow.read p).imp_right fun ⟨place, hplace, htouched⟩ => ?_
    obtain ⟨q, hq, hplace⟩ := List.mem_filterMap.1 hplace
    obtain ⟨hserved, hdir⟩ := Request.place?_eq_some_iff.1 hplace
    exact ⟨q, hq, place, hserved, hdir, htouched, fun hmemory =>
      htouched.of_memory hmemory (hlog.changesBelow.onDisk.trans hmemory)⟩

/-! ### A file on the way to a package -/

/-- Sources with a file where the directory of a host would be. -/
def fileOnTheWay : MemoryTree := (∅ : MemoryTree).put ["github.com"] "x".toByteArray

def overFile : Workspace := .withLocal (.memory ∅) (.memory fileOnTheWay)

def oneHost : Host (List String) :=
  .ofPackages ((∅ : Named SourceTree).insert "github.com/x/y"
    ((∅ : SourceTree).insert "y.go" "package y\n".toByteArray))

/-- The resolver of that session when it asks for the package. -/
def askingOverFile : Resolver (List String) :=
  consider ⟨overFile, [], [], []⟩ "github.com/x/y"

/-- Resolving the package is asking for it, since it imports nothing. -/
theorem resolve_overFile :
    resolveAll oneHost .default ⟨overFile, [], [], []⟩ ["github.com/x/y"] =
      (askingOverFile.fetch oneHost .default "github.com/x/y").2 := by
  have hstanding : standing overFile "github.com/x/y" = .absent := by decide +kernel
  have himports : (askingOverFile.fetch oneHost .default "github.com/x/y").1.toOption =
      some [] := by
    decide +kernel
  cases hfetch : askingOverFile.fetch oneHost .default "github.com/x/y" with
  | mk answer fetched =>
    rw [hfetch, Results.toOption_eq_some] at himports
    subst himports
    have hrun : run oneHost .default ⟨overFile, [], [], []⟩ ["github.com/x/y"] =
        run oneHost .default fetched [] :=
      run_of_absent List.not_mem_nil hstanding hfetch
    exact congrArg Prod.snd (hrun.trans (run_nil _))

/-- So a file that does not lie in the directory of a package can be gone once the package was
fetched. -/
theorem not_read_unchanged :
    ¬ ∀ (host : Host (List String)) (policy : FetchPolicy) (w : Workspace)
      (state paths : List String) (p : Path) (content : ByteArray),
      let r := resolveAll host policy ⟨w, state, [], []⟩ paths
      w.path.view.read p = .ok content →
        r.workspace.path.view.read p = .ok content ∨
          ∃ path place, .started path ∈ r.events ∧
            Path.read? (packageDir path) = some place ∧ place <+: p := by
  intro h
  have hfile : overFile.path.view.read ["src", "github.com"] = .ok "x".toByteArray := rfl
  have hgone : ((askingOverFile.fetch oneHost .default
    "github.com/x/y").2.workspace.path.view.read ["src", "github.com"]).isOk = false := by
    decide +kernel
  have hevents : (askingOverFile.fetch oneHost .default "github.com/x/y").2.events =
    [.started "github.com/x/y", .finished "github.com/x/y"] := by decide +kernel
  have hafter := h oneHost .default overFile [] ["github.com/x/y"] ["src", "github.com"] _ hfile
  rw [resolve_overFile] at hafter
  rcases hafter with hread | ⟨path, place, hstarted, hdir, hbelow⟩
  · rw [hread] at hgone
    cases hgone
  · rw [hevents] at hstarted
    obtain rfl : path = "github.com/x/y" := by simpa using hstarted
    have hplace : Path.read? (packageDir "github.com/x/y") =
      some ["src", "github.com", "x", "y"] := by decide +kernel
    obtain rfl := Option.some.inj (hdir.symm.trans hplace)
    exact absurd hbelow (by decide)

end Resolver

end Playground
