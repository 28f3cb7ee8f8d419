import Playground.Proofs.Fetch.Prepared
import Playground.Proofs.Fetch.Requests

/-!
# What is available after packages were resolved

A resolver considers an import path once, whatever comes of it.  What it did over any number of
calls, with failures among them, is a list of visits, each with the imports that it followed, and of
the places where calls stopped, each with the packages that were pending there and were dropped
(`Resolver.History`).  A path at which a call stopped is not considered again, and one that was
dropped only when something else leads to it.

So after a call that ends without an error, all that the package imports through the sources of the
session is available, unless it is behind such a path, or behind a package that is no longer as
the resolver found it (`Resolver.hasPackage_of_resolve`).  The latter does not happen when the
session is held in memory and the host serves the files of one directory.
-/

namespace Playground

open Relation

variable {η : Type} {host : Host η} {policy : FetchPolicy} {behind : Tree}
  {t t' temporary : MemoryTree} {place : Path} {path q : String} {pending paths : List String}

/-- The session or the library has source files for a package. -/
def Workspace.HasPackage (w : Workspace) (path : String) : Prop :=
  hasSources w.path.view sourceExt path = true ∨ hasSources w.root.view sourceExt path = true

namespace Resolver

variable {r r₁ r' : Resolver η}

/-! ### Visits -/

/-- Considers one package; the imports to follow. -/
def visit (host : Host η) (policy : FetchPolicy) (r : Resolver η) (path : String) :
    Except FetchError (List String) × Resolver η :=
  match standing r.workspace path with
  | .present => ((importsIn r.workspace.path.view path).mapError .tree, r.consider path)
  | .library => (.ok [], r.consider path)
  | .absent => (r.consider path).fetch host policy path

/-- A package that was considered without an error. -/
structure Visit where
  path : String
  /-- Where the package stood before. -/
  standing : Standing
  /-- The imports that were followed. -/
  imports : List String

/-- The end of a call that failed. -/
structure Stop where
  /-- The package that could not be made available. -/
  path : String
  cause : FetchError
  /-- What was pending. -/
  dropped : List String

/-- How a call ends. -/
def outcome : Option Stop → Except FetchError Unit
  | none => .ok ()
  | some stop => .error stop.cause

/-- What a resolver visits while some packages are pending, and where it stops. -/
inductive Visits (host : Host η) (policy : FetchPolicy) :
    Resolver η → List String → List Visit → Option Stop → Resolver η → Prop where
  | done {r : Resolver η} : Visits host policy r [] [] none r
  | skip {r r' : Resolver η} {path : String} {pending : List String} {visits : List Visit}
      {stop : Option Stop} (seen : path ∈ r.seen)
      (rest : Visits host policy r pending visits stop r') :
      Visits host policy r (path :: pending) visits stop r'
  | next {r r₁ r' : Resolver η} {path : String} {pending imports : List String}
      {visits : List Visit} {stop : Option Stop} (unseen : path ∉ r.seen)
      (found : visit host policy r path = (.ok imports, r₁))
      (rest : Visits host policy r₁ (r₁.newImports imports ++ pending) visits stop r') :
      Visits host policy r (path :: pending) (⟨path, standing r.workspace path, imports⟩ :: visits)
        stop r'
  | stop {r r' : Resolver η} {path : String} {pending : List String} {e : FetchError}
      (unseen : path ∉ r.seen) (failed : visit host policy r path = (.error e, r')) :
      Visits host policy r (path :: pending) [] (some ⟨path, e, pending⟩) r'

/-- What a resolver visited over several calls, and where those of them that failed stopped. -/
inductive History (host : Host η) (policy : FetchPolicy) (start : Resolver η) :
    List String → List Visit → List Stop → Resolver η → Prop where
  | start : History host policy start [] [] [] start
  | call {r r' : Resolver η} {paths : List String} {visits new : List Visit} {stops : List Stop}
      {path : String} {stop : Option Stop} (before : History host policy start paths visits stops r)
      (answer : r.resolve host policy path = (outcome stop, r'))
      (last : Visits host policy r [path] new stop r') :
      History host policy start (paths ++ [path]) (visits ++ new) (stops ++ stop.toList) r'

theorem seen_of_visit {answer : Except FetchError (List String)}
    (h : visit host policy r path = (answer, r₁)) : r₁.seen = path :: r.seen := by
  unfold visit at h
  split at h
  · rw [← (Prod.mk.inj h).2]
    rfl
  · rw [← (Prod.mk.inj h).2]
    rfl
  · rw [← (Prod.mk.inj h).2]
    exact seen_fetch host policy (r.consider path) path

/-- A run visits packages until none is pending or one fails. -/
theorem exists_visits_run (host : Host η) (policy : FetchPolicy) (r : Resolver η)
    (pending : List String) :
    ∃ visits stop, Visits host policy r pending visits stop (r.run host policy pending).2 ∧
      (r.run host policy pending).1 = outcome stop := by
  fun_induction run host policy r pending with
  | case1 r => exact ⟨[], none, .done, rfl⟩
  | case2 r path pending hseen ih =>
    obtain ⟨visits, stop, hvisits, hend⟩ := ih
    exact ⟨visits, stop, .skip hseen hvisits, hend⟩
  | case3 r path pending hseen next hstanding e hi =>
    refine ⟨[], _, .stop hseen ?_, rfl⟩
    rw [visit, hstanding]
    exact congrArg (·, next) (congrArg (Except.mapError FetchError.tree) hi)
  | case4 r path pending hseen next hstanding imports hi ih =>
    obtain ⟨visits, stop, hvisits, hend⟩ := ih
    refine ⟨_, stop, .next hseen ?_ hvisits, hend⟩
    rw [visit, hstanding]
    exact congrArg (·, next) (congrArg (Except.mapError FetchError.tree) hi)
  | case5 r path pending hseen next hstanding ih =>
    obtain ⟨visits, stop, hvisits, hend⟩ := ih
    have hfound : visit host policy r path = (.ok [], next) := by
      rw [visit, hstanding]
      rfl
    exact ⟨_, stop, .next hseen hfound hvisits, hend⟩
  | case6 r path pending hseen next hstanding e fetched hf =>
    refine ⟨[], _, .stop hseen ?_, rfl⟩
    rw [visit, hstanding]
    exact hf
  | case7 r path pending hseen next hstanding imports fetched hf ih =>
    obtain ⟨visits, stop, hvisits, hend⟩ := ih
    refine ⟨_, stop, .next hseen ?_ hvisits, hend⟩
    rw [visit, hstanding]
    exact hf

theorem resolveAll_concat (host : Host η) (policy : FetchPolicy) (r : Resolver η)
    (paths : List String) (path : String) :
    r.resolveAll host policy (paths ++ [path]) =
      ((r.resolveAll host policy paths).resolve host policy path).2 := by
  rw [resolveAll, List.foldl_append]
  rfl

theorem exists_history (host : Host η) (policy : FetchPolicy) (r : Resolver η)
    (paths : List String) :
    ∃ visits stops, History host policy r paths visits stops (r.resolveAll host policy paths) := by
  induction paths using List.reverseRecOn with
  | nil => exact ⟨[], [], .start⟩
  | append_singleton paths path ih =>
    obtain ⟨visits, stops, hbefore⟩ := ih
    obtain ⟨new, stop, hlast, hend⟩ :=
      exists_visits_run host policy (r.resolveAll host policy paths) [path]
    refine ⟨visits ++ new, stops ++ stop.toList, ?_⟩
    rw [resolveAll_concat]
    exact .call hbefore (Prod.ext hend rfl) hlast

theorem History.eq_resolveAll {start : Resolver η} {visits : List Visit} {stops : List Stop}
    (h : History host policy start paths visits stops r) :
    r = start.resolveAll host policy paths := by
  induction h with
  | start => rfl
  | call _ answer _ ih =>
    rw [resolveAll_concat, ← ih, answer]

/-- None of the calls that resolve some packages one after the other fails. -/
def NoneFails (host : Host η) (policy : FetchPolicy) (start : Resolver η) (paths : List String) :
    Prop :=
  ∀ before path after, paths = before ++ path :: after →
    ((start.resolveAll host policy before).resolve host policy path).1 = .ok ()

theorem History.stops_eq_nil {start : Resolver η} {visits : List Visit} {stops : List Stop}
    (h : History host policy start paths visits stops r)
    (hnone : NoneFails host policy start paths) : stops = [] := by
  induction h with
  | start => rfl
  | @call r r' paths visits new stops path stop before answer _ ih =>
    have hstops : stops = [] := by
      refine ih fun earlier p after hpaths => hnone earlier p (after ++ [path]) ?_
      rw [hpaths, List.append_assoc, List.cons_append]
    have hend := hnone paths path [] rfl
    rw [← before.eq_resolveAll, answer] at hend
    cases stop with
    | none => rw [hstops, Option.toList_none, List.append_nil]
    | some s => cases hend

/-! ### What becomes of the imports -/

variable {visits new : List Visit} {stops : List Stop} {last : Option Stop}

/-- Every path that was considered was visited or stopped a call, and every import of a visited
package is considered, pending or dropped. -/
structure Accounted (visits : List Visit) (stops : List Stop) (seen pending : List String) :
    Prop where
  considered : ∀ p ∈ seen, (∃ v ∈ visits, v.path = p) ∨ ∃ s ∈ stops, s.path = p
  followed : ∀ v ∈ visits, ∀ i ∈ v.imports,
    i ∈ seen ∨ i ∈ pending ∨ ∃ s ∈ stops, i ∈ s.dropped

namespace Accounted

variable {seen imports : List String} {e : FetchError}

theorem start : Accounted [] [] [] pending where
  considered _ h := absurd h List.not_mem_nil
  followed _ h := absurd h List.not_mem_nil

theorem mono {pending' : List String} (h : Accounted visits stops seen pending)
    (hmore : ∀ i ∈ pending, i ∈ seen ∨ i ∈ pending') : Accounted visits stops seen pending' where
  considered := h.considered
  followed v hv i hi := by
    rcases h.followed v hv i hi with hseen | hpending | hdropped
    · exact .inl hseen
    · exact (hmore i hpending).imp_right .inl
    · exact .inr (.inr hdropped)

/-- A visit is one path more that was considered, and its imports are pending unless they were
considered before. -/
theorem next (h : Accounted visits stops r.seen (path :: pending))
    (hfound : visit host policy r path = (.ok imports, r₁)) (s : Standing) :
    Accounted (visits ++ [⟨path, s, imports⟩]) stops r₁.seen
      (r₁.newImports imports ++ pending) := by
  have hseen := seen_of_visit hfound
  constructor
  · intro p hp
    rw [hseen] at hp
    rcases List.mem_cons.1 hp with rfl | hp
    · exact .inl ⟨_, List.mem_append_right _ (List.mem_singleton_self _), rfl⟩
    · refine (h.considered p hp).imp_left fun ⟨v, hv, hpath⟩ => ?_
      exact ⟨v, List.mem_append_left _ hv, hpath⟩
  · intro v hv i hi
    rcases List.mem_append.1 hv with hv | hv
    · rcases h.followed v hv i hi with hi | hi | hi
      · exact .inl (hseen ▸ List.mem_cons_of_mem _ hi)
      · rcases List.mem_cons.1 hi with rfl | hi
        · exact .inl (hseen ▸ List.mem_cons_self)
        · exact .inr (.inl (List.mem_append_right _ hi))
      · exact .inr (.inr hi)
    · rw [List.mem_singleton.1 hv] at hi
      exact (mem_seen_or_newImports r₁ pending hi).imp_right .inl

/-- Where a call stops, what is pending is dropped. -/
theorem stop (h : Accounted visits stops r.seen (path :: pending))
    (hfailed : visit host policy r path = (.error e, r')) :
    Accounted visits (stops ++ [⟨path, e, pending⟩]) r'.seen [] := by
  have hseen := seen_of_visit hfailed
  have hlast : (⟨path, e, pending⟩ : Stop) ∈ stops ++ [⟨path, e, pending⟩] :=
    List.mem_append_right _ (List.mem_singleton_self _)
  constructor
  · intro p hp
    rw [hseen] at hp
    rcases List.mem_cons.1 hp with rfl | hp
    · exact .inr ⟨_, hlast, rfl⟩
    · refine (h.considered p hp).imp_right fun ⟨s, hs, hpath⟩ => ?_
      exact ⟨s, List.mem_append_left _ hs, hpath⟩
  · intro v hv i hi
    rcases h.followed v hv i hi with hi | hi | ⟨s, hs, hi⟩
    · exact .inl (hseen ▸ List.mem_cons_of_mem _ hi)
    · rcases List.mem_cons.1 hi with rfl | hi
      · exact .inl (hseen ▸ List.mem_cons_self)
      · exact .inr (.inr ⟨_, hlast, hi⟩)
    · exact .inr (.inr ⟨s, List.mem_append_left _ hs, hi⟩)

theorem of_visits (hrun : Visits host policy r pending new last r')
    (h : Accounted visits stops r.seen pending) :
    Accounted (visits ++ new) (stops ++ last.toList) r'.seen [] := by
  induction hrun generalizing visits with
  | done =>
    rw [List.append_nil, Option.toList_none, List.append_nil]
    exact h
  | @skip r r' path pending new last hpath _ ih =>
    refine ih (h.mono fun i hi => ?_)
    rcases List.mem_cons.1 hi with rfl | hi
    · exact .inl hpath
    · exact .inr hi
  | next _ hfound _ ih =>
    rw [List.append_cons]
    exact ih (h.next hfound _)
  | stop _ hfailed =>
    rw [List.append_nil]
    exact h.stop hfailed

theorem of_history {start : Resolver η} (hstart : start.seen = [])
    (hhistory : History host policy start paths visits stops r) :
    Accounted visits stops r.seen [] := by
  induction hhistory with
  | start =>
    rw [hstart]
    exact .start
  | call _ _ hlast ih => exact of_visits hlast (ih.mono fun i hi => absurd hi List.not_mem_nil)

end Accounted

theorem Visits.subset_seen (h : Visits host policy r pending new last r') :
    r.seen ⊆ r'.seen := by
  induction h with
  | done => exact List.Subset.refl _
  | skip _ _ ih => exact ih
  | @next r r₁ _ path _ _ _ _ _ hfound _ ih =>
    refine List.Subset.trans ?_ ih
    rw [seen_of_visit hfound]
    exact List.subset_cons_self path r.seen
  | @stop r _ path _ _ _ hfailed =>
    rw [seen_of_visit hfailed]
    exact List.subset_cons_self path r.seen

/-- A package that is resolved is considered, whatever comes of it. -/
theorem Visits.mem_seen (h : Visits host policy r (path :: pending) new last r') :
    path ∈ r'.seen := by
  cases h with
  | skip hseen hrest => exact hrest.subset_seen hseen
  | next _ hfound hrest =>
    refine hrest.subset_seen ?_
    rw [seen_of_visit hfound]
    exact List.mem_cons_self
  | stop _ hfailed =>
    rw [seen_of_visit hfailed]
    exact List.mem_cons_self

/-! ### What is available -/

/-- A package is as it was found: the library has it and the session does not, or the session has it
and it imports only what was followed. -/
def Visit.Holds (v : Visit) (w : Workspace) : Prop :=
  match v.standing with
  | .library => hasSources w.path.view sourceExt v.path = false ∧
      hasSources w.root.view sourceExt v.path = true
  | _ => hasSources w.path.view sourceExt v.path = true ∧
      ∀ i, w.path.view.SourceImports v.path i → i ∈ v.imports

/-- A call stopped at a path, or dropped it and it was not considered since. -/
def IsLost (stops : List Stop) (seen : List String) (path : String) : Prop :=
  ∃ s ∈ stops, s.path = path ∨ path ∈ s.dropped ∧ path ∉ seen

/-- A package is no longer as a visit found it. -/
def IsStale (visits : List Visit) (w : Workspace) (path : String) : Prop :=
  ∃ v ∈ visits, v.path = path ∧ ¬ v.Holds w

theorem Visit.Holds.hasPackage {v : Visit} {w : Workspace} (h : v.Holds w) :
    w.HasPackage v.path := by
  unfold Holds at h
  split at h
  · exact .inr h.2
  · exact .inl h.1

/-- What the session has of a package that is as it was found imports only what was followed. -/
theorem Visit.Holds.mem_imports {v : Visit} {w : Workspace} {i : String} (h : v.Holds w)
    (hi : w.path.view.SourceImports v.path i) : i ∈ v.imports := by
  unfold Holds at h
  split at h
  · rw [hi.hasSources] at h
    cases h.1
  · exact h.2 i hi

theorem Accounted.exists_holds_or {seen : List String} (h : Accounted visits stops seen pending)
    (w : Workspace) (hpath : path ∈ seen) :
    (∃ v ∈ visits, v.path = path ∧ v.Holds w) ∨ IsLost stops seen path ∨ IsStale visits w path := by
  rcases h.considered path hpath with ⟨v, hv, rfl⟩ | ⟨s, hs, hstopped⟩
  · by_cases hholds : v.Holds w
    · exact .inl ⟨v, hv, rfl, hholds⟩
    · exact .inr (.inr ⟨v, hv, rfl, hholds⟩)
  · exact .inr (.inl ⟨s, hs, .inl hstopped⟩)

/-- What a package that was considered leads to through the sources of the session was considered or
is behind something that was lost or is stale. -/
theorem Accounted.mem_seen_or_behind {seen : List String} (h : Accounted visits stops seen [])
    (w : Workspace) (hpath : path ∈ seen) (hq : ReflTransGen w.path.view.SourceImports path q) :
    q ∈ seen ∨ ∃ x, ReflTransGen w.path.view.SourceImports path x ∧
      ReflTransGen w.path.view.SourceImports x q ∧ (IsLost stops seen x ∨ IsStale visits w x) := by
  induction hq with
  | refl => exact .inl hpath
  | @tail p i hp hi ih =>
    rcases ih with hseen | ⟨x, hx, hxp, hdoubtful⟩
    · rcases h.exists_holds_or w hseen with ⟨v, hv, rfl, hholds⟩ | hdoubtful
      · -- the import was followed, so it was considered unless a call dropped it
        rcases h.followed v hv i (hholds.mem_imports hi) with hseen | hpending | ⟨s, hs, hdropped⟩
        · exact .inl hseen
        · exact absurd hpending List.not_mem_nil
        · by_cases hseen : i ∈ seen
          · exact .inl hseen
          · exact .inr ⟨i, hp.tail hi, .refl, .inl ⟨s, hs, .inr ⟨hdropped, hseen⟩⟩⟩
      · exact .inr ⟨p, hp, .single hi, hdoubtful⟩
    · exact .inr ⟨x, hx, hxp.tail hi, hdoubtful⟩

/-- What a package that was considered leads to through the sources of the session is available or
behind something that was lost or is stale. -/
theorem Accounted.hasPackage_or_behind {seen : List String} (h : Accounted visits stops seen [])
    (w : Workspace) (hpath : path ∈ seen) (hq : ReflTransGen w.path.view.SourceImports path q) :
    w.HasPackage q ∨ ∃ x, ReflTransGen w.path.view.SourceImports path x ∧
      ReflTransGen w.path.view.SourceImports x q ∧ (IsLost stops seen x ∨ IsStale visits w x) := by
  rcases h.mem_seen_or_behind w hpath hq with hseen | hbehind
  · rcases h.exists_holds_or w hseen with ⟨v, -, rfl, hholds⟩ | hdoubtful
    · exact .inl hholds.hasPackage
    · exact .inr ⟨q, hq, .refl, hdoubtful⟩
  · exact .inr hbehind

/-! ### Sessions held in memory -/

/-- A package stays as it was found while nothing directly in its directory changes. -/
theorem Visit.Holds.of_untouched {v : Visit} (h : v.Holds ⟨behind, .memory t, temporary⟩)
    (ht : t.IsClosed) (ht' : t'.IsClosed)
    (hfiles : ∀ place, Path.read? (packageDir v.path) = some place → ∀ name,
      t'.files[place ++ [name]]? = t.files[place ++ [name]]?) :
    v.Holds ⟨behind, .memory t', temporary⟩ := by
  obtain ⟨place, hplace⟩ : ∃ place, Path.read? (packageDir v.path) = some place := by
    rcases h.hasPackage with hsession | hlibrary
    · exact exists_place_of_hasSources hsession
    · exact exists_place_of_hasSources hlibrary
  have hsame := hfiles place hplace
  have hsources : hasSources t'.view sourceExt v.path = hasSources t.view sourceExt v.path := by
    rw [Bool.eq_iff_iff, hasSources_view_iff ht' hplace, hasSources_view_iff ht hplace]
    simp only [MemoryTree.HoldsSources, MemoryTree.mem_files_iff, hsame]
  have himports (i : String) : t'.view.SourceImports v.path i ↔ t.view.SourceImports v.path i := by
    rw [MemoryTree.sourceImports_view_iff ht' hplace, MemoryTree.sourceImports_view_iff ht hplace]
    simp only [MemoryTree.ImportsAt, hsame]
  unfold Holds at h ⊢
  split at h
  · exact ⟨hsources.trans h.1, h.2⟩
  · exact ⟨hsources.trans h.1, fun i hi => h.2 i ((himports i).1 hi)⟩

/-- A package that is as it was found is not absent, however its path is written. -/
theorem Visit.Holds.read?_ne {v : Visit} {w : Workspace} (h : v.Holds w)
    (habsent : Resolver.standing w path = .absent) :
    Path.read? (packageDir v.path) ≠ Path.read? (packageDir path) := by
  intro hsame
  obtain ⟨hsession, hlibrary⟩ := standing_eq_absent_iff.1 habsent
  rcases h.hasPackage with hholds | hholds <;> rw [hasSources_congr hsame] at hholds
  · rw [hsession] at hholds
    cases hholds
  · rw [hlibrary] at hholds
    cases hholds

/-- A fetch, successful or not, changes nothing directly in the directories of other packages. -/
theorem exists_fetch (policy : FetchPolicy) (hhost : host.ServesNames) (ht : t.IsClosed)
    (hw : r.workspace = ⟨behind, .memory t, temporary⟩) (path : String) :
    ∃ t', (r.fetch host policy path).2.workspace = ⟨behind, .memory t', temporary⟩ ∧ t'.IsClosed ∧
      ∀ place, Path.read? (packageDir path) ≠ some place → ∀ name,
        t'.files[place ++ [name]]? = t.files[place ++ [name]]? := by
  cases hallowed : policy.check path with
  | error e =>
    rw [fetch_of_check_eq_error hallowed]
    exact ⟨t, hw, ht, fun _ _ _ => rfl⟩
  | ok _ =>
    rcases (responds_fetch host r hallowed).workspace with hsame | ⟨files, hanswer, hadded⟩
    · exact ⟨t, hsame.trans hw, ht, fun _ _ _ => rfl⟩
    · rw [hadded, hw]
      have hnames := hhost path r.host files (host.fetch path r.host).2 (Prod.ext hanswer rfl)
      exact exists_addPackage ht fun file hfile => hnames file.1
        (Named.mem_of_getElem? (Std.ExtTreeMap.mem_toList_iff_getElem?_eq_some.1 hfile))

/-- A session is held in memory, and all packages are as they were found. -/
def Kept (behind : Tree) (temporary : MemoryTree) (visits : List Visit) (w : Workspace) : Prop :=
  ∃ t, w = ⟨behind, .memory t, temporary⟩ ∧ t.IsClosed ∧ ∀ v ∈ visits, v.Holds w

theorem Kept.fetch (h : Kept behind temporary visits r.workspace) (hhost : host.ServesNames)
    (habsent : standing r.workspace path = .absent) :
    Kept behind temporary visits ((r.consider path).fetch host policy path).2.workspace := by
  obtain ⟨t, hw, ht, hall⟩ := h
  have hnext : (r.consider path).workspace = ⟨behind, .memory t, temporary⟩ := hw
  obtain ⟨t', hw', ht', hother⟩ := exists_fetch policy hhost ht hnext path
  refine ⟨t', hw', ht', fun v hv => ?_⟩
  have hholds := hall v hv
  have hne := hholds.read?_ne habsent
  rw [hw] at hholds
  rw [hw']
  exact hholds.of_untouched ht ht' fun place hplace => hother place fun he =>
    hne (hplace.trans he.symm)

/-- What a visit finds is so afterwards. -/
theorem holds_visit {imports : List String} (hhost : host.ServesNames) (ht : t.IsClosed)
    (hw : r.workspace = ⟨behind, .memory t, temporary⟩)
    (h : visit host policy r path = (.ok imports, r₁)) :
    Visit.Holds ⟨path, standing r.workspace path, imports⟩ r₁.workspace := by
  have hspec := standing_spec r.workspace path
  unfold visit at h
  split at h
  · rename_i hstanding
    rw [hstanding] at hspec ⊢
    obtain ⟨himports, rfl⟩ := Prod.mk.inj h
    cases hread : importsIn r.workspace.path.view path with
    | error e =>
      rw [hread] at himports
      cases himports
    | ok found =>
      rw [hread] at himports
      cases himports
      exact ⟨hspec, fun i => (mem_importsIn_iff_sourceImports hread).2⟩
  · rename_i hstanding
    rw [hstanding] at hspec ⊢
    cases h
    exact hspec
  · rename_i hstanding
    rw [hstanding] at hspec ⊢
    have hnext : (r.consider path).workspace = ⟨behind, .memory t, temporary⟩ := hw
    obtain ⟨place, t', hplace, hw', hstored⟩ := stored_of_fetch hhost ht hnext h
    have hsession := hspec.1
    rw [hw] at hsession
    have hnone := (hasSources_view_eq_false_iff ht hplace).1 hsession
    rw [hw']
    refine ⟨(hasSources_view_iff hstored.closed hplace).2 hstored.sources, fun i hi => ?_⟩
    exact hstored.imports hnone i ((MemoryTree.sourceImports_view_iff hstored.closed hplace).1 hi)

/-- A visit, whatever comes of it, leaves the other packages as they were found. -/
theorem Kept.others (h : Kept behind temporary visits r.workspace) (policy : FetchPolicy)
    (hhost : host.ServesNames) (path : String) :
    Kept behind temporary visits (visit host policy r path).2.workspace := by
  unfold visit
  split
  · exact h
  · exact h
  · rename_i hstanding
    exact h.fetch hhost hstanding

theorem Kept.next {imports : List String} (h : Kept behind temporary visits r.workspace)
    (hhost : host.ServesNames) (hfound : visit host policy r path = (.ok imports, r₁)) :
    Kept behind temporary (visits ++ [⟨path, standing r.workspace path, imports⟩])
      r₁.workspace := by
  have hothers := h.others policy hhost path
  rw [hfound] at hothers
  obtain ⟨t', hw', ht', hall⟩ := hothers
  obtain ⟨t, hw, ht, -⟩ := h
  refine ⟨t', hw', ht', fun v hv => ?_⟩
  rcases List.mem_append.1 hv with hv | hv
  · exact hall v hv
  · rw [List.mem_singleton.1 hv]
    exact holds_visit hhost ht hw hfound

theorem Kept.of_visits (hhost : host.ServesNames) (hrun : Visits host policy r pending new last r')
    (h : Kept behind temporary visits r.workspace) :
    Kept behind temporary (visits ++ new) r'.workspace := by
  induction hrun generalizing visits with
  | done =>
    rw [List.append_nil]
    exact h
  | skip _ _ ih => exact ih h
  | next _ hfound _ ih =>
    rw [List.append_cons]
    exact ih (h.next hhost hfound)
  | @stop r r' path pending e _ hfailed =>
    have hothers := h.others policy hhost path
    rw [hfailed] at hothers
    rw [List.append_nil]
    exact hothers

theorem Kept.of_history {start : Resolver η} (hhost : host.ServesNames)
    (hstart : start.workspace = ⟨behind, .memory t, temporary⟩) (ht : t.IsClosed)
    (hhistory : History host policy start paths visits stops r) :
    Kept behind temporary visits r.workspace := by
  induction hhistory with
  | start => exact ⟨t, hstart, ht, fun _ hv => absurd hv List.not_mem_nil⟩
  | call _ _ hlast ih => exact of_visits hhost hlast ih

/-! ### Packages resolved one after the other -/

/-- A package that was considered is not looked at again. -/
theorem resolve_of_mem_seen (hseen : path ∈ r.seen) : r.resolve host policy path = (.ok (), r) := by
  rw [resolve, run, dif_pos hseen, run_nil]

/-- So the second of two calls ends without an error, whatever the first came to. -/
theorem resolve_resolve (host : Host η) (policy : FetchPolicy) (r : Resolver η) (path : String) :
    (r.resolve host policy path).2.resolve host policy path =
      (.ok (), (r.resolve host policy path).2) := by
  obtain ⟨visits, last, hvisits, -⟩ := exists_visits_run host policy r [path]
  exact resolve_of_mem_seen hvisits.mem_seen

/-- After any calls, a call that ends without an error makes available all that its package leads to
through the sources of the session, unless it is behind a path at which an earlier call stopped,
behind one that an earlier call dropped and that was not considered since, or behind a package that
is no longer as it was found.  Nothing stopped if no earlier call failed, and in a session held in
memory, with a host that serves the files of one directory, all packages are as they were found. -/
theorem hasPackage_of_resolve {w : Workspace} {state : η}
    (hresolve : (resolveAll host policy ⟨w, state, [], []⟩ paths).resolve host policy path =
      (.ok (), r')) :
    ∃ earlier stops found,
      History host policy ⟨w, state, [], []⟩ paths earlier stops
        (resolveAll host policy ⟨w, state, [], []⟩ paths) ∧
      Visits host policy (resolveAll host policy ⟨w, state, [], []⟩ paths) [path] found none r' ∧
      (∀ q, ReflTransGen r'.workspace.path.view.SourceImports path q →
        r'.workspace.HasPackage q ∨ ∃ x, ReflTransGen r'.workspace.path.view.SourceImports path x ∧
          ReflTransGen r'.workspace.path.view.SourceImports x q ∧
          (IsLost stops r'.seen x ∨ IsStale (earlier ++ found) r'.workspace x)) ∧
      (NoneFails host policy ⟨w, state, [], []⟩ paths → stops = []) ∧
      ∀ t, w.path = .memory t → t.Reachable → host.ServesNames →
        ∀ v ∈ earlier ++ found, v.Holds r'.workspace := by
  obtain ⟨earlier, stops, hhistory⟩ := exists_history host policy ⟨w, state, [], []⟩ paths
  obtain ⟨found, last, hlast, hend⟩ :=
    exists_visits_run host policy (resolveAll host policy ⟨w, state, [], []⟩ paths) [path]
  have hrun : run host policy (resolveAll host policy ⟨w, state, [], []⟩ paths) [path] =
    (.ok (), r') := hresolve
  rw [hrun] at hlast hend
  cases last with
  | some s => cases hend
  | none =>
    refine ⟨earlier, stops, found, hhistory, hlast, fun q hq => ?_, hhistory.stops_eq_nil,
      fun t hw ht hhost => ?_⟩
    · have hall : Accounted (earlier ++ found) (stops ++ []) r'.seen [] :=
        .of_visits hlast ((Accounted.of_history rfl hhistory).mono
          fun i hi => absurd hi List.not_mem_nil)
      rw [List.append_nil] at hall
      exact hall.hasPackage_or_behind r'.workspace hlast.mem_seen hq
    · have hstart : w = ⟨w.root, .memory t, w.temporary⟩ := by rw [← hw]
      obtain ⟨-, -, -, hholds⟩ := Kept.of_visits hhost hlast
        (Kept.of_history hhost hstart (MemoryTree.isClosed_of_reachable ht) hhistory)
      exact hholds

/-! ### A package that no host has -/

/-- A mirror that does not have the one package it is asked for. -/
def emptyHost : Host (List String) :=
  (Mirror.ofAddress "https://example.com/").host
    ⟨(∅ : Named Exchange).insert "https://example.com/github.com/x/y.tar.gz"
      (.answered 404 .empty true), fun _ => .failed Web.noAnswer⟩

/-- The resolver of a session without sources, over an empty library. -/
def overNothing : Resolver (List String) := ⟨.new (.memory ∅), [], [], []⟩

theorem not_hasPackage_overNothing :
    ¬ (overNothing.resolve emptyHost .default "github.com/x/y").2.workspace.HasPackage
      "github.com/x/y" := by
  obtain ⟨visits, last, hvisits, -⟩ :=
    exists_visits_run emptyHost .default overNothing ["github.com/x/y"]
  have hfails : (visit emptyHost .default overNothing "github.com/x/y").1.isOk = false := by
    decide +kernel
  have hafter : standing (visit emptyHost .default overNothing "github.com/x/y").2.workspace
      "github.com/x/y" = .absent := by
    decide +kernel
  have hvisit : (overNothing.resolve emptyHost .default "github.com/x/y").2 =
      (visit emptyHost .default overNothing "github.com/x/y").2 := by
    change (overNothing.run emptyHost .default ["github.com/x/y"]).2 = _
    cases hvisits with
    | skip hseen _ => exact absurd hseen List.not_mem_nil
    | next _ hfound _ =>
      rw [hfound] at hfails
      cases hfails
    | stop _ hfailed => rw [hfailed]
  rw [hvisit]
  obtain ⟨hsession, hlibrary⟩ := standing_eq_absent_iff.1 hafter
  rintro (hholds | hholds)
  · rw [hsession] at hholds
    cases hholds
  · rw [hlibrary] at hholds
    cases hholds

/-- The second call ends without an error, and the package is lost. -/
theorem exists_lost : ∃ r' stops,
    (resolveAll emptyHost .default overNothing ["github.com/x/y"]).resolve emptyHost .default
      "github.com/x/y" = (.ok (), r') ∧
    ¬ r'.workspace.HasPackage "github.com/x/y" ∧ IsLost stops r'.seen "github.com/x/y" ∧
    ∃ visits, History emptyHost .default overNothing ["github.com/x/y"] visits stops
      (resolveAll emptyHost .default overNothing ["github.com/x/y"]) := by
  have hagain : (resolveAll emptyHost .default overNothing ["github.com/x/y"]).resolve emptyHost
      .default "github.com/x/y" =
        (.ok (), resolveAll emptyHost .default overNothing ["github.com/x/y"]) :=
    resolve_resolve emptyHost .default overNothing "github.com/x/y"
  have hmissing : ¬ (resolveAll emptyHost .default overNothing
      ["github.com/x/y"]).workspace.HasPackage "github.com/x/y" := not_hasPackage_overNothing
  obtain ⟨earlier, stops, found, hhistory, -, hall, -, hkept⟩ := hasPackage_of_resolve hagain
  refine ⟨_, stops, hagain, hmissing, ?_, earlier, hhistory⟩
  have hserves : emptyHost.ServesNames := Mirror.servesNames_host _ _
  obtain ⟨x, hx, -, hbehind⟩ := (hall "github.com/x/y" .refl).resolve_left hmissing
  -- nothing is imported by what is missing
  rcases hx.cases_head with rfl | ⟨i, hi, -⟩
  · refine hbehind.resolve_right fun ⟨v, hv, _, hstale⟩ => ?_
    exact hstale (hkept ∅ rfl .empty hserves v hv)
  · exact absurd (.inl hi.hasSources) hmissing

/-- So a call that ends without an error may leave its package missing. -/
theorem not_hasPackage_of_resolve :
    ¬ ∀ (host : Host (List String)) (policy : FetchPolicy) (w : Workspace) (state : List String)
      (paths : List String) (path q : String) (r' : Resolver (List String)),
      (resolveAll host policy ⟨w, state, [], []⟩ paths).resolve host policy path = (.ok (), r') →
        ReflTransGen r'.workspace.path.view.SourceImports path q → r'.workspace.HasPackage q := by
  intro h
  exact not_hasPackage_overNothing (h emptyHost .default _ [] ["github.com/x/y"] _ _ _
    (resolve_resolve emptyHost .default overNothing "github.com/x/y") .refl)

end Resolver

end Playground
