import Mathlib.Data.List.Nodup
import Playground.Fetch.Resolver

/-!
# What a resolver reports

A resolver reports a package twice, when it asks the host for it and when the answer is stored, and
asks for nothing else in between.  So what is reported up to any moment are the packages that the
host served, each once, and at most one more that was begun and not finished
(`Resolver.run_spec`).
-/

namespace Playground

variable {η : Type} {host : Host η} {policy : FetchPolicy} {state state' : η} {paths : List String}
  {path : String} {broken : Option String}

/-- The host, asked for allowed packages one after the other, serves them all. -/
inductive Host.Serves (host : Host η) (policy : FetchPolicy) : η → List String → η → Prop where
  | none {state : η} : Serves host policy state [] state
  | next {state state₁ state₂ : η} {path : String} {paths : List String} {files : SourceTree}
      (allowed : policy.check path = .ok ())
      (answer : host.fetch path state = (.ok files, state₁))
      (rest : Serves host policy state₁ paths state₂) :
      Serves host policy state (path :: paths) state₂

namespace Resolver

variable {r r₁ r' : Resolver η}

/-- The reports about packages that were fetched. -/
def reports (paths : List String) : List FetchEvent :=
  paths.flatMap fun path => [.started path, .finished path]

/-- Between two moments, the host served `paths` and was left in `state`, and `broken` was begun and
not finished.  None of them was considered before. -/
structure Reported (host : Host η) (policy : FetchPolicy) (r r' : Resolver η)
    (paths : List String) (state : η) (broken : Option String) : Prop where
  served : host.Serves policy r.host paths state
  events : r'.events = r.events ++ reports paths ++ broken.toList.map .started
  nodup : (paths ++ broken.toList).Nodup
  unseen : ∀ p ∈ paths ++ broken.toList, p ∉ r.seen

theorem Reported.nothing (h : r'.events = r.events) :
    Reported host policy r r' [] r.host none where
  served := .none
  events := by simp [h, reports]
  nodup := List.nodup_nil
  unseen := by simp

theorem Reported.started (h : r'.events = r.events ++ [.started path]) (hpath : path ∉ r.seen) :
    Reported host policy r r' [] r.host (some path) where
  served := .none
  events := by simp [h, reports]
  nodup := by simp
  unseen := by simpa using hpath

/-- A step before which nothing was reported, but more may have been considered. -/
theorem Reported.after (h : Reported host policy r₁ r' paths state broken)
    (hhost : r₁.host = r.host) (hevents : r₁.events = r.events)
    (hseen : ∀ p ∈ r.seen, p ∈ r₁.seen) :
    Reported host policy r r' paths state broken where
  served := hhost ▸ h.served
  events := hevents ▸ h.events
  nodup := h.nodup
  unseen p hp hr := h.unseen p hp (hseen p hr)

theorem Reported.after_fetch {files : SourceTree}
    (h : Reported host policy r₁ r' paths state broken) (hallowed : policy.check path = .ok ())
    (hanswer : host.fetch path r.host = (.ok files, r₁.host))
    (hevents : r₁.events = r.events ++ [.started path, .finished path])
    (hseen : r₁.seen = path :: r.seen) (hpath : path ∉ r.seen) :
    Reported host policy r r' (path :: paths) state broken where
  served := .next hallowed hanswer h.served
  events := by
    rw [h.events, hevents]
    simp [reports]
  nodup := by
    refine List.nodup_cons.2 ⟨fun hmem => ?_, h.nodup⟩
    exact h.unseen path hmem (hseen ▸ List.mem_cons_self)
  unseen p hp hr := by
    rcases List.mem_cons.1 hp with rfl | hp
    · exact hpath hr
    · exact h.unseen p hp (hseen ▸ List.mem_cons_of_mem _ hr)

/-- What a fetch reports. -/
theorem fetch_spec (host : Host η) (policy : FetchPolicy) (r : Resolver η) (path : String) :
    match r.fetch host policy path with
    | (.ok _, r') => policy.check path = .ok () ∧
      (∃ files, host.fetch path r.host = (.ok files, r'.host)) ∧
        r'.events = r.events ++ [.started path, .finished path]
    | (.error _, r') => r'.events = r.events ∨ r'.events = r.events ++ [.started path] := by
  unfold fetch
  cases hallowed : policy.check path with
  | error e => exact .inl rfl
  | ok _ =>
    have hhost : (r.report (.started path)).host = r.host := rfl
    dsimp only
    rw [hhost]
    cases hanswer : host.fetch path r.host with
    | mk answer state =>
      cases answer with
      | error e => exact .inr rfl
      | ok files =>
        dsimp only [store]
        split
        · rename_i imports r' he
          split at he
          · cases he
          · split at he
            · cases he
            · cases he
              refine ⟨rfl, ⟨files, rfl⟩, ?_⟩
              simp [report]
        · rename_i e r' he
          split at he
          · cases he
            exact .inr rfl
          · split at he
            · cases he
              exact .inr rfl
            · cases he

/-! ### Runs step by step -/

section steps

variable {imports pending : List String} {fetched : Resolver η}

theorem run_nil (r : Resolver η) : r.run host policy [] = (.ok (), r) := by rw [run]

theorem run_of_present (hseen : path ∉ r.seen) (hstanding : standing r.workspace path = .present)
    (hi : importsIn r.workspace.path.view path = .ok imports) :
    r.run host policy (path :: pending) =
      run host policy { r with seen := path :: r.seen }
        (newImports { r with seen := path :: r.seen } imports ++ pending) := by
  rw [run, dif_neg hseen]
  dsimp only
  split
  · split
    · rename_i hi'
      cases hi.symm.trans hi'
    · rename_i hi'
      cases hi.symm.trans hi'
      rfl
  · rename_i hstanding'
    cases hstanding.symm.trans hstanding'
  · rename_i hstanding'
    cases hstanding.symm.trans hstanding'

theorem run_of_library (hseen : path ∉ r.seen) (hstanding : standing r.workspace path = .library) :
    r.run host policy (path :: pending) =
      run host policy { r with seen := path :: r.seen } pending := by
  rw [run, dif_neg hseen]
  dsimp only
  split
  · rename_i hstanding'
    cases hstanding.symm.trans hstanding'
  · rfl
  · rename_i hstanding'
    cases hstanding.symm.trans hstanding'

theorem run_of_absent (hseen : path ∉ r.seen) (hstanding : standing r.workspace path = .absent)
    (hf : fetch host policy { r with seen := path :: r.seen } path = (.ok imports, fetched)) :
    r.run host policy (path :: pending) =
      run host policy fetched (fetched.newImports imports ++ pending) := by
  rw [run, dif_neg hseen]
  dsimp only
  split
  · rename_i hstanding'
    cases hstanding.symm.trans hstanding'
  · rename_i hstanding'
    cases hstanding.symm.trans hstanding'
  · split
    · rename_i hf'
      cases hf.symm.trans hf'
    · rename_i hf'
      cases hf.symm.trans hf'
      rfl

end steps

/-! ### Whole runs -/

/-- What is reported while packages are resolved. -/
theorem run_spec (host : Host η) (policy : FetchPolicy) (r : Resolver η) (pending : List String) :
    ∃ paths state broken,
      Reported host policy r (r.run host policy pending).2 paths state broken ∧
        ((r.run host policy pending).1 = .ok () →
          broken = none ∧ (r.run host policy pending).2.host = state) := by
  fun_induction run host policy r pending with
  | case1 r => exact ⟨[], r.host, none, .nothing rfl, fun _ => ⟨rfl, rfl⟩⟩
  | case2 r path pending hseen ih => exact ih
  | case3 r path pending hseen next hstanding e hi =>
    exact ⟨[], r.host, none, .nothing rfl, nofun⟩
  | case4 r path pending hseen next hstanding imports hi ih =>
    obtain ⟨paths, state, broken, hreported, hok⟩ := ih
    exact ⟨paths, state, broken,
      hreported.after rfl rfl fun p hp => List.mem_cons_of_mem _ hp, hok⟩
  | case5 r path pending hseen next hstanding ih =>
    obtain ⟨paths, state, broken, hreported, hok⟩ := ih
    exact ⟨paths, state, broken,
      hreported.after rfl rfl fun p hp => List.mem_cons_of_mem _ hp, hok⟩
  | case6 r path pending hseen next hstanding e fetched hf =>
    have hfetch := fetch_spec host policy next path
    rw [hf] at hfetch
    rcases hfetch with hnothing | hstarted
    · exact ⟨[], r.host, none, .nothing hnothing, nofun⟩
    · exact ⟨[], r.host, some path, .started hstarted hseen, nofun⟩
  | case7 r path pending hseen next hstanding imports fetched hf ih =>
    have hfetch := fetch_spec host policy next path
    have hfetched := seen_fetch host policy next path
    rw [hf] at hfetch hfetched
    obtain ⟨hallowed, ⟨files, hanswer⟩, hevents⟩ := hfetch
    obtain ⟨paths, state, broken, hreported, hok⟩ := ih
    exact ⟨path :: paths, state, broken,
      hreported.after_fetch hallowed hanswer hevents hfetched hseen, hok⟩

end Resolver

end Playground
