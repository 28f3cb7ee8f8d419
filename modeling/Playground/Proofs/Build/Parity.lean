import Playground.Proofs.Build.Coherence
import Playground.Proofs.Bundle.Rendered

/-!
# Both variants hold the same packages

When packages are bundled, two sessions that hold units of the same packages with the same
dependencies (`VariantSessions.InStep`) stay so.  They read the same packages, since they hold the
same ones; whether a package is accepted does not depend on the variant; and a unit names what its
package imports.  So a pass that fails does so at a package at which the other pass cannot have come
to its end, and neither session changes (`VariantSessions.Reached.builds_inStep`).
-/

namespace Playground

variable {sources : View} {ext : String} {schedule : Schedule} {roots : List String}
  {session : BuildSession} {packages : PackageSet} {c : BuildContext MemoryTree}

/-! ### One pass -/

namespace Pass

variable {p : Pass}

/-- A pass over `session` that found `packages`: it is between two levels, or has come to its
end. -/
inductive OnTrack (sources : View) (ext : String) (session : BuildSession) (roots : List String)
    (packages : PackageSet) (p : Pass) : Prop where
  | under (remaining : List String) (progress : p.Progress sources ext remaining)
      (recorded : p.Recorded Bundle.frontEnd) (result : p.result = none)
      (same_session : p.session = session) (same_roots : p.roots = roots)
      (same_packages : p.packages = packages)
  | ended (ended : p.Ended Bundle.frontEnd session roots packages)

theorem OnTrack.ended_of_stepsLeft (h : p.OnTrack sources ext session roots packages)
    (hp : p.stepsLeft = 0) : p.Ended Bundle.frontEnd session roots packages := by
  cases h with
  | under _ _ _ result =>
    rw [stepsLeft_eq_zero_iff, result] at hp
    cases hp
  | ended ended => exact ended

/-- A package that is not bundled, whatever its dependencies and the variant are. -/
def IsRejected (package : Package) : Prop :=
  ∀ dependencies variant, (Bundle.compile ⟨package, dependencies, variant⟩).isOk = false

theorem Ended.not_isRejected (h : p.Ended Bundle.frontEnd session roots packages) {q : String}
    {package : Package} (hpackage : packages[q]? = some package) : ¬ IsRejected package := by
  intro hrejected
  obtain ⟨unit, request, -, -, rfl, state, hanswer⟩ := h.made q package hpackage
  rw [Bundle.computes_outcome] at hanswer
  have hok : (Bundle.compile request).isOk = true :=
    Results.isOk_iff.2 ⟨unit, Bundle.outcome_eq_built.1 hanswer⟩
  rw [hrejected request.dependencies request.variant] at hok
  cases hok

theorem Ended.dependencies {σ : Type} {frontEnd : FrontEnd σ}
    (h : p.Ended frontEnd session roots packages) (q : String) :
    p.session.units[q]?.map CompiledUnit.dependencies =
      (session.units[q]?.map CompiledUnit.dependencies).or (packages[q]?.map Package.imports) := by
  cases hold : session.units[q]? with
  | some unit => rw [h.kept q unit hold, Option.map_some, Option.some_or]
  | none =>
    cases hnew : packages[q]? with
    | some package =>
      obtain ⟨unit, request, hunit, hdependencies, -⟩ := h.made q package hnew
      rw [hunit, Option.map_some, hdependencies, Option.map_none, Option.none_or, Option.map_some]
    | none =>
      have hnot : ¬ (p.session.units[q]?.isSome = true) := by
        rw [Std.ExtTreeMap.isSome_getElem?_iff_mem, h.mem_units,
          ← Std.ExtTreeMap.isSome_getElem?_iff_mem, ← Std.ExtTreeMap.isSome_getElem?_iff_mem,
          hold, hnew]
        rintro (h | h) <;> cases h
      rw [Option.not_isSome_iff_eq_none.1 hnot]
      rfl

theorem Ended.text (h : p.Ended Bundle.frontEnd session roots packages)
    (htext : ∀ (q : String) (unit : CompiledUnit), session.units[q]? = some unit →
      ∃ text : String, unit.payload = text.toByteArray)
    {q : String} {unit : CompiledUnit} (hunit : p.session.units[q]? = some unit) :
    ∃ text : String, unit.payload = text.toByteArray := by
  rcases (h.mem_units q).1 (Named.mem_of_getElem? hunit) with hold | hnew
  · obtain ⟨unit', hunit'⟩ := Named.mem_iff.1 hold
    have hkept := h.kept q unit' hunit'
    rw [hunit] at hkept
    cases hkept
    exact htext q unit hunit'
  · obtain ⟨package, hpackage⟩ := Named.mem_iff.1 hnew
    obtain ⟨unit', request, hunit', -, -, state, hanswer⟩ := h.made q package hpackage
    rw [hunit] at hunit'
    cases hunit'
    rw [Bundle.computes_outcome] at hanswer
    obtain ⟨text, -, rfl⟩ := Bundle.of_outcome hanswer
    exact ⟨text, rfl⟩

/-- A pass that begins is on its way, if its session is coherent; one that does not begin does not
fail for the other variant. -/
theorem ensures_start_onTrack :
    Ensures (start schedule sources ext roots session) c
      (fun p c' => c' = { c with cancelled := c.cancelled || schedule.interrupted } ∧
        ∃ packages, PackageSet.discover sources ext
            (fun path => session.units.contains path) roots = .ok packages ∧
          (session.units.IsCoherent → p.OnTrack sources ext session roots packages))
      (fun e _ => ∀ onlyOptimized onlyFull, e ≠ .variantMismatch onlyOptimized onlyFull) := by
  refine ensures_start_cases.mono ?_ ?_
  · rintro p c' ⟨-, -, rfl, packages, waves, hdiscover, hwaves, rfl⟩
    refine ⟨rfl, packages, hdiscover, fun hcoherent => ?_⟩
    have hprogress := Progress.start session hdiscover hwaves
    exact .under _ hprogress (.start _ hcoherent hprogress hwaves) rfl rfl rfl rfl
  · rintro e c' ⟨-, hwhy⟩ onlyOptimized onlyFull rfl
    obtain ⟨-, he⟩ | ⟨cause, -, he⟩ | ⟨packages, -, -, he⟩ | ⟨-, he⟩ := hwhy <;> cases he

theorem Progress.exists_isRejected {remaining wave : List String} {waves : List (List String)}
    (h : p.Progress sources ext remaining) (hwaves : p.waves = wave :: waves) {q : String}
    (hq : q ∈ wave) {request : CompileRequest} (hrequest : p.request q = .ok request)
    (hfail : ∀ unit, Bundle.outcome request ≠ .built unit) :
    ∃ package, p.packages[q]? = some package ∧ IsRejected package := by
  obtain ⟨package, hpackage, -, hrequest'⟩ := h.request ((h.mem_wave_iff hwaves).1 hq)
  rw [hrequest] at hrequest'
  cases hrequest'
  refine ⟨package, hpackage, fun dependencies variant => ?_⟩
  rw [Bundle.isOk_compile package dependencies _ variant p.session.variant, ← Bool.not_eq_true,
    Results.isOk_iff]
  rintro ⟨unit, hunit⟩
  exact hfail unit (Bundle.outcome_eq_built.2 hunit)

/-- A step of a pass on its track that nobody cancels comes one step closer to the end.  It fails
only at a package that is not bundled. -/
theorem OnTrack.ensures_step (h : p.OnTrack sources ext session roots packages)
    (hresult : p.result.isNone = true) (hc : c.cancelled = false) :
    Ensures (p.step Bundle.frontEnd schedule) c
      (fun p' c' => p'.OnTrack sources ext session roots packages ∧
        p'.stepsLeft + 1 = p.stepsLeft ∧ c'.cancelled = false)
      (fun e _ => (∀ onlyOptimized onlyFull, e ≠ .variantMismatch onlyOptimized onlyFull) ∧
        p.session = session ∧
          ∃ (q : String) (package : Package), packages[q]? = some package ∧ IsRejected package) := by
  have hf := Bundle.computes_outcome.isFaithful Bundle.faithful_outcome
  cases h with
  | ended ended =>
    have := ended.isSome_result
    simp_all
  | under remaining progress recorded result same_session same_roots same_packages =>
    subst same_session same_roots same_packages
    have hleft : p.stepsLeft = p.waves.length + 1 := by rw [stepsLeft, result]; rfl
    cases hwaves : p.waves with
    | nil =>
      refine (recorded.ensures_end hf progress hwaves).mono ?_ fun e c' he => he.elim
      rintro p' c' ⟨hended, rfl⟩
      refine ⟨.ended hended, ?_, hc⟩
      rw [hleft, stepsLeft, hended.isSome_result, hwaves]
      rfl
    | cons wave waves =>
      refine progress.ensures_level hwaves fun requests hrequests => ?_
      have hcompiled := (ensures_compileAll Bundle.computes_outcome
        (schedule.arrange requests)).and (ensures_compileAll_answers
          (c := announce p.session.variant wave c) (schedule.arrange requests))
      refine hcompiled.mono ?_ ?_
      · rintro units c' ⟨⟨-, hcancelled, -⟩, hunits, -⟩
        obtain ⟨progress', recorded'⟩ :=
          recorded.level hf progress hwaves hrequests (schedule.perm requests) hunits
        refine ⟨.under _ progress' recorded' result rfl rfl rfl, ?_, hcancelled.trans hc⟩
        rw [hleft, hwaves, stepsLeft, result]
        rfl
      · rintro e c' ⟨⟨hwhy, -⟩, hkind⟩
        refine ⟨fun onlyOptimized onlyFull => ?_, rfl, ?_⟩
        · rintro rfl
          rcases hkind with h | ⟨cause, h⟩ | ⟨cause, h⟩ <;> cases h
        · rcases hwhy with hcancelled | ⟨request, hmem, hfail⟩
          · have := hcancelled.symm.trans hc
            cases this
          · obtain ⟨q, hq, hrequest⟩ :=
              exists_of_forall₂_right hrequests ((schedule.perm requests).mem_iff.1 hmem)
            obtain ⟨package, hpackage, hrejected⟩ :=
              progress.exists_isRejected hwaves hq hrequest hfail
            exact ⟨q, package, hpackage, hrejected⟩

end Pass

/-! ### Both sessions -/

namespace VariantSessions

/-- Both sessions hold coherent units of the same packages with the same dependencies, and all
payloads are texts. -/
structure InStep (s : VariantSessions) : Prop where
  coherent : ∀ variant, (s.get variant).units.IsCoherent
  dependencies : ∀ p : String, s.optimized.units[p]?.map CompiledUnit.dependencies =
    s.full.units[p]?.map CompiledUnit.dependencies
  text : ∀ variant (p : String) (unit : CompiledUnit),
    (s.get variant).units[p]? = some unit → ∃ text : String, unit.payload = text.toByteArray

variable {s s' : VariantSessions} {passes : PerVariant Pass}

theorem InStep.mem_iff (h : s.InStep) (p : String) :
    p ∈ s.optimized.units ↔ p ∈ s.full.units := by
  have hsome := congrArg Option.isSome (h.dependencies p)
  rw [Option.isSome_map, Option.isSome_map, Bool.eq_iff_iff] at hsome
  rwa [Std.ExtTreeMap.isSome_getElem?_iff_mem, Std.ExtTreeMap.isSome_getElem?_iff_mem] at hsome

theorem InStep.names_eq (h : s.InStep) : s.optimized.units.Names = s.full.units.Names := by
  have hnames (units : UnitSet) (p d : String) : units.Names p d ↔
      ∃ ds, units[p]?.map CompiledUnit.dependencies = some ds ∧ d ∈ ds := by
    constructor
    · rintro ⟨unit, hunit, hd⟩
      exact ⟨unit.dependencies, by rw [hunit, Option.map_some], hd⟩
    · rintro ⟨ds, hds, hd⟩
      obtain ⟨unit, hunit, rfl⟩ := Option.map_eq_some_iff.1 hds
      exact ⟨unit, hunit, hd⟩
  funext p d
  rw [eq_iff_iff, hnames, hnames, h.dependencies]

theorem inStep_new : new.InStep := by
  have hnone (variant : Variant) (p : String) : (new.get variant).units[p]? = none := by
    cases variant <;> exact Std.ExtTreeMap.getElem?_empty
  refine ⟨fun variant => ?_, fun p => ?_, fun variant p unit hunit => ?_⟩
  · cases variant <;> exact UnitSet.isCoherent_empty
  · exact congrArg (Option.map _) ((hnone .optimized p).trans (hnone .full p).symm)
  · rw [hnone] at hunit
    cases hunit

/-- Sessions in step can be rendered. -/
theorem InStep.exists_render (h : s.InStep) :
    ∃ rendered, RenderedSet.render s.units = .ok rendered := by
  refine RenderedSet.exists_render fun p full hfull => ?_
  have hp : p ∈ s.full.units := Named.mem_of_getElem? hfull
  obtain ⟨optimized, hoptimized⟩ := Named.mem_iff.1 ((h.mem_iff p).2 hp)
  have hget : s.units.optimized[p]? = some optimized := hoptimized
  obtain ⟨text, htext⟩ := h.text .full p full hfull
  obtain ⟨text', htext'⟩ := h.text .optimized p optimized hoptimized
  rw [hget, RenderedSet.renderPackage, Artifact.render_of_payload htext,
    Artifact.render_of_payload htext']
  exact ⟨_, rfl⟩

/-! ### The beginning of both passes -/

/-- Over sessions in step both passes find the same packages. -/
theorem InStep.ensures_start (h : s.InStep) (sources : View) (ext : String) (roots : List String)
    (hinterrupted : schedule.interrupted = false) (hc : c.cancelled = false) :
    Ensures (do
      let optimized ← Pass.start schedule sources ext roots s.optimized
      let full ← Pass.start schedule sources ext roots s.full
      return (⟨optimized, full⟩ : PerVariant Pass)) c
      (fun passes c' => c'.cancelled = false ∧ ∃ packages, ∀ variant,
        (passes.get variant).OnTrack sources ext (s.get variant) roots packages)
      (fun e _ => ∀ onlyOptimized onlyFull, e ≠ .variantMismatch onlyOptimized onlyFull) := by
  have hcontains : (fun path => s.optimized.units.contains path) =
      fun path => s.full.units.contains path := by
    funext path
    rw [Bool.eq_iff_iff, Std.ExtTreeMap.contains_iff_mem, Std.ExtTreeMap.contains_iff_mem]
    exact h.mem_iff path
  rw [Ensures.bind_iff]
  refine Pass.ensures_start_onTrack.mono ?_ fun e c' hkind => hkind
  rintro optimized c₁ ⟨rfl, packages, hdiscover, hoptimized⟩
  rw [Ensures.bind_iff]
  refine Pass.ensures_start_onTrack.mono ?_ fun e c' hkind => hkind
  rintro full c₂ ⟨rfl, packages', hdiscover', hfull⟩
  rw [← hcontains, hdiscover] at hdiscover'
  cases hdiscover'
  rw [Ensures.pure_iff]
  refine ⟨?_, packages, fun variant => ?_⟩
  · simp [hc, hinterrupted]
  · cases variant with
    | optimized => exact hoptimized (h.coherent .optimized)
    | full => exact hfull (h.coherent .full)

/-! ### Both passes -/

/-- All steps of two passes on their tracks, in whatever turns.  They fail only before either has
come to its end. -/
theorem steps_onTrack (schedule : Schedule) {left : Nat} (hc : c.cancelled = false)
    (hleft : passes.optimized.stepsLeft + passes.full.stepsLeft = left)
    (h : ∀ variant, (passes.get variant).OnTrack sources ext (s.get variant) roots packages) :
    match steps Bundle.frontEnd schedule left passes c with
    | (.ok (), passes', _) => ∀ variant,
      (passes'.get variant).Ended Bundle.frontEnd (s.get variant) roots packages
    | (.error e, passes', _) =>
      (∀ onlyOptimized onlyFull, e ≠ .variantMismatch onlyOptimized onlyFull) ∧
        ∀ variant, (passes'.get variant).session = s.get variant := by
  induction left generalizing passes c with
  | zero =>
    intro variant
    refine (h variant).ended_of_stepsLeft ?_
    cases variant
    · exact (Nat.add_eq_zero_iff.1 hleft).1
    · exact (Nat.add_eq_zero_iff.1 hleft).2
  | succ left ih =>
    have hnone : (passes.get (next schedule (left + 1) passes)).result.isNone = true :=
      isNone_next hleft
    rw [steps]
    generalize next schedule (left + 1) passes = turn at hnone ⊢
    have hstep : Ensures ((passes.get turn).step Bundle.frontEnd schedule) c _ _ :=
      (h turn).ensures_step hnone hc
    unfold Ensures at hstep
    split at hstep
    · rename_i p c' he
      rw [he]
      obtain ⟨hp, hsteps, hc'⟩ := hstep
      have hset := stepsLeft_set hsteps
      refine ih hc' (by omega) fun variant => ?_
      by_cases hv : turn = variant
      · subst hv
        rwa [PerVariant.get_set_self]
      · rw [PerVariant.get_set_of_ne hv]
        exact h variant
    · rename_i e c' he
      rw [he]
      obtain ⟨hkind, -, q, package, hpackage, hrejected⟩ := hstep
      refine ⟨hkind, fun variant => ?_⟩
      -- the package that was rejected here is one of the other pass too
      cases h variant with
      | under _ _ _ _ same_session => exact same_session
      | ended ended => exact absurd hrejected (ended.not_isRejected hpackage)

/-- Passes that came to their ends leave sessions in step. -/
theorem InStep.of_ended (h : s.InStep)
    (hended : ∀ variant,
      (passes.get variant).Ended Bundle.frontEnd (s.get variant) roots packages) :
    InStep (passes.map Pass.session) := by
  have hget (variant : Variant) : (passes.map Pass.session).get variant =
      (passes.get variant).session := PerVariant.get_map Pass.session
  constructor
  · intro variant
    rw [hget]
    exact (hended variant).coherent
  · intro p
    calc passes.optimized.session.units[p]?.map CompiledUnit.dependencies
        = (s.optimized.units[p]?.map CompiledUnit.dependencies).or
            (packages[p]?.map Package.imports) := (hended .optimized).dependencies p
      _ = (s.full.units[p]?.map CompiledUnit.dependencies).or
            (packages[p]?.map Package.imports) := by rw [h.dependencies]
      _ = passes.full.session.units[p]?.map CompiledUnit.dependencies :=
          ((hended .full).dependencies p).symm
  · intro variant p unit hunit
    rw [hget] at hunit
    exact (hended variant).text (h.text variant) hunit

theorem InStep.checkParity_eq_ok {units : VariantUnits} (h : s.InStep)
    (hreach : ∀ variant, (s.get variant).units.IsReachOf roots (units.get variant)) :
    checkParity units = .ok () := by
  refine VariantSessions.checkParity_eq_ok fun p => ?_
  have hoptimized := (hreach .optimized).mem_iff (p := p)
  have hfull := (hreach .full).mem_iff (p := p)
  have hmem : p ∈ (s.get .optimized).units ↔ p ∈ (s.get .full).units := h.mem_iff p
  have hnames : (s.get .optimized).units.Names = (s.get .full).units.Names := h.names_eq
  rw [hmem, hnames] at hoptimized
  exact hoptimized.trans hfull.symm

/-! ### Histories of builds -/

/-- A build in both variants over sessions in step that nobody cancels leaves them in step, and
changes nothing if it fails. -/
theorem InStep.build (h : s.InStep) (sources : View) (ext : String) (roots : List String)
    (hinterrupted : schedule.interrupted = false) (hc : c.cancelled = false) :
    match VariantSessions.build Bundle.frontEnd schedule sources ext roots s c with
    | (.ok _, s', _) => s'.InStep
    | (.error e, s', _) =>
      (∀ onlyOptimized onlyFull, e ≠ .variantMismatch onlyOptimized onlyFull) ∧ s' = s := by
  have hstart := h.ensures_start sources ext roots hinterrupted hc
  unfold Ensures at hstart
  unfold VariantSessions.build
  dsimp only
  split at hstart
  · rename_i passes c₁ he
    rw [he]
    obtain ⟨hc₁, packages, htrack⟩ := hstart
    have hsteps := steps_onTrack schedule hc₁ rfl htrack
    dsimp only
    split at hsteps
    · rename_i passes' c₂ he₂
      rw [he₂]
      have hstep := h.of_ended hsteps
      have hparity : checkParity (passes'.map Pass.units) = .ok () := by
        have hreach : ∀ variant, ((passes'.map Pass.session).get variant).units.IsReachOf roots
            ((passes'.map Pass.units).get variant) := fun variant => by
          rw [PerVariant.get_map, PerVariant.get_map]
          exact (hsteps variant).reach
        exact hstep.checkParity_eq_ok hreach
      dsimp only
      rw [hparity]
      exact hstep
    · rename_i e passes' c₂ he₂
      rw [he₂]
      obtain ⟨hkind, hsame⟩ := hsteps
      refine ⟨hkind, ?_⟩
      have hoptimized : passes'.optimized.session = s.optimized := hsame .optimized
      have hfull : passes'.full.session = s.full := hsame .full
      rw [PerVariant.map, hoptimized, hfull]
  · rename_i e c₁ he
    rw [he]
    exact ⟨hstart, rfl⟩

/-- Sessions that come from fresh ones by builds of bundled packages in both variants that nobody
cancels, of any roots from any sources, whether they succeed or fail. -/
inductive Reached : VariantSessions → Prop where
  | new : Reached .new
  | build {s : VariantSessions} (before : Reached s) (schedule : Schedule) (sources : View)
      (ext : String) (roots : List String) (c : BuildContext MemoryTree)
      (uninterrupted : schedule.interrupted = false) (uncancelled : c.cancelled = false) :
      Reached (VariantSessions.build Bundle.frontEnd schedule sources ext roots s c).2.1

theorem Reached.isInStep (h : Reached s) : s.InStep := by
  induction h with
  | new => exact inStep_new
  | @build s before schedule sources ext roots c uninterrupted uncancelled ih =>
    have hbuild := ih.build sources ext roots uninterrupted uncancelled
    split at hbuild
    · rename_i units s' c' he
      rw [he]
      exact hbuild
    · rename_i e s' c' he
      rw [he, hbuild.2]
      exact ih

/-- After any history of builds that nobody cancelled, both sessions hold units of the same packages
with the same dependencies, and what they hold can be rendered.  The next such build never finds
that the variants differ, and leaves both sessions as they were if it fails. -/
theorem Reached.builds_inStep (h : Reached s) :
    (∀ p : String, s.optimized.units[p]?.map CompiledUnit.dependencies =
      s.full.units[p]?.map CompiledUnit.dependencies) ∧
    (∃ rendered, RenderedSet.render s.units = .ok rendered) ∧
    ∀ (schedule : Schedule) (sources : View) (ext : String) (roots : List String)
      (c : BuildContext MemoryTree), schedule.interrupted = false → c.cancelled = false →
      ∀ e, (VariantSessions.build Bundle.frontEnd schedule sources ext roots s c).1 = .error e →
        (∀ onlyOptimized onlyFull, e ≠ .variantMismatch onlyOptimized onlyFull) ∧
          (VariantSessions.build Bundle.frontEnd schedule sources ext roots s c).2.1 = s := by
  have hstep := h.isInStep
  refine ⟨hstep.dependencies, hstep.exists_render, ?_⟩
  intro schedule sources ext roots c hinterrupted hc e he
  have hbuild := hstep.build sources ext roots hinterrupted hc
  split at hbuild
  · rename_i units s' c' hresult
    rw [hresult] at he
    cases he
  · rename_i e' s' c' hresult
    rw [hresult] at he ⊢
    cases he
    exact hbuild

/-- The sessions that bundled a package and what it imports hold the package, with the same
dependencies, and a build of packages that are not there leaves them as they were. -/
theorem exists_inStep_twoPackages :
    ∃ s, Reached s ∧ "b" ∈ s.full.units ∧
      s.optimized.units["b"]?.map CompiledUnit.dependencies =
        s.full.units["b"]?.map CompiledUnit.dependencies ∧
      (VariantSessions.build Bundle.frontEnd .inOrder BuildSession.twoPackages.view "go" ["c"] s
        ⟨∅, false, []⟩).2.1 = s := by
  have hmissing : (Package.load BuildSession.twoPackages.view "go" "c").isOk = false := by
    decide +kernel
  have hsound : new.IsSound BuildSession.twoPackages.view "go" Bundle.outcome := isSound_new
  have hspec := build_spec Bundle.faithful_outcome Bundle.computes_outcome .inOrder ["b"]
    ⟨∅, false, []⟩ hsound
  have hreached := Reached.build .new .inOrder BuildSession.twoPackages.view "go" ["b"]
    ⟨∅, false, []⟩ rfl rfl
  split at hspec
  · rename_i units s c he
    rw [he] at hreached
    obtain ⟨-, hsound, hmem, -, -⟩ := hspec
    have hinStep := Reached.builds_inStep hreached
    refine ⟨s, hreached, (hmem .full "b").2 (.inr (.of_mem (List.mem_singleton_self "b"))),
      hinStep.1 "b", ?_⟩
    have hnext := build_spec Bundle.faithful_outcome Bundle.computes_outcome .inOrder ["c"]
      ⟨∅, false, []⟩ hsound
    split at hnext
    · obtain ⟨package, hload⟩ := ((hnext.1 .full).buildable).loads "c" (.of_mem (by simp))
      rw [hload] at hmissing
      cases hmissing
    · rename_i e s' c' he'
      have hfail := hinStep.2.2 .inOrder BuildSession.twoPackages.view "go" ["c"] ⟨∅, false, []⟩
        rfl rfl e (congrArg Prod.fst he')
      exact hfail.2
  · obtain ⟨hcancelled | hinterrupted | hstaff | ⟨variant, hnot⟩, -⟩ := hspec
    · cases hcancelled
    · cases hinterrupted
    · exact absurd hstaff (by decide)
    · obtain ⟨-, unit, hunit⟩ := BuildSession.exists_meaning_twoPackages variant
      exact absurd hunit.buildable hnot

end VariantSessions

end Playground
