import Playground.Build.Variants
import Playground.Proofs.Build.Refinement

/-!
# Builds in both variants give meanings

Two passes over sound sessions are each on their way (`Pass.OnWay`) through the levels of one build
order, whatever turns they take.  So a build in both variants answers with the meanings in both, the
sessions stay sound, and what is announced in a variant begins a build order, and is all of it when
the build succeeds (`VariantSessions.build_spec`).
-/

namespace Playground

variable {σ : Type} {sources : View} {ext : String} {f : CompileRequest → Outcome}
  {frontEnd : FrontEnd σ} {schedule : Schedule} {roots : List String} {c : BuildContext σ}
  {session : BuildSession} {order : List String}

/-! ### Orders of a build -/

/-- The packages that the roots need and that are not held yet, each once and after those that it
imports. -/
structure IsBuildOrder (sources : View) (ext : String) (held : UnitSet) (roots : List String)
    (order : List String) : Prop where
  nodup : order.Nodup
  mem : ∀ p, p ∈ order ↔ Needs sources ext roots p ∧ p ∉ held
  imports_before : ∀ before p rest, order = before ++ p :: rest →
    ∀ d, Imports sources ext p d → d ∈ held ∨ d ∈ before

theorem Pass.IsBegun.isBuildOrder {p : Pass} (h : p.IsBegun sources ext f session roots) :
    IsBuildOrder sources ext session.units roots p.waves.flatten := by
  obtain ⟨hinv, hbuilt, -, rfl, rfl⟩ := h
  have hperm := ImportGraph.perm_flatten hinv.levels
  have hunknown : ∀ q ∈ p.packages, q ∉ p.session.units := by
    intro q hq hheld
    have := hinv.found.unknown q hq
    rw [Std.ExtTreeMap.contains_iff_mem.2 hheld] at this
    cases this
  constructor
  · exact hperm.nodup_iff.2 hinv.nodup
  · intro q
    rw [hperm.mem_iff, PackageSet.mem_nodes_iff]
    constructor
    · exact fun hq => ⟨hinv.found.needed q (.inl hq), hunknown q hq⟩
    · rintro ⟨hneeds, hheld⟩
      exact (hinv.mem_of_needs hneeds).resolve_left hheld
  · intro before q rest he d hd
    have hq : q ∈ p.packages := by
      rw [← PackageSet.mem_nodes_iff, ← hperm.mem_iff, he]
      exact List.mem_append_right _ List.mem_cons_self
    rcases hinv.found.closed q hq d hd with hknown | hfound | hqueue
    · exact .inl (Std.ExtTreeMap.contains_iff_mem.1 hknown)
    · exact .inr (ImportGraph.dependency_before hinv.levels he
        (hinv.found.dependsOn_iff.2 ⟨hq, hd, hfound⟩) (PackageSet.mem_nodes_iff.2 hfound))
    · cases hqueue

/-! ### One pass on its way -/

/-- The packages that were announced in a variant, in order. -/
def BuildContext.announcedIn (c : BuildContext σ) (variant : Variant) : List String :=
  (c.announced.filter (·.1 = variant)).map Prod.snd

theorem BuildContext.announcedIn_announce (variant variant' : Variant) (wave : List String) :
    (Pass.announce variant wave c).announcedIn variant' =
      c.announcedIn variant' ++ if variant = variant' then wave else [] := by
  have hwave : ((wave.map fun path => (variant, path)).filter (·.1 = variant')).map Prod.snd =
      if variant = variant' then wave else [] := by
    induction wave with
    | nil => simp
    | cons path wave ih =>
      by_cases h : variant = variant' <;> simp_all
  rw [announcedIn, Pass.announce, List.filter_append, List.map_append, hwave]
  rfl

theorem BuildContext.announcedIn_congr {c' : BuildContext σ} (h : c'.announced = c.announced)
    (variant : Variant) : c'.announcedIn variant = c.announcedIn variant := by
  rw [announcedIn, announcedIn, h]

/-- A pass over `session` when `told` was announced of `order`: its levels are what is left to
announce, or it has come to its end. -/
inductive Pass.OnWay (sources : View) (ext : String) (f : CompileRequest → Outcome)
    (session : BuildSession) (roots order : List String) (p : Pass) (told : List String) :
    Prop where
  | under (remaining : List String) (invariant : p.Invariant sources ext f remaining)
      (result : p.result = none) (levels : told ++ p.waves.flatten = order)
      (same_session : p.session = session) (same_roots : p.roots = roots)
  | done (isDone : p.IsDone sources ext f session roots) (told_all : told = order)

namespace Pass

variable {p : Pass} {told : List String}

theorem IsBegun.onWay (h : p.IsBegun sources ext f session roots) :
    p.OnWay sources ext f session roots p.waves.flatten [] :=
  .under _ h.invariant h.result rfl h.session h.roots

theorem OnWay.told_prefix (h : p.OnWay sources ext f session roots order told) :
    told <+: order := by
  cases h with
  | under _ _ _ levels => exact ⟨_, levels⟩
  | done _ told_all => exact told_all ▸ List.prefix_rfl

/-- A step of a pass on its way announces a part of what is left and comes one step closer to the
end.  It fails only if the session is cancelled or the roots are not buildable. -/
theorem OnWay.ensures_step (h : p.OnWay sources ext f session roots order told)
    (hresult : p.result.isNone = true) (hf : Faithful f) (hcomputes : frontEnd.Computes f) :
    Ensures (p.step frontEnd schedule) c
      (fun p' c' => ∃ wave, p'.OnWay sources ext f session roots order (told ++ wave) ∧
        p'.stepsLeft + 1 = p.stepsLeft ∧ c'.cancelled = c.cancelled ∧
          c'.announced = (announce session.variant wave c).announced)
      (fun _ c' => (c.cancelled = true ∨ ¬ Buildable sources ext f session.variant roots) ∧
        ∃ wave, told ++ wave <+: order ∧
          c'.announced = (announce session.variant wave c).announced) := by
  cases h with
  | done isDone =>
    have := isDone.isSome_result
    simp_all
  | under remaining invariant result levels same_session same_roots =>
    subst same_session same_roots levels
    have hleft : p.stepsLeft = p.waves.length + 1 := by rw [stepsLeft, result]; rfl
    cases hwaves : p.waves with
    | nil =>
      refine (ensures_finish invariant hf hwaves).mono ?_ fun e c' he => he.elim
      rintro p' c' ⟨hdone, rfl⟩
      refine ⟨[], .done hdone ?_, ?_, rfl, ?_⟩
      · simp
      · rw [hleft, stepsLeft, hdone.isSome_result, hwaves]
        rfl
      · simp [announce]
    | cons wave waves =>
      refine (ensures_level invariant hf hcomputes hwaves).mono ?_ ?_
      · rintro p' c' ⟨units, remaining', rfl, hinvariant, hc', hsaid⟩
        refine ⟨wave, .under remaining' hinvariant result ?_ rfl rfl, ?_, hc', hsaid⟩
        · simp
        · rw [hleft, hwaves, stepsLeft, result]
          rfl
      · rintro e c' ⟨hwhy, hsaid⟩
        refine ⟨hwhy, wave, ⟨waves.flatten, ?_⟩, hsaid⟩
        simp

theorem stepsLeft_eq_zero_iff : p.stepsLeft = 0 ↔ p.result.isSome = true := by
  rw [stepsLeft]
  split <;> simp_all

theorem OnWay.isDone (h : p.OnWay sources ext f session roots order told) (hp : p.stepsLeft = 0) :
    p.IsDone sources ext f session roots ∧ told = order := by
  cases h with
  | under _ _ result =>
    rw [stepsLeft_eq_zero_iff, result] at hp
    cases hp
  | done isDone told_all => exact ⟨isDone, told_all⟩

end Pass

/-! ### Both passes -/

namespace PerVariant

variable {α β : Type} {x : PerVariant α} {a : α} {variant variant' : Variant}

@[simp]
theorem get_set_self : (x.set variant a).get variant = a := by cases variant <;> rfl

theorem get_set_of_ne (h : variant ≠ variant') :
    (x.set variant a).get variant' = x.get variant' := by
  cases variant <;> cases variant' <;> first | rfl | exact absurd rfl h

@[simp]
theorem get_map (g : α → β) : (x.map g).get variant = g (x.get variant) := by cases variant <;> rfl

end PerVariant

/-- In both variants, the meanings of exactly what the roots need. -/
def VariantUnits.IsMeaningOf (sources : View) (ext : String) (f : CompileRequest → Outcome)
    (roots : List String) (units : VariantUnits) : Prop :=
  ∀ variant, UnitSet.IsMeaningOf sources ext f variant roots (units.get variant)

namespace VariantUnits.IsMeaningOf

variable {units units' : VariantUnits} {roots' : List String} {path : String}

theorem unique (h : VariantUnits.IsMeaningOf sources ext f roots units)
    (h' : VariantUnits.IsMeaningOf sources ext f roots units') : units = units' := by
  obtain ⟨optimized, full⟩ := units
  obtain ⟨optimized', full'⟩ := units'
  have hoptimized : optimized = optimized' := (h .optimized).unique (h' .optimized)
  have hfull : full = full' := (h .full).unique (h' .full)
  rw [hoptimized, hfull]

theorem getElem?_eq (h : VariantUnits.IsMeaningOf sources ext f roots units)
    (h' : VariantUnits.IsMeaningOf sources ext f roots' units')
    (hroots : ∀ q, Needs sources ext roots' q → Needs sources ext roots q)
    (hp : Needs sources ext roots' path) (variant : Variant) :
    (units'.get variant)[path]? = (units.get variant)[path]? := by
  obtain ⟨unit, hunit⟩ := Named.mem_iff.1 (((h' variant).mem path).2 hp)
  rw [hunit, (h variant).getElem? (hroots path hp) ((h' variant).meaning path unit hunit)]

end VariantUnits.IsMeaningOf

namespace VariantSessions

variable {s : VariantSessions} {passes : PerVariant Pass} {orders base : Variant → List String}

/-- The units of both sessions are meanings, each in the variant of its session. -/
def IsSound (sources : View) (ext : String) (f : CompileRequest → Outcome) (s : VariantSessions) :
    Prop :=
  ∀ variant, (s.get variant).variant = variant ∧
    UnitSet.IsSound sources ext f variant (s.get variant).units

theorem IsSound.get (h : s.IsSound sources ext f) (variant : Variant) :
    UnitSet.IsSound sources ext f (s.get variant).variant (s.get variant).units := by
  rw [(h variant).1]
  exact (h variant).2

theorem isSound_new : new.IsSound sources ext f := by
  intro variant
  cases variant <;> exact ⟨rfl, UnitSet.isSound_empty⟩

/-- Both passes are on their way through their orders, and what they announced stands behind
`base`. -/
def OnWay (sources : View) (ext : String) (f : CompileRequest → Outcome) (s : VariantSessions)
    (roots : List String) (orders base : Variant → List String) (passes : PerVariant Pass)
    (c : BuildContext σ) : Prop :=
  ∀ variant, ∃ told,
    (passes.get variant).OnWay sources ext f (s.get variant) roots (orders variant) told ∧
      c.announcedIn variant = base variant ++ told

theorem isNone_next {left turn : Nat}
    (hleft : passes.optimized.stepsLeft + passes.full.stepsLeft = left + 1) :
    (passes.get (next schedule turn passes)).result.isNone = true := by
  unfold next
  dsimp only
  split_ifs with hturn hoptimized
  · exact hturn
  · exact hoptimized
  · by_contra hfull
    have h : ∀ p : Pass, ¬ p.result.isNone = true → p.stepsLeft = 0 := fun p hp =>
      Pass.stepsLeft_eq_zero_iff.2 (by simpa [Option.isSome_iff_ne_none] using hp)
    have := h _ hoptimized
    have := h passes.full hfull
    omega

theorem stepsLeft_set {variant : Variant} {p : Pass}
    (h : p.stepsLeft + 1 = (passes.get variant).stepsLeft) :
    (passes.set variant p).optimized.stepsLeft + (passes.set variant p).full.stepsLeft + 1 =
      passes.optimized.stepsLeft + passes.full.stepsLeft := by
  cases variant
  · change p.stepsLeft + passes.full.stepsLeft + 1 = _
    change _ = passes.optimized.stepsLeft at h
    omega
  · change passes.optimized.stepsLeft + p.stepsLeft + 1 = _
    change _ = passes.full.stepsLeft at h
    omega

/-- What happened to the announcements when a pass of one variant took a step. -/
theorem announcedIn_step {variant variant' : Variant} {wave : List String} {c' : BuildContext σ}
    (h : c'.announced = (Pass.announce variant wave c).announced) :
    c'.announcedIn variant' =
      c.announcedIn variant' ++ if variant = variant' then wave else [] := by
  rw [BuildContext.announcedIn_congr h, BuildContext.announcedIn_announce]

/-- All steps of two passes on their way.  They fail only if the session is cancelled or the roots
are not buildable in one of the variants. -/
theorem steps_spec (hf : Faithful f) (hcomputes : frontEnd.Computes f) (schedule : Schedule)
    (hvariant : ∀ variant, (s.get variant).variant = variant) {left : Nat}
    (hleft : passes.optimized.stepsLeft + passes.full.stepsLeft = left)
    (h : OnWay sources ext f s roots orders base passes c) :
    match steps frontEnd schedule left passes c with
    | (.ok (), passes', c') => c'.cancelled = c.cancelled ∧ ∀ variant,
      (passes'.get variant).IsDone sources ext f (s.get variant) roots ∧
        c'.announcedIn variant = base variant ++ orders variant
    | (.error _, _, c') =>
      (c.cancelled = true ∨ ∃ variant, ¬ Buildable sources ext f variant roots) ∧
        ∀ variant, ∃ told, told <+: orders variant ∧
          c'.announcedIn variant = base variant ++ told := by
  induction left generalizing passes c with
  | zero =>
    refine ⟨rfl, fun variant => ?_⟩
    obtain ⟨told, hway, htold⟩ := h variant
    have hzero : (passes.get variant).stepsLeft = 0 := by
      cases variant
      · exact (Nat.add_eq_zero_iff.1 hleft).1
      · exact (Nat.add_eq_zero_iff.1 hleft).2
    obtain ⟨hdone, rfl⟩ := hway.isDone hzero
    exact ⟨hdone, htold⟩
  | succ left ih =>
    have hnone : (passes.get (next schedule (left + 1) passes)).result.isNone = true :=
      isNone_next hleft
    rw [steps]
    generalize next schedule (left + 1) passes = turn at hnone ⊢
    obtain ⟨told, hway, htold⟩ := h turn
    have hstep : Ensures ((passes.get turn).step frontEnd schedule) c _ _ :=
      hway.ensures_step hnone hf hcomputes
    rw [hvariant] at hstep
    unfold Ensures at hstep
    split at hstep
    · rename_i p c' he
      rw [he]
      obtain ⟨wave, hway', hsteps, hcancelled, hsaid⟩ := hstep
      have hset := stepsLeft_set hsteps
      have hnext : OnWay sources ext f s roots orders base (passes.set turn p) c' := by
        intro variant
        rw [announcedIn_step hsaid]
        by_cases hv : turn = variant
        · subst hv
          exact ⟨told ++ wave, by simpa using hway', by simp [htold]⟩
        · obtain ⟨told', hway', htold'⟩ := h variant
          exact ⟨told', by rwa [PerVariant.get_set_of_ne hv], by simp [htold', hv]⟩
      rw [← hcancelled]
      exact ih (by omega) hnext
    · rename_i e c' he
      rw [he]
      obtain ⟨hwhy, wave, hprefix, hsaid⟩ := hstep
      refine ⟨hwhy.imp_right fun hb => ⟨turn, hb⟩, fun variant => ?_⟩
      rw [announcedIn_step hsaid]
      by_cases hv : turn = variant
      · subst hv
        exact ⟨told ++ wave, hprefix, by simp [htold]⟩
      · obtain ⟨told', hway', htold'⟩ := h variant
        exact ⟨told', hway'.told_prefix, by simp [htold', hv]⟩

theorem checkParity_eq_ok {units : VariantUnits}
    (h : ∀ p, p ∈ units.optimized ↔ p ∈ units.full) : checkParity units = .ok () := by
  have honly : ∀ {a b : UnitSet}, (∀ p, p ∈ a → p ∈ b) →
      a.keys.filter (fun path => !b.contains path) = [] := by
    intro a b hab
    rw [List.filter_eq_nil_iff]
    intro p hp
    simpa [Std.ExtTreeMap.contains_iff_mem] using hab p (Std.ExtTreeMap.mem_keys.1 hp)
  rw [checkParity, honly fun p => (h p).1, honly fun p => (h p).2]
  rfl

theorem ensures_start (schedule : Schedule) (roots : List String) (c : BuildContext σ)
    (hsound : s.IsSound sources ext f) :
    Ensures (do
      let optimized ← Pass.start schedule sources ext roots s.optimized
      let full ← Pass.start schedule sources ext roots s.full
      return (⟨optimized, full⟩ : PerVariant Pass)) c
      (fun passes c' =>
        (∀ variant, (passes.get variant).IsBegun sources ext f (s.get variant) roots) ∧
          (c'.cancelled = true → c.cancelled = true ∨ schedule.interrupted = true) ∧
          c'.announced = c.announced)
      (fun _ c' => (c.cancelled = true ∨ schedule.interrupted = true ∨
        schedule.isOverstaffed = true ∨ ∃ variant, ¬ Buildable sources ext f variant roots) ∧
          c'.announced = c.announced) := by
  have hstart (variant : Variant) (c : BuildContext σ) :
      Ensures (Pass.start schedule sources ext roots (s.get variant)) c _ _ :=
    Pass.ensures_start (hsound.get variant)
  have hbuildable (variant : Variant) :
      ¬ Buildable sources ext f (s.get variant).variant roots →
        ∃ variant, ¬ Buildable sources ext f variant roots := fun h => ⟨_, h⟩
  rw [Ensures.bind_iff]
  refine (hstart .optimized c).mono ?_ ?_
  · rintro optimized c₁ ⟨hoptimized, hc₁, hsaid₁⟩
    rw [Ensures.bind_iff]
    refine (hstart .full c₁).mono ?_ ?_
    · rintro full c₂ ⟨hfull, hc₂, hsaid₂⟩
      rw [Ensures.pure_iff]
      refine ⟨fun variant => ?_, fun hc => ?_, hsaid₂.trans hsaid₁⟩
      · cases variant
        · exact hoptimized
        · exact hfull
      · exact (hc₂ hc).elim hc₁ .inr
    · rintro e c₂ ⟨hwhy, hsaid₂⟩
      refine ⟨?_, hsaid₂.trans hsaid₁⟩
      rcases hwhy with hc | hfault
      · exact (hc₁ hc).imp_right .inl
      · exact .inr (.inr (hfault.imp_right (hbuildable .full)))
  · rintro e c₁ ⟨hwhy, hsaid₁⟩
    exact ⟨hwhy.imp_right fun hfault => .inr (hfault.imp_right (hbuildable .optimized)), hsaid₁⟩

/-- What a build in both variants on sound sessions does.  It succeeds only with what the roots
need in both variants, and then every package was announced in a build order; it fails only if it is
cancelled, its workers cannot be counted or the roots are not buildable in one of the variants, and
then what was announced begins a build order. -/
theorem build_spec (hf : Faithful f) (hcomputes : frontEnd.Computes f) (schedule : Schedule)
    (roots : List String) (c : BuildContext σ) (hsound : s.IsSound sources ext f) :
    match build frontEnd schedule sources ext roots s c with
    | (.ok units, s', c') =>
      VariantUnits.IsMeaningOf sources ext f roots units ∧
        s'.IsSound sources ext f ∧
        (∀ variant p, p ∈ (s'.get variant).units ↔
          p ∈ (s.get variant).units ∨ Needs sources ext roots p) ∧
        (c'.cancelled = true → c.cancelled = true ∨ schedule.interrupted = true) ∧
        ∀ variant, ∃ order,
          IsBuildOrder sources ext (s.get variant).units roots order ∧
            c'.announcedIn variant = c.announcedIn variant ++ order
    | (.error _, _, c') =>
      (c.cancelled = true ∨ schedule.interrupted = true ∨ schedule.isOverstaffed = true ∨
        ∃ variant, ¬ Buildable sources ext f variant roots) ∧
        ∀ variant, c'.announcedIn variant = c.announcedIn variant ∨ ∃ order told,
          IsBuildOrder sources ext (s.get variant).units roots order ∧ told <+: order ∧
            c'.announcedIn variant = c.announcedIn variant ++ told := by
  have hstart := ensures_start schedule roots c hsound
  unfold Ensures at hstart
  unfold build
  dsimp only
  split at hstart
  · rename_i passes c₁ he
    rw [he]
    obtain ⟨hbegun, hc₁, hsaid₁⟩ := hstart
    have hway : OnWay sources ext f s roots (fun v => (passes.get v).waves.flatten)
        (fun v => c.announcedIn v) passes c₁ := fun variant =>
      ⟨[], (hbegun variant).onWay, by rw [BuildContext.announcedIn_congr hsaid₁, List.append_nil]⟩
    have horder (variant : Variant) := (hbegun variant).isBuildOrder
    have hsteps := steps_spec hf hcomputes schedule (fun variant => (hsound variant).1) rfl hway
    dsimp only
    split at hsteps
    · rename_i passes' c₂ he₂
      rw [he₂]
      obtain ⟨hcancelled, hsteps⟩ := hsteps
      have hdone (variant : Variant) := (hsteps variant).1
      have hunits : VariantUnits.IsMeaningOf sources ext f roots (passes'.map Pass.units) := by
        intro variant
        have := (hdone variant).units
        rw [(hsound variant).1] at this
        rwa [PerVariant.get_map]
      have hparity : checkParity (passes'.map Pass.units) = .ok () :=
        checkParity_eq_ok fun p => ((hunits .optimized).mem p).trans ((hunits .full).mem p).symm
      dsimp only
      rw [hparity]
      refine ⟨hunits, fun variant => ?_, fun variant p => ?_, fun hc => hc₁ (hcancelled ▸ hc),
        fun variant => ⟨_, horder variant, (hsteps variant).2⟩⟩
      · have hsession := (hdone variant).sound
        rw [(hsound variant).1] at hsession
        rw [PerVariant.get_map]
        exact ⟨(hdone variant).variant.trans (hsound variant).1, hsession⟩
      · rw [PerVariant.get_map]
        exact (hdone variant).mem_units p
    · rename_i e passes' c₂ he₂
      rw [he₂]
      obtain ⟨hwhy, htold⟩ := hsteps
      refine ⟨?_, fun variant => .inr ?_⟩
      · rcases hwhy with hc | hb
        · exact (hc₁ hc).imp_right .inl
        · exact .inr (.inr (.inr hb))
      · obtain ⟨told, hprefix, hannounced⟩ := htold variant
        exact ⟨_, told, horder variant, hprefix, hannounced⟩
  · rename_i e c₁ he
    rw [he]
    exact ⟨hstart.1, fun variant => .inl (BuildContext.announcedIn_congr hstart.2 variant)⟩

/-- A build in both variants on sound sessions that nobody cancels and whose workers can be counted
succeeds if the roots are buildable in both. -/
theorem exists_build_eq_ok (hf : Faithful f) (hcomputes : frontEnd.Computes f)
    (hschedule : schedule.interrupted = false) (hstaff : schedule.isOverstaffed = false)
    (hc : c.cancelled = false) (hsound : s.IsSound sources ext f)
    (h : ∀ variant, Buildable sources ext f variant roots) :
    ∃ units s' c', build frontEnd schedule sources ext roots s c = (.ok units, s', c') ∧
      VariantUnits.IsMeaningOf sources ext f roots units ∧ s'.IsSound sources ext f ∧
        c'.cancelled = false := by
  have hspec := build_spec hf hcomputes schedule roots c hsound
  split at hspec
  · rename_i units s' c' he
    obtain ⟨hunits, hsound', -, hcancelled, -⟩ := hspec
    refine ⟨units, s', c', he, hunits, hsound', ?_⟩
    simpa [hc, hschedule] using hcancelled
  · rcases hspec.1 with hcancelled | hinterrupted | hoverstaffed | ⟨variant, hnot⟩
    · rw [hc] at hcancelled
      cases hcancelled
    · rw [hschedule] at hinterrupted
      cases hinterrupted
    · rw [hstaff] at hoverstaffed
      cases hoverstaffed
    · exact absurd (h variant) hnot

end VariantSessions

end Playground
