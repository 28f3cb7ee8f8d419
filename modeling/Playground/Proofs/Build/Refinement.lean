import Playground.Proofs.Build.Pass
import Playground.Proofs.Bundle.FrontEnd
import Playground.Tree.Memory

/-!
# Builds give meanings

A build on a sound session, in which nobody cancels, succeeds exactly when its workers can be
counted and its roots are buildable, and then its answer is what the roots need, each package with
its meaning (`BuildSession.build_spec`).  Neither the levels nor the number of workers nor the order
in which packages are compiled nor what the session held before can be seen in the answer.
-/

namespace Playground

open Relation

variable {σ : Type} {sources : View} {ext : String} {f : CompileRequest → Outcome}
  {variant : Variant} {frontEnd : FrontEnd σ} {schedule : Schedule} {roots : List String}
  {session : BuildSession} {c : BuildContext σ}

/-! ### Whole passes -/

/-- Roots are not buildable when one of the packages that they need cannot be read. -/
theorem not_buildable_of_unread {known : String → Bool} {cause : LoadError}
    (h : PackageSet.discover sources ext known roots = .error cause) :
    ¬ Buildable sources ext f variant roots := by
  intro hbuildable
  obtain ⟨q, hq, -, hload⟩ := PackageSet.load_of_discover h
  obtain ⟨package, hpackage⟩ := hbuildable.loads q hq
  rw [hload] at hpackage
  cases hpackage

/-- Roots are not buildable when the packages found import each other. -/
theorem not_buildable_of_tangled {known : String → Bool} {packages : PackageSet}
    (hdiscover : PackageSet.discover sources ext known roots = .ok packages)
    (hwaves : (ImportGraph.ofImports packages.imports).waves = none) :
    ¬ Buildable sources ext f variant roots := by
  intro hbuildable
  have hfound := PackageSet.discovering_of_discover hdiscover
  have hacyclic : (ImportGraph.ofImports packages.imports).IsAcyclic := by
    intro q hq
    obtain ⟨d, hqd, -⟩ := TransGen.head'_iff.1 hq
    refine hbuildable.acyclic q (hfound.needed q (.inl (hfound.dependsOn_iff.1 hqd).1)) ?_
    exact TransGen.mono (fun _ _ hxy => (hfound.dependsOn_iff.1 hxy).2.1) q q hq
  have hsome := ImportGraph.isSome_waves_iff.2 hacyclic
  rw [hwaves] at hsome
  cases hsome

namespace Pass

/-- What holds of a pass over `session` that was begun: all packages that were found remain. -/
structure IsBegun (sources : View) (ext : String) (f : CompileRequest → Outcome)
    (session : BuildSession) (roots : List String) (p : Pass) : Prop where
  invariant : p.Invariant sources ext f (ImportGraph.ofImports p.packages.imports).nodes
  built : p.built = session.units
  result : p.result = none
  session : p.session = session
  roots : p.roots = roots

/-- A pass over a sound session begins with the invariant, unless the session is cancelled, the
workers cannot be counted or the roots are not buildable.  It announces nothing so far. -/
theorem ensures_start (hsound : UnitSet.IsSound sources ext f session.variant session.units) :
    Ensures (start schedule sources ext roots session) c
      (fun p c' => p.IsBegun sources ext f session roots ∧
        (c'.cancelled = true → c.cancelled = true ∨ schedule.interrupted = true) ∧
          c'.announced = c.announced)
      (fun _ c' => (c.cancelled = true ∨ schedule.isOverstaffed = true ∨
        ¬ Buildable sources ext f session.variant roots) ∧ c'.announced = c.announced) := by
  refine ensures_start_cases.mono ?_ ?_
  · rintro p c' ⟨hc, -, rfl, packages, waves, hdiscover, hwaves, rfl⟩
    obtain ⟨hfound, hpackages, hnodup, hlevels, hbuilt⟩ :=
      Progress.start session hdiscover hwaves
    have hinvariant : Invariant sources ext f
        ⟨session, roots, packages, waves, session.units, none⟩
        (ImportGraph.ofImports packages.imports).nodes :=
      ⟨hsound, hfound, hpackages, hnodup, hlevels, hsound.meaning, hbuilt⟩
    refine ⟨⟨hinvariant, rfl, rfl, rfl, rfl⟩, fun hc' => ?_, rfl⟩
    rw [← Bool.or_eq_true]
    exact hc'
  · rintro e c' ⟨hsaid, ⟨hc, -⟩ | ⟨cause, hdiscover, -⟩ | ⟨packages, hdiscover, hwaves, -⟩ |
      ⟨hstaff, -⟩⟩
    · exact ⟨.inl hc, hsaid⟩
    · exact ⟨.inr (.inr (not_buildable_of_unread hdiscover)), hsaid⟩
    · exact ⟨.inr (.inr (not_buildable_of_tangled hdiscover hwaves)), hsaid⟩
    · exact ⟨.inr (.inl hstaff), hsaid⟩

/-- The levels of a pass and its end give what the roots need, unless the session is cancelled or
the roots are not buildable. -/
theorem ensures_steps (hf : Faithful f) (hcomputes : frontEnd.Computes f) {p : Pass}
    {remaining : List String} {waves : List (List String)}
    (h : p.Invariant sources ext f remaining) (hwaves : p.waves = waves) :
    Ensures (steps frontEnd schedule (waves.length + 1) p) c
      (fun p' _ => IsDone sources ext f p.session p.roots p')
      (fun _ _ => c.cancelled = true ∨ ¬ Buildable sources ext f p.session.variant p.roots) := by
  induction waves generalizing p remaining c with
  | nil =>
    rw [List.length_nil, steps, Ensures.bind_iff]
    refine (ensures_finish h hf hwaves).mono ?_ fun e c' he => he.elim
    rintro p' c' ⟨hdone, -⟩
    exact hdone
  | cons wave waves ih =>
    rw [List.length_cons, steps, Ensures.bind_iff]
    refine (ensures_level h hf hcomputes hwaves).mono ?_ fun e c' he => he.1
    rintro p' c' ⟨units, remaining', rfl, h', hc', -⟩
    rw [← hc']
    exact ih h' rfl

end Pass

/-! ### Builds -/

namespace BuildSession

/-- What a build on a sound session does.  It succeeds only with what the roots need, and fails
only if the session is cancelled, the workers cannot be counted or the roots are not buildable. -/
theorem build_spec (hf : Faithful f) (hcomputes : frontEnd.Computes f) (schedule : Schedule)
    (roots : List String) (c : BuildContext σ)
    (hsound : UnitSet.IsSound sources ext f session.variant session.units) :
    match build frontEnd schedule sources ext roots session c with
    | (.ok units, session', _) =>
      UnitSet.IsMeaningOf sources ext f session.variant roots units ∧
        session'.variant = session.variant ∧
        UnitSet.IsSound sources ext f session.variant session'.units ∧
        ∀ q, q ∈ session'.units ↔ q ∈ session.units ∨ Needs sources ext roots q
    | (.error _, session', _) =>
      session' = session ∧ (c.cancelled = true ∨ schedule.interrupted = true ∨
        schedule.isOverstaffed = true ∨ ¬ Buildable sources ext f session.variant roots) := by
  have hrun : Ensures (do
      let p ← Pass.start schedule sources ext roots session
      Pass.steps frontEnd schedule p.stepsLeft p) c
      (fun p _ => p.IsDone sources ext f session roots)
      (fun _ _ => c.cancelled = true ∨ schedule.interrupted = true ∨
        schedule.isOverstaffed = true ∨ ¬ Buildable sources ext f session.variant roots) := by
    rw [Ensures.bind_iff]
    refine (Pass.ensures_start hsound).mono ?_ fun e c' he => he.1.imp_right .inr
    rintro p c' ⟨⟨hp, -, hresult, rfl, rfl⟩, hc', -⟩
    rw [Pass.stepsLeft, hresult, Option.isSome_none, if_neg Bool.false_ne_true]
    refine (Pass.ensures_steps hf hcomputes hp rfl).mono (fun p' _ hdone => hdone) ?_
    rintro e _ (hc | hb)
    · exact (hc' hc).imp_right .inl
    · exact .inr (.inr (.inr hb))
  rcases build_of_ensures hrun with ⟨p, c', he, hdone⟩ | ⟨e, c', he, hfail⟩
  · rw [he]
    exact ⟨hdone.units, hdone.variant, hdone.sound, hdone.mem_units⟩
  · rw [he]
    exact ⟨rfl, hfail⟩

/-- A build on a sound session that nobody cancels and whose workers can be counted either answers
with what its roots need, or fails because they are not buildable. -/
theorem build_cases (hf : Faithful f) (hcomputes : frontEnd.Computes f) (roots : List String)
    (hschedule : schedule.interrupted = false) (hstaff : schedule.isOverstaffed = false)
    (hc : c.cancelled = false)
    (hsound : UnitSet.IsSound sources ext f session.variant session.units) :
    (∃ units, (build frontEnd schedule sources ext roots session c).1 = .ok units ∧
      UnitSet.IsMeaningOf sources ext f session.variant roots units) ∨
    (∃ e, (build frontEnd schedule sources ext roots session c).1 = .error e) ∧
      ¬ Buildable sources ext f session.variant roots := by
  have hspec := build_spec hf hcomputes schedule roots c hsound
  split at hspec
  · rename_i units session' c' he
    rw [he]
    exact .inl ⟨units, rfl, hspec.1⟩
  · rename_i e session' c' he
    rw [he]
    rcases hspec.2 with h | h | h | h
    · exact absurd (hc ▸ h) Bool.false_ne_true
    · exact absurd (hschedule ▸ h) Bool.false_ne_true
    · exact absurd (hstaff ▸ h) Bool.false_ne_true
    · exact .inr ⟨⟨e, rfl⟩, h⟩

theorem exists_build_eq_error (frontEnd : FrontEnd σ) (sources : View) (ext : String)
    (roots : List String) (session : BuildSession) (c : BuildContext σ)
    (hstaff : schedule.isOverstaffed = true) :
    ∃ e, (build frontEnd schedule sources ext roots session c).1 = .error e := by
  have hrun : Ensures (do
      let p ← Pass.start schedule sources ext roots session
      Pass.steps frontEnd schedule p.stepsLeft p) c (fun _ _ => False) (fun _ _ => True) := by
    rw [Ensures.bind_iff]
    refine Pass.ensures_start_cases.mono ?_ fun _ _ _ => trivial
    rintro p c' ⟨-, hstaffed, -⟩
    rw [hstaff] at hstaffed
    cases hstaffed
  rcases build_of_ensures hrun with ⟨p, c', -, hfalse⟩ | ⟨e, c', he, -⟩
  · exact hfalse.elim
  · exact ⟨e, by rw [he]⟩

theorem exists_build_eq_ok (hf : Faithful f) (hcomputes : frontEnd.Computes f)
    (hschedule : schedule.interrupted = false) (hstaff : schedule.isOverstaffed = false)
    (hc : c.cancelled = false)
    (hsound : UnitSet.IsSound sources ext f session.variant session.units)
    (h : Buildable sources ext f session.variant roots) :
    ∃ units session' c', build frontEnd schedule sources ext roots session c =
      (.ok units, session', c') := by
  rcases build_cases hf hcomputes roots hschedule hstaff hc hsound with
    ⟨units, hok, -⟩ | ⟨-, hfail⟩
  · exact ⟨units, _, _, Prod.ext hok rfl⟩
  · exact absurd h hfail

/-- A build on a fresh session that nobody cancels succeeds exactly when its workers can be counted,
everything its roots need can be read and is accepted and nothing of it needs itself; its answer is
then exactly what the roots need, each package with its meaning. -/
theorem fresh_build_refines (hf : Faithful f) (hcomputes : frontEnd.Computes f)
    (hschedule : schedule.interrupted = false) (hc : c.cancelled = false) :
    ((build frontEnd schedule sources ext roots (.new variant) c).1.isOk = true ↔
      schedule.parallelism < workerLimit ∧ Buildable sources ext f variant roots) ∧
    ∀ units, (build frontEnd schedule sources ext roots (.new variant) c).1 = .ok units →
      UnitSet.IsMeaningOf sources ext f variant roots units := by
  have hsound : UnitSet.IsSound sources ext f (new variant).variant (new variant).units :=
    UnitSet.isSound_empty
  rw [← Schedule.isOverstaffed_eq_false]
  cases hstaff : schedule.isOverstaffed with
  | true =>
    obtain ⟨e, he⟩ := exists_build_eq_error frontEnd sources ext roots (.new variant) c hstaff
    rw [he]
    exact ⟨⟨nofun, nofun⟩, nofun⟩
  | false =>
    rcases build_cases hf hcomputes roots hschedule hstaff hc hsound with
      ⟨units, hok, hunits⟩ | ⟨⟨e, he⟩, hfail⟩
    · rw [hok]
      refine ⟨⟨fun _ => ⟨rfl, hunits.buildable⟩, fun _ => rfl⟩, ?_⟩
      rintro _ ⟨⟩
      exact hunits
    · rw [he]
      exact ⟨⟨nofun, fun hbuildable => absurd hbuildable.2 hfail⟩, nofun⟩

/-- A tree with one package, which imports nothing. -/
def onePackage : MemoryTree :=
  ((∅ : MemoryTree).addDirs ["src", "a"]).put ["src", "a", "a.go"] "package a\n".toByteArray

/-- The same tree with another package, which imports the first. -/
def twoPackages : MemoryTree :=
  (onePackage.addDirs ["src", "b"]).put ["src", "b", "b.go"]
    "package b\nimport \"a\"\n".toByteArray

theorem load_imported :
    ∃ package, Package.load twoPackages.view "go" "a" = .ok package ∧
      package.files.toList = [("a.go", "package a\n".toByteArray)] ∧ package.imports = [] ∧
        ∀ variant ds, ∃ unit, Bundle.outcome ⟨package, ds, variant⟩ = .built unit := by
  apply Bundle.exists_accepted
  decide +kernel

theorem load_importing :
    ∃ package, Package.load twoPackages.view "go" "b" = .ok package ∧
      package.files.toList = [("b.go", "package b\nimport \"a\"\n".toByteArray)] ∧
        package.imports = ["a"] ∧
          ∀ variant ds, ∃ unit, Bundle.outcome ⟨package, ds, variant⟩ = .built unit := by
  apply Bundle.exists_accepted
  decide +kernel

theorem exists_meaning_twoPackages (variant : Variant) :
    (∃ unit, Meaning twoPackages.view "go" Bundle.outcome variant "a" unit) ∧
      ∃ unit, Meaning twoPackages.view "go" Bundle.outcome variant "b" unit := by
  obtain ⟨a, hloada, -, himportsa, hbuilta⟩ := load_imported
  obtain ⟨b, hloadb, -, himportsb, hbuiltb⟩ := load_importing
  have ha : ∃ unit, Meaning twoPackages.view "go" Bundle.outcome variant "a" unit := by
    refine Meaning.exists_of_imports hloada (fun d hd => ?_) (hbuilta variant)
    rw [himportsa] at hd
    cases hd
  refine ⟨ha, Meaning.exists_of_imports hloadb (fun d hd => ?_) (hbuiltb variant)⟩
  rw [himportsb, List.mem_singleton] at hd
  rw [hd]
  exact ha

theorem exists_build_twoPackages : ∃ units session' c',
    build Bundle.frontEnd .inOrder twoPackages.view "go" ["b"] (.new .optimized) ⟨∅, false, []⟩ =
      (.ok units, session', c') := by
  obtain ⟨-, unit, hunit⟩ := exists_meaning_twoPackages .optimized
  exact exists_build_eq_ok Bundle.faithful_outcome Bundle.computes_outcome rfl rfl rfl
    UnitSet.isSound_empty hunit.buildable

/-- Bundling succeeds for a package that imports another one. -/
theorem isOk_build_twoPackages :
    (build Bundle.frontEnd .inOrder twoPackages.view "go" ["b"] (.new .optimized)
      ⟨∅, false, []⟩).1.isOk = true := by
  obtain ⟨-, unit, hunit⟩ := exists_meaning_twoPackages .optimized
  exact (fresh_build_refines Bundle.faithful_outcome Bundle.computes_outcome rfl rfl).1.2
    ⟨by decide, hunit.buildable⟩

/-- The same build breaks down when more workers are asked for than can be counted. -/
theorem not_isOk_build_overstaffed :
    ¬ ((build Bundle.frontEnd { Schedule.inOrder with parallelism := workerLimit }
        twoPackages.view "go" ["b"] (.new .optimized) ⟨∅, false, []⟩).1.isOk = true ↔
      Buildable twoPackages.view "go" Bundle.outcome .optimized ["b"]) := by
  obtain ⟨-, unit, hunit⟩ := exists_meaning_twoPackages .optimized
  intro hiff
  have hok := hiff.2 hunit.buildable
  have hstaff :
      Schedule.isOverstaffed { Schedule.inOrder with parallelism := workerLimit } = true :=
    decide_eq_true (Nat.le_refl workerLimit)
  obtain ⟨e, he⟩ := exists_build_eq_error Bundle.frontEnd twoPackages.view "go" ["b"]
    (.new .optimized) ⟨∅, false, []⟩ hstaff
  rw [he] at hok
  cases hok

/-! ### Builds on one session -/

/-- Sessions that come from a fresh one by successful builds, with the roots of these builds. -/
inductive BuiltWith (frontEnd : FrontEnd σ) (sources : View) (ext : String) (variant : Variant) :
    List (List String) → BuildSession → Prop where
  | new : BuiltWith frontEnd sources ext variant [] (.new variant)
  | build {history : List (List String)} {session session' : BuildSession} {schedule : Schedule}
      {roots : List String} {c c' : BuildContext σ} {units : UnitSet}
      (before : BuiltWith frontEnd sources ext variant history session)
      (success : BuildSession.build frontEnd schedule sources ext roots session c =
        (.ok units, session', c')) :
      BuiltWith frontEnd sources ext variant (history ++ [roots]) session'

/-- A session holds exactly what the roots of its builds need, and all its units are meanings. -/
theorem BuiltWith.spec {history : List (List String)} (hf : Faithful f)
    (hcomputes : frontEnd.Computes f)
    (h : BuiltWith frontEnd sources ext variant history session) :
    session.variant = variant ∧ UnitSet.IsSound sources ext f variant session.units ∧
      ∀ q, q ∈ session.units ↔ ∃ roots ∈ history, Needs sources ext roots q := by
  induction h with
  | new =>
    refine ⟨rfl, UnitSet.isSound_empty, fun q => ?_⟩
    constructor
    · intro hq
      exact absurd hq Std.ExtTreeMap.not_mem_empty
    · rintro ⟨roots, hroots, -⟩
      cases hroots
  | @build history session session' schedule roots c c' units before success ih =>
    obtain ⟨rfl, hsound, hmem⟩ := ih
    have hspec := build_spec hf hcomputes schedule roots c hsound
    rw [success] at hspec
    obtain ⟨-, hvariant, hsound', hmem'⟩ := hspec
    refine ⟨hvariant, hsound', fun q => ?_⟩
    rw [hmem', hmem]
    constructor
    · rintro (⟨rs, hrs, hq⟩ | hq)
      · exact ⟨rs, List.mem_append_left _ hrs, hq⟩
      · exact ⟨roots, List.mem_append_right _ (List.mem_singleton_self roots), hq⟩
    · rintro ⟨rs, hrs, hq⟩
      rcases List.mem_append.1 hrs with hrs | hrs
      · exact .inl ⟨rs, hrs, hq⟩
      · exact .inr (List.mem_singleton.1 hrs ▸ hq)

/-- A build on a sound session that nobody cancels answers as its roots and the number of workers
alone decide. -/
theorem toOption_build {units : UnitSet} (hf : Faithful f) (hcomputes : frontEnd.Computes f)
    (hschedule : schedule.interrupted = false) (hc : c.cancelled = false)
    (hsound : UnitSet.IsSound sources ext f session.variant session.units) :
    (build frontEnd schedule sources ext roots session c).1.toOption = some units ↔
      schedule.isOverstaffed = false ∧
        UnitSet.IsMeaningOf sources ext f session.variant roots units := by
  cases hstaff : schedule.isOverstaffed with
  | true =>
    obtain ⟨e, he⟩ := exists_build_eq_error frontEnd sources ext roots session c hstaff
    rw [he]
    exact ⟨nofun, nofun⟩
  | false =>
    rw [eq_self, true_and]
    rcases build_cases hf hcomputes roots hschedule hstaff hc hsound with
      ⟨units', hok, hunits'⟩ | ⟨⟨e, he⟩, hfail⟩
    · rw [hok]
      show some units' = some units ↔ _
      rw [Option.some_inj]
      constructor
      · rintro rfl
        exact hunits'
      · exact hunits'.unique
    · rw [he]
      exact ⟨nofun, fun hunits => absurd hunits.buildable hfail⟩

/-- What a session holds from successful builds cannot be seen: the next build succeeds exactly
when one on a fresh session does, and with the same units.  The workers of both can be counted, or
those of neither. -/
theorem build_reused_eq_fresh {history : List (List String)} {schedule' : Schedule}
    {c' : BuildContext σ} (hf : Faithful f) (hcomputes : frontEnd.Computes f)
    (h : BuiltWith frontEnd sources ext variant history session)
    (hschedule : schedule.interrupted = false) (hc : c.cancelled = false)
    (hschedule' : schedule'.interrupted = false) (hc' : c'.cancelled = false)
    (hstaff : schedule.isOverstaffed = schedule'.isOverstaffed) :
    (build frontEnd schedule sources ext roots session c).1.toOption =
      (build frontEnd schedule' sources ext roots (.new variant) c').1.toOption := by
  obtain ⟨rfl, hsound, -⟩ := h.spec hf hcomputes
  apply Option.ext
  intro units
  have hempty : UnitSet.IsSound sources ext f session.variant (new session.variant).units :=
    UnitSet.isSound_empty
  rw [toOption_build hf hcomputes hschedule hc hsound,
    toOption_build hf hcomputes hschedule' hc' hempty, hstaff]
  rfl

theorem not_needs_twoPackages : ¬ Needs twoPackages.view "go" ["a"] "b" := by
  obtain ⟨package, hload, -, himports, -⟩ := load_imported
  intro hneeds
  have hsame : "b" = "a" := hneeds.induction (P := (· = "a")) (by simp) fun p d hd hp => by
    rw [hp, imports_iff_of_load hload, himports] at hd
    cases hd
  exact absurd hsame (by decide)

/-- A package that imports one which the session holds is built as on a fresh session: both builds
succeed with both packages, and the unit that the session held is in the answer. -/
theorem exists_builtWith_twoPackages :
    ∃ session unit units,
      BuiltWith Bundle.frontEnd twoPackages.view "go" .optimized [["a"]] session ∧
      session.units["a"]? = some unit ∧ "b" ∉ session.units ∧
      (build Bundle.frontEnd .inOrder twoPackages.view "go" ["b"] session
        ⟨∅, false, []⟩).1.toOption = some units ∧
      (build Bundle.frontEnd .inOrder twoPackages.view "go" ["b"] (.new .optimized)
        ⟨∅, false, []⟩).1.toOption = some units ∧
      units["a"]? = some unit ∧ "b" ∈ units := by
  have hf := Bundle.faithful_outcome
  have hcomputes := Bundle.computes_outcome
  obtain ⟨⟨a, ha⟩, -⟩ := exists_meaning_twoPackages .optimized
  obtain ⟨b, hloadb, -, himports, -⟩ := load_importing
  obtain ⟨_, session, c, hbuild⟩ : ∃ units session c, build Bundle.frontEnd .inOrder
      twoPackages.view "go" ["a"] (.new .optimized) ⟨∅, false, []⟩ = (.ok units, session, c) :=
    exists_build_eq_ok hf hcomputes rfl rfl rfl UnitSet.isSound_empty ha.buildable
  have hbuilt : BuiltWith Bundle.frontEnd twoPackages.view "go" .optimized [["a"]] session :=
    .build .new hbuild
  obtain ⟨units, _, _, hfresh⟩ := exists_build_twoPackages
  have hfresh : (build Bundle.frontEnd .inOrder twoPackages.view "go" ["b"] (.new .optimized)
      ⟨∅, false, []⟩).1.toOption = some units := by
    rw [hfresh]
    rfl
  have hreused : (build Bundle.frontEnd .inOrder twoPackages.view "go" ["b"] session
      ⟨∅, false, []⟩).1.toOption = (build Bundle.frontEnd .inOrder twoPackages.view "go" ["b"]
        (.new .optimized) ⟨∅, false, []⟩).1.toOption :=
    build_reused_eq_fresh hf hcomputes hbuilt rfl rfl rfl rfl rfl
  obtain ⟨-, hsound, hmem⟩ := hbuilt.spec hf hcomputes
  obtain ⟨-, hunits⟩ := (toOption_build hf hcomputes rfl rfl UnitSet.isSound_empty).1 hfresh
  have hneeds : Needs twoPackages.view "go" ["b"] "b" := .of_mem (List.mem_singleton_self "b")
  have hneeds' : Needs twoPackages.view "go" ["b"] "a" :=
    hneeds.tail
      ((imports_iff_of_load hloadb).2 (by rw [himports]; exact List.mem_singleton_self "a"))
  have hheld : "a" ∈ session.units :=
    (hmem "a").2 ⟨["a"], List.mem_singleton_self _, .of_mem (List.mem_singleton_self "a")⟩
  have hnot : "b" ∉ session.units := by
    intro hb
    obtain ⟨roots, hroots, hb⟩ := (hmem "b").1 hb
    rw [List.mem_singleton.1 hroots] at hb
    exact not_needs_twoPackages hb
  obtain ⟨unit, hunit⟩ := Named.mem_iff.1 hheld
  exact ⟨session, unit, units, hbuilt, hunit, hnot, hreused.trans hfresh, hfresh,
    hunits.getElem? hneeds' (hsound.meaning "a" unit hunit), (hunits.mem "b").2 hneeds⟩

end BuildSession

end Playground
