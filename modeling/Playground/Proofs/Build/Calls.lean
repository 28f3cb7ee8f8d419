import Playground.Proofs.Build.Completeness
import Playground.Proofs.Build.Recording

/-!
# What a session has compiled

The front end is only asked to keep the import paths of packages (`FrontEnd.KeepsPaths`): what it
accepts, the dependencies that its units name and their payloads are up to it.  A `Ledger` holds
what a session has, the calls that were made for it and the lines that were announced.  One level
of a pass adds to the three together (`Ledger.Level`), and so they stay balanced
(`Ledger.IsBalanced`): there is one call for each unit, with the units of its imports, which earlier
calls have made, and one line, after those of the imports.

Main statement: that is so after any sequence of successful builds, each of which compiles exactly
what it adds to the session, and no build fails because a package is due before a unit that it needs
(`BuildSession.isBalanced_of_builds`).
-/

namespace Playground

open Relation

variable {σ : Type} {sources : View} {ext : String} {frontEnd : FrontEnd σ} {schedule : Schedule}
  {roots : List String} {session : BuildSession}

/-- Whatever the front end accepts, and in whatever state, its units carry the import path of their
package. -/
def FrontEnd.KeepsPaths (frontEnd : FrontEnd σ) : Prop :=
  ∀ request unit, frontEnd.Answers request unit → unit.importPath = request.package.importPath

def BuildContext.lines (c : BuildContext σ) : List String :=
  c.announced.map fun (_, path) => announcement path

theorem announcement_inj {p q : String} (h : announcement p = announcement q) : p = q :=
  (String.append_right_inj _).1 h

theorem of_append_eq_append_cons {α : Type} {as bs before after : List α} {a : α}
    (h : as ++ bs = before ++ a :: after) :
    (∃ after', as = before ++ a :: after') ∨
      ∃ before', before = as ++ before' ∧ bs = before' ++ a :: after := by
  rcases List.append_eq_append_iff.1 h with ⟨before', hbefore, hbs⟩ | ⟨rest, has, hrest⟩
  · exact .inr ⟨before', hbefore, hbs⟩
  · cases rest with
    | nil =>
      rw [List.append_nil] at has
      exact .inr ⟨[], by rw [has, List.append_nil], hrest.symm⟩
    | cons b rest =>
      obtain ⟨rfl, -⟩ := List.cons.inj hrest
      exact .inl ⟨rest, has⟩

/-! ### Ledgers -/

/-- The units of a session, the calls that were made for it and the lines that were announced. -/
structure Ledger where
  units : UnitSet
  calls : List CompileCall
  lines : List String

namespace Ledger

/-- What the calls and the lines have to do with the units. -/
structure IsBalanced (l : Ledger) : Prop where
  /-- No package is compiled twice. -/
  nodup : (l.calls.map CompileCall.path).Nodup
  /-- A call made the unit of its package. -/
  made : ∀ call ∈ l.calls, ∃ unit, call.outcome = .built unit ∧ unit.importPath = call.path ∧
    l.units[call.path]? = some unit
  /-- A unit was made by a call. -/
  called : ∀ path ∈ l.units, ∃ call ∈ l.calls, call.path = path
  /-- A call is given the units of its package's imports, in their order, and earlier calls made
  them. -/
  dependencies : ∀ before call after, l.calls = before ++ call :: after →
    call.request.dependencies.map CompiledUnit.importPath = call.request.package.imports ∧
      ∀ unit ∈ call.request.dependencies, ∃ earlier ∈ before, earlier.outcome = .built unit
  /-- There is one line for each call. -/
  lines_perm : l.lines.Perm (l.calls.map fun call => announcement call.path)
  /-- The line of a package comes after the lines of its imports. -/
  lines_after : ∀ call ∈ l.calls, ∀ before after,
    l.lines = before ++ announcement call.path :: after →
      ∀ d ∈ call.request.package.imports, announcement d ∈ before

/-- What one level adds: a call and a line for each of its packages, none of which had a unit, and
the units that the calls made.  A call is given the units of all imports. -/
structure IsLevel (sources : View) (ext : String) (units : UnitSet) (wave : List String)
    (new : List CompileCall) (us : List CompiledUnit) : Prop where
  perm : (new.map CompileCall.path).Perm wave
  nodup : wave.Nodup
  fresh : ∀ path ∈ wave, path ∉ units
  load : ∀ call ∈ new, Package.load sources ext call.path = .ok call.request.package
  made : List.Forall₂ (fun call unit => call.outcome = .built unit ∧ unit.importPath = call.path)
    new us
  imports : ∀ call ∈ new, ∀ d ∈ call.request.package.imports, d ∈ units
  dependencies : ∀ call ∈ new,
    call.request.dependencies = call.request.package.imports.map units.unitAt

/-- The ledger before a level and after it. -/
inductive Level (sources : View) (ext : String) : Ledger → Ledger → Prop where
  | add {units calls lines wave new us} (h : IsLevel sources ext units wave new us) :
    Level sources ext ⟨units, calls, lines⟩
      ⟨Pass.addUnits units us, calls ++ new, lines ++ wave.map announcement⟩

variable {l l' : Ledger} {units : UnitSet} {calls new : List CompileCall} {lines wave : List String}
  {us : List CompiledUnit} {call : CompileCall} {d path : String}

/-! ### Balanced ledgers -/

theorem isBalanced_empty : IsBalanced ⟨∅, [], []⟩ where
  nodup := .nil
  made := nofun
  called _ h := absurd h Std.ExtTreeMap.not_mem_empty
  dependencies before call after h := by simp at h
  lines_perm := .nil
  lines_after := nofun

namespace IsBalanced

theorem of_mem (h : l.IsBalanced) (hd : d ∈ l.units) :
    ∃ call ∈ l.calls, call.outcome = .built (l.units.unitAt d) ∧
      (l.units.unitAt d).importPath = d := by
  obtain ⟨call, hcall, rfl⟩ := h.called d hd
  obtain ⟨unit, houtcome, hpath, hunit⟩ := h.made call hcall
  rw [UnitSet.getElem?_eq_unitAt hd] at hunit
  cases hunit
  exact ⟨call, hcall, houtcome, hpath⟩

theorem path_mem (h : l.IsBalanced) (hcall : call ∈ l.calls) : call.path ∈ l.units := by
  obtain ⟨unit, -, -, hunit⟩ := h.made call hcall
  exact Named.mem_of_getElem? hunit

theorem mem_map_path_iff (h : l.IsBalanced) :
    path ∈ l.calls.map CompileCall.path ↔ path ∈ l.units := by
  rw [List.mem_map]
  constructor
  · rintro ⟨call, hcall, rfl⟩
    exact h.path_mem hcall
  · exact h.called path

theorem announcement_mem_iff (h : l.IsBalanced) : announcement d ∈ l.lines ↔ d ∈ l.units := by
  rw [h.lines_perm.mem_iff, List.mem_map]
  constructor
  · rintro ⟨call, hcall, he⟩
    rw [← announcement_inj he]
    exact h.path_mem hcall
  · intro hd
    obtain ⟨call, hcall, rfl⟩ := h.called d hd
    exact ⟨call, hcall, rfl⟩

end IsBalanced

/-! ### One level -/

namespace IsLevel

theorem mem_wave (h : IsLevel sources ext units wave new us) (hcall : call ∈ new) :
    call.path ∈ wave :=
  h.perm.mem_iff.1 (List.mem_map_of_mem hcall)

theorem importPaths (h : IsLevel sources ext units wave new us) :
    us.map CompiledUnit.importPath = new.map CompileCall.path := by
  have hmade := h.made
  clear h
  induction hmade with
  | nil => rfl
  | cons hunit _ ih => rw [List.map_cons, List.map_cons, hunit.2, ih]

theorem exists_importPath_iff (h : IsLevel sources ext units wave new us) :
    (∃ unit ∈ us, unit.importPath = path) ↔ path ∈ wave := by
  rw [← List.mem_map, h.importPaths, h.perm.mem_iff]

theorem getElem?_of_getElem? (h : IsLevel sources ext units wave new us) {unit : CompiledUnit}
    (hunit : units[path]? = some unit) : (Pass.addUnits units us)[path]? = some unit := by
  have hpath := Named.mem_of_getElem? hunit
  have hmem : path ∈ Pass.addUnits units us := Pass.mem_addUnits.2 (.inl hpath)
  obtain ⟨unit', hunit'⟩ := Named.mem_iff.1 hmem
  rcases Pass.of_getElem?_addUnits hunit' with hold | hnew
  · rw [hunit', ← hold, hunit]
  · exact absurd hpath (h.fresh path (h.exists_importPath_iff.1 ⟨unit', hnew⟩))

theorem getElem?_of_mem (h : IsLevel sources ext units wave new us) (hcall : call ∈ new) :
    ∃ unit, call.outcome = .built unit ∧ unit.importPath = call.path ∧
      (Pass.addUnits units us)[call.path]? = some unit := by
  obtain ⟨unit, hmem, houtcome, hpath⟩ := exists_of_forall₂_left h.made hcall
  refine ⟨unit, houtcome, hpath, ?_⟩
  obtain ⟨unit', hunit'⟩ := Named.mem_iff.1 (Pass.mem_addUnits.2 (.inr ⟨unit, hmem, hpath⟩))
  rcases Pass.of_getElem?_addUnits hunit' with hold | ⟨hmem', hpath'⟩
  · exact absurd (Named.mem_of_getElem? hold) (h.fresh _ (h.mem_wave hcall))
  · have hnodup : (us.map CompiledUnit.importPath).Nodup := by
      rw [h.importPaths]
      exact h.perm.nodup_iff.2 h.nodup
    rw [hunit', List.inj_on_of_nodup_map hnodup hmem' hmem (hpath'.trans hpath.symm)]

end IsLevel

/-- A level keeps a ledger balanced. -/
theorem IsBalanced.level (h : l.IsBalanced) (hlevel : Level sources ext l l') : l'.IsBalanced := by
  obtain ⟨hnew⟩ := hlevel
  constructor
  case nodup =>
    rw [List.map_append]
    refine h.nodup.append (hnew.perm.nodup_iff.2 hnew.nodup) fun path hold hmem => ?_
    exact hnew.fresh path (hnew.perm.mem_iff.1 hmem) (h.mem_map_path_iff.1 hold)
  case made =>
    intro call hcall
    rcases List.mem_append.1 hcall with hcall | hcall
    · obtain ⟨unit, houtcome, hpath, hunit⟩ := h.made call hcall
      exact ⟨unit, houtcome, hpath, hnew.getElem?_of_getElem? hunit⟩
    · exact hnew.getElem?_of_mem hcall
  case called =>
    intro path hpath
    rcases Pass.mem_addUnits.1 hpath with hold | hadded
    · obtain ⟨call, hcall, he⟩ := h.called path hold
      exact ⟨call, List.mem_append_left _ hcall, he⟩
    · have hwave := hnew.exists_importPath_iff.1 hadded
      obtain ⟨call, hcall, he⟩ := List.mem_map.1 (hnew.perm.mem_iff.2 hwave)
      exact ⟨call, List.mem_append_right _ hcall, he⟩
  case dependencies =>
    intro before call after hcalls
    rcases of_append_eq_append_cons hcalls with ⟨after', hold⟩ | ⟨before', rfl, hsplit⟩
    · exact h.dependencies before call after' hold
    · have hcall : call ∈ _ := hsplit ▸ List.mem_append_right before' List.mem_cons_self
      rw [hnew.dependencies call hcall]
      refine ⟨?_, fun unit hunit => ?_⟩
      · rw [List.map_map]
        refine (List.map_congr_left fun d hd => ?_).trans (List.map_id _)
        obtain ⟨-, -, -, hpath⟩ := h.of_mem (hnew.imports call hcall d hd)
        exact hpath
      · obtain ⟨d, hd, rfl⟩ := List.mem_map.1 hunit
        obtain ⟨earlier, hearlier, houtcome, -⟩ := h.of_mem (hnew.imports call hcall d hd)
        exact ⟨earlier, List.mem_append_left _ hearlier, houtcome⟩
  case lines_perm =>
    rw [List.map_append]
    have hperm := hnew.perm.symm.map announcement
    rw [List.map_map] at hperm
    exact h.lines_perm.append hperm
  case lines_after =>
    intro call hcall before after hlines d hd
    rcases List.mem_append.1 hcall with hcall | hcall
    · rcases of_append_eq_append_cons hlines with ⟨after', hold⟩ | ⟨before', -, hsplit⟩
      · exact h.lines_after call hcall before after' hold d hd
      · -- the level announces no package that has a unit
        have hmem : announcement call.path ∈ List.map announcement _ :=
          hsplit ▸ List.mem_append_right before' List.mem_cons_self
        obtain ⟨path, hpath, he⟩ := List.mem_map.1 hmem
        rw [announcement_inj he] at hpath
        exact absurd (h.path_mem hcall) (hnew.fresh _ hpath)
    · rcases of_append_eq_append_cons hlines with ⟨after', hold⟩ | ⟨before', rfl, -⟩
      · -- the package of a new call was not announced before
        have hmem : announcement call.path ∈ _ :=
          hold ▸ List.mem_append_right before List.mem_cons_self
        exact absurd (h.announcement_mem_iff.1 hmem) (hnew.fresh _ (hnew.mem_wave hcall))
      · have hline := h.announcement_mem_iff.2 (hnew.imports call hcall d hd)
        exact List.mem_append_left _ hline

theorem IsBalanced.levels (h : l.IsBalanced) (hlevels : ReflTransGen (Level sources ext) l l') :
    l'.IsBalanced := by
  induction hlevels with
  | refl => exact h
  | tail _ hlevel ih => exact ih.level hlevel

theorem load_of_levels (hlevels : ReflTransGen (Level sources ext) l l') :
    ∃ new, l'.calls = l.calls ++ new ∧
      ∀ call ∈ new, Package.load sources ext call.path = .ok call.request.package := by
  induction hlevels with
  | refl => exact ⟨[], (List.append_nil _).symm, nofun⟩
  | tail _ hlevel ih =>
    obtain ⟨hnew⟩ := hlevel
    obtain ⟨new, hcalls, hload⟩ := ih
    dsimp only at hcalls
    refine ⟨new ++ _, by rw [hcalls, List.append_assoc], fun call hcall => ?_⟩
    exact (List.mem_append.1 hcall).elim (hload call) (hnew.load call)

end Ledger

/-! ### One pass -/

namespace Pass

variable {p : Pass} {remaining wave : List String} {waves : List (List String)}
  {requests : List CompileRequest} {new : List CompileCall} {us : List CompiledUnit}

/-- The request for a package of the next level has the units of all its imports. -/
theorem Progress.of_request (h : p.Progress sources ext remaining) (hwaves : p.waves = wave :: waves)
    {q : String} {request : CompileRequest} (hq : q ∈ wave) (hrequest : p.request q = .ok request) :
    request.package.importPath = q ∧ Package.load sources ext q = .ok request.package ∧
      (∀ d ∈ request.package.imports, d ∈ p.built) ∧
      request.dependencies = request.package.imports.map p.built.unitAt := by
  obtain ⟨package, hpackage, himports, hrequest'⟩ := h.request ((h.mem_wave_iff hwaves).1 hq)
  rw [hrequest] at hrequest'
  cases hrequest'
  have hload := h.found.load q package hpackage
  exact ⟨Package.load_importPath hload, hload, himports, rfl⟩

theorem Progress.map_importPath (h : p.Progress sources ext remaining) {paths : List String}
    (hrequests : List.Forall₂ (fun q request => p.request q = .ok request) paths requests) :
    requests.map (fun request => request.package.importPath) = paths := by
  induction hrequests with
  | nil => rfl
  | cons hrequest _ ih =>
    have hpackage := (of_request_eq_ok hrequest).1
    rw [List.map_cons, ih, Package.load_importPath (h.found.load _ _ hpackage)]

/-- The calls of a level, in any order, add a level to the ledger. -/
theorem Progress.isLevel (hf : frontEnd.KeepsPaths) (h : p.Progress sources ext remaining)
    (hwaves : p.waves = wave :: waves)
    (hrequests : List.Forall₂ (fun q request => p.request q = .ok request) wave requests)
    (hperm : (new.map CompileCall.request).Perm requests)
    (hmade : List.Forall₂ (fun call unit =>
      call.outcome = .built unit ∧ frontEnd.Answers call.request unit) new us) :
    Ledger.IsLevel sources ext p.built wave new us := by
  have hcall : ∀ call ∈ new, Package.load sources ext call.path = .ok call.request.package ∧
      (∀ d ∈ call.request.package.imports, d ∈ p.built) ∧
      call.request.dependencies = call.request.package.imports.map p.built.unitAt := by
    intro call hmem
    have hrequest := hperm.mem_iff.1 (List.mem_map_of_mem hmem)
    obtain ⟨q, hq, hmade⟩ := exists_of_forall₂_right hrequests hrequest
    obtain ⟨rfl, hload, himports, hdependencies⟩ := h.of_request hwaves hq hmade
    exact ⟨hload, himports, hdependencies⟩
  constructor
  case perm =>
    have hperm' := hperm.map fun request => request.package.importPath
    rwa [List.map_map, h.map_importPath hrequests] at hperm'
  case nodup => exact (ImportGraph.perm_wave (hwaves ▸ h.levels)).nodup_iff.2 (h.nodup.filter _)
  case fresh =>
    intro path hpath hbuilt
    have hready := ImportGraph.mem_readyIn.1 ((h.mem_wave_iff hwaves).1 hpath)
    rcases (h.mem_built path).1 hbuilt with hold | ⟨-, hnot⟩
    · exact h.notMem_session (h.packages path hready.1) hold
    · exact hnot hready.1
  case load => exact fun call hmem => (hcall call hmem).1
  case made => exact hmade.imp fun call unit hunit => ⟨hunit.1, hf _ _ hunit.2⟩
  case imports => exact fun call hmem => (hcall call hmem).2.1
  case dependencies => exact fun call hmem => (hcall call hmem).2.2

theorem exists_load_of_closure {built : UnitSet} {roots : List String} {e : BuildError}
    (h : closure built roots = .error e) : ∃ cause, e = .load cause := by
  unfold closure at h
  dsimp only at h
  generalize (ImportGraph.ofUnits built.dependencies).closure roots = paths at h
  generalize (∅ : UnitSet) = result at h
  induction paths generalizing result with
  | nil => cases h
  | cons path paths ih =>
    rw [List.foldlM_cons] at h
    cases hunit : built[path]? with
    | none =>
      rw [hunit] at h
      cases h
      exact ⟨_, rfl⟩
    | some unit =>
      rw [hunit] at h
      exact ih _ h

/-- A failure of another kind than that a package was due before a unit that it needs. -/
def IsOrderly (e : BuildError) : Prop := ∀ path d, e ≠ .missingDependency path d

/-- The ledger of a pass, when some calls were made before it. -/
def ledger (p : Pass) (before : List CompileCall) (c : BuildContext (σ × List CompileCall)) :
    Ledger :=
  ⟨p.built, before ++ c.state.2, c.lines⟩

variable {c : BuildContext (σ × List CompileCall)} (before : List CompileCall)

/-- A level of a pass adds a level to the ledger. -/
theorem Progress.ensures_level_ledger (hf : frontEnd.KeepsPaths)
    (h : p.Progress sources ext remaining) (hwaves : p.waves = wave :: waves) :
    Ensures (p.step frontEnd.recording schedule) c
      (fun p' c' => (∃ units, p' = { p with waves, built := addUnits p.built units }) ∧
        p'.Progress sources ext ((ImportGraph.ofImports p.packages.imports).blockedIn remaining) ∧
        Ledger.Level sources ext (p.ledger before c) (p'.ledger before c'))
      (fun e _ => IsOrderly e) := by
  refine h.ensures_level hwaves fun requests hrequests => ?_
  refine (ensures_compileAll_recording (schedule.arrange requests)).mono ?_ ?_
  · rintro units c' ⟨hannounced, new, hcalls, harranged, hmade⟩
    have hlevel := h.isLevel hf hwaves hrequests (harranged ▸ schedule.perm requests) hmade
    refine ⟨⟨units, rfl⟩, h.level hwaves fun q => hlevel.exists_importPath_iff, ?_⟩
    have hlines : c'.lines = c.lines ++ wave.map announcement := by
      rw [BuildContext.lines, hannounced, announce, List.map_append, List.map_map]
      rfl
    rw [ledger, ledger, hcalls, hlines, ← List.append_assoc]
    exact .add hlevel
  · rintro e c' (rfl | ⟨cause, rfl⟩ | ⟨cause, rfl⟩) path d he <;> cases he

theorem ensures_end_ledger (hwaves : p.waves = []) :
    Ensures (p.step frontEnd.recording schedule) c
      (fun p' c' => p'.session.units = p.built ∧ c' = c) (fun e _ => IsOrderly e) := by
  cases hresult : closure p.built p.roots with
  | ok result => exact ensures_end hwaves hresult ⟨rfl, rfl⟩
  | error e =>
    obtain ⟨cause, rfl⟩ := exists_load_of_closure hresult
    unfold step
    rw [hwaves]
    dsimp only
    rw [Ensures.bind_iff, Ensures.lift_iff, hresult]
    exact fun path d => nofun

/-- The levels of a pass, and then its end. -/
theorem Progress.ensures_steps_ledger (hf : frontEnd.KeepsPaths)
    (h : p.Progress sources ext remaining) (hwaves : p.waves = waves) :
    Ensures (steps frontEnd.recording schedule (waves.length + 1) p) c
      (fun p' c' => ReflTransGen (Ledger.Level sources ext) (p.ledger before c)
        ⟨p'.session.units, before ++ c'.state.2, c'.lines⟩)
      (fun e _ => IsOrderly e) := by
  induction waves generalizing p remaining c with
  | nil =>
    rw [List.length_nil, steps, Ensures.bind_iff]
    refine (ensures_end_ledger hwaves).mono ?_ fun e c' he => he
    rintro p' c' ⟨hunits, rfl⟩
    rw [steps, Ensures.pure_iff, hunits]
    exact .refl
  | cons wave waves ih =>
    rw [List.length_cons, steps, Ensures.bind_iff]
    refine (h.ensures_level_ledger before hf hwaves).mono ?_ fun e c' he => he
    rintro p' c' ⟨⟨units, rfl⟩, h', hlevel⟩
    refine (ih h' rfl).mono ?_ fun e c' he => he
    intro p'' c'' hlevels
    exact .head hlevel hlevels

end Pass

/-! ### Sequences of builds -/

namespace BuildSession

/-- A build adds levels to the ledger, or fails, and not because a package is due before a unit that
it needs. -/
theorem build_levels (hf : frontEnd.KeepsPaths) (before : List CompileCall) (schedule : Schedule)
    (sources : View) (ext : String) (roots : List String) (session : BuildSession)
    (c : BuildContext σ) :
    match build frontEnd schedule sources ext roots session c with
    | (.ok _, session', c') => ReflTransGen (Ledger.Level sources ext)
        ⟨session.units, before, c.lines⟩
        ⟨session'.units, before ++ callsOf frontEnd schedule sources ext roots session c, c'.lines⟩
    | (.error e, _, _) => Pass.IsOrderly e := by
  have hrun : Ensures (do
      let p ← Pass.start schedule sources ext roots session
      Pass.steps frontEnd.recording schedule p.stepsLeft p) c.keeping
      (fun p c' => ReflTransGen (Ledger.Level sources ext) ⟨session.units, before, c.lines⟩
        ⟨p.session.units, before ++ c'.state.2, c'.lines⟩)
      (fun e _ => Pass.IsOrderly e) := by
    rw [Ensures.bind_iff]
    refine Pass.ensures_start_cases.mono ?_ ?_
    · rintro p c' ⟨-, -, rfl, packages, waves, hdiscover, hwaves, rfl⟩
      have hprogress := Pass.Progress.start session hdiscover hwaves
      refine (hprogress.ensures_steps_ledger before hf rfl).mono ?_ fun e c' he => he
      intro p' c' hlevels
      rwa [Pass.ledger, BuildContext.keeping, List.append_nil] at hlevels
    · rintro e c' ⟨-, hwhy⟩ path d rfl
      obtain ⟨-, he⟩ | ⟨cause, -, he⟩ | ⟨packages, -, -, he⟩ | ⟨-, he⟩ := hwhy <;> cases he
  rcases build_of_ensures hrun with ⟨p, c', he, hlevels⟩ | ⟨e, c', he, horderly⟩
  · rw [build_recording, callsOf, he]
    exact hlevels
  · rw [build_recording, he]
    exact horderly

/-- Sequences of successful builds of one session, of any roots from any sources: the session they
lead to, what they leave of the context, and the calls that they made. -/
inductive Builds (frontEnd : FrontEnd σ) (variant : Variant) :
    BuildSession → BuildContext σ → List CompileCall → Prop where
  | new (state : σ) : Builds frontEnd variant (.new variant) ⟨state, false, []⟩ []
  | build {session session' : BuildSession} {c c' : BuildContext σ} {calls : List CompileCall}
      {result : UnitSet} (before : Builds frontEnd variant session c calls) (schedule : Schedule)
      (sources : View) (ext : String) (roots : List String)
      (success : BuildSession.build frontEnd schedule sources ext roots session c =
        (.ok result, session', c')) :
      Builds frontEnd variant session' c'
        (calls ++ callsOf frontEnd schedule sources ext roots session c)

variable {variant : Variant} {c c' : BuildContext σ} {calls : List CompileCall}
  {session' : BuildSession}
  {result : UnitSet}

theorem Builds.balanced (hf : frontEnd.KeepsPaths) (h : Builds frontEnd variant session c calls) :
    Ledger.IsBalanced ⟨session.units, calls, c.lines⟩ := by
  induction h with
  | new state => exact Ledger.isBalanced_empty
  | @build session session' c c' calls result before schedule sources ext roots success ih =>
    have hlevels := build_levels hf calls schedule sources ext roots session c
    rw [success] at hlevels
    exact ih.levels hlevels

/-- A build compiles the packages that it adds to the session, as the sources have them. -/
theorem Builds.callsOf_spec (hf : frontEnd.KeepsPaths) (h : Builds frontEnd variant session c calls)
    (success : BuildSession.build frontEnd schedule sources ext roots session c =
      (.ok result, session', c')) :
    (∀ path, path ∈ (callsOf frontEnd schedule sources ext roots session c).map CompileCall.path ↔
      path ∈ session'.units ∧ path ∉ session.units) ∧
    ∀ call ∈ callsOf frontEnd schedule sources ext roots session c,
      Package.load sources ext call.path = .ok call.request.package := by
  have hold := h.balanced hf
  have hnew := (h.build schedule sources ext roots success).balanced hf
  constructor
  · intro path
    have hnodup := hnew.nodup
    rw [List.map_append] at hnodup
    have hheld : path ∈ calls.map CompileCall.path ↔ path ∈ session.units := hold.mem_map_path_iff
    have hheld' : path ∈ calls.map CompileCall.path ∨
        path ∈ (callsOf frontEnd schedule sources ext roots session c).map CompileCall.path ↔
          path ∈ session'.units := by
      rw [← List.mem_append, ← List.map_append]
      exact hnew.mem_map_path_iff
    constructor
    · intro hpath
      refine ⟨hheld'.1 (.inr hpath), fun hmem => ?_⟩
      exact List.disjoint_of_nodup_append hnodup (hheld.2 hmem) hpath
    · rintro ⟨hmem, hnot⟩
      exact (hheld'.2 hmem).resolve_left fun hpath => hnot (hheld.1 hpath)
  · have hlevels := build_levels hf calls schedule sources ext roots session c
    rw [success] at hlevels
    obtain ⟨new, hcalls, hload⟩ := Ledger.load_of_levels hlevels
    rwa [List.append_cancel_left hcalls]

/-- Over any sequence of successful builds, no package is compiled twice; a package is compiled with
the units of its imports, in their order, which earlier calls made; and it is announced once, after
its imports.  Each build compiles exactly what it adds to the session.  And no build on any session,
whether it succeeds or not, finds a package due before a unit that it needs. -/
theorem isBalanced_of_builds (hf : frontEnd.KeepsPaths) :
    (∀ variant session c calls, Builds frontEnd variant session c calls →
      Ledger.IsBalanced ⟨session.units, calls, c.lines⟩ ∧
        ∀ schedule sources ext roots result session' c',
          build frontEnd schedule sources ext roots session c = (.ok result, session', c') →
            (∀ path,
              path ∈ (callsOf frontEnd schedule sources ext roots session c).map CompileCall.path ↔
                path ∈ session'.units ∧ path ∉ session.units) ∧
            ∀ call ∈ callsOf frontEnd schedule sources ext roots session c,
              Package.load sources ext call.path = .ok call.request.package) ∧
    ∀ schedule sources ext roots session c path d,
      (build frontEnd schedule sources ext roots session c).1 ≠
        .error (.missingDependency path d) := by
  refine ⟨fun variant session c calls h => ⟨h.balanced hf, ?_⟩, ?_⟩
  · intro schedule sources ext roots result session' c' success
    exact h.callsOf_spec hf success
  · intro schedule sources ext roots session c path d he
    have hlevels := build_levels hf [] schedule sources ext roots session c
    split at hlevels
    · rename_i hbuild
      rw [hbuild] at he
      cases he
    · rename_i hbuild
      rw [hbuild] at he
      cases he
      exact hlevels path d rfl

/-- The front end that bundles packages is called for one that imports another, with the unit of that
one. -/
theorem exists_call_twoPackages : Bundle.frontEnd.KeepsPaths ∧
    ∃ session c calls, Builds Bundle.frontEnd .optimized session c calls ∧
      ∃ call ∈ calls, call.path = "b" ∧
        call.request.dependencies.map CompiledUnit.importPath = ["a"] := by
  have hf : Bundle.frontEnd.KeepsPaths := fun request unit hanswer =>
    (Bundle.computes_outcome.isFaithful Bundle.faithful_outcome request unit hanswer).1
  refine ⟨hf, ?_⟩
  obtain ⟨result, session', c', success⟩ := exists_build_twoPackages
  obtain ⟨package, hload, -, himports, -⟩ := load_importing
  have hfresh : Builds Bundle.frontEnd .optimized (.new .optimized) ⟨∅, false, []⟩ [] := .new ∅
  have hbuilds := hfresh.build _ _ _ _ success
  obtain ⟨hbalanced, -⟩ := (isBalanced_of_builds hf).1 _ _ _ _ hbuilds
  obtain ⟨-, hcompile⟩ := (isBalanced_of_builds hf).1 _ _ _ _ hfresh
  obtain ⟨-, hsources⟩ := hcompile _ _ _ _ _ _ _ success
  have hsound : UnitSet.IsSound twoPackages.view "go" Bundle.outcome (new .optimized).variant
    (new .optimized).units := UnitSet.isSound_empty
  have hspec := build_spec Bundle.faithful_outcome Bundle.computes_outcome .inOrder ["b"]
    ⟨∅, false, []⟩ hsound
  rw [success] at hspec
  have hneeds : Needs twoPackages.view "go" ["b"] "b" := .of_mem (List.mem_singleton_self "b")
  have hb : "b" ∈ session'.units := (hspec.2.2.2 "b").2 (.inr hneeds)
  obtain ⟨call, hcall, hpath⟩ := hbalanced.called "b" hb
  have hpackage := hsources call hcall
  rw [hpath, hload, Except.ok.injEq] at hpackage
  obtain ⟨before, after, hsplit⟩ := List.append_of_mem hcall
  obtain ⟨hdependencies, -⟩ := hbalanced.dependencies before call after hsplit
  refine ⟨session', c', _, hbuilds, call, hcall, hpath, ?_⟩
  rw [hdependencies, ← hpackage, himports]

end BuildSession

end Playground
