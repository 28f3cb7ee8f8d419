import Playground.Proofs.Build.Progress

/-!
# What a pass keeps

Between two levels a pass has built the units of its session and of all packages that do not remain,
and every unit it has is the meaning of its package (`Pass.Invariant`).  A level takes away what is
ready (`Pass.ensures_level`).  When nothing remains, the closure of the roots is what they need
(`Pass.ensures_finish`).

A pass fails only if the session is cancelled or the roots are not buildable.
-/

namespace Playground

open Relation

variable {σ : Type} {sources : View} {ext : String} {f : CompileRequest → Outcome}
  {variant : Variant} {frontEnd : FrontEnd σ} {schedule : Schedule}

/-! ### Requests -/

/-- A request for the package at a path, with the meanings of its imports. -/
def IsRequestFor (sources : View) (ext : String) (f : CompileRequest → Outcome)
    (variant : Variant) (path : String) (request : CompileRequest) : Prop :=
  ∃ package unitOf, Package.load sources ext path = .ok package ∧
    (∀ d ∈ package.imports, Meaning sources ext f variant d (unitOf d)) ∧
      request = ⟨package, package.imports.map unitOf, variant⟩

theorem IsRequestFor.meaning {path : String} {request : CompileRequest} {unit : CompiledUnit}
    (h : IsRequestFor sources ext f variant path request) (hf : f request = .built unit) :
    Meaning sources ext f variant path unit := by
  obtain ⟨package, unitOf, hload, himports, rfl⟩ := h
  exact .built unitOf hload himports hf

theorem IsRequestFor.not_isAccepted {path : String} {request : CompileRequest}
    (h : IsRequestFor sources ext f variant path request)
    (hf : ∀ unit, f request ≠ .built unit) : ¬ IsAccepted sources ext f variant path := by
  obtain ⟨package, unitOf, hload, himports, rfl⟩ := h
  intro haccepted
  obtain ⟨unit, hunit⟩ := haccepted package unitOf hload himports
  exact hf unit hunit

/-! ### The invariant -/

namespace Pass

/-- What holds of a pass when the packages `remaining` are still to be compiled. -/
structure Invariant (sources : View) (ext : String) (f : CompileRequest → Outcome)
    (p : Pass) (remaining : List String) : Prop where
  sound : UnitSet.IsSound sources ext f p.session.variant p.session.units
  found : Discovering sources ext (fun q => p.session.units.contains q) p.roots p.packages []
  packages : ∀ q ∈ remaining, q ∈ p.packages
  nodup : remaining.Nodup
  levels : (ImportGraph.ofImports p.packages.imports).wavesFrom remaining = some p.waves
  meaning : ∀ q unit, p.built[q]? = some unit → Meaning sources ext f p.session.variant q unit
  mem_built : ∀ q, q ∈ p.built ↔ q ∈ p.session.units ∨ q ∈ p.packages ∧ q ∉ remaining

variable {p : Pass} {remaining wave : List String} {waves : List (List String)}

theorem Invariant.mem_of_needs (h : p.Invariant sources ext f remaining) {q : String}
    (hq : Needs sources ext p.roots q) : q ∈ p.session.units ∨ q ∈ p.packages := by
  have hknown : ∀ q d, p.session.units.contains q = true → Imports sources ext q d →
      p.session.units.contains d = true := by
    intro q d hq hd
    rw [Std.ExtTreeMap.contains_iff_mem] at hq ⊢
    exact h.sound.closed q hq d hd
  exact (h.found.known_or_found hknown hq).imp_left Std.ExtTreeMap.contains_iff_mem.1

theorem Invariant.progress (h : p.Invariant sources ext f remaining) :
    p.Progress sources ext remaining :=
  ⟨h.found, h.packages, h.nodup, h.levels, h.mem_built⟩

/-- The request for a package that is ready can be made. -/
theorem Invariant.request (h : p.Invariant sources ext f remaining) {q : String}
    (hq : q ∈ (ImportGraph.ofImports p.packages.imports).readyIn remaining) :
    ∃ request, p.request q = .ok request ∧
      IsRequestFor sources ext f p.session.variant q request := by
  obtain ⟨package, hpackage, himports, hrequest⟩ := h.progress.request hq
  refine ⟨_, hrequest, package, p.built.unitAt, h.found.load q package hpackage, fun d hd => ?_,
    rfl⟩
  exact h.meaning d _ (UnitSet.getElem?_eq_unitAt (himports d hd))

/-! ### One level -/

/-- The results of the requests of a level, compiled in any order, are meanings of its packages, one
for each of them. -/
theorem meaning_of_compiled {requests arranged : List CompileRequest} {units : List CompiledUnit}
    (hf : Faithful f) (hasked : ∀ q ∈ wave, ∀ request, p.request q = .ok request →
      IsRequestFor sources ext f variant q request)
    (hrequests : List.Forall₂ (fun q request => p.request q = .ok request) wave requests)
    (hperm : arranged.Perm requests)
    (hunits : List.Forall₂ (fun request unit => f request = .built unit) arranged units) :
    (∀ unit ∈ units, ∃ q ∈ wave, Meaning sources ext f variant q unit) ∧
      ∀ q ∈ wave, ∃ unit ∈ units, unit.importPath = q := by
  obtain ⟨hmade, hall⟩ := of_forall₂_requests hrequests hperm hunits
  constructor
  · intro unit hunit
    obtain ⟨q, hq, request, hrequest, hbuilt⟩ := hmade unit hunit
    exact ⟨q, hq, (hasked q hq request hrequest).meaning hbuilt⟩
  · intro q hq
    obtain ⟨unit, hunit, request, hrequest, hbuilt⟩ := hall q hq
    exact ⟨unit, hunit, ((hasked q hq request hrequest).meaning hbuilt).importPath hf⟩

theorem Invariant.level (h : p.Invariant sources ext f remaining) (hf : Faithful f)
    (hwaves : p.waves = wave :: waves) {units : List CompiledUnit}
    (hmeaning : ∀ unit ∈ units, ∃ q ∈ wave, Meaning sources ext f p.session.variant q unit)
    (hunits : ∀ q ∈ wave, ∃ unit ∈ units, unit.importPath = q) :
    Invariant sources ext f { p with waves, built := addUnits p.built units }
      ((ImportGraph.ofImports p.packages.imports).blockedIn remaining) := by
  have hcompiled (q : String) : (∃ u ∈ units, u.importPath = q) ↔ q ∈ wave := by
    refine ⟨?_, hunits q⟩
    rintro ⟨unit, hunit, rfl⟩
    obtain ⟨q, hq, hm⟩ := hmeaning unit hunit
    rwa [hm.importPath hf]
  obtain ⟨hfound, hpackages, hnodup, hlevels, hbuilt⟩ := h.progress.level hwaves hcompiled
  refine ⟨h.sound, hfound, hpackages, hnodup, hlevels, fun q unit hunit => ?_, hbuilt⟩
  rcases of_getElem?_addUnits hunit with hold | ⟨hmem, hpath⟩
  · exact h.meaning q unit hold
  · obtain ⟨q', -, hm⟩ := hmeaning unit hmem
    rwa [← hpath, hm.importPath hf]

/-- A level keeps the invariant.  It fails only if the session is cancelled or a package that the
roots need is not accepted.  In any case its packages are announced. -/
theorem ensures_level (h : p.Invariant sources ext f remaining) (hf : Faithful f)
    (hcomputes : frontEnd.Computes f) {c : BuildContext σ} (hwaves : p.waves = wave :: waves) :
    Ensures (p.step frontEnd schedule) c
      (fun p' c' => ∃ units remaining', p' = { p with waves, built := addUnits p.built units } ∧
        p'.Invariant sources ext f remaining' ∧ c'.cancelled = c.cancelled ∧
          c'.announced = (announce p.session.variant wave c).announced)
      (fun _ c' =>
        (c.cancelled = true ∨ ¬ Buildable sources ext f p.session.variant p.roots) ∧
          c'.announced = (announce p.session.variant wave c).announced) := by
  have hasked : ∀ q ∈ wave, ∀ request, p.request q = .ok request →
      IsRequestFor sources ext f p.session.variant q request := by
    intro q hq request hrequest
    obtain ⟨request', hrequest', hfor⟩ := h.request ((h.progress.mem_wave_iff hwaves).1 hq)
    rw [hrequest] at hrequest'
    cases hrequest'
    exact hfor
  refine h.progress.ensures_level hwaves fun requests hrequests => ?_
  refine (ensures_compileAll hcomputes (schedule.arrange requests)).mono ?_ ?_
  · rintro units c' ⟨hunits, hc'⟩
    obtain ⟨hmeaning, hbuilt⟩ :=
      meaning_of_compiled hf hasked hrequests (schedule.perm requests) hunits
    exact ⟨units, _, rfl, h.level hf hwaves hmeaning hbuilt, hc'⟩
  · rintro e c' ⟨hc | ⟨request, hmem, hfail⟩, hsaid⟩
    · exact ⟨.inl hc, hsaid⟩
    · refine ⟨.inr fun hbuildable => ?_, hsaid⟩
      obtain ⟨q, hq, hrequest⟩ :=
        exists_of_forall₂_right hrequests ((schedule.perm requests).mem_iff.1 hmem)
      have hready := (h.progress.mem_wave_iff hwaves).1 hq
      have hneeded : Needs sources ext p.roots q :=
        h.found.needed q (.inl (h.packages q (ImportGraph.mem_readyIn.1 hready).1))
      exact (hasked q hq request hrequest).not_isAccepted hfail (hbuildable.accepted q hneeded)

/-! ### The end -/

theorem Invariant.isSound_built (h : p.Invariant sources ext f []) :
    UnitSet.IsSound sources ext f p.session.variant p.built where
  meaning := h.meaning
  closed q hq d hd := by
    rw [h.mem_built] at hq ⊢
    rcases hq with hq | ⟨hq, -⟩
    · exact .inl (h.sound.closed q hq d hd)
    · rcases h.found.closed q hq d hd with hknown | hfound | hqueue
      · exact .inl (Std.ExtTreeMap.contains_iff_mem.1 hknown)
      · exact .inr ⟨hfound, List.not_mem_nil⟩
      · cases hqueue

/-- What a pass has when it has come to its end: the units that the roots need, and a session with
these beside its own. -/
structure IsDone (sources : View) (ext : String) (f : CompileRequest → Outcome)
    (session : BuildSession) (roots : List String) (p : Pass) : Prop where
  isSome_result : p.result.isSome = true
  variant : p.session.variant = session.variant
  units : UnitSet.IsMeaningOf sources ext f session.variant roots p.units
  sound : UnitSet.IsSound sources ext f session.variant p.session.units
  mem_units : ∀ q, q ∈ p.session.units ↔ q ∈ session.units ∨ Needs sources ext roots q

theorem ensures_finish (h : p.Invariant sources ext f remaining) (hf : Faithful f)
    {c : BuildContext σ} (hwaves : p.waves = []) :
    Ensures (p.step frontEnd schedule) c
      (fun p' c' => IsDone sources ext f p.session p.roots p' ∧ c' = c) (fun _ _ => False) := by
  cases h.progress.eq_nil hwaves
  have hmem (q : String) : q ∈ p.built ↔ q ∈ p.session.units ∨ Needs sources ext p.roots q := by
    rw [h.mem_built]
    constructor
    · exact Or.imp_right fun hq => h.found.needed q (.inl hq.1)
    · rintro (hq | hq)
      · exact .inl hq
      · exact (h.mem_of_needs hq).imp_right fun hq => ⟨hq, List.not_mem_nil⟩
  obtain ⟨result, hresult, hunits⟩ := h.isSound_built.closure_eq hf fun r hr =>
    (hmem r).2 (.inr (.of_mem hr))
  exact ensures_end hwaves hresult ⟨⟨rfl, rfl, hunits, h.isSound_built, hmem⟩, rfl⟩

end Pass

end Playground
