import Playground.Proofs.Build.Calls
import Playground.Proofs.Build.Variants

/-!
# Builds whose workers can be counted

The workers are counted once, when a build begins.  Whatever a pass does after that may fail, but it
does not break down for want of a count (`Pass.ensures_step_staffed`), so a build does only if more
workers are asked for than can be counted (`VariantSessions.isStaffed_of_build`).  Then it does, if
nothing else keeps it from beginning (`VariantSessions.build_of_isOverstaffed`).
-/

namespace Playground

variable {σ : Type} {frontEnd : FrontEnd σ} {schedule : Schedule} {c : BuildContext σ}
  {e : BuildError}

/-- A failure of another kind than that the workers cannot be counted. -/
def BuildError.IsStaffed (e : BuildError) : Prop := e ≠ .worker .overstaffed

namespace Pass

variable {p : Pass} {path : String}

theorem isStaffed_of_request (h : p.request path = .error e) : e.IsStaffed := by
  unfold Pass.request at h
  split at h
  · cases h
    exact nofun
  · rcases Results.bind_eq_error.1 h with h | ⟨dependencies, -, h⟩
    · obtain ⟨d, -, hmissing⟩ := Results.exists_of_mapM_eq_error h
      unfold dependency at hmissing
      split at hmissing <;> cases hmissing
      exact nofun
    · cases h

theorem ensures_start_staffed {sources : View} {ext : String} {roots : List String}
    {session : BuildSession} (hstaff : schedule.isOverstaffed = false) :
    Ensures (start schedule sources ext roots session) c (fun _ _ => True)
      (fun e _ => e.IsStaffed) := by
  refine ensures_start_cases.mono (fun _ _ _ => trivial) ?_
  rintro e c' ⟨-, ⟨-, rfl⟩ | ⟨cause, -, rfl⟩ | ⟨packages, -, -, rfl⟩ | ⟨hover, -⟩⟩
  · exact nofun
  · exact nofun
  · exact nofun
  · rw [hstaff] at hover
    cases hover

/-- A pass whose workers cannot be counted does not begin, and announces nothing. -/
theorem ensures_start_overstaffed {sources : View} {ext : String} {f : CompileRequest → Outcome}
    {variant : Variant} {roots : List String} {session : BuildSession}
    (hstaff : schedule.isOverstaffed = true) (hc : c.cancelled = false)
    (hbuildable : Buildable sources ext f variant roots) :
    Ensures (start schedule sources ext roots session) c (fun _ _ => False)
      (fun e c' => e = .worker .overstaffed ∧ c'.announced = c.announced) := by
  refine ensures_start_cases.mono ?_ ?_
  · rintro p c' ⟨-, hstaffed, -⟩
    rw [hstaff] at hstaffed
    cases hstaffed
  · rintro e c' ⟨hsaid, ⟨hcancelled, -⟩ | ⟨cause, hdiscover, -⟩ | ⟨packages, hdiscover, hwaves, -⟩ |
      ⟨-, rfl⟩⟩
    · rw [hc] at hcancelled
      cases hcancelled
    · exact absurd hbuildable (not_buildable_of_unread hdiscover)
    · exact absurd hbuildable (not_buildable_of_tangled hdiscover hwaves)
    · exact ⟨rfl, hsaid⟩

/-- A pass that has begun does not break down for want of a count of its workers. -/
theorem ensures_step_staffed :
    Ensures (p.step frontEnd schedule) c (fun _ _ => True) (fun e _ => e.IsStaffed) := by
  cases hwaves : p.waves with
  | nil =>
    unfold step
    rw [hwaves]
    dsimp only
    rw [Ensures.bind_iff, Ensures.lift_iff]
    cases hclosure : closure p.built p.roots with
    | ok result => trivial
    | error e =>
      obtain ⟨cause, rfl⟩ := exists_load_of_closure hclosure
      exact nofun
  | cons wave waves =>
    unfold step
    rw [hwaves]
    dsimp only
    rw [Ensures.bind_iff]
    refine (ensures_requests p wave).mono ?_ ?_
    · rintro requests c' -
      rw [Ensures.bind_iff]
      refine (ensures_compileAll_answers (schedule.arrange requests)).mono
        (fun _ _ _ => trivial) ?_
      rintro e c' (rfl | ⟨cause, rfl⟩ | ⟨cause, rfl⟩) <;> exact nofun
    · rintro e c' ⟨path, -, hrequest⟩
      exact isStaffed_of_request hrequest

end Pass

namespace VariantSessions

theorem steps_staffed {left : Nat} {passes : PerVariant Pass}
    (h : (steps frontEnd schedule left passes c).1 = .error e) : e.IsStaffed := by
  induction left generalizing passes c with
  | zero => cases h
  | succ left ih =>
    have hstep : Ensures ((passes.get (next schedule (left + 1) passes)).step frontEnd schedule) c
        (fun _ _ => True) (fun e _ => e.IsStaffed) := Pass.ensures_step_staffed
    unfold Ensures at hstep
    rw [steps] at h
    split at hstep
    · rename_i p c' he
      rw [he] at h
      exact ih h
    · rename_i e' c' he
      rw [he] at h
      cases h
      exact hstep

/-- A build in both variants whose workers can be counted does not break down for want of that. -/
theorem isStaffed_of_build (frontEnd : FrontEnd σ) (sources : View) (ext : String)
    (roots : List String) (s : VariantSessions) (c : BuildContext σ)
    (hstaff : schedule.isOverstaffed = false)
    (h : (build frontEnd schedule sources ext roots s c).1 = .error e) : e.IsStaffed := by
  have hstart : Ensures (do
      let optimized ← Pass.start schedule sources ext roots s.optimized
      let full ← Pass.start schedule sources ext roots s.full
      return (⟨optimized, full⟩ : PerVariant Pass)) c (fun _ _ => True)
      (fun e _ => e.IsStaffed) := by
    rw [Ensures.bind_iff]
    refine (Pass.ensures_start_staffed hstaff).mono (fun _ _ _ => ?_) fun _ _ he => he
    rw [Ensures.bind_iff]
    exact (Pass.ensures_start_staffed hstaff).mono (fun _ _ _ => trivial) fun _ _ he => he
  unfold Ensures at hstart
  unfold build at h
  dsimp only at h
  split at hstart
  · rename_i passes c' he
    rw [he] at h
    dsimp only at h
    split at h
    · rename_i e' passes' c'' hsteps
      cases h
      exact steps_staffed (congrArg Prod.fst hsteps)
    · split at h
      · rename_i e' hparity
        cases h
        unfold checkParity at hparity
        dsimp only at hparity
        split at hparity <;> cases hparity
        exact nofun
      · cases h
  · rename_i e' c' he
    rw [he] at h
    cases h
    exact hstart

/-- A build in both variants that nobody cancels breaks down when its workers cannot be counted, if
its roots are buildable, and announces nothing. -/
theorem build_of_isOverstaffed {sources : View} {ext : String} {f : CompileRequest → Outcome}
    {variant : Variant} {roots : List String} (frontEnd : FrontEnd σ) (s : VariantSessions)
    (hstaff : schedule.isOverstaffed = true) (hc : c.cancelled = false)
    (hbuildable : Buildable sources ext f variant roots) :
    ∃ c', build frontEnd schedule sources ext roots s c = (.error (.worker .overstaffed), s, c') ∧
      c'.announced = c.announced := by
  have hstart : Ensures (do
      let optimized ← Pass.start schedule sources ext roots s.optimized
      let full ← Pass.start schedule sources ext roots s.full
      return (⟨optimized, full⟩ : PerVariant Pass)) c (fun _ _ => False)
      (fun e c' => e = .worker .overstaffed ∧ c'.announced = c.announced) := by
    rw [Ensures.bind_iff]
    exact (Pass.ensures_start_overstaffed hstaff hc hbuildable).mono (fun _ _ h => h.elim)
      fun _ _ he => he
  unfold Ensures at hstart
  unfold build
  dsimp only
  split at hstart
  · exact hstart.elim
  · rename_i e c' he
    obtain ⟨rfl, hsaid⟩ := hstart
    rw [he]
    exact ⟨c', rfl, hsaid⟩

end VariantSessions

end Playground
