import Mathlib.Data.List.Forall2
import Playground.Proofs.Build.Meaning
import Playground.Proofs.Ensures

/-!
# How parts of a build end

How each operation of a pass ends: what it leaves of the context, which packages are announced, and
why it fails.
-/

namespace Playground

variable {σ : Type} {c : BuildContext σ} {err : BuildError → BuildContext σ → Prop}

/-! ### Checks -/

theorem ensures_checkCancelled {ok : Unit → BuildContext σ → Prop} :
    Ensures checkCancelled c ok err ↔ if c.cancelled then err .cancelled c else ok () c := by
  unfold checkCancelled
  rw [Ensures.bind_iff, Ensures.get_iff]
  split <;> rfl

theorem ensures_countWorkers {schedule : Schedule} {ok : Unit → BuildContext σ → Prop} :
    Ensures (countWorkers schedule) c ok err ↔
      if schedule.isOverstaffed then err (.worker .overstaffed) c else ok () c := by
  unfold countWorkers
  split <;> rfl

/-! ### The operations of a level -/

namespace Pass

/-- What is left of a context when some packages of a variant were announced. -/
def announce (variant : Variant) (wave : List String) (c : BuildContext σ) : BuildContext σ :=
  { c with announced := c.announced ++ wave.map fun path => (variant, path) }

theorem ensures_requests (p : Pass) (wave : List String) :
    Ensures (p.requests wave) c
      (fun requests c' =>
        List.Forall₂ (fun q request => p.request q = .ok request) wave requests ∧
          c' = announce p.session.variant wave c)
      (fun e _ => ∃ q ∈ wave, p.request q = .error e) := by
  induction wave generalizing c with
  | nil =>
    rw [requests, Ensures.pure_iff, announce, List.map_nil, List.append_nil]
    exact ⟨.nil, rfl⟩
  | cons q wave ih =>
    rw [requests, Ensures.bind_iff, Ensures.lift_iff]
    cases hq : p.request q with
    | error e => exact ⟨q, List.mem_cons_self, hq⟩
    | ok request =>
      dsimp only
      rw [Ensures.bind_iff, Ensures.modify_iff, Ensures.bind_iff]
      refine ih.mono ?_ ?_
      · rintro requests c' ⟨hrequests, rfl⟩
        rw [Ensures.pure_iff]
        refine ⟨.cons hq hrequests, ?_⟩
        rw [announce, announce, List.append_assoc]
        rfl
      · rintro e c' ⟨q', hmem, hq'⟩
        exact ⟨q', List.mem_cons_of_mem _ hmem, hq'⟩

variable {frontEnd : FrontEnd σ} {f : CompileRequest → Outcome} {request : CompileRequest}

theorem ensures_call {ok : Outcome → BuildContext σ → Prop} :
    Ensures (call frontEnd request) c ok err ↔
      ok (frontEnd.compile request c.state).1.outcome
        { c with
          state := (frontEnd.compile request c.state).2
          cancelled := c.cancelled || (frontEnd.compile request c.state).1.cancels } := Iff.rfl

/-- Compiling packages gives the units that the front end makes of them, in order, and fails only
if the session was cancelled or some package is not accepted.  It announces nothing. -/
theorem ensures_compileAll (hcomputes : frontEnd.Computes f) (requests : List CompileRequest) :
    Ensures (compileAll frontEnd requests) c
      (fun units c' => List.Forall₂ (fun request unit => f request = .built unit) requests units ∧
        c'.cancelled = c.cancelled ∧ c'.announced = c.announced)
      (fun _ c' => (c.cancelled = true ∨
        ∃ request ∈ requests, ∀ unit, f request ≠ .built unit) ∧ c'.announced = c.announced) := by
  induction requests generalizing c with
  | nil =>
    rw [compileAll, Ensures.bind_iff, ensures_checkCancelled]
    split
    · rename_i hc
      exact ⟨.inl hc, rfl⟩
    · exact ⟨.nil, rfl, rfl⟩
  | cons request requests ih =>
    rw [compileAll, Ensures.bind_iff, ensures_checkCancelled]
    split
    · rename_i hc
      exact ⟨.inl hc, rfl⟩
    · rename_i hc
      rw [Ensures.bind_iff, ensures_call, hcomputes, Bool.or_false, Ensures.bind_iff,
        ensures_checkCancelled, if_neg hc]
      cases hf : f request with
      | built unit =>
        rw [Ensures.bind_iff]
        refine (ih (c := { c with state := _ })).mono ?_ ?_
        · rintro units c' ⟨hunits, hc'⟩
          exact ⟨.cons hf hunits, hc'⟩
        · rintro e c' ⟨hc' | ⟨request', hmem, hfail⟩, hsaid⟩
          · exact ⟨.inl hc', hsaid⟩
          · exact ⟨.inr ⟨request', List.mem_cons_of_mem _ hmem, hfail⟩, hsaid⟩
      | rejected e =>
        rw [Ensures.throw_iff]
        refine ⟨.inr ⟨request, List.mem_cons_self, fun unit h => ?_⟩, rfl⟩
        rw [hf] at h
        cases h
      | panicked cause =>
        rw [Ensures.throw_iff]
        refine ⟨.inr ⟨request, List.mem_cons_self, fun unit h => ?_⟩, rfl⟩
        rw [hf] at h
        cases h

end Pass

/-! ### Whole builds -/

/-- A build ends as its pass does: it answers with what the pass has, or fails and leaves the
session as it was. -/
theorem BuildSession.build_of_ensures {frontEnd : FrontEnd σ} {schedule : Schedule}
    {sources : View} {ext : String} {roots : List String} {session : BuildSession}
    {ok : Pass → BuildContext σ → Prop}
    (h : Ensures (do
      let p ← Pass.start schedule sources ext roots session
      Pass.steps frontEnd schedule p.stepsLeft p) c ok err) :
    (∃ p c', build frontEnd schedule sources ext roots session c = (.ok p.units, p.session, c') ∧
        ok p c') ∨
      ∃ e c', build frontEnd schedule sources ext roots session c = (.error e, session, c') ∧
        err e c' := by
  unfold Ensures at h
  unfold build
  dsimp only
  split at h
  · rename_i p c' he
    rw [he]
    exact .inl ⟨p, c', rfl, h⟩
  · rename_i e c' he
    rw [he]
    exact .inr ⟨e, c', rfl, h⟩

end Playground
