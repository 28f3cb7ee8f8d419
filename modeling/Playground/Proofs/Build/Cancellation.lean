import Playground.Proofs.Build.Interleaving

/-!
# Cancelled builds

A session that is cancelled stays so, and none of its builds begins any more.  A build that is
cancelled during one of its calls does not leave the level of that call: before it can, it has to
take what the call returns, and to look again (`Level.IsOpen`).  So it fails, and the session keeps
the units that it has.
-/

namespace Playground.Interleaved

variable {σ : Type} {frontEnd : FrontEnd σ} {schedule : Schedule} {sources : View} {ext : String}
  {roots : List String} {s s' : BuildSession} {w : Work} {p : Pass} {l l' : Level}
  {event? : Option Event} {events : List Event}

/-! ### What is seen of cancelled sessions -/

/-- Builds are refused, and the front end is not called. -/
def Refused (events : List Event) : Prop := ∀ event ∈ events, event = .ended (.error .cancelled)

/-- The build that is under way fails, if it ends, and those after it are refused. -/
inductive Fails : List Event → Prop where
  | nil : Fails []
  | called {request : CompileRequest} {events : List Event} (h : Fails events) :
      Fails (.called request :: events)
  | ended {e : BuildError} {events : List Event} (h : Refused events) :
      Fails (.ended (.error e) :: events)

/-! ### Sessions without a build -/

theorem Step.of_idle (h : Step ⟨s, true, .idle⟩ event? w) :
    w = ⟨s, true, .idle⟩ ∧ Refused event?.toList := by
  cases h with
  | cancel => exact ⟨rfl, List.forall_mem_nil _⟩
  | refuse => exact ⟨rfl, List.forall_mem_singleton.2 rfl⟩

theorem Runs.of_idle (h : Runs ⟨s, true, .idle⟩ events w) :
    w = ⟨s, true, .idle⟩ ∧ Refused events := by
  generalize hstart : (⟨s, true, .idle⟩ : Work) = start at h
  induction h with
  | refl => exact ⟨rfl, List.forall_mem_nil _⟩
  | step hstep _ ih =>
    subst hstart
    obtain ⟨rfl, hrefused⟩ := hstep.of_idle
    obtain ⟨hw, hrefused'⟩ := ih rfl
    exact ⟨hw, List.forall_mem_append.2 ⟨hrefused, hrefused'⟩⟩

/-! ### Levels that are not left -/

/-- The build does not leave the level before it looks again. -/
def Level.IsOpen (l : Level) : Prop := l.looked = true → ¬ l.IsDone

theorem Level.isOpen_of_running (h : l.running ≠ []) : l.IsOpen := fun _ hdone => h hdone.running

/-- Whatever happens within a level, the build looks again before it leaves. -/
theorem Level.Step.isOpen (h : l.Step p event? l') : l'.IsOpen := by
  cases h with
  | spawn => exact fun _ hdone => List.append_ne_nil_of_right_ne_nil _ (by simp) hdone.waiting
  | call => exact isOpen_of_running (List.cons_ne_nil _ _)
  | finish => exact fun _ hdone => List.cons_ne_nil _ _ hdone.returned
  | take => exact fun hlooked => absurd hlooked Bool.false_ne_true

theorem Level.Step.event (h : l.Step p event? l') :
    event? = none ∨ ∃ request, event? = some (.called request) := by
  cases h with
  | spawn | finish | take => exact .inl rfl
  | call => exact .inr ⟨_, rfl⟩

/-- A cancelled build in an open level stays in it, or fails. -/
theorem Step.of_isOpen (hopen : l.IsOpen) (h : Step ⟨s, true, .compiling p l⟩ event? w) :
    (∃ l', w = ⟨s, true, .compiling p l'⟩ ∧ l'.IsOpen ∧
        (event? = none ∨ ∃ request, event? = some (.called request))) ∨
      w = ⟨s, true, .idle⟩ ∧ ∃ e, event? = some (.ended (.error e)) := by
  cases h with
  | cancel => exact .inl ⟨l, rfl, hopen, .inl rfl⟩
  | within hstep => exact .inl ⟨_, rfl, hstep.isOpen, hstep.event⟩
  | unmade | notice | fail => exact .inr ⟨rfl, _, rfl⟩
  | leave _ hlooked hdone => exact absurd hdone (hopen hlooked)

theorem Runs.of_isOpen (hopen : l.IsOpen) (h : Runs ⟨s, true, .compiling p l⟩ events w) :
    w.session = s ∧ Fails events := by
  generalize hstart : (⟨s, true, .compiling p l⟩ : Work) = start at h
  induction h generalizing l with
  | refl => exact ⟨by rw [← hstart], .nil⟩
  | step hstep hruns ih =>
    subst hstart
    rcases hstep.of_isOpen hopen with ⟨l', rfl, hopen', rfl | ⟨request, rfl⟩⟩ | ⟨rfl, e, rfl⟩
    · exact ih hopen' rfl
    · exact (ih hopen' rfl).imp_right .called
    · obtain ⟨rfl, hrefused⟩ := hruns.of_idle
      exact ⟨rfl, .ended hrefused⟩

theorem exists_runs_ended (s : BuildSession) (p : Pass) (l : Level) :
    ∃ e, Runs ⟨s, true, .compiling p l⟩ [.ended (.error e)] ⟨s, true, .idle⟩ := by
  obtain ⟨left, waiting, running, returned, units, looked⟩ := l
  induction left generalizing waiting with
  | nil => exact ⟨.cancelled, .single (.notice rfl)⟩
  | cons path left ih =>
    cases hrequest : p.request path with
    | error e => exact ⟨e, .single (.unmade rfl hrequest)⟩
    | ok request =>
      obtain ⟨e, hruns⟩ := ih (waiting ++ [request])
      exact ⟨e, .step (.within (.spawn rfl hrequest)) hruns⟩

/-! ### Cancelled builds as they are run -/

theorem build_of_cancelled {c : BuildContext σ} (hc : c.cancelled = true) :
    BuildSession.build frontEnd schedule sources ext roots s c = (.error .cancelled, s, c) := by
  have hstart : Ensures (do
      let p ← Pass.start schedule sources ext roots s
      Pass.steps frontEnd schedule p.stepsLeft p) c (fun _ _ => False)
      fun e c' => e = .cancelled ∧ c' = c := by
    unfold Pass.start
    rw [Ensures.bind_iff, Ensures.bind_iff, ensures_checkCancelled, if_pos hc]
    exact ⟨rfl, rfl⟩
  rcases BuildSession.build_of_ensures hstart with ⟨_, _, _, hfalse⟩ | ⟨_, _, hbuild, rfl, rfl⟩
  · exact hfalse.elim
  · exact hbuild

theorem callsOf_of_cancelled {c : BuildContext σ} (hc : c.cancelled = true) :
    BuildSession.callsOf frontEnd schedule sources ext roots s c = [] := by
  have hc' : c.keeping.cancelled = true := hc
  rw [BuildSession.callsOf, build_of_cancelled hc']
  rfl

/-- A build that ends well and leaves the session cancelled has not called the front end since. -/
theorem ensures_steps_uncancelled {kept : List CompileCall} (n : Nat) (p : Pass)
    {c : BuildContext (σ × List CompileCall)} (hc : c.cancelled = true → c.state.2 = kept) :
    Ensures (Pass.steps frontEnd.recording schedule n p) c
      (fun _ c' => c'.cancelled = true → c'.state.2 = kept) fun _ _ => True := by
  induction n generalizing p c with
  | zero => exact hc
  | succ n ih =>
    rw [Pass.steps, Ensures.bind_iff]
    cases hwaves : p.waves with
    | nil =>
      unfold Pass.step
      rw [hwaves]
      dsimp only
      rw [Ensures.bind_iff, Ensures.lift_iff]
      split
      · exact ih _ hc
      · trivial
    | cons wave waves =>
      refine (ensures_level_uncancelled hwaves).mono ?_ fun e c' _ => trivial
      rintro p' c' ⟨-, hc'⟩
      exact ih p' fun htrue => absurd (hc'.symm.trans htrue) Bool.false_ne_true

/-- A build that has called the front end, in a session that is cancelled at its end, fails. -/
theorem build_of_cancelled_after {c c' : BuildContext σ} {answer : Except BuildError UnitSet}
    (h : BuildSession.build frontEnd schedule sources ext roots s c = (answer, s', c'))
    (hcalls : BuildSession.callsOf frontEnd schedule sources ext roots s c ≠ [])
    (hc' : c'.cancelled = true) : (∃ e, answer = .error e) ∧ s' = s := by
  have hends : Ensures (do
      let p ← Pass.start schedule sources ext roots s
      Pass.steps frontEnd.recording schedule p.stepsLeft p) c.keeping
      (fun _ c' => c'.cancelled = true → c'.state.2 = []) fun _ _ => True := by
    rw [Ensures.bind_iff]
    refine Pass.ensures_start_cases.mono ?_ fun e c' _ => trivial
    rintro p c' ⟨-, -, rfl, -⟩
    exact ensures_steps_uncancelled _ _ fun _ => rfl
  rw [BuildSession.build_recording] at h
  unfold BuildSession.callsOf at hcalls
  rcases BuildSession.build_of_ensures hends with
    ⟨p, c'', hbuild, hnone⟩ | ⟨e, c'', hbuild, -⟩
  · rw [hbuild] at h hcalls
    cases h
    exact absurd (hnone hc') hcalls
  · rw [hbuild] at h
    cases h
    exact ⟨⟨e, rfl⟩, rfl⟩

/-! ### Cancelled sessions -/

/-- What a cancellation does to the builds of a session.  If the session is cancelled when a build
is to begin, the build is refused: it calls nothing and changes nothing.  If it is cancelled by the
end of a build that has called the front end, the build fails and leaves the session as it was.

The same holds of all runs, of which `build` is one: whichever calls run side by side, whatever they
return and in whichever order.  Once the session is cancelled and no build is under way, builds are
refused.  If it is cancelled while a call of the build has not returned, the session keeps its
units, the build fails, as it can at once, and all builds after it are refused. -/
theorem cancelled_builds_fail :
    (∀ {σ : Type} (frontEnd : FrontEnd σ) (schedule : Schedule) (sources : View) (ext : String)
        (roots : List String) (s : BuildSession) (c : BuildContext σ),
      (c.cancelled = true →
        BuildSession.build frontEnd schedule sources ext roots s c = (.error .cancelled, s, c) ∧
        BuildSession.callsOf frontEnd schedule sources ext roots s c = []) ∧
      ∀ (answer : Except BuildError UnitSet) (s' : BuildSession) (c' : BuildContext σ),
        BuildSession.build frontEnd schedule sources ext roots s c = (answer, s', c') →
          (BuildSession.callsOf frontEnd schedule sources ext roots s c ≠ [] →
            c'.cancelled = true → (∃ e, answer = .error e) ∧ s' = s) ∧
          Runs ⟨s, c.cancelled, .idle⟩
            (seen (BuildSession.callsOf frontEnd schedule sources ext roots s c) ++ [.ended answer])
            ⟨s', c'.cancelled, .idle⟩) ∧
    (∀ s : BuildSession,
      (∀ w events, Runs ⟨s, true, .idle⟩ events w → w.session = s ∧ Refused events) ∧
      Runs ⟨s, true, .idle⟩ [.ended (.error .cancelled)] ⟨s, true, .idle⟩) ∧
    ∀ (s : BuildSession) (p : Pass) (l : Level), l.running ≠ [] →
      (∀ w events, Runs ⟨s, true, .compiling p l⟩ events w → w.session = s ∧ Fails events) ∧
      ∃ e, Runs ⟨s, true, .compiling p l⟩ [.ended (.error e)] ⟨s, true, .idle⟩ := by
  refine ⟨fun frontEnd schedule sources ext roots s c => ⟨fun hc => ?_, ?_⟩, fun s => ?_,
    fun s p l hrunning => ?_⟩
  · exact ⟨build_of_cancelled hc, callsOf_of_cancelled hc⟩
  · intro answer s' c' hbuild
    exact ⟨build_of_cancelled_after hbuild, runs_build frontEnd schedule sources ext roots hbuild⟩
  · refine ⟨fun w events hruns => ?_, .single .refuse⟩
    obtain ⟨rfl, hrefused⟩ := hruns.of_idle
    exact ⟨rfl, hrefused⟩
  · refine ⟨fun w events hruns => ?_, exists_runs_ended s p l⟩
    exact hruns.of_isOpen (Level.isOpen_of_running hrunning)

end Playground.Interleaved
