import Playground.Proofs.Build.Coherence

/-!
# Recorded calls

Any front end can be made to keep its calls beside its state (`FrontEnd.recording`).  That changes
nothing else in a build: the recorded build is the same build (`BuildSession.build_recording`), so
what it keeps are the calls that the build makes (`BuildSession.callsOf`).
-/

namespace Playground

variable {σ α β : Type} {frontEnd : FrontEnd σ} {schedule : Schedule} {sources : View}
  {ext : String} {roots : List String} {session : BuildSession}

/-- A call of a front end, and how it ended. -/
structure CompileCall where
  request : CompileRequest
  outcome : Outcome

def CompileCall.path (call : CompileCall) : String := call.request.package.importPath

/-- The front end that keeps its calls, in order, beside its state. -/
def FrontEnd.recording (frontEnd : FrontEnd σ) : FrontEnd (σ × List CompileCall) where
  compile request state :=
    let (reply, state') := frontEnd.compile request state.1
    (reply, state', state.2 ++ [⟨request, reply.outcome⟩])

namespace BuildContext

/-- The context without the calls kept. -/
def forget (c : BuildContext (σ × List CompileCall)) : BuildContext σ :=
  { c with state := c.state.1 }

/-- The context with no call kept yet. -/
def keeping (c : BuildContext σ) : BuildContext (σ × List CompileCall) :=
  { c with state := (c.state, []) }

end BuildContext

/-- Compiling packages keeps one call for each of them, in order, with the unit that was made.  It
announces nothing.  It fails with what the front end says, or because the session is cancelled. -/
theorem Pass.ensures_compileAll_recording (requests : List CompileRequest)
    {c : BuildContext (σ × List CompileCall)} :
    Ensures (compileAll frontEnd.recording requests) c
      (fun units c' => c'.announced = c.announced ∧ ∃ new, c'.state.2 = c.state.2 ++ new ∧
        new.map CompileCall.request = requests ∧ List.Forall₂ (fun call unit =>
          call.outcome = .built unit ∧ frontEnd.Answers call.request unit) new units)
      (fun e _ => e = .cancelled ∨ (∃ cause, e = .compile cause) ∨
        ∃ cause, e = .worker (.frontEnd cause)) := by
  induction requests generalizing c with
  | nil =>
    rw [compileAll, Ensures.bind_iff, ensures_checkCancelled]
    split
    · exact .inl rfl
    · exact ⟨rfl, [], (List.append_nil _).symm, rfl, .nil⟩
  | cons request requests ih =>
    rw [compileAll, Ensures.bind_iff, ensures_checkCancelled]
    split
    · exact .inl rfl
    · rw [Ensures.bind_iff, ensures_call, Ensures.bind_iff, ensures_checkCancelled]
      split
      · exact .inl rfl
      · cases hanswer : (frontEnd.recording.compile request c.state).1.outcome with
        | built unit =>
          rw [Ensures.bind_iff]
          refine ih.mono ?_ fun e c' he => he
          rintro units c' ⟨hannounced, new, hcalls, hrequests, hunits⟩
          have hcall : (frontEnd.recording.compile request c.state).2.2 =
              c.state.2 ++ [⟨request, .built unit⟩] := by rw [← hanswer]; rfl
          rw [hcall, List.append_assoc] at hcalls
          exact ⟨hannounced, _ :: new, hcalls, congrArg (request :: ·) hrequests,
            .cons ⟨rfl, c.state.1, hanswer⟩ hunits⟩
        | rejected cause => exact .inr (.inl ⟨cause, rfl⟩)
        | panicked cause => exact .inr (.inr ⟨cause, rfl⟩)

/-! ### The same build -/

/-- The first part of a build does what the second one does, and keeps calls. -/
def Projects (x : BuildM (σ × List CompileCall) α) (y : BuildM σ α) : Prop :=
  ∀ c, y.run c.forget = ((x.run c).1, (x.run c).2.forget)

namespace Projects

variable {x : BuildM (σ × List CompileCall) α} {y : BuildM σ α}

theorem pure (a : α) : Projects (Pure.pure a : BuildM (σ × List CompileCall) α) (Pure.pure a) :=
  fun _ => rfl

theorem throw (e : BuildError) :
    Projects (MonadExcept.throw e : BuildM (σ × List CompileCall) α) (MonadExcept.throw e) :=
  fun _ => rfl

theorem lift (r : Except BuildError α) :
    Projects (liftM r : BuildM (σ × List CompileCall) α) (liftM r) := by
  intro c
  cases r <;> rfl

theorem bind {k : α → BuildM (σ × List CompileCall) β} {l : α → BuildM σ β} (h : Projects x y)
    (hk : ∀ a, Projects (k a) (l a)) : Projects (x >>= k) (y >>= l) := by
  intro c
  have hx := h c
  show (ExceptT.bindCont l (y.run c.forget).1 : StateM _ _) (y.run c.forget).2 =
    (((ExceptT.bindCont k (x.run c).1 : StateM _ _) (x.run c).2).1,
      ((ExceptT.bindCont k (x.run c).1 : StateM _ _) (x.run c).2).2.forget)
  rw [hx]
  obtain ⟨r, c'⟩ := x.run c
  cases r with
  | ok a => exact hk a c'
  | error e => rfl

theorem checkCancelled :
    Projects (Playground.checkCancelled : BuildM (σ × List CompileCall) Unit)
      Playground.checkCancelled := by
  intro c
  obtain ⟨state, cancelled, announced⟩ := c
  cases cancelled <;> rfl

theorem countWorkers :
    Projects (Playground.countWorkers schedule : BuildM (σ × List CompileCall) Unit)
      (Playground.countWorkers schedule) := by
  unfold Playground.countWorkers
  split
  · exact throw _
  · exact pure _

theorem announce (variant : Variant) (path : String) :
    Projects
      (modify fun c => { c with announced := c.announced ++ [(variant, path)] } :
        BuildM (σ × List CompileCall) PUnit)
      (modify fun c => { c with announced := c.announced ++ [(variant, path)] }) := fun _ => rfl

theorem requests (p : Pass) (wave : List String) :
    Projects (p.requests wave : BuildM (σ × List CompileCall) _) (p.requests wave) := by
  induction wave with
  | nil => exact pure []
  | cons path wave ih =>
    refine bind (lift (p.request path)) fun request => ?_
    refine bind (announce p.session.variant path) fun _ => ?_
    exact bind ih fun requests => pure (request :: requests)

theorem call (request : CompileRequest) :
    Projects (Pass.call frontEnd.recording request) (Pass.call frontEnd request) := fun _ => rfl

theorem compileAll (requests : List CompileRequest) :
    Projects (Pass.compileAll frontEnd.recording requests) (Pass.compileAll frontEnd requests) := by
  induction requests with
  | nil => exact bind checkCancelled fun _ => pure []
  | cons request requests ih =>
    refine bind checkCancelled fun _ => ?_
    refine bind (call request) fun outcome => ?_
    refine bind checkCancelled fun _ => ?_
    cases outcome with
    | built unit => exact bind ih fun units => pure (unit :: units)
    | rejected e => exact throw (.compile e)
    | panicked cause => exact throw (.worker cause)

theorem step (p : Pass) :
    Projects (p.step frontEnd.recording schedule) (p.step frontEnd schedule) := by
  unfold Pass.step
  split
  · refine bind (requests p _) fun requests => ?_
    exact bind (compileAll (schedule.arrange requests)) fun units => pure _
  · exact bind (lift (Pass.closure p.built p.roots)) fun result => pure _

theorem steps (n : Nat) (p : Pass) :
    Projects (Pass.steps frontEnd.recording schedule n p) (Pass.steps frontEnd schedule n p) := by
  induction n generalizing p with
  | zero => exact pure p
  | succ n ih => exact bind (step p) ih

theorem start :
    Projects (Pass.start schedule sources ext roots session : BuildM (σ × List CompileCall) Pass)
      (Pass.start schedule sources ext roots session) := by
  unfold Pass.start
  refine bind checkCancelled fun _ => ?_
  dsimp only
  split
  · exact throw _
  · split
    · exact throw .cycle
    · exact bind (fun _ => rfl) fun _ => bind countWorkers fun _ => pure _

end Projects

namespace BuildSession

/-- Keeping the calls changes nothing else in a build. -/
theorem build_recording (c : BuildContext σ) :
    build frontEnd schedule sources ext roots session c =
      match build frontEnd.recording schedule sources ext roots session c.keeping with
      | (result, session', c') => (result, session', c'.forget) := by
  have hprojects : Projects (do
        let p ← Pass.start schedule sources ext roots session
        Pass.steps frontEnd.recording schedule p.stepsLeft p) (do
        let p ← Pass.start schedule sources ext roots session
        Pass.steps frontEnd schedule p.stepsLeft p) :=
    .bind .start fun p => .steps p.stepsLeft p
  have hrun := hprojects c.keeping
  rw [show c.keeping.forget = c from rfl] at hrun
  unfold build
  dsimp only
  rw [hrun]
  obtain ⟨r, c'⟩ := ExceptT.run (do
    let p ← Pass.start schedule sources ext roots session
    Pass.steps frontEnd.recording schedule p.stepsLeft p) c.keeping
  cases r <;> rfl

/-- The calls of the front end that a build makes, in order. -/
def callsOf (frontEnd : FrontEnd σ) (schedule : Schedule) (sources : View) (ext : String)
    (roots : List String) (s : BuildSession) (c : BuildContext σ) : List CompileCall :=
  (build frontEnd.recording schedule sources ext roots s c.keeping).2.2.state.2

end BuildSession

end Playground
