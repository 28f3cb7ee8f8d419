import Playground.Proofs.Build.Recording

/-!
# Builds whose calls run side by side

A level of a build makes one task for each of its packages.  The tasks call the front end, any
number of them at a time, and what they return is taken as it comes.  The session may be cancelled
at any moment, by a call or from outside, and is noticed to be so only where the build looks.
`Step` says what may happen next.  It does not ask what the front end does: a call returns
anything, or never.

`BuildSession.build` compiles the packages of a level one after the other, which is one of the
courses that a build may take (`runs_build`).
-/

namespace Playground.Interleaved

/-! ### Steps -/

/-- What is seen of the builds of a session. -/
inductive Event where
  /-- A build calls the front end. -/
  | called (request : CompileRequest)
  /-- A build ends. -/
  | ended (result : Except BuildError UnitSet)

/-- A level that is being compiled. -/
structure Level where
  /-- The packages that have no task yet. -/
  left : List String
  /-- The tasks that have not called the front end. -/
  waiting : List CompileRequest
  /-- The calls that have not returned. -/
  running : List CompileRequest
  /-- What was returned and not taken yet. -/
  returned : List Outcome
  /-- The units that were taken. -/
  units : List CompiledUnit
  /-- Whether the build has looked, since it last took something, and saw no cancellation. -/
  looked : Bool

def Level.start (wave : List String) : Level := ⟨wave, [], [], [], [], false⟩

/-- What a build does next. -/
inductive Stage where
  /-- No build is under way. -/
  | idle
  /-- The packages that the roots need are to be read. -/
  | reading (sources : View) (ext : String) (roots : List String)
  /-- The next level is to begin, or the build to end. -/
  | between (p : Pass)
  /-- A level is being compiled. -/
  | compiling (p : Pass) (l : Level)

/-- A session, and the build of it that is under way. -/
structure Work where
  session : BuildSession
  cancelled : Bool
  stage : Stage

/-- A unit, or why the build fails for want of it. -/
def result : Outcome → Except BuildError CompiledUnit
  | .built unit => .ok unit
  | .rejected e => .error (.compile e)
  | .panicked cause => .error (.worker (.frontEnd cause))

/-- What may happen next within a level. -/
inductive Level.Step (p : Pass) : Level → Option Event → Level → Prop where
  /-- A task is made for the next package. -/
  | spawn {l : Level} {path : String} {left : List String} {request : CompileRequest}
      (hleft : l.left = path :: left) (hrequest : p.request path = .ok request) :
      Step p l none { l with left, waiting := l.waiting ++ [request] }
  /-- A task calls the front end. -/
  | call {l : Level} {request : CompileRequest} {before after : List CompileRequest}
      (hwaiting : l.waiting = before ++ request :: after) :
      Step p l (some (.called request))
        { l with waiting := before ++ after, running := request :: l.running }
  /-- A call returns something. -/
  | finish {l : Level} {request : CompileRequest} {before after : List CompileRequest}
      (hrunning : l.running = before ++ request :: after) (outcome : Outcome) :
      Step p l none { l with running := before ++ after, returned := outcome :: l.returned }
  /-- The build has looked, and takes a unit. -/
  | take {l : Level} {outcome : Outcome} {before after : List Outcome} {unit : CompiledUnit}
      (hlooked : l.looked = true) (hreturned : l.returned = before ++ outcome :: after)
      (hresult : result outcome = .ok unit) :
      Step p l none
        { l with returned := before ++ after, units := l.units ++ [unit], looked := false }

structure Level.IsDone (l : Level) : Prop where
  left : l.left = []
  waiting : l.waiting = []
  running : l.running = []
  returned : l.returned = []

/-- What may happen next. -/
inductive Step : Work → Option Event → Work → Prop where
  /-- The session is cancelled from outside or by a call, be it one of a build that has failed. -/
  | cancel {s : BuildSession} {cancelled : Bool} {stage : Stage} :
      Step ⟨s, cancelled, stage⟩ none ⟨s, true, stage⟩
  /-- A build is to begin, and the session is cancelled. -/
  | refuse {s : BuildSession} :
      Step ⟨s, true, .idle⟩ (some (.ended (.error .cancelled))) ⟨s, true, .idle⟩
  /-- A build begins. -/
  | begin {s : BuildSession} (sources : View) (ext : String) (roots : List String) :
      Step ⟨s, false, .idle⟩ none ⟨s, false, .reading sources ext roots⟩
  /-- A package cannot be read. -/
  | unread {s : BuildSession} {cancelled : Bool} {sources : View} {ext : String}
      {roots : List String} {cause : LoadError}
      (hdiscover : PackageSet.discover sources ext (fun path => s.units.contains path) roots =
        .error cause) :
      Step ⟨s, cancelled, .reading sources ext roots⟩ (some (.ended (.error (.load cause))))
        ⟨s, cancelled, .idle⟩
  /-- The packages import each other. -/
  | tangled {s : BuildSession} {cancelled : Bool} {sources : View} {ext : String}
      {roots : List String} {packages : PackageSet}
      (hdiscover : PackageSet.discover sources ext (fun path => s.units.contains path) roots =
        .ok packages)
      (hwaves : (ImportGraph.ofPackages? packages.imports).bind ImportGraph.waves = none) :
      Step ⟨s, cancelled, .reading sources ext roots⟩ (some (.ended (.error .cycle)))
        ⟨s, cancelled, .idle⟩
  /-- More workers are asked for than can be counted. -/
  | overstaffed {s : BuildSession} {cancelled : Bool} {sources : View} {ext : String}
      {roots : List String} {packages : PackageSet} {waves : List (List String)}
      (hdiscover : PackageSet.discover sources ext (fun path => s.units.contains path) roots =
        .ok packages)
      (hwaves : (ImportGraph.ofPackages? packages.imports).bind ImportGraph.waves = some waves) :
      Step ⟨s, cancelled, .reading sources ext roots⟩
        (some (.ended (.error (.worker .overstaffed)))) ⟨s, cancelled, .idle⟩
  /-- The packages are in levels. -/
  | arranged {s : BuildSession} {cancelled : Bool} {sources : View} {ext : String}
      {roots : List String} {packages : PackageSet} {waves : List (List String)}
      (hdiscover : PackageSet.discover sources ext (fun path => s.units.contains path) roots =
        .ok packages)
      (hwaves : (ImportGraph.ofPackages? packages.imports).bind ImportGraph.waves = some waves) :
      Step ⟨s, cancelled, .reading sources ext roots⟩ none
        ⟨s, cancelled, .between ⟨s, roots, packages, waves, s.units, none⟩⟩
  /-- A level begins. -/
  | enter {s : BuildSession} {cancelled : Bool} {p : Pass} {wave : List String}
      {waves : List (List String)} (hwaves : p.waves = wave :: waves) :
      Step ⟨s, cancelled, .between p⟩ none
        ⟨s, cancelled, .compiling p (.start wave)⟩
  /-- Something happens within a level. -/
  | within {s : BuildSession} {cancelled : Bool} {p : Pass} {l l' : Level} {event? : Option Event}
      (h : l.Step p event? l') :
      Step ⟨s, cancelled, .compiling p l⟩ event? ⟨s, cancelled, .compiling p l'⟩
  /-- A task cannot be made. -/
  | unmade {s : BuildSession} {cancelled : Bool} {p : Pass} {l : Level} {path : String}
      {left : List String} {e : BuildError} (hleft : l.left = path :: left)
      (hrequest : p.request path = .error e) :
      Step ⟨s, cancelled, .compiling p l⟩ (some (.ended (.error e))) ⟨s, cancelled, .idle⟩
  /-- All tasks are made, and the build looks and sees no cancellation. -/
  | look {s : BuildSession} {p : Pass} {l : Level} (hleft : l.left = []) :
      Step ⟨s, false, .compiling p l⟩ none ⟨s, false, .compiling p { l with looked := true }⟩
  /-- All tasks are made, and the build looks and sees that it is cancelled. -/
  | notice {s : BuildSession} {p : Pass} {l : Level} (hleft : l.left = []) :
      Step ⟨s, true, .compiling p l⟩ (some (.ended (.error .cancelled))) ⟨s, true, .idle⟩
  /-- The build has looked, and takes what is no unit. -/
  | fail {s : BuildSession} {cancelled : Bool} {p : Pass} {l : Level} {outcome : Outcome}
      {before after : List Outcome} {e : BuildError} (hlooked : l.looked = true)
      (hreturned : l.returned = before ++ outcome :: after) (hresult : result outcome = .error e) :
      Step ⟨s, cancelled, .compiling p l⟩ (some (.ended (.error e))) ⟨s, cancelled, .idle⟩
  /-- The build has looked, and nothing is left to take. -/
  | leave {s : BuildSession} {cancelled : Bool} {p : Pass} {l : Level} {wave : List String}
      {waves : List (List String)} (hwaves : p.waves = wave :: waves) (hlooked : l.looked = true)
      (hdone : l.IsDone) :
      Step ⟨s, cancelled, .compiling p l⟩ none
        ⟨s, cancelled, .between { p with waves, built := Pass.addUnits p.built l.units }⟩
  /-- No level is left, and the session takes the units. -/
  | commit {s : BuildSession} {cancelled : Bool} {p : Pass} {units : UnitSet}
      (hwaves : p.waves = []) (hclosure : Pass.closure p.built p.roots = .ok units) :
      Step ⟨s, cancelled, .between p⟩ (some (.ended (.ok units)))
        ⟨{ p.session with units := p.built }, cancelled, .idle⟩
  /-- No level is left, and a unit names a dependency that is no package. -/
  | unfound {s : BuildSession} {cancelled : Bool} {p : Pass} {e : BuildError}
      (hwaves : p.waves = []) (hclosure : Pass.closure p.built p.roots = .error e) :
      Step ⟨s, cancelled, .between p⟩ (some (.ended (.error e))) ⟨s, cancelled, .idle⟩

/-- What may have happened, and what was seen of it. -/
inductive Runs : Work → List Event → Work → Prop where
  | refl {w : Work} : Runs w [] w
  | step {w w' w'' : Work} {event? : Option Event} {events : List Event} (h : Step w event? w')
      (hruns : Runs w' events w'') : Runs w (event?.toList ++ events) w''

variable {w w' w'' : Work} {events events' : List Event}

theorem Runs.single {event? : Option Event} (h : Step w event? w') :
    Runs w event?.toList w' := by
  have hruns : Runs w (event?.toList ++ []) w' := .step h .refl
  rwa [List.append_nil] at hruns

theorem Runs.trans (h : Runs w events w') (h' : Runs w' events' w'') :
    Runs w (events ++ events') w'' := by
  induction h with
  | refl => exact h'
  | step h _ ih =>
    rw [List.append_assoc]
    exact .step h (ih h')

/-! ### Parts of a build -/

variable {σ α β : Type} {c c' c'' : BuildContext (σ × List CompileCall)} {s s' s'' : BuildSession}
  {stage stage' stage'' : Stage} {last : List Event} {p : Pass} {l : Level}
  {frontEnd : FrontEnd σ} {schedule : Schedule}

/-- What is seen of some calls. -/
def seen (calls : List CompileCall) : List Event := calls.map fun call => .called call.request

/-- A part of a build that keeps its calls has gone from one stage to another. -/
def Leads (s : BuildSession) (stage : Stage) (c : BuildContext (σ × List CompileCall))
    (last : List Event) (s' : BuildSession) (stage' : Stage)
    (c' : BuildContext (σ × List CompileCall)) : Prop :=
  ∃ new, c'.state.2 = c.state.2 ++ new ∧
    Runs ⟨s, c.cancelled, stage⟩ (seen new ++ last) ⟨s', c'.cancelled, stage'⟩

theorem Leads.trans (h : Leads s stage c [] s' stage' c')
    (h' : Leads s' stage' c' last s'' stage'' c'') : Leads s stage c last s'' stage'' c'' := by
  obtain ⟨new, hcalls, hruns⟩ := h
  obtain ⟨new', hcalls', hruns'⟩ := h'
  refine ⟨new ++ new', by rw [hcalls', hcalls, List.append_assoc], ?_⟩
  rw [List.append_nil] at hruns
  rw [seen, List.map_append, List.append_assoc]
  exact hruns.trans hruns'

theorem Leads.of_runs (hcalls : c'.state.2 = c.state.2)
    (h : Runs ⟨s, c.cancelled, stage⟩ last ⟨s', c'.cancelled, stage'⟩) :
    Leads s stage c last s' stage' c' :=
  ⟨[], hcalls.trans (List.append_nil _).symm, h⟩

theorem Leads.of_step {event? : Option Event}
    (h : Step ⟨s, c.cancelled, stage⟩ event? ⟨s', c.cancelled, stage'⟩) :
    Leads s stage c event?.toList s' stage' c := .of_runs rfl (.single h)

/-- A part of a build goes from a stage to that of its value, or ends the build. -/
def Follows (s : BuildSession) (stage : Stage) (x : BuildM (σ × List CompileCall) α)
    (after : α → Stage) : Prop :=
  ∀ c, Ensures x c (fun a c' => Leads s stage c [] s (after a) c')
    (fun e c' => Leads s stage c [.ended (.error e)] s .idle c')

namespace Follows

theorem of_leads {x : BuildM (σ × List CompileCall) α} {after : α → Stage}
    (h : Follows s stage' x after) (hleads : Leads s stage c [] s stage' c') :
    Ensures x c' (fun a c'' => Leads s stage c [] s (after a) c'')
      (fun e c'' => Leads s stage c [.ended (.error e)] s .idle c'') :=
  (h c').mono (fun _ _ hfollows => hleads.trans hfollows) fun _ _ hfails => hleads.trans hfails

theorem pure (a : α) {after : α → Stage} (h : after a = stage) :
    Follows s stage (Pure.pure a : BuildM (σ × List CompileCall) α) after := by
  intro c
  rw [Ensures.pure_iff, h]
  exact .of_runs rfl .refl

theorem silent {x : BuildM (σ × List CompileCall) α} {after : α → Stage}
    (h : ∀ cancelled, Step ⟨s, cancelled, stage⟩ none ⟨s, cancelled, stage'⟩)
    (hx : Follows s stage' x after) : Follows s stage x after := by
  intro c
  have hleads : Leads s stage c [] s stage' c := .of_step (h c.cancelled)
  exact hx.of_leads hleads

theorem bind {x : BuildM (σ × List CompileCall) α} {k : α → BuildM (σ × List CompileCall) β}
    {after : α → Stage} {after' : β → Stage} (h : Follows s stage x after)
    (hk : ∀ a, Follows s (after a) (k a) after') : Follows s stage (x >>= k) after' := by
  intro c
  rw [Ensures.bind_iff]
  exact (h c).mono (fun a _ hleads => (hk a).of_leads hleads) fun _ _ hleads => hleads

theorem lift {r : Except BuildError α} {after : α → Stage}
    (hok : ∀ a, r = .ok a → ∀ cancelled,
      Step ⟨s, cancelled, stage⟩ none ⟨s, cancelled, after a⟩)
    (herror : ∀ e, r = .error e → ∀ cancelled,
      Step ⟨s, cancelled, stage⟩ (some (.ended (.error e))) ⟨s, cancelled, .idle⟩) :
    Follows s stage (liftM r : BuildM (σ × List CompileCall) α) after := by
  intro c
  rw [Ensures.lift_iff]
  cases r with
  | ok a => exact .of_step (hok a rfl c.cancelled)
  | error e => exact .of_step (herror e rfl c.cancelled)

theorem modify {g : BuildContext (σ × List CompileCall) → BuildContext (σ × List CompileCall)}
    (hcalls : ∀ c, (g c).state.2 = c.state.2)
    (hcancelled : ∀ c, (g c).cancelled = c.cancelled ∨ (g c).cancelled = true) :
    Follows s stage (MonadState.modifyGet fun c => (⟨⟩, g c) : BuildM (σ × List CompileCall) PUnit)
      fun _ => stage := by
  intro c
  refine .of_runs (hcalls c) ?_
  rcases hcancelled c with hsame | hcancels
  · rw [hsame]
    exact .refl
  · rw [hcancels]
    exact .single .cancel

theorem throw {e : BuildError} {after : α → Stage}
    (h : ∀ cancelled,
      Step ⟨s, cancelled, stage⟩ (some (.ended (.error e))) ⟨s, cancelled, .idle⟩) :
    Follows s stage (MonadExcept.throw e : BuildM (σ × List CompileCall) α) after := by
  intro c
  rw [Ensures.throw_iff]
  exact .of_step (h c.cancelled)

theorem checkCancelled {stage' : Stage} (hok : Step ⟨s, false, stage⟩ none ⟨s, false, stage'⟩)
    (herror : Step ⟨s, true, stage⟩ (some (.ended (.error .cancelled))) ⟨s, true, .idle⟩) :
    Follows s stage (Playground.checkCancelled : BuildM (σ × List CompileCall) Unit)
      fun _ => stage' := by
  intro c
  rw [ensures_checkCancelled]
  split
  · rename_i hc
    exact .of_step (by rw [hc]; exact herror)
  · rename_i hc
    rw [Bool.not_eq_true] at hc
    exact .of_step (by rw [hc]; exact hok)

/-! ### Levels -/

theorem look (hleft : l.left = []) :
    Follows s (.compiling p l) (Playground.checkCancelled : BuildM (σ × List CompileCall) Unit)
      fun _ => .compiling p { l with looked := true } :=
  .checkCancelled (.look hleft) (.notice hleft)

theorem requests (wave : List String) (l : Level) :
    Follows s (.compiling p { l with left := wave })
      (p.requests wave : BuildM (σ × List CompileCall) _)
      fun requests => .compiling p { l with left := [], waiting := l.waiting ++ requests } := by
  induction wave generalizing l with
  | nil => exact .pure [] (by rw [List.append_nil])
  | cons path wave ih =>
    have hspawn : Follows s (.compiling p { l with left := path :: wave })
        (liftM (p.request path) : BuildM (σ × List CompileCall) _) fun request =>
          .compiling p { l with left := wave, waiting := l.waiting ++ [request] } :=
      .lift (fun request hrequest _ => .within (.spawn rfl hrequest))
        fun e hrequest _ => .unmade rfl hrequest
    rw [Pass.requests]
    refine hspawn.bind fun request => ?_
    refine .bind (.modify (fun _ => rfl) fun _ => .inl rfl) fun _ => ?_
    refine .bind (ih { l with waiting := l.waiting ++ [request] }) fun requests => ?_
    exact .pure _ (by rw [List.append_assoc]; rfl)

/-- A task calls the front end, which may cancel the session meanwhile, and the call returns. -/
theorem call {request : CompileRequest} {before after : List CompileRequest}
    (hwaiting : l.waiting = before ++ request :: after) (hrunning : l.running = [])
    (hreturned : l.returned = []) :
    Follows s (.compiling p l) (Pass.call frontEnd.recording request) fun outcome =>
      .compiling p { l with waiting := before ++ after, returned := [outcome] } := by
  intro c
  rw [Pass.ensures_call]
  obtain ⟨l, waiting, _, _, units, looked⟩ := l
  cases hrunning
  cases hreturned
  set calling : Level := ⟨l, before ++ after, [request], [], units, looked⟩
  set outcome : Outcome := (frontEnd.recording.compile request c.state).1.outcome
  have hcalling : calling.running = [] ++ request :: [] := rfl
  have hcall : ∀ cancelled, Step ⟨s, cancelled, .compiling p ⟨l, waiting, [], [], units, looked⟩⟩
      (some (.called request)) ⟨s, cancelled, .compiling p calling⟩ :=
    fun cancelled => .within (.call hwaiting)
  have hfinish : ∀ cancelled, Step ⟨s, cancelled, .compiling p calling⟩ none
      ⟨s, cancelled, .compiling p ⟨l, before ++ after, [], [outcome], units, looked⟩⟩ :=
    fun cancelled => .within (.finish hcalling outcome)
  refine ⟨[⟨request, outcome⟩], rfl, .step (hcall c.cancelled) ?_⟩
  dsimp only
  cases hcancels : (frontEnd.recording.compile request c.state).1.cancels with
  | true =>
    rw [Bool.or_true]
    exact .step .cancel (.single (hfinish true))
  | false =>
    rw [Bool.or_false]
    exact .single (hfinish c.cancelled)

theorem take {outcome : Outcome} {k : CompiledUnit → BuildM (σ × List CompileCall) α}
    {after : α → Stage} (hlooked : l.looked = true) (hreturned : l.returned = [outcome])
    (hk : ∀ unit, Follows s
      (.compiling p { l with returned := [], units := l.units ++ [unit], looked := false })
      (k unit) after) :
    Follows s (.compiling p l) (liftM (result outcome) >>= k) after := by
  have hreturned' : l.returned = [] ++ outcome :: [] := hreturned
  exact .bind (.lift (fun unit hresult _ => .within (.take hlooked hreturned' hresult))
    fun e hresult _ => .fail hlooked hreturned' hresult) hk

/-- The tasks of a level are compiled one after the other, in any order. -/
theorem compileAll {requests waiting : List CompileRequest} {units : List CompiledUnit}
    {looked : Bool} (hperm : waiting.Perm requests) :
    Follows s (.compiling p ⟨[], waiting, [], [], units, looked⟩)
      (Pass.compileAll frontEnd.recording requests)
      fun made => .compiling p ⟨[], [], [], [], units ++ made, true⟩ := by
  induction requests generalizing waiting units looked with
  | nil =>
    obtain rfl := hperm.eq_nil
    exact .bind (.look rfl) fun _ => .pure [] (by rw [List.append_nil])
  | cons request requests ih =>
    obtain ⟨before, after, rfl⟩ := List.append_of_mem (hperm.mem_iff.2 List.mem_cons_self)
    have hrest : (before ++ after).Perm requests :=
      (List.perm_middle.symm.trans hperm).cons_inv
    have hcompile : Pass.compileAll frontEnd.recording (request :: requests) = do
        Playground.checkCancelled
        let outcome ← Pass.call frontEnd.recording request
        Playground.checkCancelled
        let unit ← (result outcome : Except BuildError CompiledUnit)
        return unit :: (← Pass.compileAll frontEnd.recording requests) := by
      rw [Pass.compileAll]
      congr! 5 with _ outcome
      cases outcome <;> rfl
    rw [hcompile]
    refine .bind (.look rfl) fun _ => .bind (.call rfl rfl rfl) fun outcome => ?_
    refine .bind (.look rfl) fun _ => .take rfl rfl fun unit => ?_
    refine .bind (ih hrest) fun made => .pure _ (by rw [List.append_assoc]; rfl)

theorem level {wave : List String} {waves : List (List String)} (hwaves : p.waves = wave :: waves) :
    Follows s (.between p) (p.step frontEnd.recording schedule) .between := by
  unfold Pass.step
  rw [hwaves]
  refine .silent (fun _ => .enter hwaves) ?_
  refine .bind (requests wave (.start wave)) fun requests => ?_
  refine .bind (compileAll (schedule.perm requests).symm) fun made => ?_
  exact .silent (fun _ => .leave hwaves rfl ⟨rfl, rfl, rfl, rfl⟩) (.pure _ rfl)

theorem start (sources : View) (ext : String) (roots : List String) :
    Follows s .idle (Pass.start schedule sources ext roots s :
      BuildM (σ × List CompileCall) Pass) .between := by
  unfold Pass.start
  refine .bind (.checkCancelled (.begin sources ext roots) .refuse) fun _ => ?_
  dsimp only
  cases hdiscover : PackageSet.discover sources ext (fun path => s.units.contains path) roots with
  | error cause => exact .throw fun _ => .unread hdiscover
  | ok packages =>
    dsimp only
    cases hwaves : (ImportGraph.ofPackages? packages.imports).bind ImportGraph.waves with
    | none => exact .throw fun _ => .tangled hdiscover hwaves
    | some waves =>
      dsimp only
      have hcancelled (c : BuildContext (σ × List CompileCall)) :
          (c.cancelled || schedule.interrupted) = c.cancelled ∨
            (c.cancelled || schedule.interrupted) = true := by
        cases schedule.interrupted <;> simp
      refine .bind (.modify (fun _ => rfl) hcancelled) fun _ => ?_
      unfold countWorkers
      split
      · exact .bind (.throw fun _ => .overstaffed hdiscover hwaves) fun _ => .pure _ rfl
      · exact .silent (fun _ => .arranged hdiscover hwaves) (.pure _ rfl)

end Follows

/-! ### Whole builds -/

/-- A part of a build ends it. -/
def Ends (s : BuildSession) (stage : Stage) (x : BuildM (σ × List CompileCall) Pass) : Prop :=
  ∀ c, Ensures x c (fun p c' => Leads s stage c [.ended (.ok p.units)] p.session .idle c')
    (fun e c' => Leads s stage c [.ended (.error e)] s .idle c')

theorem Ends.of_leads {x : BuildM (σ × List CompileCall) Pass} (h : Ends s stage' x)
    (hleads : Leads s stage c [] s stage' c') :
    Ensures x c' (fun p c'' => Leads s stage c [.ended (.ok p.units)] p.session .idle c'')
      (fun e c'' => Leads s stage c [.ended (.error e)] s .idle c'') :=
  (h c').mono (fun _ _ hends => hleads.trans hends) fun _ _ hends => hleads.trans hends

theorem ends_commit (hwaves : p.waves = []) :
    Ends s (.between p) (p.step frontEnd.recording schedule) := by
  intro c
  unfold Pass.step
  rw [hwaves]
  dsimp only
  rw [Ensures.bind_iff, Ensures.lift_iff]
  cases hclosure : Pass.closure p.built p.roots with
  | ok units => exact .of_step (.commit hwaves hclosure)
  | error e => exact .of_step (.unfound hwaves hclosure)

/-- A level that is compiled leaves the others, and the session is not cancelled then. -/
theorem ensures_level_uncancelled {wave : List String} {waves : List (List String)}
    {c : BuildContext σ} (hwaves : p.waves = wave :: waves) :
    Ensures (p.step frontEnd schedule) c (fun p' c' => p'.waves = waves ∧ c'.cancelled = false)
      fun _ _ => True := by
  unfold Pass.step
  rw [hwaves]
  dsimp only
  rw [Ensures.bind_iff]
  refine (Pass.ensures_requests p wave).mono (fun requests c' _ => ?_) fun e c' _ => trivial
  rw [Ensures.bind_iff]
  refine (Pass.ensures_compileAll_answers _).mono ?_ fun e c' _ => trivial
  rintro made c' ⟨-, hc'⟩
  exact ⟨rfl, hc'⟩

theorem ends_steps (p : Pass) :
    Ends s (.between p) (Pass.steps frontEnd.recording schedule (p.waves.length + 1) p) := by
  generalize hn : p.waves = waves
  induction waves generalizing p with
  | nil =>
    intro c
    rw [Pass.steps, Ensures.bind_iff]
    exact ends_commit hn c
  | cons wave waves ih =>
    intro c
    rw [Pass.steps, Ensures.bind_iff]
    refine ((Follows.level hn c).and (ensures_level_uncancelled hn)).mono ?_ fun e c' he => he.1
    rintro p' c' ⟨hleads, hwaves, -⟩
    exact (ih p' hwaves).of_leads hleads

/-- What a build does, its calls and its end, is a run. -/
theorem runs_build (frontEnd : FrontEnd σ) (schedule : Schedule) (sources : View) (ext : String)
    (roots : List String) {s s' : BuildSession} {c c' : BuildContext σ}
    {answer : Except BuildError UnitSet}
    (h : BuildSession.build frontEnd schedule sources ext roots s c = (answer, s', c')) :
    Runs ⟨s, c.cancelled, .idle⟩
      (seen (BuildSession.callsOf frontEnd schedule sources ext roots s c) ++ [.ended answer])
      ⟨s', c'.cancelled, .idle⟩ := by
  have hends : Ends s .idle (do
      let p ← Pass.start schedule sources ext roots s
      Pass.steps frontEnd.recording schedule p.stepsLeft p) := by
    intro c
    rw [Ensures.bind_iff]
    refine ((Follows.start sources ext roots c).and Pass.ensures_start_cases).mono ?_
      fun e c' he => he.1
    rintro p c' ⟨hleads, -, -, -, packages, waves, -, -, rfl⟩
    exact (ends_steps _).of_leads hleads
  rw [BuildSession.build_recording] at h
  unfold BuildSession.callsOf
  rcases BuildSession.build_of_ensures (hends c.keeping) with
    ⟨p, c'', hbuild, new, hcalls, hruns⟩ | ⟨e, c'', hbuild, new, hcalls, hruns⟩
  all_goals
    rw [hbuild] at h ⊢
    cases h
    dsimp only
    rw [hcalls]
    exact hruns

end Playground.Interleaved
