import Playground.Proofs.Build.Workers
import Playground.Proofs.Bundle.FrontEnd
import Playground.Proofs.Ensures
import Playground.Proofs.Fetch.Reports
import Playground.Session

/-!
# What the parts of a session send

Each part of a session adds messages behind those that were sent before, and leaves alone what it
does not work on.  There is one lemma for each part, with a condition for success and one for
failure.  The client listens, nobody cancels, and the workers can be counted, so that no failure
brings down whoever serves the client.
-/

namespace Playground.Session

variable {σ η : Type} {client : Client} {host : Host η} {settings : SessionSettings}
  {s s' : SessionState σ η} {u : Update} {text : String}

/-! ### Notices -/

def fetchNotices (paths : List String) : List Message :=
  paths.flatMap fun path => [.downloading (.say path), .downloading (.say (path ++ " done"))]

def compileNotices (paths : List String) : List Message :=
  paths.map fun path => .updating (.say (announcement path))

/-- What is sent before the modules, when `fetched` are fetched and `compiled` compiled. -/
def preamble (fetched compiled : List String) : List Message :=
  [.downloading .begin] ++ fetchNotices fetched ++ [.downloading .finished, .updating .begin] ++
    compileNotices compiled

theorem map_fetchNotice_reports (paths : List String) :
    (Resolver.reports paths).map fetchNotice = fetchNotices paths := by
  rw [Resolver.reports, List.map_flatMap]
  rfl

theorem buildNotices_eq (c : BuildContext σ) :
    buildNotices c.announced = compileNotices (c.announcedIn .full) := by
  rw [buildNotices, compileNotices, BuildContext.announcedIn, List.map_map]
  rfl

theorem fetchNotices_append (paths paths' : List String) :
    fetchNotices (paths ++ paths') = fetchNotices paths ++ fetchNotices paths' :=
  List.flatMap_append

/-- When fetching stops, what was sent could go on. -/
theorem prefix_preamble (fetched : List String) (broken : Option String) :
    [.downloading .begin] ++ fetchNotices fetched ++
        (broken.toList.map fun path => .downloading (.say path)) <+:
      preamble (fetched ++ broken.toList) [] := by
  rw [preamble, fetchNotices_append]
  cases broken with
  | none => exact ⟨_, by simp [fetchNotices]; rfl⟩
  | some path => exact ⟨.downloading (.say (path ++ " done")) ::
      [.downloading .finished, .updating .begin], by simp [fetchNotices, compileNotices]⟩

/-! ### Sending -/

/-- The session after more messages were sent. -/
def said (s : SessionState σ η) (ms : List Message) : SessionState σ η :=
  { s with messages := s.messages ++ ms }

@[simp]
theorem workspace_said (ms : List Message) : (said s ms).workspace = s.workspace := rfl

@[simp]
theorem host_said (ms : List Message) : (said s ms).host = s.host := rfl

@[simp]
theorem messages_said (ms : List Message) : (said s ms).messages = s.messages ++ ms := rfl

@[simp]
theorem said_said (ms ms' : List Message) : said (said s ms) ms' = said s (ms ++ ms') := by
  simp [said]

theorem said_nil : said s [] = s := by simp [said]

theorem ensures_send (hlistens : client.listens = true) (m : Message) :
    Ensures (send client m) s (fun _ s' => s' = said s [m]) (fun _ _ => False) := by
  rw [send, if_pos hlistens, Ensures.modify_iff]
  rfl

theorem ensures_sendAll (hlistens : client.listens = true) (ms : List Message) :
    Ensures (sendAll client ms) s (fun _ s' => s' = said s ms) (fun _ _ => False) := by
  induction ms generalizing s with
  | nil => exact said_nil.symm
  | cons m ms ih =>
    rw [sendAll, Ensures.bind_iff]
    refine (ensures_send hlistens m).mono ?_ fun _ _ h => h
    rintro _ _ rfl
    refine ih.mono ?_ fun _ _ h => h
    rintro _ _ rfl
    simp

theorem orFail_iff {ε α : Type} {fault : ε → SessionError} {r : Except ε α}
    {ok : α → SessionState σ η → Prop} {err : SessionError → SessionState σ η → Prop} :
    Ensures (orFail fault r) s ok err ↔
      match r with
      | .ok a => ok a s
      | .error e => err (fault e) s := by
  cases r <;> rfl

/-! ### Receiving and storing -/

theorem ensures_receive (hfirst : client.first = .line text) (hc : s.build.cancelled = false) :
    Ensures (receive client) s (fun u s' => s' = s ∧ Message.read? text = some (.update u))
      (fun e s' => e.isFatal = false ∧ s' = s ∧ ∀ u, Message.read? text ≠ some (.update u)) := by
  rw [receive, Ensures.bind_iff, Ensures.get_iff, hc, hfirst]
  dsimp only
  rw [if_neg Bool.false_ne_true, Message.read?]
  cases hread : Message.read text with
  | error cause => exact ⟨rfl, rfl, nofun⟩
  | ok m => cases m with
    | update u => exact ⟨rfl, rfl⟩
    | _ => exact ⟨rfl, rfl, nofun⟩

theorem ensures_submit :
    Ensures (submit u) s
      (fun _ s' => s' = { s with workspace := (addPackages s.workspace u.source.toList).1 })
      (fun e s' => e.isFatal = false ∧
        s' = { s with workspace := (addPackages s.workspace u.source.toList).1 } ∧
        ∃ e, (addPackages s.workspace u.source.toList).2 = .error e) := by
  rw [submit, Ensures.bind_iff, Ensures.get_iff]
  dsimp only
  rw [Ensures.bind_iff, Ensures.set_iff, orFail_iff]
  cases h : (addPackages s.workspace u.source.toList).2 with
  | error e => exact ⟨rfl, rfl, e, rfl⟩
  | ok _ => rfl

/-! ### Fetching -/

/-- The resolver of a session that has not fetched anything. -/
def resolver (s : SessionState σ η) : Resolver η := ⟨s.workspace, s.host, [], []⟩

theorem ensures_fetchImports :
    Ensures (fetchImports host settings.policy) s
      (fun _ s' => s'.build = s.build ∧ ∃ fetched, fetched.Nodup ∧
        host.Serves settings.policy s.host fetched s'.host ∧
          s'.messages = s.messages ++ fetchNotices fetched)
      (fun e s' => e.isFatal = false ∧
        (∃ e, ((resolver s).resolve host settings.policy entryPackage).1 = .error e) ∧
        ∃ fetched state broken, (fetched ++ Option.toList broken).Nodup ∧
          host.Serves settings.policy s.host fetched state ∧
            s'.messages = s.messages ++ fetchNotices fetched ++
              (Option.toList broken).map fun path => .downloading (.say path)) := by
  obtain ⟨paths, state, broken, hreported, hok⟩ :=
    Resolver.run_spec host settings.policy (resolver s) [entryPackage]
  have hevents : ((resolver s).run host settings.policy [entryPackage]).2.events.map fetchNotice =
      fetchNotices paths ++ broken.toList.map fun path => .downloading (.say path) := by
    rw [hreported.events, List.map_append, List.map_append, map_fetchNotice_reports, List.map_map]
    rfl
  rw [fetchImports, Ensures.bind_iff, Ensures.get_iff]
  dsimp only
  rw [Ensures.bind_iff, Ensures.set_iff, orFail_iff]
  split
  · rename_i h
    obtain ⟨rfl, hhost⟩ := hok h
    refine ⟨rfl, paths, by simpa using hreported.nodup, hhost ▸ hreported.served, ?_⟩
    exact (congrArg (s.messages ++ ·) hevents).trans (by simp)
  · rename_i e h
    refine ⟨rfl, ⟨e, h⟩, paths, state, broken, hreported.nodup, hreported.served, ?_⟩
    exact (congrArg (s.messages ++ ·) hevents).trans (by simp)

theorem ensures_fetches :
    Ensures (if settings.fetches then fetchImports host settings.policy else pure ()) s
      (fun _ s' => s'.build = s.build ∧ (settings.fetches = false → s'.workspace = s.workspace) ∧
        ∃ fetched, fetched.Nodup ∧ (settings.fetches = false → fetched = []) ∧
          host.Serves settings.policy s.host fetched s'.host ∧
            s'.messages = s.messages ++ fetchNotices fetched)
      (fun e s' => settings.fetches = true ∧ e.isFatal = false ∧
        (∃ e, ((resolver s).resolve host settings.policy entryPackage).1 = .error e) ∧
        ∃ fetched state broken, (fetched ++ Option.toList broken).Nodup ∧
          host.Serves settings.policy s.host fetched state ∧
            s'.messages = s.messages ++ fetchNotices fetched ++
              (Option.toList broken).map fun path => .downloading (.say path)) := by
  split
  · rename_i hfetches
    refine ensures_fetchImports.mono ?_ fun _ _ h => ⟨hfetches, h⟩
    rintro _ s' ⟨hbuild, fetched, hnodup, hserved, hmessages⟩
    exact ⟨hbuild, by simp [hfetches], fetched, hnodup, by simp [hfetches], hserved, hmessages⟩
  · exact ⟨rfl, fun _ => rfl, [], List.nodup_nil, fun _ => rfl, .none, by simp [fetchNotices]⟩

/-! ### Building -/

/-- The packages that are compiled before a build fails: none, or the first ones of a build. -/
def IsBegun (sources : View) (compiled : List String) : Prop :=
  compiled = [] ∨
    ∃ order, IsBuildOrder sources sourceExt ∅ [entryPackage] order ∧ compiled <+: order

theorem isFatal_ofBuild {e : BuildError} (h : e.IsStaffed) :
    (SessionError.ofBuild e).isFatal = false := by
  cases e with
  | worker cause => cases cause with
    | frontEnd cause => rfl
    | overstaffed => exact absurd rfl h
  | _ => rfl

theorem ensures_build {s : SessionState MemoryTree η} {schedule : Schedule}
    (hschedule : schedule.interrupted = false) (hstaff : schedule.isOverstaffed = false)
    (hc : s.build.cancelled = false) :
    Ensures (build Bundle.frontEnd schedule) s
      (fun units s' => s'.workspace = s.workspace ∧ s'.host = s.host ∧
        VariantUnits.IsMeaningOf s.workspace.sources sourceExt Bundle.outcome [entryPackage] units ∧
        ∃ compiled, IsBuildOrder s.workspace.sources sourceExt ∅ [entryPackage] compiled ∧
          s'.messages = s.messages ++ compileNotices compiled)
      (fun e s' => e.isFatal = false ∧ s'.workspace = s.workspace ∧
        (∃ variant,
          ¬ Buildable s.workspace.sources sourceExt Bundle.outcome variant [entryPackage]) ∧
        ∃ compiled, IsBegun s.workspace.sources compiled ∧
          s'.messages = s.messages ++ compileNotices compiled) := by
  rw [build, Ensures.bind_iff, Ensures.get_iff]
  dsimp only
  rw [Ensures.bind_iff, Ensures.set_iff, orFail_iff]
  have hsound : VariantSessions.new.IsSound s.workspace.sources sourceExt Bundle.outcome :=
    VariantSessions.isSound_new
  have hspec := VariantSessions.build_spec Bundle.faithful_outcome Bundle.computes_outcome schedule
    [entryPackage] { s.build with announced := [] } hsound
  split at hspec
  · rename_i units sessions c he
    obtain ⟨hunits, -, -, -, horders⟩ := hspec
    obtain ⟨order, horder, htold⟩ := horders .full
    rw [he]
    refine ⟨rfl, rfl, hunits, order, horder, ?_⟩
    rw [buildNotices_eq, htold]
    rfl
  · rename_i e sessions c he
    obtain ⟨hwhy, htold⟩ := hspec
    have hstaffed := VariantSessions.isStaffed_of_build _ _ _ _ _ _ hstaff (congrArg Prod.fst he)
    rw [he]
    refine ⟨isFatal_ofBuild hstaffed, rfl, ?_, ?_⟩
    · simpa [hc, hschedule, hstaff] using hwhy
    · dsimp only
      rw [buildNotices_eq]
      rcases htold .full with hnothing | ⟨order, told, horder, hprefix, htold⟩
      · exact ⟨[], .inl rfl, by rw [hnothing]; rfl⟩
      · exact ⟨told, .inr ⟨order, horder, hprefix⟩, by rw [htold]; rfl⟩

theorem ensures_build_overstaffed {s : SessionState MemoryTree η} {schedule : Schedule}
    (variant : Variant) (hstaff : schedule.isOverstaffed = true)
    (hc : s.build.cancelled = false)
    (hbuildable : Buildable s.workspace.sources sourceExt Bundle.outcome variant [entryPackage]) :
    Ensures (build Bundle.frontEnd schedule) s (fun _ _ => False)
      (fun e s' => e = .build (.worker .overstaffed) ∧ s'.messages = s.messages) := by
  have hc' : ({ s.build with announced := [] } : BuildContext MemoryTree).cancelled = false := hc
  obtain ⟨c', hbuild, hsaid⟩ :=
    VariantSessions.build_of_isOverstaffed Bundle.frontEnd .new hstaff hc' hbuildable
  rw [build, Ensures.bind_iff, Ensures.get_iff]
  dsimp only
  rw [Ensures.bind_iff, Ensures.set_iff, orFail_iff, hbuild]
  refine ⟨rfl, ?_⟩
  dsimp only
  rw [hsaid]
  exact List.append_nil _

/-! ### Answering -/

theorem ensures_deliver (hlistens : client.listens = true) (d : Delta) :
    Ensures (do
      sendAll client (d.artifacts.map Message.ofArtifact)
      send client (.index d.index)
      send client (.updating .finished)
      return (⟨d.index.size, d.sent, d.reused⟩ : SessionSummary)) s
      (fun summary s' => summary = ⟨d.index.size, d.sent, d.reused⟩ ∧
        s' = said s (d.artifacts.map Message.ofArtifact ++ [.index d.index, .updating .finished]))
      (fun _ _ => False) := by
  rw [Ensures.bind_iff]
  refine (ensures_sendAll hlistens _).mono ?_ fun _ _ h => h
  rintro _ _ rfl
  rw [Ensures.bind_iff]
  refine (ensures_send hlistens _).mono ?_ fun _ _ h => h
  rintro _ _ rfl
  rw [Ensures.bind_iff]
  refine (ensures_send hlistens _).mono ?_ fun _ _ h => h
  rintro _ _ rfl
  exact ⟨rfl, by simp⟩

end Playground.Session
