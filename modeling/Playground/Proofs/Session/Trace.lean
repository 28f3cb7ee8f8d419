import Playground.Proofs.Bundle.Rendered
import Playground.Proofs.Bytes.Base64
import Playground.Proofs.Delta.Sync
import Playground.Proofs.Session.Parts

/-!
# What a session sends

A session that nobody cancels either sends a whole answer (`IsAnswer`) or stops somewhere before the
first module and tells its failure in one last message (`run_sends`).  It stops only at an obstacle:
the update is none, cannot be stored, imports what cannot be fetched, or cannot be built.  Rendering
is no obstacle, because the payloads of bundled packages are texts.
-/

namespace Playground.Session

open Playground.Bytes

variable {gunzip : ByteArray → Option ByteArray} {η : Type} {client : Client} {host : Host η}
  {settings : SessionSettings} {s s' : SessionState MemoryTree η} {u : Update} {text : String}
  {variant : Variant}

section trace

variable [Gzip.Encoder]

/-! ### Modules -/

/-- The message carries the module of a package of the index: it is named by the digest of the
variant, and what it contains has that digest. -/
def Carries (gunzip : ByteArray → Option ByteArray) (variant : Variant)
    (entry : String × IndexEntry) (m : Message) : Prop :=
  ∃ contents frame bytes, m = .archive entry.1 (entry.2.digest variant) contents ∧
    Message.decodeContents? contents = some frame ∧ gunzip frame = some bytes ∧
      Digest.ofBytes bytes = entry.2.digest variant

/-- The modules that are sent are those of the packages that the client does not hold, in order. -/
theorem carried_compute {rendered : RenderedSet}
    (hgunzip : ∀ b, gunzip (Gzip.compress b) = some b) (hsound : rendered.IsSound)
    (manifest : Manifest) (variant : Variant) (entry : String) :
    let d := Delta.compute rendered manifest variant entry
    List.Forall₂ (Carries gunzip variant) (d.index.toList.filter fun e => !e.2.unchanged)
      (d.artifacts.map Message.ofArtifact) := by
  intro d
  have hindex : d.index.toList = rendered.toList.map fun e =>
      (e.1, Delta.indexEntry manifest variant entry e.1 e.2) :=
    Std.ExtTreeMap.toList_map
  rw [hindex, List.filter_map]
  simp only [d, Delta.compute]
  rw [List.map_map, List.forall₂_map_left_iff, List.forall₂_map_right_iff]
  refine List.forall₂_same.2 ?_
  rintro ⟨path, package⟩ hmem
  have hpackage := Std.ExtTreeMap.mem_toList_iff_getElem?_eq_some.1 (List.mem_filter.1 hmem).1
  have hdigest : (Delta.indexEntry manifest variant entry path package).digest variant =
      (package.get variant).digest := by
    cases variant <;> rfl
  refine ⟨_, (package.get variant).compressed, (package.get variant).bytes, ?_,
    Base64.decode?_encode _, hgunzip _, ?_⟩
  · rw [hdigest]
    rfl
  · rw [hdigest, hsound path package hpackage variant]

/-! ### Whole sessions -/

/-- The beginning of what is sent before the modules: packages are fetched that the host serves,
perhaps one more is begun, and then packages of the workspace are compiled, each after those that it
imports. -/
def CouldBegin (host : Host η) (settings : SessionSettings) (s : SessionState MemoryTree η)
    (w : Workspace) (beginning : List Message) : Prop :=
  ∃ fetched state broken compiled, (fetched ++ Option.toList broken).Nodup ∧
    host.Serves settings.policy s.host fetched state ∧ IsBegun w.sources compiled ∧
      beginning <+: preamble (fetched ++ broken.toList) compiled

/-- What keeps a session from success when nobody cancels it. -/
inductive Obstacle (host : Host η) (settings : SessionSettings) (text : String)
    (s : SessionState MemoryTree η) (w : Workspace) : Prop where
  /-- What came is no update. -/
  | message (h : ∀ u, Message.read? text ≠ some (.update u))
  /-- The update has no entry file. -/
  | entry {u : Update} {e : ProtocolError} (read : Message.read? text = some (.update u))
      (h : u.entrySource = .error e)
  /-- What was submitted cannot be stored. -/
  | submission {u : Update} {e : TreeError} (read : Message.read? text = some (.update u))
      (h : (addPackages s.workspace u.source.toList).2 = .error e)
  /-- What is imported cannot be fetched. -/
  | fetching {u : Update} {e : FetchError} (read : Message.read? text = some (.update u))
      (fetches : settings.fetches = true)
      (h : ((Resolver.mk (addPackages s.workspace u.source.toList).1 s.host [] []).resolve host
        settings.policy entryPackage).1 = .error e)
  /-- What was submitted and fetched cannot be built. -/
  | building {u : Update} {variant : Variant} (read : Message.read? text = some (.update u))
      (unfetched : settings.fetches = false → w = (addPackages s.workspace u.source.toList).1)
      (h : ¬ Buildable w.sources sourceExt Bundle.outcome variant [entryPackage])

/-- What a session that succeeds has sent: notices about fetching and compiling, the modules that
the client does not hold, the index, and a last notice. -/
structure IsAnswer (gunzip : ByteArray → Option ByteArray) (host : Host η)
    (settings : SessionSettings) (u : Update) (s s' : SessionState MemoryTree η)
    (fetched compiled : List String) (archives : List Message) (index : Named IndexEntry) :
    Prop where
  messages : s'.messages = s.messages ++ preamble fetched compiled ++ archives ++
    [.index index, .updating .finished]
  fetched_once : fetched.Nodup
  served : host.Serves settings.policy s.host fetched s'.host
  unfetched : settings.fetches = false → fetched = []
  compiled_order : IsBuildOrder s'.workspace.sources sourceExt ∅ [entryPackage] compiled
  covers : ∀ p, p ∈ index ↔ Needs s'.workspace.sources sourceExt [entryPackage] p
  carried : List.Forall₂ (Carries gunzip u.variant)
    (index.toList.filter fun e => !e.2.unchanged) archives

/-- The part of an answer behind the fetching. -/
def buildAndDeliver (settings : SessionSettings) (client : Client) (u : Update) :
    SessionM MemoryTree η SessionSummary := do
  send client (.downloading .finished)
  send client (.updating .begin)
  let units ← build Bundle.frontEnd settings.schedule
  let rendered ← orFail .render (RenderedSet.render units)
  let delta := Delta.compute rendered u.cache u.variant entryPackage
  sendAll client (delta.artifacts.map Message.ofArtifact)
  send client (.index delta.index)
  send client (.updating .finished)
  return ⟨delta.index.size, delta.sent, delta.reused⟩

theorem answer_eq : answer Bundle.frontEnd host settings client u =
    send client (.downloading .begin) >>= fun _ => submit u >>= fun _ =>
      (if settings.fetches then fetchImports host settings.policy else pure ()) >>= fun _ =>
        buildAndDeliver settings client u := by
  unfold answer
  split <;> rfl

theorem ensures_buildAndDeliver (hgunzip : ∀ b, gunzip (Gzip.compress b) = some b)
    (hlistens : client.listens = true) (hschedule : settings.schedule.interrupted = false)
    (hstaff : settings.schedule.isOverstaffed = false) (hc : s.build.cancelled = false) :
    Ensures (buildAndDeliver settings client u) s
      (fun summary s' => ∃ compiled archives index,
        s'.messages = s.messages ++ [.downloading .finished, .updating .begin] ++
          compileNotices compiled ++ archives ++ [.index index, .updating .finished] ∧
        s'.workspace = s.workspace ∧ s'.host = s.host ∧
        IsBuildOrder s'.workspace.sources sourceExt ∅ [entryPackage] compiled ∧
        (∀ p, p ∈ index ↔ Needs s'.workspace.sources sourceExt [entryPackage] p) ∧
        List.Forall₂ (Carries gunzip u.variant)
          (index.toList.filter fun e => !e.2.unchanged) archives ∧
        summary = ⟨index.size, archives.length, (index.values.filter (·.unchanged)).length⟩ ∧
        summary.sent + summary.reused = summary.packages)
      (fun e s' => e.isFatal = false ∧ ∃ compiled, s'.messages = s.messages ++
          [.downloading .finished, .updating .begin] ++ compileNotices compiled ∧
        IsBegun s'.workspace.sources compiled ∧ s'.workspace = s.workspace ∧
        ∃ variant,
          ¬ Buildable s'.workspace.sources sourceExt Bundle.outcome variant [entryPackage]) := by
  rw [buildAndDeliver, Ensures.bind_iff]
  refine (ensures_send hlistens _).mono ?_ fun _ _ h => h.elim
  rintro _ _ rfl
  rw [Ensures.bind_iff]
  refine (ensures_send hlistens _).mono ?_ fun _ _ h => h.elim
  rintro _ _ rfl
  rw [Ensures.bind_iff]
  refine (ensures_build hschedule hstaff ?_).mono ?_ ?_
  · exact hc
  · rintro units s₁ ⟨hworkspace, hhost, hunits, compiled, horder, hmessages⟩
    simp only [said_said, workspace_said, host_said] at hworkspace hhost
    simp only [said_said, workspace_said, ← hworkspace] at hunits horder
    obtain ⟨rendered, hrender⟩ := Bundle.exists_render_of_isMeaningOf hunits
    rw [Ensures.bind_iff, orFail_iff, hrender]
    refine (ensures_deliver hlistens _).mono ?_ fun _ _ h => h.elim
    rintro _ _ ⟨rfl, rfl⟩
    have hindex : ∀ p, p ∈ (Delta.compute rendered u.cache u.variant entryPackage).index ↔
        Needs s₁.workspace.sources sourceExt [entryPackage] p := by
      intro p
      rw [Delta.mem_index, (RenderedSet.of_render hrender).2]
      exact (hunits .full).mem p
    refine ⟨compiled, _, _, ?_, hworkspace, hhost, horder, hindex,
      carried_compute hgunzip (RenderedSet.isSound_of_render hrender) u.cache u.variant
        entryPackage, ?_, ?_⟩
    · simp [hmessages]
    · rw [List.length_map]
      rfl
    · exact Delta.sent_add_reused.trans Std.ExtTreeMap.size_map.symm
  · rintro e s₁ ⟨hfatal, hworkspace, hnot, compiled, hbegun, hmessages⟩
    rw [← hworkspace] at hbegun hnot
    exact ⟨hfatal, compiled, by simp [hmessages], hbegun, hworkspace, hnot⟩

theorem ensures_answer (hgunzip : ∀ b, gunzip (Gzip.compress b) = some b)
    (hlistens : client.listens = true) (hschedule : settings.schedule.interrupted = false)
    (hstaff : settings.schedule.isOverstaffed = false) (hc : s.build.cancelled = false)
    (hread : Message.read? text = some (.update u)) :
    Ensures (answer Bundle.frontEnd host settings client u) s
      (fun summary s' => ∃ fetched compiled archives index,
        IsAnswer gunzip host settings u s s' fetched compiled archives index ∧
        summary = ⟨index.size, archives.length, (index.values.filter (·.unchanged)).length⟩ ∧
        summary.sent + summary.reused = summary.packages)
      (fun e s' => e.isFatal = false ∧ ∃ beginning, s'.messages = s.messages ++ beginning ∧
        CouldBegin host settings s s'.workspace beginning ∧
        Obstacle host settings text s s'.workspace) := by
  rw [answer_eq, Ensures.bind_iff]
  refine (ensures_send hlistens _).mono ?_ fun _ _ h => h.elim
  rintro _ _ rfl
  rw [Ensures.bind_iff]
  refine ensures_submit.mono ?_ ?_
  · rintro _ _ rfl
    rw [Ensures.bind_iff]
    refine ensures_fetches.mono ?_ ?_
    · rintro _ s₁ ⟨hbuild, hworkspace, fetched, hnodup, hunfetched, hserved, hmessages⟩
      have hc₁ : s₁.build.cancelled = false := by
        rw [hbuild]
        exact hc
      refine (ensures_buildAndDeliver hgunzip hlistens hschedule hstaff hc₁).mono ?_ ?_
      · rintro summary s' ⟨compiled, archives, index, hmessages', hworkspace', hhost, horder,
          hindex, hcarried, hsummary, htotal⟩
        refine ⟨fetched, compiled, archives, index, ⟨?_, hnodup, ?_, hunfetched, horder, hindex,
          hcarried⟩, hsummary, htotal⟩
        · rw [hmessages', hmessages]
          simp [preamble]
        · rw [hhost]
          exact hserved
      · rintro e s' ⟨hfatal, compiled, hmessages', hbegun, hworkspace', variant, hnot⟩
        refine ⟨hfatal, preamble fetched compiled, ?_,
          ⟨fetched, s₁.host, none, compiled, ?_, hserved, hbegun, ?_⟩,
          .building hread (fun hfetches => hworkspace'.trans (hworkspace hfetches)) hnot⟩
        · rw [hmessages', hmessages]
          simp [preamble]
        · simpa using hnodup
        · simp
    · rintro e s₁ ⟨hfetches, hfatal, ⟨e', he'⟩, fetched, state, broken, hnodup, hserved, hmessages⟩
      refine ⟨hfatal, [.downloading .begin] ++ fetchNotices fetched ++
        broken.toList.map fun path => .downloading (.say path), ?_,
        ⟨fetched, state, broken, [], hnodup, hserved, .inl rfl, ?_⟩, .fetching hread hfetches he'⟩
      · rw [hmessages]
        simp
      · exact prefix_preamble fetched broken
  · rintro e _ ⟨hfatal, rfl, e', he'⟩
    refine ⟨hfatal, [.downloading .begin], rfl,
      ⟨[], s.host, none, [], List.nodup_nil, .none, .inl rfl, ?_⟩, .submission hread he'⟩
    simp [preamble]

theorem ensures_serve (hgunzip : ∀ b, gunzip (Gzip.compress b) = some b)
    (hlistens : client.listens = true) (hfirst : client.first = .line text)
    (hschedule : settings.schedule.interrupted = false)
    (hstaff : settings.schedule.isOverstaffed = false) (hc : s.build.cancelled = false) :
    Ensures (serve Bundle.frontEnd host settings client) s
      (fun summary s' => ∃ u fetched compiled archives index,
        Message.read? text = some (.update u) ∧
        IsAnswer gunzip host settings u s s' fetched compiled archives index ∧
        summary = ⟨index.size, archives.length, (index.values.filter (·.unchanged)).length⟩ ∧
        summary.sent + summary.reused = summary.packages)
      (fun e s' => e.isFatal = false ∧ ∃ beginning, s'.messages = s.messages ++ beginning ∧
        CouldBegin host settings s s'.workspace beginning ∧
        Obstacle host settings text s s'.workspace) := by
  have hnothing : CouldBegin host settings s s.workspace [] :=
    ⟨[], s.host, none, [], List.nodup_nil, .none, .inl rfl, List.nil_prefix⟩
  rw [serve, Ensures.bind_iff]
  refine (ensures_receive hfirst hc).mono ?_ ?_
  · rintro u _ ⟨rfl, hread⟩
    rw [Ensures.bind_iff]
    cases hentry : u.entrySource with
    | error e => exact ⟨rfl, [], (List.append_nil _).symm, hnothing, .entry hread hentry⟩
    | ok source =>
      refine (ensures_answer hgunzip hlistens hschedule hstaff hc hread).mono ?_ fun _ _ h => h
      rintro summary s' ⟨fetched, compiled, archives, index, hanswer, hsummary⟩
      exact ⟨u, fetched, compiled, archives, index, hread, hanswer, hsummary⟩
  · rintro e _ ⟨hfatal, rfl, hnot⟩
    exact ⟨hfatal, [], (List.append_nil _).symm, hnothing, .message hnot⟩

/-- What a session sends when nobody cancels it, its workers can be counted and the client listens.
One that succeeds has sent a whole answer, and its summary counts what the answer holds.  One that
fails has sent what could begin an answer, up to the modules, and then one message about its
failure; and something stood in its way. -/
theorem run_sends (hgunzip : ∀ b, gunzip (Gzip.compress b) = some b)
    (hlistens : client.listens = true) (hfirst : client.first = .line text)
    (hschedule : settings.schedule.interrupted = false)
    (hworkers : settings.schedule.parallelism < workerLimit) (hc : s.build.cancelled = false) :
    (∀ summary s', run Bundle.frontEnd host settings client s = (.ok summary, s') →
      ∃ u fetched compiled archives index,
        Message.read? text = some (.update u) ∧
        IsAnswer gunzip host settings u s s' fetched compiled archives index ∧
        summary = ⟨index.size, archives.length, (index.values.filter (·.unchanged)).length⟩ ∧
        summary.sent + summary.reused = summary.packages) ∧
    ∀ e s', run Bundle.frontEnd host settings client s = (.error e, s') →
      ∃ beginning, s'.messages = s.messages ++ beginning ++ [e.toMessage] ∧
        CouldBegin host settings s s'.workspace beginning ∧
        Obstacle host settings text s s'.workspace := by
  have hserve : Ensures (serve Bundle.frontEnd host settings client) s _ _ :=
    ensures_serve hgunzip hlistens hfirst hschedule (Schedule.isOverstaffed_eq_false.2 hworkers) hc
  unfold Ensures at hserve
  unfold run
  split at hserve
  · rename_i summary s' he
    rw [he]
    refine ⟨?_, nofun⟩
    rintro _ _ ⟨⟩
    exact hserve
  · rename_i e s' he
    rw [he]
    obtain ⟨hfatal, beginning, hmessages, hcould, hobstacle⟩ := hserve
    have htell : tell client e s' = said s' [e.toMessage] :=
      if_pos (by rw [hlistens, hfatal]; rfl)
    refine ⟨nofun, ?_⟩
    rintro _ _ ⟨⟩
    rw [htell]
    exact ⟨beginning, by rw [messages_said, hmessages], hcould, hobstacle⟩

/-! ### Sessions whose workers cannot be counted -/

/-- A session that fetches nothing and whose workers cannot be counted breaks down when the build
has begun, although the update could be answered.  The last that the client hears is that it is
being updated. -/
theorem run_overstaffed {w : Workspace} {source : String} (hlistens : client.listens = true)
    (hfirst : client.first = .line text) (hstaff : settings.schedule.isOverstaffed = true)
    (hfetches : settings.fetches = false) (hc : s.build.cancelled = false)
    (hread : Message.read? text = some (.update u)) (hentry : u.entrySource = .ok source)
    (hsubmit : addPackages s.workspace u.source.toList = (w, .ok ()))
    (hbuildable : Buildable w.sources sourceExt Bundle.outcome variant [entryPackage]) :
    ∃ s', run Bundle.frontEnd host settings client s =
        (.error (.build (.worker .overstaffed)), s') ∧
      s'.messages = s.messages ++
        [.downloading .begin, .downloading .finished, .updating .begin] := by
  have hserve : Ensures (serve Bundle.frontEnd host settings client) s (fun _ _ => False)
      (fun e s' => e = .build (.worker .overstaffed) ∧ s'.messages = s.messages ++
        [.downloading .begin, .downloading .finished, .updating .begin]) := by
    rw [serve, Ensures.bind_iff]
    refine (ensures_receive hfirst hc).mono ?_ ?_
    · rintro u' s₁ ⟨hs, hread'⟩
      rw [hread] at hread'
      cases hread'
      rw [hs, hentry, Ensures.bind_iff]
      show Ensures (answer Bundle.frontEnd host settings client u) s _ _
      rw [answer_eq, Ensures.bind_iff]
      refine (ensures_send hlistens _).mono ?_ fun _ _ h => h.elim
      rintro _ _ rfl
      rw [Ensures.bind_iff]
      refine ensures_submit.mono ?_ ?_
      · rintro _ _ rfl
        rw [hfetches, if_neg Bool.false_ne_true, pure_bind, buildAndDeliver, Ensures.bind_iff]
        refine (ensures_send hlistens _).mono ?_ fun _ _ h => h.elim
        rintro _ _ rfl
        rw [Ensures.bind_iff]
        refine (ensures_send hlistens _).mono ?_ fun _ _ h => h.elim
        rintro _ _ rfl
        rw [Ensures.bind_iff]
        refine (ensures_build_overstaffed variant hstaff ?_ ?_).mono (fun _ _ h => h.elim) ?_
        · exact hc
        · simp only [workspace_said, hsubmit]
          exact hbuildable
        · rintro e s' ⟨rfl, hmessages⟩
          refine ⟨rfl, ?_⟩
          simp [hmessages]
      · rintro e s' ⟨-, -, e', he⟩
        rw [workspace_said, hsubmit] at he
        cases he
    · rintro e s' ⟨-, -, hnot⟩
      exact absurd hread (hnot u)
  unfold Ensures at hserve
  unfold run
  split at hserve
  · exact hserve.elim
  · rename_i e s' he
    obtain ⟨rfl, hmessages⟩ := hserve
    have htell : tell client (.build (.worker .overstaffed)) s' = s' :=
      if_neg (by rw [SessionError.isFatal, Bool.not_true, Bool.and_false]; exact Bool.false_ne_true)
    rw [he]
    dsimp only
    rw [htell]
    exact ⟨s', rfl, hmessages⟩

end trace

/-! ### A session over a library -/

/-- An update with one package, which imports one of the library. -/
def updateLine : String :=
  "\x7b\"type\":\"update\",\"source\":\x7b\"main\":" ++
    "\x7b\"main.go\":\"package main\\nimport \\\"a\\\"\\n\"\x7d\x7d\x7d"

def submitted : Update :=
  ⟨(∅ : SourceMap).insert "main"
    ((∅ : Named String).insert "main.go" "package main\nimport \"a\"\n"), ∅, .full⟩

theorem read?_updateLine : Message.read? updateLine = some (.update submitted) := by
  decide +kernel

theorem eq_submitted (h : Message.read? updateLine = some (.update u)) : u = submitted := by
  rw [read?_updateLine] at h
  exact (Message.update.inj (Option.some.inj h)).symm

theorem entrySource_submitted :
    submitted.entrySource = .ok "package main\nimport \"a\"\n" := by
  decide +kernel

def overLibrary : SessionState MemoryTree (List String) :=
  ⟨.new (.memory BuildSession.onePackage), [], ⟨∅, false, []⟩, []⟩

def withoutFetching : SessionSettings := ⟨.default, false, .inOrder⟩

def emptyHost : Host (List String) := .ofPackages ∅

theorem addPackages_submitted :
    (addPackages overLibrary.workspace submitted.source.toList).2 = .ok () := rfl

theorem buildable_submitted (variant : Variant) :
    Buildable (addPackages overLibrary.workspace submitted.source.toList).1.sources sourceExt
      Bundle.outcome variant [entryPackage] := by
  have ha : ∀ variant, ∃ unit, Meaning
      (addPackages overLibrary.workspace submitted.source.toList).1.sources sourceExt
        Bundle.outcome variant "a" unit :=
    Bundle.exists_meaning_of_accepted [("a.go", "package a\n".toByteArray)] []
      (by decide +kernel) nofun
  have hmain : ∀ variant, ∃ unit, Meaning
      (addPackages overLibrary.workspace submitted.source.toList).1.sources sourceExt
        Bundle.outcome variant entryPackage unit :=
    Bundle.exists_meaning_of_accepted [("main.go", "package main\nimport \"a\"\n".toByteArray)]
      ["a"] (by decide +kernel) (by simpa using ha)
  exact (hmain variant).choose_spec.buildable

/-- A session over a library answers an update whose package imports one of the library. -/
theorem exists_answer_submitted : ∃ summary s' fetched compiled archives index,
    run Bundle.frontEnd emptyHost withoutFetching ⟨.line updateLine, true⟩ overLibrary =
      (.ok summary, s') ∧
    IsAnswer Gzip.decompress? emptyHost withoutFetching submitted overLibrary s' fetched compiled
      archives index ∧
    summary = ⟨index.size, archives.length, (index.values.filter (·.unchanged)).length⟩ ∧
    summary.sent + summary.reused = summary.packages := by
  have hworkers : withoutFetching.schedule.parallelism < workerLimit := by decide
  obtain ⟨hok, herror⟩ := @run_sends _ _ ⟨.line updateLine, true⟩ emptyHost withoutFetching
    overLibrary updateLine _ Gzip.decompress?_store rfl rfl rfl hworkers rfl
  rcases he : run Bundle.frontEnd emptyHost withoutFetching ⟨.line updateLine, true⟩
    overLibrary with ⟨e | summary, s'⟩
  · exfalso
    obtain ⟨-, -, -, hobstacle⟩ := herror e s' he
    cases hobstacle with
    | message h => exact h submitted read?_updateLine
    | entry hread h =>
      rw [eq_submitted hread, entrySource_submitted] at h
      cases h
    | submission hread h =>
      rw [eq_submitted hread, addPackages_submitted] at h
      cases h
    | fetching _ hfetches => cases hfetches
    | building hread hunfetched h =>
      rw [hunfetched rfl, eq_submitted hread] at h
      exact h (buildable_submitted _)
  · obtain ⟨u, fetched, compiled, archives, index, hread, hanswer, hsummary, htotal⟩ :=
      hok summary s' he
    rw [eq_submitted hread] at hanswer
    exact ⟨summary, s', fetched, compiled, archives, index, rfl, hanswer, hsummary, htotal⟩

/-- Nothing is fetched, and more workers are asked for than can be counted. -/
def overstaffed : SessionSettings :=
  ⟨.default, false, { Schedule.inOrder with parallelism := workerLimit }⟩

theorem isOverstaffed_overstaffed : overstaffed.schedule.isOverstaffed = true :=
  decide_eq_true (Nat.le_refl workerLimit)

theorem addPackages_overLibrary : addPackages overLibrary.workspace submitted.source.toList =
    ((addPackages overLibrary.workspace submitted.source.toList).1, .ok ()) :=
  Prod.ext rfl addPackages_submitted

/-- The same session with too many workers breaks down when the build has begun, and the client is
not told. -/
theorem exists_untold_submitted : ∃ e s',
    run Bundle.frontEnd emptyHost overstaffed ⟨.line updateLine, true⟩ overLibrary =
      (.error e, s') ∧
    s'.messages = [.downloading .begin, .downloading .finished, .updating .begin] ∧
    ¬ ∃ beginning, s'.messages = beginning ++ [e.toMessage] := by
  have hsession : ∃ s', run Bundle.frontEnd emptyHost overstaffed ⟨.line updateLine, true⟩
      overLibrary = (.error (.build (.worker .overstaffed)), s') ∧
      s'.messages = overLibrary.messages ++
        [.downloading .begin, .downloading .finished, .updating .begin] :=
    run_overstaffed rfl rfl isOverstaffed_overstaffed rfl rfl read?_updateLine
      entrySource_submitted addPackages_overLibrary (buildable_submitted .full)
  obtain ⟨s', hrun, hmessages⟩ := hsession
  refine ⟨_, s', hrun, hmessages, ?_⟩
  rw [hmessages]
  rintro ⟨beginning, hlast⟩
  have hkind := congrArg (fun ms => ms.getLast?.map Message.kind) hlast
  simp [Message.kind, SessionError.toMessage, Message.ofError] at hkind

end Playground.Session
