import Playground.Proofs.Bundle.Rendered
import Playground.Proofs.Publish.Effects
import Playground.Proofs.Publish.Saved

/-!
# Publishing and building alone agree

The sessions in which a universe is built hold, after all its packages, the meanings of exactly what
the universe needs, in both variants.  Meanings do not depend on what else is built, so a package is
published with the digests that a fresh build of it alone gives
(`Publisher.publishAll_eq_fresh_builds`).
-/

namespace Playground

variable {σ β : Type} {sources : View} {ext : String} {f : CompileRequest → Outcome}
  {frontEnd : FrontEnd σ} {schedule : Schedule} {s s' : VariantSessions} {paths : List String}
  {c c' : BuildContext σ} {units units' : VariantUnits} {rendered rendered' : RenderedSet}

/-! ### The units of a universe -/

theorem Publisher.of_buildAll (hf : Faithful f) (hcomputes : frontEnd.Computes f)
    (hsound : s.IsSound sources ext f)
    (h : Publisher.buildAll frontEnd schedule sources ext s c paths = (.ok s', c')) :
    s'.IsSound sources ext f ∧ ∀ variant p, p ∈ (s'.get variant).units ↔
      p ∈ (s.get variant).units ∨ Needs sources ext paths p := by
  induction paths generalizing s c with
  | nil =>
    cases h
    refine ⟨hsound, fun variant p => ⟨.inl, fun hp => hp.elim id ?_⟩⟩
    rintro ⟨root, hroot, -⟩
    exact absurd hroot List.not_mem_nil
  | cons path paths ih =>
    have hspec := VariantSessions.build_spec hf hcomputes schedule [path] c hsound
    rw [Publisher.buildAll] at h
    split at h
    · cases h
    · rename_i units s₁ c₁ he
      rw [he] at hspec
      obtain ⟨-, hsound₁, hmem₁, -⟩ := hspec
      obtain ⟨hsound', hmem⟩ := ih hsound₁ h
      refine ⟨hsound', fun variant p => ?_⟩
      rw [hmem, hmem₁, or_assoc]
      exact or_congr_right Needs.cons_iff.symm

theorem Publisher.isMeaningOf_units (hf : Faithful f) (hcomputes : frontEnd.Computes f)
    (h : Publisher.buildAll frontEnd schedule sources ext .new c paths = (.ok s, c')) :
    VariantUnits.IsMeaningOf sources ext f paths s.units := by
  obtain ⟨hsound, hmem⟩ := Publisher.of_buildAll hf hcomputes VariantSessions.isSound_new h
  intro variant
  have hunits : s.units.get variant = (s.get variant).units := PerVariant.get_map _
  rw [hunits]
  refine ⟨fun p => (hmem variant p).trans (or_iff_right ?_), (hsound variant).2.meaning⟩
  cases variant <;> exact Std.ExtTreeMap.not_mem_empty

/-- What is rendered of a universe: the meanings of exactly what it needs. -/
theorem Publisher.of_renderUniverse (hf : Faithful f) (hcomputes : frontEnd.Computes f)
    (h : Publisher.renderUniverse frontEnd schedule sources ext c paths = (.ok rendered, c')) :
    ∃ units, VariantUnits.IsMeaningOf sources ext f paths units ∧
      RenderedSet.render units = .ok rendered := by
  unfold Publisher.renderUniverse at h
  split at h
  · cases h
  · rename_i sessions c₁ he
    obtain ⟨hr, -⟩ := Prod.mk.inj h
    exact ⟨sessions.units, Publisher.isMeaningOf_units hf hcomputes he,
      Results.mapError_eq_ok.1 hr⟩

theorem Publisher.exists_renderUniverse_eq_ok {c : BuildContext MemoryTree}
    (hschedule : schedule.interrupted = false) (hstaff : schedule.isOverstaffed = false)
    (hc : c.cancelled = false)
    (h : ∀ path ∈ paths, ∀ variant, Buildable sources ext Bundle.outcome variant [path]) :
    ∃ rendered c', Publisher.renderUniverse Bundle.frontEnd schedule sources ext c paths =
      (.ok rendered, c') := by
  have hbuilds : ∀ (s : VariantSessions) (c : BuildContext MemoryTree),
      s.IsSound sources ext Bundle.outcome → c.cancelled = false → ∃ s' c',
        Publisher.buildAll Bundle.frontEnd schedule sources ext s c paths = (.ok s', c') := by
    induction paths with
    | nil => exact fun s c _ _ => ⟨s, c, rfl⟩
    | cons path paths ih =>
      intro s c hsound hc
      obtain ⟨units, s₁, c₁, hbuild, -, hsound₁, hc₁⟩ := VariantSessions.exists_build_eq_ok
        Bundle.faithful_outcome Bundle.computes_outcome hschedule hstaff hc hsound
        (h path List.mem_cons_self)
      rw [Publisher.buildAll, hbuild]
      exact ih (fun p hp => h p (List.mem_cons_of_mem _ hp)) s₁ c₁ hsound₁ hc₁
  obtain ⟨s, c', hs⟩ := hbuilds .new c VariantSessions.isSound_new hc
  have hmeaning : VariantUnits.IsMeaningOf sources ext Bundle.outcome paths s.units :=
    Publisher.isMeaningOf_units Bundle.faithful_outcome Bundle.computes_outcome hs
  obtain ⟨rendered, hrender⟩ := Bundle.exists_render_of_isMeaningOf hmeaning
  refine ⟨rendered, c', ?_⟩
  rw [Publisher.renderUniverse, hs]
  dsimp only
  rw [hrender]
  rfl

/-! ### Builds of one package -/

/-- A package whose needs have units in both variants is built by itself, on fresh sessions, and
with the same modules. -/
theorem exists_render_of_needs {p : String} (hf : Faithful f) (hcomputes : frontEnd.Computes f)
    (hunits : VariantUnits.IsMeaningOf sources ext f paths units)
    (hrender : RenderedSet.render units = .ok rendered) (hp : Needs sources ext paths p)
    (hschedule : schedule.interrupted = false) (hstaff : schedule.isOverstaffed = false)
    (hc : c.cancelled = false) :
    ∃ units' s' c' rendered', VariantSessions.new.build frontEnd schedule sources ext [p] c =
      (.ok units', s', c') ∧ RenderedSet.render units' = .ok rendered' ∧
        p ∈ rendered' ∧ rendered'[p]? = rendered[p]? := by
  have hroots : ∀ q, Needs sources ext [p] q → Needs sources ext paths q := by
    intro q hq
    obtain ⟨root, hroot, hrp⟩ := hp
    exact ⟨root, hroot, hrp.trans (needs_singleton.1 hq)⟩
  have hbuildable (variant : Variant) : Buildable sources ext f variant [p] := by
    refine Buildable.of_meanings fun q hq => ?_
    obtain ⟨unit, hunit⟩ := Named.mem_iff.1 (((hunits variant).mem q).2 (hroots q hq))
    exact ⟨unit, (hunits variant).meaning q unit hunit⟩
  obtain ⟨units', s', c', hbuild, hunits', -⟩ := VariantSessions.exists_build_eq_ok hf hcomputes
    hschedule hstaff hc VariantSessions.isSound_new hbuildable
  have hsame {q : String} (hq : Needs sources ext [p] q) (variant : Variant) :=
    hunits.getElem?_eq hunits' hroots hq variant
  -- each package is rendered from the same units as in the universe
  have hpackage : ∀ q full, units'.full[q]? = some full → ∃ package,
      RenderedSet.renderPackage q full units'.optimized[q]? = .ok package ∧
        rendered[q]? = some package := by
    intro q full hfull
    have hq := ((hunits' .full).mem q).1 (Named.mem_of_getElem? hfull)
    have hoptimized : units'.optimized[q]? = units.optimized[q]? := hsame hq .optimized
    rw [hoptimized]
    exact (RenderedSet.of_render hrender).1 q full ((hsame hq .full).symm.trans hfull)
  obtain ⟨rendered', hrender'⟩ := RenderedSet.exists_render fun q full hfull =>
    (hpackage q full hfull).imp fun _ h => h.1
  have hmem := ((hunits' .full).mem p).2 (.of_mem (List.mem_singleton_self p))
  obtain ⟨full, hfull⟩ := Named.mem_iff.1 hmem
  obtain ⟨package, hpackage, hrendered⟩ := hpackage p full hfull
  obtain ⟨package', hpackage', hrendered'⟩ := (RenderedSet.of_render hrender').1 p full hfull
  rw [hpackage] at hpackage'
  cases hpackage'
  exact ⟨units', s', c', rendered', hbuild, hrender', Named.mem_of_getElem? hrendered',
    hrendered'.trans hrendered.symm⟩

/-! ### Whole calls -/

namespace Publisher

variable {bucket : Bucket β} {settings : Settings} {w : Workspace} {depot depot' : Depot β}
  {report : PublishReport} {table : LookupTable}

/-- What a call that reports success did.  Objects were stored under different keys, as many as it
reports: two for each package and one more.  The keys are those that `table` stands for.  After all
of them `table` was saved, and it is what is read at its path, where no link stands in the way. -/
structure Published (bucket : Bucket β) (settings : Settings) (depot depot' : Depot β)
    (report : PublishReport) (table : LookupTable) : Prop where
  performed : ∃ (puts : List (String × StoredObject)) (stored : Depot β),
    performAll bucket depot (storeAll puts) = (.ok (), stored) ∧
      (puts.map Prod.fst).Nodup ∧ puts.length = report.uploaded ∧
      (∀ key, key ∈ puts.map Prod.fst ↔ IsKeyOf table key) ∧
      depot'.bucket = stored.bucket ∧
      table.save settings.tablePath stored.disk = (.ok (), depot'.disk) ∧
      (LookupTable.HasNoLink settings.tablePath stored.disk →
        LookupTable.HasNoLink (LookupTable.draftPath settings.tablePath) stored.disk →
          LookupTable.load depot'.disk settings.tablePath = .ok table)
  packages : report.packages = table.size
  uploaded : report.uploaded = 2 * report.packages + 1

theorem performAll_saveTable {path : String} {depot depot' : Depot β}
    (h : performAll bucket depot [.saveTable path table] = (.ok (), depot')) :
    depot'.bucket = depot.bucket ∧ table.save path depot.disk = (.ok (), depot'.disk) := by
  rw [performAll, perform] at h
  cases hsave : table.save path depot.disk with
  | mk result disk =>
    rw [hsave] at h
    cases result with
    | error e => cases h
    | ok _ =>
      cases h
      exact ⟨rfl, rfl⟩

theorem Published.load (h : Published bucket settings depot depot' report table)
    (hbucket : StoresAll bucket) (hlink : LookupTable.HasNoLink settings.tablePath depot.disk)
    (hdraft : LookupTable.HasNoLink (LookupTable.draftPath settings.tablePath) depot.disk) :
    LookupTable.load depot'.disk settings.tablePath = .ok table := by
  obtain ⟨puts, stored, hstored, -, -, -, -, -, hload⟩ := h.performed
  obtain ⟨objects, hputs⟩ := exists_performAll_storeAll hbucket puts depot
  rw [hputs] at hstored
  cases hstored
  exact hload hlink hdraft

/-- A call that succeeds has rendered its universe and published the table of that. -/
theorem of_publishAll {frontEnd : FrontEnd σ}
    (h : publishAll frontEnd bucket settings w paths c depot = (.ok report, c', depot')) :
    ∃ rendered c₁, renderUniverse frontEnd settings.schedule w.sources settings.ext c paths =
      (.ok rendered, c₁) ∧ (IsRendered rendered →
        Published bucket settings depot depot' report (tableOf rendered)) := by
  rcases publishAll_cases h with ⟨e, -, hresult, -⟩ | ⟨rendered, result, hrender, hperform, hresult⟩
  · cases hresult
  · cases result with
    | error e => cases hresult
    | ok _ =>
      cases hresult
      refine ⟨rendered, c', hrender, fun hrendered => ?_⟩
      obtain ⟨puts, hputs, hnodup, hlength, hkeys⟩ := exists_storing_eq hrendered settings.order
      have huploaded : (effects settings.order settings.tablePath rendered).length - 1 =
          puts.length := by
        rw [effects_eq, List.length_append, hputs, storeAll, List.length_map]
        rfl
      rw [effects_eq, hputs, performAll_append] at hperform
      split at hperform
      · cases hperform
      · rename_i stored hstored
        obtain ⟨hbucket, hsave⟩ := performAll_saveTable hperform
        refine ⟨⟨puts, stored, hstored, hnodup, huploaded.symm, hkeys, hbucket, hsave,
          fun hlink hdraft => ?_⟩, size_tableOf.symm, huploaded.trans hlength⟩
        exact LookupTable.load_of_readFile (LookupTable.readFile_of_save hlink hdraft hsave)

/-- A package is published with the digests that a build of it alone on fresh sessions gives,
however that build is scheduled, as long as its workers can be counted. -/
def IsFreshEntry (sources : View) (ext p : String) (entry : TableEntry) : Prop :=
  ∀ (schedule : Schedule) (c : BuildContext MemoryTree), schedule.interrupted = false →
    schedule.isOverstaffed = false → c.cancelled = false → ∃ units s' c' rendered package,
      VariantSessions.new.build Bundle.frontEnd schedule sources ext [p] c = (.ok units, s', c') ∧
        RenderedSet.render units = .ok rendered ∧ rendered[p]? = some package ∧
          entry = ⟨package.optimized.digest, package.full.digest⟩

theorem isFreshEntry_tableOf {p : String} {entry : TableEntry}
    (hunits : VariantUnits.IsMeaningOf sources ext Bundle.outcome paths units)
    (hrender : RenderedSet.render units = .ok rendered)
    (hentry : (tableOf rendered)[p]? = some entry) : IsFreshEntry sources ext p entry := by
  intro schedule c hschedule hstaff hc
  rw [getElem?_tableOf] at hentry
  obtain ⟨package, hpackage, rfl⟩ := Option.map_eq_some_iff.1 hentry
  have hp : Needs sources ext paths p :=
    ((hunits .full).mem p).1
      (((RenderedSet.of_render hrender).2 p).1 (Named.mem_of_getElem? hpackage))
  obtain ⟨units', s', c', rendered', hbuild, hrender', -, hsame⟩ := exists_render_of_needs
    Bundle.faithful_outcome Bundle.computes_outcome hunits hrender hp hschedule hstaff hc
  exact ⟨units', s', c', rendered', package, hbuild, hrender', hsame.trans hpackage, rfl⟩

/-- Publishing agrees with building alone.  A call that succeeds publishes a table of exactly what
its universe needs, each package with the digests of a fresh build of it alone; and it is the one
table that every call over the same sources publishes whose universe has the same members. -/
theorem publishAll_eq_fresh_builds {c c' : BuildContext MemoryTree}
    (h : publishAll Bundle.frontEnd bucket settings w paths c depot = (.ok report, c', depot')) :
    ∃ table : LookupTable,
      Published bucket settings depot depot' report table ∧
      (∀ p, p ∈ table ↔ Needs w.sources settings.ext paths p) ∧
      (∀ p entry, table[p]? = some entry → IsFreshEntry w.sources settings.ext p entry) ∧
      ∀ {γ : Type} (bucket₁ : Bucket γ) (settings₁ : Settings) (paths₁ : List String)
        (c₁ c₁' : BuildContext MemoryTree) (depot₁ depot₁' : Depot γ) (report₁ : PublishReport),
        settings₁.ext = settings.ext → (∀ p, p ∈ paths₁ ↔ p ∈ paths) →
        publishAll Bundle.frontEnd bucket₁ settings₁ w paths₁ c₁ depot₁ =
          (.ok report₁, c₁', depot₁') →
        Published bucket₁ settings₁ depot₁ depot₁' report₁ table := by
  obtain ⟨rendered, c₂, hrendered, hpublished⟩ := of_publishAll h
  obtain ⟨units, hunits, hrender⟩ :=
    of_renderUniverse Bundle.faithful_outcome Bundle.computes_outcome hrendered
  refine ⟨tableOf rendered, hpublished (isRendered_of_render hrender), fun p => ?_,
    fun p entry hentry => isFreshEntry_tableOf hunits hrender hentry, ?_⟩
  · rw [mem_tableOf, (RenderedSet.of_render hrender).2]
    exact (hunits .full).mem p
  · intro γ bucket₁ settings₁ paths₁ c₁ c₁' depot₁ depot₁' report₁ hext hpaths h₁
    obtain ⟨rendered₁, c₃, hrendered₁, hpublished₁⟩ := of_publishAll h₁
    obtain ⟨units₁, hunits₁, hrender₁⟩ :=
      of_renderUniverse Bundle.faithful_outcome Bundle.computes_outcome hrendered₁
    have hunits' : VariantUnits.IsMeaningOf w.sources settings.ext Bundle.outcome paths units₁ := by
      intro variant
      have := hunits₁ variant
      rw [hext] at this
      exact ⟨fun p => (this.mem p).trans (Needs.congr hpaths), this.meaning⟩
    cases hunits'.unique hunits
    rw [hrender] at hrender₁
    cases hrender₁
    exact hpublished₁ (isRendered_of_render hrender)

/-- Where all roots can be built, all objects stored and the table saved, publishing succeeds. -/
theorem exists_publishAll_eq_ok {c : BuildContext MemoryTree}
    (hschedule : settings.schedule.interrupted = false)
    (hstaff : settings.schedule.isOverstaffed = false) (hc : c.cancelled = false)
    (hbuildable : ∀ path ∈ paths, ∀ variant,
      Buildable w.sources settings.ext Bundle.outcome variant [path])
    (hbucket : StoresAll bucket)
    (hsave : ∀ table : LookupTable, ∃ d, table.save settings.tablePath depot.disk = (.ok (), d)) :
    ∃ report c' depot',
      publishAll Bundle.frontEnd bucket settings w paths c depot = (.ok report, c', depot') := by
  obtain ⟨rendered, c', hrendered⟩ :=
    exists_renderUniverse_eq_ok hschedule hstaff hc hbuildable
  obtain ⟨units, -, hrender⟩ :=
    of_renderUniverse Bundle.faithful_outcome Bundle.computes_outcome hrendered
  obtain ⟨puts, hputs, -⟩ := exists_storing_eq (isRendered_of_render hrender) settings.order
  obtain ⟨objects, hstored⟩ := exists_performAll_storeAll hbucket puts depot
  obtain ⟨d, hd⟩ := hsave (tableOf rendered)
  have hperformed : performAll bucket depot (effects settings.order settings.tablePath rendered) =
      (.ok (), ⟨objects, d⟩) := by
    rw [effects_eq, hputs, performAll_append, hstored]
    simp [performAll, perform, hd, Except.mapError]
  simp only [publishAll, hrendered, hstaff, Bool.false_eq_true, if_false, hperformed]
  exact ⟨_, _, _, rfl⟩

def keepAll : Bucket (Named StoredObject) where
  put key object depot := (.ok (), { depot with bucket := depot.bucket.insert key object })

theorem storesAll_keepAll : StoresAll keepAll := fun key object depot =>
  ⟨depot.bucket.insert key object, rfl⟩

/-- Go packages are published, and the table is saved in the working directory. -/
def tableSettings : Settings := ⟨"go", "table.json", .inOrder, .inOrder⟩

theorem exists_save_table (table : LookupTable) :
    ∃ d, table.save tableSettings.tablePath ⟨∅, []⟩ = (.ok (), d) :=
  table.exists_save_eq_ok (by decide) (by decide) (by decide) (by decide) (by decide) (by decide)

/-- A library of two packages, of which one imports the other. -/
def overTwoPackages : Workspace := .new (.memory BuildSession.twoPackages)

theorem buildable_overTwoPackages :
    ∀ path ∈ ["a", "b"], ∀ variant,
      Buildable overTwoPackages.sources "go" Bundle.outcome variant [path] := by
  have ha : ∀ variant, ∃ unit,
      Meaning overTwoPackages.sources "go" Bundle.outcome variant "a" unit :=
    Bundle.exists_meaning_of_accepted [("a.go", "package a\n".toByteArray)] []
      (by decide +kernel) nofun
  have hb : ∀ variant, ∃ unit,
      Meaning overTwoPackages.sources "go" Bundle.outcome variant "b" unit :=
    Bundle.exists_meaning_of_accepted [("b.go", "package b\nimport \"a\"\n".toByteArray)] ["a"]
      (by decide +kernel) (by simpa using ha)
  intro path hpath variant
  rcases List.mem_cons.1 hpath with rfl | hpath
  · exact (ha variant).choose_spec.buildable
  · cases List.mem_singleton.1 hpath
    exact (hb variant).choose_spec.buildable

/-- Nothing is on the disk at first. -/
def emptyDepot : Depot (Named StoredObject) := ⟨∅, ⟨∅, []⟩⟩

/-- Two packages, of which one imports the other, are published with one table, whichever is named
first and how often, and both times it is this table that is read back. -/
theorem exists_one_table_overTwoPackages :
    let publish (paths : List String) := publishAll Bundle.frontEnd keepAll tableSettings
      overTwoPackages paths ⟨∅, false, []⟩ emptyDepot
    ∃ report c' depot₁ report₁ c₁' depot₁' table,
      publish ["b", "a", "b"] = (.ok report, c', depot₁) ∧
      publish ["a", "b"] = (.ok report₁, c₁', depot₁') ∧
      Published keepAll tableSettings emptyDepot depot₁ report table ∧
      Published keepAll tableSettings emptyDepot depot₁' report₁ table ∧
      LookupTable.load depot₁.disk tableSettings.tablePath = .ok table ∧
      LookupTable.load depot₁'.disk tableSettings.tablePath = .ok table ∧
      "a" ∈ table ∧ "b" ∈ table ∧
      ∀ p entry, table[p]? = some entry → IsFreshEntry overTwoPackages.sources "go" p entry := by
  intro publish
  have hbuildable := buildable_overTwoPackages
  have hmem : ∀ p, p ∈ ["a", "b"] ↔ p ∈ ["b", "a", "b"] := by
    intro p
    simp only [List.mem_cons, List.not_mem_nil, or_false]
    tauto
  obtain ⟨report, c', depot₁, h⟩ : ∃ report c' depot₁,
      publish ["b", "a", "b"] = (.ok report, c', depot₁) :=
    exists_publishAll_eq_ok rfl rfl rfl (fun p hp => hbuildable p ((hmem p).2 hp))
      storesAll_keepAll exists_save_table
  obtain ⟨report₁, c₁', depot₁', h₁⟩ : ∃ report₁ c₁' depot₁',
      publish ["a", "b"] = (.ok report₁, c₁', depot₁') :=
    exists_publishAll_eq_ok rfl rfl rfl hbuildable storesAll_keepAll exists_save_table
  obtain ⟨table, hpublished, htable, hfresh, hsame⟩ := publishAll_eq_fresh_builds h
  have hpublished₁ := hsame keepAll tableSettings ["a", "b"] _ _ _ _ _ rfl hmem h₁
  have hlink : LookupTable.HasNoLink tableSettings.tablePath emptyDepot.disk :=
    LookupTable.hasNoLink_empty (by decide)
  have hdraft : LookupTable.HasNoLink (LookupTable.draftPath tableSettings.tablePath)
      emptyDepot.disk :=
    LookupTable.hasNoLink_empty (by decide)
  exact ⟨report, c', depot₁, report₁, c₁', depot₁', table, h, h₁, hpublished, hpublished₁,
    hpublished.load storesAll_keepAll hlink hdraft,
    hpublished₁.load storesAll_keepAll hlink hdraft,
    (htable "a").2 (.of_mem (by decide)), (htable "b").2 (.of_mem (by decide)), hfresh⟩

end Publisher

end Playground
