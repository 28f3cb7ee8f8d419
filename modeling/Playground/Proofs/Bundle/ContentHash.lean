import Mathlib.Data.Set.Function
import Playground.Proofs.Build.Refinement
import Playground.Proofs.Bundle.ModuleText
import Playground.Proofs.Digest
import Playground.Proofs.Rendered

/-!
# Digests of modules follow the sources

Two builds that bundle a package in the full variant give modules with the same digest exactly when
the package needs the same packages in both trees, with the same source files (`SameClosure`).  From
the sources to the digest nothing but the closure of the package goes in (`SameClosure.unit_eq`).
From the digest to the sources, the module gives back the payload, the payload gives back the files
and the digests of the payloads below it, and so on down the imports (`SameClosure.of_payload`).

The second direction needs that different contents which occur in the builds have different digests.
-/

namespace Playground

open Relation
open Playground.Bundle

variable {sources sources' : View} {ext path : String} {unit unit' : CompiledUnit}

/-- A package needs the same packages in two trees, and these have the same source files. -/
structure SameClosure (sources sources' : View) (ext path : String) : Prop where
  paths : ∀ q, ReflTransGen (Imports sources ext) path q ↔
    ReflTransGen (Imports sources' ext) path q
  files : ∀ q, ReflTransGen (Imports sources ext) path q → ∀ package package',
    Package.load sources ext q = .ok package → Package.load sources' ext q = .ok package' →
      package.files = package'.files

theorem SameClosure.of_imports {package : Package}
    (hload : Package.load sources ext path = .ok package)
    (hload' : Package.load sources' ext path = .ok package)
    (h : ∀ d ∈ package.imports, SameClosure sources sources' ext d) :
    SameClosure sources sources' ext path := by
  have hd {d : String} (hd : d ∈ package.imports) :
      Imports sources ext path d ∧ Imports sources' ext path d :=
    ⟨(imports_iff_of_load hload).2 hd, (imports_iff_of_load hload').2 hd⟩
  constructor
  · intro q
    rw [ReflTransGen.cases_head_iff, ReflTransGen.cases_head_iff]
    refine or_congr_right ⟨?_, ?_⟩
    · rintro ⟨d, hpd, hdq⟩
      have hmem := (imports_iff_of_load hload).1 hpd
      exact ⟨d, (hd hmem).2, ((h d hmem).paths q).1 hdq⟩
    · rintro ⟨d, hpd, hdq⟩
      have hmem := (imports_iff_of_load hload').1 hpd
      exact ⟨d, (hd hmem).1, ((h d hmem).paths q).2 hdq⟩
  · intro q hq p p' hp hp'
    rcases ReflTransGen.cases_head_iff.1 hq with rfl | ⟨d, hpd, hdq⟩
    · rw [hload] at hp
      rw [hload'] at hp'
      cases hp
      cases hp'
      rfl
    · exact (h d ((imports_iff_of_load hload).1 hpd)).files q hdq p p' hp hp'

/-- What lies outside the closure of a package does not change its unit. -/
theorem SameClosure.unit_eq {f : CompileRequest → Outcome} {variant : Variant}
    (h : SameClosure sources sources' ext path) (hm : Meaning sources ext f variant path unit)
    (hm' : Meaning sources' ext f variant path unit') : unit = unit' := by
  refine (hm.congr fun q hq => ?_).unique hm'
  obtain ⟨_, hq₁⟩ := hm.of_reaches hq
  obtain ⟨_, hq₂⟩ := hm'.of_reaches ((h.paths q).1 hq)
  obtain ⟨package, hload⟩ := hq₁.loads
  obtain ⟨package', hload'⟩ := hq₂.loads
  rw [hload, hload', Package.eq_of_load hload hload' (h.files q hq package package' hload hload')]

/-- Payloads that are equal come from the same closure, if different payloads have different
digests. -/
theorem SameClosure.of_payload (hm : Meaning sources ext outcome .full path unit)
    (hm' : Meaning sources' ext outcome .full path unit')
    (hinj : ∀ q u u', ReflTransGen (Imports sources ext) path q →
      ReflTransGen (Imports sources' ext) path q → Meaning sources ext outcome .full q u →
      Meaning sources' ext outcome .full q u' →
      Digest.ofBytes u.payload = Digest.ofBytes u'.payload → u.payload = u'.payload)
    (hpayload : unit.payload = unit'.payload) : SameClosure sources sources' ext path := by
  induction hm generalizing unit' with
  | @built path package unit unitOf load imports built ih =>
    cases hm' with
    | @built _ package' _ unitOf' load' imports' built' =>
      obtain ⟨text, htext, rfl⟩ := of_outcome built
      obtain ⟨text', htext', rfl⟩ := of_outcome built'
      cases String.toByteArray_inj.1 hpayload
      obtain ⟨hfiles, hdependencies⟩ := payload_inj rfl rfl htext htext'
      cases Package.eq_of_load load load' hfiles
      rw [List.map_map, List.map_map] at hdependencies
      refine .of_imports load load' fun d hd => ?_
      have hpd : Imports sources ext path d := (imports_iff_of_load load).2 hd
      have hpd' : Imports sources' ext path d := (imports_iff_of_load load').2 hd
      have hdigest : Digest.ofBytes (unitOf d).payload = Digest.ofBytes (unitOf' d).payload :=
        congrArg Prod.snd (List.map_eq_map_iff.1 hdependencies d hd)
      refine ih d hd (imports' d hd) (fun q u u' hq hq' => ?_) ?_
      · exact hinj q u u' (.head hpd hq) (.head hpd' hq')
      · exact hinj d _ _ (.single hpd) (.single hpd') (imports d hd) (imports' d hd) hdigest

/-! ### Modules -/

theorem Meaning.exists_text {variant : Variant}
    (hm : Meaning sources ext outcome variant path unit) :
    ∃ (request : CompileRequest) (text : String) (texts : List (String × String)),
      request.variant = variant ∧ unit.payload = text.toByteArray ∧
        text.toList = Text.unlines (payloadLines request texts) := by
  cases hm with
  | @built _ package _ unitOf load imports built =>
    obtain ⟨text, htext, rfl⟩ := of_outcome built
    obtain ⟨texts, -, hlines⟩ := payload_eq_ok htext
    exact ⟨_, text, texts, rfl, rfl, hlines⟩

theorem payloadLines_ne_nil {request : CompileRequest} {texts : List (String × String)}
    (h : request.variant = .full) : payloadLines request texts ≠ [] := by
  rw [payloadLines, h]
  exact List.cons_ne_nil _ _

/-- Full modules of one package that are equal have equal payloads. -/
theorem payload_eq_of_render {a a' : Artifact} (hm : Meaning sources ext outcome .full path unit)
    (hm' : Meaning sources' ext outcome .full path unit')
    (h : Artifact.render unit .full = .ok a) (h' : Artifact.render unit' .full = .ok a')
    (hbytes : a.bytes = a'.bytes) : unit.payload = unit'.payload := by
  obtain ⟨request, text, texts, hfull, hpayload, hlines⟩ := hm.exists_text
  obtain ⟨request', text', texts', hfull', hpayload', hlines'⟩ := hm'.exists_text
  rw [Artifact.render_of_payload hpayload] at h
  rw [Artifact.render_of_payload hpayload'] at h'
  cases h
  cases h'
  have hpath : unit.importPath = unit'.importPath :=
    (hm.importPath faithful_outcome).trans (hm'.importPath faithful_outcome).symm
  have htext : text = text' :=
    Artifact.payload_eq_of_moduleText (payloadLines_ne_nil hfull) (payloadLines_ne_nil hfull')
      (isPayload_payloadLines request texts) (isPayload_payloadLines request' texts') hlines hlines'
      hpath (String.toByteArray_inj.1 hbytes)
  rw [hpayload, hpayload', htext]

/-! ### Builds -/

def UnitSet.payloads (units : UnitSet) : Set ByteArray :=
  {b | ∃ (path : String) (unit : CompiledUnit), units[path]? = some unit ∧ unit.payload = b}

def UnitSet.modules (units : UnitSet) : Set ByteArray :=
  {b | ∃ (path : String) (unit : CompiledUnit) (a : Artifact),
    units[path]? = some unit ∧ Artifact.render unit .full = .ok a ∧ a.bytes = b}

/-- A build that bundles in the full variant has the meaning of each of its roots. -/
theorem exists_meaning_of_build {schedule : Schedule} {roots : List String}
    {c c' : BuildContext MemoryTree} {units : UnitSet} {session : BuildSession}
    (h : BuildSession.build frontEnd schedule sources ext roots (.new .full) c =
      (.ok units, session, c')) :
    UnitSet.IsMeaningOf sources ext outcome .full roots units := by
  have hspec := BuildSession.build_spec faithful_outcome computes_outcome schedule roots c
    (UnitSet.isSound_empty : UnitSet.IsSound sources ext outcome (BuildSession.new .full).variant
      (BuildSession.new .full).units)
  rw [h] at hspec
  exact hspec.1

/-- In two builds on fresh sessions that bundle a package in the full variant, its modules have the
same digest exactly when it needs the same packages in both trees, with the same source files,
provided that neither payloads nor modules of the two builds collide. -/
theorem digest_eq_iff_sameClosure {schedule schedule' : Schedule} {roots roots' : List String}
    {c c' d d' : BuildContext MemoryTree} {units units' : UnitSet}
    {session session' : BuildSession}
    (h : BuildSession.build frontEnd schedule sources ext roots (.new .full) c =
      (.ok units, session, d))
    (h' : BuildSession.build frontEnd schedule' sources' ext roots' (.new .full) c' =
      (.ok units', session', d'))
    (hpath : path ∈ roots) (hpath' : path ∈ roots')
    (hpayloads : Set.InjOn Digest.ofBytes (units.payloads ∪ units'.payloads))
    (hmodules : Set.InjOn Digest.ofBytes (units.modules ∪ units'.modules)) :
    ∃ unit unit' a a', units[path]? = some unit ∧ units'[path]? = some unit' ∧
      Artifact.render unit .full = .ok a ∧ Artifact.render unit' .full = .ok a' ∧
      (a.digest = a'.digest ↔ SameClosure sources sources' ext path) := by
  have hunits := exists_meaning_of_build h
  have hunits' := exists_meaning_of_build h'
  obtain ⟨unit, hunit⟩ := Named.mem_iff.1 ((hunits.mem path).2 (.of_mem hpath))
  obtain ⟨unit', hunit'⟩ := Named.mem_iff.1 ((hunits'.mem path).2 (.of_mem hpath'))
  have hm := hunits.meaning path unit hunit
  have hm' := hunits'.meaning path unit' hunit'
  obtain ⟨-, text, -, -, htext, -⟩ := hm.exists_text
  obtain ⟨-, text', -, -, htext', -⟩ := hm'.exists_text
  obtain ⟨a, ha⟩ : ∃ a, Artifact.render unit .full = .ok a :=
    ⟨_, Artifact.render_of_payload htext .full⟩
  obtain ⟨a', ha'⟩ : ∃ a, Artifact.render unit' .full = .ok a :=
    ⟨_, Artifact.render_of_payload htext' .full⟩
  refine ⟨unit, unit', a, a', hunit, hunit', ha, ha', ?_⟩
  constructor
  · intro hdigest
    rw [Artifact.digest_of_render ha, Artifact.digest_of_render ha'] at hdigest
    have hbytes := hmodules (.inl ⟨path, unit, _, hunit, ha, rfl⟩)
      (.inr ⟨path, unit', _, hunit', ha', rfl⟩) hdigest
    refine .of_payload hm hm' (fun q u u' hq hq' hu hu' hdigest => ?_)
      (payload_eq_of_render hm hm' ha ha' hbytes)
    have hmem : units[q]? = some u := hunits.getElem? ⟨path, hpath, hq⟩ hu
    have hmem' : units'[q]? = some u' := hunits'.getElem? ⟨path, hpath', hq'⟩ hu'
    exact hpayloads (.inl ⟨q, u, hmem, rfl⟩) (.inr ⟨q, u', hmem', rfl⟩) hdigest
  · intro hsame
    cases hsame.unit_eq hm hm'
    rw [ha] at ha'
    cases ha'
    rfl

/-! ### A package that imports another one -/

/-- The units in the full variant of `b`, which imports `a` alone, and of `a`, which imports
nothing. -/
def pair? (sources : View) : Option (CompiledUnit × CompiledUnit) := do
  let a ← (Package.load sources "go" "a").toOption
  let imported ← (compile ⟨a, [], .full⟩).toOption
  let b ← (Package.load sources "go" "b").toOption
  let importing ← (compile ⟨b, [imported], .full⟩).toOption
  if a.imports = [] ∧ b.imports = ["a"] then some (imported, importing) else none

theorem pair?_eq_some {a b : CompiledUnit} (h : pair? sources = some (a, b)) :
    Meaning sources "go" outcome .full "a" a ∧ Meaning sources "go" outcome .full "b" b ∧
      ∀ q, Needs sources "go" ["b"] q → q = "a" ∨ q = "b" := by
  simp only [pair?, Option.bind_eq_bind, Option.bind_eq_some_iff, Results.toOption_eq_some] at h
  obtain ⟨pa, hloada, ua, hua, pb, hloadb, ub, hub, hpair⟩ := h
  split at hpair
  · rename_i himports
    obtain ⟨hleaf, himporting⟩ := himports
    cases hpair
    have ha : Meaning sources "go" outcome .full "a" a := by
      refine .built (fun _ => a) hloada ?_ ?_
      · rw [hleaf]
        nofun
      · rw [hleaf]
        exact outcome_eq_built.2 hua
    refine ⟨ha, .built (fun _ => a) hloadb ?_ ?_, fun q hq => ?_⟩
    · rw [himporting]
      simpa using ha
    · rw [himporting]
      exact outcome_eq_built.2 hub
    · refine hq.induction (P := fun q => q = "a" ∨ q = "b") (by simp) ?_
      rintro p d hd (rfl | rfl)
      · rw [imports_iff_of_load hloada, hleaf] at hd
        cases hd
      · rw [imports_iff_of_load hloadb, himporting, List.mem_singleton] at hd
        exact .inl hd
  · cases hpair

/-- The payloads of `a` and `b` in such a tree, by the digest of the sources of `a`, its quoted text
and the digest of its payload. -/
def textsOf (sources text payload : String) : String × String :=
  ("// sources " ++ sources ++ "\n$file(\"a.go\", " ++ text ++ ");" ++ "\n",
    "// sources 28fb996a568d\n$dep(\"a\", \"" ++ payload ++ "\");\n" ++
      "$file(\"b.go\", \"package b\\nimport \\\"a\\\"\\n\");" ++ "\n")

def unitsOf (texts : String × String) : CompiledUnit × CompiledUnit :=
  (⟨"a", texts.1.toByteArray, []⟩, ⟨"b", texts.2.toByteArray, ["a"]⟩)

def contentsOf (texts : String × String) : List ByteArray :=
  let opened (unit : CompiledUnit) := Artifact.commentLines unit ++
    Artifact.openLine unit.importPath ++ "".intercalate (unit.dependencies.map Artifact.loadLine)
  let units := unitsOf texts
  [units.1.payload, units.2.payload,
    (opened units.1 ++ texts.1 ++ Artifact.closeLine).toByteArray,
    (opened units.2 ++ texts.2 ++ Artifact.closeLine).toByteArray]

theorem endLine_append (s : String) : Artifact.endLine (s ++ "\n") = s ++ "\n" := by
  rw [Artifact.endLine, if_pos]
  simp

theorem exists_build_of_pair? {texts : String × String}
    (h : pair? sources = some (unitsOf texts))
    (hlines : ∃ lines lines', texts = (lines ++ "\n", lines' ++ "\n")) :
    ∃ units session c, BuildSession.build frontEnd .inOrder sources "go" ["b"] (.new .full)
        ⟨∅, false, []⟩ = (.ok units, session, c) ∧ units["b"]? = some (unitsOf texts).2 ∧
      units.payloads ⊆ {x | x ∈ contentsOf texts} ∧ units.modules ⊆ {x | x ∈ contentsOf texts} := by
  obtain ⟨ha, hb, hneeds⟩ := pair?_eq_some h
  obtain ⟨units, session, c, hbuild⟩ : ∃ units session c, BuildSession.build frontEnd .inOrder
      sources "go" ["b"] (.new .full) ⟨∅, false, []⟩ = (.ok units, session, c) :=
    BuildSession.exists_build_eq_ok faithful_outcome computes_outcome rfl rfl rfl
      UnitSet.isSound_empty hb.buildable
  have hunits := exists_meaning_of_build hbuild
  have hpair {q : String} {u : CompiledUnit} (hu : units[q]? = some u) :
      u = (unitsOf texts).1 ∨ u = (unitsOf texts).2 := by
    have hm := hunits.meaning q u hu
    rcases hneeds q ((hunits.mem q).1 (Named.mem_of_getElem? hu)) with rfl | rfl
    · exact .inl (hm.unique ha)
    · exact .inr (hm.unique hb)
  refine ⟨units, session, c, hbuild,
    hunits.getElem? (.of_mem (List.mem_singleton_self "b")) hb, ?_, ?_⟩
  · rintro x ⟨q, u, hu, rfl⟩
    rcases hpair hu with rfl | rfl <;> simp [contentsOf]
  · obtain ⟨lines, lines', rfl⟩ := hlines
    rintro x ⟨q, u, m, hu, hm, rfl⟩
    rcases hpair hu with rfl | rfl
    · rw [Artifact.render_of_payload rfl] at hm
      cases hm
      simp [contentsOf, unitsOf, Artifact.variantText, Artifact.moduleText, endLine_append]
    · rw [Artifact.render_of_payload rfl] at hm
      cases hm
      simp [contentsOf, unitsOf, Artifact.variantText, Artifact.moduleText, endLine_append]

/-- Two packages, and a third one that imports them. -/
def threePackages : MemoryTree :=
  (BuildSession.twoPackages.addDirs ["src", "c"]).put ["src", "c", "c.go"]
    "package c\nimport \"b\"\n".toByteArray

/-- Two packages, of which the imported one has lost its last line feed. -/
def changedPackages : MemoryTree :=
  BuildSession.twoPackages.put ["src", "a", "a.go"] "package a".toByteArray

theorem pair?_threePackages : pair? threePackages.view = pair? BuildSession.twoPackages.view := by
  obtain ⟨a, hloada, hfilesa, -, -⟩ := BuildSession.load_imported
  obtain ⟨b, hloadb, hfilesb, -, -⟩ := BuildSession.load_importing
  obtain ⟨a', hloada', hfilesa', -, -⟩ := exists_accepted threePackages.view "go" "a"
    [("a.go", "package a\n".toByteArray)] [] (by decide +kernel)
  obtain ⟨b', hloadb', hfilesb', -, -⟩ := exists_accepted threePackages.view "go" "b"
    [("b.go", "package b\nimport \"a\"\n".toByteArray)] ["a"] (by decide +kernel)
  have hsamea : a.files = a'.files := Std.ExtTreeMap.toList_inj.1 (hfilesa.trans hfilesa'.symm)
  have hsameb : b.files = b'.files := Std.ExtTreeMap.toList_inj.1 (hfilesb.trans hfilesb'.symm)
  cases Package.eq_of_load hloada hloada' hsamea
  cases Package.eq_of_load hloadb hloadb' hsameb
  rw [pair?, pair?, hloada, hloada', hloadb, hloadb']

def twoTexts : String × String :=
  textsOf "6357007eb7f2" "\"package a\\n\""
    "9040bb7687164341ae50bfc40bed43ca9d52c1fa5df675aa9967400d85dcd5da"

/-- Their payloads when the imported package has changed. -/
def changedTexts : String × String :=
  textsOf "2ab4471813f9" "\"package a\""
    "04820161a829258e3775dc01300ffbafef98e1e655e5d9282d02f363f41a1c6f"

theorem pair?_twoPackages : pair? BuildSession.twoPackages.view = some (unitsOf twoTexts) := by
  decide +kernel

theorem pair?_changedPackages : pair? changedPackages.view = some (unitsOf changedTexts) := by
  decide +kernel

/-- The first two digits of their digests tell the payloads and the modules apart. -/
theorem injOn_contents :
    Set.InjOn Digest.ofBytes {x | x ∈ contentsOf twoTexts ++ contentsOf changedTexts} := by
  have hdigits : (contentsOf twoTexts ++ contentsOf changedTexts).map
      (fun b => (Digest.ofBytes b).start) =
      [[0x39, 0x30], [0x34, 0x39], [0x31, 0x39], [0x64, 0x32], [0x30, 0x34], [0x62, 0x34],
        [0x65, 0x31], [0x62, 0x65]] := by
    decide +kernel
  apply Digest.injOn_of_nodup
  rw [hdigits]
  decide

theorem not_sameClosure_changedPackages :
    ¬ SameClosure BuildSession.twoPackages.view changedPackages.view "go" "b" := by
  intro hsame
  obtain ⟨a, hloada, hfiles, -, -⟩ := BuildSession.load_imported
  obtain ⟨b, hloadb, -, himports, -⟩ := BuildSession.load_importing
  obtain ⟨changed, hloadchanged, hchanged, -, -⟩ := exists_accepted changedPackages.view "go" "a"
    [("a.go", "package a".toByteArray)] [] (by decide +kernel)
  have hreaches : ReflTransGen (Imports BuildSession.twoPackages.view "go") "b" "a" :=
    .single ((imports_iff_of_load hloadb).2 (by rw [himports]; exact List.mem_singleton_self "a"))
  have hsources : "package a\n".toByteArray = "package a".toByteArray := by
    rw [← hsame.files "a" hreaches a changed hloada hloadchanged, hfiles] at hchanged
    simpa using hchanged
  exact absurd hsources (by decide +kernel)

/-- The module that a fresh build of a package gives in the full variant. -/
def IsModule (sources : View) (path : String) (a : Artifact) : Prop :=
  ∃ units unit, (BuildSession.build frontEnd .inOrder sources "go" [path] (.new .full)
      ⟨∅, false, []⟩).1 = .ok units ∧ units[path]? = some unit ∧
    Artifact.render unit .full = .ok a

/-- A package that is added above another one leaves the digest of its module as it is, and a
package below it that changes does not. -/
theorem exists_modules_twoPackages : ∃ a a' changed : Artifact,
    IsModule BuildSession.twoPackages.view "b" a ∧ IsModule threePackages.view "b" a' ∧
    IsModule changedPackages.view "b" changed ∧ a.digest = a'.digest ∧
    SameClosure BuildSession.twoPackages.view threePackages.view "go" "b" ∧
    a.digest ≠ changed.digest ∧
    ¬ SameClosure BuildSession.twoPackages.view changedPackages.view "go" "b" := by
  have hpair₃ := pair?_threePackages.trans pair?_twoPackages
  obtain ⟨units, _, _, hbuild, hunit, hpayloads, hmodules⟩ :=
    exists_build_of_pair? pair?_twoPackages ⟨_, _, rfl⟩
  obtain ⟨units₃, _, _, hbuild₃, hunit₃, hpayloads₃, hmodules₃⟩ :=
    exists_build_of_pair? hpair₃ ⟨_, _, rfl⟩
  obtain ⟨units', _, _, hbuild', hunit', hpayloads', hmodules'⟩ :=
    exists_build_of_pair? pair?_changedPackages ⟨_, _, rfl⟩
  have hold : {x | x ∈ contentsOf twoTexts} ⊆
      {x | x ∈ contentsOf twoTexts ++ contentsOf changedTexts} :=
    fun _ => List.mem_append_left _
  have hnew : {x | x ∈ contentsOf changedTexts} ⊆
      {x | x ∈ contentsOf twoTexts ++ contentsOf changedTexts} :=
    fun _ => List.mem_append_right _
  obtain ⟨u, u₃, a, a₃, hu, hu₃, ha, ha₃, hiff₃⟩ := digest_eq_iff_sameClosure hbuild hbuild₃
    List.mem_cons_self List.mem_cons_self
    (injOn_contents.mono (Set.union_subset (hpayloads.trans hold) (hpayloads₃.trans hold)))
    (injOn_contents.mono (Set.union_subset (hmodules.trans hold) (hmodules₃.trans hold)))
  obtain ⟨v, u', b, a', hv, hu', hb, ha', hiff'⟩ := digest_eq_iff_sameClosure hbuild hbuild'
    List.mem_cons_self List.mem_cons_self
    (injOn_contents.mono (Set.union_subset (hpayloads.trans hold) (hpayloads'.trans hnew)))
    (injOn_contents.mono (Set.union_subset (hmodules.trans hold) (hmodules'.trans hnew)))
  rw [hunit] at hu hv
  rw [hunit₃] at hu₃
  rw [hunit'] at hu'
  cases hu
  cases hu₃
  cases hv
  cases hu'
  rw [ha] at ha₃ hb
  cases ha₃
  cases hb
  exact ⟨a, a, a', ⟨units, _, congrArg Prod.fst hbuild, hunit, ha⟩,
    ⟨units₃, _, congrArg Prod.fst hbuild₃, hunit₃, ha⟩,
    ⟨units', _, congrArg Prod.fst hbuild', hunit', ha'⟩, rfl, hiff₃.1 rfl,
    fun hdigest => not_sameClosure_changedPackages (hiff'.1 hdigest),
    not_sameClosure_changedPackages⟩

end Playground
