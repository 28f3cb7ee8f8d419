import Playground.Bundle
import Playground.Proofs.Build.Meaning
import Playground.Proofs.Results

/-!
# The bundling front end is a function

What the front end that bundles leaves in its scratch tree is never read again, so its answers are
a function of the requests, and its units carry what a build records of them.
-/

namespace Playground.Bundle

/-- How bundling a package ends. -/
def outcome (request : CompileRequest) : Outcome :=
  match compile request with
  | .ok unit => .built unit
  | .error e => .rejected e

theorem outcome_eq_built {request : CompileRequest} {unit : CompiledUnit} :
    outcome request = .built unit ↔ compile request = .ok unit := by
  unfold outcome
  constructor
  · intro h
    split at h
    · rename_i unit' he
      cases h
      exact he
    · cases h
  · intro h
    rw [h]

theorem computes_outcome : frontEnd.Computes outcome := by
  intro request scratch
  unfold frontEnd outcome
  dsimp only
  cases compile request <;> rfl

theorem of_outcome {request : CompileRequest} {unit : CompiledUnit}
    (h : outcome request = .built unit) :
    ∃ text, payload request = .ok text ∧
      unit = ⟨request.package.importPath, text.toByteArray,
        request.dependencies.map CompiledUnit.importPath⟩ := by
  rw [outcome_eq_built, compile] at h
  obtain ⟨text, htext, he⟩ := Results.map_eq_ok.1 h
  exact ⟨text, htext, he.symm⟩

theorem faithful_outcome : Faithful outcome := by
  intro request unit h
  obtain ⟨text, -, rfl⟩ := of_outcome h
  exact ⟨rfl, rfl⟩

theorem isOk_fileLines (importPath : String) (variant variant' : Variant)
    (expected : Option String) (files : List (String × ByteArray)) :
    (fileLines importPath variant expected files).isOk =
      (fileLines importPath variant' expected files).isOk := by
  induction files generalizing expected with
  | nil => rfl
  | cons file files ih =>
    obtain ⟨name, content⟩ := file
    rw [fileLines, fileLines]
    split
    · rfl
    · split
      · rfl
      · split
        · rw [Results.isOk_map, Results.isOk_map]
          exact ih _
        · rfl

/-- Whether a package is accepted depends neither on its dependencies nor on the variant. -/
theorem isOk_compile (package : Package) (dependencies dependencies' : List CompiledUnit)
    (variant variant' : Variant) :
    (compile ⟨package, dependencies, variant⟩).isOk =
      (compile ⟨package, dependencies', variant'⟩).isOk := by
  rw [compile, compile, Results.isOk_map, Results.isOk_map, payload, payload]
  dsimp only
  split
  · rfl
  · rw [Results.isOk_map, Results.isOk_map]
    exact isOk_fileLines package.importPath variant variant' none package.files.toList

theorem exists_accepted (sources : View) (ext path : String) (files : List (String × ByteArray))
    (imports : List String)
    (h : (Package.load sources ext path).toOption.map (fun package =>
      (package.files.toList, package.imports, (compile ⟨package, [], .optimized⟩).isOk,
        (compile ⟨package, [], .full⟩).isOk)) = some (files, imports, true, true)) :
    ∃ package, Package.load sources ext path = .ok package ∧ package.files.toList = files ∧
      package.imports = imports ∧
        ∀ variant dependencies, ∃ unit, outcome ⟨package, dependencies, variant⟩ = .built unit := by
  obtain ⟨package, hload, hpackage⟩ := Option.map_eq_some_iff.1 h
  rw [Prod.mk.injEq, Prod.mk.injEq, Prod.mk.injEq] at hpackage
  obtain ⟨hfiles, himports, -, hfull⟩ := hpackage
  refine ⟨package, Results.toOption_eq_some.1 hload, hfiles, himports, fun variant ds => ?_⟩
  have hok : (compile ⟨package, ds, variant⟩).isOk = true := by
    rw [isOk_compile package ds [] variant .full]
    exact hfull
  obtain ⟨unit, hunit⟩ := Results.isOk_iff.1 hok
  exact ⟨unit, outcome_eq_built.2 hunit⟩

/-- A package that is accepted in both variants has units when the packages that it imports do. -/
theorem exists_meaning_of_accepted {sources : View} {ext path : String}
    (files : List (String × ByteArray)) (imports : List String)
    (h : (Package.load sources ext path).toOption.map (fun package =>
      (package.files.toList, package.imports, (compile ⟨package, [], .optimized⟩).isOk,
        (compile ⟨package, [], .full⟩).isOk)) = some (files, imports, true, true))
    (himports : ∀ d ∈ imports, ∀ variant, ∃ unit, Meaning sources ext outcome variant d unit)
    (variant : Variant) : ∃ unit, Meaning sources ext outcome variant path unit := by
  obtain ⟨package, hload, -, rfl, hbuilt⟩ := exists_accepted sources ext path files imports h
  exact Meaning.exists_of_imports hload (fun d hd => himports d hd variant) (hbuilt variant)

end Playground.Bundle
