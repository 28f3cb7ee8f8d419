import Playground.Delta
import Playground.Proofs.Named
import Playground.Proofs.Results

/-!
# What rendering gives

The packages of a rendered set are those that have a full unit, and each is rendered from its own
two units (`RenderedSet.of_render`).  Every module carries the digest of its bytes
(`RenderedSet.isSound_of_render`).
-/

namespace Playground

/-- Every module carries the digest of its bytes. -/
def RenderedSet.IsSound (rendered : RenderedSet) : Prop :=
  ∀ (path : String) (package : RenderedPackage), rendered[path]? = some package →
    ∀ variant, (package.get variant).digest = .ofBytes (package.get variant).bytes

theorem Artifact.render_of_payload {unit : CompiledUnit} {text : String}
    (h : unit.payload = text.toByteArray) (variant : Variant) :
    render unit variant = .ok ⟨unit.importPath, variant,
      (variantText variant (moduleText unit text)).toByteArray,
      .ofBytes (variantText variant (moduleText unit text)).toByteArray⟩ := by
  rw [render, h, Bytes.Utf8.decode_toByteArray]

theorem Artifact.of_render {unit : CompiledUnit} {variant : Variant} {a : Artifact}
    (h : render unit variant = .ok a) : a.variant = variant ∧ a.digest = .ofBytes a.bytes := by
  unfold render at h
  split at h
  · cases h
  · cases h
    exact ⟨rfl, rfl⟩

theorem Artifact.digest_of_render {unit : CompiledUnit} {variant : Variant} {a : Artifact}
    (h : render unit variant = .ok a) : a.digest = .ofBytes a.bytes := (of_render h).2

namespace RenderedSet

variable {units : VariantUnits} {rendered : RenderedSet} {path : String} {full : CompiledUnit}
  {optimized : Option CompiledUnit} {package : RenderedPackage}

/-- The modules of a rendered package are of their variants and carry the digests of their bytes. -/
theorem of_renderPackage (h : renderPackage path full optimized = .ok package) (variant : Variant) :
    (package.get variant).variant = variant ∧
      (package.get variant).digest = .ofBytes (package.get variant).bytes := by
  cases optimized with
  | none => cases h
  | some optimized =>
    obtain ⟨a, ho, h⟩ := Results.bind_eq_ok.1 h
    obtain ⟨b, hf, h⟩ := Results.bind_eq_ok.1 h
    cases h
    cases variant with
    | optimized => exact Artifact.of_render ho
    | full => exact Artifact.of_render hf

/-- What is rendered are the packages that have a full unit, each from its own units. -/
theorem of_render (h : render units = .ok rendered) :
    (∀ p full, units.full[p]? = some full → ∃ package,
      renderPackage p full units.optimized[p]? = .ok package ∧ rendered[p]? = some package) ∧
        ∀ p, p ∈ rendered ↔ p ∈ units.full := by
  obtain ⟨hmade, hother⟩ := Named.of_foldlM_insert
    (g := fun path full => renderPackage path full units.optimized[path]?)
    (Named.nodup_map_fst_toList units.full) h
  have hrendered : ∀ p full, units.full[p]? = some full → ∃ package,
      renderPackage p full units.optimized[p]? = .ok package ∧ rendered[p]? = some package :=
    fun p full hp => hmade p full (Std.ExtTreeMap.mem_toList_iff_getElem?_eq_some.2 hp)
  refine ⟨hrendered, fun p => ⟨fun hp => ?_, fun hp => ?_⟩⟩
  · refine Classical.byContradiction fun hnot => ?_
    have hkeys : p ∉ units.full.toList.map Prod.fst := by
      rwa [Std.ExtTreeMap.map_fst_toList_eq_keys, Std.ExtTreeMap.mem_keys]
    obtain ⟨package, hpackage⟩ := Named.mem_iff.1 hp
    rw [hother p hkeys, Std.ExtTreeMap.getElem?_empty] at hpackage
    cases hpackage
  · obtain ⟨full, hfull⟩ := Named.mem_iff.1 hp
    obtain ⟨package, -, hpackage⟩ := hrendered p full hfull
    exact Named.mem_of_getElem? hpackage

theorem exists_render (h : ∀ p full, units.full[p]? = some full → ∃ package,
    renderPackage p full units.optimized[p]? = .ok package) :
    ∃ rendered, render units = .ok rendered :=
  Named.exists_foldlM_insert (g := fun path full => renderPackage path full units.optimized[path]?)
    fun p full hmem => h p full (Std.ExtTreeMap.mem_toList_iff_getElem?_eq_some.1 hmem)

theorem of_getElem?_render (h : render units = .ok rendered) (hp : rendered[path]? = some package) :
    ∃ full, units.full[path]? = some full ∧
      renderPackage path full units.optimized[path]? = .ok package := by
  obtain ⟨hrendered, hmem⟩ := of_render h
  obtain ⟨full, hfull⟩ := Named.mem_iff.1 ((hmem path).1 (Named.mem_of_getElem? hp))
  obtain ⟨package', hpackage', hp'⟩ := hrendered path full hfull
  rw [hp] at hp'
  cases hp'
  exact ⟨full, hfull, hpackage'⟩

theorem variant_of_render (h : render units = .ok rendered) (hp : rendered[path]? = some package)
    (variant : Variant) : (package.get variant).variant = variant := by
  obtain ⟨full, -, hpackage⟩ := of_getElem?_render h hp
  exact (of_renderPackage hpackage variant).1

theorem isSound_of_render (h : render units = .ok rendered) : rendered.IsSound := by
  intro p package hp variant
  obtain ⟨full, -, hpackage⟩ := of_getElem?_render h hp
  exact (of_renderPackage hpackage variant).2

end RenderedSet

end Playground
