import Playground.Proofs.Build.Variants
import Playground.Proofs.Bundle.FrontEnd
import Playground.Proofs.Rendered

/-!
# Bundled packages can be rendered

The payload of a bundled package is a text, so what a build in both variants gives can always be
rendered (`exists_render_of_isMeaningOf`).
-/

namespace Playground.Bundle

variable {sources : View} {ext path : String} {variant : Variant} {unit : CompiledUnit}
  {roots : List String} {units : VariantUnits}

theorem exists_text_of_meaning (h : Meaning sources ext outcome variant path unit) :
    ∃ text : String, unit.payload = text.toByteArray := by
  cases h with
  | built unitOf load imports built =>
    obtain ⟨text, -, rfl⟩ := of_outcome built
    exact ⟨text, rfl⟩

theorem exists_render_of_isMeaningOf
    (h : VariantUnits.IsMeaningOf sources ext outcome roots units) :
    ∃ rendered, RenderedSet.render units = .ok rendered := by
  refine RenderedSet.exists_render fun p full hfull => ?_
  have hp : Needs sources ext roots p := ((h .full).mem p).1 (Named.mem_of_getElem? hfull)
  obtain ⟨optimized, hoptimized⟩ := Named.mem_iff.1 (((h .optimized).mem p).2 hp)
  have hget : units.optimized[p]? = some optimized := hoptimized
  obtain ⟨text, htext⟩ := exists_text_of_meaning ((h .full).meaning p full hfull)
  obtain ⟨text', htext'⟩ := exists_text_of_meaning ((h .optimized).meaning p optimized hoptimized)
  rw [hget, RenderedSet.renderPackage, Artifact.render_of_payload htext,
    Artifact.render_of_payload htext']
  exact ⟨_, rfl⟩

end Playground.Bundle
