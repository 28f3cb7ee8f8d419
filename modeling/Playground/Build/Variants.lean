import Playground.Build.Session

/-!
# Builds in both variants

Two sessions, one for each variant, build the same roots from the same sources side by side.  The
first failure of either ends the build; a session whose own pass has come to its end by then keeps
its units.
-/

namespace Playground

/-- Something for each variant. -/
structure PerVariant (α : Type) where
  optimized : α
  full : α
  deriving DecidableEq, Repr

namespace PerVariant

def get (x : PerVariant α) : Variant → α
  | .optimized => x.optimized
  | .full => x.full

def set (x : PerVariant α) (variant : Variant) (a : α) : PerVariant α :=
  match variant with
  | .optimized => { x with optimized := a }
  | .full => { x with full := a }

def map (f : α → β) (x : PerVariant α) : PerVariant β := ⟨f x.optimized, f x.full⟩

end PerVariant

/-- One session for each variant. -/
abbrev VariantSessions := PerVariant BuildSession

/-- The units of both variants. -/
abbrev VariantUnits := PerVariant UnitSet

namespace VariantSessions

variable {σ : Type}

def new : VariantSessions := ⟨.new .optimized, .new .full⟩

def units (s : VariantSessions) : VariantUnits := s.map BuildSession.units

/-- The pass to go on: the one whose turn it is, unless it has come to its end. -/
def next (schedule : Schedule) (left : Nat) (passes : PerVariant Pass) : Variant :=
  let variant := schedule.turn left
  if (passes.get variant).result.isNone then variant
  else if passes.optimized.result.isNone then .optimized
  else .full

/-- So many steps of the two passes, up to the first failure. -/
def steps (frontEnd : FrontEnd σ) (schedule : Schedule) :
    Nat → PerVariant Pass → BuildContext σ →
      Except BuildError Unit × PerVariant Pass × BuildContext σ
  | 0, passes, c => (.ok (), passes, c)
  | left + 1, passes, c =>
    let variant := next schedule (left + 1) passes
    match ((passes.get variant).step frontEnd schedule).run c with
    | (.error e, c) => (.error e, passes, c)
    | (.ok p, c) => steps frontEnd schedule left (passes.set variant p) c

/-- Fails when the two sets are not made of the same packages. -/
def checkParity (units : VariantUnits) : Except BuildError Unit :=
  let onlyOptimized := units.optimized.keys.filter fun path => !units.full.contains path
  let onlyFull := units.full.keys.filter fun path => !units.optimized.contains path
  if onlyOptimized = [] ∧ onlyFull = [] then .ok ()
  else .error (.variantMismatch onlyOptimized onlyFull)

/-- Builds what the roots need in both variants. -/
def build (frontEnd : FrontEnd σ) (schedule : Schedule) (sources : View) (ext : String)
    (roots : List String) (s : VariantSessions) (c : BuildContext σ) :
    Except BuildError VariantUnits × VariantSessions × BuildContext σ :=
  let start : BuildM σ (PerVariant Pass) := do
    let optimized ← Pass.start schedule sources ext roots s.optimized
    let full ← Pass.start schedule sources ext roots s.full
    return ⟨optimized, full⟩
  match start.run c with
  | (.error e, c) => (.error e, s, c)
  | (.ok passes, c) =>
    let left := passes.optimized.stepsLeft + passes.full.stepsLeft
    match steps frontEnd schedule left passes c with
    | (.error e, passes, c) => (.error e, passes.map Pass.session, c)
    | (.ok (), passes, c) =>
      let units := passes.map Pass.units
      match checkParity units with
      | .error e => (.error e, passes.map Pass.session, c)
      | .ok () => (.ok units, passes.map Pass.session, c)

end VariantSessions

end Playground
