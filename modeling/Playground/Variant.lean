/-!
# Variants

Every package is built twice: once for size, once for reading.
-/

namespace Playground

/-- What a package is built for. -/
inductive Variant where
  | optimized
  | full
  deriving DecidableEq, Repr, Inhabited

namespace Variant

def name : Variant → String
  | optimized => "optimized"
  | full => "full"

/-- The variant that a word asks for. -/
def read? : String → Option Variant
  | "optimized" | "min" => some optimized
  | "full" | "max" => some full
  | _ => none

/-- What follows the digest in a storage key. -/
def keySuffix : Variant → String
  | optimized => ".min"
  | full => ""

end Variant

end Playground
