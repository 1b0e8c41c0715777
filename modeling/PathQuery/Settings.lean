import PathQuery.Number.Decimal

/-!
# Settings

The plain values that evaluation and rendering consult.
-/

namespace PathQuery

/-- Values that change how expressions compute and how far templates may go. -/
structure Settings where
  locale : String
  /-- Numbers at most this far apart compare as equal. -/
  tolerance : Float
  /-- Whether a failed operation is an error, and not a missing result. -/
  strict : Bool
  escapeHtml : Bool
  /-- How many includes may be inside each other. -/
  maxIncludeDepth : Nat
  /-- How many items all loops of one rendering may visit. -/
  maxIterations : Nat
  /-- How many bytes one rendering may write. -/
  maxOutputSize : Nat
  deriving DecidableEq

/-- English, a tolerance of `1e-9`, lenient, no escaping, 16 includes, 100000 iterations, 16 MiB. -/
def Settings.default : Settings where
  locale := "en"
  tolerance := Float.ofScientific 1 true 9
  strict := false
  escapeHtml := false
  maxIncludeDepth := 16
  maxIterations := 100000
  maxOutputSize := 16 * 1024 * 1024

instance : Inhabited Settings := ⟨Settings.default⟩

end PathQuery
