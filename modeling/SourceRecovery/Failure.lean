import SourceRecovery.Text.Pieces

/-!
# Failures

A failure is told by what went wrong and, behind that, the chain of its causes.
-/

namespace SourceRecovery

/-- What went wrong and why, outermost first. -/
structure Failure where
  causes : List String
  deriving DecidableEq, Repr, Inhabited

namespace Failure

/-- A failure without a further cause. -/
def of (text : String) : Failure :=
  ⟨[text]⟩

/-- A failure with one cause. -/
def because (text cause : String) : Failure :=
  ⟨[text, cause]⟩

/-- The whole chain on one line. -/
def message (f : Failure) : String :=
  Text.join ": " f.causes

end Failure

end SourceRecovery
