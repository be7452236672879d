import SourceRecovery.Text.Blank

/-!
# Source units

One source file as an engine hands it over: where the engine would put it, the type it declares if
that is known, its file name and its text.
-/

namespace SourceRecovery

/-- A recovered source (`EngineOutputRecord`). -/
structure SourceUnit where
  /-- The folder that the engine put it in, below the output root. -/
  folder : String
  /-- The full name of the type that it declares, with dots or slashes. -/
  qualifiedName : Option String
  /-- The name of its file. -/
  entryName : String
  content : String
  deriving DecidableEq, Repr, Inhabited

/-- Whether a unit holds nothing (`is_blank`): engines hand over an empty one for a nested type that
    they tell within the type around it. -/
def SourceUnit.isBlank (u : SourceUnit) : Bool :=
  Text.allBlank u.content || Text.allBlank u.entryName

end SourceRecovery
