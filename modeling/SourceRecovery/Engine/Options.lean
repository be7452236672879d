/-!
# Engine options

The options that the engine is started with. Only the language of the sources is for the caller to
choose.
-/

namespace SourceRecovery.Engine

/-- An option of the engine: its key, what it is for, and its value (`EngineOption`). -/
structure Choice where
  key : String
  name : String
  value : String
  deriving DecidableEq, Repr

/-- How an option says whether it is on. -/
def flag (on : Bool) : String :=
  if on then "1" else "0"

/-- The options of every run; `kotlin` asks for sources in Kotlin (`profile`). -/
def profile (kotlin : Bool) : List Choice :=
  [⟨"bto", "normalize-boolean-literals", flag true⟩,
    ⟨"rsy", "keep-synthetic-members", flag false⟩,
    ⟨"dgs", "reconstruct-generic-signatures", flag true⟩,
    ⟨"iec", "use-full-classpath-for-inference", flag true⟩,
    ⟨"din", "decompile-inner-classes", flag true⟩,
    ⟨"rbr", "remove-bridge-methods", flag true⟩,
    ⟨"kt-enable", "source-language-mode", flag kotlin⟩]

end SourceRecovery.Engine
