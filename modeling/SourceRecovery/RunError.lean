import SourceRecovery.Failure
import SourceRecovery.FileTree.IoFault
import SourceRecovery.Path.Basic

/-!
# Errors of a run

The five ways in which a run ends without an outcome. Each has one message, and a chain that also
tells its causes.
-/

namespace SourceRecovery

/-- What is wrong with what a run was asked to do. -/
inductive ConfigurationFault where
  | inputInaccessible (input : Path) (cause : IoFault)
  | inputNoFolder (input : Path)
  | inputUnresolvable (input : Path) (cause : IoFault)
  | outputHoldsInput (output input : Path)
  | ineligibleTask (task : String)
  /-- A fault that comes with its own wording. -/
  | stated (text : String)
  deriving DecidableEq, Repr

/-- The wording of a fault. -/
def ConfigurationFault.message : ConfigurationFault → String
  | .inputInaccessible input cause =>
    "input directory " ++ input.text ++ " is not accessible: " ++ cause.message
  | .inputNoFolder input => "input path " ++ input.text ++ " is not a directory"
  | .inputUnresolvable input cause =>
    "cannot resolve input directory " ++ input.text ++ ": " ++ cause.message
  | .outputHoldsInput output input =>
    "output directory " ++ output.text ++ " contains the input directory " ++ input.text
  | .ineligibleTask task => task ++ " is not a main-source Kotlin compile task"
  | .stated text => text

/-- How a run fails (`DecompileError`). -/
inductive RunError where
  /-- The run is not possible as it was asked for; nothing is touched. -/
  | configuration (fault : ConfigurationFault)
  /-- A class file, or the tree of them, could not be read. -/
  | scan (file : Path) (cause : Failure)
  /-- The engine gave up. -/
  | engine (cause : Failure)
  /-- A source could not be written. -/
  | outputWrite (file : Path) (cause : IoFault)
  /-- The output folder could not be emptied. -/
  | outputReset (folder : Path) (cause : IoFault)
  deriving DecidableEq, Repr

namespace RunError

/-- The wording of an error, without its causes. -/
def message : RunError → String
  | .configuration fault => "invalid configuration: " ++ fault.message
  | .scan file _ => "failed to scan class file " ++ file.text
  | .engine _ => "decompilation engine failed"
  | .outputWrite file _ => "failed to write decompiled source " ++ file.text
  | .outputReset folder _ => "failed to reset output directory " ++ folder.text

/-- The causes of an error, outermost first. -/
def causes : RunError → List String
  | .configuration _ => []
  | .scan _ cause => cause.causes
  | .engine cause => cause.causes
  | .outputWrite _ cause => [cause.message]
  | .outputReset _ cause => [cause.message]

/-- An error with all its causes on one line (`cause_chain`). -/
def chain (e : RunError) : String :=
  (Failure.mk (e.message :: e.causes)).message

end RunError

end SourceRecovery
