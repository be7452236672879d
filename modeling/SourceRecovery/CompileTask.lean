import SourceRecovery.Path.Basic
import SourceRecovery.RunError
import SourceRecovery.Text.Occurrence

/-!
# Compile tasks

A build compiles each of its variants in a task of its own, such as `compileDebugKotlin`. The name
of the task gives the name of the task that recovers its sources, `decompileDebugComposable`, and
the folder `Debug` that they are written to.
-/

namespace SourceRecovery

/-- A task of a build, by its name. -/
structure CompileTask where
  name : String
  deriving DecidableEq, Repr

namespace CompileTask

/-- Whether a task compiles main sources in Kotlin, and not tests or the input of a processor
    (`is_eligible`). -/
def isEligible (task : CompileTask) : Bool :=
  let lower := Text.lowerAscii task.name.toList
  let has word := Text.occursIn (String.toList word) lower
  "compile".toList.isPrefixOf task.name.toList && has "kotlin" && !has "test" && !has "ksp" &&
    !has "kapt"

/-- The task that recovers the sources of a task's output (`decompile_task_name`). -/
def recoveryTask (task : CompileTask) : String :=
  String.ofList
    (Text.replaceAll "Kotlin".toList "Composable".toList ("de" ++ task.name).toList)

/-- The variant that a task compiles: its name without `compile`, and without `Kotlin` in any case
    (`output_dir_name`). -/
def variant (task : CompileTask) : String :=
  String.ofList
    (Text.eraseIgnoringCase "kotlin".toList
      (Text.replaceAll "compile".toList [] task.name.toList))

/-- The folder below `root` that the sources of a task's variant are written to (`output_dir`). A
    variant that is an absolute path takes the place of the root. -/
def outputFolder (root : Path) (task : CompileTask) : Path :=
  root.join (.ofText task.variant)

end CompileTask

/-- The output root of a run that is given none (`DEFAULT_OUTPUT_ROOT`). -/
def defaultOutputRoot : Path := .ofText "build/compose_decompiled"

/-- The folder that a run writes to: the root it is given, or the folder of a task's variant below
    that root (`resolve_output_dir`). -/
def outputFolder (root : Option Path) (task : Option String) : Except RunError Path :=
  let root := root.getD defaultOutputRoot
  match task with
  | none => .ok root
  | some name =>
    if (CompileTask.mk name).isEligible then .ok ((CompileTask.mk name).outputFolder root)
    else .error (.configuration (.ineligibleTask name))

/-- The libraries that a list of class paths names, each of them entries between colons
    (`resolve_classpath`). -/
def libraries (classpaths : List String) : List Path :=
  ((classpaths.flatMap (Text.pieces (· == ':'))).filter (· != "")).map Path.ofText

end SourceRecovery
