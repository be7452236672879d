import SourceRecovery.Engine.Harvest
import SourceRecovery.Engine.Jar
import SourceRecovery.Engine.Options
import SourceRecovery.Engine.Staging

/-!
# The decompiler

The engine that starts a decompiler in a process of its own. It works in a folder of its own: the
inputs are staged in one half of it, the decompiler writes into the other half, and what it wrote is
harvested. Whatever happens, the folder is gone at the end.
-/

namespace SourceRecovery.Engine

/-- Why the decompiler has not done its work: the failures of `decompile` that are its own. -/
inductive DecompilerFault where
  | noScratch (cause : ScratchFault)
  | notStarted (cause : IoFault)
  /-- It ended with a status other than 0, and this on its error stream. -/
  | ended (errors : Bytes)
  deriving DecidableEq, Repr

/-- The wording of a fault. -/
def DecompilerFault.failure : DecompilerFault → Failure
  | .noScratch cause => .because "Failed to create staging directory" cause.message
  | .notStarted cause =>
    .because "Failed to execute java (ensure JRE/JDK is installed)" cause.message
  | .ended errors =>
    .of ("Vineflower decompilation failed: " ++ Text.trim (Text.decodeLossy errors))

/-- The program that runs the jar (`java_binary`). -/
def javaName (host : Host) : Bytes :=
  (host.valueOf? "COMPOSE_DECOMPILER_JAVA").getD "java"

/-- The arguments that the jar is started with (`command_args`). -/
def arguments (jar : Path) (request : Request) (source destination : Path) : List Bytes :=
  [Text.encode "-jar", jar.bytes] ++
    (profile request.kotlin).map (fun o => Text.encode ("-" ++ o.key ++ "=" ++ o.value)) ++
    request.libraries.map (fun library => Text.encode "-e=" ++ library.bytes) ++
    [source.bytes, destination.bytes]

/-- Makes the two halves of the working folder, stages the inputs in one and lets the decompiler
    write into the other: `decompile` from its folder on to the start of the jar. -/
def decompileInto (host : Host) (jar : Path) (request : Request) (source destination : Path)
    (t : FileTree) : Except Failure Unit × FileTree :=
  match t.makeFolders host.folder source with
  | (.error cause, t) => (.error (StagingFault.noFolder source cause).failure, t)
  | (.ok (), t) =>
    match t.makeFolders host.folder destination with
    | (.error cause, t) => (.error (StagingFault.noFolder destination cause).failure, t)
    | (.ok (), t) =>
      match stageInputs host.folder request.inputRoot source request.inputs t with
      | (.error fault, t) => (.error fault.failure, t)
      | (.ok (), t) =>
        match host.start (javaName host) (arguments jar request source destination) t with
        | (.error cause, t) => (.error (DecompilerFault.notStarted cause).failure, t)
        | (.ok finished, t) =>
          if finished.status ≠ 0 then
            (.error (DecompilerFault.ended finished.errors).failure, t)
          else (.ok (), t)

/-- The engine that runs a jar (`decompile` of `Vineflower`). -/
def ofJar (host : Host) (jar : Path) : Engine := fun request => do
  match ← Work.attempt (host.makeScratch "compose-decompiler-") with
  | .error cause => pure (.error (DecompilerFault.noScratch cause).failure)
  | .ok scratch =>
    let source := scratch.join ⟨"classes"⟩
    let destination := scratch.join ⟨"out"⟩
    let result ←
      match ← Work.attempt (decompileInto host jar request source destination) with
      | .error failure => pure (.error failure)
      | .ok () => harvest host.folder destination
    let _ ← Work.attempt fun t => t.removeFolders host.folder scratch
    pure result

/-- The engine that gets its jar only when it is asked to work (`LazyVineflower`). -/
def onDemand (host : Host) (option : Option Path) : Engine := fun request => do
  match ← obtainJar host option with
  | .error failure => pure (.error failure)
  | .ok jar => ofJar host jar request

end SourceRecovery.Engine
