import SourceRecovery.ClassFile.Basic
import SourceRecovery.Event
import SourceRecovery.FileTree.Operations
import SourceRecovery.FileTree.Walk
import SourceRecovery.Path.FileName
import SourceRecovery.RunError

/-!
# Selection

The class files below a folder, and those among them that declare a method with a marker annotation.
Selecting changes nothing, keeps the order of the walk, and fails at the first file that is no class
file; what stands behind the first marked method of a file does not count.
-/

namespace SourceRecovery

/-- The marker that is looked for unless another is named (`COMPOSABLE_DESCRIPTOR`). -/
def defaultMarker : String := "Landroidx/compose/runtime/Composable;"

/-- Why a file cannot be scanned: the contexts of `annotated_method`. -/
inductive ScanFault where
  | notOpened (file : Path) (cause : IoFault)
  | empty (file : Path)
  | notMapped (file : Path) (cause : IoFault)
  | malformed (file : Path) (fault : ClassFile.Fault)
  deriving DecidableEq, Repr

/-- The wording of a fault. -/
def ScanFault.failure : ScanFault → Failure
  | .notOpened file cause => .because ("Failed to open class file: " ++ file.text) cause.message
  | .empty file =>
    .because ("Empty class file: " ++ file.text) (ClassFile.Fault.truncated .file 0).message
  | .notMapped file cause => .because ("Failed to mmap class file: " ++ file.text) cause.message
  | .malformed file fault => .because ("Malformed class file: " ++ file.text) fault.message

/-- The first method of a file that carries the marker (`annotated_method`). A folder can be opened,
    but not mapped. -/
def scanFile (t : FileTree) (cwd : Address) (marker : String) (file : Path) :
    Except ScanFault (Option String) :=
  match t.stat cwd true file with
  | .error cause => .error (.notOpened file cause)
  | .ok (_, .file content) =>
    if content.isEmpty then .error (.empty file)
    else
      match ClassFile.scan marker content with
      | .error fault => .error (.malformed file fault)
      | .ok method => .ok method
  | .ok (_, _) => .error (.notMapped file .noDevice)

/-- The files below a base whose extension is `class`, in the order of the walk
    (`scan_class_files`). -/
def classFiles (t : FileTree) (cwd : Address) (base : Path) : Except WalkFault (List Path) := do
  let files ← t.walkFiles cwd base
  pure ((files.map base.descend).filter fun p => p.extension? == some (Text.encode "class"))

/-- The wording of the failure to list class files. -/
def listingFailure (f : WalkFault) : Failure :=
  .because ("Failed to walk directory: " ++ f.base.text) f.message

/-- The class files of a folder (`Selection`). -/
structure Selection where
  /-- How many there are. -/
  scanned : Nat
  /-- Those with a marked method. -/
  classes : List Path
  deriving DecidableEq, Repr

namespace Selection

/-- The files with a marked method, up to the first that cannot be scanned, and what is told of the
    search: the loop of `select_classes`. -/
def keepMarked (t : FileTree) (cwd : Address) (marker : String) :
    List Path → Except RunError (List Path) × List Event
  | [] => (.ok [], [])
  | file :: files =>
    match scanFile t cwd marker file with
    | .error fault => (.error (.scan file fault.failure), [])
    | .ok none => keepMarked t cwd marker files
    | .ok (some method) =>
      let (kept, events) := keepMarked t cwd marker files
      (kept.map (file :: ·), .markerFound file method :: events)

/-- Whether a path can be the input of a run: it has to lead to a folder (`validate_input`). That
    the folder can be opened for reading, which `validate_input` asks for last, is always so in a
    `FileTree`: it knows no access rights. -/
def checkInput (t : FileTree) (cwd : Address) (input : Path) : Except RunError Unit :=
  match t.stat cwd true input with
  | .error cause => .error (.configuration (.inputInaccessible input cause))
  | .ok (_, .folder) => .ok ()
  | .ok (_, _) => .error (.configuration (.inputNoFolder input))

/-- Selects the class files of a folder, and tells of each that is kept (`select_classes`). -/
def ofFolder (t : FileTree) (cwd : Address) (marker : String) (input : Path) :
    Except RunError Selection × List Event :=
  match checkInput t cwd input with
  | .error e => (.error e, [])
  | .ok () =>
    match classFiles t cwd input with
    | .error fault => (.error (.scan input (listingFailure fault)), [])
    | .ok files =>
      let (kept, events) := keepMarked t cwd marker files
      (kept.map fun classes => ⟨files.length, classes⟩, events)

end Selection

end SourceRecovery
