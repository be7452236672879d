import SourceRecovery.Engine.Work
import SourceRecovery.FileTree.Operations
import SourceRecovery.FileTree.Walk
import SourceRecovery.SourceUnit.Package

/-!
# Harvest

The files that a decompiler has written into a folder, handed over as source units: one unit per
file, in the order of the walk, until a file is no text or a unit is refused.
-/

namespace SourceRecovery.Engine

/-- Why the files of a folder cannot be handed over: the contexts of `collect_records`. -/
inductive HarvestFault where
  | notWalked (root : Path) (cause : WalkFault)
  | unreadable (file : Path) (cause : IoFault)
  deriving DecidableEq, Repr

/-- The wording of a fault. -/
def HarvestFault.failure : HarvestFault → Failure
  | .notWalked root cause => .because ("Failed to walk " ++ root.text) cause.message
  | .unreadable file cause =>
    .because ("Failed to read decompiled file: " ++ file.text) cause.message

/-- The text of the file that a path leads to (`read_to_string`). -/
def readText (t : FileTree) (cwd : Address) (p : Path) : Except IoFault String :=
  match t.read cwd p with
  | .error fault => .error fault
  | .ok content =>
    match Text.decode? content with
    | some text => .ok text
    | none => .error .notText

/-- The source unit in a file, given the names that lead to the file and its text. Names that are no
    text are shown with U+FFFD. -/
def unitOfFile (names : List Name) (content : String) : SourceUnit :=
  let entryName := Text.decodeLossy (names.getLast?.getD [])
  { folder := Text.join "/" (names.dropLast.map Text.decodeLossy)
    qualifiedName := Package.qualifiedName? content entryName
    entryName := entryName
    content := content }

/-- The names that a file is told by, given those that lead to it from `root`. Where these are none,
    the root itself is the file, and has a name of its own. -/
def namesOfFile (root : Path) (names : List Name) : List Name :=
  if names == [] then root.fileName?.toList else names

theorem namesOfFile_of_ne_nil {root : Path} {names : List Name} (h : names ≠ []) :
    namesOfFile root names = names :=
  if_neg (by simpa using h)

/-- Hands over the files that these names lead to from `root`: the loop of `collect_records`. -/
def deliverFiles (cwd : Address) (root : Path) : List Address → Work (Except Failure Unit)
  | [] => .done (.ok ())
  | names :: rest =>
    let file := root.descend names
    .files id fun t =>
      match readText t cwd file with
      | .error cause => .done (.error (HarvestFault.unreadable file cause).failure)
      | .ok content =>
        .deliver (unitOfFile (namesOfFile root names) content) fun answer =>
          match answer with
          | .error failure => .done (.error failure)
          | .ok () => deliverFiles cwd root rest

/-- Hands over every file below `root` (`collect_records`). -/
def harvest (cwd : Address) (root : Path) : Work (Except Failure Unit) :=
  .files id fun t =>
    match t.walkFiles cwd root with
    | .error cause => .done (.error (HarvestFault.notWalked root cause).failure)
    | .ok files => deliverFiles cwd root files

end SourceRecovery.Engine
