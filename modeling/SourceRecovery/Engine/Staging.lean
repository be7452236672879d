import SourceRecovery.Engine.Work
import SourceRecovery.FileTree.Operations

/-!
# Staging

The inputs of a request are copied into one folder, each at its path from the input root, so that
classes of one simple name in different packages stay apart.
-/

namespace SourceRecovery.Engine

/-- Why an input cannot be staged: the failures of `stage_inputs`. -/
inductive StagingFault where
  | nameless (input : Path)
  | collision (target : Path)
  | noFolder (folder : Path) (cause : IoFault)
  | notCopied (input : Path) (cause : IoFault)
  deriving DecidableEq, Repr

/-- The wording of a fault. -/
def StagingFault.failure : StagingFault → Failure
  | .nameless input => .of ("Input has no file name: " ++ input.text)
  | .collision target => .of ("Two inputs map to " ++ target.text)
  | .noFolder folder cause =>
    .because ("Failed to create directory: " ++ folder.text) cause.message
  | .notCopied input cause =>
    .because ("Failed to stage class file: " ++ input.text) cause.message

/-- Whether a component is a name. -/
def isName : Path.Component → Bool
  | .name _ => true
  | _ => false

/-- Where an input stands among the staged files: at its path from the input root if that is made of
    names alone, and else under its file name (`staged_path`). -/
def stagedPath? (inputRoot input : Path) : Option Path :=
  let byName := input.fileName?.map Path.mk
  let staged :=
    match inputRoot.stripBase? input with
    | some rest => if rest.components.all isName then some rest else byName
    | none => byName
  staged.filter fun p => p.bytes != []

/-- Copies one input into the folder `source`: one round of `stage_inputs`. -/
def stageInput (cwd : Address) (inputRoot source input : Path) (t : FileTree) :
    Except StagingFault Unit × FileTree :=
  match stagedPath? inputRoot input with
  | none => (.error (.nameless input), t)
  | some staged =>
    let target := source.join staged
    if t.pathExists cwd target then (.error (.collision target), t)
    else
      let folder := target.parent?.getD ⟨[]⟩
      match t.makeFolders cwd folder with
      | (.error cause, t) => (.error (.noFolder folder cause), t)
      | (.ok (), t) =>
        match t.copy cwd input target with
        | (.error cause, t) => (.error (.notCopied input cause), t)
        | (.ok (), t) => (.ok (), t)

/-- Copies the inputs into the folder `source`, up to the first that cannot be (`stage_inputs`). -/
def stageInputs (cwd : Address) (inputRoot source : Path) :
    List Path → FileTree → Except StagingFault Unit × FileTree
  | [], t => (.ok (), t)
  | input :: inputs, t =>
    match stageInput cwd inputRoot source input t with
    | (.error fault, t) => (.error fault, t)
    | (.ok (), t) => stageInputs cwd inputRoot source inputs t

end SourceRecovery.Engine
