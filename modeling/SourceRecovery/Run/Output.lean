import SourceRecovery.Digest.Sha256
import SourceRecovery.FileTree.Operations
import SourceRecovery.RunError
import SourceRecovery.SourceUnit.Destination

/-!
# The output folder

What a run does to its output folder: it refuses one that holds the input, empties it, and writes
each source unit to its destination in it.

* `guardOverlap` compares where input and output lead to, links followed.
* `resetOutput` removes what the output path names and makes an empty folder there.
* `deposit` writes one unit, `Ledger` keeps account of what is written.
-/

namespace SourceRecovery

/-- Refuses an output folder that is the input folder or holds it: emptying it would take the input
    away (`guard_overlap`). An output path without an absolute name passes, whatever it leads to. -/
def guardOverlap (t : FileTree) (cwd : Address) (input output : Path) : Except RunError Unit :=
  match t.canonical cwd output with
  | .error _ => .ok ()
  | .ok out =>
    match t.canonical cwd input with
    | .error cause => .error (.configuration (.inputUnresolvable input cause))
    | .ok inp =>
      if FileTree.isAtOrBelow out inp then
        .error (.configuration (.outputHoldsInput output input))
      else .ok ()

/-- Removes what a path names: a folder with everything in it, or else a file or a link. A path that
    names nothing is fine. This is the first half of `reset_output`. -/
def removeOutput (t : FileTree) (cwd : Address) (output : Path) : FileTree.Outcome Unit :=
  match t.stat cwd false output with
  | .ok (_, .folder) => t.removeFolders cwd output
  | .ok (_, _) => t.unlink cwd output
  | .error .notFound => (.ok (), t)
  | .error cause => (.error cause, t)

/-- Removes what the output path names and makes a folder there (`reset_output`). -/
def resetOutput (t : FileTree) (cwd : Address) (output : Path) :
    Except RunError Unit × FileTree :=
  match removeOutput t cwd output with
  | (.error cause, t) => (.error (.outputReset output cause), t)
  | (.ok (), t) =>
    match t.makeFolders cwd output with
    | (.error cause, t) => (.error (.outputReset output cause), t)
    | (.ok (), t) => (.ok (), t)

/-! ## Writing source units -/

/-- A file that a run has written (`WrittenFile`). -/
structure WrittenFile where
  /-- Its path below the output folder. -/
  path : String
  /-- The digest of what it holds. -/
  digest : String
  deriving DecidableEq, Repr

/-- What becomes of a source unit: the answers of `persist`, with the two ways of dropping a unit
    told apart. -/
inductive Deposit where
  | blank
  | unusable
  | failed (target : Path) (cause : IoFault)
  | stored (file : WrittenFile)
  deriving DecidableEq, Repr

/-- The path of a written file below the output folder, its components joined by slashes (`relative`
    in `persist`). -/
def pathBelow (output target : Path) : String :=
  let below := (output.stripBase? target).getD target
  Text.join "/" (below.components.map Path.Component.text)

/-- Writes a unit to its destination (`persist`). Blank units and those without a destination are
    left. -/
def deposit (cwd : Address) (output : Path) (u : SourceUnit) (t : FileTree) :
    Deposit × FileTree :=
  if u.isBlank then (.blank, t)
  else
    match u.destination? output with
    | none => (.unusable, t)
    | some target =>
      match t.makeFolders cwd (target.parent?.getD ⟨[]⟩) with
      | (.error cause, t) => (.failed target cause, t)
      | (.ok (), t) =>
        match t.write cwd target (Text.encode u.content) with
        | (.error cause, t) => (.failed target cause, t)
        | (.ok (), t) =>
          (.stored ⟨pathBelow output target, Digest.Sha256.ofText u.content⟩, t)

/-- The written files of a run, one per path, in the order of the paths by their bytes: the map
    `written` of `run_inner`. -/
abbrev Ledger := List WrittenFile

/-- Enters a file, instead of the one of the same path. -/
def Ledger.enter (file : WrittenFile) : Ledger → Ledger
  | [] => [file]
  | f :: rest =>
    if file.path = f.path then file :: rest
    else if Text.encode file.path < Text.encode f.path then file :: f :: rest
    else f :: Ledger.enter file rest

end SourceRecovery
