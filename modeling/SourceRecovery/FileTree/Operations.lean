import SourceRecovery.FileTree.Resolve

/-!
# Operations on files

The operations of the system that a run needs, as functions from a tree to an answer and a tree.
Each follows paths as `resolve` and `locate` do, and changes the tree by `place`, `prune` and
`clear` alone.
-/

namespace SourceRecovery.FileTree

/-- The outcome of an operation: its answer and the tree after it. -/
abbrev Outcome (α : Type) := Except IoFault α × FileTree

/-! ## Files -/

/-- The bytes of the file that a path leads to; a folder can be opened, but not read. -/
def read (t : FileTree) (cwd : Address) (p : Path) : Except IoFault Bytes :=
  match t.stat cwd true p with
  | .ok (_, .file content) => .ok content
  | .ok (_, _) => .error .isFolder
  | .error fault => .error fault

/-- Writes a file, which is created where the path leads to nothing (`write`). -/
def write (t : FileTree) (cwd : Address) (p : Path) (content : Bytes) : Outcome Unit :=
  match t.resolve cwd true p with
  | .error fault => (.error fault, t)
  | .ok (.taken a (.file _)) => (.ok (), t.place a (.file content))
  | .ok (.taken _ _) => (.error .isFolder, t)
  | .ok (.vacant a slash) =>
    if slash then (.error .isFolder, t) else (.ok (), t.place a (.file content))

/-- Copies the file that a path leads to (`copy`). -/
def copy (t : FileTree) (cwd : Address) (source target : Path) : Outcome Unit :=
  match t.stat cwd true source with
  | .error fault => (.error fault, t)
  | .ok (_, .file content) => t.write cwd target content
  | .ok (_, _) => (.error .notRegular, t)

/-- Creates an empty file where nothing stands. -/
def createNew (t : FileTree) (cwd : Address) (p : Path) : Outcome Unit :=
  match t.resolve cwd false p with
  | .error fault => (.error fault, t)
  | .ok (.taken _ _) => (.error .fileExists, t)
  | .ok (.vacant a slash) =>
    if slash then (.error .isFolder, t) else (.ok (), t.place a (.file []))

/-- Removes a file or a link (`remove_file`). -/
def unlink (t : FileTree) (cwd : Address) (p : Path) : Outcome Unit :=
  match t.resolve cwd false p with
  | .error fault => (.error fault, t)
  | .ok (.vacant _ _) => (.error .notFound, t)
  | .ok (.taken _ .folder) => (.error .isFolder, t)
  | .ok (.taken a _) => (.ok (), t.prune a)

/-- Moves a file to a path, instead of what stands there; a folder stays. -/
def rename (t : FileTree) (cwd : Address) (source target : Path) : Outcome Unit :=
  match t.stat cwd false source, t.locate cwd target with
  | .error fault, _ => (.error fault, t)
  | _, .error fault => (.error fault, t)
  | .ok (a, n), .ok (.name folder name) =>
    if t.node? (folder ++ [name]) == some .folder then (.error .isFolder, t)
    else (.ok (), (t.prune a).place (folder ++ [name]) n)
  | .ok _, .ok _ => (.error .busy, t)

/-- Makes a link to the path that `target` spells. -/
def makeLink (t : FileTree) (cwd : Address) (p : Path) (target : Bytes) : Outcome Unit :=
  match t.locate cwd p with
  | .error fault => (.error fault, t)
  | .ok (.name folder name) =>
    match t.node? (folder ++ [name]) with
    | some _ => (.error .fileExists, t)
    | none => (.ok (), t.place (folder ++ [name]) (.link target))
  | .ok _ => (.error .fileExists, t)

/-! ## Folders -/

/-- Makes one folder. -/
def makeFolder (t : FileTree) (cwd : Address) (p : Path) : Outcome Unit :=
  match t.locate cwd p with
  | .error fault => (.error fault, t)
  | .ok (.name folder name) =>
    match t.node? (folder ++ [name]) with
    | some _ => (.error .fileExists, t)
    | none => (.ok (), t.place (folder ++ [name]) .folder)
  | .ok _ => (.error .fileExists, t)

/-- Makes one folder, unless the path already leads to one. -/
def ensureFolder (t : FileTree) (cwd : Address) (p : Path) : Outcome Unit :=
  match t.makeFolder cwd p with
  | (.ok (), t) => (.ok (), t)
  | (.error fault, t) => if t.isFolder cwd p then (.ok (), t) else (.error fault, t)

/-- Makes a folder and, where it is missing, first the one in front of it, `n` of them at most. -/
def makeFoldersUpTo (t : FileTree) (cwd : Address) : Nat → Path → Outcome Unit
  | 0, p => t.ensureFolder cwd p
  | n + 1, p =>
    if p.bytes == [] then (.ok (), t)
    else
      match t.makeFolder cwd p with
      | (.ok (), t) => (.ok (), t)
      | (.error .notFound, t) =>
        match p.parent? with
        | none => (.error .notFound, t)
        | some q =>
          match makeFoldersUpTo t cwd n q with
          | (.error fault, t) => (.error fault, t)
          | (.ok (), t) => t.ensureFolder cwd p
      | (.error fault, t) => if t.isFolder cwd p then (.ok (), t) else (.error fault, t)

/-- Makes a folder and every folder that is missing on the way to it (`create_dir_all`). The empty
    path needs none. -/
def makeFolders (t : FileTree) (cwd : Address) (p : Path) : Outcome Unit :=
  t.makeFoldersUpTo cwd (p.slashPieces.length + 1) p

/-- Removes an empty folder. -/
def removeFolder (t : FileTree) (cwd : Address) (p : Path) : Outcome Unit :=
  match t.locate cwd p with
  | .error fault => (.error fault, t)
  | .ok .here => (.error .invalid, t)
  | .ok .up => (.error .notEmpty, t)
  | .ok .root => (.error .busy, t)
  | .ok (.name folder name) =>
    match t.node? (folder ++ [name]) with
    | none => (.error .notFound, t)
    | some .folder =>
      if t.entries.any fun e => isBelow (folder ++ [name]) e.1 then (.error .notEmpty, t)
      else (.ok (), t.prune (folder ++ [name]))
    | some _ => (.error .notFolder, t)

/-- Empties the folder that a path leads to and removes it (`remove_dir_all`). A folder whose path
    is gone once it is empty counts as removed. -/
def removeFolders (t : FileTree) (cwd : Address) (p : Path) : Outcome Unit :=
  match t.stat cwd true p with
  | .error fault => (.error fault, t)
  | .ok (a, .folder) =>
    match (t.clear a).removeFolder cwd p with
    | (.error .notFound, t) => (.ok (), t)
    | outcome => outcome
  | .ok _ => (.error .notFolder, t)

end SourceRecovery.FileTree
