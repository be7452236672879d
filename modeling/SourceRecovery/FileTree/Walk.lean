import SourceRecovery.FileTree.Resolve

/-!
# Walking a tree

Everything below a folder, by the names that lead there from it. A link is followed only if it is
the base itself; a base that is a file is all there is to see. The base `-` stands for standard
input and holds nothing.
-/

namespace SourceRecovery

/-- Why a tree cannot be walked: its base cannot be looked at. -/
structure WalkFault where
  base : Path
  cause : IoFault
  deriving DecidableEq, Repr

/-- The wording of a fault, in front of which the caller says what it wanted. -/
def WalkFault.message (f : WalkFault) : String :=
  f.base.text ++ ": IO error for operation on " ++ f.base.text ++ ": " ++ f.cause.message

namespace FileTree

/-- Whether a base stands for standard input. -/
def isStandardInput (base : Path) : Bool :=
  base.components == [.name "-"]

/-- What there is to see below a base: for each node the names that lead there from the base. A base
    that is no folder is seen itself, by no names. This is what a `WalkBuilder` with its filters off
    gives, sorted by file names. -/
def walk (t : FileTree) (cwd : Address) (base : Path) : Except WalkFault (List (Address × Node)) :=
  if isStandardInput base then .ok []
  else
    match t.stat cwd false base with
    | .error fault => .error ⟨base, fault⟩
    | .ok (a, .folder) => .ok (t.under a)
    | .ok (_, .file content) => .ok [([], .file content)]
    | .ok (_, .link _) =>
      match t.stat cwd true base with
      | .error fault => .error ⟨base, fault⟩
      | .ok (a, .folder) => .ok (t.under a)
      | .ok (_, n) => .ok [([], n)]

/-- The files among what a walk sees, by the names that lead there. -/
def walkFiles (t : FileTree) (cwd : Address) (base : Path) : Except WalkFault (List Address) := do
  let seen ← t.walk cwd base
  pure (seen.filterMap fun e => match e.2 with
    | .file _ => some e.1
    | _ => none)

end FileTree

end SourceRecovery
