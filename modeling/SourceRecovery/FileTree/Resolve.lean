import SourceRecovery.FileTree.Basic
import SourceRecovery.FileTree.IoFault

/-!
# Resolving paths

From a path to the address that it leads to in a tree. Names are entered one by one from the working
folder or the root; links on the way are followed, and a link at the end only if the caller asks
for it or the path ends in a slash.

* `resolve` gives the node at the end of a path, or the address where one could be put.
* `locate` gives the folder that the last name of a path is looked up in, and that name.
-/

namespace SourceRecovery

/-- One step of a path as the system walks it. -/
inductive Step where
  | here
  | up
  | enter (name : Name)
  deriving DecidableEq, Repr

/-- Whether a step enters no name. -/
def Step.isDots : Step → Bool
  | .enter _ => false
  | .here | .up => true

/-- The step that a piece of a path stands for. -/
def Step.ofPiece? (w : Name) : Option Step :=
  if w == [] then none
  else if w == [Path.dot] then some .here
  else if w == [Path.dot, Path.dot] then some .up
  else some (.enter w)

namespace Path

/-- The steps of a path. -/
def steps (p : Path) : List Step :=
  p.slashPieces.filterMap Step.ofPiece?

/-- Whether a path ends in a slash. -/
def endsInSlash (p : Path) : Bool :=
  p.bytes.getLast? == some slash

/-- The folder that a path starts from. -/
def origin (p : Path) (cwd : Address) : Address :=
  if p.isAbsolute then [] else cwd

/-- Why the system does not even look at a path: it is empty, too long, or holds a NUL. -/
def unusable? (p : Path) : Option IoFault :=
  if p.bytes.contains 0 then some .nulInPath
  else if p.bytes == [] then some .notFound
  else if 4096 ≤ p.bytes.length then some .nameTooLong
  else none

end Path

namespace FileTree

/-- Where a path leads. -/
inductive Place where
  /-- To a node that is there. -/
  | taken (a : Address) (n : Node)
  /-- To nothing, in a folder that is there. The flag tells of a slash behind the name. -/
  | vacant (a : Address) (slash : Bool)
  deriving DecidableEq, Repr

/-- Walks the steps from the address `cur`. `slash` tells of a slash behind the last of them,
    `follow` asks to follow a link at the end, and `jump` goes on from a link: from a folder, along
    the link's target and the steps left, with their slash. -/
def walkSteps (t : FileTree) (follow slash : Bool)
    (jump : Address → Path → List Step → Bool → Except IoFault Place) :
    Address → List Step → Except IoFault Place
  | cur, [] =>
    match t.node? cur with
    | some n => .ok (.taken cur n)
    | none => .error .notFound
  | cur, .here :: rest => walkSteps t follow slash jump cur rest
  | cur, .up :: rest => walkSteps t follow slash jump cur.dropLast rest
  | cur, .enter name :: rest =>
    if 255 < name.length then .error .nameTooLong
    else
      match t.node? (cur ++ [name]) with
      | none => if rest.isEmpty then .ok (.vacant (cur ++ [name]) slash) else .error .notFound
      | some .folder => walkSteps t follow slash jump (cur ++ [name]) rest
      | some (.file content) =>
        if rest.isEmpty && !slash then .ok (.taken (cur ++ [name]) (.file content))
        else .error .notFolder
      | some (.link target) =>
        if rest.isEmpty && !slash && !follow then .ok (.taken (cur ++ [name]) (.link target))
        else jump cur ⟨target⟩ rest slash

/-- Walks steps and follows at most `links` links on the way. -/
def walkLinks (t : FileTree) (follow : Bool) :
    Nat → Address → List Step → Bool → Except IoFault Place
  | 0, cur, steps, slash =>
    walkSteps t follow slash (fun _ _ _ _ => .error .tooManyLinks) cur steps
  | links + 1, cur, steps, slash =>
    walkSteps t follow slash
      (fun cur target rest slash =>
        walkLinks t follow links (target.origin cur) (target.steps ++ rest)
          (slash || rest.isEmpty && target.endsInSlash))
      cur steps

/-- The number of links that the system follows along one path. -/
def linkLimit : Nat := 40

/-- Where a path leads from the working folder `cwd`. -/
def resolve (t : FileTree) (cwd : Address) (follow : Bool) (p : Path) : Except IoFault Place :=
  match p.unusable? with
  | some fault => .error fault
  | none => walkLinks t follow linkLimit (p.origin cwd) p.steps p.endsInSlash

/-- The node at the end of a path (`metadata` if links are followed, and else `symlink_metadata`).
    -/
def stat (t : FileTree) (cwd : Address) (follow : Bool) (p : Path) :
    Except IoFault (Address × Node) :=
  match t.resolve cwd follow p with
  | .ok (.taken a n) => .ok (a, n)
  | .ok (.vacant _ _) => .error .notFound
  | .error fault => .error fault

/-- Whether a path leads to a folder. -/
def isFolder (t : FileTree) (cwd : Address) (p : Path) : Bool :=
  match t.stat cwd true p with
  | .ok (_, .folder) => true
  | _ => false

/-- Whether a path leads to a file. -/
def isFile (t : FileTree) (cwd : Address) (p : Path) : Bool :=
  match t.stat cwd true p with
  | .ok (_, .file _) => true
  | _ => false

/-- Whether a path leads to anything. -/
def pathExists (t : FileTree) (cwd : Address) (p : Path) : Bool :=
  match t.stat cwd true p with
  | .ok _ => true
  | .error _ => false

/-! ## Absolute names -/

/-- The number of bytes in the absolute name of an address. -/
def nameLength : Address → Nat
  | [] => 0
  | w :: a => w.length + 1 + nameLength a

theorem nameLength_dropLast_le (a : Address) : nameLength a.dropLast ≤ nameLength a := by
  induction a with
  | nil => exact Nat.le_refl 0
  | cons w a ih =>
    cases a with
    | nil => exact Nat.zero_le _
    | cons v a => exact Nat.add_le_add_left ih _

/-- What is left of a tree where the system has to be given absolute names, which must not be too
    long. -/
def nameable (t : FileTree) : FileTree :=
  t.restrict (fun a => decide (nameLength a < 4096)) fun a h => by
    have hle := nameLength_dropLast_le a
    rw [decide_eq_true_iff] at h ⊢
    omega

/-- The address that a path leads to, all links followed, as it is found by absolute names
    (`canonicalize`). A relative path then needs the name of the working folder, which has none once
    it is removed; and no name on the way may be too long, even where the path itself is short. -/
def canonical (t : FileTree) (cwd : Address) (p : Path) : Except IoFault Address :=
  if p.bytes.contains 0 then .error .nulInPath
  else if p.bytes == [] then .error .notFound
  else if !p.isAbsolute && t.node? cwd != some .folder then .error .notFound
  else
    match t.nameable.walkLinks true linkLimit (p.origin cwd) p.steps p.endsInSlash with
    | .ok (.taken a _) => .ok a
    | _ =>
      match t.walkLinks true linkLimit (p.origin cwd) p.steps p.endsInSlash with
      | .ok (.taken _ _) => .error .nameTooLong
      | .ok (.vacant _ _) => .error .notFound
      | .error fault => .error fault

/-! ## Endings -/

/-- How a path ends. -/
inductive Ending where
  /-- In a name, which is looked up in the folder `folder`. -/
  | name (folder : Address) (name : Name)
  | here
  | up
  /-- In nothing: the path is the root. -/
  | root
  deriving DecidableEq, Repr

/-- How a path ends whose last step is looked up in the folder `folder`. -/
def Ending.ofLast (folder : Address) : Option Step → Except IoFault Ending
  | none => .ok .root
  | some .here => .ok .here
  | some .up => .ok .up
  | some (.enter w) =>
    if 255 < w.length then .error .nameTooLong else .ok (.name folder w)

/-- The ending of a path, once the way to it is walked. Dots alone have no way that could be missed,
    and end as the last of them says even if the working folder is gone. -/
def locate (t : FileTree) (cwd : Address) (p : Path) : Except IoFault Ending :=
  match p.unusable? with
  | some fault => .error fault
  | none =>
    if p.steps.all Step.isDots then Ending.ofLast cwd p.steps.getLast?
    else
      match walkLinks t true linkLimit (p.origin cwd) p.steps.dropLast true with
      | .error fault => .error fault
      | .ok (.vacant _ _) => .error .notFound
      | .ok (.taken folder _) => Ending.ofLast folder p.steps.getLast?

end FileTree

end SourceRecovery
