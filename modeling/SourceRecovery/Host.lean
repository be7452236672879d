import SourceRecovery.FileTree.Operations
import SourceRecovery.Text.Quoted

/-!
# The host

What a run finds around it besides the file tree: its working folder, the variables of its
environment, the draws behind its temporary names, and the programs that it can start.

* `start` finds a program as the system does and runs it on the file tree.
* `makeScratch` makes a folder with a name of its own among the temporary files.
-/

namespace SourceRecovery

/-- How a program ended: its status, and what it wrote to its error stream. -/
structure Finished where
  status : UInt8
  errors : Bytes
  deriving DecidableEq, Repr

/-- A program: from its arguments and the file tree to its end and the tree that it leaves. -/
abbrev Program := List Bytes → FileTree → Finished × FileTree

/-- What surrounds a run. -/
structure Host where
  /-- The working folder. It is told by its address alone: one that is removed and made again is not
      told from the old one. -/
  folder : Address
  /-- The home folder that the system has on record for the user. -/
  userHome : Option Path
  environment : List (String × Bytes)
  /-- The draws for temporary names, each tried once. -/
  suffixes : List String
  /-- The programs that can be started, by where they are. -/
  programs : List (Address × Program)

/-- Why a temporary name could not be used. -/
structure ScratchFault where
  path : Path
  cause : IoFault
  deriving DecidableEq, Repr

/-- The wording of a fault. The path is quoted as bytes. -/
def ScratchFault.message (f : ScratchFault) : String :=
  f.cause.message ++ " at path " ++ Text.quoteBytes f.path.bytes

namespace Host

/-- The value of a variable. -/
def valueOf? (host : Host) (name : String) : Option Bytes :=
  (host.environment.find? fun v => v.1 == name).map Prod.snd

/-- The working folder as a path. -/
def folderPath (host : Host) : Path :=
  ⟨Path.slash :: [Path.slash].intercalate host.folder⟩

/-- A path as it leads from the root. -/
def absolute (host : Host) (p : Path) : Path :=
  if p.isAbsolute then p else host.folderPath.join p

/-! ## Programs -/

/-- The program that a path leads to. -/
def programAt (host : Host) (t : FileTree) (p : Path) : Except IoFault Program :=
  let installed (a : Address) := (host.programs.find? fun e => e.1 == a).map Prod.snd
  match t.resolve host.folder true p with
  | .error fault => .error fault
  | .ok (.taken a _) =>
    match installed a with
    | some program => .ok program
    | none => .error .permissionDenied
  | .ok (.vacant a _) =>
    match installed a with
    | some program => .ok program
    | none => .error .notFound

/-- The byte between the folders of the search path. -/
def colon : UInt8 := 0x3A

/-- Looks for a program in some folders, one after the other. The flag remembers that something
    stood there that could not be started. -/
def searchFolders (host : Host) (t : FileTree) (name : Bytes) :
    Bool → List Bytes → Except IoFault Program
  | denied, [] => .error (if denied then .permissionDenied else .notFound)
  | denied, folder :: rest =>
    match host.programAt t ((Path.mk folder).join ⟨name⟩) with
    | .ok program => .ok program
    | .error .notFound | .error .notFolder => searchFolders host t name denied rest
    | .error .permissionDenied => searchFolders host t name true rest
    | .error fault => .error fault

/-- The program of a name: a name with a slash is a path, any other is looked for in the folders of
    the search path. -/
def program? (host : Host) (t : FileTree) (name : Bytes) : Except IoFault Program :=
  if name == [] then .error .notFound
  else if name.contains Path.slash then host.programAt t ⟨name⟩
  else
    host.searchFolders t name false
      (((host.valueOf? "PATH").getD "/bin:/usr/bin").splitOn colon)

/-- Starts a program and waits for its end. -/
def start (host : Host) (name : Bytes) (arguments : List Bytes) (t : FileTree) :
    Except IoFault Finished × FileTree :=
  if (name :: arguments).any fun s => s.contains 0 then
    (.error .nulInArgument, t)
  else
    match host.program? t name with
    | .error fault => (.error fault, t)
    | .ok program =>
      let (finished, t) := program arguments t
      (.ok finished, t)

/-! ## Temporary names -/

/-- Tries the draws one after the other until `make` finds a name that is not taken. -/
def tryNames (folder : Path) (front back : String)
    (make : FileTree → Path → FileTree.Outcome Unit) (t : FileTree) :
    List String → Except ScratchFault Path × FileTree
  | [] => (.error ⟨folder.join (.ofText (front ++ back)), .fileExists⟩, t)
  | draw :: draws =>
    let p := folder.join (.ofText (front ++ draw ++ back))
    match make t p with
    | (.ok (), t) => (.ok p, t)
    | (.error .fileExists, _) => tryNames folder front back make t draws
    | (.error fault, t) => (.error ⟨p, fault⟩, t)

/-- The folder of temporary files. -/
def temporaryFolder (host : Host) : Path :=
  host.absolute ⟨(host.valueOf? "TMPDIR").getD "/tmp"⟩

/-- Makes a folder of its own among the temporary files (`tempdir`). -/
def makeScratch (host : Host) (front : String) (t : FileTree) :
    Except ScratchFault Path × FileTree :=
  tryNames host.temporaryFolder front "" (fun t p => t.makeFolder host.folder p) t host.suffixes

/-- Makes an empty file of its own in a folder (`tempfile_in`). -/
def makeScratchFile (host : Host) (folder : Path) (front back : String) (t : FileTree) :
    Except ScratchFault Path × FileTree :=
  tryNames (host.absolute folder) front back (fun t p => t.createNew host.folder p) t host.suffixes

end Host

end SourceRecovery
