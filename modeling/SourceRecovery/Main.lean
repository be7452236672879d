import SourceRecovery.FileTree.Manifest
import SourceRecovery.Session

/-!
# The command line

Reads the words of the command line, and from standard input the manifest of the tree that the
command works on, whose root is also the working folder. The report goes to standard output and the
log to the error stream. No program can be started from here, so that no source is ever written, and
the tree that a command leaves is not kept.
-/

namespace SourceRecovery

/-- The variables of the environment that a command looks at. -/
def variableNames : List String :=
  ["HOME", "XDG_DATA_HOME", "XDG_CACHE_HOME", "VINEFLOWER_JAR", "COMPOSE_DECOMPILER_JAVA", "TMPDIR",
    "PATH", "RUST_LOG"]

/-- The variables among these that are set. -/
def setVariables : List String → IO (List (String × Bytes))
  | [] => pure []
  | name :: names => do
    let rest ← setVariables names
    match ← IO.getEnv name with
    | some value => pure ((name, Text.encode value) :: rest)
    | none => pure rest

/-- Draws as many letters. -/
def draw : Nat → IO (List Char)
  | 0 => pure []
  | n + 1 => do
    let k ← IO.rand 0 25
    let rest ← draw n
    pure (Char.ofNat (97 + k) :: rest)

/-- The lines that are left of a stream. -/
partial def readLines (input : IO.FS.Stream) : IO (List String) := do
  let line ← input.getLine
  if line.isEmpty then
    pure []
  else
    let rest ← readLines input
    pure ((Text.pieces (· == '\n') line).headD "" :: rest)

/-- Follows a command and tells of it; gives the status that the program ends with. -/
def follow (line : CommandLine) : IO UInt32 := do
  let lines ← readLines (← IO.getStdin)
  match FileTree.ofManifest? (lines.filter (· != "")) with
  | .error unread =>
    IO.eprintln ("ERROR not a line of a manifest: " ++ unread)
    pure 1
  | .ok tree =>
    let host : Host :=
      { folder := []
        userHome := none
        environment := ← setVariables variableNames
        suffixes := [String.ofList (← draw 6)]
        programs := [] }
    let started ← IO.monoMsNow
    let done := Session.perform host line tree
    for event in Session.logged host line done.events do
      IO.eprintln event.line
    IO.print (done.output ((← IO.monoMsNow) - started))
    pure done.status.toUInt32

end SourceRecovery

def main (words : List String) : IO UInt32 :=
  match SourceRecovery.CommandLine.read words with
  | .error .help => do
    IO.print SourceRecovery.CommandLine.usage
    pure 0
  | .error .usage => do
    IO.eprint SourceRecovery.CommandLine.usage
    pure 2
  | .ok line => SourceRecovery.follow line
