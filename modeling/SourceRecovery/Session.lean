import SourceRecovery.CommandLine.Parse
import SourceRecovery.CompileTask
import SourceRecovery.Engine.Decompiler
import SourceRecovery.LogFilter
import SourceRecovery.Report

/-!
# The program

What a command does, as a function of the host and its file tree: what it prints, what it logs, the
status it ends with and the tree that it leaves.
-/

namespace SourceRecovery

/-- How the program ends. -/
structure SessionEnd where
  status : UInt8
  /-- What it prints if its run has taken so many milliseconds. -/
  output : Nat → String
  /-- All events, shown or not. -/
  events : List Event
  tree : FileTree

namespace Session

/-- The end of a command that prints a report. -/
def succeeded (report : Nat → Document) (events : List Event) (t : FileTree) : SessionEnd :=
  ⟨0, fun elapsed => Report.print (report elapsed), events, t⟩

/-- The end of a command that fails, having told why. -/
def failed (events : List Event) (t : FileTree) : SessionEnd :=
  ⟨1, fun _ => "", events, t⟩

/-- Does what a command asks for (`dispatch`). A scan whose selection holds a path that is no text
    cannot be printed. -/
def perform (host : Host) (line : CommandLine) (t : FileTree) : SessionEnd :=
  match line.command with
  | .decompile input output variant classpath kotlin =>
    match outputFolder output variant with
    | .error e => failed [.fatal e.chain] t
    | .ok output =>
      let settings : Settings := ⟨input, output, libraries classpath, kotlin⟩
      let e := Run.perform host.folder line.marker (Engine.onDemand host line.engine) settings t
      match e.result with
      | .ok outcome => succeeded (Report.ofOutcome outcome) e.events e.tree
      | .error _ => failed e.events e.tree
  | .scan input =>
    match Selection.ofFolder t host.folder line.marker input with
    | (.error e, events) => failed (events ++ [.fatal e.chain]) t
    | (.ok selection, events) =>
      if selection.classes.all Path.isText then
        succeeded (fun _ => Report.ofSelection input line.marker selection) events t
      else failed (events ++ [.fatal Report.unprintable]) t
  | .options kotlin => succeeded (fun _ => Report.ofProfile (Engine.profile kotlin)) [] t

/-- The events that the log shows (`init_logging`). -/
def logged (host : Host) (line : CommandLine) (events : List Event) : List Event :=
  let level := if line.verbose then Level.debug else Level.info
  events.filter (LogFilter.choose ((host.valueOf? "RUST_LOG").bind Text.decode?) level).shows

end Session

end SourceRecovery
