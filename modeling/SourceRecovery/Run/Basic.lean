import SourceRecovery.Engine.Work
import SourceRecovery.Run.Output
import SourceRecovery.Selection

/-!
# Runs

One run: the output folder is emptied, the class files with a marked method are selected, an engine
gets them as one batch, and every source unit that it hands over is written below the output folder.

* Nothing is touched before the input is known to be a folder that the output does not hold.
* The engine is called at most once, and not at all without a marked class.
* A unit that could not be written decides the run, whatever the engine makes of it.
-/

namespace SourceRecovery

/-- What a run is asked to do (`DecompileConfig`). -/
structure Settings where
  input : Path
  output : Path
  libraries : List Path
  kotlin : Bool
  deriving DecidableEq, Repr

/-- What a run has done (`RunOutcome`, its duration apart). -/
structure Outcome where
  input : Path
  output : Path
  kotlin : Bool
  scanned : Nat
  classes : List Path
  written : Ledger
  dropped : Nat
  deriving DecidableEq, Repr

/-- How a run ends: with an outcome or an error, in some file tree, having told some events. -/
structure RunEnd where
  result : Except RunError Outcome
  tree : FileTree
  events : List Event

namespace Run

/-- The account that a run keeps while the engine works: the variables `written`, `dropped` and
    `write_error` of `run_inner`, and the events so far. -/
structure Account where
  events : List Event
  written : Ledger
  dropped : Nat
  /-- The last unit that could not be written. -/
  fault : Option RunError
  deriving DecidableEq, Repr

namespace Account

def start (events : List Event) : Account :=
  ⟨events, [], 0, none⟩

def tell (event : Event) (s : Account) : Account :=
  { s with events := s.events ++ [event] }

/-- Takes down what became of a unit. -/
def enter (u : SourceUnit) (s : Account) : Deposit → Account
  | .blank => { s.tell (.blankDropped u.entryName) with dropped := s.dropped + 1 }
  | .unusable => { s.tell (.unusableDropped u.entryName) with dropped := s.dropped + 1 }
  | .failed target cause => { s with fault := some (.outputWrite target cause) }
  | .stored file => { s with written := s.written.enter file }

end Account

/-- What the engine is told of a unit that it has handed over. -/
def answer : Deposit → Except Failure Unit
  | .failed target cause => .error (.of (RunError.outputWrite target cause).message)
  | _ => .ok ()

/-- Writes the units of an engine below the output folder as they come: the sink of `run_inner`. -/
def receiver (cwd : Address) (output : Path) : Work.Receiver Account where
  onEvent := Account.tell
  onUnit u t s :=
    let (d, t) := deposit cwd output u t
    (answer d, t, s.enter u d)

/-- What a run comes to once the engine has ended: the last unit that could not be written comes
    first, then the engine's own failure. -/
def settle (outcome : Outcome) (ended : Except Failure Unit) (s : Account) :
    Except RunError Outcome :=
  match s.fault, ended with
  | some e, _ => .error e
  | none, .error failure => .error (.engine failure)
  | none, .ok () => .ok { outcome with written := s.written, dropped := s.dropped }

/-- Lets the engine work on a selection that is not empty. -/
def engage (cwd : Address) (engine : Engine) (settings : Settings) (outcome : Outcome)
    (t : FileTree) (events : List Event) : RunEnd :=
  let request : Request :=
    ⟨settings.input, outcome.classes, settings.libraries, settings.kotlin⟩
  let (ended, t, s) :=
    (engine request).perform (receiver cwd settings.output) t (.start events)
  let result := settle outcome ended s
  match result with
  | .ok o => ⟨result, t, s.events ++ [.finished settings.output o.written.length o.dropped]⟩
  | .error _ => ⟨result, t, s.events⟩

/-- What is told of a selection before the engine gets it. -/
def announce (marker : String) (classes : List Path) : List Event :=
  .marked classes.length marker :: classes.map .processing

/-- The part of `run_inner` that follows the reset of the output folder. -/
def afterReset (cwd : Address) (marker : String) (engine : Engine) (settings : Settings)
    (t : FileTree) (events : List Event) : RunEnd :=
  match Selection.ofFolder t cwd marker settings.input with
  | (.error e, found) => ⟨.error e, t, events ++ found⟩
  | (.ok selection, found) =>
    let outcome : Outcome :=
      ⟨settings.input, settings.output, settings.kotlin, selection.scanned, selection.classes, [],
        0⟩
    if selection.classes.isEmpty then
      ⟨.ok outcome, t, events ++ found ++ [.nothingMarked marker settings.input]⟩
    else
      engage cwd engine settings outcome t
        (events ++ found ++ announce marker selection.classes)

/-- A run, without the event that tells of its failure (`run_inner`). -/
def performQuietly (cwd : Address) (marker : String) (engine : Engine) (settings : Settings)
    (t : FileTree) : RunEnd :=
  let events : List Event := [.outputFolder settings.output, .inputFolder settings.input]
  match Selection.checkInput t cwd settings.input with
  | .error e => ⟨.error e, t, events⟩
  | .ok () =>
    match guardOverlap t cwd settings.input settings.output with
    | .error e => ⟨.error e, t, events⟩
    | .ok () =>
      match resetOutput t cwd settings.output with
      | (.error e, t) => ⟨.error e, t, events⟩
      | (.ok (), t) => afterReset cwd marker engine settings t events

/-- A run (`run`). An error is also told as an event. -/
def perform (cwd : Address) (marker : String) (engine : Engine) (settings : Settings)
    (t : FileTree) : RunEnd :=
  let e := performQuietly cwd marker engine settings t
  match e.result with
  | .ok _ => e
  | .error error => { e with events := e.events ++ [.runFailed error.chain] }

end Run

end SourceRecovery
