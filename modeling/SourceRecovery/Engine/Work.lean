import SourceRecovery.Event
import SourceRecovery.Failure
import SourceRecovery.FileTree.Basic
import SourceRecovery.SourceUnit.Basic

/-!
# The work of an engine

An engine is given a batch of class files and hands source units to whoever called it, one by one.
Between two of them it may look at the file tree and change it, and every answer it gets may decide
how it goes on. `Work` is such a course of action as data, so that a run can be interpreted, and
reasoned about, for every engine there is.
-/

namespace SourceRecovery

/-- A course of action that ends with a value. -/
inductive Work (α : Type) : Type where
  | done (value : α)
  /-- Tells of an event and goes on. -/
  | note (event : Event) (rest : Work α)
  /-- Looks at the file tree, leaves it changed, and goes on with what it saw. -/
  | files (change : FileTree → FileTree) (rest : FileTree → Work α)
  /-- Hands over a source unit and goes on with the answer. -/
  | deliver (sourceUnit : SourceUnit) (rest : Except Failure Unit → Work α)

namespace Work

/-- One course of action after another. -/
def bind {α β : Type} : Work α → (α → Work β) → Work β
  | .done value, k => k value
  | .note event rest, k => .note event (rest.bind k)
  | .files change rest, k => .files change fun t => (rest t).bind k
  | .deliver sourceUnit rest, k => .deliver sourceUnit fun answer => (rest answer).bind k

instance : Monad Work where
  pure := .done
  bind := .bind

/-- An operation on the file tree. -/
def attempt {α : Type} (operation : FileTree → α × FileTree) : Work α :=
  .files (fun t => (operation t).2) fun t => .done (operation t).1

/-- What receives the events and the source units of an engine at work: the `RecordSink` and the
    log. -/
structure Receiver (σ : Type) where
  onEvent : Event → σ → σ
  onUnit : SourceUnit → FileTree → σ → Except Failure Unit × FileTree × σ

/-- Follows a course of action from a file tree and a state of the receiver. -/
def perform {α σ : Type} (receiver : Receiver σ) : Work α → FileTree → σ → α × FileTree × σ
  | .done value, t, s => (value, t, s)
  | .note event rest, t, s => rest.perform receiver t (receiver.onEvent event s)
  | .files change rest, t, s => (rest t).perform receiver (change t) s
  | .deliver sourceUnit rest, t, s =>
    let (answer, t, s) := receiver.onUnit sourceUnit t s
    (rest answer).perform receiver t s

end Work

/-- What an engine is asked to do (`DecompileRequest`). -/
structure Request where
  /-- The folder that the inputs were found in. -/
  inputRoot : Path
  inputs : List Path
  libraries : List Path
  kotlin : Bool
  deriving DecidableEq, Repr

/-- An engine: what it does for each request (`ReconstructionEngine`). -/
abbrev Engine := Request → Work (Except Failure Unit)

end SourceRecovery
