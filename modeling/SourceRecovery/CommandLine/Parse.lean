import SourceRecovery.CommandLine.Grammar
import SourceRecovery.Path.Basic
import SourceRecovery.Selection

/-!
# Reading the command line

The words of a command line are read one by one. An option that takes a value waits for the next
word; it is entered, and what is wrong with it noticed, when the next option comes or the words end.
A request for help counts from where it stands: what is wrong in front of it comes first, what is
wrong or missing behind it does not count.

* `read` gives the command with its options, or says that help or a note on the usage is due.
-/

namespace SourceRecovery

/-- What the program is asked to do (`Commands`). -/
inductive Command where
  | decompile (input : Path) (output : Option Path) (variant : Option String)
      (classpath : List String) (kotlin : Bool)
  | scan (input : Path)
  | options (kotlin : Bool)
  deriving DecidableEq, Repr

/-- A command and the options of the program as a whole (`Cli`). -/
structure CommandLine where
  command : Command
  engine : Option Path
  marker : String
  verbose : Bool
  deriving DecidableEq, Repr

namespace CommandLine

/-- Why a command line is no command. -/
inductive Refusal where
  /-- Help was asked for. -/
  | help
  /-- Something is wrong with it. -/
  | usage
  deriving DecidableEq, Repr

/-- An option as it was entered, with its value if it takes one. -/
abbrev Entry := Key × String

/-- What has been read in one place, in front of a command or behind it. -/
structure Reading where
  /-- The entered options, latest first. -/
  entries : List Entry
  /-- The option that has its value, or still waits for it, and is not entered yet. -/
  pending : Option (Key × Option String)
  deriving DecidableEq, Repr

namespace Reading

def start : Reading := ⟨[], none⟩

/-- Whether the next word is a value. -/
def waits (r : Reading) : Bool :=
  match r.pending with
  | some (_, none) => true
  | _ => false

def has (r : Reading) (key : Key) : Bool :=
  r.entries.any fun e => e.1 == key

/-- Enters an option with its value. -/
def enter (r : Reading) (key : Key) (value : String) : Except Refusal Reading :=
  if key.namesFile && value == "" then .error .usage
  else if r.has key && !key.repeats then .error .usage
  else .ok { r with entries := (key, value) :: r.entries }

/-- Enters the option that is pending. -/
def settle (r : Reading) : Except Refusal Reading :=
  match r.pending with
  | none => .ok r
  | some (_, none) => .error .usage
  | some (key, some value) => { r with pending := none }.enter key value

/-- An option that was found, with the value that is attached to it. -/
def found (r : Reading) (key : Key) (attached : Option String) : Except Refusal Reading := do
  let r ← r.settle
  if key.takesValue then
    match attached with
    | some value => r.enter key value
    | none => pure { r with pending := some (key, none) }
  else
    match attached with
    | some _ => throw .usage
    | none => if key == .help then throw .help else r.enter key ""

/-- Gives the value that the pending option waits for. -/
def supply (r : Reading) (value : String) : Reading :=
  match r.pending with
  | some (key, none) => { r with pending := some (key, some value) }
  | _ => r

/-- The value of an option. -/
def value? (r : Reading) (key : Key) : Option String :=
  (r.entries.find? fun e => e.1 == key).map Prod.snd

/-- All values of an option, in the order in which they were given. -/
def values (r : Reading) (key : Key) : List String :=
  (r.entries.reverse.filter fun e => e.1 == key).map Prod.snd

end Reading

/-! ## Words -/

/-- What a word looks like. -/
inductive Shape where
  /-- Two dashes: no options follow. -/
  | endOfOptions
  /-- A long option and what is attached to it by an equals sign. -/
  | long (name : String) (attached : Option String)
  /-- The letters behind one dash. -/
  | short (letters : List Char)
  | plain
  deriving DecidableEq, Repr

/-- A long option cut at its first equals sign. -/
def cutAtEquals (cs : List Char) : Shape :=
  let name := String.ofList (cs.takeWhile (· != '='))
  match cs.dropWhile (· != '=') with
  | [] => .long name none
  | _ :: value => .long name (some (String.ofList value))

/-- The shape of a word. -/
def shapeOf (word : String) : Shape :=
  match word.toList with
  | ['-', '-'] => .endOfOptions
  | '-' :: '-' :: cs => cutAtEquals cs
  | ['-'] => .plain
  | '-' :: cs => .short cs
  | _ => .plain

/-- Reads a group of short options. Behind one that takes a value the rest of the group is that
    value, without an equals sign in front. -/
def readLetters (allowed : List Key) : List Char → Reading → Except Refusal Reading
  | [], r => .ok r
  | c :: cs, r =>
    match allowed.find? fun key => key.short? == some c with
    | none => .error .usage
    | some key =>
      if key.takesValue then
        match cs with
        | [] => r.found key none
        | '=' :: value => r.found key (some (String.ofList value))
        | value => r.found key (some (String.ofList value))
      else
        match r.found key none with
        | .error e => .error e
        | .ok r => readLetters allowed cs r

/-- Reads a word that begins with a dash. -/
def readOption (allowed : List Key) (r : Reading) : Shape → Except Refusal Reading
  | .long name attached =>
    match allowed.find? fun key => key.long == name with
    | none => .error .usage
    | some key => r.found key attached
  | .short letters => readLetters allowed letters r
  | _ => .error .usage

/-- Reads the words behind a command. -/
def readBehind (allowed : List Key) : List String → Reading → Except Refusal Reading
  | [], r => r.settle
  | word :: words, r =>
    match shapeOf word with
    | .endOfOptions => if words.isEmpty then r.settle else .error .usage
    | .plain => if r.waits then readBehind allowed words (r.supply word) else .error .usage
    | shape =>
      match readOption allowed r shape with
      | .error e => .error e
      | .ok r => readBehind allowed words r

/-- Reads what follows the word `help`: at most one name of a command. -/
def readHelp : List String → Refusal
  | [] => .help
  | [word] => if word == "help" || (CommandName.ofText? word).isSome then .help else .usage
  | _ => .usage

/-- What was read in front of a command and behind it. -/
structure Parts where
  front : Reading
  command : CommandName
  behind : Reading
  deriving DecidableEq, Repr

/-- Reads the words from the first on. What is pending in front of the command is entered when the
    words behind it have been read. -/
def readFront : List String → Reading → Except Refusal Parts
  | [], _ => .error .usage
  | word :: words, r =>
    if r.waits then
      match shapeOf word with
      | .plain => readFront words (r.supply word)
      | .endOfOptions => .error .usage
      | shape =>
        match readOption (Key.allowed none) r shape with
        | .error e => .error e
        | .ok r => readFront words r
    else if word == "help" then .error (readHelp words)
    else
      match CommandName.ofText? word with
      | some command =>
        match readBehind (Key.allowed (some command)) words .start with
        | .error e => .error e
        | .ok behind => r.settle.map fun front => ⟨front, command, behind⟩
      | none =>
        match shapeOf word with
        | .plain | .endOfOptions => .error .usage
        | shape =>
          match readOption (Key.allowed none) r shape with
          | .error e => .error e
          | .ok r => readFront words r

/-! ## Commands -/

namespace Parts

/-- The value of an option; behind the command counts more than in front of it. -/
def value? (p : Parts) (key : Key) : Option String :=
  (p.behind.value? key).or (p.front.value? key)

def path? (p : Parts) (key : Key) : Option Path :=
  (p.value? key).map Path.ofText

def flag (p : Parts) (key : Key) : Bool :=
  (p.value? key).isSome

/-- The command with its options. An input that is required and missing is an error. -/
def command? (p : Parts) : Except Refusal Command :=
  match p.command, p.path? .input with
  | .decompile, some input =>
    .ok (.decompile input (p.path? .output) (p.value? .variant) (p.behind.values .classpath)
      (p.flag .kotlin))
  | .scan, some input => .ok (.scan input)
  | .options, _ => .ok (.options (p.flag .kotlin))
  | _, none => .error .usage

end Parts

/-- Reads a command line, given without the name of the program. -/
def read (words : List String) : Except Refusal CommandLine := do
  let parts ← readFront words .start
  let command ← parts.command?
  pure
    { command := command
      engine := parts.path? .engine
      marker := (parts.value? .marker).getD defaultMarker
      verbose := parts.flag .verbose }

end CommandLine

end SourceRecovery
