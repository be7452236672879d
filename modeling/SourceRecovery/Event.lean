import SourceRecovery.Path.Basic
import SourceRecovery.Text.Quoted

/-!
# Events

What the program reports while it works, as data: each event has a level, a message and named
values.
-/

namespace SourceRecovery

/-- How much an event matters; the order is from errors down. -/
inductive Level where
  | error
  | warn
  | info
  | debug
  | trace
  deriving DecidableEq, Repr

namespace Level

def name : Level → String
  | .error => "ERROR"
  | .warn => "WARN"
  | .info => "INFO"
  | .debug => "DEBUG"
  | .trace => "TRACE"

/-- How far down a level is. -/
def depth : Level → Nat
  | .error => 1
  | .warn => 2
  | .info => 3
  | .debug => 4
  | .trace => 5

end Level

/-- Something worth telling: the log lines of the run, the download and the program, those about an
    engine, its jar and its folder at debug level left out. -/
inductive Event where
  | outputFolder (folder : Path)
  | inputFolder (folder : Path)
  | markerFound (file : Path) (method : String)
  | nothingMarked (marker : String) (input : Path)
  | marked (count : Nat) (marker : String)
  | processing (file : Path)
  | blankDropped (entry : String)
  | unusableDropped (entry : String)
  | finished (output : Path) (written dropped : Nat)
  | runFailed (chain : String)
  | downloading (target : Path)
  /-- The program ends because of this. -/
  | fatal (text : String)
  deriving DecidableEq, Repr

namespace Event

def level : Event → Level
  | .markerFound .. | .blankDropped _ => .debug
  | .unusableDropped _ => .warn
  | .runFailed _ | .fatal _ => .error
  | _ => .info

def message : Event → String
  | .outputFolder folder => "Output directory: " ++ folder.text
  | .inputFolder folder => "Input directory: " ++ folder.text
  | .markerFound _ _ => "marker found"
  | .nothingMarked marker input =>
    "Skipping decompilation: no methods annotated with " ++ marker ++ " found in " ++ input.text
  | .marked count marker =>
    "Found " ++ toString count ++ " classes with " ++ marker ++ " annotations."
  | .processing file => "Processing: " ++ file.text
  | .blankDropped _ => "dropping blank record"
  | .unusableDropped _ => "dropping record with unusable entry name"
  | .finished output _ _ => "Compose Decompiler output directory: " ++ output.text
  | .runFailed _ => "Failed to decompile classes"
  | .downloading target => "Vineflower not found, downloading to " ++ target.text
  | .fatal text => text

/-- The named values of an event. -/
def fields : Event → List (String × String)
  | .markerFound file method => [("class", file.text), ("method", method)]
  | .blankDropped entry | .unusableDropped entry => [("entry", entry)]
  | .finished _ written dropped => [("written", toString written), ("dropped", toString dropped)]
  | .runFailed chain => [("cause", chain)]
  | _ => []

/-- The names under which an event can be asked for what it holds. -/
def fieldNames (e : Event) : List String :=
  "message" :: e.fields.map (·.1)

/-- The part of the program that reports an event, as a log filter names it. -/
def reporter : Event → String
  | .downloading _ => "compose_decompiler::config"
  | .fatal _ => "compose_decompiler"
  | _ => "compose_decompiler::driver"

/-- A character of a message as the log shows it: one that could steer a terminal is escaped. -/
def shownCharacter (c : Char) : List Char :=
  let n := c.toNat
  let digits := Text.hexDigits n
  if n == 0x7 || n == 0x8 || n == 0xC || n == 0x1B || n == 0x7F then
    "\\x".toList ++ List.replicate (2 - digits.length) '0' ++ digits
  else if 0x80 ≤ n && n ≤ 0x9F then "\\u\x7b".toList ++ digits ++ "\x7d".toList
  else [c]

/-- A message as the log shows it. -/
def shown (message : String) : String :=
  String.ofList (message.toList.flatMap shownCharacter)

/-- An event as a line of the log. -/
def line (e : Event) : String :=
  e.level.name ++ " " ++ shown e.message ++
    String.join (e.fields.map fun f => " " ++ f.1 ++ "=" ++ f.2)

end Event

end SourceRecovery
