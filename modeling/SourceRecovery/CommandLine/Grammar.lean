import SourceRecovery.Text.Pieces

/-!
# The grammar of the command line

The commands, the options that each of them takes, and how an option is spelled. Options stand in
front of the command or behind it; those of the program as a whole may stand in either place.
-/

namespace SourceRecovery.CommandLine

/-- What the program can be asked for. -/
inductive CommandName where
  | decompile
  | scan
  | options
  deriving DecidableEq, Repr

namespace CommandName

def text : CommandName → String
  | .decompile => "decompile"
  | .scan => "scan"
  | .options => "options"

/-- The command of a name. -/
def ofText? (s : String) : Option CommandName :=
  [decompile, scan, options].find? fun c => c.text == s

end CommandName

/-- An option. -/
inductive Key where
  | engine
  | marker
  | verbose
  | help
  | input
  | output
  | variant
  | classpath
  | kotlin
  deriving DecidableEq, Repr

namespace Key

/-- The long spelling, behind two dashes. -/
def long : Key → String
  | .engine => "engine"
  | .marker => "marker"
  | .verbose => "verbose"
  | .help => "help"
  | .input => "input"
  | .output => "output"
  | .variant => "variant"
  | .classpath => "classpath"
  | .kotlin => "kt"

/-- The short spelling, behind one dash. -/
def short? : Key → Option Char
  | .verbose => some 'v'
  | .help => some 'h'
  | .input => some 'i'
  | .output => some 'o'
  | .classpath => some 'c'
  | _ => none

/-- Whether an option is followed by a value. -/
def takesValue : Key → Bool
  | .verbose | .help | .kotlin => false
  | _ => true

/-- Whether an option may be given more than once in one place. -/
def repeats : Key → Bool
  | .classpath => true
  | _ => false

/-- Whether the value of an option names a file, and so cannot be empty. -/
def namesFile : Key → Bool
  | .engine | .input | .output => true
  | _ => false

/-- The options of the program as a whole. -/
def general : List Key := [.engine, .marker, .verbose, .help]

/-- The options that may stand behind a command, or in front of any. -/
def allowed : Option CommandName → List Key
  | none => general
  | some .decompile => general ++ [.input, .output, .variant, .classpath, .kotlin]
  | some .scan => general ++ [.input]
  | some .options => general ++ [.kotlin]

end Key

/-- How the program is called. -/
def usage : String :=
  Text.join "\n"
    ["usage: [GENERAL] decompile -i DIR [-o DIR] [--variant TASK] [-c PATHS]... [--kt]",
      "       [GENERAL] scan -i DIR",
      "       [GENERAL] options [--kt]",
      "GENERAL: [--engine FILE] [--marker DESC] [-v] [-h]", ""]

end SourceRecovery.CommandLine
