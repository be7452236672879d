import SourceRecovery.ClassName
import SourceRecovery.Document
import SourceRecovery.Engine.Options
import SourceRecovery.Run.Basic

/-!
# Reports

What the commands print when they succeed.
-/

namespace SourceRecovery.Report

/-- The outcome of a run that took `elapsed` milliseconds (`RunOutcome` as `dispatch` prints it). -/
def ofOutcome (o : Outcome) (elapsed : Nat) : Document :=
  .record
    [("input_dir", .text o.input.text),
      ("output_dir", .text o.output.text),
      ("kt_enable", .bool o.kotlin),
      ("scanned_classes", .number o.scanned),
      ("matched_classes", .list (o.classes.map fun p => .text p.text)),
      ("written", .list (o.written.map fun f =>
        .record [("path", .text f.path), ("content_hash", .text f.digest)])),
      ("dropped_records", .number o.dropped),
      ("duration_ms", .number elapsed)]

/-- The selection from a folder (`ScanResult`). -/
def ofSelection (input : Path) (marker : String) (s : Selection) : Document :=
  .record
    [("input_dir", .text input.text),
      ("marker", .text marker),
      ("scanned_classes", .number s.scanned),
      ("matched", .list (s.classes.map fun file =>
        .record
          [("class_name", ((ClassName.ofPath? input file).map Document.text).getD .null),
            ("path", .text file.text)]))]

/-- The wording of the failure to print a selection with a path that is no text. -/
def unprintable : String := "path contains invalid UTF-8 characters"

/-- The options of the engine (`EngineOption`, one record each). -/
def ofProfile (choices : List Engine.Choice) : Document :=
  .list (choices.map fun o =>
    .record [("key", .text o.key), ("name", .text o.name), ("value", .text o.value)])

/-- A report as it is printed. -/
def print (d : Document) : String :=
  d.render 0 ++ "\n"

end SourceRecovery.Report
