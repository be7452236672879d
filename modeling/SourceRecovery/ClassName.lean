import SourceRecovery.Path.FileName
import SourceRecovery.Text.Pieces

/-!
# Class names

The name of the class that a class file holds, read off its path: the names below a root, joined by
dots, without the extension of the last.
-/

namespace SourceRecovery.ClassName

/-- A file name without its extension. The stem of one dot stays as two, for a name that is nothing
    but a dot would be no name of a file. -/
def withoutExtension (name : Name) : Name :=
  let stem := (Path.stemAndExtension name).1
  if stem == [Path.dot] then [Path.dot, Path.dot] else stem

/-- The last of some components without its extension, as `with_extension` leaves it. -/
def dropExtension : List Path.Component → List Path.Component
  | [] => []
  | [.name w] => [.name (withoutExtension w)]
  | c :: cs => c :: dropExtension cs

/-- The class name of the file at `file`, seen from `root`; none for a file that is not below the
    root, and for the root itself (`class_path_to_class_name`). Components that are no text are
    shown with U+FFFD. -/
def ofPath? (root file : Path) : Option String :=
  match root.stripBase? file with
  | none => none
  | some rest =>
    match dropExtension rest.components with
    | [] => none
    | cs => some (Text.join "." (cs.map Path.Component.text))

end SourceRecovery.ClassName
