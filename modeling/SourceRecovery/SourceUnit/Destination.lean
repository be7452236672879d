import SourceRecovery.Path.Basic
import SourceRecovery.SourceUnit.Basic
import SourceRecovery.Text.Pieces

/-!
# Destinations

Where a source unit is written below an output root. With a qualified name its folders are the
names in front of the last, and the unit's own folder does not count; without one its own folder
is taken. Whatever the unit says, the destination is the root followed by plain names.
-/

namespace SourceRecovery.SourceUnit

/-- The trimmed pieces of a text that can be names of folders (`segments`). -/
def folderNames (separators : List Char) (text : String) : List String :=
  ((Text.pieces separators.contains text).map Text.trim).filter fun w =>
    w != "" && w != "." && w != ".."

/-- The file name of a unit without blanks around it, if it is one plain name (`plain_file_name`).
    -/
def plainName? (entryName : String) : Option String :=
  let name := Text.trim entryName
  if name == "" || name == "." || name == ".." || name.toList.contains '/' ||
      name.toList.contains '\\' then
    none
  else some name

/-- The folders below the output root that a unit belongs in: the names that `destination` extends
    the root by. -/
def folders (u : SourceUnit) : List String :=
  match u.qualifiedName with
  | some name =>
    if Text.allBlank name then folderNames ['/', '\\'] u.folder
    else (folderNames ['.', '/'] name).dropLast
  | none => folderNames ['/', '\\'] u.folder

/-- The path that a unit is written to; none if its file name is not one plain name (`destination`).
    -/
def destination? (root : Path) (u : SourceUnit) : Option Path :=
  (plainName? u.entryName).map fun name =>
    (root.descend (u.folders.map Text.encode)).join (.ofText name)

end SourceRecovery.SourceUnit
