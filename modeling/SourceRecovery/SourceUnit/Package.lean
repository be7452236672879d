import SourceRecovery.Text.Blank
import SourceRecovery.Text.Pieces

/-!
# Declared packages

The package that a source in Java or Kotlin declares, read line by line: the first line that begins
with `package ` names it, unless a line that begins a declaration comes first.

* `Package.declared?` is the package of a text.
* `Package.qualifiedName?` puts the stem of the file name behind it.
-/

namespace SourceRecovery.Package

/-- The words that a declaration begins with, each with the space behind it: the `KEYWORDS` of
    `starts_declaration`. -/
def declarationWords : List String :=
  ["import ", "class ", "interface ", "enum ", "record ", "object ", "fun ", "public ", "private ",
    "internal ", "abstract ", "final "]

/-- Whether a line begins a declaration (`starts_declaration`). -/
def beginsDeclaration (line : List Char) : Bool :=
  declarationWords.any fun word => word.toList.isPrefixOf line

/-- The word that a package line begins with, and the space behind it. -/
def packageWord : List Char :=
  "package ".toList

/-- The name on a package line: what follows the word, without the semicolons at the end, backticks
    and blanks. Nothing is left of a line that names no package. -/
def nameOnLine (line : List Char) : List Char :=
  let rest := line.drop packageWord.length
  let bare := (rest.reverse.dropWhile (· == ';')).reverse
  bare.filter fun c => c != '`' && !Text.isBlank c

/-- The package that some trimmed lines declare: the loop of `extract_package`. -/
def declaredByLines? : List (List Char) → Option (List Char)
  | [] => none
  | line :: rest =>
    if packageWord.isPrefixOf line then
      if (nameOnLine line).isEmpty then none else some (nameOnLine line)
    else if beginsDeclaration line then none
    else declaredByLines? rest

/-- The package that a text declares (`extract_package`). -/
def declared? (content : String) : Option String :=
  (declaredByLines? ((Text.lines content.toList).map Text.trimmed)).map String.ofList

/-- A file name up to its last dot; the whole name if it has none. -/
def stem (entryName : String) : String :=
  let cs := entryName.toList
  if cs.contains '.' then String.ofList ((cs.reverse.dropWhile (· != '.')).drop 1).reverse
  else entryName

/-- The full name of the type that a file holds, if its text declares a package (`qualified_name`).
    -/
def qualifiedName? (content entryName : String) : Option String :=
  match declared? content with
  | none => none
  | some package =>
    if stem entryName == "" then none else some (package ++ "." ++ stem entryName)

end SourceRecovery.Package
