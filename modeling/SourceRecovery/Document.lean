import SourceRecovery.Text.Pieces
import SourceRecovery.Text.Quoted

/-!
# Documents

Reports are written as JSON with one member or element per line, indented by two spaces for each
level. Texts are written with the shortest escapes, and only for what has to be escaped.
-/

namespace SourceRecovery

/-- A value in a report. -/
inductive Document where
  | null
  | bool (value : Bool)
  | number (value : Nat)
  | text (value : String)
  | list (elements : List Document)
  | record (members : List (String × Document))

namespace Document

/-- A control character as `\u` and four lower-case hexadecimal digits. -/
def codeEscape (c : Char) : List Char :=
  let digits := Text.hexDigits c.toNat
  "\\u".toList ++ List.replicate (4 - digits.length) '0' ++ digits

/-- One character inside a quoted text. -/
def escaped (c : Char) : List Char :=
  if c == '\"' || c == '\\' then ['\\', c]
  else if c == '\n' then ['\\', 'n']
  else if c == '\r' then ['\\', 'r']
  else if c == '\t' then ['\\', 't']
  else if c.toNat == 0x8 then ['\\', 'b']
  else if c.toNat == 0xC then ['\\', 'f']
  else if c.toNat < 0x20 then codeEscape c
  else [c]

/-- A text in quotation marks. -/
def quoted (s : String) : String :=
  String.ofList ('\"' :: s.toList.flatMap escaped ++ ['\"'])

/-- The start of a line at a level. -/
def newline (level : Nat) : String :=
  String.ofList ('\n' :: List.replicate (2 * level) ' ')

/-- Something between two marks, one item per line; nothing at all stays on the line. -/
def block (level : Nat) (first last : String) (items : List String) : String :=
  if items.isEmpty then first ++ last
  else
    first ++ Text.join "," (items.map fun item => newline (level + 1) ++ item) ++
      newline level ++ last

mutual

/-- A document at a level of indentation. -/
def render (level : Nat) : Document → String
  | .null => "null"
  | .bool value => if value then "true" else "false"
  | .number value => toString value
  | .text value => quoted value
  | .list elements => block level "[" "]" (renderList (level + 1) elements)
  | .record members => block level "\x7b" "\x7d" (renderMembers (level + 1) members)

def renderList (level : Nat) : List Document → List String
  | [] => []
  | d :: ds => render level d :: renderList level ds

def renderMembers (level : Nat) : List (String × Document) → List String
  | [] => []
  | (key, d) :: ds => (quoted key ++ ": " ++ render level d) :: renderMembers level ds

end

end Document

end SourceRecovery
