import SourceRecovery.Text.Blank

/-!
# Atoms of a pattern

The smallest parts of a regular expression, and the modes that they are read in.

* `Mode.skip` passes over what a spaced pattern has between its parts.
* `escape?` reads what stands behind a backslash. What would need a table of Unicode is refused
  there: the escapes for digits, words, blanks and the edges of words.
-/

namespace SourceRecovery.Text.Pattern

/-! ## Modes -/

/-- How a part of a pattern is read. -/
structure Mode where
  unicode : Bool
  /-- A letter stands for itself in either case. -/
  anyCase : Bool
  /-- Blanks count for nothing, and a hash begins a comment up to the end of its line. -/
  spaced : Bool
  deriving DecidableEq, Repr

/-- The characters from the first one on that is neither blank nor part of a comment; the flag tells
    whether they begin inside of a comment. -/
def withoutComments : Bool → List Char → List Char
  | _, [] => []
  | true, c :: cs => withoutComments (c != '\n') cs
  | false, c :: cs =>
    if isBlank c then withoutComments false cs
    else if c == '#' then withoutComments true cs
    else c :: cs

namespace Mode

/-- The mode that a pattern begins in. -/
def initial : Mode := ⟨true, false, false⟩

/-- The mode that the letters of a setting lead to; those behind the dash are switched off. -/
def switched (m : Mode) (letters : List Char) : Mode :=
  let on := letters.takeWhile (· != '-')
  let off := letters.dropWhile (· != '-')
  let set (letter : Char) (before : Bool) := (before || on.contains letter) && !off.contains letter
  ⟨set 'u' m.unicode, set 'i' m.anyCase, set 'x' m.spaced⟩

/-- Whether single characters can be named: no table says which cases a Unicode letter has. -/
def namesCharacters (m : Mode) : Bool :=
  !(m.unicode && m.anyCase)

/-- The rest from the next part of the pattern on. -/
def skip (m : Mode) (cs : List Char) : List Char :=
  if m.spaced then withoutComments false cs else cs

end Mode

/-! ## Atoms -/

/-- What a character or an escape stands for. -/
inductive Atom where
  | character (code : Nat)
  /-- A character given as a byte. -/
  | byte (code : Nat)
  /-- One of a kind of characters. -/
  | kind
  /-- A place between characters. -/
  | place
  deriving DecidableEq, Repr

namespace Atom

def code? : Atom → Option Nat
  | .character code | .byte code => some code
  | .kind | .place => none

/-- Whether an atom can stand by itself. Without Unicode a byte above ASCII is no character. -/
def standsAlone (m : Mode) : Atom → Bool
  | .character _ => m.namesCharacters
  | .byte code => m.namesCharacters && (m.unicode || code < 0x80)
  | .kind | .place => true

/-- Whether an atom can be a member of a class. Without Unicode a class holds ASCII alone. -/
def isMember (m : Mode) : Atom → Bool
  | .character code | .byte code => m.namesCharacters && (m.unicode || code < 0x80)
  | .kind => true
  | .place => false

end Atom

/-! ## Escapes -/

def isHexDigit (c : Char) : Bool :=
  c.isDigit || ('a' ≤ c.toLower && c.toLower ≤ 'f')

def hexValue (c : Char) : Nat :=
  if c.isDigit then c.toNat - 48 else c.toLower.toNat - 87

/-- A number of so many hexadecimal digits, added to the digits read before, and the rest. -/
def hexCode? (m : Mode) : Nat → Nat → List Char → Option (Nat × List Char)
  | 0, code, cs => some (code, cs)
  | width + 1, code, cs =>
    match m.skip cs with
    | d :: rest => if isHexDigit d then hexCode? m width (16 * code + hexValue d) rest else none
    | [] => none

/-- A character by its code point, in so many hexadecimal digits, and the rest. -/
def ofCode? (m : Mode) (width : Nat) (cs : List Char) : Option (Nat × List Char) :=
  (hexCode? m width 0 cs).filter (·.1.isValidChar)

/-- The letters that name a control character. -/
def controlLetters : List (Char × Nat) :=
  [('a', 0x7), ('t', 0x9), ('n', 0xA), ('v', 0xB), ('f', 0xC), ('r', 0xD)]

/-- What stands behind a backslash, and the rest. Punctuation stands for itself. -/
def escape? (m : Mode) : List Char → Option (Atom × List Char)
  | [] => none
  | 'x' :: cs => (ofCode? m 2 cs).map fun (code, rest) => (.byte code, rest)
  | 'u' :: cs => (ofCode? m 4 cs).map fun (code, rest) => (.character code, rest)
  | 'U' :: cs => (ofCode? m 8 cs).map fun (code, rest) => (.character code, rest)
  | c :: cs =>
    match controlLetters.lookup c with
    | some code => some (.character code, cs)
    | none =>
      if ['A', 'z'].contains c then some (.place, cs)
      else if ['b', 'B', '<', '>'].contains c then
        if m.unicode then none else some (.place, cs)
      else if ['d', 's', 'w'].contains c then
        if m.unicode then none else some (.kind, cs)
      else if c.toNat < 0x80 && !c.isAlphanum then some (.character c.toNat, cs)
      else none

/-! ## Nesting -/

/-- How deep parts lie that stand side by side: one part is no deeper than it is, several are one
    deeper than the deepest of them. -/
def gathered : List Nat → Nat
  | [] => 0
  | [n] => n
  | ns => ns.foldl max 0 + 1

end SourceRecovery.Text.Pattern
