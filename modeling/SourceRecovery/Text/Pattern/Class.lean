import SourceRecovery.Text.Pattern.Atom

/-!
# Classes of a pattern

Sets of characters in brackets: members, ranges, named classes between colons, classes in classes,
and the operators `&&`, `--` and `~~`.

* `class?` reads a class and tells how deep it is nested.
-/

namespace SourceRecovery.Text.Pattern

/-- The names of classes. -/
def classNames : List String :=
  ["alnum", "alpha", "ascii", "blank", "cntrl", "digit", "graph", "lower", "print", "punct",
    "space", "upper", "word", "xdigit"]

/-- Behind a bracket, a named class between colons: whether it is negated, and the rest. -/
def named? : List Char → Option (Bool × List Char)
  | ':' :: cs =>
    let negated := cs.head? == some '^'
    let cs := if negated then cs.tail else cs
    match cs.dropWhile (· != ':') with
    | ':' :: ']' :: rest =>
      if classNames.contains (String.ofList (cs.takeWhile (· != ':'))) then some (negated, rest)
      else none
    | _ => none
  | _ => none

/-- One member of a class, and the rest. -/
def member? (m : Mode) : List Char → Option (Atom × List Char)
  | [] => none
  | '\\' :: cs => escape? m cs
  | c :: cs => some (.character c.toNat, cs)

/-- The character that decides behind a dash whether it makes a range. Of a comment that is the
    first character that is not blank. -/
def decider? (m : Mode) (cs : List Char) : Option Char :=
  if m.spaced then
    match trimStart cs with
    | '#' :: rest => (trimStart rest).head?
    | rest => rest.head?
  else cs.head?

/-- The rest after a member of a class, or after a range from one character up to another. -/
def memberOrRange? (m : Mode) (cs : List Char) : Option (List Char) := do
  let (low, rest) ← member? m cs
  if !low.isMember m then none
  else
    match m.skip rest with
    | '-' :: after =>
      if decider? m after == some ']' || decider? m after == some '-' then some rest
      else
        let (high, rest) ← member? m (m.skip after)
        if high.isMember m && (← low.code?) ≤ (← high.code?) then some rest else none
    | _ => some rest

/-- A class that is being read. -/
structure OpenClass where
  /-- How deep each member of the operand lies that is being read. -/
  members : List Nat
  /-- How deep the operands before it lie. -/
  left : Option Nat
  /-- Nothing has been read but dashes. -/
  fresh : Bool
  deriving DecidableEq, Repr

namespace OpenClass

def empty : OpenClass := ⟨[], none, true⟩

/-- The operands up to now, taken as one. -/
def operand (k : OpenClass) : Nat :=
  match k.left with
  | none => gathered k.members
  | some left => max left (gathered k.members) + 1

/-- The class with one more member. -/
def add (k : OpenClass) (nesting : Nat) : OpenClass :=
  ⟨nesting :: k.members, k.left, false⟩

/-- The class behind an operator. -/
def operated (k : OpenClass) : OpenClass :=
  ⟨[], some k.operand, false⟩

/-- How deep the class lies once it is closed. -/
def nesting (k : OpenClass) : Nat :=
  k.operand + 1

end OpenClass

/-- The rest behind the bracket of a class and its negation. Without Unicode a negated class would
    hold halves of characters; in any case one cannot lie in another class. -/
def classOpened? (m : Mode) (inner : Bool) (cs : List Char) : Option (List Char) :=
  match m.skip cs with
  | '^' :: rest => if m.unicode && (m.namesCharacters || !inner) then some rest else none
  | rest => some rest

/-- Reads on in a class that lies in `outer` ones: how deep the outermost is nested, and the rest
    after it. Dashes and one closing bracket stand for themselves where a class begins. Each step
    takes a character at least, so their count bounds the steps. -/
def classEnd? (m : Mode) :
    Nat → OpenClass → List OpenClass → List Char → Option (Nat × List Char)
  | 0, _, _, _ => none
  | steps + 1, k, outer, cs =>
    match m.skip cs with
    | [] => none
    | c :: rest =>
      if k.fresh && (c == '-' || (c == ']' && k.members.isEmpty)) then
        if m.namesCharacters then
          classEnd? m steps ⟨0 :: k.members, none, c == '-'⟩ outer rest
        else none
      else if c == ']' then
        match outer with
        | [] => some (k.nesting, rest)
        | around :: outer => classEnd? m steps (around.add k.nesting) outer rest
      else if c == '[' then
        match named? rest with
        | some (negated, rest) =>
          if m.namesCharacters && (m.unicode || !negated) then
            classEnd? m steps (k.add 0) outer rest
          else none
        | none => (classOpened? m true rest).bind (classEnd? m steps .empty (k :: outer))
      else if ['&', '-', '~'].contains c && rest.head? == some c then
        classEnd? m steps k.operated outer rest.tail
      else (memberOrRange? m (c :: rest)).bind (classEnd? m steps (k.add 0) outer)

/-- A class from behind its bracket on: how deep it is nested, and the rest. -/
def class? (m : Mode) (cs : List Char) : Option (Nat × List Char) :=
  (classOpened? m false cs).bind fun rest => classEnd? m rest.length .empty [] rest

end SourceRecovery.Text.Pattern
