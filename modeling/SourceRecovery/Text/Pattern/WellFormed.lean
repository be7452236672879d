import SourceRecovery.Text.Pattern.Class
import SourceRecovery.Text.Pattern.Group

/-!
# Patterns

Which texts are regular expressions: alternatives between bars, groups in parentheses, classes in
brackets, repetition by `*`, `+` and `?`, escapes behind a backslash. What would need a table of
Unicode is refused, such as letters in any case; once a pattern switches Unicode off it is there,
and then speaks of ASCII. A count of repetition in braces is refused too, and so is a pattern whose
parts lie too deep in one another.

`wellFormed` is the test.
-/

namespace SourceRecovery.Text.Pattern

/-- How deep the parts of a pattern can lie in one another. -/
def deepest : Nat := 250

/-- A group that is being read, or the whole pattern. -/
structure OpenGroup where
  mode : Mode
  /-- How deep each alternative lies that is read already. -/
  branches : List Nat
  /-- How deep each part of this alternative lies, the last one first. -/
  parts : List Nat
  /-- Whether the last part can be repeated. -/
  repeatable : Bool
  deriving DecidableEq, Repr

namespace OpenGroup

/-- A group without a part. -/
def empty (m : Mode) : OpenGroup := ⟨m, [], [], false⟩

/-- The group with one more part. -/
def add (g : OpenGroup) (nesting : Nat) : OpenGroup :=
  { g with parts := nesting :: g.parts, repeatable := true }

/-- The group with its last part repeated, if that can be. -/
def repeated? (g : OpenGroup) : Option OpenGroup :=
  match g.parts with
  | nesting :: parts =>
    if g.repeatable then some { g with parts := (nesting + 1) :: parts } else none
  | [] => none

/-- The group behind a bar. -/
def barred (g : OpenGroup) : OpenGroup :=
  ⟨g.mode, gathered g.parts :: g.branches, [], false⟩

/-- The group behind a setting. -/
def set (g : OpenGroup) (m : Mode) : OpenGroup :=
  ⟨m, g.branches, 0 :: g.parts, false⟩

/-- How deep the parts lie. -/
def nesting (g : OpenGroup) : Nat :=
  gathered (gathered g.parts :: g.branches)

end OpenGroup

/-- Reads on in a group that lies in `outer` ones; `names` are those of the groups so far. Each step
    takes a character at least, so their count bounds the steps. -/
def readsOn : Nat → OpenGroup → List OpenGroup → List (List Char) → List Char → Bool
  | 0, _, _, _, _ => false
  | steps + 1, g, outer, names, cs =>
    match g.mode.skip cs with
    | [] => outer.isEmpty && g.nesting ≤ deepest
    | c :: rest =>
      match c with
      | '(' =>
        match opening? g.mode rest with
        | some (.group m none, rest) => readsOn steps (.empty m) (g :: outer) names rest
        | some (.group m (some name), rest) =>
          !names.contains name && readsOn steps (.empty m) (g :: outer) (name :: names) rest
        | some (.setting m, rest) => readsOn steps (g.set m) outer names rest
        | none => false
      | ')' =>
        match outer with
        | around :: outer => readsOn steps (around.add (g.nesting + 1)) outer names rest
        | [] => false
      | '|' => readsOn steps g.barred outer names rest
      | '*' | '+' | '?' =>
        match g.repeated? with
        | some g => readsOn steps g outer names (if rest.head? == some '?' then rest.tail else rest)
        | none => false
      | '\x7b' => false
      | '[' =>
        match class? g.mode rest with
        | some (nesting, rest) => readsOn steps (g.add nesting) outer names rest
        | none => false
      | '\\' =>
        match escape? g.mode rest with
        | some (atom, rest) => atom.standsAlone g.mode && readsOn steps (g.add 0) outer names rest
        | none => false
      | '.' => g.mode.unicode && readsOn steps (g.add 0) outer names rest
      | '^' | '$' => readsOn steps (g.add 0) outer names rest
      | c =>
        (Atom.character c.toNat).standsAlone g.mode && readsOn steps (g.add 0) outer names rest

/-- Whether a text is a pattern. -/
def wellFormed (cs : List Char) : Bool :=
  readsOn (cs.length + 1) (.empty .initial) [] [] cs

end SourceRecovery.Text.Pattern
