import SourceRecovery.Text.Alphanumeric
import SourceRecovery.Text.Pattern.Atom

/-!
# Groups of a pattern

What a parenthesis opens in a regular expression: a group, perhaps with a name or with a mode of its
own, or a setting for the rest of the group around it.

* `opening?` reads what stands behind the parenthesis.
-/

namespace SourceRecovery.Text.Pattern

/-- What a parenthesis opens. -/
inductive Opening where
  | group (mode : Mode) (name : Option (List Char))
  /-- No group: the rest of the one around it is read in another mode. -/
  | setting (mode : Mode)
  deriving DecidableEq, Repr

/-- Whether characters name a group. -/
def isGroupName : List Char → Bool
  | [] => false
  | c :: cs =>
    (c == '_' || isAlphabetic c) &&
      cs.all fun d => ['_', '.', '[', ']'].contains d || isAlphanumeric d

/-- A group from its name on, and the rest. -/
def namedGroup? (m : Mode) (cs : List Char) : Option (Opening × List Char) :=
  let name := cs.takeWhile (· != '>')
  match cs.drop name.length with
  | _ :: rest => if isGroupName name then some (.group m (some name), rest) else none
  | [] => none

/-- A setting for a group or for the rest of one, from its letters on: each at most once, and one
    behind the dash if there is a dash. -/
def set? (m : Mode) (cs : List Char) : Option (Opening × List Char) :=
  let letters := cs.takeWhile fun c => c != ':' && c != ')'
  if letters.all "imsUuRx-".toList.contains && letters.Nodup && letters.getLast? != some '-' then
    match cs.drop letters.length with
    | ':' :: rest => some (.group (m.switched letters) none, rest)
    | ')' :: rest => if letters.isEmpty then none else some (.setting (m.switched letters), rest)
    | _ => none
  else none

/-- What stands behind an opening parenthesis, and the rest. -/
def opening? (m : Mode) (cs : List Char) : Option (Opening × List Char) :=
  match m.skip cs with
  | '?' :: 'P' :: '<' :: rest | '?' :: '<' :: rest => namedGroup? m rest
  | '?' :: rest => set? m rest
  | rest => some (.group m none, rest)

end SourceRecovery.Text.Pattern
