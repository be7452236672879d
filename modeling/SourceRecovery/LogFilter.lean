import SourceRecovery.Event
import SourceRecovery.Text.Blank
import SourceRecovery.Text.Occurrence
import SourceRecovery.Text.Pattern.WellFormed
import SourceRecovery.Text.Pieces

/-!
# Log filters

Which events are shown. A filter is a list of rules between commas. A rule names the beginning of
the reporters that it is about, in brackets the span of time and in braces the field that it asks
for, and behind an equals sign the deepest level that it shows: `reporter[span{field}]=level`. Each
part can be left out, and a level can stand alone.

* `LogRule.ofText?` reads one rule, `ofText?` a filter.
* `ruleFor?`: of the rules about an event the most specific one counts.
* `choose`: a filter that cannot be read is none at all.
-/

namespace SourceRecovery

/-- One rule: the events it is about, and how far down they are shown. -/
structure LogRule where
  /-- The beginning of the names of the reporters it is about; none for all of them. -/
  reporter : Option String
  /-- The field that an event must have. -/
  field : Option String
  depth : Nat
  deriving DecidableEq, Repr

/-- Which events are shown. -/
abbrev LogFilter := List LogRule

namespace LogRule

/-! ## Levels by name and number -/

/-- A natural number in decimal digits, perhaps behind a plus sign. -/
def number? (cs : List Char) : Option Nat :=
  let digits := if cs.head? == some '+' then cs.tail else cs
  if digits.isEmpty || !digits.all Char.isDigit then none
  else some (digits.foldl (fun n d => 10 * n + (d.toNat - 48)) 0)

/-- How far down a level is, by its number or by its name in any case; `off` shows nothing. -/
def depthOf? (cs : List Char) : Option Nat :=
  match number? cs with
  | some depth => if depth ≤ Level.trace.depth then some depth else none
  | none =>
    let name := String.ofList (Text.lowerAscii cs)
    if name == "off" then some 0
    else
      ([Level.error, .warn, .info, .debug, .trace].find? fun l =>
        String.ofList (Text.lowerAscii l.name.toList) == name).map Level.depth

/-! ## Reading a rule

A rule is read without the blanks around it, but its parts are cut out of the whole text at the
places found in it. So blanks in front shift every part: the rule is then about names that nothing
has, and a level is never found. Blanks behind belong to the last part. -/

/-- The place of the first character from `start` on that satisfies `p`, or the end. -/
def placeOf (p : Char → Bool) (cs : List Char) (start : Nat) : Nat :=
  start + (cs.drop start).findIdx p

/-- The characters from `start` up to `stop`. -/
def part (cs : List Char) (start stop : Nat) : List Char :=
  (cs.take stop).drop start

/-- Whether a rule can begin with a character, brackets apart. -/
def canBegin (c : Char) : Bool :=
  c == '-' || c == ':' || c == '_' || Text.isAlphanumeric c

/-- How far down the events are shown, from the place on where only a level can stand. Without a
    level all of them are. -/
def depthFrom? (text : List Char) (start : Nat) : Option Nat :=
  match (Text.trimmed text)[start]? with
  | none => some Level.trace.depth
  | some '=' =>
    match text.drop (start + 1) with
    | [] => some Level.trace.depth
    | level => depthOf? level
  | some _ => none

/-- Whether a text is a number behind a plus sign, whole or not. -/
def isPositive : List Char → Bool
  | '+' :: cs =>
    let (whole, rest) := cs.span Char.isDigit
    let (point, rest) := if rest.head? == some '.' then (true, rest.tail) else (false, rest)
    let (places, rest) := if point then rest.span Char.isDigit else ([], rest)
    let word := String.ofList (Text.lowerAscii cs)
    word == "inf" || word == "infinity" || word == "nan" ||
      (!(whole.isEmpty && places.isEmpty) &&
        match rest with
        | [] => true
        | e :: rest =>
          (e == 'e' || e == 'E') &&
            let digits := if ['+', '-'].contains (rest.headD ' ') then rest.tail else rest
            !digits.isEmpty && digits.all Char.isDigit)
  | _ => false

/-- The field of a rule by its name, or `none` inside if it asks for a value too: values are those
    of spans, so no event has one. A value is a number or a pattern. -/
def field? (cs : List Char) : Option (Option String) :=
  match cs.splitOn '=' with
  | [] | [[]] => none
  | [name] => some (some (String.ofList name))
  | _ :: value :: _ =>
    if isPositive value || Text.Pattern.wellFormed value then some none else none

/-- The rules of a text from its bracket on. A rule about spans says nothing of events outside of
    them, so it is read and dropped. -/
def fromSpan? (text : List Char) (reporter : Option String) (start : Nat) :
    Option (List LogRule) :=
  let seen := Text.trimmed text
  let stop := placeOf (fun c => c == ']' || c == '\x7b') seen start
  match seen[stop]? with
  | some ']' => (depthFrom? text (stop + 1)).map fun _ => []
  | some '\x7b' =>
    let close := placeOf (· == '\x7d') seen (stop + 1)
    if seen[close + 1]? == some ']' then
      match field? (part text (stop + 1) close), depthFrom? text (close + 2) with
      | some (some name), some depth =>
        some (if stop == start then [⟨reporter, some name, depth⟩] else [])
      | some none, some _ => some []
      | _, _ => none
    else none
  | _ => none

/-- The rules of a text, one or none; `none` outside if the text is no rule. -/
def ofText? (text : List Char) : Option (List LogRule) :=
  match Text.trimmed text with
  | [] => none
  | '[' :: _ => fromSpan? text none 1
  | seen@(c :: _) =>
    if !canBegin c then none
    else
      let stop := placeOf (fun c => c == '=' || c == '[') seen 0
      let name := String.ofList (part text 0 stop)
      match seen[stop]? with
      | some '[' => fromSpan? text (some name) (stop + 1)
      | some _ => (depthFrom? text stop).map fun depth => [⟨some name, none, depth⟩]
      | none =>
        match depthOf? text with
        | some depth => some [⟨none, none, depth⟩]
        | none => some [⟨some (String.ofList text), none, Level.trace.depth⟩]

/-! ## What a rule is about -/

/-- Whether a rule is about an event. -/
def concerns (r : LogRule) (e : Event) : Bool :=
  r.reporter.all (·.toList.isPrefixOf e.reporter.toList) && r.field.all e.fieldNames.contains

/-- Whether a rule gives way to another about the same event: the longer reporter counts, then a
    field against none, then the later name of a field. -/
def yieldsTo (r s : LogRule) : Bool :=
  match compare (r.reporter.elim 0 (·.length + 1)) (s.reporter.elim 0 (·.length + 1)) with
  | .lt => true
  | .gt => false
  | .eq =>
    match r.field, s.field with
    | none, _ => true
    | some _, none => false
    | some a, some b => !(b < a)

end LogRule

namespace LogFilter

/-- The filter of a text; empty pieces are passed over. -/
def ofText? (s : String) : Option LogFilter :=
  (((s.toList.splitOn ',').filter (!·.isEmpty)).mapM LogRule.ofText?).map
    List.flatten

/-- The filter of a program: its variable's, or else everything down to a level, as `init_logging`
    takes it. -/
def choose (setting : Option String) (level : Level) : LogFilter :=
  (setting.bind ofText?).getD [⟨none, none, level.depth⟩]

/-- The rule that counts for an event: the most specific, and of equals the last. -/
def ruleFor? (filter : LogFilter) (e : Event) : Option LogRule :=
  (filter.filter (·.concerns e)).foldl
    (fun best rule =>
      match best with
      | some b => if b.yieldsTo rule then some rule else best
      | none => some rule)
    none

/-- Whether an event is shown. -/
def shows (filter : LogFilter) (e : Event) : Bool :=
  match ruleFor? filter e with
  | some rule => e.level.depth ≤ rule.depth
  | none => false

end LogFilter

end SourceRecovery
