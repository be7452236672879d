import SourceRecovery.Text.Utf8

/-!
# Paths

A path is a sequence of bytes in which slashes separate names. The bytes need not be text. Two paths
are compared by their components, but every path keeps its spelling: repeated slashes, dots and a
slash at the end count for nothing when components are taken, and stay where the path is shown.

* `components` reads a path.
* `join`, `parent?` and `stripBase?` build paths from paths and keep the spelling of what they keep.
-/

namespace SourceRecovery

/-- A name as the system keeps it: any bytes. -/
abbrev Name := Bytes

/-- A path as it is spelled. -/
structure Path where
  bytes : Bytes
  deriving DecidableEq, Repr, Inhabited

namespace Path

/-- The path that a text spells. -/
def ofText (s : String) : Path :=
  ⟨s⟩

/-- A path as it is shown: what is no text in it is shown as U+FFFD. -/
def text (p : Path) : String :=
  Text.decodeLossy p.bytes

/-- Whether a path is text. -/
def isText (p : Path) : Bool :=
  (Text.decode? p.bytes).isSome

/-- One step of a path. -/
inductive Component where
  /-- The slash that an absolute path begins with. -/
  | root
  /-- A dot that a relative path begins with; dots elsewhere are no components. -/
  | here
  | up
  | name (w : Name)
  deriving DecidableEq, Repr

/-- A component as it is shown. -/
def Component.text : Component → String
  | .root => "/"
  | .here => "."
  | .up => ".."
  | .name w => Text.decodeLossy w

/-! ## Pieces -/

/-- The byte between the names of a path. -/
def slash : UInt8 := 0x2F

/-- The byte of a dot. -/
def dot : UInt8 := 0x2E

/-- The pieces between the slashes. -/
def slashPieces (p : Path) : List Name :=
  p.bytes.splitOn slash

/-- The path whose pieces these are. -/
def ofPieces (ws : List Name) : Path :=
  ⟨[slash].intercalate ws⟩

/-- Whether a piece that stands behind another one counts for nothing. -/
def isIdle (w : Name) : Bool :=
  w == [] || w == [dot]

/-- The component that a piece names, if it counts. -/
def componentOf? (w : Name) : Option Component :=
  if isIdle w then none else if w == [dot, dot] then some .up else some (.name w)

/-- Whether a path begins at the root. -/
def isAbsolute (p : Path) : Bool :=
  p.bytes.head? == some slash

/-- Whether a path begins with a dot as its first piece. -/
def beginsHere (p : Path) : Bool :=
  p.slashPieces.head? == some [dot]

/-- The component that a path begins with and no later piece can give. -/
def lead (p : Path) : List Component :=
  if p.isAbsolute then [.root] else if p.beginsHere then [.here] else []

/-- The components of a path. -/
def components (p : Path) : List Component :=
  p.lead ++ p.slashPieces.filterMap componentOf?

/-! ## Building paths -/

/-- One path behind another. An absolute path stands for itself, and a path joined with the empty
    one ends in a slash. -/
def join (p q : Path) : Path :=
  if q.isAbsolute then q
  else if p.bytes == [] || p.bytes.getLast? == some slash then ⟨p.bytes ++ q.bytes⟩
  else ⟨p.bytes ++ slash :: q.bytes⟩

/-- Names one behind the other, from a path on. -/
def descend (p : Path) (names : List Name) : Path :=
  names.foldl (fun q w => q.join ⟨w⟩) p

/-- The number of pieces at the front that a path keeps when it is cut from its end: the piece in
    front of the first slash of an absolute path, or a leading dot. -/
def leadLength (p : Path) : Nat :=
  p.lead.length

/-- The pieces without those at the end that count for nothing. The first `n` pieces stay. -/
def dropIdleEnd (n : Nat) (ws : List Name) : List Name :=
  ws.take n ++ ((ws.drop n).reverse.dropWhile isIdle).reverse

/-- The path that the first pieces of another path spell; the empty piece alone is the root. -/
def ofFront (ws : List Name) : Path :=
  if ws == [[]] then ⟨[slash]⟩ else ofPieces ws

/-- The path without its last component; `none` for the root and for the empty path. -/
def parent? (p : Path) : Option Path :=
  let n := p.leadLength
  let ws := dropIdleEnd n p.slashPieces
  if n < ws.length then some (ofFront (dropIdleEnd n ws.dropLast))
  else if p.lead = [.here] then some ⟨[]⟩
  else none

/-- The pieces behind the first `n` that count. -/
def dropCounted : Nat → List Name → List Name
  | 0, ws => ws
  | _ + 1, [] => []
  | n + 1, w :: ws => if isIdle w then dropCounted (n + 1) ws else dropCounted n ws

/-- What is left of a path behind another one whose components it begins with. -/
def stripBase? (base p : Path) : Option Path :=
  let b := base.components
  if b.isPrefixOf p.components then
    if b.isEmpty then
      some (ofFront (dropIdleEnd p.leadLength p.slashPieces))
    else
      let ws := dropCounted (b.length - p.leadLength) (p.slashPieces.drop p.leadLength)
      some (ofPieces ((dropIdleEnd 0 ws).dropWhile isIdle))
  else none

/-- The last component, if it is a name. -/
def fileName? (p : Path) : Option Name :=
  match p.components.getLast? with
  | some (.name w) => some w
  | _ => none

end Path

end SourceRecovery
