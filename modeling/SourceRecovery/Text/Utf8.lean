/-!
# UTF-8

Reading bytes as text, in two ways.

* `decode?` reads well-formed UTF-8 only.
* `decodeLossy` reads any bytes: each longest beginning of a well-formed sequence that does not
  go on as one, and each byte that begins none, is read as one U+FFFD.
-/

namespace SourceRecovery

/-- A sequence of bytes. -/
abbrev Bytes := List UInt8

namespace Text

/-- The bytes of a text in UTF-8. -/
def encode (s : String) : Bytes :=
  s.toUTF8.data.toList

/-- Where bytes are asked for, a text stands for its own. -/
instance : Coe String Bytes := ⟨encode⟩

/-- The text that the bytes spell, if they are well-formed UTF-8. -/
def decode? (bytes : Bytes) : Option String :=
  String.fromUTF8? ⟨bytes.toArray⟩

/-- The range that a byte of a sequence has to lie in. -/
structure ByteRange where
  low : UInt8
  high : UInt8
  deriving DecidableEq, Repr

namespace ByteRange

def contains (r : ByteRange) (b : UInt8) : Bool :=
  r.low ≤ b && b ≤ r.high

/-- The range of most bytes after the first. -/
def trailing : ByteRange := ⟨0x80, 0xBF⟩

end ByteRange

/-- What a first byte announces: its share of the code point, and the ranges of the bytes that have
    to follow. `none` for a byte that begins no sequence. -/
def announced (b : UInt8) : Option (Nat × List ByteRange) :=
  if b < 0x80 then some (b.toNat, [])
  else if b < 0xC2 then none
  else if b < 0xE0 then some (b.toNat - 0xC0, [.trailing])
  else if b == 0xE0 then some (0x0, [⟨0xA0, 0xBF⟩, .trailing])
  else if b == 0xED then some (0xD, [⟨0x80, 0x9F⟩, .trailing])
  else if b < 0xF0 then some (b.toNat - 0xE0, [.trailing, .trailing])
  else if b == 0xF0 then some (0x0, [⟨0x90, 0xBF⟩, .trailing, .trailing])
  else if b < 0xF4 then some (b.toNat - 0xF0, [.trailing, .trailing, .trailing])
  else if b == 0xF4 then some (0x4, [⟨0x80, 0x8F⟩, .trailing, .trailing])
  else none

/-- The first sequence of some bytes: the character it spells, `none` if it is ill-formed, and the
    number of bytes after the first that belong to it. -/
def completed (code used : Nat) : List ByteRange → Bytes → Option Char × Nat
  | [], _ => (some (Char.ofNat code), used)
  | _ :: _, [] => (none, used)
  | r :: rs, b :: bs =>
    if r.contains b then completed (code * 64 + (b.toNat - 0x80)) (used + 1) rs bs
    else (none, used)

/-- The first sequence of the bytes `b :: bs`. -/
def firstSequence (b : UInt8) (bs : Bytes) : Option Char × Nat :=
  match announced b with
  | none => (none, 0)
  | some (code, ranges) => completed code 0 ranges bs

/-- Reads the bytes in front of what is already read, given in reverse. The counter holds how many
    bytes of the last sequence are still to be passed over. -/
def decodeLossyFrom (read : List Char) : Nat → Bytes → List Char
  | _, [] => read.reverse
  | k + 1, _ :: bs => decodeLossyFrom read k bs
  | 0, b :: bs =>
    match firstSequence b bs with
    | (some c, used) => decodeLossyFrom (c :: read) used bs
    | (none, used) => decodeLossyFrom ('\uFFFD' :: read) used bs

/-- The text that the bytes spell, with U+FFFD for what is ill-formed. -/
def decodeLossy (bytes : Bytes) : String :=
  String.ofList (decodeLossyFrom [] 0 bytes)

end Text

end SourceRecovery
