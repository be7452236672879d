import SourceRecovery.Text.Hidden
import SourceRecovery.Text.Utf8

/-!
# Quoted text

Characters and texts between quotation marks, with escapes for what would not be seen.

* `quoteChar` quotes one character between apostrophes.
* `quoteBytes` quotes some bytes as text between double quotation marks.

Each escapes its own mark, the backslash, and the characters without a shape of their own. Bytes that
are no text are escaped one by one.
-/

namespace SourceRecovery.Text

/-- Lower-case hexadecimal digits, without leading zeros. -/
def hexDigits (n : Nat) : List Char :=
  Nat.toDigits 16 n

/-- One character inside quotation marks of the kind `mark`. -/
def escaped (mark c : Char) : List Char :=
  if c == Char.ofNat 0 then ['\\', '0']
  else if c == '\t' then ['\\', 't']
  else if c == '\r' then ['\\', 'r']
  else if c == '\n' then ['\\', 'n']
  else if c == mark || c == '\\' then ['\\', c]
  else if isHidden c then "\\u\x7b".toList ++ hexDigits c.toNat ++ "\x7d".toList
  else [c]

/-- A character between apostrophes. -/
def quoteChar (c : Char) : String :=
  String.ofList ('\'' :: escaped '\'' c ++ ['\''])

/-- One of the bytes that are no text, as two upper-case hexadecimal digits. -/
def escapedByte (b : UInt8) : List Char :=
  let digits := (hexDigits b.toNat).map Char.toUpper
  "\\x".toList ++ List.replicate (2 - digits.length) '0' ++ digits

/-- Bytes inside quotation marks. The counter holds how many bytes of the last sequence are still to
    be passed over. -/
def escapedBytes : Nat → Bytes → List Char
  | _, [] => []
  | k + 1, _ :: bs => escapedBytes k bs
  | 0, b :: bs =>
    match firstSequence b bs with
    | (some c, used) => escaped '\"' c ++ escapedBytes used bs
    | (none, used) => (b :: bs.take used).flatMap escapedByte ++ escapedBytes used bs

/-- Bytes between double quotation marks. -/
def quoteBytes (bytes : Bytes) : String :=
  String.ofList ('\"' :: escapedBytes 0 bytes ++ ['\"'])

end SourceRecovery.Text
