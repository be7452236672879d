import SourceRecovery.Path.Basic

/-!
# Stem and extension

A file name splits at its last dot into a stem and an extension. A name without a dot, or with its
only dot at the front, is all stem.
-/

namespace SourceRecovery.Path

/-- The bytes in front of the last dot and those behind it. -/
def splitLastDot (bs : Bytes) : Option (Bytes × Bytes) :=
  let ext := (bs.reverse.takeWhile (· != dot)).reverse
  if ext.length < bs.length then some (bs.take (bs.length - ext.length - 1), ext) else none

/-- A file name as its stem and its extension. -/
def stemAndExtension (name : Name) : Name × Option Name :=
  match splitLastDot name with
  | none | some ([], _) => (name, none)
  | some (stem, ext) => (stem, some ext)

/-- The extension of the file that a path names. -/
def extension? (p : Path) : Option Name :=
  p.fileName?.bind fun name => (stemAndExtension name).2

end SourceRecovery.Path
