import SourceRecovery.ClassFile.ConstantPool

/-!
# Marks in an attribute

The attributes of a method that list its annotations, and the search for one annotation type among
them. Only an annotation of the list itself counts: one that stands inside an element value of
another is passed over with that value.
-/

namespace SourceRecovery.ClassFile

/-! ## Element values -/

/-- What a tag says about the element value behind it. -/
inductive ElementKind where
  /-- One constant: a number, a text or a class. -/
  | constant
  /-- A type and the name of one of its constants. -/
  | enumConstant
  /-- An annotation: a type and its element pairs. -/
  | nested
  /-- A count and as many element values. -/
  | array
  deriving DecidableEq, Repr

/-- The kinds of element values, by their tags. -/
def ElementKind.ofTag? (tag : UInt8) : Option ElementKind :=
  match Char.ofNat tag.toNat with
  | 'B' | 'C' | 'D' | 'F' | 'I' | 'J' | 'S' | 'Z' | 's' | 'c' => some .constant
  | 'e' => some .enumConstant
  | '@' => some .nested
  | '[' => some .array
  | _ => none

/-- Passes over one element value that is nested at most `depth` deep (`skip_element_value`). Each
    level takes a byte of its own, so the number of bytes left is always depth enough. -/
def skipValue : Nat → Reader Unit
  | 0 => Reader.ended
  | depth + 1 => do
    let tag ← Reader.u1
    match ElementKind.ofTag? tag with
    | some .constant => Reader.skip 2
    | some .enumConstant => Reader.skip 4
    | some .nested =>
      Reader.skip 2
      let pairs ← Reader.u2
      Reader.times pairs do
        Reader.skip 2
        skipValue depth
    | some .array =>
      let values ← Reader.u2
      Reader.times values (skipValue depth)
    | none => throw (.unknownElementTag tag)

/-- Passes over a count and as many pairs of an element name and an element value
    (`skip_element_pairs`). -/
def skipPairs (depth : Nat) : Reader Unit := do
  let pairs ← Reader.u2
  Reader.times pairs do
    Reader.skip 2
    skipValue depth

/-! ## Attributes -/

/-- The attributes that list annotations which stay in the class file, shown at run time or not. -/
def listsMarks (name : Bytes) : Bool :=
  name == Text.encode "RuntimeVisibleAnnotations" ||
    name == Text.encode "RuntimeInvisibleAnnotations"

/-- Whether one of the next `n` annotations has the type `marker`; nothing behind the first that has
    it is read. This is the loop of `visit_annotations`. -/
def findMark (pool : ConstantPool) (marker : Bytes) (depth : Nat) : Nat → Reader Bool
  | 0 => pure false
  | n + 1 => do
    let type ← pool.text (← Reader.u2)
    if type == marker then
      pure true
    else
      skipPairs depth
      findMark pool marker depth n

/-- Whether an attribute with this body lists an annotation of the type `marker`
    (`visit_annotations`). -/
def bodyCarries (pool : ConstantPool) (marker body : Bytes) : Except Fault Bool :=
  let search : Reader Bool := do
    let count ← Reader.u2
    findMark pool marker body.length count
  search.run' (Cursor.start .attribute body)

end SourceRecovery.ClassFile
