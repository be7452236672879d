import SourceRecovery.ClassFile.Marks

/-!
# Class files

A class file, read as far as one question needs it: which is the first method that carries a marker
annotation?

* `ClassFile.read` reads everything in front of the methods. Of that only the constant pool is
  kept; the attributes of fields are passed over unread.
* `ClassFile.firstMarked` walks the methods in order and stops behind the first that carries the
  marker, so whatever stands after it does not count.
-/

namespace SourceRecovery

/-- A class file read up to its methods (`ClassFile`). -/
structure ClassFile where
  pool : ClassFile.ConstantPool
  methodCount : Nat
  methods : ClassFile.Cursor
  deriving DecidableEq, Repr

namespace ClassFile

/-- The number that every class file begins with (`MAGIC`). -/
def magicNumber : Nat := 0xCAFEBABE

/-- Passes over a count and as many attributes, each framed by its length (`skip_attributes`). -/
def skipAttributes : Reader Unit := do
  let count ← Reader.u2
  Reader.times count do
    Reader.skip 2
    let length ← Reader.u4
    Reader.skip length

/-- Passes over one field: flags, name and type, then its attributes. -/
def skipField : Reader Unit := do
  Reader.skip 6
  skipAttributes

/-- Reads what stands in front of the methods, and their count. -/
def readHead : Reader (ConstantPool × Nat) := do
  let magic ← Reader.u4
  if magic ≠ magicNumber then
    throw (.badMagic magic)
  Reader.skip 4
  let pool ← ConstantPool.read
  Reader.skip 6
  let interfaces ← Reader.u2
  Reader.skip (interfaces * 2)
  let fields ← Reader.u2
  Reader.times fields skipField
  let methods ← Reader.u2
  pure (pool, methods)

/-- Reads a class file up to its methods (`parse`). -/
def read (bytes : Bytes) : Except Fault ClassFile := do
  let ((pool, methodCount), methods) ← readHead.run (Cursor.start .file bytes)
  pure ⟨pool, methodCount, methods⟩

/-- Reads the next `n` attributes of a method and says whether it carries the marker: the loop of
    `next_method`. Once it does, the attributes left are still framed and named, but not looked
    into. -/
def readAttributes (pool : ConstantPool) (marker : Bytes) : Nat → Bool → Reader Bool
  | 0, carries => pure carries
  | n + 1, carries => do
    let name ← pool.text (← Reader.u2)
    let length ← Reader.u4
    let body ← Reader.take length
    if !carries && listsMarks name then
      readAttributes pool marker n (← bodyCarries pool marker body)
    else
      readAttributes pool marker n carries

/-- Reads one method: its name, and whether it carries the marker (`next_method`). -/
def readMethod (pool : ConstantPool) (marker : Bytes) : Reader (Bytes × Bool) := do
  Reader.skip 2
  let name ← pool.text (← Reader.u2)
  Reader.skip 2
  let attributes ← Reader.u2
  let carries ← readAttributes pool marker attributes false
  pure (name, carries)

/-- The name of the first of the next `n` methods that carries the marker: the loop of
    `find_annotated_method`. -/
def findMarked (pool : ConstantPool) (marker : Bytes) : Nat → Reader (Option Bytes)
  | 0 => pure none
  | n + 1 => do
    let (name, carries) ← readMethod pool marker
    if carries then pure (some name) else findMarked pool marker n

/-- The name of the first method that carries the marker, with U+FFFD for what is no text
    (`find_annotated_method`). -/
def firstMarked (file : ClassFile) (marker : String) : Except Fault (Option String) := do
  let name ← (findMarked file.pool (Text.encode marker) file.methodCount).run' file.methods
  pure (name.map Text.decodeLossy)

/-- Reads some bytes as a class file and looks for the first method that carries the marker. -/
def scan (marker : String) (bytes : Bytes) : Except Fault (Option String) := do
  let file ← read bytes
  file.firstMarked marker

end ClassFile

end SourceRecovery
