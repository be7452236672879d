import SourceRecovery.ClassFile.Reader

/-!
# The constant pool

The table at the head of a class file that names and types refer to. Only its texts are kept; every
other constant is passed over by the width that its tag announces. A `Long` or `Double` takes two
slots, of which the second names nothing, and a pool's count also counts the slot 0 that no
constant has.
-/

namespace SourceRecovery.ClassFile

/-- What a tag says about the constant behind it. -/
inductive ConstantKind where
  /-- Two bytes of length, then a text of that many bytes. -/
  | text
  /-- Bytes that are passed over, `width` of them. -/
  | fixed (width : Nat)
  /-- Eight bytes that are passed over, and a second slot. -/
  | twoSlots
  deriving DecidableEq, Repr

/-- The kinds of constants, by their tags. -/
def ConstantKind.ofTag? (tag : UInt8) : Option ConstantKind :=
  match tag.toNat with
  | 1 => some .text
  | 3 | 4 | 9 | 10 | 11 | 12 | 17 | 18 => some (.fixed 4)
  | 5 | 6 => some .twoSlots
  | 7 | 8 | 16 | 19 | 20 => some (.fixed 2)
  | 15 => some (.fixed 3)
  | _ => none

/-- The texts of a constant pool, by slot (`ConstantPool`). -/
structure ConstantPool where
  slots : Array (Option Bytes)
  deriving DecidableEq, Repr

namespace ConstantPool

/-- The text in a slot (`utf8`). -/
def text (pool : ConstantPool) (index : Nat) : Except Fault Bytes :=
  match pool.slots[index]? with
  | some (some bytes) => .ok bytes
  | _ => .error (.badConstantIndex index)

/-- Reads the constants of the next `n` slots behind those already known: the loop of `read`. The
    flag says that the first of them is the second slot of the constant before it. -/
def readSlots : Nat → Bool → Array (Option Bytes) → Reader (Array (Option Bytes))
  | 0, _, slots => pure slots
  | n + 1, true, slots => readSlots n false (slots.push none)
  | n + 1, false, slots => do
    let tag ← Reader.u1
    match ConstantKind.ofTag? tag with
    | some .text =>
      let length ← Reader.u2
      let bytes ← Reader.take length
      readSlots n false (slots.push (some bytes))
    | some (.fixed width) =>
      Reader.skip width
      readSlots n false (slots.push none)
    | some .twoSlots =>
      Reader.skip 8
      readSlots n true (slots.push none)
    | none => throw (.unknownConstantTag tag slots.size)

/-- Reads the count and the constants (`read`). -/
def read : Reader ConstantPool := do
  let count ← Reader.u2
  let slots ← readSlots (count - 1) false #[none]
  pure ⟨slots⟩

end ConstantPool

end SourceRecovery.ClassFile
