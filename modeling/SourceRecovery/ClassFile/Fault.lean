import SourceRecovery.Text.Quoted

/-!
# Faults of a class file

What can be wrong with the bytes of a class file, each fault with its one wording.
-/

namespace SourceRecovery.ClassFile

/-- The run of bytes that a reader walks over: the whole file, or the body of one attribute. -/
inductive Extent where
  | file
  | attribute
  deriving DecidableEq, Repr

/-- Why some bytes are no class file (`ClassFileError`). -/
inductive Fault where
  /-- The bytes of the extent end before what begins at `offset` is complete. -/
  | truncated (extent : Extent) (offset : Nat)
  | badMagic (magic : Nat)
  | unknownConstantTag (tag : UInt8) (index : Nat)
  /-- A name or type refers to a slot of the constant pool that holds no text. -/
  | badConstantIndex (index : Nat)
  | unknownElementTag (tag : UInt8)
  deriving DecidableEq, Repr

/-- A number of 32 bits as eight upper-case hexadecimal digits. -/
def hexWord (n : Nat) : String :=
  let digits := (Text.hexDigits n).map Char.toUpper
  String.ofList (List.replicate (8 - digits.length) '0' ++ digits)

/-- The wording of a fault. -/
def Fault.message : Fault → String
  | .truncated _ offset => "unexpected end of class file at offset " ++ toString offset
  | .badMagic magic => "not a class file (magic 0x" ++ hexWord magic ++ ")"
  | .unknownConstantTag tag index =>
    "unknown constant pool tag " ++ toString tag.toNat ++ " at index " ++ toString index
  | .badConstantIndex index =>
    "constant pool index " ++ toString index ++ " does not name a Utf8 entry"
  | .unknownElementTag tag =>
    "unknown annotation element tag " ++ Text.quoteChar (Char.ofNat tag.toNat)

end SourceRecovery.ClassFile
