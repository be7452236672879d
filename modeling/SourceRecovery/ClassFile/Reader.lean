import SourceRecovery.ClassFile.Fault
import SourceRecovery.Text.Utf8

/-!
# Reading big-endian fields

A cursor over an extent of bytes, and the readers of the fields that a class file is made of. A
reader that does not find all of its bytes fails at the offset where they should begin.
-/

namespace SourceRecovery.ClassFile

/-- A place in an extent of bytes (`Reader`). The bytes in front of it are not kept. -/
structure Cursor where
  extent : Extent
  offset : Nat
  rest : Bytes
  deriving DecidableEq, Repr

/-- The beginning of an extent. -/
def Cursor.start (extent : Extent) (bytes : Bytes) : Cursor :=
  ⟨extent, 0, bytes⟩

/-- A computation that walks a cursor forward. -/
abbrev Reader := StateT Cursor (Except Fault)

/-- Whether a list has `n` elements or more. -/
def hasAtLeast : Nat → Bytes → Bool
  | 0, _ => true
  | _ + 1, [] => false
  | n + 1, _ :: bs => hasAtLeast n bs

theorem hasAtLeast_iff (n : Nat) (bs : Bytes) : hasAtLeast n bs = true ↔ n ≤ bs.length := by
  induction n generalizing bs with
  | zero => simp [hasAtLeast]
  | succ n ih => cases bs <;> simp [hasAtLeast, ih]

namespace Reader

/-- Fails because the bytes have ended. -/
def ended {α : Type} : Reader α := fun c =>
  .error (.truncated c.extent c.offset)

/-- The next `n` bytes (`take`). -/
def take (n : Nat) : Reader Bytes := fun c =>
  if hasAtLeast n c.rest then
    .ok (c.rest.take n, { c with offset := c.offset + n, rest := c.rest.drop n })
  else .error (.truncated c.extent c.offset)

/-- Passes over the next `n` bytes (`skip`). -/
def skip (n : Nat) : Reader Unit := do
  let _ ← take n

/-- One byte (`u1`). -/
def u1 : Reader UInt8 := fun c =>
  match c.rest with
  | b :: bs => .ok (b, { c with offset := c.offset + 1, rest := bs })
  | [] => .error (.truncated c.extent c.offset)

/-- A number of two bytes (`u2`). -/
def u2 : Reader Nat := fun c =>
  match c.rest with
  | b1 :: b0 :: bs =>
    .ok (b1.toNat * 256 + b0.toNat, { c with offset := c.offset + 2, rest := bs })
  | _ => .error (.truncated c.extent c.offset)

/-- A number of four bytes (`u4`). -/
def u4 : Reader Nat := fun c =>
  match c.rest with
  | b3 :: b2 :: b1 :: b0 :: bs =>
    .ok (((b3.toNat * 256 + b2.toNat) * 256 + b1.toNat) * 256 + b0.toNat,
      { c with offset := c.offset + 4, rest := bs })
  | _ => .error (.truncated c.extent c.offset)

/-- The same reader `n` times in a row. -/
def times : Nat → Reader Unit → Reader Unit
  | 0, _ => pure ()
  | n + 1, r => do
    r
    times n r

end Reader

end SourceRecovery.ClassFile
