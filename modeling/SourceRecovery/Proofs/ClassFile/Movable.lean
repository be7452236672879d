import SourceRecovery.Proofs.ClassFile.Truncation

/-!
# Readers that are moved

A reader does not know how far into the file it stands. Where the same bytes stand further on, it gives
the same answer, and the places that it speaks of are further on too.

* `Movable.bind`, `movable_pure`, `movable_lift`: movable readers are put together.
* `movable_take`, `movable_u2`, `movable_u4`: the fields of a class file.
* `movable_skipField`, `movable_findMarked`: so are the readers of fields and of methods.
-/

namespace SourceRecovery.ClassFile

variable {α β : Type}

/-! ## Places -/

/-- The place that is `d` bytes further on in the file. Within the body of an attribute, places are
    counted from its beginning and stay. -/
def Cursor.moved (d : Nat) : Cursor → Cursor
  | ⟨.file, o, rest⟩ => ⟨.file, o + d, rest⟩
  | ⟨.attribute, o, rest⟩ => ⟨.attribute, o, rest⟩

/-- The same fault, `d` bytes further on in the file. -/
def Fault.moved (d : Nat) : Fault → Fault
  | .truncated .file o => .truncated .file (o + d)
  | f => f

theorem Fault.IsBehindEnd.moved_eq {f : Fault} (h : f.IsBehindEnd) (d : Nat) : f.moved d = f := by
  cases f with
  | truncated e o =>
    cases e
    · exact absurd rfl (h o)
    · rfl
  | badMagic n => rfl
  | unknownConstantTag tag i => rfl
  | badConstantIndex i => rfl
  | unknownElementTag tag => rfl

theorem Fault.isBehindEnd_or (f : Fault) : (∃ o, f = .truncated .file o) ∨ f.IsBehindEnd := by
  cases f with
  | truncated e o =>
    cases e
    · exact .inl ⟨o, rfl⟩
    · exact .inr fun _ h => by cases h
  | badMagic n => exact .inr fun _ h => by cases h
  | unknownConstantTag tag i => exact .inr fun _ h => by cases h
  | badConstantIndex i => exact .inr fun _ h => by cases h
  | unknownElementTag tag => exact .inr fun _ h => by cases h

/-- The same answer, `d` bytes further on in the file. -/
def movedAnswer (d : Nat) : Except Fault (α × Cursor) → Except Fault (α × Cursor)
  | .ok (x, c) => .ok (x, c.moved d)
  | .error f => .error (f.moved d)

/-- Whether a reader that is moved gives the same answer, moved with it. -/
def Movable (r : Reader α) : Prop :=
  ∀ d c, r (c.moved d) = movedAnswer d (r c)

/-! ## Composition -/

theorem Movable.bind {r : Reader α} {k : α → Reader β} (hr : Movable r)
    (hk : ∀ x, Movable (k x)) : Movable (r >>= k) := by
  intro d c
  have hmoved := hr d c
  cases h : r c with
  | error f =>
    rw [h] at hmoved
    rw [bind_of_error h, bind_of_error hmoved]
    rfl
  | ok p =>
    obtain ⟨x, c'⟩ := p
    rw [h] at hmoved
    rw [bind_of_ok h, bind_of_ok hmoved]
    exact hk x d c'

theorem movable_pure (x : α) : Movable (pure x) := by
  intro d c
  rfl

/-- An answer that is found without reading is the same everywhere, unless it is that the file has
    ended. -/
theorem movable_lift {a : Except Fault α} (hF : ∀ f, a = .error f → f.IsBehindEnd) :
    Movable (liftM a : Reader α) := by
  intro d c
  cases a with
  | ok x => rfl
  | error f =>
    show Except.error f = .error (f.moved d)
    rw [(hF f rfl).moved_eq]

theorem Movable.ite {r s : Reader α} {b : Bool} (hr : Movable r) (hs : Movable s) :
    Movable (if b then r else s) := by
  cases b
  · exact hs
  · exact hr

/-! ## Fields -/

/-- A reader that goes by the bytes alone, and fails only where they end. -/
theorem movable_of_rest {r : Reader α} (g : Bytes → Option (α × Nat × Bytes))
    (h : ∀ c, r c = match g c.rest with
      | some (x, n, rest) => .ok (x, ⟨c.extent, c.offset + n, rest⟩)
      | none => .error (.truncated c.extent c.offset)) : Movable r := by
  rintro d ⟨e, o, bytes⟩
  cases e
  · rw [Cursor.moved, h, h]
    cases g bytes with
    | none => rfl
    | some p =>
      obtain ⟨x, n, rest⟩ := p
      show Except.ok (x, (⟨.file, o + d + n, rest⟩ : Cursor)) = .ok (x, ⟨.file, o + n + d, rest⟩)
      rw [Nat.add_right_comm]
  · rw [Cursor.moved, h]
    cases g bytes <;> rfl

theorem movable_take (n : Nat) : Movable (Reader.take n) := by
  refine movable_of_rest
    (fun bytes => if hasAtLeast n bytes then some (bytes.take n, n, bytes.drop n) else none) ?_
  intro c
  rw [Reader.take]
  split <;> rfl

theorem movable_skip (n : Nat) : Movable (Reader.skip n) :=
  (movable_take n).bind fun _ => movable_pure ()

/-- The number in the first two bytes, with their count and what is behind them. -/
def leadingWord : Bytes → Option (Nat × Nat × Bytes)
  | b₁ :: b₀ :: bs => some (b₁.toNat * 256 + b₀.toNat, 2, bs)
  | _ => none

/-- The number in the first four bytes, with their count and what is behind them. -/
def leadingDoubleWord : Bytes → Option (Nat × Nat × Bytes)
  | b₃ :: b₂ :: b₁ :: b₀ :: bs =>
    some (((b₃.toNat * 256 + b₂.toNat) * 256 + b₁.toNat) * 256 + b₀.toNat, 4, bs)
  | _ => none

theorem movable_u2 : Movable Reader.u2 := by
  refine movable_of_rest leadingWord ?_
  rintro ⟨e, o, _ | ⟨_, _ | ⟨_, _⟩⟩⟩ <;> rfl

theorem movable_u4 : Movable Reader.u4 := by
  refine movable_of_rest leadingDoubleWord ?_
  rintro ⟨e, o, _ | ⟨_, _ | ⟨_, _ | ⟨_, _ | ⟨_, _⟩⟩⟩⟩⟩ <;> rfl

theorem movable_times {r : Reader Unit} (hr : Movable r) (n : Nat) :
    Movable (Reader.times n r) := by
  induction n with
  | zero => exact movable_pure ()
  | succ n ih => exact hr.bind fun _ => ih

/-! ## Fields and methods -/

theorem movable_skipAttribute :
    Movable (do Reader.skip 2; let length ← Reader.u4; Reader.skip length) :=
  (movable_skip 2).bind fun _ => movable_u4.bind fun length => movable_skip length

theorem movable_skipField : Movable skipField :=
  (movable_skip 6).bind fun _ => movable_u2.bind fun count =>
    movable_times movable_skipAttribute count

theorem movable_text (pool : ConstantPool) (i : Nat) :
    Movable (liftM (pool.text i) : Reader Bytes) :=
  movable_lift fun _ h => (isProper_of_text h).isBehindEnd

theorem movable_readAttributes (pool : ConstantPool) (marker : Bytes) (n : Nat) (carries : Bool) :
    Movable (readAttributes pool marker n carries) := by
  induction n generalizing carries with
  | zero => exact movable_pure carries
  | succ n ih =>
    rw [readAttributes]
    exact movable_u2.bind fun i => (movable_text pool i).bind fun name =>
      movable_u4.bind fun length => (movable_take length).bind fun body =>
        ((movable_lift fun _ => bodyCarries_error).bind fun found => ih found).ite (ih carries)

theorem movable_readMethod (pool : ConstantPool) (marker : Bytes) :
    Movable (readMethod pool marker) :=
  (movable_skip 2).bind fun _ => movable_u2.bind fun i => (movable_text pool i).bind fun name =>
    (movable_skip 2).bind fun _ => movable_u2.bind fun n =>
      (movable_readAttributes pool marker n false).bind fun carries => movable_pure (name, carries)

theorem movable_findMarked (pool : ConstantPool) (marker : Bytes) (n : Nat) :
    Movable (findMarked pool marker n) := by
  induction n with
  | zero => exact movable_pure none
  | succ n ih =>
    rw [findMarked]
    exact (movable_readMethod pool marker).bind fun x => (movable_pure (some x.1)).ite ih

end SourceRecovery.ClassFile
