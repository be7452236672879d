import SourceRecovery.Proofs.ClassFile.Truncation

/-!
# Reading under guard

The readers of fields once more, over a range of bytes and a position in it. Here whatever must not
happen is a trap that ends the reading: a sum or product of lengths that has more than 64 bits, a
slice or an index out of bounds, a position behind the end of its range, and a round of a loop that
takes no byte.

* `Place`, `Outcome`, `Guarded`: such a reader ends with a value, with a fault at a place, or in a trap.
* `Mirrors`: from every sound place, a guarded reader does what a reader does, and is not trapped.
* `Mirrors.bind`, `mirrors_take`, `mirrors_times`, `mirrors_inBody`: guarded readers are put together as
  readers are.
-/

namespace SourceRecovery.ClassFile

/-! ## Places and outcomes -/

/-- What must not happen while bytes are read. -/
inductive Trap where
  /-- A sum or product of lengths has more than 64 bits. -/
  | overflow
  /-- A slice or an index is out of bounds. -/
  | outOfBounds
  /-- The position is behind the end of its range. -/
  | pastEnd
  /-- A round of a loop takes no byte. -/
  | stalled
  /-- The counter of the slots of a constant pool does not go forward. -/
  | revisited
  /-- Element values are nested deeper than was foreseen. -/
  | tooDeep
  deriving DecidableEq, Repr

/-- The lengths of 64 bits are below this one. -/
def sizeLimit : Nat := 0x10000000000000000

/-- All that is in memory at once has fewer bytes than this. -/
def sliceLimit : Nat := 0x8000000000000000

/-- A length that four bytes can announce does not lead beyond 64 bits. -/
theorem add_lt_sizeLimit {m n : Nat} (hm : m < sliceLimit) (hn : n < 4294967296) :
    m + n < sizeLimit := by
  unfold sliceLimit at hm
  unfold sizeLimit
  omega

/-- A position in a range of bytes: the whole file, or the body of an attribute. -/
structure Place where
  extent : Extent
  bytes : Bytes
  pos : Nat
  deriving DecidableEq, Repr

namespace Place

/-- The place as a cursor, which knows only the bytes behind it. -/
def cursor (p : Place) : Cursor :=
  ⟨p.extent, p.pos, p.bytes.drop p.pos⟩

/-- The place `n` bytes further on. -/
def moved (p : Place) (n : Nat) : Place :=
  { p with pos := p.pos + n }

/-- The number of bytes behind a place. -/
def left (p : Place) : Nat :=
  p.bytes.length - p.pos

@[simp]
theorem moved_zero (p : Place) : p.moved 0 = p := rfl

@[simp]
theorem moved_moved (p : Place) (m n : Nat) : (p.moved m).moved n = p.moved (m + n) := by
  simp [moved, Nat.add_assoc]

@[simp]
theorem left_moved (p : Place) (n : Nat) : (p.moved n).left = p.left - n :=
  Nat.sub_add_eq _ _ _

/-- Whether a position is in its range, and the range is no longer than what can be in memory. -/
structure Sound (p : Place) : Prop where
  pos_le : p.pos ≤ p.bytes.length
  length_lt : p.bytes.length < sliceLimit

theorem Sound.moved {p : Place} {n : Nat} (h : p.Sound) (hn : n ≤ p.left) : (p.moved n).Sound where
  pos_le := by
    have := h.pos_le
    simp only [left, Place.moved] at hn ⊢
    omega
  length_lt := h.length_lt

end Place

/-- How the reading of some bytes ends. -/
inductive Outcome (α : Type) where
  | value (x : α) (place : Place)
  | fault (f : Fault) (place : Place)
  | trap (t : Trap)
  deriving DecidableEq, Repr

/-- A reader that can be trapped. -/
def Guarded (α : Type) := Place → Outcome α

namespace Guarded

variable {α β : Type}

instance : Monad Guarded where
  pure x := fun p => .value x p
  bind m k := fun p => match m p with
    | .value x q => k x q
    | .fault f q => .fault f q
    | .trap t => .trap t

/-! ## Guarded readers -/

/-- Fails where it stands. -/
def fail (f : Fault) : Guarded α := fun p => .fault f p

/-- An answer that is found without reading. -/
def ofExcept : Except Fault α → Guarded α
  | .ok x => pure x
  | .error f => fail f

/-- Ends in a trap. -/
def stop (t : Trap) : Guarded α := fun _ => .trap t

/-- The place where it stands. -/
def place : Guarded Place := fun p => .value p p

/-- A length of 64 bits. -/
def size (n : Nat) : Guarded Nat :=
  if n < sizeLimit then pure n else stop .overflow

/-- The bytes of the range from `first` on that are in front of `last`. -/
def slice (first last : Nat) : Guarded Bytes := fun p =>
  if first ≤ last ∧ last ≤ p.bytes.length then .value ((p.bytes.take last).drop first) p
  else .trap .outOfBounds

/-- Goes to a position. -/
def goTo (pos : Nat) : Guarded Unit := fun p =>
  if pos ≤ p.bytes.length then .value () { p with pos := pos } else .trap .pastEnd

/-- One of some bytes that have been read. -/
def byteAt (bs : Bytes) (i : Nat) : Guarded UInt8 :=
  match bs[i]? with
  | some b => pure b
  | none => stop .outOfBounds

/-- The next `n` bytes. -/
def take (n : Nat) : Guarded Bytes := do
  let p ← place
  let last ← size (p.pos + n)
  if last ≤ p.bytes.length then
    let bytes ← slice p.pos last
    goTo last
    pure bytes
  else fail (.truncated p.extent p.pos)

/-- Passes over the next `n` bytes. -/
def skip (n : Nat) : Guarded Unit := do
  let _ ← take n

/-- One byte. -/
def u1 : Guarded UInt8 := do
  byteAt (← take 1) 0

/-- A number of two bytes. -/
def u2 : Guarded Nat := do
  let bs ← take 2
  let b1 ← byteAt bs 0
  let b0 ← byteAt bs 1
  pure (b1.toNat * 256 + b0.toNat)

/-- A number of four bytes. -/
def u4 : Guarded Nat := do
  let bs ← take 4
  let b3 ← byteAt bs 0
  let b2 ← byteAt bs 1
  let b1 ← byteAt bs 2
  let b0 ← byteAt bs 3
  pure (((b3.toNat * 256 + b2.toNat) * 256 + b1.toNat) * 256 + b0.toNat)

/-- One round of a loop, which has to go forward. -/
def round (m : Guarded α) : Guarded α := do
  let before ← place
  let x ← m
  let after ← place
  if before.pos < after.pos then pure x else stop .stalled

/-- The same reader `n` times in a row. -/
def times : Nat → Guarded Unit → Guarded Unit
  | 0, _ => pure ()
  | n + 1, m => do
    round m
    times n m

/-- Reads the body of an attribute from its beginning on, and stays where it stands. -/
def inBody (body : Bytes) (m : Guarded α) : Guarded α := fun p =>
  match m ⟨.attribute, body, 0⟩ with
  | .value x _ => .value x p
  | .fault f q => .fault f q
  | .trap t => .trap t

theorem bind_of_value {m : Guarded α} {f : α → Guarded β} {p q : Place} {x : α}
    (h : m p = .value x q) : (m >>= f) p = f x q := by
  show (match m p with | .value x q => f x q | .fault f q => .fault f q | .trap t => .trap t) = _
  rw [h]

theorem bind_of_fault {m : Guarded α} {f : α → Guarded β} {p q : Place} {g : Fault}
    (h : m p = .fault g q) : (m >>= f) p = .fault g q := by
  show (match m p with | .value x q => f x q | .fault f q => .fault f q | .trap t => .trap t) = _
  rw [h]

theorem size_bind {n : Nat} (h : n < sizeLimit) (f : Nat → Guarded α) :
    (size n >>= f) = f n := by
  rw [size, if_pos h]
  rfl

end Guarded

/-! ## Guarded readers and readers -/

variable {α β γ δ : Type} {range : Bytes} {k n : Nat}

/-- Whether a fault has been found in the range `range` of the extent `e`, or in the body of an
    attribute that is a part of it, and is said to be there if the bytes have ended. -/
structure FoundIn (e : Extent) (range : Bytes) (f : Fault) (q : Place) : Prop where
  pos_le : q.pos ≤ q.bytes.length
  part : q.extent = e ∧ q.bytes = range ∨ q.extent = .attribute ∧ q.bytes <:+: range
  offset : ∀ e' off, f = .truncated e' off → e' = q.extent ∧ off = q.pos

/-- The end of the reading from `p` on beside the answer of a reader there: a value that is related
    to the value by `R`, behind `n` bytes or more, or the same fault. -/
inductive Agrees (p : Place) (n : Nat) (R : α → β → Prop) :
    Outcome α → Except Fault (β × Cursor) → Prop
  | value {x : α} {y : β} {m : Nat} (hR : R x y) (hn : n ≤ m) (hm : m ≤ p.left) :
    Agrees p n R (.value x (p.moved m)) (.ok (y, (p.moved m).cursor))
  | fault {f : Fault} {q : Place} (h : FoundIn p.extent p.bytes f q) :
    Agrees p n R (.fault f q) (.error f)

/-- Whether a guarded reader agrees with a reader from every sound place of a range that has fewer
    than `k` bytes behind it, and takes `n` bytes or more. -/
def Mirrors (range : Bytes) (k n : Nat) (R : α → β → Prop) (m : Guarded α) (r : Reader β) : Prop :=
  ∀ p : Place, p.bytes = range → p.Sound → p.left < k → Agrees p n R (m p) (r p.cursor)

variable {R : α → β → Prop} {S : γ → δ → Prop} {m : Guarded α} {r : Reader β}

theorem Agrees.weaken {p : Place} {n' : Nat} {R' : α → β → Prop} {o : Outcome α}
    {a : Except Fault (β × Cursor)} (h : Agrees p n R o a) (hn : n' ≤ n)
    (hR : ∀ x y, R x y → R' x y) : Agrees p n' R' o a := by
  cases h with
  | value hxy hle hm => exact .value (hR _ _ hxy) (Nat.le_trans hn hle) hm
  | fault hf => exact .fault hf

/-- What agrees from a place further on agrees from the first place. -/
theorem Agrees.moved {p : Place} {n' l : Nat} {o : Outcome α} {a : Except Fault (β × Cursor)}
    (h : Agrees (p.moved l) n' R o a) (hl : l ≤ p.left) (hn : n ≤ l) : Agrees p (n + n') R o a := by
  cases h with
  | @value x y m hR hnm hm =>
    rw [Place.left_moved] at hm
    rw [Place.moved_moved]
    exact .value hR (by omega) (by omega)
  | fault hf => exact .fault hf

theorem Mirrors.weaken {k' n' : Nat} (h : Mirrors range k n R m r) (hk : k' ≤ k) (hn : n' ≤ n) :
    Mirrors range k' n' R m r :=
  fun p hp hsound hleft => (h p hp hsound (by omega)).weaken hn fun _ _ hR => hR

theorem Mirrors.imp {R' : α → β → Prop} (h : Mirrors range k n R m r)
    (hR : ∀ x y, R x y → R' x y) : Mirrors range k n R' m r :=
  fun p hp hsound hleft => (h p hp hsound hleft).weaken (Nat.le_refl n) hR

/-- Where a reader gives a value behind `l` bytes, so does a guarded reader that mirrors it. -/
theorem Mirrors.exists_value {p : Place} {e : Extent} {l : Nat} {y : β} {rest : Bytes}
    (h : Mirrors p.bytes (p.left + 1) n R m r) (hsound : p.Sound)
    (hr : r p.cursor = .ok (y, ⟨e, p.pos + l, rest⟩)) :
    ∃ x, m p = .value x (p.moved l) ∧ R x y ∧ (p.moved l).Sound ∧ (p.moved l).cursor.rest = rest := by
  have hagrees := h p rfl hsound (Nat.lt_succ_self _)
  generalize hm : m p = o at hagrees
  rw [hr] at hagrees
  generalize hc : (⟨e, p.pos + l, rest⟩ : Cursor) = c at hagrees
  cases hagrees with
  | @value x y l' hR hn hl =>
    obtain ⟨-, hoffset, hrest⟩ := Cursor.mk.inj hc
    obtain rfl : l = l' := Nat.add_left_cancel hoffset
    exact ⟨x, rfl, hR, hsound.moved hl, hrest.symm⟩

/-! ## Composition -/

theorem mirrors_pure {x : α} {y : β} (hR : R x y) :
    Mirrors range k 0 R (pure x) (pure y) :=
  fun _ _ _ _ => .value hR (Nat.le_refl 0) (Nat.zero_le _)

/-- A fault that does not say where it has been found. -/
theorem mirrors_fail {f : Fault} (hf : f.IsProper) :
    Mirrors range k n R (Guarded.fail f) (throw f) :=
  fun _ _ hsound _ => .fault ⟨hsound.pos_le, .inl ⟨rfl, rfl⟩, fun e off h => absurd h (hf e off)⟩

theorem mirrors_ofExcept {a : Except Fault α} (hf : ∀ f, a = .error f → f.IsProper) :
    Mirrors range k 0 Eq (Guarded.ofExcept a) (liftM a) := by
  cases a with
  | ok x => exact mirrors_pure rfl
  | error f => exact mirrors_fail (hf f rfl)

/-- Behind a first reader that takes `n` bytes, the second one has fewer left. -/
theorem Mirrors.bind {n' : Nat} {f : α → Guarded γ} {g : β → Reader δ}
    (h : Mirrors range k n R m r) (hfg : ∀ x y, R x y → Mirrors range (k - n) n' S (f x) (g y)) :
    Mirrors range k (n + n') S (m >>= f) (r >>= g) := by
  intro p hp hsound hleft
  have hfirst := h p hp hsound hleft
  generalize hm : m p = o at hfirst
  generalize hr : r p.cursor = a at hfirst
  cases hfirst with
  | fault hf =>
    rw [Guarded.bind_of_fault hm, bind_of_error hr]
    exact .fault hf
  | @value x y l hR hnl hl =>
    rw [Guarded.bind_of_value hm, bind_of_ok hr]
    have hleft' : (p.moved l).left < k - n := by
      rw [Place.left_moved]
      omega
    exact (hfg x y hR (p.moved l) hp (hsound.moved hl) hleft').moved hl hnl

theorem Mirrors.uncounted (h : Mirrors range k n R m r) : Mirrors range k 0 R m r :=
  h.weaken (Nat.le_refl k) (Nat.zero_le n)

/-- Two readers in a row, of which the second one may take no byte. -/
theorem Mirrors.seq {f : α → Guarded γ} {g : β → Reader δ} (h : Mirrors range k n R m r)
    (hfg : ∀ x y, R x y → Mirrors range k 0 S (f x) (g y)) :
    Mirrors range k n S (m >>= f) (r >>= g) :=
  h.bind fun x y hR => (hfg x y hR).weaken (Nat.sub_le k n) (Nat.le_refl 0)

theorem Mirrors.ite {c : Prop} [Decidable c] {m' : Guarded α} {r' : Reader β}
    (h : Mirrors range k n R m r) (h' : Mirrors range k n R m' r') :
    Mirrors range k n R (if c then m else m') (if c then r else r') := by
  split
  · exact h
  · exact h'

/-! ## Fields -/

theorem length_cursor_rest (p : Place) : p.cursor.rest.length = p.left :=
  List.length_drop

theorem cursor_moved (p : Place) (n : Nat) :
    (p.moved n).cursor = ⟨p.extent, p.pos + n, p.cursor.rest.drop n⟩ := by
  rw [Place.cursor, Place.moved, Place.cursor, List.drop_drop]

theorem last_le_iff {p : Place} (hsound : p.Sound) :
    p.pos + n ≤ p.bytes.length ↔ n ≤ p.left := by
  have hle := hsound.pos_le
  unfold Place.left
  omega

theorem Place.Sound.last_lt {p : Place} (hsound : p.Sound) (hn : n < 4294967296) :
    p.pos + n < sizeLimit :=
  add_lt_sizeLimit (Nat.lt_of_le_of_lt hsound.pos_le hsound.length_lt) hn

theorem place_eq (p : Place) : Guarded.place p = .value p p := rfl

/-- Where there are bytes enough, the slice is in bounds. -/
theorem guarded_take_eq_value {p : Place} (hsound : p.Sound) (hn : n < 4294967296)
    (hle : n ≤ p.left) : Guarded.take n p = .value (p.cursor.rest.take n) (p.moved n) := by
  have hlast := (last_le_iff hsound).2 hle
  have hslice : Guarded.slice p.pos (p.pos + n) p = .value (p.cursor.rest.take n) p := by
    unfold Guarded.slice
    rw [if_pos ⟨Nat.le_add_right _ _, hlast⟩, List.drop_take, Nat.add_sub_cancel_left]
    rfl
  have hgoTo : Guarded.goTo (p.pos + n) p = .value () (p.moved n) := if_pos hlast
  unfold Guarded.take
  rw [Guarded.bind_of_value (place_eq p), Guarded.size_bind (hsound.last_lt hn), if_pos hlast,
    Guarded.bind_of_value hslice, Guarded.bind_of_value hgoTo]
  rfl

theorem guarded_take_eq_fault {p : Place} (hsound : p.Sound) (hn : n < 4294967296)
    (hlt : p.left < n) : Guarded.take n p = .fault (.truncated p.extent p.pos) p := by
  have hlast : ¬ p.pos + n ≤ p.bytes.length := by
    rw [last_le_iff hsound]
    exact Nat.not_le_of_lt hlt
  unfold Guarded.take
  rw [Guarded.bind_of_value (place_eq p), Guarded.size_bind (hsound.last_lt hn), if_neg hlast]
  rfl

/-- That the bytes have ended is said of the place where it is found. -/
theorem foundIn_ended {p : Place} (hsound : p.Sound) :
    FoundIn p.extent p.bytes (.truncated p.extent p.pos) p := by
  refine ⟨hsound.pos_le, .inl ⟨rfl, rfl⟩, fun e off h => ?_⟩
  obtain ⟨rfl, rfl⟩ := Fault.truncated.inj h
  exact ⟨rfl, rfl⟩

/-- What is taken is a part of the range. -/
theorem mirrors_take (hn : n < 4294967296) :
    Mirrors range k n (fun x y => x = y ∧ x.length = n ∧ x <:+: range) (Guarded.take n)
      (Reader.take n) := by
  rintro p rfl hsound -
  by_cases hle : n ≤ p.left
  · have hreader : Reader.take n p.cursor = .ok (p.cursor.rest.take n, (p.moved n).cursor) := by
      rw [Reader.take, if_pos (by rwa [hasAtLeast_iff, length_cursor_rest]), cursor_moved]
      rfl
    rw [guarded_take_eq_value hsound hn hle, hreader]
    refine .value ⟨rfl, ?_, ?_⟩ (Nat.le_refl n) hle
    · exact List.length_take_of_le (by rwa [length_cursor_rest])
    · exact (List.take_prefix _ _).isInfix.trans (List.drop_suffix _ _).isInfix
  · have hreader : Reader.take n p.cursor = .error (.truncated p.extent p.pos) := by
      rw [Reader.take, if_neg (by rwa [hasAtLeast_iff, length_cursor_rest])]
      rfl
    rw [guarded_take_eq_fault hsound hn (Nat.lt_of_not_le hle), hreader]
    exact .fault (foundIn_ended hsound)

theorem mirrors_skip (hn : n < 4294967296) :
    Mirrors range k n Eq (Guarded.skip n) (Reader.skip n) :=
  (mirrors_take hn).bind fun _ _ _ => mirrors_pure rfl

/-- A field of `n` bytes, which are taken and then put together. -/
theorem mirrors_of_width {f : Bytes → Guarded α} {r : Reader α} {Q : α → Prop}
    (hn : n < 4294967296)
    (hshort : ∀ c : Cursor, c.rest.length < n → r c = .error (.truncated c.extent c.offset))
    (hlong : ∀ bs : Bytes, bs.length = n → ∃ x, Q x ∧ f bs = pure x ∧
      ∀ e o rest, r ⟨e, o, bs ++ rest⟩ = .ok (x, ⟨e, o + n, rest⟩)) :
    Mirrors range k n (fun x y => x = y ∧ Q x) (Guarded.take n >>= f) r := by
  rintro p rfl hsound -
  have hlen := length_cursor_rest p
  by_cases hle : n ≤ p.left
  · obtain ⟨x, hQ, hf, hr⟩ := hlong (p.cursor.rest.take n) (List.length_take_of_le (by omega))
    have hreader : r p.cursor = .ok (x, (p.moved n).cursor) := by
      have h := hr p.extent p.pos (p.cursor.rest.drop n)
      rwa [List.take_append_drop, ← cursor_moved] at h
    rw [Guarded.bind_of_value (guarded_take_eq_value hsound hn hle), hf, hreader]
    exact .value ⟨rfl, hQ⟩ (Nat.le_refl n) hle
  · have hlt : p.left < n := Nat.lt_of_not_le hle
    rw [Guarded.bind_of_fault (guarded_take_eq_fault hsound hn hlt), hshort _ (by omega)]
    exact .fault (foundIn_ended hsound)

theorem mirrors_u1 : Mirrors range k 1 Eq Guarded.u1 Reader.u1 := by
  refine (mirrors_of_width (Q := fun _ => True) (by decide) ?_ ?_).imp fun _ _ h => h.1
  · rintro ⟨e, o, rest⟩ hlt
    obtain rfl := List.length_eq_zero_iff.1 (Nat.lt_one_iff.1 hlt)
    rfl
  · intro bs hbs
    match bs, hbs with
    | [b], _ => exact ⟨b, trivial, rfl, fun _ _ _ => rfl⟩

theorem mirrors_u2 : Mirrors range k 2 (fun x y => x = y ∧ x < 65536) Guarded.u2 Reader.u2 := by
  refine mirrors_of_width (by decide) ?_ ?_
  · rintro ⟨e, o, rest⟩ hlt
    match rest, hlt with
    | [], _ => rfl
    | [_], _ => rfl
  · intro bs hbs
    match bs, hbs with
    | [b₁, b₀], _ =>
      have h₁ := b₁.toNat_lt
      have h₀ := b₀.toNat_lt
      exact ⟨b₁.toNat * 256 + b₀.toNat, by omega, rfl, fun _ _ _ => rfl⟩

theorem mirrors_u4 : Mirrors range k 4 (fun x y => x = y ∧ x < 4294967296) Guarded.u4 Reader.u4 := by
  refine mirrors_of_width (by decide) ?_ ?_
  · rintro ⟨e, o, rest⟩ hlt
    match rest, hlt with
    | [], _ => rfl
    | [_], _ => rfl
    | [_, _], _ => rfl
    | [_, _, _], _ => rfl
  · intro bs hbs
    match bs, hbs with
    | [b₃, b₂, b₁, b₀], _ =>
      have h₃ := b₃.toNat_lt
      have h₂ := b₂.toNat_lt
      have h₁ := b₁.toNat_lt
      have h₀ := b₀.toNat_lt
      exact ⟨((b₃.toNat * 256 + b₂.toNat) * 256 + b₁.toNat) * 256 + b₀.toNat, by omega, rfl,
        fun _ _ _ => rfl⟩

/-! ## Loops and bodies -/

/-- A round that takes a byte goes forward. -/
theorem mirrors_round (h : Mirrors range k n R m r) (hn : 0 < n) :
    Mirrors range k n R (Guarded.round m) r := by
  intro p hp hsound hleft
  have hround := h p hp hsound hleft
  generalize hm : m p = o at hround
  generalize r p.cursor = a at hround
  cases hround with
  | fault hf =>
    rw [Guarded.round, Guarded.bind_of_value (place_eq p), Guarded.bind_of_fault hm]
    exact .fault hf
  | @value x y l hR hnl hl =>
    have hforward : p.pos < (p.moved l).pos := by
      show p.pos < p.pos + l
      omega
    rw [Guarded.round, Guarded.bind_of_value (place_eq p), Guarded.bind_of_value hm,
      Guarded.bind_of_value (place_eq _), if_pos hforward]
    exact .value hR hnl hl

theorem mirrors_times {m : Guarded Unit} {r : Reader Unit} (h : Mirrors range k n Eq m r)
    (hn : 0 < n) (count : Nat) :
    Mirrors range k 0 Eq (Guarded.times count m) (Reader.times count r) := by
  induction count with
  | zero => exact mirrors_pure rfl
  | succ count ih =>
    exact ((mirrors_round h hn).seq fun _ _ _ => ih).uncounted

/-- The body of an attribute is a range of its own. -/
theorem mirrors_inBody {body : Bytes} {m : Guarded α} {r : Reader α} (hbody : body <:+: range)
    (h : Mirrors body (body.length + 1) n Eq m r) :
    Mirrors range k 0 Eq (Guarded.inBody body m) (liftM (r.run' (Cursor.start .attribute body))) := by
  rintro p rfl hsound -
  have hstart : (Place.mk .attribute body 0).Sound :=
    ⟨Nat.zero_le _, Nat.lt_of_le_of_lt hbody.length_le hsound.length_lt⟩
  have hinner := h ⟨.attribute, body, 0⟩ rfl hstart (by simp [Place.left])
  generalize hm : m ⟨.attribute, body, 0⟩ = o at hinner
  generalize hr : r (Place.mk .attribute body 0).cursor = a at hinner
  cases hinner with
  | @value x y l hxy hnl hl =>
    have hrun : r.run' (Cursor.start .attribute body) = .ok y := run'_eq_ok.2 ⟨_, hr⟩
    rw [Guarded.inBody, hm, hrun, hxy]
    exact .value rfl (Nat.le_refl 0) (Nat.zero_le _)
  | @fault f q hf =>
    have hrun : r.run' (Cursor.start .attribute body) = .error f := run'_eq_error.2 hr
    rw [Guarded.inBody, hm, hrun]
    refine .fault ⟨hf.pos_le, .inr ?_, hf.offset⟩
    rcases hf.part with ⟨hextent, hbytes⟩ | ⟨hextent, hpart⟩
    · exact ⟨hextent, hbytes ▸ hbody⟩
    · exact ⟨hextent, hpart.trans hbody⟩

end SourceRecovery.ClassFile
