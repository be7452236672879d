import SourceRecovery.ClassFile.Reader
import SourceRecovery.Proofs.ClassFile.Format

/-!
# What a reader reads

A grammar says which bytes spell which values. A reader reads a grammar if it succeeds exactly where
bytes of the grammar stand in front, takes these bytes and no more, and gives the value that they
spell.

* `Reads.bind`, `reads_pure`, `reads_lift`, `reads_throw`: readers are put together as grammars are.
* `reads_u1`, `reads_u2`, `reads_u4`, `reads_take`, `reads_skip`: the fields of a class file.
* `reads_counted`: a count of two bytes, and as many items.
-/

namespace SourceRecovery.ClassFile

open Format

/-- Whether a reader reads the grammar `G`, in which the bytes `w` spell `x` if `G w x`. -/
def Reads {α : Type} (r : Reader α) (G : Bytes → α → Prop) : Prop :=
  ∀ e o bytes x c, r ⟨e, o, bytes⟩ = .ok (x, c) ↔
    ∃ w rest, G w x ∧ bytes = w ++ rest ∧ c = ⟨e, o + w.length, rest⟩

variable {α β : Type}

/-! ## Composition -/

theorem bind_of_ok {r : Reader α} {k : α → Reader β} {c c' : Cursor} {x : α}
    (h : r c = .ok (x, c')) : (r >>= k) c = k x c' := by
  show (StateT.bind r k) c = k x c'
  rw [StateT.bind, h]
  rfl

theorem bind_of_error {r : Reader α} {k : α → Reader β} {c : Cursor} {f : Fault}
    (h : r c = .error f) : (r >>= k) c = .error f := by
  show (StateT.bind r k) c = .error f
  rw [StateT.bind, h]
  rfl

theorem bind_eq_ok {r : Reader α} {k : α → Reader β} {c c' : Cursor} {y : β} :
    (r >>= k) c = .ok (y, c') ↔ ∃ x c₁, r c = .ok (x, c₁) ∧ k x c₁ = .ok (y, c') := by
  simp only [bind, StateT.bind, Except.bind]
  cases r c with
  | error f => simp
  | ok p =>
    obtain ⟨x, c₁⟩ := p
    constructor
    · intro h
      exact ⟨x, c₁, rfl, h⟩
    · rintro ⟨x', c', h, hk⟩
      obtain ⟨rfl, rfl⟩ := Prod.mk.inj (Except.ok.inj h)
      exact hk

/-- A fault of two readers in a row is one of the first, or of the second behind the first. -/
theorem bind_eq_error {r : Reader α} {k : α → Reader β} {c : Cursor} {f : Fault}
    (h : (r >>= k) c = .error f) :
    r c = .error f ∨ ∃ x c', r c = .ok (x, c') ∧ k x c' = .error f := by
  cases hr : r c with
  | error g =>
    rw [bind_of_error hr] at h
    exact .inl (congrArg Except.error (Except.error.inj h))
  | ok x =>
    rw [bind_of_ok hr] at h
    exact .inr ⟨x.1, x.2, rfl, h⟩

/-- The answer of a reader whose place at the end counts for nothing. -/
theorem run'_eq_ok {r : Reader α} {c : Cursor} {x : α} :
    r.run' c = .ok x ↔ ∃ c', r c = .ok (x, c') := by
  simp only [StateT.run', Functor.map, Except.map]
  cases r c with
  | error f => simp
  | ok p =>
    obtain ⟨y, c'⟩ := p
    simp

theorem run'_eq_error {r : Reader α} {c : Cursor} {f : Fault} :
    r.run' c = .error f ↔ r c = .error f := by
  simp only [StateT.run', Functor.map, Except.map]
  cases r c <;> simp

theorem run'_bind (r : Reader α) (k : α → Reader β) (c : Cursor) :
    (r >>= k).run' c = r c >>= fun x => (k x.1).run' x.2 := by
  cases hr : r c with
  | error f => exact run'_eq_error.2 (bind_of_error hr)
  | ok x =>
    show Prod.fst <$> (r >>= k) c = Prod.fst <$> k x.1 x.2
    rw [bind_of_ok hr]

theorem run'_map (r : Reader α) (g : α → β) (c : Cursor) :
    (r >>= fun x => pure (g x)).run' c = r.run' c >>= fun x => pure (g x) := by
  rw [run'_bind]
  show _ = (Prod.fst <$> r c) >>= fun x => pure (g x)
  cases r c <;> rfl

theorem Reads.congr {r : Reader α} {G H : Bytes → α → Prop} (h : Reads r G)
    (hGH : ∀ w x, G w x ↔ H w x) : Reads r H := by
  intro e o bytes x c
  rw [h e o bytes x c]
  simp only [hGH]

theorem Reads.bind {r : Reader α} {k : α → Reader β} {G : Bytes → α → Prop}
    {H : α → Bytes → β → Prop} (hr : Reads r G) (hk : ∀ x, Reads (k x) (H x)) :
    Reads (r >>= k) fun w y => ∃ x u v, G u x ∧ H x v y ∧ w = u ++ v := by
  intro e o bytes y c
  rw [bind_eq_ok]
  constructor
  · rintro ⟨x, c₁, hx, hy⟩
    obtain ⟨u, rest₁, hG, rfl, rfl⟩ := (hr e o bytes x c₁).1 hx
    obtain ⟨v, rest, hH, rfl, rfl⟩ := (hk x _ _ _ _ _).1 hy
    exact ⟨u ++ v, rest, ⟨x, u, v, hG, hH, rfl⟩, by simp, by simp [Nat.add_assoc]⟩
  · rintro ⟨w, rest, ⟨x, u, v, hG, hH, rfl⟩, rfl, rfl⟩
    refine ⟨x, ⟨e, o + u.length, v ++ rest⟩, ?_, ?_⟩
    · exact (hr _ _ _ _ _).2 ⟨u, v ++ rest, hG, by simp, rfl⟩
    · exact (hk x _ _ _ _ _).2 ⟨v, rest, hH, rfl, by simp [Nat.add_assoc]⟩

theorem Reads.assoc {γ : Type} {r : Reader α} {k : α → Reader β} {l : β → Reader γ}
    {G : Bytes → γ → Prop} (h : Reads (r >>= k >>= l) G) : Reads (r >>= fun x => k x >>= l) G := by
  rw [← bind_assoc]
  exact h

theorem reads_pure (a : α) : Reads (pure a) fun w x => w = [] ∧ x = a := by
  intro e o bytes x c
  show Except.ok (a, (⟨e, o, bytes⟩ : Cursor)) = .ok (x, c) ↔ _
  rw [Except.ok.injEq, Prod.mk.injEq]
  constructor
  · rintro ⟨rfl, rfl⟩
    exact ⟨[], bytes, ⟨rfl, rfl⟩, rfl, rfl⟩
  · rintro ⟨w, rest, ⟨rfl, rfl⟩, rfl, rfl⟩
    exact ⟨rfl, rfl⟩

theorem reads_throw (f : Fault) : Reads (throw f : Reader α) fun _ _ => False := by
  intro e o bytes x c
  simp [throw, throwThe, MonadExceptOf.throw, StateT.lift, bind, Except.bind]

/-- Behind a fault nothing is read. -/
theorem reads_throw_bind (f : Fault) (k : β → Reader α) :
    Reads (throw f >>= k) fun _ _ => False := by
  intro e o bytes x c
  rw [bind_eq_ok]
  simp [throw, throwThe, MonadExceptOf.throw, StateT.lift, bind, Except.bind]

/-- An answer that is found without reading. -/
theorem reads_lift (a : Except Fault α) :
    Reads (liftM a : Reader α) fun w x => w = [] ∧ a = .ok x := by
  intro e o bytes x c
  cases a with
  | error f => simp [liftM, monadLift, MonadLift.monadLift, StateT.lift, bind, Except.bind]
  | ok a =>
    simp only [liftM, monadLift, MonadLift.monadLift, StateT.lift, bind, Except.bind, pure,
      Except.pure, Except.ok.injEq, Prod.mk.injEq]
    constructor
    · rintro ⟨rfl, rfl⟩
      exact ⟨[], bytes, ⟨rfl, rfl⟩, rfl, rfl⟩
    · rintro ⟨w, rest, ⟨rfl, rfl⟩, rfl, rfl⟩
      exact ⟨rfl, rfl⟩

theorem reads_ended : Reads (Reader.ended : Reader α) fun _ _ => False := by
  intro e o bytes x c
  simp [Reader.ended]

/-! ## Fields -/

/-- Every number of two bytes is written in one way. -/
theorem word_eq_iff {b₁ b₀ : UInt8} {n : Nat} (hn : n < 65536) :
    [b₁, b₀] = word n ↔ b₁.toNat * 256 + b₀.toNat = n := by
  have h₁ := b₁.toNat_lt
  have h₀ := b₀.toNat_lt
  simp only [word, List.cons.injEq, and_true, ← UInt8.toNat_inj, UInt8.toNat_ofNat']
  omega

/-- Every number of four bytes is written in one way. -/
theorem doubleWord_eq_iff {b₃ b₂ b₁ b₀ : UInt8} {n : Nat} (hn : n < 4294967296) :
    [b₃, b₂, b₁, b₀] = doubleWord n ↔
      ((b₃.toNat * 256 + b₂.toNat) * 256 + b₁.toNat) * 256 + b₀.toNat = n := by
  have h₃ := b₃.toNat_lt
  have h₂ := b₂.toNat_lt
  have h₁ := b₁.toNat_lt
  have h₀ := b₀.toNat_lt
  simp only [doubleWord, word, List.cons_append, List.nil_append, List.cons.injEq, and_true,
    ← UInt8.toNat_inj, UInt8.toNat_ofNat']
  omega

theorem reads_take (n : Nat) : Reads (Reader.take n) fun w x => w = x ∧ x.length = n := by
  intro e o bytes x c
  simp only [Reader.take, hasAtLeast_iff]
  constructor
  · intro h
    split at h
    · rename_i hn
      obtain ⟨rfl, rfl⟩ := Prod.mk.inj (Except.ok.inj h)
      have hlen : (bytes.take n).length = n := List.length_take_of_le hn
      exact ⟨bytes.take n, bytes.drop n, ⟨rfl, hlen⟩, by simp, by rw [hlen]⟩
    · cases h
  · rintro ⟨w, rest, ⟨rfl, rfl⟩, rfl, rfl⟩
    simp

theorem reads_skip (n : Nat) : Reads (Reader.skip n) fun w _ => w.length = n := by
  refine ((reads_take n).bind fun _ => reads_pure ()).congr fun w x => ?_
  constructor
  · rintro ⟨b, u, v, ⟨rfl, hb⟩, ⟨rfl, rfl⟩, rfl⟩
    simpa using hb
  · intro hw
    exact ⟨w, w, [], ⟨rfl, hw⟩, ⟨rfl, rfl⟩, by simp⟩

theorem reads_u1 : Reads Reader.u1 fun w b => w = [b] := by
  intro e o bytes b c
  cases bytes with
  | nil => simp [Reader.u1]
  | cons b' bs =>
    simp only [Reader.u1, Except.ok.injEq, Prod.mk.injEq]
    constructor
    · rintro ⟨rfl, rfl⟩
      exact ⟨[b'], bs, rfl, rfl, rfl⟩
    · rintro ⟨w, rest, rfl, h, rfl⟩
      obtain ⟨rfl, rfl⟩ := List.cons.inj h
      exact ⟨rfl, rfl⟩

theorem reads_u2 : Reads Reader.u2 fun w n => n < 65536 ∧ w = word n := by
  intro e o bytes n c
  match bytes with
  | [] => simp [Reader.u2, word]
  | [_] => simp [Reader.u2, word]
  | b₁ :: b₀ :: bs =>
    have h₁ := b₁.toNat_lt
    have h₀ := b₀.toNat_lt
    simp only [Reader.u2, Except.ok.injEq, Prod.mk.injEq]
    constructor
    · rintro ⟨rfl, rfl⟩
      exact ⟨[b₁, b₀], bs, ⟨by omega, (word_eq_iff (by omega)).2 rfl⟩, rfl, rfl⟩
    · rintro ⟨w, rest, ⟨hn, rfl⟩, h, rfl⟩
      have h' : [b₁, b₀] ++ bs = word n ++ rest := h
      obtain ⟨hw, rfl⟩ := List.append_inj h' rfl
      exact ⟨(word_eq_iff hn).1 hw, rfl⟩

theorem reads_u4 : Reads Reader.u4 fun w n => n < 4294967296 ∧ w = doubleWord n := by
  intro e o bytes n c
  match bytes with
  | [] => simp [Reader.u4, doubleWord, word]
  | [_] => simp [Reader.u4, doubleWord, word]
  | [_, _] => simp [Reader.u4, doubleWord, word]
  | [_, _, _] => simp [Reader.u4, doubleWord, word]
  | b₃ :: b₂ :: b₁ :: b₀ :: bs =>
    have h₃ := b₃.toNat_lt
    have h₂ := b₂.toNat_lt
    have h₁ := b₁.toNat_lt
    have h₀ := b₀.toNat_lt
    simp only [Reader.u4, Except.ok.injEq, Prod.mk.injEq]
    constructor
    · rintro ⟨rfl, rfl⟩
      exact ⟨[b₃, b₂, b₁, b₀], bs, ⟨by omega, (doubleWord_eq_iff (by omega)).2 rfl⟩, rfl, rfl⟩
    · rintro ⟨w, rest, ⟨hn, rfl⟩, h, rfl⟩
      have h' : [b₃, b₂, b₁, b₀] ++ bs = doubleWord n ++ rest := h
      obtain ⟨hw, rfl⟩ := List.append_inj h' rfl
      exact ⟨(doubleWord_eq_iff hn).1 hw, rfl⟩

theorem exists_words {n : Nat} {w : Bytes} :
    (∃ l : List UInt16, l.length = n ∧ w = l.flatMap fun i => word i.toNat) ↔ w.length = n * 2 := by
  induction n generalizing w with
  | zero =>
    rw [Nat.zero_mul, List.length_eq_zero_iff]
    constructor
    · rintro ⟨l, hl, rfl⟩
      rw [List.length_eq_zero_iff.1 hl, List.flatMap_nil]
    · rintro rfl
      exact ⟨[], rfl, rfl⟩
  | succ n ih =>
    constructor
    · rintro ⟨l, hl, rfl⟩
      obtain ⟨i, l, rfl⟩ := List.exists_cons_of_length_eq_add_one hl
      have := ih.1 ⟨l, by simpa using hl, rfl⟩
      rw [List.flatMap_cons, List.length_append, this, length_word]
      omega
    · intro hw
      match w, hw with
      | [_], hw => simp only [List.length_singleton] at hw; omega
      | b₁ :: b₀ :: w, hw =>
        obtain ⟨l, rfl, rfl⟩ := ih.2 (show w.length = n * 2 by simp only [List.length_cons] at hw; omega)
        have h₁ := b₁.toNat_lt
        have h₀ := b₀.toNat_lt
        have hlt : b₁.toNat * 256 + b₀.toNat < 65536 := by omega
        have hword : [b₁, b₀] = word (UInt16.ofNat (b₁.toNat * 256 + b₀.toNat)).toNat := by
          refine (word_eq_iff (UInt16.toNat_lt _)).2 ?_
          rw [UInt16.toNat_ofNat', Nat.mod_eq_of_lt hlt]
        exact ⟨_ :: l, rfl, by rw [List.flatMap_cons, ← hword]; rfl⟩

/-- Numbers of two bytes that count for nothing are passed over. -/
theorem reads_skip_words (n : Nat) : Reads (Reader.skip (n * 2)) fun w _ =>
    ∃ l : List UInt16, l.length = n ∧ w = l.flatMap fun i => word i.toNat :=
  (reads_skip (n * 2)).congr fun _ _ => exists_words.symm

theorem reads_skip_word : Reads (Reader.skip 2) fun w _ => ∃ i : UInt16, w = word i.toNat := by
  refine (reads_skip_words 1).congr fun w _ => ?_
  constructor
  · rintro ⟨l, hl, rfl⟩
    match l, hl with
    | [i], _ => exact ⟨i, rfl⟩
  · rintro ⟨i, rfl⟩
    exact ⟨[i], rfl, rfl⟩

theorem reads_skip_two_words :
    Reads (Reader.skip 4) fun w _ => ∃ i j : UInt16, w = word i.toNat ++ word j.toNat := by
  refine (reads_skip_words 2).congr fun w _ => ?_
  constructor
  · rintro ⟨l, hl, rfl⟩
    match l, hl with
    | [i, j], _ => exact ⟨i, j, rfl⟩
  · rintro ⟨i, j, rfl⟩
    exact ⟨[i, j], rfl, rfl⟩

theorem reads_skip_three_words : Reads (Reader.skip 6) fun w _ =>
    ∃ i j k : UInt16, w = word i.toNat ++ (word j.toNat ++ word k.toNat) := by
  refine (reads_skip_words 3).congr fun w _ => ?_
  constructor
  · rintro ⟨l, hl, rfl⟩
    match l, hl with
    | [i, j, k], _ => exact ⟨i, j, k, rfl⟩
  · rintro ⟨i, j, k, rfl⟩
    exact ⟨[i, j, k], rfl, rfl⟩

/-- A number of two bytes as an index. -/
theorem reads_index : Reads Reader.u2 fun w n => ∃ i : UInt16, n = i.toNat ∧ w = word i.toNat := by
  refine reads_u2.congr fun w n => ?_
  constructor
  · rintro ⟨hn, rfl⟩
    exact ⟨UInt16.ofNat n, by simp [Nat.mod_eq_of_lt hn], by simp [Nat.mod_eq_of_lt hn]⟩
  · rintro ⟨i, rfl, rfl⟩
    exact ⟨i.toNat_lt, rfl⟩

/-! ## Repetition -/

theorem reads_times {r : Reader Unit} {S : α → Prop} {each : α → Bytes}
    (h : Reads r fun w _ => ∃ a, S a ∧ w = each a) (n : Nat) :
    Reads (Reader.times n r) fun w _ =>
      ∃ l : List α, l.length = n ∧ (∀ a ∈ l, S a) ∧ w = l.flatMap each := by
  induction n with
  | zero =>
    refine (reads_pure ()).congr fun w x => ?_
    constructor
    · rintro ⟨rfl, -⟩
      exact ⟨[], rfl, by simp, rfl⟩
    · rintro ⟨l, hl, -, rfl⟩
      obtain rfl := List.length_eq_zero_iff.1 hl
      exact ⟨rfl, rfl⟩
  | succ n ih =>
    refine (h.bind fun _ => ih).congr fun w x => ?_
    constructor
    · rintro ⟨-, u, v, ⟨a, ha, rfl⟩, ⟨l, rfl, hl, rfl⟩, rfl⟩
      exact ⟨a :: l, rfl, by simpa using ⟨ha, hl⟩, by simp⟩
    · rintro ⟨l, hl, hS, rfl⟩
      obtain ⟨a, l, rfl⟩ := List.exists_cons_of_length_eq_add_one hl
      refine ⟨(), each a, l.flatMap each, ⟨a, hS a (by simp), rfl⟩, ⟨l, by simpa using hl, ?_, rfl⟩, by simp⟩
      exact fun b hb => hS b (by simp [hb])

theorem reads_counted {r : Reader Unit} {S : α → Prop} {each : α → Bytes}
    (h : Reads r fun w _ => ∃ a, S a ∧ w = each a) :
    Reads (Reader.u2 >>= fun n => Reader.times n r) fun w _ =>
      ∃ l : Counted α, (∀ a ∈ l.items, S a) ∧ w = l.encode each := by
  refine (reads_u2.bind fun n => reads_times h n).congr fun w x => ?_
  constructor
  · rintro ⟨n, u, v, ⟨hn, rfl⟩, ⟨l, rfl, hl, rfl⟩, rfl⟩
    exact ⟨⟨l, hn⟩, hl, rfl⟩
  · rintro ⟨l, hl, rfl⟩
    exact ⟨_, _, _, ⟨l.length_lt, rfl⟩, ⟨l.items, rfl, hl, rfl⟩, rfl⟩

end SourceRecovery.ClassFile
