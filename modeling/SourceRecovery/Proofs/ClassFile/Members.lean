import SourceRecovery.ClassFile.Basic
import SourceRecovery.Proofs.ClassFile.Marks
import SourceRecovery.Proofs.ClassFile.Pool

/-!
# Reading a class file

* `reads_readHead`: what stands in front of the methods is read exactly.
* `reads_readMethod`: a method is read exactly, and its attributes say whether it carries the marker.
* `reads_findMarked`: methods are read up to the first one that carries the marker.
-/

namespace SourceRecovery.ClassFile

open Format

/-! ## The head -/

theorem reads_skipAttribute : Reads (do Reader.skip 2; let length ← Reader.u4; Reader.skip length)
    fun w _ => ∃ a : Attribute, True ∧ w = a.encode := by
  refine (reads_skip_word.bind fun _ => reads_u4.bind fun n => reads_skip n).congr fun w _ => ?_
  constructor
  · rintro ⟨-, _, _, ⟨i, rfl⟩, ⟨n, _, body, ⟨hn, rfl⟩, rfl, rfl⟩, rfl⟩
    exact ⟨⟨i, body, hn⟩, trivial, rfl⟩
  · rintro ⟨a, -, rfl⟩
    exact ⟨(), _, _, ⟨a.name, rfl⟩, ⟨_, _, a.body, ⟨a.length_lt, rfl⟩, rfl, rfl⟩, rfl⟩

theorem reads_skipAttributes :
    Reads skipAttributes fun w _ => ∃ l : Counted Attribute, w = l.encode Attribute.encode :=
  (reads_counted reads_skipAttribute).congr fun w _ => by simp

theorem reads_skipField :
    Reads skipField fun w _ => ∃ m : Field, True ∧ w = m.encode Attribute.encode := by
  refine (reads_skip_three_words.bind fun _ => reads_skipAttributes).congr fun w _ => ?_
  constructor
  · rintro ⟨-, _, _, ⟨i, j, k, rfl⟩, ⟨l, rfl⟩, rfl⟩
    exact ⟨⟨i, j, k, l⟩, trivial, by simp [Member.encode]⟩
  · rintro ⟨m, -, rfl⟩
    exact ⟨(), _, _, ⟨m.flags, m.name, m.type, rfl⟩, ⟨m.attributes, rfl⟩, by simp [Member.encode]⟩

theorem reads_interfaces : Reads (Reader.u2 >>= fun n => Reader.skip (n * 2)) fun w _ =>
    ∃ l : Counted UInt16, w = l.encode fun i => word i.toNat := by
  refine (reads_u2.bind fun n => reads_skip_words n).congr fun w _ => ?_
  constructor
  · rintro ⟨n, _, _, ⟨hn, rfl⟩, ⟨l, rfl, rfl⟩, rfl⟩
    exact ⟨⟨l, hn⟩, rfl⟩
  · rintro ⟨l, rfl⟩
    exact ⟨_, _, _, ⟨l.length_lt, rfl⟩, ⟨l.items, rfl, rfl⟩, rfl⟩

theorem doubleWord_magicNumber : doubleWord magicNumber = signature := by
  decide

/-- The fields and the count of the methods. -/
theorem reads_fields (pool : ConstantPool) :
    Reads (do
      let fields ← Reader.u2
      Reader.times fields skipField
      let methods ← Reader.u2
      pure (pool, methods)) fun w x => ∃ (fields : Counted Field) (n : UInt16),
        x = (pool, n.toNat) ∧ w = fields.encode (Member.encode Attribute.encode) ++ word n.toNat := by
  refine ((reads_counted reads_skipField).bind fun _ => reads_index.bind fun n =>
    reads_pure (pool, n)).assoc.congr fun w x => ?_
  constructor
  · rintro ⟨-, _, _, ⟨fields, -, rfl⟩, ⟨_, _, _, ⟨n, rfl, rfl⟩, ⟨rfl, rfl⟩, rfl⟩, rfl⟩
    exact ⟨fields, n, rfl, by rw [List.append_nil]⟩
  · rintro ⟨fields, n, rfl, rfl⟩
    exact ⟨(), _, _, ⟨fields, fun _ _ => trivial, rfl⟩,
      ⟨_, _, _, ⟨n, rfl, rfl⟩, ⟨rfl, rfl⟩, rfl⟩, by rw [List.append_nil]⟩

/-- What follows the constant pool. -/
theorem reads_behindPool (pool : ConstantPool) :
    Reads (do
      Reader.skip 6
      let interfaces ← Reader.u2
      Reader.skip (interfaces * 2)
      let fields ← Reader.u2
      Reader.times fields skipField
      let methods ← Reader.u2
      pure (pool, methods)) fun w x => ∃ (flags this super : UInt16) (interfaces : Counted UInt16)
        (fields : Counted Field) (n : UInt16), x = (pool, n.toNat) ∧
        w = word flags.toNat ++ (word this.toNat ++ (word super.toNat ++
          (interfaces.encode (fun i => word i.toNat) ++
            (fields.encode (Member.encode Attribute.encode) ++ word n.toNat)))) := by
  refine (reads_skip_three_words.bind fun _ =>
    (reads_interfaces.bind fun _ => reads_fields pool).assoc).congr fun w x => ?_
  constructor
  · rintro ⟨-, _, _, ⟨flags, this, super, rfl⟩, ⟨-, _, _, ⟨interfaces, rfl⟩, ⟨fields, n, rfl, rfl⟩, rfl⟩,
      rfl⟩
    exact ⟨flags, this, super, interfaces, fields, n, rfl, by simp⟩
  · rintro ⟨flags, this, super, interfaces, fields, n, rfl, rfl⟩
    exact ⟨(), _, _, ⟨flags, this, super, rfl⟩,
      ⟨(), _, _, ⟨interfaces, rfl⟩, ⟨fields, n, rfl, rfl⟩, rfl⟩, by simp⟩

/-- The head of a class file is read exactly. -/
theorem reads_readHead : Reads readHead fun w x =>
    ∃ h : Head, x = (h.pool.table, h.methodCount.toNat) ∧ w = h.encode := by
  refine (reads_u4.bind (H := fun magic w x => magic = magicNumber ∧ ∃ h : Head,
    x = (h.pool.table, h.methodCount.toNat) ∧ signature ++ w = h.encode) fun magic => ?_).congr
      fun w x => ?_
  · by_cases hmagic : magic = magicNumber
    · rw [if_neg (not_not_intro hmagic)]
      refine (reads_skip_two_words.bind fun _ => reads_pool.bind reads_behindPool).congr
        fun w x => ?_
      constructor
      · rintro ⟨-, _, _, ⟨minor, major, rfl⟩, ⟨_, _, _, ⟨pool, rfl, rfl⟩,
          ⟨flags, this, super, interfaces, fields, n, rfl, rfl⟩, rfl⟩, rfl⟩
        refine ⟨hmagic, ⟨minor, major, pool, flags, this, super, interfaces, fields, n⟩, rfl, ?_⟩
        rw [List.append_assoc]
        rfl
      · rintro ⟨-, h, rfl, hw⟩
        refine ⟨(), _, _, ⟨h.minor, h.major, rfl⟩, ⟨_, _, _, ⟨h.pool, rfl, rfl⟩, ⟨h.flags, h.this,
          h.super, h.interfaces, h.fields, h.methodCount, rfl, rfl⟩, rfl⟩, ?_⟩
        rw [List.append_assoc]
        exact List.append_cancel_left hw
    · rw [if_pos hmagic]
      refine (reads_throw_bind (.badMagic magic) _).congr fun w x => ?_
      constructor
      · rintro ⟨⟩
      · rintro ⟨h, -⟩
        exact hmagic h
  · constructor
    · rintro ⟨_, _, v, ⟨-, rfl⟩, ⟨rfl, h, rfl, hw⟩, rfl⟩
      exact ⟨h, rfl, by rw [doubleWord_magicNumber, hw]⟩
    · rintro ⟨h, rfl, rfl⟩
      exact ⟨magicNumber, _, _, ⟨by decide, doubleWord_magicNumber.symm⟩, ⟨rfl, h, rfl, rfl⟩, rfl⟩

/-! ## Methods -/

/-- What the attributes of a method come to: whether the marker is among them, given whether it was
    among those before them. -/
def carriesAfter (pool : ConstantPool) (marker : Bytes) :
    Bool → List Attribute → Except Fault Bool
  | carries, [] => .ok carries
  | carries, a :: as => do
    let name ← pool.text a.name.toNat
    if !carries && listsMarks name then
      carriesAfter pool marker (← bodyCarries pool marker a.body) as
    else
      carriesAfter pool marker carries as

theorem bind_ok {α β : Type} {a : Except Fault α} {k : α → Except Fault β} {y : β} :
    a >>= k = .ok y ↔ ∃ x, a = .ok x ∧ k x = .ok y := by
  cases a <;> simp [bind, Except.bind]

theorem carriesAfter_cons {pool : ConstantPool} {marker name : Bytes} {a : Attribute}
    {as : List Attribute} {carries : Bool} (h : pool.text a.name.toNat = .ok name) :
    carriesAfter pool marker carries (a :: as) =
      if !carries && listsMarks name then
        bodyCarries pool marker a.body >>= fun found => carriesAfter pool marker found as
      else carriesAfter pool marker carries as := by
  rw [carriesAfter, h]
  rfl

theorem reads_readAttributes (pool : ConstantPool) (marker : Bytes) (n : Nat) (carries : Bool) :
    Reads (readAttributes pool marker n carries) fun w x => ∃ as : List Attribute,
      as.length = n ∧ carriesAfter pool marker carries as = .ok x ∧
        w = as.flatMap Attribute.encode := by
  induction n generalizing carries with
  | zero =>
    refine (reads_pure carries).congr fun w x => ?_
    constructor
    · rintro ⟨rfl, rfl⟩
      exact ⟨[], rfl, rfl, rfl⟩
    · rintro ⟨as, hlen, hx, rfl⟩
      obtain rfl := List.length_eq_zero_iff.1 hlen
      exact ⟨rfl, (Except.ok.inj hx).symm⟩
  | succ n ih =>
    rw [readAttributes]
    refine (reads_index.bind fun i => (reads_lift (pool.text i)).bind fun name =>
      reads_u4.bind fun length => (reads_take length).bind fun body =>
        ((reads_lift (bodyCarries pool marker body)).bind fun found => ih found).ite (ih carries)).congr
          fun w x => ?_
    constructor
    · rintro ⟨_, _, _, ⟨i, rfl, rfl⟩, ⟨name, _, _, ⟨rfl, hname⟩, ⟨_, _, _, ⟨hlt, rfl⟩,
        ⟨_, body, v, ⟨rfl, rfl⟩, h, rfl⟩, rfl⟩, rfl⟩, rfl⟩
      by_cases hlook : (!carries && listsMarks name) = true
      · rw [if_pos hlook] at h
        obtain ⟨found, _, _, ⟨rfl, hfound⟩, ⟨as, rfl, hx, rfl⟩, rfl⟩ := h
        refine ⟨⟨i, body, hlt⟩ :: as, rfl, ?_, by simp [Attribute.encode]⟩
        rw [carriesAfter_cons hname, if_pos hlook]
        exact bind_ok.2 ⟨found, hfound, hx⟩
      · rw [if_neg hlook] at h
        obtain ⟨as, rfl, hx, rfl⟩ := h
        refine ⟨⟨i, body, hlt⟩ :: as, rfl, ?_, by simp [Attribute.encode]⟩
        rw [carriesAfter_cons hname, if_neg hlook]
        exact hx
    · rintro ⟨as, hlen, hx, rfl⟩
      obtain ⟨a, as, rfl⟩ := List.exists_cons_of_length_eq_add_one hlen
      obtain ⟨name, hname, hx'⟩ := bind_ok.1 hx
      refine ⟨_, _, _, ⟨a.name, rfl, rfl⟩, ⟨name, _, _, ⟨rfl, hname⟩, ⟨_, _, _, ⟨a.length_lt, rfl⟩,
        ⟨_, a.body, as.flatMap Attribute.encode, ⟨rfl, rfl⟩, ?_, rfl⟩, rfl⟩, rfl⟩,
          by simp [Attribute.encode]⟩
      by_cases hlook : (!carries && listsMarks name) = true
      · rw [if_pos hlook] at hx' ⊢
        obtain ⟨found, hfound, hx'⟩ := bind_ok.1 hx'
        exact ⟨found, _, _, ⟨rfl, hfound⟩, ⟨as, by simpa using hlen, hx', rfl⟩, rfl⟩
      · rw [if_neg hlook] at hx' ⊢
        exact ⟨as, by simpa using hlen, hx', rfl⟩

/-- Whether a method has the name `name`, and whether the marker is among its attributes. -/
def Judged (pool : ConstantPool) (marker : Bytes) (m : Member Attribute) (name : Bytes)
    (carries : Bool) : Prop :=
  pool.text m.name.toNat = .ok name ∧
    carriesAfter pool marker false m.attributes.items = .ok carries

theorem reads_readMethod (pool : ConstantPool) (marker : Bytes) :
    Reads (readMethod pool marker) fun w x => ∃ m : Member Attribute,
      Judged pool marker m x.1 x.2 ∧ w = m.encode Attribute.encode := by
  refine (reads_skip_word.bind fun _ => reads_index.bind fun i =>
    (reads_lift (pool.text i)).bind fun name => reads_skip_word.bind fun _ => reads_u2.bind fun n =>
      (reads_readAttributes pool marker n false).bind fun carries =>
        reads_pure (name, carries)).congr fun w x => ?_
  constructor
  · rintro ⟨-, _, _, ⟨flags, rfl⟩, ⟨_, _, _, ⟨i, rfl, rfl⟩, ⟨name, _, _, ⟨rfl, hname⟩, ⟨-, _, _, ⟨type, rfl⟩,
      ⟨_, _, _, ⟨hn, rfl⟩, ⟨carries, _, _, ⟨as, rfl, hx, rfl⟩, ⟨rfl, rfl⟩, rfl⟩, rfl⟩, rfl⟩, rfl⟩, rfl⟩, rfl⟩
    exact ⟨⟨flags, i, type, as, hn⟩, ⟨hname, hx⟩, by simp [Member.encode, Counted.encode]⟩
  · rintro ⟨m, ⟨hname, hx⟩, rfl⟩
    exact ⟨(), _, _, ⟨m.flags, rfl⟩, ⟨_, _, _, ⟨m.name, rfl, rfl⟩, ⟨x.1, _, _, ⟨rfl, hname⟩, ⟨(), _, _,
      ⟨m.type, rfl⟩, ⟨_, _, _, ⟨m.attributes.length_lt, rfl⟩, ⟨x.2, _, _, ⟨_, rfl, hx, rfl⟩,
        ⟨rfl, rfl⟩, rfl⟩, rfl⟩, rfl⟩, rfl⟩, rfl⟩, by simp [Member.encode, Counted.encode]⟩

/-- The bytes of `n` methods without the marker, or of the first methods up to the first that
    carries it. -/
def Found (pool : ConstantPool) (marker : Bytes) (n : Nat) (w : Bytes) : Option Bytes → Prop
  | none => ∃ ms : List (Member Attribute), ms.length = n ∧
      (∀ m ∈ ms, ∃ name, Judged pool marker m name false) ∧
      w = ms.flatMap (Member.encode Attribute.encode)
  | some name => ∃ (ms : List (Member Attribute)) (m : Member Attribute), ms.length < n ∧
      (∀ m ∈ ms, ∃ name, Judged pool marker m name false) ∧ Judged pool marker m name true ∧
      w = ms.flatMap (Member.encode Attribute.encode) ++ m.encode Attribute.encode

theorem found_zero_iff {pool : ConstantPool} {marker w : Bytes} {x : Option Bytes} :
    Found pool marker 0 w x ↔ w = [] ∧ x = none := by
  constructor
  · intro h
    cases x with
    | none =>
      obtain ⟨ms, hlen, -, rfl⟩ := h
      obtain rfl := List.length_eq_zero_iff.1 hlen
      exact ⟨rfl, rfl⟩
    | some name =>
      obtain ⟨ms, m, hlt, -⟩ := h
      exact absurd hlt (Nat.not_lt_zero _)
  · rintro ⟨rfl, rfl⟩
    exact ⟨[], rfl, by simp, rfl⟩

/-- The first method carries the marker, or the search goes on behind it. -/
theorem found_succ_iff {pool : ConstantPool} {marker w : Bytes} {n : Nat} {x : Option Bytes} :
    Found pool marker (n + 1) w x ↔ ∃ (m : Member Attribute) (name : Bytes),
      (Judged pool marker m name true ∧ w = m.encode Attribute.encode ∧ x = some name) ∨
      (Judged pool marker m name false ∧ ∃ v, Found pool marker n v x ∧
        w = m.encode Attribute.encode ++ v) := by
  constructor
  · intro h
    cases x with
    | none =>
      obtain ⟨ms, hlen, hms, rfl⟩ := h
      obtain ⟨m, ms, rfl⟩ := List.exists_cons_of_length_eq_add_one hlen
      obtain ⟨⟨name, hm⟩, hms⟩ := List.forall_mem_cons.1 hms
      exact ⟨m, name, .inr ⟨hm, _, ⟨ms, by simpa using hlen, hms, rfl⟩, rfl⟩⟩
    | some name =>
      obtain ⟨ms, m, hlt, hms, hm, rfl⟩ := h
      cases ms with
      | nil => exact ⟨m, name, .inl ⟨hm, rfl, rfl⟩⟩
      | cons m' ms =>
        obtain ⟨⟨name', hm'⟩, hms⟩ := List.forall_mem_cons.1 hms
        exact ⟨m', name', .inr ⟨hm', _, ⟨ms, m, by simpa using hlt, hms, hm, rfl⟩, by simp⟩⟩
  · rintro ⟨m, name, ⟨hm, rfl, rfl⟩ | ⟨hm, v, h, rfl⟩⟩
    · exact ⟨[], m, Nat.succ_pos n, by simp, hm, by simp⟩
    · cases x with
      | none =>
        obtain ⟨ms, rfl, hms, rfl⟩ := h
        exact ⟨m :: ms, rfl, List.forall_mem_cons.2 ⟨⟨name, hm⟩, hms⟩, rfl⟩
      | some name' =>
        obtain ⟨ms, m', hlt, hms, hm', rfl⟩ := h
        exact ⟨m :: ms, m', by simpa using hlt, List.forall_mem_cons.2 ⟨⟨name, hm⟩, hms⟩, hm',
          by simp⟩

theorem reads_findMarked (pool : ConstantPool) (marker : Bytes) (n : Nat) :
    Reads (findMarked pool marker n) (Found pool marker n) := by
  induction n with
  | zero => exact (reads_pure none).congr fun w x => found_zero_iff.symm
  | succ n ih =>
    rw [findMarked]
    refine ((reads_readMethod pool marker).bind fun x =>
      (reads_pure (some x.1)).ite ih).congr fun w x => ?_
    rw [found_succ_iff]
    constructor
    · rintro ⟨⟨name, carries⟩, _, v, ⟨m, hm, rfl⟩, h, rfl⟩
      cases carries with
      | true =>
        obtain ⟨rfl, rfl⟩ := h
        exact ⟨m, name, .inl ⟨hm, List.append_nil _, rfl⟩⟩
      | false => exact ⟨m, name, .inr ⟨hm, v, h, rfl⟩⟩
    · rintro ⟨m, name, ⟨hm, rfl, rfl⟩ | ⟨hm, v, h, rfl⟩⟩
      · exact ⟨(name, true), _, [], ⟨m, hm, rfl⟩, ⟨rfl, rfl⟩, (List.append_nil _).symm⟩
      · exact ⟨(name, false), _, v, ⟨m, hm, rfl⟩, h, rfl⟩

end SourceRecovery.ClassFile
