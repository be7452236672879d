import SourceRecovery.ClassFile.ConstantPool
import SourceRecovery.Proofs.ClassFile.Reads

/-!
# Reading the constant pool

* `reads_pool`: the pool is read exactly, also where its last constant reaches a slot too far.
* `text_table`: afterwards an index names the text that stands in its slot.
-/

namespace SourceRecovery.ClassFile

open Format

/-! ## Tags of constants -/

/-- What the pool keeps in mind of the constants that are no texts. -/
def Format.ConstantSort.kind (sort : ConstantSort) : ConstantKind :=
  if sort.isWide then .twoSlots else .fixed sort.width

theorem ofTag?_sort (sort : ConstantSort) : ConstantKind.ofTag? sort.tag = some sort.kind := by
  cases sort <;> rfl

theorem width_of_isWide {sort : ConstantSort} (h : sort.isWide = true) : sort.width = 8 := by
  cases sort <;> first | rfl | cases h

theorem eq_ofNat_of_toNat_eq {tag : UInt8} {n : Nat} (h : tag.toNat = n) : tag = UInt8.ofNat n := by
  rw [← h, UInt8.ofNat_toNat]

/-- The kind of a tag tells the tag of a text, and else a sort of constants that the tag is of. -/
theorem constantKind_eq_some {tag : UInt8} {kind : ConstantKind}
    (h : ConstantKind.ofTag? tag = some kind) :
    kind = .text ∧ tag = 1 ∨ ∃ sort : ConstantSort, kind = sort.kind ∧ tag = sort.tag := by
  unfold ConstantKind.ofTag? at h
  split at h <;> rename_i hn <;> cases h
  · exact .inl ⟨rfl, eq_ofNat_of_toNat_eq hn⟩
  · exact .inr ⟨.integer, rfl, eq_ofNat_of_toNat_eq hn⟩
  · exact .inr ⟨.float, rfl, eq_ofNat_of_toNat_eq hn⟩
  · exact .inr ⟨.fieldRef, rfl, eq_ofNat_of_toNat_eq hn⟩
  · exact .inr ⟨.methodRef, rfl, eq_ofNat_of_toNat_eq hn⟩
  · exact .inr ⟨.interfaceMethodRef, rfl, eq_ofNat_of_toNat_eq hn⟩
  · exact .inr ⟨.nameAndType, rfl, eq_ofNat_of_toNat_eq hn⟩
  · exact .inr ⟨.dynamic, rfl, eq_ofNat_of_toNat_eq hn⟩
  · exact .inr ⟨.invokeDynamic, rfl, eq_ofNat_of_toNat_eq hn⟩
  · exact .inr ⟨.long, rfl, eq_ofNat_of_toNat_eq hn⟩
  · exact .inr ⟨.double, rfl, eq_ofNat_of_toNat_eq hn⟩
  · exact .inr ⟨.classInfo, rfl, eq_ofNat_of_toNat_eq hn⟩
  · exact .inr ⟨.string, rfl, eq_ofNat_of_toNat_eq hn⟩
  · exact .inr ⟨.methodType, rfl, eq_ofNat_of_toNat_eq hn⟩
  · exact .inr ⟨.moduleInfo, rfl, eq_ofNat_of_toNat_eq hn⟩
  · exact .inr ⟨.packageInfo, rfl, eq_ofNat_of_toNat_eq hn⟩
  · exact .inr ⟨.methodHandle, rfl, eq_ofNat_of_toNat_eq hn⟩

/-! ## Slots -/

/-- Whether constants one behind the other take `n` slots, or one more than that if the last takes
    two. -/
def Fills : Nat → List Constant → Prop
  | n, [] => n = 0
  | n, c :: cs => 0 < n ∧ Fills (n - c.slots.length) cs

theorem fills_iff {n : Nat} {cs : List Constant} : Fills n cs ↔
    (∀ front c, front ++ [c] <+: cs → (front.flatMap Constant.slots).length < n) ∧
      n ≤ (cs.flatMap Constant.slots).length := by
  induction cs generalizing n with
  | nil => simp [Fills]
  | cons c cs ih =>
    rw [Fills, ih, List.flatMap_cons, List.length_append]
    constructor
    · rintro ⟨hpos, hbegins, hle⟩
      refine ⟨fun front d hd => ?_, by omega⟩
      cases front with
      | nil => exact hpos
      | cons c' front =>
        obtain ⟨rfl, hd'⟩ := List.cons_prefix_cons.1 hd
        have := hbegins front d hd'
        rw [List.flatMap_cons, List.length_append]
        omega
    · rintro ⟨hbegins, hle⟩
      refine ⟨hbegins [] c (by simp), fun front d hd => ?_, by omega⟩
      have := hbegins (c :: front) d (List.cons_prefix_cons.2 ⟨rfl, hd⟩)
      rw [List.flatMap_cons, List.length_append] at this
      omega

/-- The slot that the last constant reaches too far names nothing. -/
theorem join_getElem?_of_fills {n k : Nat} {cs : List Constant} (h : Fills n cs) (hk : n ≤ k) :
    ((cs.flatMap Constant.slots)[k]?).join = none := by
  induction cs generalizing n k with
  | nil => simp
  | cons c cs ih =>
    obtain ⟨hpos, h⟩ := h
    rw [List.flatMap_cons]
    by_cases hc : k < c.slots.length
    · rw [List.getElem?_append_left hc]
      cases c with
      | text bytes _ => simp [Constant.slots] at hc; omega
      | other sort payload _ =>
        cases hw : sort.isWide <;> simp [Constant.slots, hw] at hc ⊢
        · omega
        · obtain rfl : k = 1 := by omega
          rfl
    · rw [List.getElem?_append_right (by omega)]
      exact ih h (by omega)

/-! ## The pool -/

/-- The pool of constants that take the slots below a count. -/
def Format.Pool.ofFills (count : UInt16) (cs : List Constant) (h : Fills (count.toNat - 1) cs) :
    Pool where
  count := count
  constants := cs
  begins_lt front c hc := by
    have := (fills_iff.1 h).1 front c hc
    omega
  count_le := by
    have := (fills_iff.1 h).2
    omega

/-- The slots that are read, below the count. -/
def Format.Pool.table (p : Pool) : ConstantPool :=
  ⟨(none :: (p.constants.flatMap Constant.slots).take (p.count.toNat - 1)).toArray⟩

theorem Format.Pool.fills (p : Pool) : Fills (p.count.toNat - 1) p.constants := by
  refine fills_iff.2 ⟨fun front c h => ?_, ?_⟩
  · have := p.begins_lt front c h
    omega
  · have := p.count_le
    omega

theorem join_table (p : Pool) (i : Nat) :
    (p.table.slots[i]?).join = ((none :: p.constants.flatMap Constant.slots)[i]?).join := by
  rw [Format.Pool.table, List.getElem?_toArray]
  cases i with
  | zero => rfl
  | succ i =>
    rw [List.getElem?_cons_succ, List.getElem?_cons_succ, List.getElem?_take]
    split
    · rfl
    · rename_i hi
      rw [join_getElem?_of_fills p.fills (by omega)]
      rfl

theorem text_eq (pool : ConstantPool) (i : Nat) : pool.text i = match (pool.slots[i]?).join with
    | some text => .ok text
    | none => .error (.badConstantIndex i) := by
  rw [ConstantPool.text]
  cases pool.slots[i]? with
  | none => rfl
  | some text => cases text <;> rfl

/-- An index names the text in its slot, and every other index is refused. -/
theorem text_table (p : Pool) (i : UInt16) :
    p.table.text i.toNat = match p.text? i with
      | some text => .ok text
      | none => .error (.badConstantIndex i.toNat) := by
  rw [Pool.text?, ← join_table, text_eq]

theorem text_table_eq_ok {p : Pool} {i : UInt16} {text : Bytes} :
    p.table.text i.toNat = .ok text ↔ p.text? i = some text := by
  rw [text_table]
  cases p.text? i <;> simp

/-! ## Reading -/

/-- What the second slot of a constant adds to the slots. -/
def pending (second : Bool) : List (Option Bytes) :=
  if second then [none] else []

/-- The constants of the next `n` slots, and the slots after them. -/
def Filled (n : Nat) (second : Bool) (known : Array (Option Bytes)) (w : Bytes)
    (slots : Array (Option Bytes)) : Prop :=
  ∃ cs, Fills (n - (pending second).length) cs ∧ w = cs.flatMap Constant.encode ∧
    slots.toList = known.toList ++ (pending second ++ cs.flatMap Constant.slots).take n

/-- What follows the tag of a constant: the rest of it, and the constants of the next `n` slots. -/
def FilledBehind (n : Nat) (known : Array (Option Bytes)) (w : Bytes)
    (slots : Array (Option Bytes)) : Option ConstantKind → Prop
  | some .text => ∃ bytes v, bytes.length < 65536 ∧
      Filled n false (known.push (some bytes)) v slots ∧ w = word bytes.length ++ (bytes ++ v)
  | some (.fixed width) => ∃ payload v, payload.length = width ∧
      Filled n false (known.push none) v slots ∧ w = payload ++ v
  | some .twoSlots => ∃ payload v, payload.length = 8 ∧
      Filled n true (known.push none) v slots ∧ w = payload ++ v
  | none => False

theorem filled_succ_iff (n : Nat) (known : Array (Option Bytes)) (w : Bytes)
    (slots : Array (Option Bytes)) :
    Filled (n + 1) false known w slots ↔
      ∃ tag u, FilledBehind n known u slots (ConstantKind.ofTag? tag) ∧ w = tag :: u := by
  constructor
  · rintro ⟨cs, hfills, rfl, hslots⟩
    cases cs with
    | nil => cases hfills
    | cons c cs =>
      cases c with
      | text bytes hlt =>
        refine ⟨1, _, ⟨bytes, _, hlt, ⟨cs, hfills.2, rfl, ?_⟩, rfl⟩, ?_⟩
        · simpa [pending, Constant.slots] using hslots
        · simp [Constant.encode]
      | other sort payload hlen =>
        refine ⟨sort.tag, payload ++ cs.flatMap Constant.encode, ?_, rfl⟩
        rw [ofTag?_sort, ConstantSort.kind]
        cases hwide : sort.isWide with
        | false =>
          simp only [Fills, Constant.slots, hwide] at hfills
          refine ⟨payload, _, hlen, ⟨cs, hfills.2, rfl, ?_⟩, rfl⟩
          simpa [pending, Constant.slots, hwide] using hslots
        | true =>
          simp only [Fills, Constant.slots, hwide] at hfills
          refine ⟨payload, _, hlen.trans (width_of_isWide hwide), ⟨cs, hfills.2, rfl, ?_⟩, rfl⟩
          simpa [pending, Constant.slots, hwide] using hslots
  · rintro ⟨tag, u, hu, rfl⟩
    cases hkind : ConstantKind.ofTag? tag with
    | none => rw [hkind] at hu; exact hu.elim
    | some kind =>
      rw [hkind] at hu
      obtain ⟨rfl, rfl⟩ | ⟨sort, rfl, rfl⟩ := constantKind_eq_some hkind
      · obtain ⟨bytes, v, hlt, ⟨cs, hfills, rfl, hslots⟩, rfl⟩ := hu
        refine ⟨.text bytes hlt :: cs, ⟨Nat.succ_pos n, hfills⟩, ?_, ?_⟩
        · simp [Constant.encode]
        · simpa [pending, Constant.slots] using hslots
      · unfold ConstantSort.kind at hu
        cases hwide : sort.isWide with
        | false =>
          rw [hwide] at hu
          obtain ⟨payload, v, hlen, ⟨cs, hfills, rfl, hslots⟩, rfl⟩ := hu
          refine ⟨.other sort payload hlen :: cs, ⟨Nat.succ_pos n, ?_⟩, rfl, ?_⟩
          · simpa [pending, Constant.slots, hwide] using hfills
          · simpa [pending, Constant.slots, hwide] using hslots
        | true =>
          rw [hwide] at hu
          obtain ⟨payload, v, hlen, ⟨cs, hfills, rfl, hslots⟩, rfl⟩ := hu
          refine ⟨.other sort payload (hlen.trans (width_of_isWide hwide).symm) :: cs,
            ⟨Nat.succ_pos n, ?_⟩, rfl, ?_⟩
          · simpa [pending, Constant.slots, hwide] using hfills
          · simpa [pending, Constant.slots, hwide] using hslots

/-- Constants are read exactly. -/
theorem reads_readSlots (n : Nat) (second : Bool) (known : Array (Option Bytes)) :
    Reads (ConstantPool.readSlots n second known) (Filled n second known) := by
  induction n generalizing second known with
  | zero =>
    refine (reads_pure known).congr fun w slots => ?_
    constructor
    · rintro ⟨rfl, rfl⟩
      exact ⟨[], by simp [Fills], rfl, by simp⟩
    · rintro ⟨cs, hfills, rfl, hslots⟩
      cases cs with
      | nil => exact ⟨rfl, by simpa [← Array.toList_inj] using hslots⟩
      | cons c cs => exact absurd hfills.1 (by simp)
  | succ n ih =>
    cases second with
    | true =>
      refine (ih false (known.push none)).congr fun w slots => ?_
      simp [Filled, pending]
    | false =>
      refine (reads_u1.bind (H := fun tag w slots =>
        FilledBehind n known w slots (ConstantKind.ofTag? tag)) fun tag => ?_).congr fun w slots => ?_
      · cases ConstantKind.ofTag? tag with
        | none => exact reads_throw _
        | some kind =>
          cases kind with
          | text =>
            refine (reads_u2.bind fun length => (reads_take length).bind fun bytes =>
              ih false (known.push (some bytes))).congr fun w slots => ?_
            constructor
            · rintro ⟨-, _, _, ⟨hlt, rfl⟩, ⟨_, bytes, v, ⟨rfl, rfl⟩, hv, rfl⟩, rfl⟩
              exact ⟨bytes, v, hlt, hv, rfl⟩
            · rintro ⟨bytes, v, hlt, hv, rfl⟩
              exact ⟨_, _, _, ⟨hlt, rfl⟩, ⟨bytes, _, v, ⟨rfl, rfl⟩, hv, rfl⟩, rfl⟩
          | fixed width =>
            refine ((reads_skip width).bind fun _ => ih false (known.push none)).congr
              fun w slots => ?_
            constructor
            · rintro ⟨-, payload, v, hlen, hv, rfl⟩
              exact ⟨payload, v, hlen, hv, rfl⟩
            · rintro ⟨payload, v, hlen, hv, rfl⟩
              exact ⟨(), payload, v, hlen, hv, rfl⟩
          | twoSlots =>
            refine ((reads_skip 8).bind fun _ => ih true (known.push none)).congr fun w slots => ?_
            constructor
            · rintro ⟨-, payload, v, hlen, hv, rfl⟩
              exact ⟨payload, v, hlen, hv, rfl⟩
            · rintro ⟨payload, v, hlen, hv, rfl⟩
              exact ⟨(), payload, v, hlen, hv, rfl⟩
      · rw [filled_succ_iff]
        constructor
        · rintro ⟨tag, _, u, rfl, hu, rfl⟩
          exact ⟨tag, u, hu, rfl⟩
        · rintro ⟨tag, u, hu, rfl⟩
          exact ⟨tag, [tag], u, rfl, hu, rfl⟩

/-- The constant pool is read exactly. -/
theorem reads_pool :
    Reads ConstantPool.read fun w pool => ∃ p : Pool, pool = p.table ∧ w = p.encode := by
  refine (reads_index.bind fun count => (reads_readSlots (count - 1) false #[none]).bind
    fun slots => reads_pure (ConstantPool.mk slots)).congr fun w pool => ?_
  constructor
  · rintro ⟨-, _, _, ⟨count, rfl, rfl⟩, ⟨slots, _, _, ⟨cs, hfills, rfl, hslots⟩, ⟨rfl, rfl⟩, rfl⟩, rfl⟩
    refine ⟨.ofFills count cs hfills, ?_, by simp [Pool.encode, Pool.ofFills]⟩
    rw [Pool.table, ConstantPool.mk.injEq, ← Array.toList_inj, hslots]
    rfl
  · rintro ⟨p, rfl, rfl⟩
    refine ⟨_, _, _, ⟨p.count, rfl, rfl⟩, ⟨_, _, [], ⟨p.constants, p.fills, rfl, rfl⟩, ⟨rfl, ?_⟩, rfl⟩,
      by simp [Pool.encode]⟩
    rfl

end SourceRecovery.ClassFile
