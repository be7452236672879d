import SourceRecovery.Proofs.ClassFile.Guarded
import SourceRecovery.Proofs.ClassFile.Pool

/-!
# Slots of the constant pool

The constants once more as they are read under guard: into a table that is as long as the count says,
with a counter of 16 bits that stops at its greatest value, and with a record of the slots that it has
been at.

* `Guarded.readPool`: the loop over the slots. A slot outside of the table and a counter that does not
  go forward are traps.
* `mirrors_readPool`: on all bytes, the texts are those of `ConstantPool.read`, and there is no trap.
* `readPool_exact`: constants that fill a count are read exactly, from the slots where they begin, each
  of them once. Afterwards the slots where a text begins name that text, and all others nothing.
-/

namespace SourceRecovery.ClassFile

open Format

/-! ## The loop over the slots -/

namespace Guarded

/-- Writes a text into a slot of a table. -/
def write (slots : Array (Option Bytes)) (index : Nat) (text : Bytes) :
    Guarded (Array (Option Bytes)) :=
  if h : index < slots.size then pure (slots.set index (some text) h) else stop .outOfBounds

/-- Reads the constant that begins at a slot, and says how many slots it takes. -/
def readConstant (index : Nat) (slots : Array (Option Bytes)) :
    Guarded (Array (Option Bytes) × Nat) := do
  let tag ← u1
  match ConstantKind.ofTag? tag with
  | some .text => do
    let length ← u2
    let bytes ← take length
    let slots ← write slots index bytes
    pure (slots, 1)
  | some (.fixed width) => do
    skip width
    pure (slots, 1)
  | some .twoSlots => do
    skip 8
    pure (slots, 2)
  | none => fail (.unknownConstantTag tag index)

/-- The slot behind some others, in a counter of 16 bits that stops at its greatest value. -/
def nextSlot (index taken : Nat) : Nat :=
  min (index + taken) 65535

/-- Reads the constants from a slot on up to the count, and records where they begin. -/
def readConstants (count index : Nat) (slots : Array (Option Bytes)) (visited : List Nat) :
    Guarded (Array (Option Bytes) × List Nat) :=
  if index < count then do
    let (slots, taken) ← round (readConstant index slots)
    if index < nextSlot index taken then
      readConstants count (nextSlot index taken) slots (visited ++ [index])
    else stop .revisited
  else pure (slots, visited)
termination_by count - index

/-- Reads the count and the constants, and says at which slots it has read one. -/
def readPool : Guarded (ConstantPool × List Nat) := do
  let count ← u2
  let (slots, visited) ← readConstants count 1 (Array.replicate count none) []
  pure (⟨slots⟩, visited)

end Guarded

/-! ## One constant -/

/-- One constant: the text that it names, and the number of its slots. -/
def constantAt (index : Nat) : Reader (Option Bytes × Nat) := do
  let tag ← Reader.u1
  match ConstantKind.ofTag? tag with
  | some .text => do
    let length ← Reader.u2
    let bytes ← Reader.take length
    pure (some bytes, 1)
  | some (.fixed width) => do
    Reader.skip width
    pure (none, 1)
  | some .twoSlots => do
    Reader.skip 8
    pure (none, 2)
  | none => throw (.unknownConstantTag tag index)

theorem readSlots_succ (n : Nat) (known : Array (Option Bytes)) :
    ConstantPool.readSlots (n + 1) false known =
      constantAt known.size >>= fun x =>
        ConstantPool.readSlots n (x.2 == 2) (known.push x.1) := by
  unfold constantAt
  rw [ConstantPool.readSlots, bind_assoc]
  congr 1
  funext tag
  cases ConstantKind.ofTag? tag with
  | none => rfl
  | some kind => cases kind <;> simp

/-- A constant is read from the bytes that it is written as. -/
theorem constantAt_encode (c : Constant) (index : Nat) (e : Extent) (o : Nat) (rest : Bytes) :
    ∃ text, constantAt index ⟨e, o, c.encode ++ rest⟩ =
      .ok ((text, c.slots.length), ⟨e, o + c.encode.length, rest⟩) := by
  cases c with
  | text bytes hlt =>
    have htag : Reader.u1 ⟨e, o, (Constant.text bytes hlt).encode ++ rest⟩ =
        .ok (1, ⟨e, o + 1, word bytes.length ++ (bytes ++ rest)⟩) := by
      simp [Reader.u1, Constant.encode]
    have hlength := (reads_u2 e (o + 1) _ _ _).2
      ⟨word bytes.length, bytes ++ rest, ⟨hlt, rfl⟩, rfl, rfl⟩
    have hbytes := (reads_take bytes.length e (o + 1 + 2) _ _ _).2
      ⟨bytes, rest, ⟨rfl, rfl⟩, rfl, rfl⟩
    have hend : o + 1 + 2 + bytes.length = o + (Constant.text bytes hlt).encode.length := by
      simp only [Constant.encode, List.length_cons, List.length_append, length_word]
      omega
    refine ⟨some bytes, ?_⟩
    unfold constantAt
    rw [bind_of_ok htag]
    show (Reader.u2 >>= fun length => Reader.take length >>= fun bytes => pure (some bytes, 1)) _ = _
    rw [bind_of_ok hlength, length_word, bind_of_ok hbytes, hend]
    rfl
  | other sort payload hlen =>
    have htag : Reader.u1 ⟨e, o, (Constant.other sort payload hlen).encode ++ rest⟩ =
        .ok (sort.tag, ⟨e, o + 1, payload ++ rest⟩) := by
      simp [Reader.u1, Constant.encode]
    have hpayload := (reads_skip payload.length e (o + 1) _ () _).2 ⟨payload, rest, rfl, rfl, rfl⟩
    have hend : o + 1 + payload.length = o + (Constant.other sort payload hlen).encode.length := by
      simp only [Constant.encode, List.length_cons]
      omega
    rw [hend] at hpayload
    refine ⟨none, ?_⟩
    unfold constantAt
    rw [bind_of_ok htag, ofTag?_sort, ConstantSort.kind]
    cases hwide : sort.isWide with
    | false =>
      show (Reader.skip sort.width >>= fun _ => pure (none, 1)) _ = _
      rw [← hlen, bind_of_ok hpayload, Constant.slots, hwide]
      rfl
    | true =>
      show (Reader.skip 8 >>= fun _ => pure (none, 2)) _ = _
      rw [← width_of_isWide hwide, ← hlen, bind_of_ok hpayload, Constant.slots, hwide]
      rfl

/-- Whether a table of `count` slots holds the texts that are known so far, and nothing behind them. -/
structure Tabled (count : Nat) (slots known : Array (Option Bytes)) : Prop where
  size : slots.size = count
  texts : ∀ i : Nat, (slots[i]?).join = (known[i]?).join

theorem Tabled.push_none {count : Nat} {slots known : Array (Option Bytes)}
    (h : Tabled count slots known) : Tabled count slots (known.push none) := by
  refine ⟨h.size, fun i => ?_⟩
  rw [h.texts, Array.getElem?_push]
  split
  · next hi => simp [hi]
  · rfl

theorem Tabled.set {count : Nat} {slots known : Array (Option Bytes)} (text : Bytes)
    (h : Tabled count slots known) (hlt : known.size < slots.size) :
    Tabled count (slots.set known.size (some text) hlt) (known.push (some text)) := by
  refine ⟨by rw [Array.size_set, h.size], fun i => ?_⟩
  rw [Array.getElem?_set, Array.getElem?_push]
  by_cases hi : i = known.size
  · rw [if_pos hi.symm, if_pos hi]
  · rw [if_neg (Ne.symm hi), if_neg hi, h.texts]

theorem width_lt_of_ofTag? {tag : UInt8} {width : Nat}
    (h : ConstantKind.ofTag? tag = some (.fixed width)) : width < 4294967296 := by
  unfold ConstantKind.ofTag? at h
  split at h <;> cases h <;> decide

variable {range : Bytes} {k : Nat}

/-- What a round of the loop gives beside what the reader of one constant gives. -/
def Recorded (count : Nat) (known : Array (Option Bytes)) (x : Array (Option Bytes) × Nat)
    (y : Option Bytes × Nat) : Prop :=
  Tabled count x.1 (known.push y.1) ∧ x.2 = y.2 ∧ (y.2 = 1 ∨ y.2 = 2)

theorem mirrors_readConstant {count : Nat} {slots known : Array (Option Bytes)}
    (h : Tabled count slots known) (hlt : known.size < count) :
    Mirrors range k 1 (Recorded count known) (Guarded.readConstant known.size slots)
      (constantAt known.size) := by
  unfold Guarded.readConstant constantAt
  refine mirrors_u1.seq fun tag tag' htag => ?_
  obtain rfl := htag
  cases hkind : ConstantKind.ofTag? tag with
  | none => exact mirrors_fail fun e off h => by cases h
  | some kind =>
    cases kind with
    | text =>
      refine (mirrors_u2.seq fun length length' hlength => ?_).uncounted
      obtain ⟨rfl, hlength⟩ := hlength
      have hshort : length < 4294967296 := by omega
      refine ((mirrors_take hshort).seq fun bytes bytes' hbytes => ?_).uncounted
      obtain ⟨rfl, -⟩ := hbytes
      have hsize : known.size < slots.size := by
        rw [h.size]
        exact hlt
      have hwrite : Guarded.write slots known.size bytes =
          pure (slots.set known.size (some bytes) hsize) := dif_pos hsize
      rw [hwrite]
      exact mirrors_pure ⟨h.set bytes hsize, rfl, .inl rfl⟩
    | fixed width =>
      exact ((mirrors_skip (width_lt_of_ofTag? hkind)).seq fun _ _ _ =>
        mirrors_pure ⟨h.push_none, rfl, .inl rfl⟩).uncounted
    | twoSlots =>
      exact ((mirrors_skip (by decide)).seq fun _ _ _ =>
        mirrors_pure ⟨h.push_none, rfl, .inr rfl⟩).uncounted

/-! ## All constants -/

/-- Below the count the counter is exact, and a constant that reaches the count ends the loop. -/
theorem nextSlot_of_lt {count index taken : Nat} (hcount : count ≤ 65535) (hlt : index < count)
    (htaken : taken = 1 ∨ taken = 2) :
    index < Guarded.nextSlot index taken ∧
      (index + taken ≤ count → Guarded.nextSlot index taken = index + taken) ∧
      (count ≤ index + taken → count ≤ Guarded.nextSlot index taken) := by
  unfold Guarded.nextSlot
  omega

theorem readConstants_of_le {count index : Nat} (h : count ≤ index) (slots : Array (Option Bytes))
    (visited : List Nat) :
    Guarded.readConstants count index slots visited = pure (slots, visited) := by
  unfold Guarded.readConstants
  exact if_neg (Nat.not_lt_of_le h)

/-- The loop with its counter does what `ConstantPool.readSlots` does with the number of slots left. -/
theorem mirrors_readConstants {count : Nat} (hcount : count ≤ 65535)
    {slots known : Array (Option Bytes)} (h : Tabled count slots known) (visited : List Nat) :
    Mirrors range k 0 (fun x y => Tabled count x.1 y)
      (Guarded.readConstants count known.size slots visited)
      (ConstantPool.readSlots (count - known.size) false known) := by
  by_cases hlt : known.size < count
  · unfold Guarded.readConstants
    obtain ⟨left, hleft⟩ : ∃ left, count = known.size + 1 + left := Nat.exists_eq_add_of_le hlt
    rw [if_pos hlt, show count - known.size = left + 1 by omega, readSlots_succ]
    refine ((mirrors_round (mirrors_readConstant h hlt) Nat.one_pos).seq fun x y hxy => ?_).uncounted
    obtain ⟨slots', taken⟩ := x
    obtain ⟨text, width⟩ := y
    obtain ⟨htabled, rfl, hwidth⟩ := hxy
    obtain ⟨hforward, hexact, hpast⟩ := nextSlot_of_lt hcount hlt hwidth
    dsimp only
    rw [if_pos hforward]
    rcases hwidth with rfl | rfl
    · have ih := mirrors_readConstants hcount htabled (visited ++ [known.size])
      have hnext : Guarded.nextSlot known.size 1 = known.size + 1 := hexact hlt
      rwa [Array.size_push, show count - (known.size + 1) = left by omega, ← hnext] at ih
    · cases left with
      | zero =>
        -- the second slot is at the count
        rw [readConstants_of_le (hpast (by omega))]
        exact mirrors_pure htabled
      | succ left =>
        have ih := mirrors_readConstants hcount htabled.push_none (visited ++ [known.size])
        have hnext : Guarded.nextSlot known.size 2 = known.size + 1 + 1 :=
          hexact (show known.size + 2 ≤ count by omega)
        rwa [Array.size_push, Array.size_push, show count - (known.size + 1 + 1) = left by omega,
          ← hnext] at ih
  · rw [readConstants_of_le (Nat.le_of_not_lt hlt), show count - known.size = 0 by omega]
    exact mirrors_pure h
termination_by count - known.size
decreasing_by
  all_goals
    simp only [Array.size_push]
    omega

theorem tabled_start (count : Nat) : Tabled count (Array.replicate count none) #[none] := by
  refine ⟨Array.size_replicate, fun i => ?_⟩
  rw [Array.getElem?_replicate]
  cases i <;> split <;> rfl

theorem text_eq_of_tabled {count : Nat} {slots known : Array (Option Bytes)}
    (h : Tabled count slots known) (i : Nat) :
    ConstantPool.text ⟨slots⟩ i = ConstantPool.text ⟨known⟩ i := by
  rw [text_eq, text_eq, h.texts]

/-- The pool of the loop names the same texts. -/
theorem mirrors_readPool :
    Mirrors range k 2 (fun x y => ∀ i, x.1.text i = y.text i) Guarded.readPool ConstantPool.read := by
  refine mirrors_u2.seq fun count count' hcount => ?_
  obtain ⟨rfl, hcount⟩ := hcount
  exact (mirrors_readConstants (Nat.le_of_lt_succ hcount) (tabled_start count) []).seq fun _ _ h =>
    mirrors_pure (text_eq_of_tabled h)

/-! ## Constants that fill a count -/

/-- The slots where constants begin, the first of them at `i`. -/
def startsFrom : Nat → List Constant → List Nat
  | _, [] => []
  | i, c :: cs => i :: startsFrom (i + c.slots.length) cs

/-- The slots where the constants of a pool begin. -/
def Format.Pool.starts (p : Pool) : List Nat :=
  startsFrom 1 p.constants

/-- Whether the constant `c` begins at the slot `i`: one slot for each constant in front of it and two
    for each that is wide, behind slot 0. -/
def Format.Pool.StartsAt (p : Pool) (i : Nat) (c : Constant) : Prop :=
  ∃ front back, p.constants = front ++ c :: back ∧ i = 1 + (front.flatMap Constant.slots).length

theorem length_slots_pos (c : Constant) : 0 < c.slots.length := by
  cases c with
  | text bytes _ => exact Nat.one_pos
  | other sort payload _ =>
    cases hwide : sort.isWide <;> simp [Constant.slots, hwide]

theorem mem_startsFrom_iff {i j : Nat} {cs : List Constant} : j ∈ startsFrom i cs ↔
    ∃ front c back, cs = front ++ c :: back ∧ j = i + (front.flatMap Constant.slots).length := by
  induction cs generalizing i with
  | nil => simp [startsFrom]
  | cons c cs ih =>
    rw [startsFrom, List.mem_cons, ih]
    constructor
    · rintro (rfl | ⟨front, d, back, rfl, rfl⟩)
      · exact ⟨[], c, cs, rfl, rfl⟩
      · refine ⟨c :: front, d, back, rfl, ?_⟩
        rw [List.flatMap_cons, List.length_append, Nat.add_assoc]
    · rintro ⟨front, d, back, hcs, rfl⟩
      cases front with
      | nil => exact .inl rfl
      | cons c' front =>
        obtain ⟨rfl, rfl⟩ := List.cons.inj hcs
        refine .inr ⟨front, d, back, rfl, ?_⟩
        rw [List.flatMap_cons, List.length_append, Nat.add_assoc]

/-- No slot comes up twice. -/
theorem pairwise_startsFrom (i : Nat) (cs : List Constant) :
    (startsFrom i cs).Pairwise (· < ·) := by
  induction cs generalizing i with
  | nil => exact List.Pairwise.nil
  | cons c cs ih =>
    refine List.pairwise_cons.2 ⟨fun j hj => ?_, ih _⟩
    obtain ⟨front, d, back, -, rfl⟩ := mem_startsFrom_iff.1 hj
    have := length_slots_pos c
    omega

theorem Fills.eq_nil {cs : List Constant} (h : Fills 0 cs) : cs = [] := by
  cases cs with
  | nil => rfl
  | cons c cs => exact absurd h.1 (Nat.lt_irrefl 0)

theorem Recorded.exists_known {count : Nat} {slots known : Array (Option Bytes)} {taken width : Nat}
    {text : Option Bytes} (h : Recorded count known (slots, taken) (text, width)) :
    ∃ known', Tabled count slots known' ∧ known'.size = known.size + width := by
  obtain ⟨htabled, -, rfl | rfl⟩ := h
  · exact ⟨_, htabled, Array.size_push _⟩
  · exact ⟨_, htabled.push_none, by rw [Array.size_push, Array.size_push]⟩

/-- The loop reads constants that fill the slots up to the count, and is at each of them once. -/
theorem readConstants_encode {count : Nat} (hcount : count ≤ 65535) (cs : List Constant)
    {slots known : Array (Option Bytes)} (h : Tabled count slots known)
    (hfills : Fills (count - known.size) cs) (visited : List Nat) {p : Place} (hsound : p.Sound)
    {rest : Bytes} (hrest : p.cursor.rest = cs.flatMap Constant.encode ++ rest) :
    ∃ slots', Guarded.readConstants count known.size slots visited p =
      .value (slots', visited ++ startsFrom known.size cs)
        (p.moved (cs.flatMap Constant.encode).length) := by
  induction cs generalizing slots known visited p with
  | nil =>
    have hle : count ≤ known.size := Nat.le_of_sub_eq_zero hfills
    refine ⟨slots, ?_⟩
    rw [readConstants_of_le hle, startsFrom, List.append_nil]
    rfl
  | cons c cs ih =>
    obtain ⟨hpos, hfills⟩ := hfills
    have hlt : known.size < count := Nat.lt_of_sub_pos hpos
    rw [List.flatMap_cons, List.append_assoc] at hrest
    obtain ⟨text, hconstant⟩ := constantAt_encode c known.size p.extent p.pos
      (cs.flatMap Constant.encode ++ rest)
    rw [← hrest] at hconstant
    obtain ⟨⟨slots', taken⟩, hround, hrecorded, hsound', hrest'⟩ :=
      (mirrors_round (mirrors_readConstant h hlt) Nat.one_pos).exists_value hsound hconstant
    obtain ⟨known', htabled, hsize⟩ := hrecorded.exists_known
    obtain ⟨-, rfl, hwidth⟩ := hrecorded
    obtain ⟨hforward, hexact, hpast⟩ := nextSlot_of_lt hcount hlt hwidth
    unfold Guarded.readConstants
    rw [if_pos hlt, Guarded.bind_of_value hround]
    dsimp only
    rw [if_pos hforward, startsFrom, ← hsize,
      List.append_cons visited known.size (startsFrom known'.size cs), List.flatMap_cons,
      List.length_append, ← Place.moved_moved]
    by_cases hle : known.size + c.slots.length ≤ count
    · rw [hexact hle, ← hsize]
      refine ih htabled ?_ (visited ++ [known.size]) hsound' hrest'
      rwa [hsize, Nat.sub_add_eq]
    · -- the last constant reaches the slot at the count, and the counter may have stopped before it
      obtain rfl : cs = [] := by
        refine Fills.eq_nil ?_
        rwa [← Nat.sub_add_eq, Nat.sub_eq_zero_of_le (by omega)] at hfills
      refine ⟨slots', ?_⟩
      rw [readConstants_of_le (hpast (by omega)), startsFrom, List.append_nil]
      rfl

/-- Under guard, constants that fill the count are read from the slots where they begin. -/
theorem readPool_encode (p : Pool) {q : Place} (hsound : q.Sound) {rest : Bytes}
    (hrest : q.cursor.rest = p.encode ++ rest) :
    ∃ pool, Guarded.readPool q = .value (pool, p.starts) (q.moved p.encode.length) := by
  rw [Pool.encode, List.append_assoc] at hrest
  have hword := (reads_u2 q.extent q.pos _ _ _).2
    ⟨word p.count.toNat, p.constants.flatMap Constant.encode ++ rest, ⟨p.count.toNat_lt, rfl⟩, hrest, rfl⟩
  obtain ⟨count, hcount, ⟨rfl, -⟩, hsound', hrest'⟩ := mirrors_u2.exists_value hsound hword
  obtain ⟨slots, hloop⟩ := readConstants_encode (Nat.le_of_lt_succ p.count.toNat_lt) p.constants
    (tabled_start p.count.toNat) p.fills [] hsound' hrest'
  refine ⟨⟨slots⟩, ?_⟩
  unfold Guarded.readPool
  rw [Guarded.bind_of_value hcount]
  refine (Guarded.bind_of_value hloop).trans ?_
  show Outcome.value (_, p.starts) ((q.moved 2).moved _) = _
  rw [Place.moved_moved, Pool.encode, List.length_append, length_word]

/-! ## Indices -/

/-- A slot names a text exactly if a constant with that text begins there. -/
theorem join_slots_eq_some {cs : List Constant} {j : Nat} {text : Bytes} :
    ((cs.flatMap Constant.slots)[j]?).join = some text ↔ ∃ front hlt back,
      cs = front ++ Constant.text text hlt :: back ∧ j = (front.flatMap Constant.slots).length := by
  constructor
  · intro h
    induction cs generalizing j with
    | nil => simp at h
    | cons c cs ih =>
      rw [List.flatMap_cons] at h
      by_cases hj : j < c.slots.length
      · rw [List.getElem?_append_left hj] at h
        cases c with
        | text bytes hlt =>
          obtain rfl : j = 0 := Nat.lt_one_iff.1 hj
          obtain rfl : bytes = text := Option.some.inj h
          exact ⟨[], hlt, cs, rfl, rfl⟩
        | other sort payload _ =>
          have hnone : some text ∉ (Constant.other sort payload ‹_›).slots := by
            cases hwide : sort.isWide <;> simp [Constant.slots, hwide]
          exact absurd (List.mem_of_getElem? (Option.join_eq_some_iff.1 h)) hnone
      · rw [List.getElem?_append_right (Nat.le_of_not_lt hj)] at h
        obtain ⟨front, hlt, back, rfl, hfront⟩ := ih h
        refine ⟨c :: front, hlt, back, rfl, ?_⟩
        rw [List.flatMap_cons, List.length_append, ← hfront]
        omega
  · intro h
    obtain ⟨front, hlt, back, rfl, rfl⟩ := h
    rw [List.flatMap_append, List.getElem?_append_right (Nat.le_refl _), Nat.sub_self]
    rfl

theorem join_table_eq_some {p : Pool} {i : Nat} {text : Bytes} :
    (p.table.slots[i]?).join = some text ↔ ∃ hlt, p.StartsAt i (.text text hlt) := by
  rw [join_table]
  cases i with
  | zero =>
    constructor
    · intro h
      cases h
    · intro h
      obtain ⟨_, front, back, -, hi⟩ := h
      omega
  | succ j =>
    rw [List.getElem?_cons_succ, join_slots_eq_some]
    constructor
    · intro h
      obtain ⟨front, hlt, back, hsplit, rfl⟩ := h
      exact ⟨hlt, front, back, hsplit, Nat.add_comm _ _⟩
    · intro h
      obtain ⟨hlt, front, back, hsplit, hj⟩ := h
      exact ⟨front, hlt, back, hsplit, by omega⟩

/-- An index names the text that begins in its slot. -/
theorem text_of_startsAt {p : Pool} {i : Nat} {text : Bytes} {hlt : text.length < 65536}
    (h : p.StartsAt i (.text text hlt)) : p.table.text i = .ok text := by
  rw [text_eq, join_table_eq_some.2 ⟨hlt, h⟩]

/-- Every other index is refused. -/
theorem text_of_not_startsAt {p : Pool} {i : Nat}
    (h : ∀ text hlt, ¬ p.StartsAt i (.text text hlt)) :
    p.table.text i = .error (.badConstantIndex i) := by
  rw [text_eq]
  cases hjoin : (p.table.slots[i]?).join with
  | none => rfl
  | some text =>
    obtain ⟨hlt, hstarts⟩ := join_table_eq_some.1 hjoin
    exact absurd hstarts (h text hlt)

theorem mem_starts_iff {p : Pool} {i : Nat} : i ∈ p.starts ↔ ∃ c, p.StartsAt i c := by
  rw [Pool.starts, mem_startsFrom_iff]
  constructor
  · intro h
    obtain ⟨front, c, back, h⟩ := h
    exact ⟨c, front, back, h⟩
  · intro h
    obtain ⟨c, front, back, h⟩ := h
    exact ⟨front, c, back, h⟩

theorem lt_count_of_startsAt {p : Pool} {i : Nat} {c : Constant} (h : p.StartsAt i c) :
    i < p.count.toNat := by
  obtain ⟨front, back, hsplit, rfl⟩ := h
  refine p.begins_lt front c ⟨back, ?_⟩
  rw [hsplit, List.append_assoc]
  rfl

/-- Constants that begin below a count and reach it are read exactly. Afterwards an index names a text
    if a text begins in its slot, and is refused if none does: slot 0, the slots of other constants,
    the second slot of a wide one, and all from the count on. Under guard, the counter of the slots is
    at each slot where a constant begins, one after the other, and there is no trap. -/
theorem readPool_exact (p : Pool) :
    (∀ e o rest, ConstantPool.read ⟨e, o, p.encode ++ rest⟩ =
      .ok (p.table, ⟨e, o + p.encode.length, rest⟩)) ∧
    (∀ i text hlt, p.StartsAt i (.text text hlt) → p.table.text i = .ok text) ∧
    (∀ i, (∀ text hlt, ¬ p.StartsAt i (.text text hlt)) →
      p.table.text i = .error (.badConstantIndex i)) ∧
    (∀ i, i ∈ p.starts ↔ ∃ c, p.StartsAt i c) ∧
    p.starts.Pairwise (· < ·) ∧ (∀ i ∈ p.starts, i < p.count.toNat) ∧
    ∀ (q : Place) (rest : Bytes), q.Sound → q.cursor.rest = p.encode ++ rest →
      ∃ pool, Guarded.readPool q = .value (pool, p.starts) (q.moved p.encode.length) ∧
        ∀ i, pool.text i = p.table.text i := by
  have hread (e : Extent) (o : Nat) (rest : Bytes) : ConstantPool.read ⟨e, o, p.encode ++ rest⟩ =
      .ok (p.table, ⟨e, o + p.encode.length, rest⟩) :=
    (reads_pool e o _ _ _).2 ⟨p.encode, rest, ⟨p, rfl, rfl⟩, rfl, rfl⟩
  have hlt (i : Nat) (hi : i ∈ p.starts) : i < p.count.toNat := by
    obtain ⟨c, hc⟩ := mem_starts_iff.1 hi
    exact lt_count_of_startsAt hc
  refine ⟨hread, fun i text hlt => text_of_startsAt, fun i => text_of_not_startsAt,
    fun i => mem_starts_iff, pairwise_startsFrom 1 p.constants, hlt, fun q rest hsound hrest => ?_⟩
  obtain ⟨pool, hpool⟩ := readPool_encode p hsound hrest
  -- the same run, beside the reader of the pool
  have hreader := hread q.extent q.pos rest
  rw [← hrest] at hreader
  obtain ⟨x, hx, htexts, -, -⟩ := mirrors_readPool.exists_value hsound hreader
  rw [hpool] at hx
  obtain ⟨rfl, -⟩ := Outcome.value.inj hx
  exact ⟨pool, hpool, htexts⟩

/-- A pool that ends with a wide constant, of which the second slot is at the count. -/
def wideEnds : Pool :=
  .ofFills 5 [.other .long [0, 0, 0, 0, 0, 0, 0, 7] rfl, .text [0x62] (by decide),
    .other .double [0, 0, 0, 0, 0, 0, 0, 0] rfl] (by simp [Fills, Constant.slots, ConstantSort.isWide])

/-- Its text is in slot 3, and the loop is at the slots 1, 3 and 4. -/
theorem readPool_exact_wideEnds :
    ConstantPool.read ⟨.file, 8, wideEnds.encode ++ [0xFF]⟩ =
      .ok (wideEnds.table, ⟨.file, 32, [0xFF]⟩) ∧
    wideEnds.table.text 3 = .ok [0x62] ∧
    (∀ i ∈ [0, 1, 2, 4, 5, 6], wideEnds.table.text i = .error (.badConstantIndex i)) ∧
    ∃ pool, Guarded.readPool ⟨.file, 0xCA :: (wideEnds.encode ++ [0xFF]), 1⟩ =
      .value (pool, [1, 3, 4]) ⟨.file, 0xCA :: (wideEnds.encode ++ [0xFF]), 25⟩ := by
  obtain ⟨hread, htext, hother, -, -, -, hguarded⟩ := readPool_exact wideEnds
  have hsound : (Place.mk .file (0xCA :: (wideEnds.encode ++ [0xFF])) 1).Sound :=
    ⟨by decide, by decide⟩
  obtain ⟨pool, hpool, -⟩ := hguarded _ [0xFF] hsound rfl
  have hnone : ∀ i ∈ [0, 1, 2, 4, 5, 6], (wideEnds.table.slots[i]?).join = none := by decide
  refine ⟨hread .file 8 [0xFF], htext 3 [0x62] (by decide) ⟨[_], [_], rfl, rfl⟩, fun i hi => ?_,
    pool, hpool⟩
  refine hother i fun text hlt h => ?_
  have hsome := join_table_eq_some.2 ⟨hlt, h⟩
  rw [hnone i hi] at hsome
  cases hsome

end SourceRecovery.ClassFile
