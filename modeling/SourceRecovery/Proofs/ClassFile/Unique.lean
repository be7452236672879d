import SourceRecovery.Proofs.ClassFile.Marks
import SourceRecovery.Proofs.ClassFile.Pool

/-!
# Unique decoding

No two values of the format begin the same bytes.

* `SelfDelimiting`: an encoding tells where it ends.
* `selfDelimiting_counted`, `selfDelimiting_value`, `selfDelimiting_member`, `selfDelimiting_pool`:
  lists, element values, fields and constants tell where they end.
* `selfDelimiting_head`: so does what stands in front of the methods of a file.
-/

namespace SourceRecovery.ClassFile

open Format

variable {α : Type}

/-- Whether the encodings of the values in `S` tell their values and where they end. -/
def SelfDelimiting (S : α → Prop) (enc : α → Bytes) : Prop :=
  ∀ x y r s, S x → S y → enc x ++ r = enc y ++ s → x = y ∧ r = s

/-! ## Numbers -/

theorem word_inj {m n : Nat} (hm : m < 65536) (hn : n < 65536) (h : word m = word n) : m = n := by
  have hval := (word_eq_iff hm).1 rfl
  rw [← hval]
  exact (word_eq_iff hn).1 h

theorem doubleWord_inj {m n : Nat} (hm : m < 4294967296) (hn : n < 4294967296)
    (h : doubleWord m = doubleWord n) : m = n := by
  have hval := (doubleWord_eq_iff hm).1 rfl
  rw [← hval]
  exact (doubleWord_eq_iff hn).1 h

theorem word_append_inj {m n : Nat} {r s : Bytes} (hm : m < 65536) (hn : n < 65536)
    (h : word m ++ r = word n ++ s) : m = n ∧ r = s := by
  obtain ⟨hword, hrest⟩ := List.append_inj h rfl
  exact ⟨word_inj hm hn hword, hrest⟩

theorem doubleWord_append_inj {m n : Nat} {r s : Bytes} (hm : m < 4294967296)
    (hn : n < 4294967296) (h : doubleWord m ++ r = doubleWord n ++ s) : m = n ∧ r = s := by
  obtain ⟨hword, hrest⟩ := List.append_inj h rfl
  exact ⟨doubleWord_inj hm hn hword, hrest⟩

theorem index_append_inj {i j : UInt16} {r s : Bytes}
    (h : word i.toNat ++ r = word j.toNat ++ s) : i = j ∧ r = s := by
  obtain ⟨hword, hrest⟩ := word_append_inj i.toNat_lt j.toNat_lt h
  exact ⟨UInt16.toNat_inj.1 hword, hrest⟩

theorem selfDelimiting_index (S : UInt16 → Prop) : SelfDelimiting S fun i => word i.toNat := by
  intro i j r s _ _ h
  exact index_append_inj h

/-! ## Lists -/

theorem flatMap_append_inj {S : α → Prop} {enc : α → Bytes} (henc : SelfDelimiting S enc)
    {xs ys : List α} {r s : Bytes} (hlen : xs.length = ys.length) (hxs : ∀ x ∈ xs, S x)
    (hys : ∀ y ∈ ys, S y) (h : xs.flatMap enc ++ r = ys.flatMap enc ++ s) : xs = ys ∧ r = s := by
  induction xs generalizing ys with
  | nil =>
    obtain rfl := List.length_eq_zero_iff.1 hlen.symm
    exact ⟨rfl, h⟩
  | cons x xs ih =>
    obtain ⟨y, ys, rfl⟩ := List.exists_cons_of_length_eq_add_one hlen.symm
    rw [List.flatMap_cons, List.flatMap_cons, List.append_assoc, List.append_assoc] at h
    obtain ⟨hx, hxs'⟩ := List.forall_mem_cons.1 hxs
    obtain ⟨hy, hys'⟩ := List.forall_mem_cons.1 hys
    obtain ⟨rfl, hrest⟩ := henc x y _ _ hx hy h
    obtain ⟨rfl, rfl⟩ := ih (Nat.succ.inj hlen) hxs' hys' hrest
    exact ⟨rfl, rfl⟩

/-- Of two lists that begin the same bytes, the shorter one begins the longer one. -/
theorem prefix_of_flatMap_append {S : α → Prop} {enc : α → Bytes} (henc : SelfDelimiting S enc)
    {xs ys : List α} {r s : Bytes} (hlen : xs.length ≤ ys.length) (hxs : ∀ x ∈ xs, S x)
    (hys : ∀ y ∈ ys, S y) (h : xs.flatMap enc ++ r = ys.flatMap enc ++ s) : xs <+: ys := by
  have hsplit : ys.flatMap enc =
      (ys.take xs.length).flatMap enc ++ (ys.drop xs.length).flatMap enc := by
    rw [← List.flatMap_append, List.take_append_drop]
  rw [hsplit, List.append_assoc] at h
  have htake : xs.length = (ys.take xs.length).length := (List.length_take_of_le hlen).symm
  obtain ⟨heq, -⟩ := flatMap_append_inj henc htake hxs
    (fun y hy => hys y (List.mem_of_mem_take hy)) h
  rw [heq]
  exact List.take_prefix _ _

theorem selfDelimiting_counted {S : α → Prop} {enc : α → Bytes} (henc : SelfDelimiting S enc) :
    SelfDelimiting (fun l : Counted α => ∀ x ∈ l.items, S x) (Counted.encode enc) := by
  intro l l' r s hl hl' h
  obtain ⟨xs, hxs⟩ := l
  obtain ⟨ys, hys⟩ := l'
  rw [Counted.encode, Counted.encode, List.append_assoc, List.append_assoc] at h
  obtain ⟨hlen, hitems⟩ := word_append_inj hxs hys h
  obtain ⟨rfl, rfl⟩ := flatMap_append_inj henc hlen hl hl' hitems
  exact ⟨rfl, rfl⟩

/-! ## Element values -/

theorem selfDelimiting_pair {S : Value → Prop} (henc : SelfDelimiting S Value.encode) :
    SelfDelimiting (fun p : UInt16 × Value => S p.2) encodePair := by
  intro p q r s hp hq h
  obtain ⟨i, v⟩ := p
  obtain ⟨j, w⟩ := q
  simp only [encodePair, List.append_assoc] at h
  obtain ⟨rfl, hvalue⟩ := index_append_inj h
  obtain ⟨rfl, rfl⟩ := henc v w _ _ hp hq hvalue
  exact ⟨rfl, rfl⟩

theorem literal_tag_inj {a b : Literal} (h : a.tag = b.tag) : a = b := by
  cases a <;> cases b <;> first | rfl | exact absurd h (by decide)

theorem literal_tag_ne (a : Literal) : a.tag ≠ 0x65 ∧ a.tag ≠ 0x40 ∧ a.tag ≠ 0x5B := by
  cases a <;> decide

/-- An element value is told from every other by its bytes. The tag tells the constructor, and the
    induction on the depth does the rest. -/
theorem selfDelimiting_value (depth : Nat) :
    SelfDelimiting (Value.FitsWithin depth) Value.encode := by
  induction depth with
  | zero =>
    intro v w r s hv
    exact hv.elim
  | succ depth ih =>
    intro v w r s hv hw h
    cases v with
    | literal sort i =>
      cases w with
      | literal sort' j =>
        obtain ⟨htag, hindex⟩ := List.cons.inj h
        obtain rfl := literal_tag_inj htag
        obtain ⟨rfl, rfl⟩ := index_append_inj hindex
        exact ⟨rfl, rfl⟩
      | enumConstant _ _ => exact absurd (List.cons.inj h).1 (literal_tag_ne sort).1
      | nested _ _ => exact absurd (List.cons.inj h).1 (literal_tag_ne sort).2.1
      | array _ => exact absurd (List.cons.inj h).1 (literal_tag_ne sort).2.2
    | enumConstant t n =>
      cases w with
      | literal sort _ => exact absurd (List.cons.inj h).1.symm (literal_tag_ne sort).1
      | enumConstant t' n' =>
        have hwords := (List.cons.inj h).2
        rw [List.append_eq, List.append_eq, List.append_assoc, List.append_assoc] at hwords
        obtain ⟨rfl, hname⟩ := index_append_inj hwords
        obtain ⟨rfl, rfl⟩ := index_append_inj hname
        exact ⟨rfl, rfl⟩
      | nested _ _ => exact absurd (List.cons.inj h).1 (by decide)
      | array _ => exact absurd (List.cons.inj h).1 (by decide)
    | nested t pairs =>
      cases w with
      | literal sort _ => exact absurd (List.cons.inj h).1.symm (literal_tag_ne sort).2.1
      | enumConstant _ _ => exact absurd (List.cons.inj h).1 (by decide)
      | nested t' pairs' =>
        have hpairs := (List.cons.inj h).2
        rw [encodePairs_eq, encodePairs_eq, List.append_eq, List.append_eq, List.append_assoc,
          List.append_assoc] at hpairs
        obtain ⟨rfl, hcounted⟩ := index_append_inj hpairs
        obtain ⟨heq, rfl⟩ := selfDelimiting_counted (selfDelimiting_pair ih) ⟨pairs, hv.1⟩
          ⟨pairs', hw.1⟩ r s hv.2 hw.2 hcounted
        obtain rfl := congrArg Counted.items heq
        exact ⟨rfl, rfl⟩
      | array _ => exact absurd (List.cons.inj h).1 (by decide)
    | array values =>
      cases w with
      | literal sort _ => exact absurd (List.cons.inj h).1.symm (literal_tag_ne sort).2.2
      | enumConstant _ _ => exact absurd (List.cons.inj h).1 (by decide)
      | nested _ _ => exact absurd (List.cons.inj h).1 (by decide)
      | array values' =>
        have hvalues := (List.cons.inj h).2
        rw [encodeValues_eq, encodeValues_eq] at hvalues
        obtain ⟨heq, rfl⟩ := selfDelimiting_counted ih ⟨values, hv.1⟩ ⟨values', hw.1⟩ r s hv.2 hw.2
          hvalues
        obtain rfl := congrArg Counted.items heq
        exact ⟨rfl, rfl⟩

/-- Annotations are told apart by their bytes. -/
theorem selfDelimiting_mark : SelfDelimiting (fun _ => True) Mark.encode := by
  intro a b r s _ _ h
  -- a depth that both annotations fit within
  let depth := max a.encode.length b.encode.length
  have ha : a.FitsWithin depth := mark_fitsWithin (Nat.le_max_left _ _)
  have hb : b.FitsWithin depth := mark_fitsWithin (Nat.le_max_right _ _)
  obtain ⟨t, l, _⟩ := a
  obtain ⟨t', l', _⟩ := b
  simp only [Mark.encode, List.append_assoc] at h
  obtain ⟨rfl, hpairs⟩ := index_append_inj h
  obtain ⟨rfl, rfl⟩ := selfDelimiting_counted (selfDelimiting_pair (selfDelimiting_value depth)) l l'
    r s ha hb hpairs
  exact ⟨rfl, rfl⟩

/-! ## Attributes and members -/

theorem selfDelimiting_attribute (S : Attribute → Prop) : SelfDelimiting S Attribute.encode := by
  intro a b r s _ _ h
  obtain ⟨i, body, hlt⟩ := a
  obtain ⟨j, body', hlt'⟩ := b
  simp only [Attribute.encode, List.append_assoc] at h
  obtain ⟨rfl, hframe⟩ := index_append_inj h
  obtain ⟨hlen, hbody⟩ := doubleWord_append_inj hlt hlt' hframe
  obtain ⟨rfl, rfl⟩ := List.append_inj hbody hlen
  exact ⟨rfl, rfl⟩

theorem selfDelimiting_member : SelfDelimiting (fun _ => True) (Member.encode Attribute.encode) := by
  intro m m' r s _ _ h
  obtain ⟨flags, name, type, as⟩ := m
  obtain ⟨flags', name', type', as'⟩ := m'
  simp only [Member.encode, List.append_assoc] at h
  obtain ⟨rfl, hname⟩ := index_append_inj h
  obtain ⟨rfl, htype⟩ := index_append_inj hname
  obtain ⟨rfl, has⟩ := index_append_inj htype
  obtain ⟨rfl, rfl⟩ := selfDelimiting_counted (selfDelimiting_attribute fun _ => True) as as' r s
    (fun _ _ => trivial) (fun _ _ => trivial) has
  exact ⟨rfl, rfl⟩

/-! ## Constants -/

theorem constantSort_tag_inj {a b : ConstantSort} (h : a.tag = b.tag) : a = b := by
  cases a <;> cases b <;> first | rfl | exact absurd h (by decide)

theorem constantSort_tag_ne (a : ConstantSort) : a.tag ≠ 1 := by
  cases a <;> decide

theorem selfDelimiting_constant : SelfDelimiting (fun _ => True) Constant.encode := by
  intro c d r s _ _ h
  cases c with
  | text bytes hlt =>
    cases d with
    | text bytes' hlt' =>
      simp only [Constant.encode, List.cons_append, List.append_assoc] at h
      obtain ⟨hlen, hbytes⟩ := word_append_inj hlt hlt' (List.cons.inj h).2
      obtain ⟨rfl, rfl⟩ := List.append_inj hbytes hlen
      exact ⟨rfl, rfl⟩
    | other sort payload hlen => exact absurd (List.cons.inj h).1.symm (constantSort_tag_ne sort)
  | other sort payload hlen =>
    cases d with
    | text bytes hlt => exact absurd (List.cons.inj h).1 (constantSort_tag_ne sort)
    | other sort' payload' hlen' =>
      obtain ⟨htag, hpayload⟩ := List.cons.inj h
      obtain rfl := constantSort_tag_inj htag
      obtain ⟨rfl, rfl⟩ := List.append_inj hpayload (hlen.trans hlen'.symm)
      exact ⟨rfl, rfl⟩

/-- Constants that fill the same slots tell where they end. -/
theorem fills_append_inj {n : Nat} {cs ds : List Constant} {r s : Bytes} (hcs : Fills n cs)
    (hds : Fills n ds) (h : cs.flatMap Constant.encode ++ r = ds.flatMap Constant.encode ++ s) :
    cs = ds ∧ r = s := by
  induction cs generalizing n ds with
  | nil =>
    obtain rfl : n = 0 := hcs
    cases ds with
    | nil => exact ⟨rfl, h⟩
    | cons d ds => exact absurd hds.1 (Nat.lt_irrefl 0)
  | cons c cs ih =>
    cases ds with
    | nil =>
      obtain rfl : n = 0 := hds
      exact absurd hcs.1 (Nat.lt_irrefl 0)
    | cons d ds =>
      rw [List.flatMap_cons, List.flatMap_cons, List.append_assoc, List.append_assoc] at h
      obtain ⟨rfl, hrest⟩ := selfDelimiting_constant c d _ _ trivial trivial h
      obtain ⟨rfl, rfl⟩ := ih hcs.2 hds.2 hrest
      exact ⟨rfl, rfl⟩

theorem selfDelimiting_pool : SelfDelimiting (fun _ => True) Pool.encode := by
  intro p q r s _ _ h
  have hp := p.fills
  have hq := q.fills
  obtain ⟨count, cs, _, _⟩ := p
  obtain ⟨count', ds, _, _⟩ := q
  rw [Pool.encode, Pool.encode, List.append_assoc, List.append_assoc] at h
  obtain ⟨rfl, hconstants⟩ := index_append_inj h
  obtain ⟨rfl, rfl⟩ := fills_append_inj hp hq hconstants
  exact ⟨rfl, rfl⟩

/-! ## The head -/

/-- Bytes begin with at most one head. -/
theorem selfDelimiting_head : SelfDelimiting (fun _ => True) Head.encode := by
  intro a b r s _ _ h
  obtain ⟨minor, major, pool, flags, this, super, interfaces, fields, count⟩ := a
  obtain ⟨minor', major', pool', flags', this', super', interfaces', fields', count'⟩ := b
  simp only [Head.encode, List.append_assoc] at h
  obtain ⟨rfl, hmajor⟩ := index_append_inj (List.append_cancel_left h)
  obtain ⟨rfl, hpool⟩ := index_append_inj hmajor
  obtain ⟨rfl, hflags⟩ := selfDelimiting_pool pool pool' _ _ trivial trivial hpool
  obtain ⟨rfl, hthis⟩ := index_append_inj hflags
  obtain ⟨rfl, hsuper⟩ := index_append_inj hthis
  obtain ⟨rfl, hinterfaces⟩ := index_append_inj hsuper
  obtain ⟨rfl, hfields⟩ := selfDelimiting_counted (selfDelimiting_index fun _ => True) interfaces
    interfaces' _ _ (fun _ _ => trivial) (fun _ _ => trivial) hinterfaces
  obtain ⟨rfl, hcount⟩ := selfDelimiting_counted selfDelimiting_member fields fields' _ _
    (fun _ _ => trivial) (fun _ _ => trivial) hfields
  obtain ⟨rfl, rfl⟩ := index_append_inj hcount
  exact ⟨rfl, rfl⟩

end SourceRecovery.ClassFile
