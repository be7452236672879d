import SourceRecovery.ClassFile.Marks
import SourceRecovery.Proofs.ClassFile.Reads

/-!
# Reading annotations

* `reads_skipValue`: an element value is skipped exactly, to every depth that the reader is given.
* `fitsWithin_length`: the length of a body is depth enough for the values in it.
* `reads_findMark`: the search for a marker reads a list of annotations up to the marker.
* `bodyCarries_eq_true_iff`: a body carries a marker if annotations up to the marker stand in front.
-/

namespace SourceRecovery.ClassFile

open Format

/-! ## Tags of element values -/

theorem eq_ofNat_of_char_eq {tag : UInt8} {c : Char} (h : Char.ofNat tag.toNat = c) :
    tag = UInt8.ofNat c.toNat := by
  have hv : tag.toNat.isValidChar := .inl (by have := tag.toNat_lt; omega)
  have hc : (Char.ofNat tag.toNat).toNat = tag.toNat := by
    rw [Char.ofNat, dif_pos hv]
    rfl
  rw [← h, hc, UInt8.ofNat_toNat]

theorem ofTag?_literal (sort : Literal) : ElementKind.ofTag? sort.tag = some .constant := by
  cases sort <;> rfl

/-- The kind of a tag tells the tag, but for the sort of a constant. -/
theorem ofTag?_eq_some {tag : UInt8} {kind : ElementKind} (h : ElementKind.ofTag? tag = some kind) :
    match kind with
    | .constant => ∃ sort : Literal, tag = sort.tag
    | .enumConstant => tag = 0x65
    | .nested => tag = 0x40
    | .array => tag = 0x5B := by
  unfold ElementKind.ofTag? at h
  split at h <;> rename_i hc <;> cases h
  · exact ⟨.byte, eq_ofNat_of_char_eq hc⟩
  · exact ⟨.char, eq_ofNat_of_char_eq hc⟩
  · exact ⟨.double, eq_ofNat_of_char_eq hc⟩
  · exact ⟨.float, eq_ofNat_of_char_eq hc⟩
  · exact ⟨.int, eq_ofNat_of_char_eq hc⟩
  · exact ⟨.long, eq_ofNat_of_char_eq hc⟩
  · exact ⟨.short, eq_ofNat_of_char_eq hc⟩
  · exact ⟨.boolean, eq_ofNat_of_char_eq hc⟩
  · exact ⟨.string, eq_ofNat_of_char_eq hc⟩
  · exact ⟨.classInfo, eq_ofNat_of_char_eq hc⟩
  · exact eq_ofNat_of_char_eq hc
  · exact eq_ofNat_of_char_eq hc
  · exact eq_ofNat_of_char_eq hc

/-! ## Element values -/

theorem reads_pair {r : Reader Unit} {S : Value → Prop}
    (h : Reads r fun w _ => ∃ v, S v ∧ w = v.encode) :
    Reads (do Reader.skip 2; r) fun w _ => ∃ p : UInt16 × Value, S p.2 ∧ w = encodePair p := by
  refine (reads_skip_word.bind fun _ => h).congr fun w _ => ?_
  constructor
  · rintro ⟨-, u, v, ⟨n, rfl⟩, ⟨value, hv, rfl⟩, rfl⟩
    exact ⟨(n, value), hv, rfl⟩
  · rintro ⟨p, hp, rfl⟩
    exact ⟨(), _, _, ⟨p.1, rfl⟩, ⟨p.2, hp, rfl⟩, rfl⟩

/-- The bytes that follow a tag of some kind in an element value nested at most one deeper than
    `depth`. -/
def Follows (depth : Nat) : Option ElementKind → Bytes → Prop
  | some .constant, w => ∃ i : UInt16, w = word i.toNat
  | some .enumConstant, w => ∃ t n : UInt16, w = word t.toNat ++ word n.toNat
  | some .nested, w => ∃ (t : UInt16) (l : Counted (UInt16 × Value)),
      (∀ p ∈ l.items, p.2.FitsWithin depth) ∧ w = word t.toNat ++ l.encode encodePair
  | some .array, w => ∃ l : Counted Value,
      (∀ v ∈ l.items, v.FitsWithin depth) ∧ w = l.encode Value.encode
  | none, _ => False

/-- An element value is a tag and what follows it. -/
theorem fitsWithin_succ_iff (depth : Nat) (w : Bytes) :
    (∃ v : Value, v.FitsWithin (depth + 1) ∧ w = v.encode) ↔
      ∃ tag u, Follows depth (ElementKind.ofTag? tag) u ∧ w = tag :: u := by
  constructor
  · rintro ⟨v, hv, rfl⟩
    cases v with
    | literal sort i =>
      refine ⟨sort.tag, _, ?_, rfl⟩
      rw [ofTag?_literal]
      exact ⟨i, rfl⟩
    | enumConstant t n => exact ⟨0x65, _, ⟨t, n, rfl⟩, rfl⟩
    | nested t pairs =>
      refine ⟨0x40, _, ⟨t, ⟨pairs, hv.1⟩, hv.2, ?_⟩, rfl⟩
      rw [encodePairs_eq]
      rfl
    | array values =>
      refine ⟨0x5B, _, ⟨⟨values, hv.1⟩, hv.2, ?_⟩, rfl⟩
      rw [encodeValues_eq]
      rfl
  · rintro ⟨tag, u, hu, rfl⟩
    cases hkind : ElementKind.ofTag? tag with
    | none => rw [hkind] at hu; exact hu.elim
    | some kind =>
      have htag := ofTag?_eq_some hkind
      rw [hkind] at hu
      cases kind with
      | constant =>
        obtain ⟨sort, rfl⟩ := htag
        obtain ⟨i, rfl⟩ := hu
        exact ⟨.literal sort i, trivial, rfl⟩
      | enumConstant =>
        obtain rfl : tag = 0x65 := htag
        obtain ⟨t, n, rfl⟩ := hu
        exact ⟨.enumConstant t n, trivial, rfl⟩
      | nested =>
        obtain rfl : tag = 0x40 := htag
        obtain ⟨t, l, hl, rfl⟩ := hu
        refine ⟨.nested t l.items, ⟨l.length_lt, hl⟩, ?_⟩
        rw [Value.encode, encodePairs_eq]
        rfl
      | array =>
        obtain rfl : tag = 0x5B := htag
        obtain ⟨l, hl, rfl⟩ := hu
        refine ⟨.array l.items, ⟨l.length_lt, hl⟩, ?_⟩
        rw [Value.encode, encodeValues_eq]
        rfl

/-- Element values are passed over exactly. -/
theorem reads_skipValue (depth : Nat) :
    Reads (skipValue depth) fun w _ => ∃ v : Value, v.FitsWithin depth ∧ w = v.encode := by
  induction depth with
  | zero => exact reads_ended.congr fun w _ => by simp [Value.FitsWithin]
  | succ depth ih =>
    rw [skipValue]
    refine (reads_u1.bind (H := fun tag w _ => Follows depth (ElementKind.ofTag? tag) w)
      fun tag => ?_).congr fun w _ => ?_
    · cases ElementKind.ofTag? tag with
      | none => exact reads_throw _
      | some kind =>
        cases kind with
        | constant => exact reads_skip_word
        | enumConstant => exact reads_skip_two_words
        | nested =>
          refine (reads_skip_word.bind fun _ => reads_counted (reads_pair ih)).congr fun w _ => ?_
          constructor
          · rintro ⟨-, u, v, ⟨t, rfl⟩, ⟨l, hl, rfl⟩, rfl⟩
            exact ⟨t, l, hl, rfl⟩
          · rintro ⟨t, l, hl, rfl⟩
            exact ⟨(), _, _, ⟨t, rfl⟩, ⟨l, hl, rfl⟩, rfl⟩
        | array => exact reads_counted ih
    · rw [fitsWithin_succ_iff]
      constructor
      · rintro ⟨tag, u, v, rfl, hv, rfl⟩
        exact ⟨tag, v, hv, rfl⟩
      · rintro ⟨tag, v, hv, rfl⟩
        exact ⟨tag, [tag], v, rfl, hv, rfl⟩

/-! ## Depth -/

theorem fitsWithin_mono {depth depth' : Nat} (h : depth ≤ depth') {v : Value}
    (hv : v.FitsWithin depth) : v.FitsWithin depth' := by
  induction depth generalizing depth' v with
  | zero => exact hv.elim
  | succ depth ih =>
    obtain ⟨d, rfl⟩ : ∃ d, depth' = d + 1 := ⟨depth' - 1, by omega⟩
    have hd : depth ≤ d := by omega
    cases v with
    | literal sort i => trivial
    | enumConstant t n => trivial
    | nested t pairs => exact ⟨hv.1, fun p hp => ih hd (hv.2 p hp)⟩
    | array values => exact ⟨hv.1, fun v hv' => ih hd (hv.2 v hv')⟩

theorem length_le_length_flatMap {α : Type} (each : α → Bytes) {l : List α} {a : α} (h : a ∈ l) :
    (each a).length ≤ (l.flatMap each).length := by
  obtain ⟨front, back, rfl⟩ := List.append_of_mem h
  simp only [List.flatMap_append, List.flatMap_cons, List.length_append]
  omega

/-- An element value takes more bytes than it is deep. -/
theorem fitsWithin_length {v : Value} (h : v.Fits) : v.FitsWithin v.encode.length := by
  obtain ⟨depth, hv⟩ := h
  induction depth generalizing v with
  | zero => exact hv.elim
  | succ depth ih =>
    cases v with
    | literal sort i => trivial
    | enumConstant t n => trivial
    | nested t pairs =>
      rw [Value.encode, List.length_cons]
      refine ⟨hv.1, fun p hp => fitsWithin_mono ?_ (ih (hv.2 p hp))⟩
      have hle := length_le_length_flatMap encodePair hp
      rw [encodePairs_eq]
      simp only [encodePair, List.length_append] at hle ⊢
      omega
    | array values =>
      rw [Value.encode, List.length_cons]
      refine ⟨hv.1, fun v hv' => fitsWithin_mono ?_ (ih (hv.2 v hv'))⟩
      have hle := length_le_length_flatMap Value.encode hv'
      rw [encodeValues_eq]
      simp only [List.length_append]
      omega

/-- Whether the element values of an annotation are nested at most `depth` deep. -/
def Format.Mark.FitsWithin (depth : Nat) (a : Mark) : Prop :=
  ∀ p ∈ a.pairs.items, p.2.FitsWithin depth

theorem mark_fitsWithin {a : Mark} {depth : Nat} (h : a.encode.length ≤ depth) :
    a.FitsWithin depth := by
  intro p hp
  refine fitsWithin_mono ?_ (fitsWithin_length (a.fits p hp))
  have hle := length_le_length_flatMap encodePair hp
  simp only [Mark.encode, Counted.encode, encodePair, List.length_append] at h hle
  omega

theorem reads_skipPairs (depth : Nat) :
    Reads (skipPairs depth) fun w _ => ∃ l : Counted (UInt16 × Value),
      (∀ p ∈ l.items, p.2.FitsWithin depth) ∧ w = l.encode encodePair :=
  reads_counted (reads_pair (reads_skipValue depth))

/-! ## Annotations -/

/-- Whether an index names a text other than `marker`. -/
def ConstantPool.NamesOther (pool : ConstantPool) (marker : Bytes) (i : UInt16) : Prop :=
  ∃ text, pool.text i.toNat = .ok text ∧ text ≠ marker

/-- The bytes of `n` annotations none of which has the type `marker`, or of the first annotations up
    to the type of one that has it. -/
def Searched (pool : ConstantPool) (marker : Bytes) (depth n : Nat) (w : Bytes) : Bool → Prop
  | false => ∃ as : List Mark, as.length = n ∧
      (∀ a ∈ as, a.FitsWithin depth ∧ pool.NamesOther marker a.type) ∧
      w = as.flatMap Mark.encode
  | true => ∃ (as : List Mark) (type : UInt16), as.length < n ∧
      (∀ a ∈ as, a.FitsWithin depth ∧ pool.NamesOther marker a.type) ∧
      pool.text type.toNat = .ok marker ∧
      w = as.flatMap Mark.encode ++ word type.toNat

theorem searched_zero_iff {pool : ConstantPool} {marker w : Bytes} {depth : Nat} {x : Bool} :
    Searched pool marker depth 0 w x ↔ w = [] ∧ x = false := by
  constructor
  · intro h
    cases x with
    | true =>
      obtain ⟨as, type, hlt, -⟩ := h
      exact absurd hlt (Nat.not_lt_zero _)
    | false =>
      obtain ⟨as, hlen, -, rfl⟩ := h
      obtain rfl := List.length_eq_zero_iff.1 hlen
      exact ⟨rfl, rfl⟩
  · rintro ⟨rfl, rfl⟩
    exact ⟨[], rfl, by simp, rfl⟩

/-- The first annotation has the type `marker`, or the search goes on behind it. -/
theorem searched_succ_iff {pool : ConstantPool} {marker w : Bytes} {depth n : Nat} {x : Bool} :
    Searched pool marker depth (n + 1) w x ↔
      (∃ type : UInt16, pool.text type.toNat = .ok marker ∧ w = word type.toNat ∧ x = true) ∨
      ∃ (a : Mark) (v : Bytes), (a.FitsWithin depth ∧ pool.NamesOther marker a.type) ∧
        Searched pool marker depth n v x ∧ w = a.encode ++ v := by
  constructor
  · intro h
    cases x with
    | false =>
      obtain ⟨as, hlen, has, rfl⟩ := h
      obtain ⟨a, as, rfl⟩ := List.exists_cons_of_length_eq_add_one hlen
      obtain ⟨ha, has⟩ := List.forall_mem_cons.1 has
      exact .inr ⟨a, _, ha, ⟨as, by simpa using hlen, has, rfl⟩, rfl⟩
    | true =>
      obtain ⟨as, type, hlt, has, htype, rfl⟩ := h
      cases as with
      | nil => exact .inl ⟨type, htype, rfl, rfl⟩
      | cons a as =>
        obtain ⟨ha, has⟩ := List.forall_mem_cons.1 has
        exact .inr ⟨a, _, ha, ⟨as, type, by simpa using hlt, has, htype, rfl⟩, by simp⟩
  · rintro (⟨type, htype, rfl, rfl⟩ | ⟨a, v, ha, h, rfl⟩)
    · exact ⟨[], type, Nat.succ_pos n, by simp, htype, rfl⟩
    · cases x with
      | false =>
        obtain ⟨as, rfl, has, rfl⟩ := h
        exact ⟨a :: as, rfl, List.forall_mem_cons.2 ⟨ha, has⟩, rfl⟩
      | true =>
        obtain ⟨as, type, hlt, has, htype, rfl⟩ := h
        exact ⟨a :: as, type, by simpa using hlt, List.forall_mem_cons.2 ⟨ha, has⟩, htype, by simp⟩

theorem Reads.ite {α : Type} {r s : Reader α} {G H : Bytes → α → Prop} {b : Bool} (hr : Reads r G)
    (hs : Reads s H) : Reads (if b then r else s) fun w x => if b then G w x else H w x := by
  cases b
  · exact hs
  · exact hr

theorem reads_findMark (pool : ConstantPool) (marker : Bytes) (depth n : Nat) :
    Reads (findMark pool marker depth n) (Searched pool marker depth n) := by
  induction n with
  | zero => exact (reads_pure false).congr fun w x => searched_zero_iff.symm
  | succ n ih =>
    refine (reads_index.bind fun i => (reads_lift (pool.text i)).bind fun type =>
      (reads_pure true).ite ((reads_skipPairs depth).bind fun _ => ih)).congr fun w x => ?_
    rw [searched_succ_iff]
    constructor
    · rintro ⟨-, _, _, ⟨i, rfl, rfl⟩, ⟨text, _, v, ⟨rfl, htext⟩, h, rfl⟩, rfl⟩
      by_cases hmark : text = marker
      · subst hmark
        rw [if_pos (beq_self_eq_true text)] at h
        obtain ⟨rfl, rfl⟩ := h
        exact .inl ⟨i, htext, rfl, rfl⟩
      · rw [if_neg (by simpa using hmark)] at h
        obtain ⟨-, _, v, ⟨l, hl, rfl⟩, h, rfl⟩ := h
        let a : Mark := ⟨i, l, fun p hp => ⟨depth, hl p hp⟩⟩
        exact .inr ⟨a, v, ⟨hl, text, htext, hmark⟩, h, by simp [a, Mark.encode]⟩
    · rintro (⟨type, htype, rfl, rfl⟩ | ⟨a, v, ⟨ha, text, htext, hmark⟩, h, rfl⟩)
      · refine ⟨_, _, [], ⟨type, rfl, rfl⟩, ⟨marker, [], [], ⟨rfl, htype⟩, ?_, rfl⟩, by simp⟩
        rw [if_pos (beq_self_eq_true marker)]
        exact ⟨rfl, rfl⟩
      · refine ⟨_, _, _, ⟨a.type, rfl, rfl⟩, ⟨text, [], _, ⟨rfl, htext⟩, ?_, rfl⟩,
          by simp [Mark.encode]; rfl⟩
        rw [if_neg (by simpa using hmark)]
        exact ⟨(), _, v, ⟨a.pairs, ha, rfl⟩, h, rfl⟩

/-! ## Bodies of attributes -/

theorem bodyCarries_eq_ok_iff {pool : ConstantPool} {marker body : Bytes} {x : Bool} :
    bodyCarries pool marker body = .ok x ↔ ∃ n w slack, n < 65536 ∧
      Searched pool marker body.length n w x ∧ body = word n ++ (w ++ slack) := by
  have hreads := reads_u2.bind fun n => reads_findMark pool marker body.length n
  refine run'_eq_ok.trans ?_
  constructor
  · rintro ⟨c, hc⟩
    obtain ⟨-, slack, ⟨n, _, w, ⟨hn, rfl⟩, hw, rfl⟩, hbody, -⟩ := (hreads _ _ _ _ _).1 hc
    exact ⟨n, w, slack, hn, hw, by rw [← List.append_assoc]; exact hbody⟩
  · rintro ⟨n, w, slack, hn, hw, hbody⟩
    refine ⟨⟨.attribute, 0 + (word n ++ w).length, slack⟩, (hreads _ _ _ _ _).2 ?_⟩
    exact ⟨_, slack, ⟨n, _, w, ⟨hn, rfl⟩, hw, rfl⟩, by rw [List.append_assoc]; exact hbody, rfl⟩

/-- An attribute does not carry the marker if a complete list of annotations of other types stands in
    front of its body. -/
theorem bodyCarries_eq_false_iff {pool : ConstantPool} {marker body : Bytes} :
    bodyCarries pool marker body = .ok false ↔ ∃ (as : Counted Mark) (slack : Bytes),
      body = as.encode Mark.encode ++ slack ∧
      ∀ a ∈ as.items, pool.NamesOther marker a.type := by
  rw [bodyCarries_eq_ok_iff]
  constructor
  · rintro ⟨n, w, slack, hn, ⟨as, rfl, has, rfl⟩, hbody⟩
    refine ⟨⟨as, hn⟩, slack, ?_, fun a ha => (has a ha).2⟩
    rw [hbody, Counted.encode, List.append_assoc]
  · rintro ⟨as, slack, rfl, has⟩
    refine ⟨as.items.length, _, slack, as.length_lt, ⟨as.items, rfl, fun a ha => ?_, rfl⟩, ?_⟩
    · refine ⟨mark_fitsWithin ?_, has a ha⟩
      have hle := length_le_length_flatMap Mark.encode ha
      simp only [Counted.encode, List.length_append]
      omega
    · rw [Counted.encode, List.append_assoc]

/-- An attribute carries the marker if its body begins with annotations of other types, fewer than it
    announces, and then names the marker as a type. -/
theorem bodyCarries_eq_true_iff {pool : ConstantPool} {marker body : Bytes} :
    bodyCarries pool marker body = .ok true ↔
      ∃ (n : Nat) (as : List Mark) (type : UInt16) (slack : Bytes), n < 65536 ∧
      as.length < n ∧ (∀ a ∈ as, pool.NamesOther marker a.type) ∧
      pool.text type.toNat = .ok marker ∧
      body = word n ++ (as.flatMap Mark.encode ++ (word type.toNat ++ slack)) := by
  rw [bodyCarries_eq_ok_iff]
  constructor
  · rintro ⟨n, w, slack, hn, ⟨as, type, hlt, has, htype, rfl⟩, hbody⟩
    refine ⟨n, as, type, slack, hn, hlt, fun a ha => (has a ha).2, htype, ?_⟩
    rw [hbody, List.append_assoc]
  · rintro ⟨n, as, type, slack, hn, hlt, has, htype, rfl⟩
    refine ⟨n, _, slack, hn, ⟨as, type, hlt, fun a ha => ?_, htype, rfl⟩, ?_⟩
    · refine ⟨mark_fitsWithin ?_, has a ha⟩
      have hle := length_le_length_flatMap Mark.encode ha
      simp only [List.length_append]
      omega
    · rw [List.append_assoc]

end SourceRecovery.ClassFile
