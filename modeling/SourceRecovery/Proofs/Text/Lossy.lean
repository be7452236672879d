import SourceRecovery.Proofs.Text.Bytes

/-!
# Text that is read with U+FFFD

Where bytes are well-formed UTF-8, reading them with U+FFFD for what is not gives the text that they
spell.

* `firstSequence_encodeChar`: the bytes of a character are one sequence, and spell it.
* `decodeLossy_encode`: the bytes of a text are read as that text.
* `IsText`: bytes that are those of a text. These can be told from what they are read as.
* `toList_decodeLossy_cut`: a byte of ASCII cuts what is in front of it from what is behind.
* `mem_of_mem_decodeLossy`: and is read only where it stands.
-/

namespace SourceRecovery.Text

/-! ## Sequences -/

/-- The range of the second byte of three, by the share of the first one: neither an overlong sequence
    nor one of a surrogate is well-formed. -/
def secondOfThree (k : Nat) : ByteRange :=
  if k = 0x0 then ⟨0xA0, 0xBF⟩ else if k = 0xD then ⟨0x80, 0x9F⟩ else .trailing

/-- The range of the second byte of four, by the share of the first one: neither an overlong sequence
    nor one beyond the last code point is well-formed. -/
def secondOfFour (k : Nat) : ByteRange :=
  if k = 0 then ⟨0x90, 0xBF⟩ else if k = 4 then ⟨0x80, 0x8F⟩ else .trailing

theorem announced_two : ∀ k < 32, 2 ≤ k →
    announced (UInt8.ofNat (k + 0xC0)) = some (k, [.trailing]) := by
  decide

theorem announced_three : ∀ k < 16,
    announced (UInt8.ofNat (k + 0xE0)) = some (k, [secondOfThree k, .trailing]) := by
  decide

theorem announced_four : ∀ k < 5,
    announced (UInt8.ofNat (k + 0xF0)) = some (k, [secondOfFour k, .trailing, .trailing]) := by
  decide

/-- The share of a byte that goes on with a sequence. -/
theorem completed_cons {r : ByteRange} {n : Nat} (code used : Nat) (rs : List ByteRange) (bs : Bytes)
    (hlow : r.low.toNat ≤ n % 64 + 128) (hhigh : n % 64 + 128 ≤ r.high.toNat) :
    completed code used (r :: rs) (UInt8.ofNat (n % 64 + 128) :: bs) =
      completed (code * 64 + n % 64) (used + 1) rs bs := by
  have hnat : (UInt8.ofNat (n % 64 + 128)).toNat = n % 64 + 128 := by
    rw [UInt8.toNat_ofNat', Nat.mod_eq_of_lt (by omega)]
  have hin : r.contains (UInt8.ofNat (n % 64 + 128)) = true := by
    rw [ByteRange.contains, Bool.and_eq_true, decide_eq_true_iff, decide_eq_true_iff,
      UInt8.le_iff_toNat_le, UInt8.le_iff_toNat_le, hnat]
    exact ⟨hlow, hhigh⟩
  rw [completed, if_pos hin, hnat, Nat.add_sub_cancel]

theorem completed_trailing (code used n : Nat) (rs : List ByteRange) (bs : Bytes) :
    completed code used (.trailing :: rs) (UInt8.ofNat (n % 64 + 128) :: bs) =
      completed (code * 64 + n % 64) (used + 1) rs bs := by
  refine completed_cons code used rs bs ?_ ?_
  · exact Nat.le_add_left 128 _
  · show n % 64 + 128 ≤ 191
    omega

theorem secondOfThree_bounds {n : Nat} (hlow : 0x7FF < n) (hhigh : n ≤ 0xFFFF)
    (hvalid : n < 0xD800 ∨ 0xDFFF < n) :
    (secondOfThree (n / 4096 % 0x10)).low.toNat ≤ n / 64 % 64 + 128 ∧
      n / 64 % 64 + 128 ≤ (secondOfThree (n / 4096 % 0x10)).high.toNat := by
  unfold secondOfThree
  split
  · exact ⟨by show 160 ≤ _; omega, by show _ ≤ 191; omega⟩
  · split
    · exact ⟨by show 128 ≤ _; omega, by show _ ≤ 159; omega⟩
    · exact ⟨by show 128 ≤ _; omega, by show _ ≤ 191; omega⟩

theorem secondOfFour_bounds {n : Nat} (hlow : 0xFFFF < n) (hhigh : n < 0x110000) :
    (secondOfFour (n / 262144 % 0x08)).low.toNat ≤ n / 4096 % 64 + 128 ∧
      n / 4096 % 64 + 128 ≤ (secondOfFour (n / 262144 % 0x08)).high.toNat := by
  unfold secondOfFour
  split
  · exact ⟨by show 144 ≤ _; omega, by show _ ≤ 191; omega⟩
  · split
    · exact ⟨by show 128 ≤ _; omega, by show _ ≤ 143; omega⟩
    · exact ⟨by show 128 ≤ _; omega, by show _ ≤ 191; omega⟩

theorem valid_char (c : Char) : c.toNat < 0xD800 ∨ 0xDFFF < c.toNat ∧ c.toNat < 0x110000 :=
  c.valid

/-- The bytes of a character are one sequence, and spell it. -/
theorem firstSequence_encodeChar (c : Char) (rest : Bytes) : ∃ b bs,
    String.utf8EncodeChar c = b :: bs ∧ firstSequence b (bs ++ rest) = (some c, bs.length) := by
  have hvalid := valid_char c
  unfold String.utf8EncodeChar
  dsimp only
  rw [show c.val.toNat = c.toNat from rfl]
  generalize hn : c.toNat = n at hvalid
  have hchar {m : Nat} (hm : m = n) : Char.ofNat m = c := by
    rw [hm, ← hn, Char.ofNat_toNat]
  by_cases hone : n ≤ 0x7f
  · -- one byte, which is the code point
    refine ⟨_, [], if_pos hone, ?_⟩
    have hlt : UInt8.ofNat n < 0x80 := by
      rw [UInt8.lt_iff_toNat_lt, UInt8.toNat_ofNat', Nat.mod_eq_of_lt (by omega)]
      exact Nat.lt_succ_of_le hone
    rw [firstSequence, announced, if_pos hlt]
    simp only [completed, UInt8.toNat_ofNat', Nat.mod_eq_of_lt (show n < 2 ^ 8 by omega),
      hchar rfl, List.length_nil]
  · rw [if_neg hone]
    by_cases htwo : n ≤ 0x7ff
    · refine ⟨_, _, if_pos htwo, ?_⟩
      rw [firstSequence, announced_two (n / 64 % 0x20) (by omega) (by omega)]
      simp only [List.cons_append, List.nil_append, completed_trailing, completed]
      rw [hchar (by omega)]
      rfl
    · rw [if_neg htwo]
      by_cases hthree : n ≤ 0xffff
      · refine ⟨_, _, if_pos hthree, ?_⟩
        have hsecond := secondOfThree_bounds (n := n) (by omega) hthree (by omega)
        rw [firstSequence, announced_three (n / 4096 % 0x10) (by omega)]
        simp only [List.cons_append, List.nil_append]
        rw [completed_cons _ _ _ _ hsecond.1 hsecond.2, completed_trailing, completed,
          hchar (by omega)]
        rfl
      · refine ⟨_, _, if_neg hthree, ?_⟩
        have hsecond := secondOfFour_bounds (n := n) (by omega) (by omega)
        rw [firstSequence, announced_four (n / 262144 % 0x08) (by omega)]
        simp only [List.cons_append, List.nil_append]
        rw [completed_cons _ _ _ _ hsecond.1 hsecond.2, completed_trailing, completed_trailing,
          completed, hchar (by omega)]
        rfl

/-! ## Whole texts -/

/-- What is left of a sequence is passed over. -/
theorem decodeLossyFrom_append (read : List Char) (bs rest : Bytes) :
    decodeLossyFrom read bs.length (bs ++ rest) = decodeLossyFrom read 0 rest := by
  induction bs with
  | nil => rfl
  | cons b bs ih => exact ih

theorem decodeLossyFrom_spell (read cs : List Char) :
    decodeLossyFrom read 0 (spell cs) = read.reverse ++ cs := by
  induction cs generalizing read with
  | nil => simp [spell, decodeLossyFrom]
  | cons c cs ih =>
    obtain ⟨b, bs, hbytes, hfirst⟩ := firstSequence_encodeChar c (spell cs)
    rw [spell_cons, hbytes, List.cons_append, decodeLossyFrom, hfirst]
    show decodeLossyFrom (c :: read) bs.length (bs ++ spell cs) = _
    rw [decodeLossyFrom_append, ih]
    simp

/-- The bytes of a text are read as that text. -/
@[simp]
theorem decodeLossy_encode (s : String) : decodeLossy (encode s) = s := by
  rw [decodeLossy, encode_eq_spell, decodeLossyFrom_spell]
  simp

/-! ## Bytes of a text -/

/-- Whether bytes are those of a text. -/
def IsText (bytes : Bytes) : Prop :=
  ∃ s, encode s = bytes

theorem isText_encode (s : String) : IsText (encode s) :=
  ⟨s, rfl⟩

theorem isText_iff {bytes : Bytes} : IsText bytes ↔ encode (decodeLossy bytes) = bytes := by
  constructor
  · rintro ⟨s, rfl⟩
    rw [decodeLossy_encode]
  · exact fun h => ⟨_, h⟩

theorem map_encode_decodeLossy {names : List Bytes} (h : ∀ w ∈ names, IsText w) :
    (names.map decodeLossy).map encode = names := by
  rw [List.map_map]
  exact (List.map_congr_left fun w hw => isText_iff.1 (h w hw)).trans (List.map_id names)

/-! ## Bytes of ASCII -/

/-- The least code point that a sequence can spell, by its share so far and the ranges of the bytes that
    have to follow. -/
def leastSpelled (code : Nat) (ranges : List ByteRange) : Nat :=
  ranges.foldl (fun code r => code * 64 + (r.low.toNat - 0x80)) code

theorem leastSpelled_cons (code : Nat) (r : ByteRange) (rs : List ByteRange) :
    leastSpelled code (r :: rs) = leastSpelled (code * 64 + (r.low.toNat - 0x80)) rs := by
  simp only [leastSpelled, List.foldl_cons]

theorem leastSpelled_mono {code code' : Nat} (h : code ≤ code') (ranges : List ByteRange) :
    leastSpelled code ranges ≤ leastSpelled code' ranges := by
  induction ranges generalizing code code' with
  | nil => exact h
  | cons r rs ih =>
    rw [leastSpelled_cons, leastSpelled_cons]
    exact ih (Nat.add_le_add_right (Nat.mul_le_mul_right 64 h) _)

/-- Whether a first byte is of ASCII and spells itself, or announces bytes that are not, and a character
    that is not. -/
def announcesWell (b : UInt8) : Bool :=
  match announced b with
  | none => true
  | some (code, []) => b < 0x80 && code == b.toNat
  | some (code, r :: rs) =>
    (r :: rs).all (fun r => 0x80 ≤ r.low) && 128 ≤ leastSpelled code (r :: rs)

theorem announcesWell_eq_true (b : UInt8) : announcesWell b = true := by
  have hall : ∀ n < 256, announcesWell (UInt8.ofNat n) = true := by decide +kernel
  have hb := hall b.toNat b.toNat_lt
  rwa [UInt8.ofNat_toNat] at hb

theorem low_of_announced {b : UInt8} {code : Nat} {ranges : List ByteRange}
    (h : announced b = some (code, ranges)) : ∀ r ∈ ranges, 0x80 ≤ r.low := by
  have hwell := announcesWell_eq_true b
  rw [announcesWell, h] at hwell
  cases ranges with
  | nil => simp
  | cons r rs =>
    rw [Bool.and_eq_true, List.all_eq_true] at hwell
    exact fun r hr => of_decide_eq_true (hwell.1 r hr)

/-- A byte of ASCII goes on with no sequence. -/
theorem completed_append {x : UInt8} (hx : x < 0x80) {ranges : List ByteRange}
    (hlow : ∀ r ∈ ranges, 0x80 ≤ r.low) (code used : Nat) (bs v : Bytes) :
    completed code used ranges (bs ++ x :: v) = completed code used ranges bs := by
  induction bs generalizing ranges code used with
  | nil =>
    cases ranges with
    | nil => rfl
    | cons r rs =>
      have hr : r.contains x = false := by
        rw [ByteRange.contains, Bool.and_eq_false_iff, decide_eq_false_iff_not]
        exact .inl (UInt8.not_le.2 (UInt8.lt_of_lt_of_le hx (hlow r List.mem_cons_self)))
      simp only [List.nil_append, completed, hr, Bool.false_eq_true, if_false]
  | cons b bs ih =>
    cases ranges with
    | nil => rfl
    | cons r rs =>
      obtain ⟨-, hrest⟩ := List.forall_mem_cons.1 hlow
      rw [List.cons_append, completed, completed, ih hrest]

theorem firstSequence_append {x : UInt8} (hx : x < 0x80) (b : UInt8) (bs v : Bytes) :
    firstSequence b (bs ++ x :: v) = firstSequence b bs := by
  unfold firstSequence
  cases h : announced b with
  | none => rfl
  | some a => exact completed_append hx (low_of_announced h) _ _ bs v

theorem completed_used_le (code used : Nat) (ranges : List ByteRange) (bs : Bytes) :
    (completed code used ranges bs).2 ≤ used + bs.length := by
  induction bs generalizing ranges code used with
  | nil => cases ranges <;> exact Nat.le_add_right _ _
  | cons b bs ih =>
    cases ranges with
    | nil => exact Nat.le_add_right _ _
    | cons r rs =>
      rw [completed, List.length_cons]
      split
      · have := ih (code * 64 + (b.toNat - 0x80)) (used + 1) rs
        omega
      · exact Nat.le_add_right _ _

theorem firstSequence_used_le (b : UInt8) (bs : Bytes) : (firstSequence b bs).2 ≤ bs.length := by
  unfold firstSequence
  split
  · exact Nat.zero_le _
  · have := completed_used_le ‹_› 0 ‹_› bs
    omega

theorem firstSequence_ascii {c : Char} (hc : c.toNat < 128) (bs : Bytes) :
    firstSequence (UInt8.ofNat c.toNat) bs = (some c, 0) := by
  obtain ⟨b, used, hbytes, hfirst⟩ := firstSequence_encodeChar c bs
  rcases utf8EncodeChar_cases c with ⟨-, hone⟩ | ⟨hle, -⟩
  · rw [hone] at hbytes
    obtain ⟨rfl, rfl⟩ := List.cons.inj hbytes
    exact hfirst
  · omega

/-- What is read in front is read first. -/
theorem decodeLossyFrom_eq (read : List Char) (k : Nat) (bs : Bytes) :
    decodeLossyFrom read k bs = read.reverse ++ decodeLossyFrom [] k bs := by
  induction bs generalizing read k with
  | nil => cases k <;> simp [decodeLossyFrom]
  | cons b bs ih =>
    cases k with
    | succ k => exact ih read k
    | zero =>
      rw [decodeLossyFrom, decodeLossyFrom]
      split
      · rw [ih, ih [_]]
        simp
      · rw [ih, ih [_]]
        simp

theorem decodeLossyFrom_cut {c : Char} (hc : c.toNat < 128) (read : List Char) {k : Nat} {bs : Bytes}
    (hk : k ≤ bs.length) (v : Bytes) :
    decodeLossyFrom read k (bs ++ UInt8.ofNat c.toNat :: v) =
      decodeLossyFrom read k bs ++ c :: decodeLossyFrom [] 0 v := by
  have hx : UInt8.ofNat c.toNat < 0x80 := by
    rw [UInt8.lt_iff_toNat_lt, UInt8.toNat_ofNat', Nat.mod_eq_of_lt (by omega)]
    exact hc
  induction bs generalizing read k with
  | nil =>
    obtain rfl : k = 0 := Nat.le_zero.1 hk
    simp only [List.nil_append, decodeLossyFrom, firstSequence_ascii hc]
    rw [decodeLossyFrom_eq]
    simp
  | cons b bs ih =>
    cases k with
    | succ k => exact ih read (Nat.le_of_succ_le_succ hk)
    | zero =>
      have hused := firstSequence_used_le b bs
      rw [List.cons_append, decodeLossyFrom, decodeLossyFrom, firstSequence_append hx]
      generalize firstSequence b bs = first at hused
      obtain ⟨_ | d, used⟩ := first
      · exact ih _ hused
      · exact ih _ hused

/-- Bytes are read as something. -/
theorem decodeLossy_eq_empty {bs : Bytes} : decodeLossy bs = "" ↔ bs = [] := by
  constructor
  · intro h
    cases bs with
    | nil => rfl
    | cons b bs =>
      have hlist : decodeLossyFrom [] 0 (b :: bs) = [] := by simpa [decodeLossy] using h
      rw [decodeLossyFrom] at hlist
      split at hlist
      · rw [decodeLossyFrom_eq] at hlist
        simp at hlist
      · rw [decodeLossyFrom_eq] at hlist
        simp at hlist
  · rintro rfl
    rfl

/-- A byte of ASCII cuts what is in front of it from what is behind. -/
theorem toList_decodeLossy_cut {c : Char} (hc : c.toNat < 128) (w v : Bytes) :
    (decodeLossy (w ++ UInt8.ofNat c.toNat :: v)).toList =
      (decodeLossy w).toList ++ c :: (decodeLossy v).toList := by
  simp only [decodeLossy, String.toList_ofList]
  exact decodeLossyFrom_cut hc [] (Nat.zero_le _) v

/-- The character of a sequence is no less than the least that it can spell. -/
theorem exists_of_completed {code used n : Nat} {ranges : List ByteRange} {bs : Bytes} {c : Char}
    (h : completed code used ranges bs = (some c, n)) :
    ∃ m, c = Char.ofNat m ∧ leastSpelled code ranges ≤ m := by
  induction ranges generalizing code used bs with
  | nil =>
    obtain ⟨hchar, -⟩ := Prod.mk.inj h
    exact ⟨code, (Option.some.inj hchar).symm, Nat.le_refl code⟩
  | cons r rs ih =>
    cases bs with
    | nil => cases h
    | cons b bs =>
      rw [completed] at h
      split at h
      · rename_i hin
        obtain ⟨m, hm, hle⟩ := ih h
        rw [ByteRange.contains, Bool.and_eq_true, decide_eq_true_iff] at hin
        have hlow : r.low.toNat ≤ b.toNat := UInt8.le_iff_toNat_le.1 hin.1
        have hmore : code * 64 + (r.low.toNat - 0x80) ≤ code * 64 + (b.toNat - 0x80) := by omega
        rw [leastSpelled_cons]
        exact ⟨m, hm, Nat.le_trans (leastSpelled_mono hmore rs) hle⟩
      · cases h

theorem toNat_ofNat_cases (m : Nat) : (Char.ofNat m).toNat = m ∨ (Char.ofNat m).toNat = 0 := by
  by_cases hm : m.isValidChar
  · have hvalid : Char.ofNat m = Char.ofNatAux m hm := dif_pos hm
    rw [hvalid]
    exact .inl rfl
  · have hnone : Char.ofNat m = Char.ofNat 0 := dif_neg hm
    rw [hnone]
    exact .inr rfl

/-- A character of ASCII, other than NUL, is read only from its own byte. -/
theorem eq_of_firstSequence {b : UInt8} {bs : Bytes} {c : Char} {used : Nat}
    (h : firstSequence b bs = (some c, used)) (hpos : 0 < c.toNat) (hc : c.toNat < 128) :
    b = UInt8.ofNat c.toNat := by
  have hwell := announcesWell_eq_true b
  have hlarge {m : Nat} (hm : c = Char.ofNat m) : m < 128 ∧ c.toNat = m := by
    rcases toNat_ofNat_cases m with hnat | hnat <;> rw [← hm] at hnat <;> omega
  unfold firstSequence at h
  unfold announcesWell at hwell
  split at h
  · cases h
  · rename_i code ranges ha
    rw [ha] at hwell
    cases ranges with
    | nil =>
      obtain ⟨hlast, -⟩ := Prod.mk.inj h
      simp only [Bool.and_eq_true, beq_iff_eq] at hwell
      rw [(hlarge (Option.some.inj hlast).symm).2, hwell.2, UInt8.ofNat_toNat]
    | cons r rs =>
      -- more than one byte spells no character of ASCII
      simp only [Bool.and_eq_true, decide_eq_true_iff] at hwell
      obtain ⟨m, hm, hle⟩ := exists_of_completed h
      have := (hlarge hm).1
      omega

/-- A character of ASCII, other than NUL, is read only where its byte stands. -/
theorem mem_of_mem_decodeLossy {c : Char} {w : Bytes} (hpos : 0 < c.toNat) (hc : c.toNat < 128)
    (h : c ∈ (decodeLossy w).toList) : UInt8.ofNat c.toNat ∈ w := by
  have hreplaced : c ≠ '\uFFFD' := by
    rintro rfl
    exact absurd hc (by decide)
  have hread : ∀ read k, c ∈ decodeLossyFrom read k w → c ∈ read ∨ UInt8.ofNat c.toNat ∈ w := by
    clear h
    induction w with
    | nil =>
      intro read k hmem
      cases k <;> exact .inl (List.mem_reverse.1 hmem)
    | cons b bs ih =>
      intro read k hmem
      cases k with
      | succ k => exact (ih read k hmem).imp_right (List.mem_cons_of_mem b)
      | zero =>
        rw [decodeLossyFrom] at hmem
        split at hmem
        · rename_i d used hfirst
          rcases ih _ _ hmem with hin | hin
          · rcases List.mem_cons.1 hin with rfl | hin
            · rw [eq_of_firstSequence hfirst hpos hc]
              exact .inr List.mem_cons_self
            · exact .inl hin
          · exact .inr (List.mem_cons_of_mem b hin)
        · rcases ih _ _ hmem with hin | hin
          · exact .inl ((List.mem_cons.1 hin).resolve_left hreplaced)
          · exact .inr (List.mem_cons_of_mem b hin)
  rw [decodeLossy, String.toList_ofList] at h
  exact (hread [] 0 h).resolve_left List.not_mem_nil

end SourceRecovery.Text
