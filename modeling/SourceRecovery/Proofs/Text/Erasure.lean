import SourceRecovery.Proofs.Text.Bytes
import SourceRecovery.Proofs.Text.Occurrence

/-!
# Erasing a word by its bytes

A word is found in a copy of a text in lower case, by the bytes of both, and cut out of the text at the
same offsets.

* `eraseBytes`: the loop over the bytes. A slice that does not begin and end between two characters has
  no result, and neither has a loop that goes on for too long.
* `findBytes_spell`: a word of ASCII is only found where a character begins.
* `spell_lowerAscii`: the copy in lower case has its characters at the same offsets.
* `Erased`: the leftmost occurrence goes, then those of what follows it, and all else stays.
* `eraseBytes_exact`: for every text the loop has a result, which is that of `eraseIgnoringCase`.
-/

namespace SourceRecovery.Text

/-! ## The loop over the bytes -/

/-- A byte with the letters A to Z in lower case. -/
def lowerByte (b : UInt8) : UInt8 :=
  if 0x41 ≤ b && b ≤ 0x5A then b + 0x20 else b

/-- Whether an offset is in front of a character, or at the end. -/
def isBoundary (bytes : Bytes) (offset : Nat) : Bool :=
  match bytes[offset]? with
  | some b => offset == 0 || !isContinuation b
  | none => offset == bytes.length

/-- The bytes from one offset to another, if both are between two characters. -/
def slice? (bytes : Bytes) (first last : Nat) : Option Bytes :=
  if first ≤ last && isBoundary bytes first && isBoundary bytes last then
    some ((bytes.take last).drop first)
  else none

/-- The first offset at which the bytes go on with a word. -/
def findBytes (word : Bytes) : Bytes → Option Nat
  | [] => if word.isEmpty then some 0 else none
  | b :: bs => if word.isPrefixOf (b :: bs) then some 0 else (findBytes word bs).map (· + 1)

/-- Cuts a word out of some bytes from an offset on, where it is found in their copy in lower case. The
    loop goes at most as many `rounds`. -/
def eraseBytes (word bytes lower : Bytes) : Nat → Nat → Bytes → Option Bytes
  | 0, _, _ => none
  | rounds + 1, offset, out => do
    let rest ← slice? lower offset lower.length
    match findBytes word rest with
    | some found => do
      let kept ← slice? bytes offset (offset + found)
      eraseBytes word bytes lower rounds (offset + found + word.length) (out ++ kept)
    | none => do
      let kept ← slice? bytes offset bytes.length
      pure (out ++ kept)

/-! ## Lower case -/

theorem toLower_cases (c : Char) :
    (65 ≤ c.toNat ∧ c.toNat ≤ 90) ∧ c.toLower.toNat = c.toNat + 32 ∨
      ¬ (65 ≤ c.toNat ∧ c.toNat ≤ 90) ∧ c.toLower = c := by
  have hletter : c.val ≥ 'A'.val ∧ c.val ≤ 'Z'.val ↔ 65 ≤ c.toNat ∧ c.toNat ≤ 90 := by
    rw [ge_iff_le, UInt32.le_iff_toNat_le, UInt32.le_iff_toNat_le]
    rfl
  unfold Char.toLower
  split
  · next h =>
    have hrange := hletter.1 h
    refine .inl ⟨hrange, ?_⟩
    show (c.val + 32).toNat = c.val.toNat + 32
    rw [UInt32.toNat_add]
    have : c.val.toNat ≤ 90 := hrange.2
    have : (32 : UInt32).toNat = 32 := rfl
    omega
  · next h => exact .inr ⟨fun hrange => h (hletter.2 hrange), rfl⟩

theorem lowerByte_ofNat {n : Nat} (h : n < 256) :
    lowerByte (UInt8.ofNat n) = UInt8.ofNat (if 65 ≤ n ∧ n ≤ 90 then n + 32 else n) := by
  have hletter : (0x41 ≤ UInt8.ofNat n && UInt8.ofNat n ≤ 0x5A) = true ↔ 65 ≤ n ∧ n ≤ 90 := by
    rw [Bool.and_eq_true, decide_eq_true_iff, decide_eq_true_iff, UInt8.le_iff_toNat_le,
      UInt8.le_iff_toNat_le, UInt8.toNat_ofNat', Nat.mod_eq_of_lt h]
    rfl
  rw [lowerByte]
  split
  · next hb =>
    rw [if_pos (hletter.1 hb), UInt8.ofNat_add]
    rfl
  · next hb => rw [if_neg (fun hrange => hb (hletter.2 hrange))]

theorem lowerByte_of_isContinuation {b : UInt8} (h : isContinuation b = true) : lowerByte b = b := by
  obtain ⟨n, hlt, rfl⟩ : ∃ n, n < 256 ∧ b = UInt8.ofNat n :=
    ⟨b.toNat, b.toNat_lt, UInt8.ofNat_toNat.symm⟩
  rw [isContinuation_ofNat hlt] at h
  rw [lowerByte_ofNat hlt, if_neg (by omega)]

theorem utf8EncodeChar_toLower (c : Char) :
    String.utf8EncodeChar c.toLower = (String.utf8EncodeChar c).map lowerByte := by
  rcases utf8EncodeChar_cases c with ⟨hlt, hc⟩ | ⟨hle, n, bs, hc, hn, hlt, hbs⟩
  · rw [hc, List.map_singleton, lowerByte_ofNat (by omega)]
    rcases toLower_cases c with ⟨hletter, hlower⟩ | ⟨hletter, hlower⟩
    · rcases utf8EncodeChar_cases c.toLower with ⟨-, hc'⟩ | ⟨hle', -⟩
      · rw [hc', hlower, if_pos hletter]
      · omega
    · rw [hlower, hc, if_neg hletter]
  · rcases toLower_cases c with ⟨hletter, -⟩ | ⟨-, hlower⟩
    · omega
    · have hrest : bs.map lowerByte = bs :=
        (List.map_congr_left fun b hb => lowerByte_of_isContinuation (hbs b hb)).trans
          (List.map_id' bs)
      rw [hlower, hc, List.map_cons, lowerByte_ofNat hlt, if_neg (by omega), hrest]

/-- Lower-casing byte by byte is lower-casing character by character. -/
theorem spell_lowerAscii (cs : List Char) : spell (lowerAscii cs) = (spell cs).map lowerByte := by
  induction cs with
  | nil => rfl
  | cons c cs ih =>
    show spell (c.toLower :: lowerAscii cs) = _
    rw [spell_cons, spell_cons, List.map_append, ih, utf8EncodeChar_toLower]

theorem length_spell_lowerAscii (cs : List Char) :
    (spell (lowerAscii cs)).length = (spell cs).length := by
  rw [spell_lowerAscii, List.length_map]

/-! ## Slices -/

theorem isBoundary_spell (front back : List Char) :
    isBoundary (spell (front ++ back)) (spell front).length = true := by
  rw [isBoundary, spell_append, List.getElem?_append_right (Nat.le_refl _), Nat.sub_self]
  cases back with
  | nil => simp [spell]
  | cons c back =>
    obtain ⟨b, bs, hc, hb, -⟩ := exists_encodeChar c
    rw [spell_cons, hc]
    simp [hb]

/-- What is between two characters can be cut out. -/
theorem slice?_spell (front cs back : List Char) :
    slice? (spell (front ++ (cs ++ back))) (spell front).length (spell (front ++ cs)).length =
      some (spell cs) := by
  have hlast := isBoundary_spell (front ++ cs) back
  rw [List.append_assoc] at hlast
  rw [slice?, isBoundary_spell front, hlast, spell_append front cs, List.length_append]
  rw [if_pos (by simp)]
  rw [← List.append_assoc, spell_append, spell_append, ← List.length_append]
  rw [List.take_left, List.drop_left]

theorem slice?_spell_end (front cs : List Char) :
    slice? (spell (front ++ cs)) (spell front).length (spell (front ++ cs)).length =
      some (spell cs) := by
  have h := slice?_spell front cs []
  rwa [List.append_nil] at h

/-! ## Finding a word -/

variable {word cs front back : List Char}

/-- Whether a word is spelled with one byte for each character. -/
def IsAscii (word : List Char) : Prop :=
  ∀ c ∈ word, c.toNat < 128

instance (word : List Char) : Decidable (IsAscii word) :=
  List.decidableBAll (fun c : Char => c.toNat < 128) word

theorem IsAscii.head {c : Char} (h : IsAscii (c :: word)) :
    String.utf8EncodeChar c = [UInt8.ofNat c.toNat] := by
  have hlt := h c List.mem_cons_self
  rcases utf8EncodeChar_cases c with ⟨-, hc⟩ | ⟨hle, -⟩
  · exact hc
  · omega

theorem ofNat_inj {m n : Nat} (hm : m < 256) (hn : n < 256) (h : UInt8.ofNat m = UInt8.ofNat n) :
    m = n := by
  have hmod := congrArg UInt8.toNat h
  rwa [UInt8.toNat_ofNat', UInt8.toNat_ofNat', Nat.mod_eq_of_lt hm, Nat.mod_eq_of_lt hn] at hmod

/-- In front of a character, a word of ASCII stands in the bytes exactly if it stands in the text. -/
theorem spell_prefix_iff (hascii : IsAscii word) : spell word <+: spell cs ↔ word <+: cs := by
  constructor
  · intro h
    induction word generalizing cs with
    | nil => exact List.nil_prefix
    | cons w word ih =>
      have hw := hascii w List.mem_cons_self
      rw [spell_cons, hascii.head] at h
      cases cs with
      | nil => exact absurd h.length_le (by simp [spell])
      | cons c cs =>
        rw [spell_cons] at h
        rcases utf8EncodeChar_cases c with ⟨hlt, hc⟩ | ⟨-, n, bs, hc, hle, hlt, -⟩
        · rw [hc] at h
          obtain ⟨hbyte, hrest⟩ := List.cons_prefix_cons.1 h
          obtain rfl : w = c := Char.toNat_inj.1 (ofNat_inj (by omega) (by omega) hbyte)
          exact List.cons_prefix_cons.2
            ⟨rfl, ih (fun d hd => hascii d (List.mem_cons_of_mem w hd)) hrest⟩
        · rw [hc] at h
          obtain ⟨hbyte, -⟩ := List.cons_prefix_cons.1 h
          have := ofNat_inj (by omega) hlt hbyte
          omega
  · intro h
    obtain ⟨back, rfl⟩ := h
    rw [spell_append]
    exact List.prefix_append _ _

/-- No word of ASCII is found among bytes that go on with a character. -/
theorem findBytes_continuation (hne : word ≠ []) (hascii : IsAscii word) {bs : Bytes}
    (hbs : ∀ b ∈ bs, isContinuation b = true) (bytes : Bytes) :
    findBytes (spell word) (bs ++ bytes) =
      (findBytes (spell word) bytes).map (· + bs.length) := by
  induction bs with
  | nil => simp
  | cons b bs ih =>
    obtain ⟨hb, hbs⟩ := List.forall_mem_cons.1 hbs
    have hmiss : ¬ (spell word).isPrefixOf (b :: (bs ++ bytes)) = true := by
      rw [List.isPrefixOf_iff_prefix]
      intro h
      obtain ⟨w, word, rfl⟩ := List.exists_cons_of_ne_nil hne
      rw [spell_cons, hascii.head] at h
      obtain ⟨rfl, -⟩ := List.cons_prefix_cons.1 h
      have hw := hascii w List.mem_cons_self
      have := (isContinuation_ofNat (by omega)).1 hb
      omega
    rw [List.cons_append, findBytes, if_neg hmiss, ih hbs, Option.map_map]
    rfl

theorem findBytes_hit (hascii : IsAscii word) {c : Char} (h : word <+: c :: cs) :
    findBytes (spell word) (spell (c :: cs)) = some 0 := by
  have hprefix := List.isPrefixOf_iff_prefix.2 ((spell_prefix_iff hascii).2 h)
  obtain ⟨b, bs, hc, -, -⟩ := exists_encodeChar c
  rw [spell_cons, hc, List.cons_append] at hprefix ⊢
  rw [findBytes, if_pos hprefix]

theorem findBytes_miss (hne : word ≠ []) (hascii : IsAscii word) {c : Char}
    (h : ¬ word <+: c :: cs) : findBytes (spell word) (spell (c :: cs)) =
      (findBytes (spell word) (spell cs)).map (· + (String.utf8EncodeChar c).length) := by
  have hprefix : ¬ (spell word).isPrefixOf (spell (c :: cs)) = true := by
    rwa [List.isPrefixOf_iff_prefix, spell_prefix_iff hascii]
  obtain ⟨b, bs, hc, -, hbs⟩ := exists_encodeChar c
  rw [spell_cons, hc, List.cons_append] at hprefix ⊢
  rw [findBytes, if_neg hprefix, findBytes_continuation hne hascii hbs, Option.map_map]
  rfl

/-- Whether a word stands in front of `back` and nowhere before. -/
structure IsFirst (word front back : List Char) : Prop where
  here : word <+: back
  not_before : ∀ n < front.length, ¬ word <+: (front ++ back).drop n

theorem IsFirst.cons {c : Char} (h : IsFirst word front back) (hmiss : ¬ word <+: c :: (front ++ back)) :
    IsFirst word (c :: front) back := by
  refine ⟨h.here, fun n hn => ?_⟩
  cases n with
  | zero => exact hmiss
  | succ n => exact h.not_before n (Nat.lt_of_succ_lt_succ hn)

/-- A word of ASCII is found in the bytes of a text where it first stands in the text. -/
theorem findBytes_spell (hne : word ≠ []) (hascii : IsAscii word) (cs : List Char) :
    (∃ front back, cs = front ++ back ∧ IsFirst word front back ∧
      findBytes (spell word) (spell cs) = some (spell front).length) ∨
    ¬ word <:+: cs ∧ findBytes (spell word) (spell cs) = none := by
  induction cs with
  | nil =>
    obtain ⟨w, word, rfl⟩ := List.exists_cons_of_ne_nil hne
    refine .inr ⟨by simp, ?_⟩
    rw [spell_cons, hascii.head]
    rfl
  | cons c cs ih =>
    by_cases hhit : word <+: c :: cs
    · refine .inl ⟨[], c :: cs, rfl, ⟨hhit, ?_⟩, findBytes_hit hascii hhit⟩
      intro n hn
      exact absurd hn (Nat.not_lt_zero n)
    · rw [findBytes_miss hne hascii hhit, List.infix_cons_iff, not_or]
      rcases ih with ⟨front, back, rfl, hfirst, hfound⟩ | ⟨hnone, hfound⟩
      · refine .inl ⟨c :: front, back, rfl, hfirst.cons hhit, ?_⟩
        rw [hfound, spell_cons, List.length_append, Nat.add_comm]
        rfl
      · refine .inr ⟨⟨hhit, hnone⟩, ?_⟩
        rw [hfound]
        rfl

theorem exists_of_lowerAscii_append (h : lowerAscii cs = front ++ back) :
    ∃ front' back', cs = front' ++ back' ∧ lowerAscii front' = front ∧ lowerAscii back' = back :=
  List.map_eq_append_iff.1 h

/-- What is found in the copy in lower case stands in the text itself, at the same offset. -/
theorem findBytes_lowerAscii (hne : word ≠ []) (hascii : IsAscii word) (cs : List Char) :
    (∃ kept occurrence rest, cs = kept ++ (occurrence ++ rest) ∧ lowerAscii occurrence = word ∧
      IsFirst word (lowerAscii kept) (lowerAscii (occurrence ++ rest)) ∧
      findBytes (spell word) (spell (lowerAscii cs)) = some (spell kept).length) ∨
    ¬ word <:+: lowerAscii cs ∧ findBytes (spell word) (spell (lowerAscii cs)) = none := by
  rcases findBytes_spell hne hascii (lowerAscii cs) with
    ⟨front, back, hsplit, hfirst, hfound⟩ | hnone
  · obtain ⟨kept, tail, rfl, rfl, rfl⟩ := exists_of_lowerAscii_append hsplit
    obtain ⟨suffix, hsuffix⟩ := hfirst.here
    obtain ⟨occurrence, rest, rfl, hword, -⟩ := exists_of_lowerAscii_append hsuffix.symm
    rw [length_spell_lowerAscii] at hfound
    exact .inl ⟨kept, occurrence, rest, rfl, hword, hfirst, hfound⟩
  · exact .inr hnone

/-! ## Erasing it -/

/-- Whether a text is left of another one if the leftmost occurrence of a word, in any ASCII case, is
    taken out of it, then the leftmost one of what stands behind that, and so on. -/
inductive Erased (word : List Char) : List Char → List Char → Prop
  | done {cs : List Char} (h : ¬ word <:+: lowerAscii cs) : Erased word cs cs
  | cut {front occurrence back left : List Char} (hword : lowerAscii occurrence = word)
      (hfirst : IsFirst word (lowerAscii front) (lowerAscii (occurrence ++ back)))
      (h : Erased word back left) : Erased word (front ++ (occurrence ++ back)) (front ++ left)

/-- Up to the first hit everything stays. -/
theorem replaceHits_before {hit : List Char → Bool} {width : Nat} {new : List Char}
    (h : ∀ n < front.length, hit ((front ++ back).drop n) = false) :
    replaceHits hit width new (front ++ back) = front ++ replaceHits hit width new back := by
  induction front with
  | nil => rfl
  | cons c front ih =>
    have hmiss : hit (c :: (front ++ back)) = false := h 0 (Nat.succ_pos _)
    have hrest : ∀ n < front.length, hit ((front ++ back).drop n) = false :=
      fun n hn => h (n + 1) (Nat.succ_lt_succ hn)
    rw [List.cons_append, replaceHits, replaceHitsFrom, hmiss]
    exact congrArg (c :: ·) (ih hrest)

/-- What is left is one text only: that of `eraseIgnoringCase`. -/
theorem Erased.eq_erase {left : List Char} (hne : word ≠ []) (h : Erased word cs left) :
    left = eraseIgnoringCase word cs := by
  induction h with
  | done h => exact (replaceHits_eq_self (spots_beginsIgnoringCase word) _ _ h).symm
  | @cut front occurrence back left hword hfirst h ih =>
    have hbefore : ∀ n < front.length,
        beginsIgnoringCase word ((front ++ (occurrence ++ back)).drop n) = false := by
      intro n hn
      rw [← Bool.not_eq_true, spots_beginsIgnoringCase word, List.map_drop, List.map_append]
      exact hfirst.not_before n (by rwa [lowerAscii, List.length_map])
    rw [eraseIgnoringCase, replaceHits_before hbefore,
      replaceHits_occurrence (spots_beginsIgnoringCase word) [] back hword hne, List.nil_append, ih]
    rfl

/-- The loop goes on behind what it has cut out, and cuts the word out of the rest. -/
theorem eraseBytes_spell (hne : word ≠ []) (hascii : IsAscii word) (rounds : Nat)
    (front back : List Char) (out : Bytes) (hrounds : back.length < rounds) :
    ∃ left, Erased word back left ∧
      eraseBytes (spell word) (spell (front ++ back)) (spell (lowerAscii (front ++ back))) rounds
        (spell front).length out = some (out ++ spell left) := by
  induction rounds generalizing front back out with
  | zero => exact absurd hrounds (Nat.not_lt_zero _)
  | succ rounds ih =>
    have hrest : slice? (spell (lowerAscii (front ++ back))) (spell front).length
        (spell (lowerAscii (front ++ back))).length = some (spell (lowerAscii back)) := by
      rw [lowerAscii, List.map_append, ← length_spell_lowerAscii front]
      exact slice?_spell_end (lowerAscii front) (lowerAscii back)
    rw [eraseBytes, hrest, Option.bind_eq_bind, Option.bind_some]
    rcases findBytes_lowerAscii hne hascii back with
      ⟨kept, occurrence, rest, rfl, hword, hfirst, hfound⟩ | ⟨hnone, hfound⟩
    · have hkept : slice? (spell (front ++ (kept ++ (occurrence ++ rest)))) (spell front).length
          ((spell front).length + (spell kept).length) = some (spell kept) := by
        rw [← List.length_append, ← spell_append]
        exact slice?_spell front kept (occurrence ++ rest)
      have hnext : (spell front).length + (spell kept).length + (spell word).length =
          (spell (front ++ (kept ++ occurrence))).length := by
        rw [← hword, length_spell_lowerAscii, spell_append, spell_append, List.length_append,
          List.length_append, Nat.add_assoc]
      have hshorter : rest.length < rounds := by
        have hpos := List.length_pos_iff.2 hne
        rw [← hword, lowerAscii, List.length_map] at hpos
        rw [List.length_append, List.length_append] at hrounds
        omega
      obtain ⟨left, herased, hleft⟩ :=
        ih (front ++ (kept ++ occurrence)) rest (out ++ spell kept) hshorter
      refine ⟨kept ++ left, .cut hword hfirst herased, ?_⟩
      rw [List.append_assoc, List.append_assoc kept, ← hnext, List.append_assoc out,
        ← spell_append] at hleft
      rw [hfound]
      dsimp only
      rw [hkept, Option.bind_some, hleft]
    · refine ⟨back, .done hnone, ?_⟩
      rw [hfound]
      dsimp only
      rw [slice?_spell_end, Option.bind_some]
      rfl

/-- For every text, the loop that cuts `kotlin` out of its bytes ends within as many rounds as there are
    bytes, and one, with every slice between two characters. What is left are the bytes of the text
    without the leftmost occurrences in any ASCII case, one behind the other. -/
theorem eraseBytes_exact (text : String) {rounds : Nat} (hrounds : (encode text).length < rounds) :
    ∃ left, eraseBytes (encode "kotlin") (encode text) ((encode text).map lowerByte) rounds 0 [] =
        some (encode left) ∧
      Erased "kotlin".toList text.toList left.toList ∧
      left = String.ofList (eraseIgnoringCase "kotlin".toList text.toList) := by
  have hne : "kotlin".toList ≠ [] := by decide
  have hlen := length_le_length_spell text.toList
  rw [← encode_eq_spell] at hlen
  obtain ⟨left, herased, hleft⟩ := eraseBytes_spell hne (by decide) rounds [] text.toList []
    (Nat.lt_of_le_of_lt hlen hrounds)
  refine ⟨String.ofList left, ?_, ?_, congrArg String.ofList (herased.eq_erase hne)⟩
  · rw [encode_eq_spell text, encode_eq_spell "kotlin", ← spell_lowerAscii, encode_ofList left]
    exact hleft
  · have hchars : (String.ofList left).toList = left := String.toList_ofList
    rwa [hchars]

/-- Two occurrences in a row, between characters of two bytes. -/
theorem eraseBytes_exact_accents :
    (encode "DébugKOTLINKotlinÀ").length < 40 ∧
    eraseBytes (encode "kotlin") (encode "DébugKOTLINKotlinÀ")
      ((encode "DébugKOTLINKotlinÀ").map lowerByte) 40 0 [] = some (encode "DébugÀ") := by
  have hrounds : (encode "DébugKOTLINKotlinÀ").length < 40 := by decide
  have hleft : String.ofList (eraseIgnoringCase "kotlin".toList "DébugKOTLINKotlinÀ".toList) =
      "DébugÀ" := by decide
  obtain ⟨left, hresult, -, rfl⟩ := eraseBytes_exact "DébugKOTLINKotlinÀ" hrounds
  rw [hleft] at hresult
  exact ⟨hrounds, hresult⟩

end SourceRecovery.Text
