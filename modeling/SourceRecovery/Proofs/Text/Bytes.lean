import SourceRecovery.Proofs.Text.Pieces
import SourceRecovery.Text.Utf8

/-!
# The bytes of a text

* `encode_inj`: texts are told by their bytes.
* `encode_lt_of_not`: the order of texts by their bytes is total.
* `decode?_encode`: the bytes of a text spell that text.
* `decode?_eq_some`: they spell no other one.
* `encode_ofList`: the bytes of its characters, one behind the other.
* `encode_append`, `encode_join`: the bytes of texts that are put together.
* `mem_encode_ascii`: a character of ASCII is in a text if its byte is in those of the text.
* `exists_encodeChar`: of the bytes of a character only the first does not go on with a character.
-/

namespace SourceRecovery.Text

variable {s t : String}

theorem encode_inj (h : encode s = encode t) : s = t := by
  have hdata : s.toUTF8.data = t.toUTF8.data := Array.toList_inj.1 h
  exact String.toByteArray_inj.1 (ByteArray.ext hdata)

theorem encode_lt_of_not (hne : s ≠ t) (h : ¬ encode s < encode t) : encode t < encode s := by
  rcases Std.lt_trichotomy (encode s) (encode t) with hlt | heq | hgt
  · exact absurd hlt h
  · exact absurd (encode_inj heq) hne
  · exact hgt

theorem ne_of_encode_lt (h : encode s < encode t) : s ≠ t := by
  rintro rfl
  exact List.lt_irrefl _ h

theorem decode?_encode (s : String) : decode? (encode s) = some s := by
  have hbytes : (⟨(encode s).toArray⟩ : ByteArray) = s.toByteArray := rfl
  rw [decode?, hbytes, String.fromUTF8?, dif_pos s.isValidUTF8]
  rfl

theorem decode?_eq_some {bytes : Bytes} : decode? bytes = some s ↔ encode s = bytes := by
  constructor
  · intro h
    rw [decode?, String.fromUTF8?] at h
    split at h
    · rw [← Option.some.inj h]
      rfl
    · cases h
  · rintro rfl
    exact decode?_encode s

/-! ## Characters -/

/-- The bytes of characters, one behind the other. -/
def spell (cs : List Char) : Bytes :=
  cs.flatMap String.utf8EncodeChar

theorem encode_ofList (cs : List Char) : encode (String.ofList cs) = spell cs := by
  show (String.ofList cs).toByteArray.data.toList = _
  rw [String.toByteArray_ofList]
  exact List.toList_data_toByteArray

theorem encode_eq_spell (s : String) : encode s = spell s.toList := by
  rw [← encode_ofList, String.ofList_toList]

theorem spell_cons (c : Char) (cs : List Char) :
    spell (c :: cs) = String.utf8EncodeChar c ++ spell cs :=
  List.flatMap_cons

theorem spell_append (cs cs' : List Char) : spell (cs ++ cs') = spell cs ++ spell cs' :=
  List.flatMap_append

/-- Whether a byte goes on with a character that has begun. -/
def isContinuation (b : UInt8) : Bool :=
  0x80 ≤ b && b < 0xC0

theorem isContinuation_ofNat {n : Nat} (h : n < 256) :
    isContinuation (UInt8.ofNat n) = true ↔ 128 ≤ n ∧ n < 192 := by
  rw [isContinuation, Bool.and_eq_true, decide_eq_true_iff, decide_eq_true_iff,
    UInt8.le_iff_toNat_le, UInt8.lt_iff_toNat_lt, UInt8.toNat_ofNat', Nat.mod_eq_of_lt h]
  rfl

/-- A character of ASCII is one byte. Any other one begins with a byte that announces more, and goes on
    with them. -/
theorem utf8EncodeChar_cases (c : Char) :
    c.toNat < 128 ∧ String.utf8EncodeChar c = [UInt8.ofNat c.toNat] ∨
    128 ≤ c.toNat ∧ ∃ n bs, String.utf8EncodeChar c = UInt8.ofNat n :: bs ∧ 192 ≤ n ∧ n < 256 ∧
      ∀ b ∈ bs, isContinuation b = true := by
  have hgoesOn (n : Nat) : isContinuation (UInt8.ofNat (n % 64 + 128)) = true :=
    (isContinuation_ofNat (by omega)).2 (by omega)
  unfold String.utf8EncodeChar
  dsimp only
  rw [show c.val.toNat = c.toNat from rfl]
  by_cases h : c.toNat ≤ 0x7f
  · rw [if_pos h]
    exact .inl ⟨by omega, rfl⟩
  · rw [if_neg h]
    refine .inr ⟨by omega, ?_⟩
    split
    · refine ⟨_, _, rfl, by omega, by omega, ?_⟩
      simp only [List.forall_mem_singleton]
      exact hgoesOn _
    · split
      · refine ⟨_, _, rfl, by omega, by omega, ?_⟩
        simp only [List.forall_mem_cons]
        exact ⟨hgoesOn _, hgoesOn _, by simp⟩
      · refine ⟨_, _, rfl, by omega, by omega, ?_⟩
        simp only [List.forall_mem_cons]
        exact ⟨hgoesOn _, hgoesOn _, hgoesOn _, by simp⟩

/-- Of the bytes of a character, only the first does not go on with a character. -/
theorem exists_encodeChar (c : Char) : ∃ b bs, String.utf8EncodeChar c = b :: bs ∧
    isContinuation b = false ∧ ∀ x ∈ bs, isContinuation x = true := by
  rcases utf8EncodeChar_cases c with ⟨hlt, hc⟩ | ⟨-, n, bs, hc, hle, hlt, hbs⟩
  · refine ⟨_, [], hc, ?_, by simp⟩
    rw [← Bool.not_eq_true, isContinuation_ofNat (by omega)]
    omega
  · refine ⟨_, bs, hc, ?_, hbs⟩
    rw [← Bool.not_eq_true, isContinuation_ofNat hlt]
    omega

theorem length_le_length_spell (cs : List Char) : cs.length ≤ (spell cs).length := by
  induction cs with
  | nil => exact Nat.le_refl _
  | cons c cs ih =>
    obtain ⟨b, bs, hc, -, -⟩ := exists_encodeChar c
    rw [spell_cons, hc, List.cons_append, List.length_cons, List.length_cons, List.length_append]
    omega

/-! ## Texts put together -/

theorem encode_append (s t : String) : encode (s ++ t) = encode s ++ encode t := by
  rw [encode_eq_spell, encode_eq_spell, encode_eq_spell, String.toList_append, spell_append]

@[simp]
theorem encode_eq_encode : encode s = encode t ↔ s = t :=
  ⟨encode_inj, fun h => h ▸ rfl⟩

@[simp]
theorem encode_eq_nil : encode s = [] ↔ s = "" :=
  encode_eq_encode (t := "")

theorem encode_join (sep : String) (ws : List String) :
    encode (join sep ws) = (encode sep).intercalate (ws.map encode) := by
  induction ws with
  | nil => rfl
  | cons w ws ih =>
    by_cases hlast : ws = []
    · simp [hlast, join]
    · rw [join_cons sep w hlast, encode_append, encode_append, ih, List.map_cons,
        List.intercalate_cons_of_ne_nil (by simpa using hlast)]

/-- A character of ASCII is in a text if its byte is in those of the text. -/
theorem mem_encode_ascii {c : Char} (hc : c.toNat < 128) :
    UInt8.ofNat c.toNat ∈ encode s ↔ c ∈ s.toList := by
  have hstart : isContinuation (UInt8.ofNat c.toNat) = false := by
    rw [← Bool.not_eq_true, isContinuation_ofNat (by omega)]
    omega
  rw [encode_eq_spell, spell, List.mem_flatMap]
  refine ⟨?_, fun h => ⟨c, h, ?_⟩⟩
  · rintro ⟨d, hd, hmem⟩
    rcases utf8EncodeChar_cases d with ⟨hlt, hbytes⟩ | ⟨-, n, bs, hbytes, hle, hlt, hbs⟩
    · rw [hbytes, List.mem_singleton] at hmem
      have hnat := congrArg UInt8.toNat hmem
      rw [UInt8.toNat_ofNat', UInt8.toNat_ofNat', Nat.mod_eq_of_lt (by omega),
        Nat.mod_eq_of_lt (by omega)] at hnat
      rwa [Char.toNat_inj.1 hnat]
    · rw [hbytes] at hmem
      rcases List.mem_cons.1 hmem with hfirst | hrest
      · have hnat := congrArg UInt8.toNat hfirst
        rw [UInt8.toNat_ofNat', UInt8.toNat_ofNat', Nat.mod_eq_of_lt (by omega),
          Nat.mod_eq_of_lt hlt] at hnat
        omega
      · rw [hbs _ hrest] at hstart
        cases hstart
  · rcases utf8EncodeChar_cases c with ⟨-, hbytes⟩ | ⟨hle, -⟩
    · rw [hbytes]
      exact List.mem_singleton_self _
    · omega

end SourceRecovery.Text
