import SourceRecovery.Proofs.ClassFile.Validity

/-!
# The first marked method of a file

For every class file of the format, every marker, and whatever stands behind the file:

* `read_eq_ok`: a class file is read exactly if a head stands in front.
* `firstMarked_opened_eq_ok`: which bytes behind the head decide the answer.
* `firstMarked_encode`: reading the file and looking for the marker gives the method that
  `File.firstMarked?` says, also when the methods behind it are anything else.
-/

namespace SourceRecovery.ClassFile

open Format

/-! ## Heads -/

/-- What is kept of a head, with the bytes behind it still to be read. -/
def Format.Head.opened (h : Head) (rest : Bytes) : ClassFile :=
  ⟨h.pool.table, h.methodCount.toNat, ⟨.file, h.encode.length, rest⟩⟩

theorem read_eq_ok {bytes : Bytes} {file : ClassFile} :
    read bytes = .ok file ↔ ∃ h rest, bytes = Head.encode h ++ rest ∧ file = h.opened rest := by
  rw [read, bind_ok]
  constructor
  · rintro ⟨⟨⟨pool, n⟩, c⟩, hread, hfile⟩
    obtain ⟨-, rest, ⟨h, hx, rfl⟩, rfl, rfl⟩ := (reads_readHead _ _ _ _ _).1 hread
    obtain ⟨rfl, rfl⟩ := Prod.mk.inj hx
    refine ⟨h, rest, rfl, ?_⟩
    rw [← Except.ok.inj hfile, Head.opened, Nat.zero_add]
  · rintro ⟨h, rest, rfl, rfl⟩
    refine ⟨_, (reads_readHead _ _ _ _ _).2 ⟨h.encode, rest, ⟨h, rfl, rfl⟩, rfl, rfl⟩, ?_⟩
    rw [Head.opened, Nat.zero_add]
    rfl

/-- The bytes that decide which method is found. -/
theorem firstMarked_opened_eq_ok {h : Head} {rest : Bytes} {marker : String} {x : Option String} :
    (h.opened rest).firstMarked marker = .ok x ↔ ∃ w rest' name,
      Found h.pool.table (Text.encode marker) h.methodCount.toNat w name ∧ rest = w ++ rest' ∧
        x = name.map Text.decodeLossy := by
  rw [firstMarked, bind_ok]
  constructor
  · rintro ⟨name, hfound, hx⟩
    obtain ⟨c, hc⟩ := run'_eq_ok.1 hfound
    obtain ⟨w, rest', hw, hrest, -⟩ := (reads_findMarked _ _ _ _ _ _ _ _).1 hc
    exact ⟨w, rest', name, hw, hrest, (Except.ok.inj hx).symm⟩
  · rintro ⟨w, rest', name, hw, rfl, rfl⟩
    refine ⟨name, run'_eq_ok.2 ⟨_, (reads_findMarked _ _ _ _ _ _ _ _).2 ⟨w, rest', hw, rfl, rfl⟩⟩, rfl⟩

/-! ## Methods -/

variable {marker : Bytes}

theorem firstMarked?_eq_none {f : File} (h : ∀ m ∈ f.methods, m.carries f.head.pool marker = false) :
    f.firstMarked? marker = none := by
  rw [File.firstMarked?, List.find?_eq_none.2 (by simpa using h)]
  rfl

theorem firstMarked?_eq_text {f : File} {before after : List Method} {m : Method}
    (hsplit : f.methods = before ++ m :: after)
    (hc : ∀ b ∈ before, b.carries f.head.pool marker = false)
    (hm : m.carries f.head.pool marker = true) :
    f.firstMarked? marker = f.head.pool.text? m.name := by
  rw [File.firstMarked?, hsplit, List.find?_append, List.find?_eq_none.2 (by simpa using hc),
    Option.none_or, List.find?_cons_of_pos hm]
  rfl

/-- The bytes up to the first method that carries the marker decide the answer. -/
theorem firstMarked_opened_of_split {f : File} {marker : String} {before after : List Method}
    {m : Method} (hvalid : ∀ m ∈ f.methods, m.Valid f.head.pool)
    (hsplit : f.methods = before ++ m :: after)
    (hc : ∀ b ∈ before, b.carries f.head.pool (Text.encode marker) = false)
    (hm : m.carries f.head.pool (Text.encode marker) = true) (garbage : Bytes) :
    (f.head.opened (encodeMethods (before ++ [m]) ++ garbage)).firstMarked marker =
      .ok ((f.firstMarked? (Text.encode marker)).map Text.decodeLossy) := by
  have hlt : before.length < f.head.methodCount.toNat := by
    rw [← f.length_eq, hsplit, List.length_append, List.length_cons]
    omega
  have hvalid' : ∀ m' ∈ before ++ [m], m'.Valid f.head.pool := by
    intro m' hm'
    refine hvalid m' ?_
    rw [hsplit, List.append_cons]
    exact List.mem_append_left after hm'
  have hvalidm := hvalid' m (by simp)
  obtain ⟨name, hname⟩ := hvalidm.1
  have hbefore : ∀ b ∈ before, b.Valid f.head.pool ∧
      b.carries f.head.pool (Text.encode marker) = false := by
    intro b hb
    exact ⟨hvalid' b (by simp [hb]), hc b hb⟩
  rw [firstMarked?_eq_text hsplit hc hm, hname]
  refine firstMarked_opened_eq_ok.2 ⟨_, garbage, some name, found_some_iff.2 ⟨before, m.framed, hlt,
    hbefore, hname, member_marked_framed hvalidm hm, ?_⟩, rfl, rfl⟩
  rw [encode_framed]
  simp [encodeMethods]

theorem firstMarked_opened_encode {f : File} {marker : String}
    (hvalid : ∀ m ∈ f.methods, m.Valid f.head.pool) (trailing : Bytes) :
    (f.head.opened (encodeMethods f.methods ++ trailing)).firstMarked marker =
      .ok ((f.firstMarked? (Text.encode marker)).map Text.decodeLossy) := by
  cases hany : f.methods.any fun m => m.carries f.head.pool (Text.encode marker) with
  | false =>
    have hc : ∀ m ∈ f.methods, m.carries f.head.pool (Text.encode marker) = false := by
      simpa using hany
    rw [firstMarked?_eq_none hc]
    exact firstMarked_opened_eq_ok.2 ⟨_, trailing, none, found_none_iff.2 ⟨f.methods, f.length_eq,
      fun m hm => ⟨hvalid m hm, hc m hm⟩, rfl⟩, rfl, rfl⟩
  | true =>
    obtain ⟨before, m, after, hsplit, hc, hm⟩ := exists_first hany
    have heq : encodeMethods f.methods ++ trailing =
        encodeMethods (before ++ [m]) ++ (encodeMethods after ++ trailing) := by
      simp [hsplit, encodeMethods]
    rw [heq]
    exact firstMarked_opened_of_split hvalid hsplit hc hm _

/-- Every valid file is read, whatever stands behind it, and the search for a marker gives the name of
    the first method that carries it. The bytes behind that method do not count. -/
theorem firstMarked_encode (f : File) (marker : String)
    (hvalid : ∀ m ∈ f.methods, m.Valid f.head.pool) :
    (∀ trailing, ∃ file, read (f.encode ++ trailing) = .ok file ∧
      file.firstMarked marker =
        .ok ((f.firstMarked? (Text.encode marker)).map Text.decodeLossy)) ∧
    ∀ before m after, f.methods = before ++ m :: after →
      (∀ b ∈ before, b.carries f.head.pool (Text.encode marker) = false) →
      m.carries f.head.pool (Text.encode marker) = true →
      ∀ garbage, ∃ file,
        read (f.head.encode ++ encodeMethods (before ++ [m]) ++ garbage) = .ok file ∧
        file.firstMarked marker =
          .ok ((f.firstMarked? (Text.encode marker)).map Text.decodeLossy) := by
  constructor
  · intro trailing
    refine ⟨f.head.opened (encodeMethods f.methods ++ trailing), read_eq_ok.2 ⟨f.head, _, ?_, rfl⟩,
      firstMarked_opened_encode hvalid trailing⟩
    rw [File.encode, List.append_assoc]
  · intro before m after hsplit hc hm garbage
    refine ⟨f.head.opened (encodeMethods (before ++ [m]) ++ garbage),
      read_eq_ok.2 ⟨f.head, _, ?_, rfl⟩, firstMarked_opened_of_split hvalid hsplit hc hm garbage⟩
    rw [List.append_assoc]

/-- An annotation of the type 1 with an annotation of the type 5 in it. -/
def decoy : Mark where
  type := 1
  pairs := ⟨[(1, .nested 5 [])], by decide⟩
  fits p hp := by
    obtain rfl := List.mem_singleton.1 hp
    exact ⟨1, by decide⟩

/-- A file of two methods. A field and an element value of the first method name the marker, but only
    the second method carries it. -/
def specimen : File where
  head :=
    { minor := 0
      major := 52
      pool := .ofFills 6 [.text [0x61] (by decide), .other .long (List.replicate 8 0) rfl,
        .text (Text.encode "RuntimeVisibleAnnotations") (by decide),
        .text [0x54] (by decide)] (by simp [Fills, Constant.slots, ConstantSort.isWide])
      flags := 0
      this := 0
      super := 0
      interfaces := ⟨[], by decide⟩
      fields := ⟨[⟨0, 1, 1, ⟨[⟨4, [0, 1, 0, 5, 0, 0], by decide⟩], by decide⟩⟩], by decide⟩
      methodCount := 2 }
  methods :=
    [⟨0, 1, 1, ⟨[⟨4, .marks ⟨[decoy], by decide⟩ [], by decide⟩], by decide⟩⟩,
      ⟨0, 5, 1, ⟨[⟨4, .marks ⟨[⟨5, ⟨[], by decide⟩, by simp⟩], by decide⟩ [0], by decide⟩],
        by decide⟩⟩]
  length_eq := rfl

theorem firstMarked_specimen :
    (∀ m ∈ specimen.methods, m.Valid specimen.head.pool) ∧
      ∃ file, read (specimen.encode ++ [0xFF]) = .ok file ∧
        file.firstMarked "T" = .ok (some "T") := by
  have hvalid : ∀ m ∈ specimen.methods, m.Valid specimen.head.pool := by decide
  refine ⟨hvalid, ?_⟩
  have hmarked : specimen.firstMarked? (Text.encode "T") = some [0x54] := by decide
  obtain ⟨file, hread, hfirst⟩ := (firstMarked_encode specimen "T" hvalid).1 [0xFF]
  rw [hmarked] at hfirst
  exact ⟨file, hread, hfirst⟩

/-- Scanning finds the second method of the specimen. -/
theorem scan_specimen : scan "T" specimen.encode = .ok (some "T") := by
  have hread : read specimen.encode =
      .ok (specimen.head.opened (encodeMethods specimen.methods ++ [])) :=
    read_eq_ok.2 ⟨specimen.head, _, by rw [List.append_nil]; rfl, rfl⟩
  have hmarked : specimen.firstMarked? (Text.encode "T") = some [0x54] := by decide
  have hfirst : (specimen.head.opened (encodeMethods specimen.methods ++ [])).firstMarked "T" =
      .ok ((specimen.firstMarked? (Text.encode "T")).map Text.decodeLossy) :=
    firstMarked_opened_encode (by decide) []
  rw [hmarked] at hfirst
  exact bind_ok.2 ⟨_, hread, hfirst⟩

end SourceRecovery.ClassFile
