import SourceRecovery.Proofs.ClassFile.Scan
import SourceRecovery.Proofs.ClassFile.Unique

/-!
# What is accepted

Bytes that are read as a class file are one, and tell what they spell.

* `Unmarked`: the bytes behind a head are methods without the marker.
* `Stops`: they are such methods, and then one method up to the marker.
* `read_accepts`: a head stands in front of every file that is read, and the answer says which of the
  two stands behind it. Nothing else has the same bytes.
-/

namespace SourceRecovery.ClassFile

open Format

variable {p : Pool} {marker : Bytes} {n : Nat} {rest : Bytes}

/-- Whether bytes begin with `n` valid methods that do not carry the marker. -/
structure Unmarked (p : Pool) (marker : Bytes) (n : Nat) (rest : Bytes) (methods : List Method) :
    Prop where
  length_eq : methods.length = n
  valid : ∀ m ∈ methods, m.Valid p ∧ m.carries p marker = false
  begins : encodeMethods methods <+: rest

/-- Whether bytes begin with fewer than `n` valid methods that do not carry the marker, and one that
    lists it. -/
structure Stops (p : Pool) (marker : Bytes) (n : Nat) (rest : Bytes) (before : List Method)
    (last : Member Attribute) : Prop where
  length_lt : before.length < n
  valid : ∀ m ∈ before, m.Valid p ∧ m.carries p marker = false
  marked : last.Marked p marker
  begins : encodeMethods before ++ last.encode Attribute.encode <+: rest

/-! ## Methods that are told by their frames -/

theorem framed_inj {a b : MethodAttribute} (ha : a.Valid p) (hb : b.Valid p)
    (h : a.framed = b.framed) : a = b := by
  obtain ⟨i, content, hlt⟩ := a
  obtain ⟨j, content', hlt'⟩ := b
  obtain ⟨name, hname, hcontent⟩ := ha
  obtain ⟨name', hname', hcontent'⟩ := hb
  obtain ⟨rfl, hbody⟩ := Attribute.mk.inj h
  obtain rfl := Option.some.inj (hname.symm.trans hname')
  cases content with
  | other bytes =>
    cases content' with
    | other bytes' =>
      obtain rfl : bytes = bytes' := hbody
      rfl
    | marks as' slack' => exact absurd hcontent'.1 hcontent
  | marks as slack =>
    cases content' with
    | other bytes' => exact absurd hcontent.1 hcontent'
    | marks as' slack' =>
      obtain ⟨rfl, rfl⟩ := selfDelimiting_counted selfDelimiting_mark as as' slack slack'
        (fun _ _ => trivial) (fun _ _ => trivial) hbody
      rfl

/-- What is made of each item in one way is made of all in one way. -/
theorem member_framed_inj {m m' : Method} (hm : m.Valid p) (hm' : m'.Valid p)
    (h : m.framed = m'.framed) : m = m' := by
  obtain ⟨flags, name, type, as, hlt⟩ := m
  obtain ⟨flags', name', type', as', hlt'⟩ := m'
  simp only [Member.framed, Member.mk.injEq, Counted.mk.injEq] at h
  obtain ⟨rfl, rfl, rfl, hmap⟩ := h
  obtain rfl := map_inj_of_forall (S := fun a => a.Valid p) (fun _ _ => framed_inj) hm.2 hm'.2 hmap
  rfl

/-- A method up to the marker is none that does not carry it. -/
theorem framed_not_marked {m : Method} (hm : m.Valid p) (hc : m.carries p marker = false) :
    ¬ m.framed.Marked p marker := by
  intro hmarked
  obtain ⟨name, hname, hfalse⟩ := exists_judged_false_iff.2 ⟨m, rfl, hm, hc⟩
  have htrue := (judged_true_iff.2 ⟨text_table_eq_ok.1 hname, hmarked⟩).2
  rw [hfalse] at htrue
  cases htrue

/-! ## Uniqueness -/

theorem unmarked_unique {ms ms' : List Method} (h : Unmarked p marker n rest ms)
    (h' : Unmarked p marker n rest ms') : ms = ms' := by
  obtain ⟨t, ht⟩ := h.begins
  obtain ⟨t', ht'⟩ := h'.begins
  rw [← ht', ← flatMap_encode_framed, ← flatMap_encode_framed] at ht
  have hlen : (ms.map Member.framed).length = (ms'.map Member.framed).length := by
    rw [List.length_map, List.length_map, h.length_eq, h'.length_eq]
  obtain ⟨hmap, -⟩ := flatMap_append_inj selfDelimiting_member hlen (fun _ _ => trivial)
    (fun _ _ => trivial) ht
  exact map_inj_of_forall (S := fun m => m.Valid p) (fun _ _ => member_framed_inj)
    (fun m hm => (h.valid m hm).1) (fun m hm => (h'.valid m hm).1) hmap

/-- Of two ways to stop, the one with fewer methods is the other. -/
theorem stops_eq_of_le {before before' : List Method} {last last' : Member Attribute}
    (h : Stops p marker n rest before last) (h' : Stops p marker n rest before' last')
    (hle : before.length ≤ before'.length) : before = before' ∧ last = last' := by
  obtain ⟨t, ht⟩ := h.begins
  obtain ⟨t', ht'⟩ := h'.begins
  have heq : (before.map Member.framed ++ [last]).flatMap (Member.encode Attribute.encode) ++ t =
      (before'.map Member.framed ++ [last']).flatMap (Member.encode Attribute.encode) ++ t' := by
    rw [List.flatMap_append, List.flatMap_append, flatMap_encode_framed, flatMap_encode_framed,
      List.flatMap_singleton, List.flatMap_singleton, ht, ht']
  have hprefix : before.map Member.framed ++ [last] <+: before'.map Member.framed ++ [last'] := by
    refine prefix_of_flatMap_append selfDelimiting_member ?_ (fun _ _ => trivial)
      (fun _ _ => trivial) heq
    simpa using hle
  rcases List.prefix_concat_iff.1 hprefix with hall | hshort
  · obtain ⟨hmap, hlast⟩ := List.append_inj' hall rfl
    have hbefore := map_inj_of_forall (S := fun m => m.Valid p) (fun _ _ => member_framed_inj)
      (fun m hm => (h.valid m hm).1) (fun m hm => (h'.valid m hm).1) hmap
    exact ⟨hbefore, List.singleton_inj.1 hlast⟩
  · have hmem : last ∈ before'.map Member.framed := hshort.subset (by simp)
    obtain ⟨m, hm, rfl⟩ := List.mem_map.1 hmem
    exact absurd h.marked (framed_not_marked (h'.valid m hm).1 (h'.valid m hm).2)

theorem stops_unique {before before' : List Method} {last last' : Member Attribute}
    (h : Stops p marker n rest before last) (h' : Stops p marker n rest before' last') :
    before = before' ∧ last = last' := by
  rcases Nat.le_total before.length before'.length with hle | hle
  · exact stops_eq_of_le h h' hle
  · obtain ⟨rfl, rfl⟩ := stops_eq_of_le h' h hle
    exact ⟨rfl, rfl⟩

/-! ## The answer -/

theorem firstMarked_opened_eq_none {h : Head} {rest : Bytes} {marker : String} :
    (h.opened rest).firstMarked marker = .ok none ↔
      ∃ methods, Unmarked h.pool (Text.encode marker) h.methodCount.toNat rest methods := by
  rw [firstMarked_opened_eq_ok]
  constructor
  · intro ⟨w, rest', name, hfound, hrest, hname⟩
    cases name with
    | some name => cases hname
    | none =>
      obtain ⟨ms, hlen, hms, rfl⟩ := found_none_iff.1 hfound
      exact ⟨ms, hlen, hms, ⟨rest', hrest.symm⟩⟩
  · intro ⟨ms, hlen, hms, rest', hrest⟩
    exact ⟨_, rest', none, found_none_iff.2 ⟨ms, hlen, hms, rfl⟩, hrest.symm, rfl⟩

theorem firstMarked_opened_eq_some {h : Head} {rest : Bytes} {marker x : String} :
    (h.opened rest).firstMarked marker = .ok (some x) ↔ ∃ before last name,
      Stops h.pool (Text.encode marker) h.methodCount.toNat rest before last ∧
        h.pool.text? last.name = some name ∧ x = Text.decodeLossy name := by
  rw [firstMarked_opened_eq_ok]
  constructor
  · intro ⟨w, rest', name, hfound, hrest, hname⟩
    cases name with
    | none => cases hname
    | some name =>
      obtain ⟨ms, r, hlt, hms, hr, hmarked, rfl⟩ := found_some_iff.1 hfound
      exact ⟨ms, r, name, ⟨hlt, hms, hmarked, ⟨rest', hrest.symm⟩⟩, hr, Option.some.inj hname⟩
  · intro ⟨ms, r, name, hstops, hr, hname⟩
    obtain ⟨rest', hrest⟩ := hstops.begins
    refine ⟨_, rest', some name, found_some_iff.2 ⟨ms, r, hstops.length_lt, hstops.valid, hr,
      hstops.marked, rfl⟩, hrest.symm, ?_⟩
    rw [hname]
    rfl

/-- Every file that is read begins with exactly one head, and its methods stand behind that head. No
    method carries the marker exactly if the bytes behind the head spell that many valid methods
    without it, in one way; and a method is found exactly if they spell fewer of them and then, in
    one way, a method up to the marker that has this name. -/
theorem read_accepts {bytes : Bytes} {file : ClassFile} (marker : String)
    (hread : read bytes = .ok file) :
    ∃ (h : Head) (rest : Bytes), bytes = h.encode ++ rest ∧
      file = ⟨h.pool.table, h.methodCount.toNat, ⟨.file, h.encode.length, rest⟩⟩ ∧
      (∀ h' : Head, h'.encode <+: bytes → h' = h) ∧
      (file.firstMarked marker = .ok none ↔
        ∃ methods, Unmarked h.pool (Text.encode marker) h.methodCount.toNat rest methods ∧
          ∀ methods', Unmarked h.pool (Text.encode marker) h.methodCount.toNat rest methods' →
            methods' = methods) ∧
      ∀ x, file.firstMarked marker = .ok (some x) ↔
        ∃ before last name,
          Stops h.pool (Text.encode marker) h.methodCount.toNat rest before last ∧
          (∀ before' last',
            Stops h.pool (Text.encode marker) h.methodCount.toNat rest before' last' →
              before' = before ∧ last' = last) ∧
          h.pool.text? last.name = some name ∧ x = Text.decodeLossy name := by
  obtain ⟨h, rest, rfl, rfl⟩ := read_eq_ok.1 hread
  refine ⟨h, rest, rfl, rfl, ?_, ?_, ?_⟩
  · intro h' ⟨rest', hrest'⟩
    exact (selfDelimiting_head h' h rest' rest trivial trivial hrest').1
  · rw [firstMarked_opened_eq_none]
    constructor
    · intro ⟨methods, hmethods⟩
      exact ⟨methods, hmethods, fun methods' h' => unmarked_unique h' hmethods⟩
    · intro ⟨methods, hmethods, _⟩
      exact ⟨methods, hmethods⟩
  · intro x
    rw [firstMarked_opened_eq_some]
    constructor
    · intro ⟨before, last, name, hstops, hname, hx⟩
      exact ⟨before, last, name, hstops, fun _ _ h' => stops_unique h' hstops, hname, hx⟩
    · intro ⟨before, last, name, hstops, _, hname, hx⟩
      exact ⟨before, last, name, hstops, hname, hx⟩

theorem read_accepts_specimen : ∃ file, read specimen.encode = .ok file ∧
    ∃ h : Head, h.encode <+: specimen.encode ∧ h.methodCount.toNat = file.methodCount ∧
      ∀ h' : Head, h'.encode <+: specimen.encode → h' = h := by
  have hread : read specimen.encode = .ok (specimen.head.opened (encodeMethods specimen.methods)) :=
    read_eq_ok.2 ⟨specimen.head, _, rfl, rfl⟩
  obtain ⟨h, rest, hbytes, hfile, hunique, -, -⟩ := read_accepts "T" hread
  exact ⟨_, hread, h, ⟨rest, hbytes.symm⟩, by rw [hfile], hunique⟩

end SourceRecovery.ClassFile
