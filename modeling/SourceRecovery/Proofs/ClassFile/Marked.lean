import SourceRecovery.Proofs.ClassFile.Accepted

/-!
# Bytes with a marked method

* `HasMarked`: bytes spell a class file up to a method that carries the marker.
* `LacksMarked`: they spell a class file none of whose methods does.
* `scan_eq_some`, `scan_eq_none`: scanning tells which of the two they do.
* `hasMarked_of_split`: of a file that goes wrong behind its first marked method, that method is found.
-/

namespace SourceRecovery.ClassFile

open Format

variable {marker : String} {bytes : Bytes}

/-- Whether bytes spell a class file up to its first method that carries the marker. What stands behind
    that method in `rest` may be anything. -/
def HasMarked (marker bytes : Bytes) : Prop :=
  ∃ (h : Head) (rest : Bytes) (before : List Method) (last : Member Attribute),
    bytes = h.encode ++ rest ∧ Stops h.pool marker h.methodCount.toNat rest before last ∧
      h.pool.Names last.name

/-- Whether bytes begin with a class file whose methods do not carry the marker. -/
def LacksMarked (marker bytes : Bytes) : Prop :=
  ∃ (h : Head) (rest : Bytes) (methods : List Method),
    bytes = h.encode ++ rest ∧ Unmarked h.pool marker h.methodCount.toNat rest methods

theorem scan_eq_ok {x : Option String} : scan marker bytes = .ok x ↔
    ∃ (h : Head) (rest : Bytes), bytes = h.encode ++ rest ∧
      (h.opened rest).firstMarked marker = .ok x := by
  rw [scan, bind_ok]
  constructor
  · rintro ⟨file, hread, hfirst⟩
    obtain ⟨h, rest, hbytes, rfl⟩ := read_eq_ok.1 hread
    exact ⟨h, rest, hbytes, hfirst⟩
  · rintro ⟨h, rest, hbytes, hfirst⟩
    exact ⟨_, read_eq_ok.2 ⟨h, rest, hbytes, rfl⟩, hfirst⟩

theorem scan_eq_none : scan marker bytes = .ok none ↔ LacksMarked (Text.encode marker) bytes := by
  rw [scan_eq_ok]
  constructor
  · rintro ⟨h, rest, hbytes, hfirst⟩
    obtain ⟨methods, hmethods⟩ := firstMarked_opened_eq_none.1 hfirst
    exact ⟨h, rest, methods, hbytes, hmethods⟩
  · rintro ⟨h, rest, methods, hbytes, hmethods⟩
    exact ⟨h, rest, hbytes, firstMarked_opened_eq_none.2 ⟨methods, hmethods⟩⟩

theorem scan_eq_some :
    (∃ name, scan marker bytes = .ok (some name)) ↔ HasMarked (Text.encode marker) bytes := by
  simp only [scan_eq_ok]
  constructor
  · rintro ⟨x, h, rest, hbytes, hfirst⟩
    obtain ⟨before, last, name, hstops, hname, -⟩ := firstMarked_opened_eq_some.1 hfirst
    exact ⟨h, rest, before, last, hbytes, hstops, name, hname⟩
  · rintro ⟨h, rest, before, last, hbytes, hstops, name, hname⟩
    exact ⟨_, h, rest, hbytes, firstMarked_opened_eq_some.2 ⟨before, last, name, hstops, hname, rfl⟩⟩

/-- Scanning gives an answer exactly if the bytes are a class file as far as they are read. -/
theorem scan_answers : (∃ x, scan marker bytes = .ok x) ↔
    HasMarked (Text.encode marker) bytes ∨ LacksMarked (Text.encode marker) bytes := by
  rw [← scan_eq_some, ← scan_eq_none]
  constructor
  · rintro ⟨_ | name, hscan⟩
    · exact .inr hscan
    · exact .inl ⟨name, hscan⟩
  · rintro (⟨name, hscan⟩ | hscan)
    · exact ⟨_, hscan⟩
    · exact ⟨_, hscan⟩

theorem LacksMarked.not_hasMarked (h : LacksMarked (Text.encode marker) bytes) :
    ¬ HasMarked (Text.encode marker) bytes := by
  intro hmarked
  obtain ⟨name, hscan⟩ := scan_eq_some.2 hmarked
  rw [scan_eq_none.2 h] at hscan
  cases hscan

/-- A method that carries the marker behind others that do not, all of them valid, is found whatever
    stands behind it. -/
theorem hasMarked_of_split {h : Head} {marker : Bytes} (before : List Method) (m : Method)
    (hlt : before.length < h.methodCount.toNat)
    (hbefore : ∀ b ∈ before, b.Valid h.pool ∧ b.carries h.pool marker = false)
    (hm : m.Valid h.pool) (hc : m.carries h.pool marker = true) (garbage : Bytes) :
    HasMarked marker (h.encode ++ (encodeMethods (before ++ [m]) ++ garbage)) := by
  refine ⟨h, _, before, m.framed, rfl, ⟨hlt, hbefore, member_marked_framed hm hc, ?_⟩, hm.1⟩
  rw [encode_framed]
  exact ⟨garbage, by simp [encodeMethods]⟩

end SourceRecovery.ClassFile
