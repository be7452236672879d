import SourceRecovery.Proofs.ClassFile.Members
import SourceRecovery.Proofs.Lists

/-!
# Methods that are read, and methods of the format

A method is passed over exactly if it is a valid method of the format that does not carry the marker,
and one that is valid and carries it is found.
-/

namespace SourceRecovery.ClassFile

open Format

variable {p : Pool} {marker : Bytes}

/-! ## Attributes -/

theorem listsMarks_iff {name : Bytes} : listsMarks name = true ↔ ListsMarks name := by
  simp [listsMarks, ListsMarks]

theorem namesOther_iff {i : UInt16} :
    p.table.NamesOther marker i ↔ p.Names i ∧ (p.text? i == some marker) = false := by
  simp only [ConstantPool.NamesOther, text_table_eq_ok, Pool.Names]
  constructor
  · rintro ⟨text, htext, hne⟩
    exact ⟨⟨text, htext⟩, by simpa [htext] using hne⟩
  · rintro ⟨⟨text, htext⟩, hne⟩
    exact ⟨text, htext, by simpa [htext] using hne⟩

/-- Whether an attribute is passed over: it has a name, and does not carry the marker if its name says
    that it lists annotations. -/
def Passes (pool : ConstantPool) (marker : Bytes) (a : Attribute) : Prop :=
  ∃ name, pool.text a.name.toNat = .ok name ∧
    (ListsMarks name → bodyCarries pool marker a.body = .ok false)

/-- Whether an attribute lists annotations, and carries the marker. -/
def Hits (pool : ConstantPool) (marker : Bytes) (a : Attribute) : Prop :=
  ∃ name, pool.text a.name.toNat = .ok name ∧ ListsMarks name ∧
    bodyCarries pool marker a.body = .ok true

theorem passes_framed {a : MethodAttribute} (ha : a.Valid p) (hc : a.carries p marker = false) :
    Passes p.table marker a.framed := by
  obtain ⟨i, content, hlt⟩ := a
  obtain ⟨name, hname, hcontent⟩ := ha
  refine ⟨name, text_table_eq_ok.2 hname, fun hlists => bodyCarries_eq_false_iff.2 ?_⟩
  cases content with
  | other bytes => exact absurd hlists hcontent
  | marks as slack =>
    refine ⟨as, slack, rfl, fun n hn => namesOther_iff.2 ⟨hcontent.2 n hn, ?_⟩⟩
    simpa using List.any_eq_false.1 hc n hn

theorem exists_framed_of_passes {r : Attribute} (h : Passes p.table marker r) :
    ∃ a : MethodAttribute, a.framed = r ∧ a.Valid p ∧ a.carries p marker = false := by
  obtain ⟨name, hname, hbody⟩ := h
  rw [text_table_eq_ok] at hname
  by_cases hlists : ListsMarks name
  · obtain ⟨as, slack, heq, has⟩ := bodyCarries_eq_false_iff.1 (hbody hlists)
    refine ⟨⟨r.name, .marks as slack, by rw [Content.encode, ← heq]; exact r.length_lt⟩, ?_, ?_, ?_⟩
    · simp [MethodAttribute.framed, Content.encode, ← heq]
    · exact ⟨name, hname, hlists, fun n hn => (namesOther_iff.1 (has n hn)).1⟩
    · exact List.any_eq_false.2 fun n hn => by simpa using (namesOther_iff.1 (has n hn)).2
  · exact ⟨⟨r.name, .other r.body, r.length_lt⟩, rfl, ⟨name, hname, hlists⟩, rfl⟩

theorem hits_iff {a : Attribute} : Hits p.table marker a ↔ a.Marked p marker := by
  simp only [Hits, bodyCarries_eq_true_iff, text_table_eq_ok, namesOther_iff, beq_eq_false_iff_ne]
  constructor
  · rintro ⟨name, hname, hlists, count, front, type, slack, hcount, hlt, hfront, htype, hbody⟩
    exact ⟨name, count, front, type, slack, hname, hlists, hcount, hlt, hfront, htype, hbody⟩
  · rintro ⟨name, count, front, type, slack, hname, hlists, hcount, hlt, hfront, htype, hbody⟩
    exact ⟨name, hname, hlists, count, front, type, slack, hcount, hlt, hfront, htype, hbody⟩

theorem marked_framed {a : MethodAttribute} (ha : a.Valid p) (hc : a.carries p marker = true) :
    a.framed.Marked p marker := by
  obtain ⟨i, content, hlt⟩ := a
  obtain ⟨name, hname, hcontent⟩ := ha
  cases content with
  | other bytes => cases hc
  | marks as slack =>
    obtain ⟨front, n, back, has, hfront, hn⟩ := exists_first hc
    have hother : ∀ m ∈ front, p.Names m.type ∧ p.text? m.type ≠ some marker := by
      intro m hm
      exact ⟨hcontent.2 m (by simp [has, hm]), by simpa using hfront m hm⟩
    have htype : p.text? n.type = some marker := by simpa using hn
    refine ⟨name, as.items.length, front, n.type, n.pairs.encode encodePair ++
      (back.flatMap Mark.encode ++ slack), hname, hcontent.1, as.length_lt, by simp [has], hother,
        htype, ?_⟩
    simp [MethodAttribute.framed, Content.encode, Counted.encode, has, Mark.encode]

/-! ## Attributes one behind the other -/

theorem carriesAfter_true {as : List Attribute} {x : Bool} :
    carriesAfter p.table marker true as = .ok x ↔ x = true ∧ ∀ a ∈ as, p.Names a.name := by
  induction as with
  | nil => simp [carriesAfter, eq_comm]
  | cons a as ih =>
    rw [carriesAfter, bind_ok]
    simp only [Bool.not_true, Bool.false_and, Bool.false_eq_true, if_false, ih, text_table_eq_ok]
    constructor
    · rintro ⟨name, hname, rfl, has⟩
      exact ⟨rfl, List.forall_mem_cons.2 ⟨⟨name, hname⟩, has⟩⟩
    · rintro ⟨rfl, has⟩
      obtain ⟨⟨name, hname⟩, has⟩ := List.forall_mem_cons.1 has
      exact ⟨name, hname, rfl, has⟩

theorem carriesAfter_false_cons {a : Attribute} {as : List Attribute} {x : Bool} :
    carriesAfter p.table marker false (a :: as) = .ok x ↔
      Passes p.table marker a ∧ carriesAfter p.table marker false as = .ok x ∨
      Hits p.table marker a ∧ carriesAfter p.table marker true as = .ok x := by
  have hlook {name : Bytes} : (!false && listsMarks name) = true ↔ ListsMarks name := listsMarks_iff
  rw [carriesAfter, bind_ok]
  constructor
  · rintro ⟨name, hname, h⟩
    by_cases hlists : ListsMarks name
    · rw [if_pos (hlook.2 hlists)] at h
      obtain ⟨found, hfound, h⟩ := bind_ok.1 h
      cases found with
      | false => exact .inl ⟨⟨name, hname, fun _ => hfound⟩, h⟩
      | true => exact .inr ⟨⟨name, hname, hlists, hfound⟩, h⟩
    · rw [if_neg (mt hlook.1 hlists)] at h
      exact .inl ⟨⟨name, hname, fun h => absurd h hlists⟩, h⟩
  · rintro (⟨⟨name, hname, hbody⟩, h⟩ | ⟨⟨name, hname, hlists, hbody⟩, h⟩)
    · refine ⟨name, hname, ?_⟩
      by_cases hlists : ListsMarks name
      · rw [if_pos (hlook.2 hlists), hbody hlists]
        exact h
      · rw [if_neg (mt hlook.1 hlists)]
        exact h
    · refine ⟨name, hname, ?_⟩
      rw [if_pos (hlook.2 hlists), hbody]
      exact h

theorem carriesAfter_false_eq_false {as : List Attribute} :
    carriesAfter p.table marker false as = .ok false ↔ ∀ a ∈ as, Passes p.table marker a := by
  induction as with
  | nil => simp [carriesAfter]
  | cons a as ih =>
    rw [carriesAfter_false_cons, ih, carriesAfter_true]
    simp

/-- The marker is found in the first attribute that carries it. Those behind it need a name, but
    nothing else. -/
theorem carriesAfter_false_eq_true {as : List Attribute} :
    carriesAfter p.table marker false as = .ok true ↔
      ∃ (front : List MethodAttribute) (hit : Attribute) (back : List Attribute),
        as = front.map MethodAttribute.framed ++ hit :: back ∧
        (∀ a ∈ front, a.Valid p ∧ a.carries p marker = false) ∧ hit.Marked p marker ∧
        ∀ a ∈ back, p.Names a.name := by
  induction as with
  | nil => simp [carriesAfter]
  | cons a as ih =>
    rw [carriesAfter_false_cons, ih, carriesAfter_true, hits_iff]
    constructor
    · rintro (⟨ha, front, hit, back, rfl, hfront, hhit, hback⟩ | ⟨ha, -, has⟩)
      · obtain ⟨a, rfl, hvalid⟩ := exists_framed_of_passes ha
        exact ⟨a :: front, hit, back, rfl, List.forall_mem_cons.2 ⟨hvalid, hfront⟩, hhit, hback⟩
      · exact ⟨[], a, as, rfl, by simp, ha, has⟩
    · rintro ⟨front, hit, back, heq, hfront, hhit, hback⟩
      cases front with
      | nil =>
        obtain ⟨rfl, rfl⟩ := List.cons.inj heq
        exact .inr ⟨hhit, rfl, hback⟩
      | cons a' front =>
        obtain ⟨rfl, rfl⟩ := List.cons.inj heq
        obtain ⟨⟨hvalid, hc⟩, hfront⟩ := List.forall_mem_cons.1 hfront
        exact .inl ⟨passes_framed hvalid hc, front, hit, back, rfl, hfront, hhit, hback⟩

/-! ## Methods -/

theorem encode_framed (m : Method) :
    m.framed.encode Attribute.encode = m.encode MethodAttribute.encode := by
  simp only [Member.encode, Member.framed, Counted.encode, List.flatMap_map, List.length_map]
  rfl

theorem flatMap_encode_framed (ms : List Method) :
    (ms.map Member.framed).flatMap (Member.encode Attribute.encode) = encodeMethods ms := by
  rw [List.flatMap_map, encodeMethods]
  simp only [encode_framed]

/-- A method is passed over exactly if it is valid and does not carry the marker. -/
theorem exists_judged_false_iff {r : Member Attribute} :
    (∃ name, Judged p.table marker r name false) ↔
      ∃ m : Method, m.framed = r ∧ m.Valid p ∧ m.carries p marker = false := by
  constructor
  · rintro ⟨name, hname, hcarries⟩
    have hpass := carriesAfter_false_eq_false.1 hcarries
    obtain ⟨as, has, hvalid⟩ := exists_map_eq fun a ha => exists_framed_of_passes (hpass a ha)
    have hlt : as.length < 65536 := by
      rw [← List.length_map MethodAttribute.framed, has]
      exact r.attributes.length_lt
    refine ⟨⟨r.flags, r.name, r.type, as, hlt⟩, ?_, ?_, ?_⟩
    · simp [Member.framed, has]
    · exact ⟨⟨name, text_table_eq_ok.1 hname⟩, fun a ha => (hvalid a ha).1⟩
    · exact List.any_eq_false.2 fun a ha => by simpa using (hvalid a ha).2
  · rintro ⟨m, rfl, ⟨⟨name, hname⟩, hvalid⟩, hcarries⟩
    refine ⟨name, text_table_eq_ok.2 hname, carriesAfter_false_eq_false.2 fun r hr => ?_⟩
    obtain ⟨a, ha, rfl⟩ := List.mem_map.1 hr
    exact passes_framed (hvalid a ha) (by simpa using List.any_eq_false.1 hcarries a ha)

/-- A method is found exactly if its attributes come to one that lists the marker. -/
theorem judged_true_iff {r : Member Attribute} {name : Bytes} :
    Judged p.table marker r name true ↔ p.text? r.name = some name ∧ r.Marked p marker := by
  rw [Judged, text_table_eq_ok, carriesAfter_false_eq_true]
  rfl

theorem member_marked_framed {m : Method} (hm : m.Valid p) (hc : m.carries p marker = true) :
    m.framed.Marked p marker := by
  obtain ⟨front, hit, back, has, hfront, hhit⟩ := exists_first hc
  have hmem : ∀ a ∈ front ++ hit :: back, a.Valid p := has ▸ hm.2
  refine ⟨front, hit.framed, back.map MethodAttribute.framed, by simp [Member.framed, has], ?_,
    marked_framed (hmem hit (by simp)) hhit, ?_⟩
  · intro a ha
    exact ⟨hmem a (by simp [ha]), hfront a ha⟩
  · intro r hr
    obtain ⟨a, ha, rfl⟩ := List.mem_map.1 hr
    obtain ⟨text, htext, -⟩ := hmem a (by simp [ha])
    exact ⟨text, htext⟩

/-! ## Methods one behind the other -/

/-- The bytes without the marker are those of valid methods that do not carry it. -/
theorem found_none_iff {n : Nat} {w : Bytes} : Found p.table marker n w none ↔
    ∃ ms : List Method, ms.length = n ∧ (∀ m ∈ ms, m.Valid p ∧ m.carries p marker = false) ∧
      w = encodeMethods ms := by
  constructor
  · rintro ⟨rs, hlen, hrs, rfl⟩
    obtain ⟨ms, rfl, hms⟩ := exists_map_eq fun r hr => exists_judged_false_iff.1 (hrs r hr)
    exact ⟨ms, by rw [← hlen, List.length_map], hms, flatMap_encode_framed ms⟩
  · rintro ⟨ms, hlen, hms, rfl⟩
    refine ⟨ms.map Member.framed, by rw [List.length_map, hlen], fun r hr => ?_,
      (flatMap_encode_framed ms).symm⟩
    obtain ⟨m, hm, rfl⟩ := List.mem_map.1 hr
    exact exists_judged_false_iff.2 ⟨m, rfl, hms m hm⟩

/-- The bytes up to the marker are those of valid methods that do not carry it, and of one method
    behind them. -/
theorem found_some_iff {n : Nat} {w name : Bytes} : Found p.table marker n w (some name) ↔
    ∃ (ms : List Method) (r : Member Attribute), ms.length < n ∧
      (∀ m ∈ ms, m.Valid p ∧ m.carries p marker = false) ∧ p.text? r.name = some name ∧
      r.Marked p marker ∧ w = encodeMethods ms ++ r.encode Attribute.encode := by
  constructor
  · rintro ⟨rs, r, hlen, hrs, hr, rfl⟩
    obtain ⟨ms, rfl, hms⟩ := exists_map_eq fun r hr => exists_judged_false_iff.1 (hrs r hr)
    obtain ⟨hname, hmarked⟩ := judged_true_iff.1 hr
    exact ⟨ms, r, by rwa [List.length_map] at hlen, hms, hname, hmarked,
      by rw [flatMap_encode_framed]⟩
  · rintro ⟨ms, r, hlen, hms, hname, hmarked, rfl⟩
    refine ⟨ms.map Member.framed, r, by rwa [List.length_map], fun r' hr' => ?_,
      judged_true_iff.2 ⟨hname, hmarked⟩, by rw [flatMap_encode_framed]⟩
    obtain ⟨m, hm, rfl⟩ := List.mem_map.1 hr'
    exact exists_judged_false_iff.2 ⟨m, rfl, hms m hm⟩

end SourceRecovery.ClassFile
