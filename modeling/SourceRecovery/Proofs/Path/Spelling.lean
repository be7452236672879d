import SourceRecovery.Path.Basic
import SourceRecovery.Proofs.Lists
import SourceRecovery.Proofs.Text.Pieces

/-!
# Spelling of paths

A path is told by its pieces, and the pieces of the paths that are built from it follow from its own.

* `slashPieces_ofPieces`, `ofPieces_slashPieces`: a path and its pieces tell each other.
* `base_descend`: names that are joined to a path stand behind its pieces.
* `lead_eq`: what a path begins with is told by its first piece.
-/

namespace SourceRecovery

namespace Path

variable {p q : Path} {w : Name} {ws names : List Name}

theorem slashPieces_ne_nil (p : Path) : p.slashPieces ≠ [] :=
  List.splitOnP_ne_nil _ _

/-- No piece of a path holds a slash. -/
theorem not_mem_of_mem_slashPieces (h : w ∈ p.slashPieces) : slash ∉ w := by
  intro hmem
  have := Text.not_of_mem_splitOnP h slash hmem
  simp at this

/-- A path is the one that its pieces spell. -/
theorem ofPieces_slashPieces (p : Path) : ofPieces p.slashPieces = p := by
  rw [ofPieces, slashPieces, List.intercalate_splitOn]

/-- Pieces without slashes are the pieces of the path that they spell. -/
theorem slashPieces_ofPieces (hne : ws ≠ []) (hws : ∀ w ∈ ws, slash ∉ w) :
    (ofPieces ws).slashPieces = ws :=
  List.splitOn_intercalate slash hws hne

/-- Names are told by the path that they spell. -/
theorem ofPieces_inj {vs : List Name} (hws : ws ≠ []) (hvs : vs ≠ [])
    (hw : ∀ w ∈ ws, slash ∉ w) (hv : ∀ v ∈ vs, slash ∉ v)
    (h : ofPieces ws = ofPieces vs) : ws = vs := by
  rw [← slashPieces_ofPieces hws hw, ← slashPieces_ofPieces hvs hv, h]

/-! ## Names -/

/-- Whether a text can be the name of a file or folder. -/
structure IsPlain (w : Name) : Prop where
  ne_empty : w ≠ []
  ne_here : w ≠ [dot]
  ne_up : w ≠ [dot, dot]
  no_slash : slash ∉ w

theorem isPlain_iff : IsPlain w ↔ w ≠ [] ∧ w ≠ [dot] ∧ w ≠ [dot, dot] ∧ slash ∉ w :=
  ⟨fun h => ⟨h.ne_empty, h.ne_here, h.ne_up, h.no_slash⟩, fun h => ⟨h.1, h.2.1, h.2.2.1, h.2.2.2⟩⟩

instance (w : Name) : Decidable (IsPlain w) :=
  decidable_of_iff _ isPlain_iff.symm

theorem IsPlain.isIdle (h : IsPlain w) : isIdle w = false := by
  simp [Path.isIdle, h.ne_empty, h.ne_here]

theorem IsPlain.componentOf? (h : IsPlain w) : componentOf? w = some (.name w) := by
  simp [Path.componentOf?, h.isIdle, h.ne_up]

theorem IsPlain.not_isAbsolute (h : IsPlain w) : (Path.mk w).isAbsolute = false := by
  cases w with
  | nil => exact absurd rfl h.ne_empty
  | cons b bs =>
    have hb : b ≠ slash := by
      rintro rfl
      exact h.no_slash List.mem_cons_self
    simpa [isAbsolute] using hb

/-! ## Joining names -/

/-- The pieces that stay in front of what is joined to a path: a slash at its end is the one in front
    of the name. -/
def base (p : Path) : List Name :=
  if p.slashPieces.getLast? = some [] then p.slashPieces.dropLast else p.slashPieces

theorem slashPieces_of_slash {bs : Bytes} (h : p.bytes = bs ++ [slash]) :
    p.slashPieces = bs.splitOn slash ++ [[]] := by
  rw [slashPieces, h, List.splitOn_append_cons_self, List.splitOn_nil]

theorem bytes_eq_intercalate (p : Path) : p.bytes = [slash].intercalate p.slashPieces :=
  (List.intercalate_splitOn slash).symm

/-- A path whose last piece is empty ends in a slash, unless it is empty. -/
theorem slash_of_getLast? (h : p.slashPieces.getLast? = some []) :
    p.bytes = [] ∨ p.bytes.getLast? = some slash := by
  obtain ⟨ws, hws⟩ := List.getLast?_eq_some_iff.1 h
  rw [bytes_eq_intercalate, hws]
  by_cases hnil : ws = []
  · left
    rw [hnil]
    rfl
  · right
    rw [intercalate_append hnil (by simp)]
    simp

/-- The pieces of a path that is joined to another one stand behind those that this one keeps. -/
theorem slashPieces_join_relative (p : Path) (hq : q.isAbsolute = false) :
    (p.join q).slashPieces = p.base ++ q.slashPieces := by
  have hrelative : ¬ q.isAbsolute = true := by simp [hq]
  by_cases hempty : p.bytes = []
  · have hp : p.slashPieces = [[]] := by
      rw [slashPieces, hempty, List.splitOn_nil]
    rw [join, if_neg hrelative, if_pos (by simp [hempty]), base, hp, hempty]
    rfl
  · by_cases hslash : p.bytes.getLast? = some slash
    · obtain ⟨bs, hbs⟩ := List.getLast?_eq_some_iff.1 hslash
      have hp := slashPieces_of_slash hbs
      rw [join, if_neg hrelative, if_pos (by simp [hslash]), base, hp, slashPieces, hbs,
        List.append_assoc, List.singleton_append, List.splitOn_append_cons_self]
      simp [slashPieces]
    · have hp : p.slashPieces.getLast? ≠ some [] := by
        intro h
        exact (slash_of_getLast? h).elim hempty hslash
      rw [join, if_neg hrelative, if_neg (by simp [hempty, hslash]), base, if_neg hp, slashPieces,
        List.splitOn_append_cons_self]
      rfl

theorem IsPlain.slashPieces (hw : IsPlain w) : (Path.mk w).slashPieces = [w] :=
  List.splitOn_eq_singleton hw.no_slash

theorem slashPieces_join (p : Path) (hw : IsPlain w) : (p.join ⟨w⟩).slashPieces = p.base ++ [w] := by
  rw [slashPieces_join_relative p hw.not_isAbsolute, hw.slashPieces]

theorem join_ne_empty (p : Path) (hw : IsPlain w) : (p.join ⟨w⟩).bytes ≠ [] := by
  intro h
  have hpieces := slashPieces_join p hw
  rw [slashPieces, h, List.splitOn_nil] at hpieces
  have hempty : [] = w := (List.append_singleton_inj.1 (show [] ++ [[]] = _ ++ [w] from hpieces)).2
  exact hw.ne_empty hempty.symm

theorem base_join (p : Path) (hw : IsPlain w) : (p.join ⟨w⟩).base = p.base ++ [w] := by
  rw [base, slashPieces_join p hw, if_neg]
  rw [List.getLast?_concat]
  intro h
  exact hw.ne_empty (Option.some.inj h)

theorem descend_nil (p : Path) : p.descend [] = p := rfl

theorem descend_concat (p : Path) (names : List Name) (w : Name) :
    p.descend (names ++ [w]) = (p.descend names).join ⟨w⟩ := by
  rw [descend, List.foldl_append]
  rfl

/-- Names that are joined to a path stand behind its pieces. -/
theorem base_descend (p : Path) (hnames : ∀ w ∈ names, IsPlain w) :
    (p.descend names).base = p.base ++ names := by
  induction names generalizing p with
  | nil => simp [descend]
  | cons w names ih =>
    obtain ⟨hw, hnames'⟩ := List.forall_mem_cons.1 hnames
    show ((p.join ⟨w⟩).descend names).base = _
    rw [ih (p.join ⟨w⟩) hnames', base_join p hw, List.append_assoc, List.singleton_append]

theorem exists_concat (hne : names ≠ []) : ∃ front w, names = front ++ [w] :=
  ⟨names.dropLast, names.getLast hne, (List.dropLast_concat_getLast hne).symm⟩

theorem slashPieces_descend (p : Path) (hnames : ∀ w ∈ names, IsPlain w) (hne : names ≠ []) :
    (p.descend names).slashPieces = p.base ++ names := by
  obtain ⟨front, w, rfl⟩ := exists_concat hne
  have hw : IsPlain w := hnames w (by simp)
  have hfront : ∀ v ∈ front, IsPlain v := fun v hv => hnames v (by simp [hv])
  rw [descend_concat, slashPieces_join _ hw, base_descend p hfront, List.append_assoc]

theorem descend_ne_empty (p : Path) (hnames : ∀ w ∈ names, IsPlain w) (hne : names ≠ []) :
    (p.descend names).bytes ≠ [] := by
  obtain ⟨front, w, rfl⟩ := exists_concat hne
  rw [descend_concat]
  exact join_ne_empty _ (hnames w (by simp))

/-! ## The beginning of a path -/

theorem base_ne_nil (hp : p.bytes ≠ []) : p.base ≠ [] := by
  rw [base]
  split
  · rename_i hlast
    obtain ⟨ws, hws⟩ := List.getLast?_eq_some_iff.1 hlast
    rw [hws, List.dropLast_concat]
    rintro rfl
    rw [← ofPieces_slashPieces p, hws] at hp
    exact hp rfl
  · exact slashPieces_ne_nil p

theorem head?_base (hp : p.bytes ≠ []) : p.base.head? = p.slashPieces.head? := by
  have hne := base_ne_nil hp
  by_cases hlast : p.slashPieces.getLast? = some []
  · obtain ⟨ws, hws⟩ := List.getLast?_eq_some_iff.1 hlast
    rw [base, if_pos hlast, hws, List.dropLast_concat] at hne ⊢
    obtain ⟨v, vs, rfl⟩ := List.exists_cons_of_ne_nil hne
    rfl
  · rw [base, if_neg hlast]

/-- A path is absolute if its first piece is empty, and not its only one. -/
theorem isAbsolute_iff (hp : p.bytes ≠ []) : p.isAbsolute = true ↔ p.base.head? = some [] := by
  rw [head?_base hp, isAbsolute, beq_iff_eq]
  have hslash : ∀ v ∈ p.slashPieces, slash ∉ v := fun v => not_mem_of_mem_slashPieces
  have hbytes := bytes_eq_intercalate p
  obtain ⟨v, vs, hpieces⟩ := List.exists_cons_of_ne_nil (slashPieces_ne_nil p)
  rw [hpieces] at hslash hbytes ⊢
  rw [List.head?_cons, Option.some.injEq]
  cases v with
  | nil =>
    cases vs with
    | nil => exact absurd (hbytes.trans rfl) hp
    | cons u us => simp [hbytes, List.intercalate_cons_cons]
  | cons b bs =>
    have hb : b ≠ slash := by
      rintro rfl
      exact hslash _ List.mem_cons_self List.mem_cons_self
    rw [hbytes]
    cases vs with
    | nil => simpa using hb
    | cons u us => simpa [List.intercalate_cons_cons] using hb

/-- What a path begins with is told by its first piece. -/
theorem lead_eq (hp : p.bytes ≠ []) : p.lead =
    if p.base.head? = some [] then [.root] else if p.base.head? = some [dot] then [.here] else [] := by
  have habs : p.isAbsolute = decide (p.base.head? = some []) := by
    rw [Bool.eq_iff_iff, isAbsolute_iff hp, decide_eq_true_iff]
  have hhere : p.beginsHere = decide (p.base.head? = some [dot]) := by
    rw [Bool.eq_iff_iff, beginsHere, beq_iff_eq, head?_base hp, decide_eq_true_iff]
  simp only [lead, habs, hhere, decide_eq_true_eq]

theorem components_eq (p : Path) :
    p.components = p.lead ++ p.base.filterMap componentOf? := by
  rw [components, base]
  split
  · rename_i hlast
    obtain ⟨ws, hws⟩ := List.getLast?_eq_some_iff.1 hlast
    rw [hws, List.dropLast_concat, List.filterMap_append]
    simp [componentOf?, isIdle]
  · rfl

theorem head?_base_descend (hp : p.bytes ≠ []) (hnames : ∀ w ∈ names, IsPlain w) :
    (p.descend names).base.head? = p.base.head? := by
  obtain ⟨v, vs, hbase⟩ := List.exists_cons_of_ne_nil (base_ne_nil hp)
  rw [base_descend p hnames, hbase]
  rfl

theorem bytes_descend_ne_nil (hp : p.bytes ≠ []) (hnames : ∀ w ∈ names, IsPlain w) :
    (p.descend names).bytes ≠ [] := by
  by_cases hne : names = []
  · rw [hne]
    exact hp
  · exact descend_ne_empty p hnames hne

theorem isAbsolute_descend (hp : p.bytes ≠ []) (hnames : ∀ w ∈ names, IsPlain w) :
    (p.descend names).isAbsolute = p.isAbsolute := by
  rw [Bool.eq_iff_iff, isAbsolute_iff hp, isAbsolute_iff (bytes_descend_ne_nil hp hnames),
    head?_base_descend hp hnames]

theorem lead_descend (hp : p.bytes ≠ []) (hnames : ∀ w ∈ names, IsPlain w) :
    (p.descend names).lead = p.lead := by
  rw [lead_eq hp, lead_eq (bytes_descend_ne_nil hp hnames), head?_base_descend hp hnames]

end Path

end SourceRecovery
