import SourceRecovery.Proofs.FileTree.Descent

/-!
# Paths that the system looks at

The system looks at a path that is neither empty nor too long and holds no NUL.

* `Begins.usable`: it then looks at the paths that this one begins with, too.
* `usable_descend`: names behind a path keep it usable, if they leave it short enough.
* `join_ofPieces`: names can be joined to a path at once or one by one.
-/

namespace SourceRecovery.Path

variable {p q r : Path} {w : Name} {ws names : List Name}

/-! ## Usable paths -/

theorem unusable?_eq_none : p.unusable? = none ↔
    0 ∉ p.bytes ∧ p.bytes ≠ [] ∧ p.bytes.length < 4096 := by
  rw [unusable?]
  by_cases hnul : 0 ∈ p.bytes
  · simp [hnul]
  · by_cases hempty : p.bytes = []
    · simp [hempty]
    · by_cases hsize : 4096 ≤ p.bytes.length
      · simp [hnul, hempty, hsize]
      · simp [hnul, hempty, hsize, Nat.lt_of_not_le hsize]

/-- Whether a path begins with the bytes of another one. -/
def Begins (q p : Path) : Prop :=
  q.bytes <+: p.bytes

theorem Begins.refl (p : Path) : p.Begins p :=
  List.prefix_refl _

theorem Begins.trans (h : r.Begins q) (h' : q.Begins p) : r.Begins p :=
  List.IsPrefix.trans h h'

theorem Begins.usable (h : q.Begins p) (hq : q.bytes ≠ []) (hp : p.unusable? = none) :
    q.unusable? = none := by
  obtain ⟨hnul, -, hsize⟩ := unusable?_eq_none.1 hp
  exact unusable?_eq_none.2
    ⟨fun h0 => hnul (h.subset h0), hq, Nat.lt_of_le_of_lt h.length_le hsize⟩

/-! ## Names behind a path -/

/-- What stands between a path and one that is joined to it. -/
def separator (p : Path) : Bytes :=
  if p.bytes == [] || p.bytes.getLast? == some slash then [] else [slash]

theorem bytes_join (p : Path) (hq : q.isAbsolute = false) :
    (p.join q).bytes = p.bytes ++ p.separator ++ q.bytes := by
  rw [join, if_neg (by simp [hq]), separator]
  split <;> simp

theorem begins_join (p : Path) (hw : IsPlain w) : p.Begins (p.join ⟨w⟩) :=
  ⟨p.separator ++ w, by rw [bytes_join p hw.not_isAbsolute, List.append_assoc]⟩

theorem begins_descend (p : Path) (hnames : ∀ w ∈ names, IsPlain w) : p.Begins (p.descend names) := by
  induction names generalizing p with
  | nil => exact .refl p
  | cons w names ih =>
    obtain ⟨hw, hnames'⟩ := List.forall_mem_cons.1 hnames
    exact (begins_join p hw).trans (ih (p.join ⟨w⟩) hnames')

theorem not_mem_descend {b : UInt8} (hslash : b ≠ slash) (hp : b ∉ p.bytes)
    (hnames : ∀ w ∈ names, IsPlain w) (hb : ∀ w ∈ names, b ∉ w) :
    b ∉ (p.descend names).bytes := by
  induction names generalizing p with
  | nil => exact hp
  | cons w names ih =>
    obtain ⟨hw, hnames'⟩ := List.forall_mem_cons.1 hnames
    obtain ⟨hbw, hb'⟩ := List.forall_mem_cons.1 hb
    refine ih ?_ hnames' hb'
    rw [bytes_join p hw.not_isAbsolute, separator]
    split <;> simp [hp, hbw, hslash]

/-- Names keep a path usable, if it does not get too long by them. -/
theorem usable_descend (hp : p.unusable? = none) (hnames : ∀ w ∈ names, IsPlain w)
    (hnul : ∀ w ∈ names, 0 ∉ w)
    (hsize : (p.descend names).bytes.length < 4096) : (p.descend names).unusable? = none := by
  obtain ⟨hpnul, hempty, -⟩ := unusable?_eq_none.1 hp
  exact unusable?_eq_none.2
    ⟨not_mem_descend (by decide) hpnul hnames hnul, bytes_descend_ne_nil hempty hnames, hsize⟩

/-! ## Bare paths -/

/-- The path of some pieces begins with that of the first of them. -/
theorem begins_ofPieces (front rest : List Name) :
    (ofPieces front).Begins (ofPieces (front ++ rest)) := by
  by_cases hfront : front = []
  · rw [hfront]
    exact List.nil_prefix
  · by_cases hrest : rest = []
    · rw [hrest, List.append_nil]
      exact .refl _
    · refine ⟨[slash] ++ [slash].intercalate rest, ?_⟩
      simp only [ofPieces]
      rw [intercalate_append hfront hrest, List.append_assoc]

theorem base_prefix (p : Path) : p.base <+: p.slashPieces := by
  rw [base]
  split
  · exact List.dropLast_prefix _
  · exact List.prefix_refl _

theorem begins_bare (hp : p.bytes ≠ []) : p.bare.Begins p := by
  obtain ⟨idle, -, hbase⟩ := dropIdleEnd_append p.leadLength p.base
  rw [bare, ofFront]
  split
  · -- a path whose only piece is empty begins with a slash
    rename_i hroot
    have hhead : p.base.head? = some [] := by
      rw [hbase, beq_iff_eq.1 hroot]
      rfl
    have habs := (isAbsolute_iff hp).2 hhead
    rw [isAbsolute, beq_iff_eq, List.head?_eq_some_iff] at habs
    obtain ⟨bs, hbs⟩ := habs
    exact ⟨bs, hbs.symm⟩
  · obtain ⟨rest, hrest⟩ := base_prefix p
    have hall : ofPieces (dropIdleEnd p.leadLength p.base ++ (idle ++ rest)) = p := by
      rw [← List.append_assoc, ← hbase, hrest, ofPieces_slashPieces]
    have hbegins := begins_ofPieces (dropIdleEnd p.leadLength p.base) (idle ++ rest)
    rwa [hall] at hbegins

theorem usable_bare (hp : p.unusable? = none) : p.bare.unusable? = none := by
  have htext := (unusable?_eq_none.1 hp).2.1
  exact (begins_bare htext).usable (bare_ne_empty htext) hp

/-! ## Names at once -/

theorem bytes_ofPieces_cons (hne : names ≠ []) :
    (ofPieces (w :: names)).bytes = w ++ [slash] ++ (ofPieces names).bytes :=
  List.intercalate_cons_of_ne_nil hne

theorem not_isAbsolute_ofPieces (hw : IsPlain w) (ws : List Name) :
    (ofPieces (w :: ws)).isAbsolute = false := by
  obtain ⟨b, bs, rfl⟩ := List.exists_cons_of_ne_nil hw.ne_empty
  have hrelative := hw.not_isAbsolute
  rw [isAbsolute, ofPieces, List.intercalate_cons_cons_left]
  simpa [isAbsolute] using hrelative

theorem separator_join (p : Path) (hw : IsPlain w) : (p.join ⟨w⟩).separator = [slash] := by
  have hslash : (p.descend [w]).endsInSlash = false :=
    endsInSlash_descend p (by simpa using hw) (by simp)
  have hjoin : p.descend [w] = p.join ⟨w⟩ := rfl
  rw [hjoin, endsInSlash] at hslash
  rw [separator, if_neg]
  simpa [join_ne_empty p hw] using hslash

/-- Names can be joined to a path at once or one by one. -/
theorem join_ofPieces (p : Path) (hnames : ∀ w ∈ names, IsPlain w) (hne : names ≠ []) :
    p.join (ofPieces names) = p.descend names := by
  induction names generalizing p with
  | nil => exact absurd rfl hne
  | cons w names ih =>
    obtain ⟨hw, hnames'⟩ := List.forall_mem_cons.1 hnames
    show _ = (p.join ⟨w⟩).descend names
    by_cases hlast : names = []
    · rw [hlast, ofPieces, List.intercalate_singleton, descend_nil]
    · obtain ⟨v, vs, rfl⟩ := List.exists_cons_of_ne_nil hlast
      have hv : IsPlain v := hnames' v List.mem_cons_self
      rw [← ih (p.join ⟨w⟩) hnames' hlast, Path.mk.injEq,
        bytes_join p (not_isAbsolute_ofPieces hw _), bytes_ofPieces_cons hlast,
        bytes_join _ (not_isAbsolute_ofPieces hv vs), bytes_join p hw.not_isAbsolute,
        separator_join p hw]
      simp only [List.append_assoc]

end SourceRecovery.Path
