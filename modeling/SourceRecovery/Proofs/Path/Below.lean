import SourceRecovery.Proofs.Path.Spelling

/-!
# Names below a path

What becomes of a path when names are joined to it, and what is left when they are taken away.

* `parent?_descend`: the path in front of the last name.
* `stripBase?_descend`, `stripBase?_self`: the names behind a path.
* `components_descend`, `components_ofPieces`: the components of both.
-/

namespace SourceRecovery.Path

variable {p : Path} {w : Name} {ws names : List Name}

/-! ## The path in front of a name -/

/-- A path without the pieces at its end that count for nothing. -/
def bare (p : Path) : Path :=
  ofFront (dropIdleEnd p.leadLength p.base)

theorem leadLength_le_base (hp : p.bytes ≠ []) : p.leadLength ≤ p.base.length := by
  have hpos := List.length_pos_iff.2 (base_ne_nil hp)
  rw [leadLength, lead_eq hp]
  split
  · exact hpos
  · split
    · exact hpos
    · exact Nat.zero_le _

theorem dropIdleEnd_concat {n : Nat} (hn : n ≤ ws.length) (hw : isIdle w = false) :
    dropIdleEnd n (ws ++ [w]) = ws ++ [w] := by
  have hidle : ¬ isIdle w = true := by simp [hw]
  rw [dropIdleEnd, List.drop_append_of_le_length hn, List.reverse_concat,
    List.dropWhile_cons_of_neg hidle, List.reverse_cons, List.reverse_reverse,
    List.take_append_of_le_length hn, ← List.append_assoc, List.take_append_drop]

theorem leadLength_descend (hp : p.bytes ≠ []) (hnames : ∀ w ∈ names, IsPlain w) :
    (p.descend names).leadLength = p.leadLength := by
  rw [leadLength, lead_descend hp hnames, leadLength]

/-- The path in front of the last name. -/
theorem parent?_descend (hp : p.bytes ≠ []) (hnames : ∀ v ∈ names, IsPlain v) (hw : IsPlain w) :
    (p.descend (names ++ [w])).parent? = some (p.descend names).bare := by
  have hall : ∀ v ∈ names ++ [w], IsPlain v := by
    intro v hv
    rcases List.mem_append.1 hv with hv | hv
    · exact hnames v hv
    · rw [List.mem_singleton.1 hv]
      exact hw
  have hle : p.leadLength ≤ (p.base ++ names).length := by
    have := leadLength_le_base hp
    rw [List.length_append]
    omega
  have hpieces : (p.descend (names ++ [w])).slashPieces = p.base ++ names ++ [w] := by
    rw [slashPieces_descend p hall (by simp), List.append_assoc]
  have hws : dropIdleEnd p.leadLength (p.base ++ names ++ [w]) = p.base ++ names ++ [w] :=
    dropIdleEnd_concat hle hw.isIdle
  simp only [parent?, leadLength_descend hp hall, hpieces, hws]
  rw [if_pos, List.dropLast_concat, bare, leadLength_descend hp hnames, base_descend p hnames]
  rw [List.length_append, List.length_singleton]
  omega

theorem bare_descend (hp : p.bytes ≠ []) (hnames : ∀ v ∈ names, IsPlain v) (hne : names ≠ []) :
    (p.descend names).bare = p.descend names := by
  rw [bare, leadLength_descend hp hnames]
  have hpieces := slashPieces_descend p hnames hne
  obtain ⟨front, w, rfl⟩ := exists_concat hne
  have hle : p.leadLength ≤ (p.base ++ front).length := by
    have := leadLength_le_base hp
    rw [List.length_append]
    omega
  rw [base_descend p hnames, ← List.append_assoc,
    dropIdleEnd_concat hle (hnames w (by simp)).isIdle, ofFront, if_neg, List.append_assoc,
    ← hpieces, ofPieces_slashPieces]
  rw [beq_iff_eq]
  intro h
  have hempty : w = [] := (List.append_singleton_inj.1 (show _ ++ [w] = [] ++ [[]] from h)).2
  exact (hnames w (by simp)).ne_empty hempty

/-! ## The names behind a path -/

theorem dropCounted_zero (ws : List Name) : dropCounted 0 ws = ws := by
  cases ws <;> rfl

/-- Behind the pieces that count there are at most pieces that do not. -/
theorem dropCounted_append (ws vs : List Name) :
    ∃ idle, (∀ v ∈ idle, isIdle v = true) ∧
      dropCounted (ws.filterMap componentOf?).length (ws ++ vs) = idle ++ vs := by
  induction ws with
  | nil => exact ⟨[], by simp, dropCounted_zero vs⟩
  | cons w ws ih =>
    obtain ⟨idle, hidle, heq⟩ := ih
    by_cases hw : isIdle w = true
    · have hcomp : componentOf? w = none := by simp [componentOf?, hw]
      rw [List.filterMap_cons_none hcomp]
      cases hk : (ws.filterMap componentOf?).length with
      | zero =>
        refine ⟨w :: ws, ?_, dropCounted_zero _⟩
        have hnone := List.filterMap_eq_nil_iff.1 (List.length_eq_zero_iff.1 hk)
        intro v hv
        rcases List.mem_cons.1 hv with rfl | hv
        · exact hw
        · have := hnone v hv
          rw [componentOf?] at this
          split at this
          · assumption
          · split at this <;> cases this
      | succ k =>
        refine ⟨idle, hidle, ?_⟩
        rw [List.cons_append, dropCounted, if_pos hw, ← heq, hk]
    · have hcomp : ∃ c, componentOf? w = some c := by
        rw [componentOf?, if_neg hw]
        split <;> exact ⟨_, rfl⟩
      obtain ⟨c, hc⟩ := hcomp
      refine ⟨idle, hidle, ?_⟩
      rw [List.filterMap_cons_some hc, List.length_cons, List.cons_append, dropCounted, if_neg hw, heq]

theorem filterMap_componentOf?_names (hnames : ∀ w ∈ names, IsPlain w) :
    names.filterMap componentOf? = names.map .name := by
  induction names with
  | nil => rfl
  | cons w names ih =>
    obtain ⟨hw, hnames'⟩ := List.forall_mem_cons.1 hnames
    rw [List.filterMap_cons_some hw.componentOf?, ih hnames', List.map_cons]

theorem components_descend (hp : p.bytes ≠ []) (hnames : ∀ w ∈ names, IsPlain w) :
    (p.descend names).components = p.components ++ names.map .name := by
  rw [components_eq, components_eq, lead_descend hp hnames, base_descend p hnames,
    List.filterMap_append, filterMap_componentOf?_names hnames, List.append_assoc]

/-- The pieces that a path begins with do not count among the others. -/
theorem filterMap_drop_leadLength (hp : p.bytes ≠ []) :
    (p.base.drop p.leadLength).filterMap componentOf? = p.base.filterMap componentOf? := by
  obtain ⟨v, vs, hbase⟩ := List.exists_cons_of_ne_nil (base_ne_nil hp)
  have hidle : v = [] ∨ v = [dot] → componentOf? v = none := by
    rintro (rfl | rfl) <;> rfl
  rw [leadLength, lead_eq hp, hbase, List.head?_cons]
  simp only [Option.some.injEq]
  split
  · rw [List.filterMap_cons_none (hidle (.inl ‹_›))]
    rfl
  · split
    · rw [List.filterMap_cons_none (hidle (.inr ‹_›))]
      rfl
    · rfl

theorem components_ne_nil (hp : p.bytes ≠ []) : p.components ≠ [] := by
  obtain ⟨v, vs, hbase⟩ := List.exists_cons_of_ne_nil (base_ne_nil hp)
  rw [components_eq, lead_eq hp, hbase, List.head?_cons]
  simp only [Option.some.injEq]
  split
  · simp
  · split
    · simp
    · have hidle : ¬ isIdle v = true := by simp [isIdle, *]
      have hcomp : ∃ c, componentOf? v = some c := by
        rw [componentOf?, if_neg hidle]
        split <;> exact ⟨_, rfl⟩
      obtain ⟨c, hc⟩ := hcomp
      rw [List.filterMap_cons_some hc]
      simp

theorem length_components_sub (hp : p.bytes ≠ []) : p.components.length - p.leadLength =
    ((p.base.drop p.leadLength).filterMap componentOf?).length := by
  rw [filterMap_drop_leadLength hp, components_eq, List.length_append, leadLength,
    Nat.add_sub_cancel_left]

/-- Behind a path, the names that were joined to it are left. -/
theorem stripBase?_descend (hp : p.bytes ≠ []) (hnames : ∀ w ∈ names, IsPlain w)
    (hne : names ≠ []) : p.stripBase? (p.descend names) = some (ofPieces names) := by
  obtain ⟨idle, hidle, hdrop⟩ := dropCounted_append (p.base.drop p.leadLength) names
  have hprefix : p.components.isPrefixOf (p.descend names).components = true := by
    rw [components_descend hp hnames, List.isPrefixOf_iff_prefix]
    exact List.prefix_append _ _
  have hempty : ¬ p.components.isEmpty = true := by simpa using components_ne_nil hp
  have hpieces : (p.descend names).slashPieces.drop p.leadLength =
      p.base.drop p.leadLength ++ names := by
    rw [slashPieces_descend p hnames hne, List.drop_append_of_le_length (leadLength_le_base hp)]
  have hend : dropIdleEnd 0 (idle ++ names) = idle ++ names := by
    obtain ⟨front, w, rfl⟩ := exists_concat hne
    rw [← List.append_assoc, dropIdleEnd_concat (Nat.zero_le _) (hnames w (by simp)).isIdle]
  have hfront : (idle ++ names).dropWhile isIdle = names := by
    obtain ⟨v, vs, rfl⟩ := List.exists_cons_of_ne_nil hne
    have hv : ¬ isIdle v = true := by simp [(hnames v (by simp)).isIdle]
    rw [List.dropWhile_append_of_pos hidle, List.dropWhile_cons_of_neg hv]
  simp only [stripBase?, hprefix, leadLength_descend hp hnames, length_components_sub hp,
    hpieces, hdrop, if_true,
    if_neg hempty, hend, hfront]

theorem dropIdleEnd_zero_eq_nil (h : ∀ w ∈ ws, isIdle w = true) : dropIdleEnd 0 ws = [] := by
  rw [dropIdleEnd, List.drop_zero, ← List.append_nil ws.reverse,
    List.dropWhile_append_of_pos fun w hw => h w (List.mem_reverse.1 hw)]
  rfl

theorem slashPieces_eq_base (p : Path) :
    ∃ idle, (∀ w ∈ idle, isIdle w = true) ∧ p.slashPieces = p.base ++ idle := by
  rw [base]
  split
  · rename_i hlast
    obtain ⟨ws, hws⟩ := List.getLast?_eq_some_iff.1 hlast
    exact ⟨[[]], by simp [isIdle], by rw [hws, List.dropLast_concat]⟩
  · exact ⟨[], by simp, (List.append_nil _).symm⟩

/-- Behind a path itself nothing is left. -/
theorem stripBase?_self (p : Path) : p.stripBase? p = some ⟨[]⟩ := by
  by_cases hp : p.bytes = []
  · obtain ⟨bytes⟩ := p
    obtain rfl : bytes = [] := hp
    rfl
  · have hprefix : p.components.isPrefixOf p.components = true := by simp
    have hempty : ¬ p.components.isEmpty = true := by simpa using components_ne_nil hp
    obtain ⟨idle, hidle, hpieces⟩ := slashPieces_eq_base p
    obtain ⟨idle', hidle', hdrop⟩ := dropCounted_append (p.base.drop p.leadLength) idle
    have hrest : dropIdleEnd 0 (idle' ++ idle) = [] :=
      dropIdleEnd_zero_eq_nil (List.forall_mem_append.2 ⟨hidle', hidle⟩)
    simp only [stripBase?, hprefix, if_true, if_neg hempty, length_components_sub hp, hpieces,
      List.drop_append_of_le_length (leadLength_le_base hp), hdrop, hrest]
    rfl

theorem bytes_ofPieces_ne_nil (hnames : ∀ w ∈ names, IsPlain w) (hne : names ≠ []) :
    (ofPieces names).bytes ≠ [] := by
  have hpieces : (ofPieces names).slashPieces = names :=
    slashPieces_ofPieces hne fun w hw => (hnames w hw).no_slash
  obtain ⟨v, vs, rfl⟩ := List.exists_cons_of_ne_nil hne
  intro h
  rw [slashPieces, h, List.splitOn_nil] at hpieces
  exact (hnames v (by simp)).ne_empty (List.cons.inj hpieces).1.symm

/-- The components of names one behind the other are these names. -/
theorem components_ofPieces (hnames : ∀ w ∈ names, IsPlain w) (hne : names ≠ []) :
    (ofPieces names).components = names.map .name := by
  have hpieces : (ofPieces names).slashPieces = names :=
    slashPieces_ofPieces hne fun w hw => (hnames w hw).no_slash
  obtain ⟨v, vs, rfl⟩ := List.exists_cons_of_ne_nil hne
  have hv := hnames v (by simp)
  have htext := bytes_ofPieces_ne_nil hnames hne
  have hrelative : (ofPieces (v :: vs)).isAbsolute = false := by
    rw [Bool.eq_false_iff]
    intro h
    have hhead := (isAbsolute_iff htext).1 h
    rw [head?_base htext, hpieces] at hhead
    exact hv.ne_empty (Option.some.inj hhead)
  have hhere : (ofPieces (v :: vs)).beginsHere = false := by
    simpa [beginsHere, hpieces] using hv.ne_here
  rw [components, lead, hrelative, hhere, hpieces, filterMap_componentOf?_names hnames]
  rfl

end SourceRecovery.Path
