import SourceRecovery.Proofs.FileTree.Reach
import SourceRecovery.Proofs.Path.Below

/-!
# Names below a folder

Where a path leads when names are joined to one that leads to a folder.

* `steps_descend`: the names are entered behind the steps of the path.
* `Opens`: a path leads to a folder below which nothing is a link.
* `walkLinks_names`: from there, names lead to the address that they spell or nowhere.
* `resolve_descend`: so does the path with the names behind it.
-/

namespace SourceRecovery

/-! ## Steps of a path -/

namespace Path

variable {p q : Path} {w : Name} {ws names : List Name}

theorem ofPiece?_empty : Step.ofPiece? [] = none := rfl

theorem IsPlain.ofPiece? (h : IsPlain w) : Step.ofPiece? w = some (.enter w) := by
  simp [Step.ofPiece?, h.ne_empty, h.ne_here, h.ne_up]

/-- A name alone is entered. -/
theorem IsPlain.steps (h : IsPlain w) : (Path.mk w).steps = [.enter w] := by
  rw [Path.steps, h.slashPieces, List.filterMap_cons_some h.ofPiece?]
  rfl

theorem ofPiece?_of_isIdle (h : isIdle w = true) :
    Step.ofPiece? w = none ∨ Step.ofPiece? w = some .here := by
  rw [isIdle, Bool.or_eq_true, beq_iff_eq, beq_iff_eq] at h
  rcases h with rfl | rfl
  · exact .inl rfl
  · exact .inr rfl

theorem steps_eq (p : Path) : p.steps = p.base.filterMap Step.ofPiece? := by
  rw [steps, base]
  split
  · rename_i hlast
    obtain ⟨ws, hws⟩ := List.getLast?_eq_some_iff.1 hlast
    rw [hws, List.dropLast_concat, List.filterMap_append]
    simp [ofPiece?_empty]
  · rfl

theorem filterMap_ofPiece?_names (hnames : ∀ w ∈ names, IsPlain w) :
    names.filterMap Step.ofPiece? = names.map .enter := by
  induction names with
  | nil => rfl
  | cons w names ih =>
    obtain ⟨hw, hnames'⟩ := List.forall_mem_cons.1 hnames
    rw [List.filterMap_cons_some hw.ofPiece?, ih hnames', List.map_cons]

/-- Names are entered behind the steps of the path that they are joined to. -/
theorem steps_descend (p : Path) (hnames : ∀ w ∈ names, IsPlain w) :
    (p.descend names).steps = p.steps ++ names.map .enter := by
  rw [steps_eq, steps_eq, base_descend p hnames, List.filterMap_append,
    filterMap_ofPiece?_names hnames]

theorem origin_descend (hp : p.bytes ≠ []) (hnames : ∀ w ∈ names, IsPlain w) (cwd : Address) :
    (p.descend names).origin cwd = p.origin cwd := by
  rw [origin, origin, isAbsolute_descend hp hnames]

theorem endsInSlash_descend (p : Path) (hnames : ∀ w ∈ names, IsPlain w) (hne : names ≠ []) :
    (p.descend names).endsInSlash = false := by
  obtain ⟨front, w, rfl⟩ := exists_concat hne
  have hw := hnames w (by simp)
  rw [endsInSlash, beq_eq_false_iff_ne]
  intro h
  obtain ⟨cs, hcs⟩ := List.getLast?_eq_some_iff.1 h
  have hlast := slashPieces_of_slash hcs
  rw [slashPieces_descend p hnames hne, ← List.append_assoc] at hlast
  obtain ⟨-, hempty⟩ := List.append_inj' hlast rfl
  exact hw.ne_empty (List.singleton_inj.1 hempty)

/-! ## Steps of a bare path -/

theorem dropIdleEnd_append (n : Nat) (ws : List Name) :
    ∃ idle, (∀ w ∈ idle, isIdle w = true) ∧ ws = dropIdleEnd n ws ++ idle := by
  refine ⟨((ws.drop n).reverse.takeWhile isIdle).reverse, ?_, ?_⟩
  · intro w hw
    exact List.all_eq_true.1 List.all_takeWhile w (List.mem_reverse.1 hw)
  · rw [dropIdleEnd, List.append_assoc, ← List.reverse_append, List.takeWhile_append_dropWhile,
      List.reverse_reverse, List.take_append_drop]

theorem steps_ofFront (hws : ∀ w ∈ ws, slash ∉ w) :
    (ofFront ws).steps = ws.filterMap Step.ofPiece? := by
  rw [ofFront]
  split
  · rename_i h
    rw [beq_iff_eq.1 h]
    rfl
  · by_cases hne : ws = []
    · subst hne
      rfl
    · rw [steps, slashPieces_ofPieces hne hws]

theorem mem_slashPieces_of_mem_base (h : w ∈ p.base) : w ∈ p.slashPieces := by
  rw [base] at h
  split at h
  · exact (List.dropLast_prefix _).subset h
  · exact h

theorem mem_of_mem_dropIdleEnd {n : Nat} (h : w ∈ dropIdleEnd n ws) : w ∈ ws := by
  obtain ⟨idle, -, hws⟩ := dropIdleEnd_append n ws
  rw [hws]
  exact List.mem_append_left idle h

/-- A path has the steps of the bare one, and then at most dots. -/
theorem steps_bare (p : Path) :
    ∃ dots, (∀ s ∈ dots, s = Step.here) ∧ p.steps = p.bare.steps ++ dots := by
  obtain ⟨idle, hidle, hbase⟩ := dropIdleEnd_append p.leadLength p.base
  refine ⟨idle.filterMap Step.ofPiece?, ?_, ?_⟩
  · intro s hs
    obtain ⟨w, hw, hsome⟩ := List.mem_filterMap.1 hs
    rcases ofPiece?_of_isIdle (hidle w hw) with hnone | hhere
    · rw [hnone] at hsome
      cases hsome
    · rw [hhere] at hsome
      exact (Option.some.inj hsome).symm
  · rw [bare, steps_ofFront fun w hw => not_mem_of_mem_slashPieces
      (mem_slashPieces_of_mem_base (mem_of_mem_dropIdleEnd hw)), ← List.filterMap_append, ← hbase,
      steps_eq]

theorem head?_dropIdleEnd (hp : p.bytes ≠ []) :
    (dropIdleEnd p.leadLength p.base).head? = p.base.head? := by
  obtain ⟨idle, hidle, hbase⟩ := dropIdleEnd_append p.leadLength p.base
  cases hws : dropIdleEnd p.leadLength p.base with
  | cons v vs =>
    rw [hbase, hws]
    rfl
  | nil =>
    -- the first piece counts or belongs to the lead, so it is kept
    obtain ⟨v, vs, hv⟩ := List.exists_cons_of_ne_nil (base_ne_nil hp)
    have hlead : p.leadLength = 0 := by
      have hlen := congrArg List.length hws
      have hle := leadLength_le_base hp
      rw [dropIdleEnd, List.length_append, List.length_take, List.length_nil] at hlen
      omega
    have hvidle : isIdle v = true := by
      refine hidle v ?_
      rw [hws, hv, List.nil_append] at hbase
      rw [← hbase]
      exact List.mem_cons_self
    rw [leadLength, lead_eq hp, hv, List.head?_cons] at hlead
    simp only [isIdle, Bool.or_eq_true, beq_iff_eq] at hvidle
    rcases hvidle with rfl | rfl <;> simp at hlead

theorem ofFront_ne_empty (hne : ws ≠ []) (hws : ∀ w ∈ ws, slash ∉ w) :
    (ofFront ws).bytes ≠ [] := by
  rw [ofFront]
  split
  · simp
  · rename_i h
    have hpieces := slashPieces_ofPieces hne hws
    intro hempty
    rw [slashPieces, hempty, List.splitOn_nil] at hpieces
    exact h (beq_iff_eq.2 hpieces.symm)

theorem isAbsolute_ofFront (hne : ws ≠ []) (hws : ∀ w ∈ ws, slash ∉ w) :
    (ofFront ws).isAbsolute = true ↔ ws.head? = some [] := by
  have htext := ofFront_ne_empty hne hws
  rw [ofFront] at htext ⊢
  split at htext
  · rename_i h
    rw [if_pos h, beq_iff_eq.1 h]
    simp [isAbsolute]
  · rename_i h
    rw [if_neg h, isAbsolute_iff htext, head?_base htext, slashPieces_ofPieces hne hws]

theorem bare_pieces (hp : p.bytes ≠ []) : dropIdleEnd p.leadLength p.base ≠ [] ∧
    ∀ w ∈ dropIdleEnd p.leadLength p.base, slash ∉ w := by
  refine ⟨?_, fun w hw => not_mem_of_mem_slashPieces
    (mem_slashPieces_of_mem_base (mem_of_mem_dropIdleEnd hw))⟩
  intro hnil
  have hhead := head?_dropIdleEnd hp
  rw [hnil, List.head?_nil, eq_comm, List.head?_eq_none_iff] at hhead
  exact base_ne_nil hp hhead

theorem bare_ne_empty (hp : p.bytes ≠ []) : p.bare.bytes ≠ [] :=
  ofFront_ne_empty (bare_pieces hp).1 (bare_pieces hp).2

theorem isAbsolute_bare (hp : p.bytes ≠ []) : p.bare.isAbsolute = p.isAbsolute := by
  obtain ⟨hne, hslash⟩ := bare_pieces hp
  rw [Bool.eq_iff_iff, isAbsolute_iff hp, ← head?_dropIdleEnd hp, bare,
    isAbsolute_ofFront hne hslash]

/-- Of the paths that the system does not look at, only the empty one counts as missing. -/
theorem text_of_unusable? (h : p.unusable? = some .notFound) : p.bytes = [] := by
  rw [unusable?] at h
  split at h
  · cases h
  · split at h
    · exact beq_iff_eq.1 ‹_›
    · split at h <;> cases h

/-- What is entered on the way to the path in front of a path is entered on the way to the path. -/
theorem mem_steps_of_parent? (h : p.parent? = some q) {s : Step} (hs : s ∈ q.steps) :
    s ∈ p.steps := by
  simp only [parent?] at h
  split at h
  · have hmem : ∀ w ∈ dropIdleEnd p.leadLength
        (dropIdleEnd p.leadLength p.slashPieces).dropLast, w ∈ p.slashPieces := by
      intro w hw
      exact mem_of_mem_dropIdleEnd ((List.dropLast_prefix _).subset (mem_of_mem_dropIdleEnd hw))
    rw [← Option.some.inj h, steps_ofFront fun w hw => not_mem_of_mem_slashPieces (hmem w hw)] at hs
    obtain ⟨w, hw, hsome⟩ := List.mem_filterMap.1 hs
    exact List.mem_filterMap.2 ⟨w, hmem w hw, hsome⟩
  · split at h
    · rw [← Option.some.inj h] at hs
      cases hs
    · cases h

end Path

namespace FileTree

variable {t : FileTree} {cwd root : Address} {output : Path} {names : List Name} {links : Nat}
  {slash : Bool}

/-- Whether nothing at an address or below it is a link. -/
def Linkless (t : FileTree) (root : Address) : Prop :=
  ∀ a target, root <+: a → t.node? a ≠ some (.link target)

/-- Names below a folder without links lead to the address that they spell, to a place where a node
    could be put there, or nowhere. -/
theorem walkLinks_names (names : List Name) (links : Nat) (slash : Bool)
    (hlinkless : Linkless t root) (hroot : t.node? root = some .folder) :
    match walkLinks t true links root (names.map .enter) slash with
    | .ok (.taken a n) => a = root ++ names ∧ t.node? a = some n
    | .ok (.vacant a s) => a = root ++ names ∧ a ≠ [] ∧ s = slash ∧ t.node? a = none ∧
        t.node? a.dropLast = some .folder
    | .error _ => True := by
  induction names generalizing root with
  | nil =>
    rw [List.map_nil, walkLinks_nil, hroot, List.append_nil]
    exact ⟨rfl, hroot⟩
  | cons w names ih =>
    rw [List.map_cons]
    have hbelow : Linkless t (root ++ [w]) := fun a target h =>
      hlinkless a target ((List.prefix_append root [w]).trans h)
    by_cases hsize : w.length ≤ 255
    · cases hnode : t.node? (root ++ [w]) with
      | none =>
        rw [walkLinks_none hsize hnode]
        cases names with
        | nil => exact ⟨rfl, by simp, rfl, hnode, by rw [List.dropLast_concat]; exact hroot⟩
        | cons v names => trivial
      | some n =>
        cases n with
        | folder =>
          have hspell : root ++ w :: names = root ++ [w] ++ names := by simp
          rw [walkLinks_folder hsize hnode, hspell]
          exact ih hbelow hnode
        | file content =>
          rw [walkLinks_file hsize hnode]
          cases names with
          | nil =>
            cases slash
            · exact ⟨rfl, hnode⟩
            · trivial
          | cons v names => trivial
        | link target => exact absurd hnode (hlinkless _ target (List.prefix_append root [w]))
    · rw [walkLinks_tooLong (by omega)]
      trivial

/-- Names that lead anywhere are not too long. -/
theorem size_le_of_walkLinks_names {place : Place} (hlinkless : Linkless t root)
    (h : walkLinks t true links root (names.map .enter) slash = .ok place) :
    ∀ w ∈ names, w.length ≤ 255 := by
  induction names generalizing root with
  | nil =>
    intro w hw
    cases hw
  | cons w names ih =>
    rw [List.map_cons] at h
    have hbelow : Linkless t (root ++ [w]) := fun a target h =>
      hlinkless a target ((List.prefix_append root [w]).trans h)
    by_cases hsize : w.length ≤ 255
    · refine List.forall_mem_cons.2 ⟨hsize, ?_⟩
      have hend : (names.map Step.enter).isEmpty = true → ∀ v ∈ names, v.length ≤ 255 := by
        intro hempty v hv
        rw [List.isEmpty_iff, List.map_eq_nil_iff] at hempty
        rw [hempty] at hv
        cases hv
      cases hnode : t.node? (root ++ [w]) with
      | none =>
        rw [walkLinks_none hsize hnode] at h
        split at h
        · exact hend ‹_›
        · cases h
      | some n =>
        cases n with
        | folder =>
          rw [walkLinks_folder hsize hnode] at h
          exact ih hbelow h
        | file content =>
          rw [walkLinks_file hsize hnode] at h
          split at h
          · rename_i hcond
            rw [Bool.and_eq_true] at hcond
            exact hend hcond.1
          · cases h
        | link target => exact absurd hnode (hlinkless _ target (List.prefix_append root [w]))
    · rw [walkLinks_tooLong (by omega)] at h
      cases h

/-- A file below a folder is where its names lead. -/
theorem walkLinks_names_file {content : Bytes} (hsizes : ∀ w ∈ names, w.length ≤ 255)
    (hne : names ≠ []) (hfile : t.node? (root ++ names) = some (.file content)) :
    walkLinks t true links root (names.map .enter) false =
      .ok (.taken (root ++ names) (.file content)) := by
  induction names generalizing root with
  | nil => exact absurd rfl hne
  | cons w names ih =>
    obtain ⟨hw, hsizes'⟩ := List.forall_mem_cons.1 hsizes
    rw [List.append_cons] at hfile
    rw [List.map_cons, List.append_cons]
    by_cases hlast : names = []
    · subst hlast
      rw [List.append_nil] at hfile ⊢
      rw [walkLinks_file hw hfile]
      rfl
    · have hfolder : t.node? (root ++ [w]) = some .folder :=
        node?_above hfile (List.prefix_append _ _) (by simpa using hlast)
      rw [walkLinks_folder hw hfolder]
      exact ih hsizes' hlast hfile

/-- Whether a path leads to a folder below which nothing is a link. -/
structure Opens (t : FileTree) (cwd : Address) (output : Path) (root : Address) : Prop where
  text_ne : output.bytes ≠ []
  reaches : ∃ left, Reaches t linkLimit (output.origin cwd) output.steps left root
  linkless : Linkless t root

theorem Opens.node?_root (h : Opens t cwd output root) : t.node? root = some .folder := by
  obtain ⟨left, hleft⟩ := h.reaches
  exact hleft.node?_end

theorem reaches_of_stat {follow : Bool} (h : t.stat cwd follow output = .ok (root, .folder)) :
    output.bytes ≠ [] ∧ ∃ left, Reaches t linkLimit (output.origin cwd) output.steps left root := by
  obtain ⟨husable, hwalk⟩ := stat_eq_ok.1 h
  refine ⟨?_, reaches_of_walkLinks hwalk⟩
  intro hempty
  simp [Path.unusable?, hempty] at husable

/-- A path that leads to an empty folder opens it. -/
theorem opens_of_empty (h : t.stat cwd true output = .ok (root, .folder))
    (hempty : ∀ a, root <+: a → a ≠ root → t.node? a = none) : Opens t cwd output root := by
  obtain ⟨htext, left, hleft⟩ := reaches_of_stat h
  refine ⟨htext, ⟨left, hleft⟩, ?_⟩
  intro a target hp hlink
  by_cases ha : a = root
  · rw [ha, hleft.node?_end] at hlink
    cases hlink
  · rw [hempty a hp ha] at hlink
    cases hlink

/-- A path with names behind it leads on from where the path leads. -/
theorem resolve_descend (h : Opens t cwd output root) (hnames : ∀ w ∈ names, Path.IsPlain w)
    (hne : names ≠ []) (husable : (output.descend names).unusable? = none) :
    ∃ left, t.resolve cwd true (output.descend names) =
      walkLinks t true left root (names.map .enter) false := by
  obtain ⟨left, hleft⟩ := h.reaches
  refine ⟨left, ?_⟩
  rw [resolve, husable]
  show walkLinks t true linkLimit _ _ _ = _
  rw [Path.origin_descend h.text_ne hnames, Path.steps_descend output hnames,
    Path.endsInSlash_descend output hnames hne, walkLinks_append hleft]

end FileTree

end SourceRecovery
