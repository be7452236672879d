import SourceRecovery.Proofs.Path.Usable

/-!
# Paths joined to a path

What a relative path adds to the one that it is joined to: its pieces, and with them its components
and the steps that the system takes.

* `steps_join`, `origin_join`: the system walks the joined path on from the other one.
* `components_join`: so do the components go on.
* `StaysBelow`, `staysBelow_join`: a joined path adds names alone if it holds no `..`.
-/

namespace SourceRecovery.Path

variable {p q : Path} {w : Name} {ws : List Name}

/-! ## What is walked -/

theorem join_of_empty (hp : p.bytes = []) (hq : q.isAbsolute = false) : p.join q = q := by
  rw [join, if_neg (by simp [hq]), if_pos (by simp [hp]), hp, List.nil_append]

theorem head?_bytes_join (hp : p.bytes ≠ []) (hq : q.isAbsolute = false) :
    (p.join q).bytes.head? = p.bytes.head? := by
  obtain ⟨b, bs, hbs⟩ := List.exists_cons_of_ne_nil hp
  rw [bytes_join p hq, hbs]
  rfl

/-- A relative path begins where the one begins that it is joined to. -/
theorem isAbsolute_join (hq : q.isAbsolute = false) : (p.join q).isAbsolute = p.isAbsolute := by
  by_cases hp : p.bytes = []
  · rw [join_of_empty hp hq, hq, isAbsolute, hp]
    rfl
  · rw [isAbsolute, isAbsolute, head?_bytes_join hp hq]

theorem origin_join (hq : q.isAbsolute = false) (cwd : Address) :
    (p.join q).origin cwd = p.origin cwd := by
  rw [origin, origin, isAbsolute_join hq]

theorem steps_join (hq : q.isAbsolute = false) : (p.join q).steps = p.steps ++ q.steps := by
  rw [steps, slashPieces_join_relative p hq, List.filterMap_append, ← steps_eq]
  rfl

/-- Behind a path, the empty one adds a slash. -/
theorem endsInSlash_join_empty (hp : p.bytes ≠ []) : (p.join ⟨[]⟩).endsInSlash = true := by
  rw [endsInSlash, bytes_join p rfl, separator]
  split
  · rename_i hslash
    simpa [hp] using hslash
  · simp

/-- A relative path with no step is empty. -/
theorem bytes_eq_nil_of_steps (hq : q.isAbsolute = false) (hsteps : q.steps = []) :
    q.bytes = [] := by
  refine Classical.byContradiction fun hne => ?_
  obtain ⟨v, vs, hpieces⟩ := List.exists_cons_of_ne_nil (slashPieces_ne_nil q)
  have hv : v ≠ [] := by
    rintro rfl
    have habs : q.isAbsolute = true := by
      rw [isAbsolute_iff hne, head?_base hne, hpieces]
      rfl
    rw [hq] at habs
    cases habs
  have hstep : Step.ofPiece? v = none := by
    rw [steps, hpieces] at hsteps
    exact List.filterMap_eq_nil_iff.1 hsteps v List.mem_cons_self
  rw [Step.ofPiece?, if_neg (by simpa using hv)] at hstep
  split at hstep
  · cases hstep
  · split at hstep <;> cases hstep

/-! ## Components -/

theorem components_of_empty (hp : p.bytes = []) : p.components = [] := by
  obtain ⟨bytes⟩ := p
  obtain rfl : bytes = [] := hp
  rfl

theorem lead_join (hp : p.bytes ≠ []) (hq : q.isAbsolute = false) : (p.join q).lead = p.lead := by
  have hhere : (p.join q).beginsHere = p.beginsHere := by
    obtain ⟨v, vs, hbase⟩ := List.exists_cons_of_ne_nil (base_ne_nil hp)
    rw [beginsHere, beginsHere, slashPieces_join_relative p hq, ← head?_base hp, hbase]
    rfl
  rw [lead, lead, isAbsolute_join hq, hhere]

/-- The components of a joined path go on with its pieces. A dot that it begins with is one of them
    behind the empty path only. -/
theorem components_join (hq : q.isAbsolute = false) : (p.join q).components =
    p.components ++
      ((if p.bytes = [] then q.lead else []) ++ q.slashPieces.filterMap componentOf?) := by
  by_cases hp : p.bytes = []
  · rw [join_of_empty hp hq, components_of_empty hp, if_pos hp]
    rfl
  · rw [if_neg hp, components, lead_join hp hq, slashPieces_join_relative p hq,
      List.filterMap_append, ← List.append_assoc, ← components_eq]
    rfl

theorem of_mem_filterMap_componentOf? {c : Component} (h : c ∈ ws.filterMap componentOf?) :
    c = .up ∨ ∃ w, c = .name w := by
  obtain ⟨w, -, hw⟩ := List.mem_filterMap.1 h
  rw [componentOf?] at hw
  split at hw
  · cases hw
  · split at hw
    · exact .inl (Option.some.inj hw).symm
    · exact .inr ⟨w, (Option.some.inj hw).symm⟩

theorem eq_here_of_mem_lead {c : Component} (hq : q.isAbsolute = false) (h : c ∈ q.lead) :
    c = .here := by
  rw [lead, if_neg (by simp [hq])] at h
  split at h
  · exact List.mem_singleton.1 h
  · cases h

/-- Whether a path is another one, or that one with names alone behind it. -/
def StaysBelow (p root : Path) : Prop :=
  ∃ added, p.components = root.components ++ added ∧ ∀ c ∈ added, ∃ w, c = .name w

/-- A relative path adds names alone if it holds no `..`. Behind the empty path, a dot that it begins
    with stays, and is no name either. -/
theorem staysBelow_join (hq : q.isAbsolute = false) : (p.join q).StaysBelow p ↔
    .up ∉ q.components ∧ (p.bytes = [] → .here ∉ q.components) := by
  constructor
  · rintro ⟨added, hadded, hnames⟩
    rw [components_join hq] at hadded
    obtain rfl := List.append_cancel_left hadded
    have hup : .up ∉ q.slashPieces.filterMap componentOf? := by
      intro h
      obtain ⟨w, hw⟩ := hnames _ (List.mem_append_right _ h)
      cases hw
    refine ⟨?_, ?_⟩
    · intro h
      rcases List.mem_append.1 h with h | h
      · cases eq_here_of_mem_lead hq h
      · exact hup h
    · intro hp h
      rw [if_pos hp] at hnames
      obtain ⟨w, hw⟩ := hnames _ h
      cases hw
  · rintro ⟨hup, hhere⟩
    refine ⟨_, components_join hq, ?_⟩
    intro c hc
    rcases List.mem_append.1 hc with hc | hc
    · split at hc
      · rename_i hp
        rw [eq_here_of_mem_lead hq hc] at hc
        exact absurd (List.mem_append_left _ hc) (hhere hp)
      · cases hc
    · refine (of_mem_filterMap_componentOf? hc).resolve_left ?_
      rintro rfl
      exact hup (List.mem_append_right _ hc)

end SourceRecovery.Path
