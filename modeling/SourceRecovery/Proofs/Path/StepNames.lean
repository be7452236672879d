import SourceRecovery.Proofs.Path.Join

/-!
# The names along a path

However a path is spelled, the system enters the names among its components, in their order.

* `stepNames_eq`: the names that are entered are those among the components.
* `bytes_eq_nil_of_components`: a relative path without components is empty.
-/

namespace SourceRecovery

/-- The name that a step enters. -/
def Step.name? : Step → Option Name
  | .enter w => some w
  | .here | .up => none

namespace Path

variable {p : Path} {w : Name} {names : List Name}

/-- The name that a component is. -/
def Component.name? : Component → Option Name
  | .name w => some w
  | .root | .here | .up => none

/-- The names that a path enters. -/
def stepNames (p : Path) : List Name :=
  p.steps.filterMap Step.name?

theorem isIdle_of_componentOf? (h : componentOf? w = none) : w = [] ∨ w = [dot] := by
  unfold componentOf? at h
  split at h
  · simpa [isIdle] using ‹isIdle w = true›
  · split at h <;> cases h

theorem name?_of_piece (w : Name) :
    (Step.ofPiece? w).bind Step.name? = (componentOf? w).bind Component.name? := by
  unfold Step.ofPiece? componentOf? isIdle
  by_cases hempty : w = []
  · simp [hempty]
  · by_cases hhere : w = [dot]
    · simp [hhere, Step.name?]
    · by_cases hup : w = [dot, dot]
      · simp [hup, Step.name?, Component.name?]
      · simp [hempty, hhere, hup, Step.name?, Component.name?]

/-- What a path begins with is no name. -/
theorem filterMap_lead (p : Path) : p.lead.filterMap Component.name? = [] := by
  unfold lead
  split
  · rfl
  · split <;> rfl

theorem stepNames_eq (p : Path) : p.stepNames = p.components.filterMap Component.name? := by
  rw [stepNames, steps, components, List.filterMap_append, filterMap_lead, List.nil_append,
    List.filterMap_filterMap, List.filterMap_filterMap]
  congr 1
  funext w
  exact name?_of_piece w

theorem stepNames_of_components (h : p.components = names.map .name) : p.stepNames = names := by
  rw [stepNames_eq, h, List.filterMap_map]
  exact List.filterMap_some

/-- A path of names alone has the names for its components. -/
theorem components_eq_names (h : ∀ c ∈ p.components, ∃ w, c = .name w) :
    p.components = p.stepNames.map .name := by
  rw [stepNames_eq]
  generalize p.components = components at h ⊢
  induction components with
  | nil => rfl
  | cons c components ih =>
    obtain ⟨hc, hrest⟩ := List.forall_mem_cons.1 h
    obtain ⟨w, rfl⟩ := hc
    exact congrArg (Component.name w :: ·) (ih hrest)

theorem bytes_eq_nil_of_components (hp : p.isAbsolute = false) (h : p.components = []) :
    p.bytes = [] := by
  refine Classical.byContradiction fun hne => ?_
  obtain ⟨v, vs, hpieces⟩ := List.exists_cons_of_ne_nil (slashPieces_ne_nil p)
  obtain ⟨hlead, hrest⟩ := List.append_eq_nil_iff.1 h
  have hnone : componentOf? v = none :=
    List.filterMap_eq_nil_iff.1 hrest v (by rw [hpieces]; exact List.mem_cons_self)
  -- the first piece of a relative path is not empty, and a dot there is a component
  rcases isIdle_of_componentOf? hnone with rfl | rfl
  · have habs : p.isAbsolute = true := by
      rw [isAbsolute_iff hne, head?_base hne, hpieces]
      rfl
    rw [hp] at habs
    cases habs
  · rw [lead, if_neg (by simp [hp]), beginsHere, hpieces] at hlead
    cases hlead

end Path

end SourceRecovery
