import SourceRecovery.Run.Basic

/-!
# The record of an engine's units

What an engine makes of a run, apart from its account: the units that it handed over in their order,
each with what became of it.

* `recorder`: receives the units of an engine as a run does, and keeps the record of them.
* `perform_receiver`: the account of a run follows that record, whatever the engine does.
* `destination_of_record`: a unit that could not be written was on its way to its destination.
* `perform_told`: what was told before an engine works makes no difference to its work.
-/

namespace SourceRecovery.Run

variable {t : FileTree} {cwd : Address} {output target : Path} {cause : IoFault} {u : SourceUnit}

/-! ## The record of the units -/

/-- The units that an engine handed over, in their order, each with what became of it. -/
abbrev Record := List (SourceUnit × Deposit)

/-- Takes the units of an engine as a run does, and keeps nothing but the record of them. -/
def recorder (cwd : Address) (output : Path) : Work.Receiver Record where
  onEvent _ record := record
  onUnit u t record :=
    let (d, t) := deposit cwd output u t
    (answer d, t, record ++ [(u, d)])

/-- A unit that could not be written, and why. -/
def failure? : SourceUnit × Deposit → Option (SourceUnit × Path × IoFault)
  | (u, .failed target cause) => some (u, target, cause)
  | _ => none

/-- The last unit of a record that could not be written. -/
def lastFailure? (record : Record) : Option (SourceUnit × Path × IoFault) :=
  (record.filterMap failure?).getLast?

theorem failure?_eq_some {e : SourceUnit × Deposit} :
    failure? e = some (u, target, cause) ↔ e = (u, .failed target cause) := by
  obtain ⟨v, d⟩ := e
  cases d <;> simp [failure?]

theorem mem_of_lastFailure? {record : Record} (h : lastFailure? record = some (u, target, cause)) :
    (u, .failed target cause) ∈ record := by
  obtain ⟨e, he, hfailed⟩ := List.mem_filterMap.1 (List.mem_of_getLast? h)
  rwa [failure?_eq_some.1 hfailed] at he

theorem lastFailure?_eq_none {record : Record} :
    lastFailure? record = none ↔ ∀ u target cause, (u, .failed target cause) ∉ record := by
  rw [lastFailure?, List.getLast?_eq_none_iff, List.filterMap_eq_nil_iff]
  constructor
  · intro h u target cause hmem
    cases h _ hmem
  · rintro h ⟨u, d⟩ hmem
    cases d with
    | failed target cause => exact absurd hmem (h u target cause)
    | blank => rfl
    | unusable => rfl
    | stored file => rfl

/-- A unit that could not be written was on its way to its destination. -/
theorem destination_of_failed (h : (deposit cwd output u t).1 = .failed target cause) :
    u.destination? output = some target := by
  unfold deposit at h
  split at h
  · cases h
  · cases hdestination : u.destination? output with
    | none =>
      rw [hdestination] at h
      cases h
    | some found =>
      rw [hdestination] at h
      simp only at h
      split at h
      · rw [(Deposit.failed.inj h).1]
      · split at h
        · rw [(Deposit.failed.inj h).1]
        · cases h

/-- The error that a run ends with after a record, if a unit could not be written. -/
def recordedFault (record : Record) : Option RunError :=
  (lastFailure? record).map fun e => .outputWrite e.2.1 e.2.2

theorem lastFailure?_concat (record : Record) (e : SourceUnit × Deposit) :
    lastFailure? (record ++ [e]) = (failure? e).or (lastFailure? record) := by
  rw [lastFailure?, List.filterMap_append, List.getLast?_append]
  cases hfailed : failure? e <;> simp [lastFailure?, hfailed]

/-- One more unit has the same effect on the account of a run as on the record. -/
theorem fault_enter {s : Account} {record : Record} (h : s.fault = recordedFault record)
    (d : Deposit) : (s.enter u d).fault = recordedFault (record ++ [(u, d)]) := by
  rw [recordedFault, lastFailure?_concat]
  cases d with
  | failed target cause => rfl
  | blank => exact h
  | unusable => exact h
  | stored file => exact h

/-- However an engine goes on, the account of a run follows the record of its units. -/
theorem perform_receiver {α : Type} (cwd : Address) (output : Path) (course : Work α) (t : FileTree)
    {s : Account} {record : Record} (h : s.fault = recordedFault record) :
    (course.perform (receiver cwd output) t s).1 = (course.perform (recorder cwd output) t record).1 ∧
    (course.perform (receiver cwd output) t s).2.1 =
      (course.perform (recorder cwd output) t record).2.1 ∧
    (course.perform (receiver cwd output) t s).2.2.fault =
      recordedFault (course.perform (recorder cwd output) t record).2.2 := by
  induction course generalizing t s record with
  | done value => exact ⟨rfl, rfl, h⟩
  | note event rest ih => exact ih t (s := s.tell event) h
  | files change rest ih => exact ih t (change t) h
  | deliver u rest ih => exact ih _ _ (fault_enter h _)

/-- Every unit of a record that could not be written is kept with its destination. -/
theorem destination_of_record {α : Type} (cwd : Address) (course : Work α) (t : FileTree)
    {record : Record}
    (h : ∀ u target cause, (u, .failed target cause) ∈ record → u.destination? output = some target) :
    ∀ u target cause, (u, .failed target cause) ∈ (course.perform (recorder cwd output) t record).2.2 →
      u.destination? output = some target := by
  induction course generalizing t record with
  | done value => exact h
  | note event rest ih => exact ih t h
  | files change rest ih => exact ih t (change t) h
  | deliver u rest ih =>
    refine ih _ _ ?_
    intro v target cause hmem
    rcases List.mem_append.1 hmem with hmem | hmem
    · exact h v target cause hmem
    · obtain ⟨rfl, hd⟩ := Prod.mk.inj (List.mem_singleton.1 hmem)
      exact destination_of_failed hd.symm

/-! ## What is told -/

/-- What is told of a unit. -/
def toldOf (u : SourceUnit) : Deposit → List Event
  | .blank => [.blankDropped u.entryName]
  | .unusable => [.unusableDropped u.entryName]
  | .failed _ _ | .stored _ => []

theorem enter_events (s : Account) (u : SourceUnit) (d : Deposit) (before : List Event) :
    { s with events := before }.enter u d =
      { s.enter u d with events := before ++ toldOf u d } := by
  cases d <;> simp [Account.enter, Account.tell, toldOf]

/-- What was told before an engine works makes no difference to its work, and what it tells stands
    behind that. -/
theorem perform_told {α : Type} (cwd : Address) (output : Path) (course : Work α) (t : FileTree)
    (s : Account) :
    ∃ told, ∀ before, course.perform (receiver cwd output) t { s with events := before } =
      ((course.perform (receiver cwd output) t s).1,
        (course.perform (receiver cwd output) t s).2.1,
        { (course.perform (receiver cwd output) t s).2.2 with events := before ++ told }) := by
  induction course generalizing t s with
  | done value =>
    refine ⟨[], fun before => ?_⟩
    rw [List.append_nil]
    rfl
  | note event rest ih =>
    obtain ⟨told, htold⟩ := ih t (s.tell event)
    refine ⟨event :: told, fun before => ?_⟩
    rw [List.append_cons]
    exact htold (before ++ [event])
  | files change rest ih => exact ih t (change t) s
  | deliver u rest ih =>
    let d := (deposit cwd output u t).1
    obtain ⟨told, htold⟩ := ih (answer d) (deposit cwd output u t).2 (s.enter u d)
    refine ⟨toldOf u d ++ told, fun before => ?_⟩
    have hrest := htold (before ++ toldOf u d)
    rw [← enter_events, List.append_assoc] at hrest
    exact hrest

/-- An engine that first tells of what it is asked for, and then does what another one does. -/
def noting (mark : Request → Event) (engine : Engine) : Engine :=
  fun request => .note (mark request) (engine request)

end SourceRecovery.Run
