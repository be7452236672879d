import Mathlib.Data.List.Nodup
import Mathlib.Data.List.Perm.Subperm
import SourceRecovery.Proofs.FileTree.NewFolders
import SourceRecovery.Proofs.Run.OutputTree
import SourceRecovery.Proofs.Run.Verdict

/-!
# What becomes of every unit

A run that succeeds has dropped or written every unit that its engine handed over. Two units of one
destination are written one over the other, and neither the ledger nor the count of the dropped ones
tells.

* `Accounts`: the record of an engine's units, the output folder and the account of the run agree.
* `accounts_onUnit`, `Accounts.perform`: one unit keeps them in agreement, and so does an engine.
* `perform_accounts`: as many files as units that were kept, if these have each a destination of their
  own; if not, fewer.
* `perform_overwrites`: a unit that is lost without a trace.
-/

namespace SourceRecovery.Run

variable {cwd root : Address} {output : Path} {t₀ t t' : FileTree} {s : Account} {u : SourceUnit}
  {record : Record} {marker : String} {settings : Settings}

/-! ## The record and the account -/

/-- The unit of an entry that tells of a file that was written. -/
def stored? : SourceUnit × Deposit → Option SourceUnit
  | (u, .stored _) => some u
  | _ => none

theorem filterMap_stored?_concat (record : Record) (u : SourceUnit) (d : Deposit) :
    (record ++ [(u, d)]).filterMap stored? = keptAfter (record.filterMap stored?) u d := by
  rw [List.filterMap_append]
  cases d with
  | stored file => rfl
  | blank => exact List.append_nil _
  | unusable => exact List.append_nil _
  | failed target cause => exact List.append_nil _

/-- Whether an entry tells of a unit what can become of it. -/
def IsJudged (output : Path) : SourceUnit × Deposit → Prop
  | (u, .blank) | (u, .unusable) => isDropped output u = true
  | (u, .failed _ _) | (u, .stored _) => isDropped output u = false

theorem isJudged_deposit (cwd : Address) (output : Path) (u : SourceUnit) (t : FileTree) :
    IsJudged output (u, (deposit cwd output u t).1) := by
  cases hdropped : isDropped output u with
  | true => rcases deposit_of_dropped hdropped t with hd | hd <;> rw [hd] <;> exact hdropped
  | false =>
    rcases deposit_of_not_dropped hdropped t with ⟨target, cause, hd⟩ | ⟨file, hd⟩ <;>
      rw [hd] <;> exact hdropped

/-- Whether the record of an engine's units, the tree and the account agree. -/
structure Accounts (cwd : Address) (output : Path) (root : Address) (t₀ : FileTree)
    (record : Record) (t : FileTree) (s : Account) : Prop where
  describes : Describes cwd output root t₀ (record.filterMap stored?) t s
  dropped : s.dropped = (record.map Prod.fst).countP (isDropped output)
  fault : s.fault = recordedFault record
  judged : ∀ e ∈ record, IsJudged output e

theorem accounts_start (h : t.Opens cwd output root)
    (hempty : ∀ a, root <+: a → a ≠ root → t.node? a = none) (events : List Event) :
    Accounts cwd output root t [] t (.start events) :=
  ⟨describes_start h hempty events, rfl, rfl, by simp⟩

theorem Accounts.tell (h : Accounts cwd output root t₀ record t s) (event : Event) :
    Accounts cwd output root t₀ record t (s.tell event) :=
  ⟨h.describes.grow (.refl root t) rfl, h.dropped, h.fault, h.judged⟩

/-- A unit is counted if it is dropped, and else the folder and the ledger tell of it. -/
theorem accounts_onUnit (h : Accounts cwd output root t₀ record t s) (u : SourceUnit) :
    Accounts cwd output root t₀ (record ++ [(u, (deposit cwd output u t).1)])
      (deposit cwd output u t).2 (s.enter u (deposit cwd output u t).1) := by
  have hjudged := isJudged_deposit cwd output u t
  refine ⟨?_, ?_, fault_enter h.fault _, ?_⟩
  · rw [filterMap_stored?_concat]
    exact describes_onUnit h.describes u
  · rw [List.map_append, List.countP_append, ← h.dropped, List.map_singleton, List.countP_singleton]
    generalize (deposit cwd output u t).1 = d at hjudged ⊢
    cases d with
    | blank =>
      have hdropped : isDropped output u = true := hjudged
      rw [hdropped]
      rfl
    | unusable =>
      have hdropped : isDropped output u = true := hjudged
      rw [hdropped]
      rfl
    | failed target cause =>
      have hkept : isDropped output u = false := hjudged
      rw [hkept]
      rfl
    | stored file =>
      have hkept : isDropped output u = false := hjudged
      rw [hkept]
      rfl
  · intro e he
    rcases List.mem_append.1 he with he | he
    · exact h.judged e he
    · rw [List.mem_singleton.1 he]
      exact hjudged

/-- Whatever an engine makes of the answers, its units are accounted for. -/
theorem Accounts.perform {α : Type} {course : Work α} (hcourse : LeavesFiles course)
    (h : Accounts cwd output root t₀ record t s) :
    Accounts cwd output root t₀ (course.perform (recorder cwd output) t record).2.2
      (course.perform (receiver cwd output) t s).2.1
      (course.perform (receiver cwd output) t s).2.2 := by
  induction hcourse generalizing record t s with
  | done value => exact h
  | note event _ ih => exact ih (h.tell event)
  | deliver u _ ih => exact ih (answer (deposit cwd output u t).1) (accounts_onUnit h u)

/-- Where no unit failed to be written, all are written but the dropped ones. -/
theorem filterMap_stored?_eq (hjudged : ∀ e ∈ record, IsJudged output e)
    (hnone : ∀ u target cause, (u, .failed target cause) ∉ record) :
    record.filterMap stored? = (record.map Prod.fst).filter fun u => !isDropped output u := by
  induction record with
  | nil => rfl
  | cons e record ih =>
    obtain ⟨he, hrest⟩ := List.forall_mem_cons.1 hjudged
    have hih := ih hrest fun u target cause hmem => hnone u target cause (List.mem_cons_of_mem e hmem)
    obtain ⟨u, d⟩ := e
    rw [List.map_cons]
    cases d with
    | blank =>
      have hdropped : isDropped output u = true := he
      rw [List.filterMap_cons_none rfl, hih, List.filter_cons_of_neg (by simp [hdropped])]
    | unusable =>
      have hdropped : isDropped output u = true := he
      rw [List.filterMap_cons_none rfl, hih, List.filter_cons_of_neg (by simp [hdropped])]
    | stored file =>
      have hkept : isDropped output u = false := he
      have hstored : stored? (u, .stored file) = some u := rfl
      rw [List.filterMap_cons_some hstored, hih, List.filter_cons_of_pos (by simp [hkept])]
    | failed target cause => exact absurd List.mem_cons_self (hnone u target cause)

/-! ## How many files there are -/

/-- A list in which nothing stands twice has at most as many elements as one that holds them all, and
    as many only if nothing stands twice in that one. -/
theorem length_of_same_members {α : Type} {l m : List α} (hl : l.Nodup) (h : ∀ x, x ∈ l ↔ x ∈ m) :
    l.length ≤ m.length ∧ (l.length = m.length ↔ m.Nodup) := by
  have hsub := hl.subperm fun x hx => (h x).1 hx
  refine ⟨hsub.length_le, fun hlen => ?_, fun hm => ?_⟩
  · exact (hsub.perm_of_length_le (Nat.le_of_eq hlen.symm)).nodup_iff.1 hl
  · have hsub' := hm.subperm fun x hx => (h x).2 hx
    exact Nat.le_antisymm hsub.length_le hsub'.length_le

/-- The path that the file of a unit is entered by. -/
def entryPath (u : SourceUnit) : String :=
  Path.shown (u.below?.getD [])

theorem Describes.mem_paths {kept : List SourceUnit} (h : Describes cwd output root t₀ kept t s)
    (hbelow : ∀ u ∈ kept, ∃ names, u.below? = some names) (path : String) :
    path ∈ s.written.map WrittenFile.path ↔ path ∈ kept.map entryPath := by
  rw [List.mem_map, List.mem_map]
  constructor
  · rintro ⟨f, hf, rfl⟩
    obtain ⟨names, content, hfile, rfl⟩ := (h.ledger f).1 hf
    obtain ⟨u, hlast, -⟩ := (h.files names content).1 hfile
    refine ⟨u, mem_of_lastInto hlast, ?_⟩
    rw [entryPath, below?_of_lastInto hlast]
    rfl
  · rintro ⟨u, hu, rfl⟩
    obtain ⟨names, hnames⟩ := hbelow u hu
    obtain ⟨content, hfile⟩ := h.exists_file hu hnames
    refine ⟨_, (h.ledger _).2 ⟨names, content, hfile, rfl⟩, ?_⟩
    rw [entryPath, hnames]
    rfl

/-- Units have one path if they have one destination. -/
theorem entryPath_eq_iff (hp : output.bytes ≠ []) {v : SourceUnit} {names names' : List Name}
    (hu : u.below? = some names) (hv : v.below? = some names') :
    entryPath u = entryPath v ↔ u.destination? output = v.destination? output := by
  obtain ⟨hne, hnames⟩ := SourceUnit.plain_of_below? hu
  obtain ⟨hne', hnames'⟩ := SourceUnit.plain_of_below? hv
  have hpath : entryPath u = entryPath v ↔ names = names' := by
    rw [entryPath, entryPath, hu, hv]
    refine ⟨fun h => ?_, fun h => by rw [h]⟩
    exact Path.shown_inj hne hne' hnames hnames' (SourceUnit.isText_of_below? hu)
      (SourceUnit.isText_of_below? hv) h
  rw [hpath, SourceUnit.destination?_eq, SourceUnit.destination?_eq, hu, hv]
  refine ⟨fun h => by rw [h], fun h => ?_⟩
  exact descend_inj hp hnames hnames' (Option.some.inj h)

/-- There are at most as many files as units were written, and as many only if each had a destination
    of its own. -/
theorem Describes.length_written {kept : List SourceUnit}
    (h : Describes cwd output root t₀ kept t s)
    (hbelow : ∀ u ∈ kept, ∃ names, u.below? = some names) :
    s.written.length ≤ kept.length ∧
      (s.written.length = kept.length ↔ (kept.map fun u => u.destination? output).Nodup) := by
  have hnodup : (s.written.map WrittenFile.path).Nodup := by
    rw [List.Nodup, List.pairwise_map]
    exact h.sorted.imp Text.ne_of_encode_lt
  have hcount := length_of_same_members hnodup (h.mem_paths hbelow)
  rw [List.length_map, List.length_map] at hcount
  refine ⟨hcount.1, hcount.2.trans ?_⟩
  rw [List.Nodup, List.Nodup, List.pairwise_map, List.pairwise_map]
  refine List.Pairwise.iff_of_mem fun hu hv => ?_
  obtain ⟨names, hnames⟩ := hbelow _ hu
  obtain ⟨names', hnames'⟩ := hbelow _ hv
  exact not_congr (entryPath_eq_iff h.opens.text_ne hnames hnames')

/-- A unit is the last of its destination if no other unit has that one. -/
theorem lastAt_of_nodup {kept : List SourceUnit} {target : Path}
    (hnodup : (kept.map fun u => u.destination? output).Nodup) (hu : u ∈ kept)
    (htarget : u.destination? output = some target) : lastAt output target kept = some u := by
  cases hlast : lastAt output target kept with
  | none =>
    have hother := List.find?_eq_none.1 hlast u (List.mem_reverse.2 hu)
    exact absurd (beq_iff_eq.2 htarget) hother
  | some v =>
    have hv : v ∈ kept := List.mem_reverse.1 (List.mem_of_find?_eq_some hlast)
    have hfound := List.find?_some hlast
    rw [List.inj_on_of_nodup_map hnodup hv hu ((beq_iff_eq.1 hfound).trans htarget.symm)]

/-! ## A whole run -/

/-- The outcome of a run tells how many class files it has listed, and which it has selected. -/
theorem PastReset.selection_of_ok {t₁ : FileTree} {files selected : List Path} {engine : Engine}
    {o : Outcome} (h : PastReset cwd settings t t₁ files)
    (hkept : (Selection.keepMarked t₁ cwd marker files).1 = .ok selected)
    (ho : (perform cwd marker engine settings t).result = .ok o) :
    o.scanned = files.length ∧ o.classes = selected := by
  by_cases hnil : selected = []
  · subst hnil
    rw [(h.perform_of_nil hkept engine).1] at ho
    rw [← Except.ok.inj ho]
    exact ⟨rfl, rfl⟩
  · obtain ⟨events, hend⟩ := h.perform_engages hkept hnil
    rw [(hend engine).1] at ho
    obtain ⟨-, -, rfl⟩ := settle_eq_ok.1 ho
    exact ⟨rfl, rfl⟩

/-- The units that an engine hands over to a run in the order of their coming; none if nothing is
    selected, as the engine is not called then. -/
def handedOver (cwd : Address) (engine : Engine) (settings : Settings) (t : FileTree)
    (selected : List Path) : List SourceUnit :=
  if selected.isEmpty then []
  else ((engine (requestFor settings selected)).perform (recorder cwd settings.output) t []).2.2.map
    Prod.fst

/-- A run that succeeds has accounted for all units of its engine. -/
theorem accounts_of_ok {engine : Engine} {o : Outcome}
    (hempty : (resetOutput t cwd settings.output).2.LeadsToEmpty cwd settings.output)
    (hengine : ∀ request, LeavesFiles (engine request))
    (h : (perform cwd marker engine settings t).result = .ok o) :
    ∃ root record s, Accounts cwd settings.output root (resetOutput t cwd settings.output).2 record
        (perform cwd marker engine settings t).tree s ∧
      record.map Prod.fst =
        handedOver cwd engine settings (resetOutput t cwd settings.output).2 o.classes ∧
      s.fault = none ∧ o.written = s.written ∧ o.dropped = s.dropped := by
  obtain ⟨t₁, files, selected, hpast, hkept⟩ := pastReset_of_ok h
  have htree : (resetOutput t cwd settings.output).2 = t₁ := by rw [hpast.reset]
  rw [(hpast.selection_of_ok hkept h).2, htree]
  rw [htree] at hempty
  obtain ⟨root, hroot, hbelow⟩ := hempty
  have hopens : t₁.Opens cwd settings.output root := FileTree.opens_of_empty hroot hbelow
  by_cases hnil : selected = []
  · subst hnil
    obtain ⟨hresult, hend, -⟩ := hpast.perform_of_nil hkept engine
    rw [hresult] at h
    rw [hend, ← Except.ok.inj h]
    exact ⟨root, [], .start [], accounts_start hopens hbelow [], rfl, rfl, rfl, rfl⟩
  · obtain ⟨events, hend⟩ := hpast.perform_engages hkept hnil
    rw [(hend engine).1] at h
    rw [(hend engine).2]
    have hsome : selected.isEmpty = false := by simpa using hnil
    refine ⟨root, _, _, (accounts_start hopens hbelow events).perform (hengine _), ?_, settle_ok h⟩
    rw [handedOver, hsome]
    rfl

theorem destination?_of_kept (h : isDropped output u = false) :
    ∃ target, u.destination? output = some target := by
  rw [isDropped, Bool.or_eq_false_iff, Option.isNone_eq_false_iff, Option.isSome_iff_exists] at h
  exact h.2

theorem below?_of_kept (h : isDropped output u = false) : ∃ names, u.below? = some names := by
  obtain ⟨target, htarget⟩ := destination?_of_kept h
  rw [SourceUnit.destination?_eq] at htarget
  obtain ⟨names, hnames, -⟩ := Option.map_eq_some_iff.1 htarget
  exact ⟨names, hnames⟩

/-- After a run that succeeds the output folder holds its units but the dropped ones, and these are
    counted. -/
theorem describes_of_ok {engine : Engine} {o : Outcome}
    (hempty : (resetOutput t cwd settings.output).2.LeadsToEmpty cwd settings.output)
    (hengine : ∀ request, LeavesFiles (engine request))
    (h : (perform cwd marker engine settings t).result = .ok o) :
    let units := handedOver cwd engine settings (resetOutput t cwd settings.output).2 o.classes
    let kept := units.filter fun u => !isDropped settings.output u
    ∃ root s, Describes cwd settings.output root (resetOutput t cwd settings.output).2 kept
        (perform cwd marker engine settings t).tree s ∧
      o.dropped + kept.length = units.length ∧ o.written.length ≤ kept.length ∧
      (o.written.length = kept.length ↔
        (kept.map fun u => u.destination? settings.output).Nodup) := by
  intro units kept
  obtain ⟨root, record, s, haccounts, hunits, hfault, hwritten, hdropped⟩ :=
    accounts_of_ok hempty hengine h
  have hnone := lastFailure?_eq_none.1 (Option.map_eq_none_iff.1 (haccounts.fault ▸ hfault))
  have hstored : record.filterMap stored? = kept := by
    rw [filterMap_stored?_eq haccounts.judged hnone, hunits]
  have hdescribes := haccounts.describes
  rw [hstored] at hdescribes
  have hcount : o.dropped + kept.length = units.length := by
    rw [hdropped, haccounts.dropped, hunits, List.countP_eq_length_filter]
    exact (List.length_eq_length_filter_add _).symm
  have hbelow : ∀ u ∈ kept, ∃ names, u.below? = some names := fun u hu =>
    below?_of_kept (by simpa using (List.mem_filter.1 hu).2)
  rw [hwritten]
  exact ⟨root, s, hdescribes, hcount, hdescribes.length_written hbelow⟩

/-- What becomes of the units of an engine that hands them over and leaves the files to a run that
    succeeds. The dropped ones are counted, and every other one is written. A destination holds what
    the last of its units says; so there are at most as many files as kept units, and as many only if
    no two of these have one destination, and then each of them has its own file. -/
theorem perform_accounts {engine : Engine} {o : Outcome}
    (hempty : (resetOutput t cwd settings.output).2.LeadsToEmpty cwd settings.output)
    (hengine : ∀ request, LeavesFiles (engine request))
    (h : (perform cwd marker engine settings t).result = .ok o) :
    let units := handedOver cwd engine settings (resetOutput t cwd settings.output).2 o.classes
    let kept := units.filter fun u => !isDropped settings.output u
    let destinations := kept.map fun u => u.destination? settings.output
    let t' := (perform cwd marker engine settings t).tree
    o.dropped + kept.length = units.length ∧
    (∀ target u, lastAt settings.output target kept = some u →
      t'.read cwd target = .ok (Text.encode u.content)) ∧
    o.written.length + o.dropped ≤ units.length ∧
    (o.written.length + o.dropped = units.length ↔ destinations.Nodup) ∧
    (destinations.Nodup → ∀ u ∈ kept, ∃ target, u.destination? settings.output = some target ∧
      t'.read cwd target = .ok (Text.encode u.content)) := by
  intro units kept destinations t'
  obtain ⟨root, s, hdescribes, hcount, hle, heq⟩ := describes_of_ok hempty hengine h
  change o.dropped + kept.length = units.length at hcount
  change o.written.length ≤ kept.length at hle
  change o.written.length = kept.length ↔ destinations.Nodup at heq
  refine ⟨hcount, fun target u hlast => hdescribes.read hlast, by omega, ?_, ?_⟩
  · rw [← heq]
    omega
  · intro hnodup u hu
    obtain ⟨target, htarget⟩ := destination?_of_kept (by simpa using (List.mem_filter.1 hu).2)
    exact ⟨target, htarget, hdescribes.read (lastAt_of_nodup hnodup hu htarget)⟩

/-! ## Units in a row -/

/-- Hands over some units, until one of them is refused. -/
def handOver : List SourceUnit → Work (Except Failure Unit)
  | [] => .done (.ok ())
  | u :: units => .deliver u fun
    | .error failure => .done (.error failure)
    | .ok () => handOver units

theorem leavesFiles_handOver (units : List SourceUnit) : LeavesFiles (handOver units) := by
  induction units with
  | nil => exact .done _
  | cons u units ih =>
    refine .deliver u fun answer => ?_
    cases answer with
    | error failure => exact .done _
    | ok _ => exact ih

theorem leadsToEmpty_oneClassReset : oneClassReset.LeadsToEmpty [] ⟨"out"⟩ := by
  refine ⟨["out"], by rfl, ?_⟩
  intro b hp hne
  have hnil : b ≠ [] := fun h => by simp [h] at hp
  have hinput : (["in"] : Address) ≠ b := fun h => by simp [← h] at hp
  have hclass : (["in", "A.class"] : Address) ≠ b := fun h => by simp [← h] at hp
  simp [FileTree.node?, hnil, oneClassReset, Ne.symm hne, hinput, hclass]

theorem handedOver_oneClass {units : List SourceUnit} {o : Outcome}
    (h : (perform [] "T" (fun _ => handOver units) ⟨⟨"in"⟩, ⟨"out"⟩, [], false⟩ oneClass).result =
      .ok o) :
    handedOver [] (fun _ => handOver units) ⟨⟨"in"⟩, ⟨"out"⟩, [], false⟩
      (resetOutput oneClass [] ⟨"out"⟩).2 o.classes =
        ((handOver units).perform (recorder [] ⟨"out"⟩) oneClassReset []).2.2.map Prod.fst := by
  rw [(pastReset_oneClass.selection_of_ok keepMarked_oneClassReset h).2]
  rfl

/-- Two units with destinations of their own, and a blank one. -/
def unitsApart : List SourceUnit :=
  [⟨"", some "a.B", "B.kt", "x"⟩, ⟨"", none, "C.kt", " "⟩, ⟨"b", none, "B.kt", "y"⟩]

theorem perform_accounts_unitsApart :
    ∃ o, (perform [] "T" (fun _ => handOver unitsApart) ⟨⟨"in"⟩, ⟨"out"⟩, [], false⟩ oneClass).result =
        .ok o ∧ o.written.length + o.dropped = 3 ∧
      (perform [] "T" (fun _ => handOver unitsApart) ⟨⟨"in"⟩, ⟨"out"⟩, [], false⟩ oneClass).tree.read []
        ⟨"out/b/B.kt"⟩ = .ok (Text.encode "y") := by
  obtain ⟨o, ho⟩ := perform_ok_of_oneClassReset (fun _ => handOver unitsApart) pastReset_oneClass
    (by decide +kernel)
  have hempty : (resetOutput oneClass [] ⟨"out"⟩).2.LeadsToEmpty [] ⟨"out"⟩ :=
    leadsToEmpty_oneClassReset
  have hunits : ((handOver unitsApart).perform (recorder [] ⟨"out"⟩) oneClassReset []).2.2.map
      Prod.fst = unitsApart := by
    decide +kernel
  obtain ⟨-, hread, -, hcount, -⟩ :=
    perform_accounts hempty (fun _ => leavesFiles_handOver unitsApart) ho
  rw [handedOver_oneClass ho, hunits] at hread hcount
  exact ⟨o, ho, hcount.2 (by decide +kernel), hread ⟨"out/b/B.kt"⟩ ⟨"b", none, "B.kt", "y"⟩
    (by decide +kernel)⟩

/-- Two units with one destination: the one by the name of its type, the other by its folder. -/
def unitsTogether : List SourceUnit :=
  [⟨"", some "a.B", "B.kt", "old"⟩, ⟨"a", none, "B.kt", "new"⟩]

/-- Neither of two units is dropped and the run succeeds, but the second one is written over the first:
    there are fewer files than units, and the first one is nowhere. -/
theorem perform_overwrites :
    let e := perform [] "T" (fun _ => handOver unitsTogether) ⟨⟨"in"⟩, ⟨"out"⟩, [], false⟩ oneClass
    (∀ u ∈ unitsTogether, isDropped ⟨"out"⟩ u = false) ∧
      (∃ o, e.result = .ok o ∧ handedOver [] (fun _ => handOver unitsTogether)
          ⟨⟨"in"⟩, ⟨"out"⟩, [], false⟩ oneClassReset o.classes = unitsTogether ∧
        o.written.length + o.dropped < unitsTogether.length) ∧
      e.tree.read [] ⟨"out/a/B.kt"⟩ = .ok (Text.encode "new") := by
  intro e
  obtain ⟨o, ho⟩ := perform_ok_of_oneClassReset (fun _ => handOver unitsTogether) pastReset_oneClass
    (by decide +kernel)
  have hempty : (resetOutput oneClass [] ⟨"out"⟩).2.LeadsToEmpty [] ⟨"out"⟩ :=
    leadsToEmpty_oneClassReset
  have hkept : ∀ u ∈ unitsTogether, isDropped ⟨"out"⟩ u = false := by decide +kernel
  have hunits : ((handOver unitsTogether).perform (recorder [] ⟨"out"⟩) oneClassReset []).2.2.map
      Prod.fst = unitsTogether := by
    decide +kernel
  have hhanded := (handedOver_oneClass ho).trans hunits
  obtain ⟨root, s, hdescribes, hcount, hle, heq⟩ :=
    describes_of_ok hempty (fun _ => leavesFiles_handOver unitsTogether) ho
  rw [hhanded] at hdescribes hcount hle heq
  refine ⟨hkept, ⟨o, ho, hhanded, ?_⟩, ?_⟩
  · have htwice : ¬ ((unitsTogether.filter fun u => !isDropped ⟨"out"⟩ u).map
        fun u => u.destination? ⟨"out"⟩).Nodup := by
      decide +kernel
    have hfewer := mt heq.1 htwice
    omega
  · exact hdescribes.read (u := ⟨"a", none, "B.kt", "new"⟩) (by decide +kernel)

end SourceRecovery.Run
