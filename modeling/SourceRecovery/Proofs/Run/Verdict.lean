import SourceRecovery.Proofs.ClassFile.Scan
import SourceRecovery.Proofs.Run.Record
import SourceRecovery.Proofs.Selection

/-!
# How a run ends

A run that gets past the reset of the output folder ends in one of three ways: at the first class
file that cannot be scanned, at an empty selection, or as the engine and the units it handed over
decide. What the engine makes of the answers to its units counts for nothing against a unit that
could not be written.

* `Decided`: the end of a run that called its engine, by the record of the units.
* `engage_decides`, `engage_noting`: the call of an engine ends so, and there is one.
* `perform_of_fixed`: a run that ends alike for every engine has not called its own.
* `perform_decides`: which of the ways it is, for every engine.
-/

namespace SourceRecovery.Run

open Selection (Scans isMarked keepMarked_of_scans keepMarked_of_fault)

variable {t t₁ : FileTree} {cwd : Address} {marker : String} {output : Path} {files : List Path}
  {settings : Settings} {ended : Except Failure Unit}

/-! ## What the engine decides -/

/-- How a run that called its engine ends: a unit that could not be written comes before whatever the
    engine returned, and the last such unit is the one that is told of. -/
structure Decided (output : Path) (record : Record) (ended : Except Failure Unit)
    (result : Except RunError Outcome) : Prop where
  outputWrite : ∀ target cause, result = .error (.outputWrite target cause) ↔
    ∃ u, lastFailure? record = some (u, target, cause)
  outputWrite_iff : (∃ target cause, result = .error (.outputWrite target cause)) ↔
    ∃ u target cause, (u, .failed target cause) ∈ record
  destination : ∀ u target cause, (u, .failed target cause) ∈ record →
    u.destination? output = some target
  engine : ∀ failure, result = .error (.engine failure) ↔
    (∀ u target cause, (u, .failed target cause) ∉ record) ∧ ended = .error failure
  ok : (∃ outcome, result = .ok outcome) ↔
    (∀ u target cause, (u, .failed target cause) ∉ record) ∧ ended = .ok ()

/-- What the engine decides is one of three ends. -/
theorem Decided.result_cases {record : Record} {result : Except RunError Outcome}
    (h : Decided output record ended result) :
    (∃ target cause, result = .error (.outputWrite target cause)) ∨
      (∃ failure, result = .error (.engine failure)) ∨ ∃ outcome, result = .ok outcome := by
  by_cases hfailed : ∃ u target cause, (u, .failed target cause) ∈ record
  · exact .inl (h.outputWrite_iff.2 hfailed)
  · have hnone : ∀ u target cause, (u, .failed target cause) ∉ record := fun u target cause hmem =>
      hfailed ⟨u, target, cause, hmem⟩
    cases ended with
    | error failure => exact .inr (.inl ⟨failure, (h.engine failure).2 ⟨hnone, rfl⟩⟩)
    | ok _ => exact .inr (.inr (h.ok.2 ⟨hnone, rfl⟩))

theorem decided_settle {record : Record} {s : Account} (outcome : Outcome)
    (ended : Except Failure Unit) (hfault : s.fault = recordedFault record)
    (hdestination : ∀ u target cause, (u, .failed target cause) ∈ record →
      u.destination? output = some target) :
    Decided output record ended (settle outcome ended s) := by
  cases hlast : lastFailure? record with
  | none =>
    have hnone := lastFailure?_eq_none.1 hlast
    rw [recordedFault, hlast, Option.map_none] at hfault
    cases ended with
    | error failure =>
      have hresult : settle outcome (.error failure) s = .error (.engine failure) := by
        simp only [settle, hfault]
      constructor <;> simp [hresult, hlast, hnone]
    | ok _ =>
      have hresult : settle outcome (.ok ()) s =
          .ok { outcome with written := s.written, dropped := s.dropped } := by
        simp only [settle, hfault]
      constructor <;> simp [hresult, hlast, hnone]
  | some e =>
    obtain ⟨u, target, cause⟩ := e
    have hmem := mem_of_lastFailure? hlast
    have hsome : ¬ ∀ u target cause, (u, .failed target cause) ∉ record := fun h =>
      h u target cause hmem
    have hresult : settle outcome ended s = .error (.outputWrite target cause) := by
      rw [recordedFault, hlast, Option.map_some] at hfault
      simp only [settle, hfault]
    refine ⟨?_, ?_, hdestination, ?_, ?_⟩
    · intro target' cause'
      rw [hresult, hlast]
      simp
    · rw [hresult]
      exact ⟨fun _ => ⟨u, target, cause, hmem⟩, fun _ => ⟨target, cause, rfl⟩⟩
    · intro failure
      rw [hresult]
      simp [hsome]
    · rw [hresult]
      simp [hsome]

/-- What the engine of a run is asked for, once these files are selected. -/
def requestFor (settings : Settings) (selected : List Path) : Request :=
  ⟨settings.input, selected, settings.libraries, settings.kotlin⟩

/-- What is told at the end of a run that called its engine. -/
def closing (settings : Settings) : Except RunError Outcome → List Event
  | .ok o => [.finished settings.output o.written.length o.dropped]
  | .error _ => []

theorem engage_eq (cwd : Address) (engine : Engine) (settings : Settings) (outcome : Outcome)
    (t : FileTree) (events : List Event) :
    engage cwd engine settings outcome t events =
      let (ended, t', s) := (engine (requestFor settings outcome.classes)).perform
        (receiver cwd settings.output) t (.start events)
      ⟨settle outcome ended s, t', s.events ++ closing settings (settle outcome ended s)⟩ := by
  simp only [engage, requestFor]
  split
  · rename_i o hresult
    rw [hresult]
    rfl
  · rename_i e hresult
    rw [hresult, closing, List.append_nil]

/-- An engine that first tells of what it is asked for does so once, and to the same end. -/
theorem engage_noting (cwd : Address) (engine : Engine) (mark : Request → Event)
    (settings : Settings) (outcome : Outcome) (t : FileTree) (events : List Event) :
    ∃ after, (engage cwd engine settings outcome t events).events = events ++ after ∧
      engage cwd (noting mark engine) settings outcome t events =
        ⟨(engage cwd engine settings outcome t events).result,
          (engage cwd engine settings outcome t events).tree,
          events ++ mark (requestFor settings outcome.classes) :: after⟩ := by
  let request := requestFor settings outcome.classes
  obtain ⟨told, htold⟩ :=
    perform_told cwd settings.output (engine request) t (.start [])
  have hengine : (engine request).perform (receiver cwd settings.output) t (.start events) = _ :=
    htold events
  have hnoting : (noting mark engine request).perform (receiver cwd settings.output) t
      (.start events) = _ := htold (events ++ [mark request])
  rw [engage_eq, engage_eq, hengine, hnoting]
  refine ⟨told ++ closing settings _, List.append_assoc .., ?_⟩
  simp only [List.append_assoc, List.singleton_append]
  rfl

/-- The engine and the units it hands over decide how the call of an engine ends. -/
theorem engage_decides (cwd : Address) (engine : Engine) (settings : Settings) (outcome : Outcome)
    (t : FileTree) (events : List Event) :
    let course := engine (requestFor settings outcome.classes)
    let record := course.perform (recorder cwd settings.output) t []
    (engage cwd engine settings outcome t events).tree = record.2.1 ∧
      Decided settings.output record.2.2 record.1
        (engage cwd engine settings outcome t events).result := by
  intro course record
  have hstart : (Account.start events).fault = recordedFault [] := rfl
  obtain ⟨hended, htree, hfault⟩ := perform_receiver cwd settings.output course t hstart
  have hdestination : ∀ u target cause, (u, .failed target cause) ∈ record.2.2 →
      u.destination? settings.output = some target :=
    destination_of_record cwd course t (by simp)
  rw [engage_eq, ← hended, ← htree]
  exact ⟨rfl, decided_settle outcome _ hfault hdestination⟩

/-! ## The whole run -/

theorem perform_result (cwd : Address) (marker : String) (engine : Engine) (settings : Settings)
    (t : FileTree) : (perform cwd marker engine settings t).result =
      (performQuietly cwd marker engine settings t).result := by
  rw [perform]
  cases hresult : (performQuietly cwd marker engine settings t).result <;> simp [hresult]

theorem perform_tree (cwd : Address) (marker : String) (engine : Engine) (settings : Settings)
    (t : FileTree) : (perform cwd marker engine settings t).tree =
      (performQuietly cwd marker engine settings t).tree := by
  rw [perform]
  cases (performQuietly cwd marker engine settings t).result <;> rfl

theorem perform_congr {engine engine' : Engine}
    (h : performQuietly cwd marker engine' settings t = performQuietly cwd marker engine settings t) :
    perform cwd marker engine' settings t = perform cwd marker engine settings t := by
  rw [perform, perform, h]

/-- A run that ends in one way for every engine has not called its own. -/
theorem perform_of_fixed {e : RunEnd}
    (hend : ∀ engine, performQuietly cwd marker engine settings t = e) (engine : Engine) :
    (perform cwd marker engine settings t).result = e.result ∧
      (perform cwd marker engine settings t).tree = e.tree ∧
      ∀ engine', perform cwd marker engine' settings t = perform cwd marker engine settings t := by
  refine ⟨?_, ?_, fun engine' => perform_congr ?_⟩
  · rw [perform_result, hend]
  · rw [perform_tree, hend]
  · rw [hend, hend]

/-- Whether a run gets past the reset of its output folder, into the tree `t₁`, and can list the
    class files that are below its input then. -/
structure PastReset (cwd : Address) (settings : Settings) (t t₁ : FileTree) (files : List Path) :
    Prop where
  input : Selection.checkInput t cwd settings.input = .ok ()
  guard : guardOverlap t cwd settings.input settings.output = .ok ()
  reset : resetOutput t cwd settings.output = (.ok (), t₁)
  again : Selection.checkInput t₁ cwd settings.input = .ok ()
  listed : classFiles t₁ cwd settings.input = .ok files

/-- What is told of a run before the output folder is reset. -/
def opening (settings : Settings) : List Event :=
  [.outputFolder settings.output, .inputFolder settings.input]

/-- What a run has done before its engine is called. -/
def selectedOutcome (settings : Settings) (scanned : Nat) (selected : List Path) : Outcome :=
  ⟨settings.input, settings.output, settings.kotlin, scanned, selected, [], 0⟩

/-- A run that gets past the reset goes on with the class files that it lists. -/
theorem PastReset.performQuietly_eq (h : PastReset cwd settings t t₁ files) (engine : Engine) :
    performQuietly cwd marker engine settings t =
      afterReset cwd marker engine settings t₁ (opening settings) := by
  simp only [performQuietly, h.input, h.guard, h.reset, opening]

theorem PastReset.ofFolder_eq (h : PastReset cwd settings t t₁ files) :
    Selection.ofFolder t₁ cwd marker settings.input =
      ((Selection.keepMarked t₁ cwd marker files).1.map fun classes => ⟨files.length, classes⟩,
        (Selection.keepMarked t₁ cwd marker files).2) := by
  simp only [Selection.ofFolder, h.again, h.listed]

/-- A run that succeeds gets past the reset, and can scan what it lists. -/
theorem pastReset_of_ok {engine : Engine} {o : Outcome}
    (h : (perform cwd marker engine settings t).result = .ok o) :
    ∃ t₁ files selected, PastReset cwd settings t t₁ files ∧
      (Selection.keepMarked t₁ cwd marker files).1 = .ok selected := by
  rw [perform_result, performQuietly] at h
  split at h
  · cases h
  · rename_i hinput
    split at h
    · cases h
    · rename_i hguard
      split at h
      · cases h
      · rename_i t₁ hreset
        rw [afterReset] at h
        cases hagain : Selection.checkInput t₁ cwd settings.input with
        | error e =>
          rw [Selection.ofFolder, hagain] at h
          cases h
        | ok _ =>
          cases hlisted : classFiles t₁ cwd settings.input with
          | error fault =>
            simp only [Selection.ofFolder, hagain, hlisted] at h
            cases h
          | ok files =>
            have hpast : PastReset cwd settings t t₁ files :=
              ⟨hinput, hguard, hreset, hagain, hlisted⟩
            rw [hpast.ofFolder_eq] at h
            cases hkept : (Selection.keepMarked t₁ cwd marker files).1 with
            | error e =>
              rw [hkept] at h
              cases h
            | ok selected => exact ⟨t₁, files, selected, hpast, hkept⟩

/-- A run whose selection fails ends there, without its engine. -/
theorem PastReset.perform_of_error (h : PastReset cwd settings t t₁ files) {e : RunError}
    (hkept : (Selection.keepMarked t₁ cwd marker files).1 = .error e) (engine : Engine) :
    (perform cwd marker engine settings t).result = .error e ∧
      (perform cwd marker engine settings t).tree = t₁ ∧
      ∀ engine', perform cwd marker engine' settings t = perform cwd marker engine settings t := by
  have hend : ∀ engine, performQuietly cwd marker engine settings t =
      ⟨.error e, t₁, opening settings ++ (Selection.keepMarked t₁ cwd marker files).2⟩ := by
    intro engine
    rw [h.performQuietly_eq, afterReset, h.ofFolder_eq, hkept]
    rfl
  exact perform_of_fixed hend engine

/-- A run that selects nothing ends there, without its engine. -/
theorem PastReset.perform_of_nil (h : PastReset cwd settings t t₁ files)
    (hkept : (Selection.keepMarked t₁ cwd marker files).1 = .ok []) (engine : Engine) :
    (perform cwd marker engine settings t).result =
        .ok (selectedOutcome settings files.length []) ∧
      (perform cwd marker engine settings t).tree = t₁ ∧
      ∀ engine', perform cwd marker engine' settings t = perform cwd marker engine settings t := by
  have hend : ∀ engine, performQuietly cwd marker engine settings t =
      ⟨.ok (selectedOutcome settings files.length []), t₁,
        opening settings ++ (Selection.keepMarked t₁ cwd marker files).2 ++
          [.nothingMarked marker settings.input]⟩ := by
    intro engine
    rw [h.performQuietly_eq, afterReset, h.ofFolder_eq, hkept]
    rfl
  exact perform_of_fixed hend engine

/-- A run that selects something ends as the call of its engine does. -/
theorem PastReset.performQuietly_of_ne_nil (h : PastReset cwd settings t t₁ files)
    {selected : List Path}
    (hkept : (Selection.keepMarked t₁ cwd marker files).1 = .ok selected) (hne : selected ≠ []) :
    ∃ events, ∀ engine, performQuietly cwd marker engine settings t =
      engage cwd engine settings (selectedOutcome settings files.length selected) t₁ events := by
  have hempty : selected.isEmpty = false := by simpa using hne
  refine ⟨opening settings ++ (Selection.keepMarked t₁ cwd marker files).2 ++
    announce marker selected, fun engine => ?_⟩
  rw [h.performQuietly_eq, afterReset, h.ofFolder_eq, hkept]
  simp only [Except.map, hempty]
  rfl

/-- The account of a run that selects something, and the tree it leaves, are those of its engine at
    work. -/
theorem PastReset.perform_engages (h : PastReset cwd settings t t₁ files) {selected : List Path}
    (hkept : (Selection.keepMarked t₁ cwd marker files).1 = .ok selected) (hne : selected ≠ []) :
    ∃ events, ∀ engine : Engine,
      let ended := (engine (requestFor settings selected)).perform (receiver cwd settings.output) t₁
        (.start events)
      (perform cwd marker engine settings t).result =
          settle (selectedOutcome settings files.length selected) ended.1 ended.2.2 ∧
        (perform cwd marker engine settings t).tree = ended.2.1 := by
  obtain ⟨events, hend⟩ := h.performQuietly_of_ne_nil hkept hne
  refine ⟨events, fun engine => ?_⟩
  rw [perform_result, perform_tree, hend, engage_eq]
  exact ⟨rfl, rfl⟩

/-- A run that selects something lets its engine decide. -/
theorem PastReset.perform_of_ne_nil (h : PastReset cwd settings t t₁ files) {selected : List Path}
    (hkept : (Selection.keepMarked t₁ cwd marker files).1 = .ok selected) (hne : selected ≠ [])
    (engine : Engine) :
    let record := (engine (requestFor settings selected)).perform (recorder cwd settings.output) t₁ []
    (perform cwd marker engine settings t).tree = record.2.1 ∧
      Decided settings.output record.2.2 record.1 (perform cwd marker engine settings t).result := by
  obtain ⟨events, hend⟩ := h.performQuietly_of_ne_nil hkept hne
  rw [perform_tree, perform_result, hend]
  exact engage_decides cwd engine settings (selectedOutcome settings files.length selected) t₁ events

/-- A run that selects something calls its engine once, for what it has selected. -/
theorem PastReset.perform_noting (h : PastReset cwd settings t t₁ files) {selected : List Path}
    (hkept : (Selection.keepMarked t₁ cwd marker files).1 = .ok selected) (hne : selected ≠ [])
    (engine : Engine) (mark : Request → Event) :
    ∃ before after, (perform cwd marker engine settings t).events = before ++ after ∧
      perform cwd marker (noting mark engine) settings t =
        ⟨(perform cwd marker engine settings t).result,
          (perform cwd marker engine settings t).tree,
          before ++ mark (requestFor settings selected) :: after⟩ := by
  obtain ⟨events, hend⟩ := h.performQuietly_of_ne_nil hkept hne
  obtain ⟨after, hevents, hnoting⟩ := engage_noting cwd engine mark settings
    (selectedOutcome settings files.length selected) t₁ events
  rw [← hend, ← hend] at hnoting
  rw [← hend] at hevents
  rw [perform_tree, perform_result, perform, perform, hnoting]
  cases hresult : (performQuietly cwd marker engine settings t).result with
  | ok o => exact ⟨events, after, by simp [hevents], rfl⟩
  | error e =>
    refine ⟨events, after ++ [.runFailed e.chain], by simp [hevents], ?_⟩
    simp [selectedOutcome]

/-- How a run ends that gets past the reset of its output folder, for every engine. At the first file
    that cannot be scanned, or with nothing selected, it ends without its engine: no other engine
    would have made a difference. Else the engine is called once, for the selected files in the order
    of the walk, as an engine that tells of its calls shows; and what it returned and the units it
    handed over decide. -/
theorem perform_decides (h : PastReset cwd settings t t₁ files) (engine : Engine) :
    let e := perform cwd marker engine settings t
    let selected := files.filter (isMarked t₁ cwd marker)
    let request := requestFor settings selected
    let record := (engine request).perform (recorder cwd settings.output) t₁ []
    (∀ front file back fault, files = front ++ file :: back →
      (∀ f ∈ front, Scans t₁ cwd marker f) → scanFile t₁ cwd marker file = .error fault →
      e.result = .error (.scan file fault.failure) ∧ e.tree = t₁ ∧
        ∀ engine', perform cwd marker engine' settings t = e) ∧
    ((∀ f ∈ files, Scans t₁ cwd marker f) → selected = [] →
      e.result = .ok (selectedOutcome settings files.length []) ∧ e.tree = t₁ ∧
        ∀ engine', perform cwd marker engine' settings t = e) ∧
    ((∀ f ∈ files, Scans t₁ cwd marker f) → selected ≠ [] →
      e.tree = record.2.1 ∧ Decided settings.output record.2.2 record.1 e.result ∧
        ∀ mark, ∃ before after, e.events = before ++ after ∧
          perform cwd marker (noting mark engine) settings t =
            ⟨e.result, e.tree, before ++ mark request :: after⟩) := by
  intro e selected request record
  refine ⟨?_, ?_, ?_⟩
  · intro front file back fault hsplit hfront hfault
    have hkept : (Selection.keepMarked t₁ cwd marker files).1 = .error (.scan file fault.failure) := by
      rw [hsplit]
      exact keepMarked_of_fault hfront hfault
    exact h.perform_of_error hkept engine
  · intro hscans hempty
    have hkept : (Selection.keepMarked t₁ cwd marker files).1 = .ok selected :=
      keepMarked_of_scans hscans
    rw [hempty] at hkept
    exact h.perform_of_nil hkept engine
  · intro hscans hne
    have hkept : (Selection.keepMarked t₁ cwd marker files).1 = .ok selected :=
      keepMarked_of_scans hscans
    obtain ⟨htree, hdecided⟩ := h.perform_of_ne_nil hkept hne engine
    exact ⟨htree, hdecided, h.perform_noting hkept hne engine⟩

/-- A tree with a class file in the folder `in`. -/
def oneClass : FileTree where
  entries := [(["in"], .folder), (["in", "A.class"], .file ClassFile.specimen.encode)]
  nodup := by decide
  rooted := by simp [FileTree.FolderIn]

/-- What a reset of the folder `out` makes of it. -/
def oneClassReset : FileTree where
  entries := [(["out"], .folder), (["in"], .folder),
    (["in", "A.class"], .file ClassFile.specimen.encode)]
  nodup := by decide
  rooted := by simp [FileTree.FolderIn]

theorem walkFiles_of_under {t : FileTree}
    (hstat : t.stat [] false ⟨"in"⟩ = .ok (["in"], .folder))
    (hunder : t.under ["in"] =
      ([(["A.class"], .file ClassFile.specimen.encode)] : List (Address × Node))) :
    t.walkFiles [] ⟨"in"⟩ = .ok [["A.class"]] := by
  have hbase : FileTree.isStandardInput ⟨"in"⟩ = false := by decide
  simp only [FileTree.walkFiles, FileTree.walk, hstat, hbase, hunder]
  rfl

theorem classFiles_of_under {t : FileTree}
    (hstat : t.stat [] false ⟨"in"⟩ = .ok (["in"], .folder))
    (hunder : t.under ["in"] =
      ([(["A.class"], .file ClassFile.specimen.encode)] : List (Address × Node))) :
    classFiles t [] ⟨"in"⟩ = .ok [⟨"in/A.class"⟩] := by
  rw [classFiles, walkFiles_of_under hstat hunder]
  rfl

theorem scanFile_specimen {t : FileTree} {p : Path} {a : Address}
    (h : t.stat [] true p = .ok (a, .file ClassFile.specimen.encode)) :
    scanFile t [] "T" p = .ok (some "T") := by
  have hsome : ClassFile.specimen.encode.isEmpty = false := by rfl
  simp only [scanFile, h, hsome, ClassFile.scan_specimen]
  rfl

theorem classFiles_oneClassReset :
    classFiles oneClassReset [] ⟨"in"⟩ = .ok [⟨"in/A.class"⟩] :=
  classFiles_of_under (by rfl) (List.mergeSort_singleton _)

theorem scanFile_oneClassReset :
    scanFile oneClassReset [] "T" ⟨"in/A.class"⟩ = .ok (some "T") :=
  scanFile_specimen (by rfl)

theorem pastReset_oneClass :
    PastReset [] ⟨⟨"in"⟩, ⟨"out"⟩, [], false⟩ oneClass oneClassReset [⟨"in/A.class"⟩] :=
  ⟨by rfl, by rfl, by rfl, by rfl, classFiles_oneClassReset⟩

theorem keepMarked_oneClassReset :
    (Selection.keepMarked oneClassReset [] "T" [⟨"in/A.class"⟩]).1 = .ok [⟨"in/A.class"⟩] := by
  simp only [Selection.keepMarked, scanFile_oneClassReset]
  rfl

theorem ok_of_toOption {ε α : Type} {x : Except ε α} {a : α} (h : x.toOption = some a) :
    x = .ok a := by
  cases x with
  | error e => cases h
  | ok b => exact congrArg Except.ok (Option.some.inj h)

/-- A run that comes to this tree succeeds if its engine does, and every unit is written or dropped. -/
theorem perform_ok_of_oneClassReset {t : FileTree} (engine : Engine)
    (hpast : PastReset [] ⟨⟨"in"⟩, ⟨"out"⟩, [], false⟩ t oneClassReset [⟨"in/A.class"⟩])
    (h :
      let record := (engine ⟨⟨"in"⟩, [⟨"in/A.class"⟩], [], false⟩).perform (recorder [] ⟨"out"⟩)
        oneClassReset []
      record.1.toOption = some () ∧ lastFailure? record.2.2 = none) :
    ∃ o, (perform [] "T" engine ⟨⟨"in"⟩, ⟨"out"⟩, [], false⟩ t).result = .ok o := by
  have hdecided := (hpast.perform_of_ne_nil keepMarked_oneClassReset (by simp) engine).2
  exact hdecided.ok.2 ⟨lastFailure?_eq_none.1 h.2, ok_of_toOption h.1⟩

/-- An engine that hands over a unit which cannot be written, and takes no notice. -/
def carelessEngine : Engine := fun _ =>
  .deliver ⟨"", none, "B.kt\x00", "x"⟩ fun _ => .done (.ok ())

theorem perform_decides_oneClass :
    PastReset [] ⟨⟨"in"⟩, ⟨"out"⟩, [], false⟩ oneClass (resetOutput oneClass [] ⟨"out"⟩).2
        [⟨"in/A.class"⟩] ∧
      (perform [] "T" carelessEngine ⟨⟨"in"⟩, ⟨"out"⟩, [], false⟩ oneClass).result =
        .error (.outputWrite ⟨"out/B.kt\x00"⟩ .nulInPath) := by
  have hscans : ∀ f ∈ [Path.mk "in/A.class"], Scans oneClassReset [] "T" f := by
    intro f hf
    rw [List.mem_singleton.1 hf]
    exact ⟨_, scanFile_oneClassReset⟩
  have hselected : [Path.mk "in/A.class"].filter (isMarked oneClassReset [] "T") =
      [⟨"in/A.class"⟩] := by
    simp [isMarked, scanFile_oneClassReset]
  obtain ⟨-, hdecided, -⟩ :=
    (perform_decides pastReset_oneClass carelessEngine).2.2 hscans (by simp [hselected])
  rw [hselected] at hdecided
  exact ⟨pastReset_oneClass,
    (hdecided.outputWrite _ _).2 ⟨⟨"", none, "B.kt\x00", "x"⟩, by rfl⟩⟩

end SourceRecovery.Run
