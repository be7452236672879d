import SourceRecovery.Proofs.FileTree.Listing
import SourceRecovery.Proofs.FileTree.Making
import SourceRecovery.Proofs.Run.Accounts
import SourceRecovery.Proofs.Run.KeptFiles
import SourceRecovery.Proofs.Run.SparedInput
import SourceRecovery.Session

/-!
# What is scanned and what is decompiled

A scan lists the class files that are there when it is asked. A run lists them once its output folder
is reset, so it misses those that the reset has taken.

* `resetOutput_file_iff`: which files a reset leaves.
* `remainingClassFiles`: the class files of the input among them, by what the tree was before.
* `classFiles_of_reset`: these are what a run lists.
* `stat_of_scans`: each that can be scanned then has been there before.
* `perform_agrees_with_scan`: a run and a scan select the same if nothing of the input was reset, and
  the class files stay.
* `perform_misses_listed`: a class file that is listed, and deleted by the run.
-/

namespace SourceRecovery

variable {t t₁ : FileTree} {cwd a inp : Address} {input output : Path} {content : Bytes}
  {marker : String} {p : Path}

/-! ## What a reset leaves -/

/-- Whether an address is that of the node that the output path names, or below it. -/
def isReset (t : FileTree) (cwd : Address) (output : Path) (a : Address) : Bool :=
  match t.stat cwd false output with
  | .ok (d, _) => FileTree.isAtOrBelow d a
  | .error _ => false

theorem isReset_eq_false : isReset t cwd output a = false ↔
    ∀ b n, t.stat cwd false output = .ok (b, n) → ¬ b <+: a := by
  unfold isReset
  split
  · rename_i d n hstat
    rw [FileTree.isAtOrBelow_eq_false_iff, hstat]
    constructor
    · intro haway b m heq
      obtain ⟨rfl, -⟩ := Prod.mk.inj (Except.ok.inj heq)
      exact haway
    · intro hall
      exact hall d n rfl
  · rename_i fault hstat
    simp [hstat]

/-- A reset, whether it succeeds or not, leaves the files that are not at the node which the output
    path names, nor below it, and makes none. -/
theorem resetOutput_file_iff : (resetOutput t cwd output).2.node? a = some (.file content) ↔
    t.node? a = some (.file content) ∧ isReset t cwd output a = false := by
  rw [(resetOutput_adds t cwd output).file_iff, isReset_eq_false]
  refine ⟨fun hfile => ⟨removeOutput_within t cwd output a _ hfile, fun d n hstat hp => ?_⟩, ?_⟩
  · have ha : a ≠ [] := by
      rintro rfl
      rw [FileTree.node?_nil] at hfile
      cases hfile
    rcases removeOutput_snd t cwd output with ⟨hnone, -⟩ | ⟨b, m, hstat', hleft⟩
    · exact hnone _ hstat
    · rw [hstat] at hstat'
      obtain ⟨rfl, rfl⟩ := Prod.mk.inj (Except.ok.inj hstat')
      rcases hleft with ⟨rfl, hleft⟩ | ⟨-, hleft⟩ | ⟨-, hleft⟩
      · -- a folder that is only emptied is no file
        rw [hleft, FileTree.node?_clear] at hfile
        split at hfile
        · cases hfile
        · rename_i hbelow
          have heq : d = a := Classical.byContradiction fun hne => hbelow ⟨hp, hne⟩
          rw [← heq, FileTree.node?_of_stat hstat] at hfile
          cases hfile
      · rw [hleft, FileTree.node?_prune_of_below ha hp] at hfile
        cases hfile
      · rw [hleft, FileTree.node?_prune_of_below ha hp] at hfile
        cases hfile
  · rintro ⟨hfile, hspared⟩
    exact (removeOutput_spares hspared).trans hfile

/-! ## The class files that are left -/

/-- The address of what a path leads to, links followed. -/
def FileTree.addressOf (t : FileTree) (cwd : Address) (p : Path) : Except IoFault Address :=
  match t.stat cwd true p with
  | .error fault => .error fault
  | .ok (a, _) => .ok a

theorem FileTree.addressOf_of_stat {n : Node} (h : t.stat cwd true p = .ok (a, n)) :
    t.addressOf cwd p = .ok a := by
  simp only [FileTree.addressOf, h]

/-- The class files below the input that a reset of the output leaves, in the order of the walk. -/
def remainingClassFiles (t : FileTree) (cwd : Address) (input output : Path) : List Path :=
  match t.addressOf cwd input, t.walkFiles cwd input with
  | .ok inp, .ok files =>
    ((files.filter fun names => !isReset t cwd output (inp ++ names)).map input.descend).filter
      fun p => p.extension? == some (Text.encode "class")
  | _, _ => []

theorem exists_walkFiles (h : t.stat cwd true input = .ok (inp, .folder)) :
    ∃ files, t.walkFiles cwd input = .ok files := by
  cases hbase : FileTree.isStandardInput input with
  | true =>
    refine ⟨[], ?_⟩
    rw [FileTree.walkFiles, FileTree.walk, if_pos hbase]
    rfl
  | false =>
    obtain ⟨files, hfiles, -⟩ := FileTree.walkFiles_of_folder h hbase
    exact ⟨files, hfiles⟩

/-- A run lists the class files that the reset has left. -/
theorem classFiles_of_reset (hinput : t.stat cwd true input = .ok (inp, .folder))
    (hinput' : (resetOutput t cwd output).2.stat cwd true input = .ok (inp, .folder)) :
    classFiles (resetOutput t cwd output).2 cwd input =
      .ok (remainingClassFiles t cwd input output) := by
  obtain ⟨files, hfiles⟩ := exists_walkFiles hinput
  have hleft : (resetOutput t cwd output).2.walkFiles cwd input =
      .ok (files.filter fun names => !isReset t cwd output (inp ++ names)) :=
    FileTree.walkFiles_of_fewer hinput hinput'
      (fun names content => by rw [resetOutput_file_iff, Bool.not_eq_true']) hfiles
  have hinp : t.addressOf cwd input = .ok inp := FileTree.addressOf_of_stat hinput
  rw [classFiles, hleft, remainingClassFiles, hinp, hfiles]
  rfl

/-- A class file that is left stands below the input. -/
theorem file_of_remaining (hinput : t.stat cwd true input = .ok (inp, .folder))
    (hp : p ∈ remainingClassFiles t cwd input output) :
    ∃ names content, p = input.descend names ∧ names ≠ [] ∧
      t.node? (inp ++ names) = some (.file content) ∧
      (resetOutput t cwd output).2.node? (inp ++ names) = some (.file content) := by
  obtain ⟨files, hfiles⟩ := exists_walkFiles hinput
  have hinp : t.addressOf cwd input = .ok inp := FileTree.addressOf_of_stat hinput
  rw [remainingClassFiles, hinp, hfiles] at hp
  obtain ⟨names, hnames, rfl⟩ := List.mem_map.1 (List.mem_filter.1 hp).1
  obtain ⟨hmem, hleft⟩ := List.mem_filter.1 hnames
  cases hbase : FileTree.isStandardInput input with
  | true =>
    rw [FileTree.walkFiles, FileTree.walk, if_pos hbase] at hfiles
    rw [← Except.ok.inj hfiles] at hmem
    cases hmem
  | false =>
    obtain ⟨found, hfound, -, hall⟩ := FileTree.walkFiles_of_folder hinput hbase
    obtain rfl : found = files := Except.ok.inj (hfound.symm.trans hfiles)
    obtain ⟨hne, content, hfile⟩ := (hall names).1 hmem
    exact ⟨names, content, rfl, hne, hfile,
      resetOutput_file_iff.2 ⟨hfile, by simpa using hleft⟩⟩

/-- Whether every name in a tree is one that a path can tell. -/
def FileTree.IsSpelled (t : FileTree) : Prop :=
  ∀ a n, t.node? a = some n → ∀ w ∈ a, Path.IsPlain w

/-- A class file that a run can scan was there before the reset, with the same bytes. -/
theorem stat_of_scans (hspelled : t.IsSpelled) (hinput : t.stat cwd true input = .ok (inp, .folder))
    (hinput' : (resetOutput t cwd output).2.stat cwd true input = .ok (inp, .folder))
    (hp : p ∈ remainingClassFiles t cwd input output)
    (hscans : Selection.Scans (resetOutput t cwd output).2 cwd marker p) :
    ∃ a content, t.stat cwd true p = .ok (a, .file content) ∧
      (resetOutput t cwd output).2.stat cwd true p = .ok (a, .file content) := by
  obtain ⟨names, content, rfl, hne, hfile, hfile'⟩ := file_of_remaining hinput hp
  have hnames : ∀ w ∈ names, Path.IsPlain w := fun w hw =>
    hspelled _ _ hfile w (List.mem_append_right inp hw)
  obtain ⟨htext, hleads⟩ := FileTree.reaches_of_stat hinput
  obtain ⟨-, hleads'⟩ := FileTree.reaches_of_stat hinput'
  obtain ⟨found, hstat⟩ : ∃ found, (resetOutput t cwd output).2.stat cwd true
      (input.descend names) = .ok found := by
    obtain ⟨method, hscan⟩ := hscans
    unfold scanFile at hscan
    split at hscan
    · cases hscan
    · exact ⟨_, ‹_›⟩
    · cases hscan
  have hfollowed := FileTree.LeadsTo.followed hleads' htext hnames hfile' hstat
  exact ⟨inp ++ names, content, FileTree.LeadsTo.stat_descend hleads htext hnames hne hfile hfollowed,
    FileTree.LeadsTo.stat_descend hleads' htext hnames hne hfile' hfollowed⟩

namespace Run

variable {host : Host} {line : CommandLine} {settings : Settings} {engine : Engine} {o : Outcome}

/-- Where the reset has not changed where the input path leads, a run that succeeds lists the class
    files that the reset has left, and selects those of them that were marked before.

    If that is every class file of the input, a scan just before reports what the run selects; only a
    path that is no text cannot stand in its report. If also
    the output folder is empty after the reset and the engine spares what it finds, each of the class
    files can be read at the end as before the run. -/
theorem perform_agrees_with_scan (hspelled : t.IsSpelled)
    (hline : line.command = .scan settings.input)
    (hsame : (resetOutput t host.folder settings.output).2.addressOf host.folder settings.input =
      t.addressOf host.folder settings.input)
    (h : (perform host.folder line.marker engine settings t).result = .ok o) :
    let files := remainingClassFiles t host.folder settings.input settings.output
    let e := perform host.folder line.marker engine settings t
    o.scanned = files.length ∧
    o.classes = files.filter (Selection.isMarked t host.folder line.marker) ∧
    (classFiles t host.folder settings.input = .ok files → (∀ p ∈ o.classes, Text.IsText p.bytes) →
      ∃ events, Session.perform host line t = Session.succeeded
        (fun _ => Report.ofSelection settings.input line.marker ⟨o.scanned, o.classes⟩) events t) ∧
    ((resetOutput t host.folder settings.output).2.LeadsToEmpty host.folder settings.output →
      engine.Spares host.folder settings.output (resetOutput t host.folder settings.output).2 →
      ∀ p ∈ files, ∃ content, t.read host.folder p = .ok content ∧
        e.tree.read host.folder p = .ok content) := by
  intro files e
  obtain ⟨t₁, listed, selected, hpast, hkept⟩ := pastReset_of_ok h
  have htree : (resetOutput t host.folder settings.output).2 = t₁ := by rw [hpast.reset]
  obtain ⟨inp, hinput⟩ := stat_of_checkInput hpast.input
  obtain ⟨inp', hinput'⟩ := stat_of_checkInput hpast.again
  obtain rfl : inp' = inp := by
    rw [htree, FileTree.addressOf_of_stat hinput, FileTree.addressOf_of_stat hinput'] at hsame
    exact Except.ok.inj hsame
  rw [← htree] at hinput'
  obtain rfl : listed = files := by
    have hlisted := classFiles_of_reset hinput hinput'
    rw [htree, hpast.listed] at hlisted
    exact Except.ok.inj hlisted
  obtain ⟨hscanned, hclasses⟩ := hpast.selection_of_ok hkept h
  have hstat : ∀ p ∈ files, ∃ a content, t.stat host.folder true p = .ok (a, .file content) ∧
      t₁.stat host.folder true p = .ok (a, .file content) := by
    intro p hp
    have hscans := Selection.scans_of_keepMarked hkept p hp
    rw [← htree] at hscans ⊢
    exact stat_of_scans hspelled hinput hinput' hp hscans
  have hscan : ∀ p ∈ files, scanFile t host.folder line.marker p =
      scanFile t₁ host.folder line.marker p := by
    intro p hp
    obtain ⟨a, content, hbefore, hafter⟩ := hstat p hp
    exact Selection.scanFile_congr (hbefore.trans hafter.symm)
  have hselected : (Selection.keepMarked t host.folder line.marker files).1 = .ok selected := by
    rw [Selection.keepMarked_congr hscan]
    exact hkept
  refine ⟨hscanned, hclasses.trans (Selection.keepMarked_eq_ok hselected), ?_, ?_⟩
  · intro hall htext
    refine ⟨(Selection.keepMarked t host.folder line.marker files).2, ?_⟩
    have hfolder : Selection.ofFolder t host.folder line.marker settings.input =
        (.ok ⟨o.scanned, o.classes⟩, (Selection.keepMarked t host.folder line.marker files).2) := by
      simp only [Selection.ofFolder, hpast.input, hall, hselected, hscanned, hclasses]
      rfl
    rw [Session.perform, hline]
    have hprinted := List.all_eq_true.2 fun p hp => Path.isText_iff.2 (htext p hp)
    simp only [hfolder, hprinted, if_true]
  · intro hempty hengine p hp
    rw [htree] at hempty hengine
    obtain ⟨a, content, hbefore, hafter⟩ := hstat p hp
    have hend := FileTree.stat_within hafter (hpast.within hkept hempty hengine)
    refine ⟨content, ?_, ?_⟩
    · simp only [FileTree.read, hbefore]
    · show (perform host.folder line.marker engine settings t).tree.read host.folder p = _
      simp only [FileTree.read, hend]

/-- A host without anything to start, in the root folder. -/
def bareHost : Host :=
  ⟨[], none, [], [], []⟩

/-- Asks for a scan of the folder `in`. -/
def scanOfInput : CommandLine :=
  ⟨.scan ⟨"in"⟩, none, "T", false⟩

theorem remainingClassFiles_oneClass :
    classFiles oneClass [] ⟨"in"⟩ = .ok [⟨"in/A.class"⟩] ∧
      remainingClassFiles oneClass [] ⟨"in"⟩ ⟨"out"⟩ = [⟨"in/A.class"⟩] := by
  have hfiles : oneClass.walkFiles [] ⟨"in"⟩ = .ok [["A.class"]] :=
    walkFiles_of_under (by rfl) (List.mergeSort_singleton _)
  have hinput : oneClass.addressOf [] ⟨"in"⟩ = .ok ["in"] := by rfl
  refine ⟨?_, ?_⟩
  · rw [classFiles, hfiles]
    rfl
  · rw [remainingClassFiles, hinput, hfiles]
    rfl

theorem isSpelled_oneClass : oneClass.IsSpelled := by
  intro a n hnode w hw
  by_cases ha : a = []
  · simp [ha] at hw
  · have hmem := FileTree.mem_of_node? ha hnode
    have hnames : w = "in" ∨ w = "A.class" := by
      simp only [oneClass, List.mem_cons, List.not_mem_nil, or_false, Prod.mk.injEq] at hmem
      rcases hmem with ⟨rfl, -⟩ | ⟨rfl, -⟩ <;> simp_all
    rcases hnames with rfl | rfl <;> exact ⟨by decide, by decide, by decide, by decide⟩

/-- With the output beside the input, a run does what a scan tells. -/
theorem perform_agrees_with_scan_oneClass :
    let e := perform bareHost.folder scanOfInput.marker (fun _ => handOver unitsApart)
      ⟨⟨"in"⟩, ⟨"out"⟩, [], false⟩ oneClass
    ∃ o events, e.result = .ok o ∧ o.scanned = 1 ∧
      Session.perform bareHost scanOfInput oneClass = Session.succeeded
        (fun _ => Report.ofSelection ⟨"in"⟩ "T" ⟨o.scanned, o.classes⟩) events oneClass ∧
      ∃ content, oneClass.read [] ⟨"in/A.class"⟩ = .ok content ∧
        e.tree.read [] ⟨"in/A.class"⟩ = .ok content := by
  intro e
  have hok : ∃ o, e.result = .ok o :=
    perform_ok_of_oneClassReset (fun _ => handOver unitsApart) pastReset_oneClass (by decide +kernel)
  obtain ⟨o, ho⟩ := hok
  obtain ⟨hall, hfiles⟩ := remainingClassFiles_oneClass
  obtain ⟨hscanned, hclasses, hscan, hkept⟩ :=
    perform_agrees_with_scan isSpelled_oneClass rfl (by rfl) ho
  have htext : ∀ p ∈ o.classes, Text.IsText p.bytes := by
    intro p hp
    rw [hclasses] at hp
    have hmem : p ∈ remainingClassFiles oneClass [] ⟨"in"⟩ ⟨"out"⟩ := (List.mem_filter.1 hp).1
    rw [hfiles, List.mem_singleton] at hmem
    exact hmem ▸ Text.isText_encode "in/A.class"
  obtain ⟨events, hevents⟩ := hscan (hall.trans (congrArg Except.ok hfiles.symm)) htext
  refine ⟨o, events, ho, hscanned.trans (congrArg List.length hfiles), hevents, ?_⟩
  refine hkept leadsToEmpty_oneClassReset
    (spares_of_leavesFiles fun _ => leavesFiles_handOver unitsApart) ⟨"in/A.class"⟩ ?_
  show _ ∈ remainingClassFiles oneClass [] ⟨"in"⟩ ⟨"out"⟩
  rw [hfiles]
  exact List.mem_cons_self

/-! ## An output folder in the input folder -/

/-- A tree with a class file in the folder `in`, and another one in a folder in it. -/
def nestedClasses : FileTree where
  entries := [(["in"], .folder), (["in", "A.class"], .file ClassFile.specimen.encode),
    (["in", "out"], .folder), (["in", "out", "Old.class"], .file ClassFile.specimen.encode)]
  nodup := by decide
  rooted := by simp [FileTree.FolderIn]

/-- What a reset of the folder `in/out` makes of it. -/
def nestedClassesReset : FileTree where
  entries := [(["in", "out"], .folder), (["in"], .folder),
    (["in", "A.class"], .file ClassFile.specimen.encode)]
  nodup := by decide
  rooted := by simp [FileTree.FolderIn]

theorem walkFiles_nestedClasses :
    nestedClasses.walkFiles [] ⟨"in"⟩ = .ok [["A.class"], ["out", "Old.class"]] := by
  have hunder : nestedClasses.under ["in"] = ([(["A.class"], .file ClassFile.specimen.encode),
      (["out"], .folder), (["out", "Old.class"], .file ClassFile.specimen.encode)] :
      List (Address × Node)) := by
    rw [FileTree.under]
    exact List.mergeSort_of_pairwise (by decide +kernel)
  have hstat : nestedClasses.stat [] false ⟨"in"⟩ = .ok (["in"], .folder) := by rfl
  have hbase : FileTree.isStandardInput ⟨"in"⟩ = false := by decide
  simp only [FileTree.walkFiles, FileTree.walk, hstat, hbase, hunder]
  rfl

theorem ofFolder_nestedClasses : (Selection.ofFolder nestedClasses [] "T" ⟨"in"⟩).1 =
    .ok ⟨2, [⟨"in/A.class"⟩, ⟨"in/out/Old.class"⟩]⟩ := by
  have hinput : Selection.checkInput nestedClasses [] ⟨"in"⟩ = .ok () := by rfl
  have hlisted : classFiles nestedClasses [] ⟨"in"⟩ =
      .ok [⟨"in/A.class"⟩, ⟨"in/out/Old.class"⟩] := by
    rw [classFiles, walkFiles_nestedClasses]
    rfl
  have hone : scanFile nestedClasses [] "T" ⟨"in/A.class"⟩ = .ok (some "T") :=
    scanFile_specimen (by rfl)
  have hother : scanFile nestedClasses [] "T" ⟨"in/out/Old.class"⟩ = .ok (some "T") :=
    scanFile_specimen (by rfl)
  simp only [Selection.ofFolder, hinput, hlisted, Selection.keepMarked, hone, hother]
  rfl

theorem pastReset_nestedClasses :
    PastReset [] ⟨⟨"in"⟩, ⟨"in/out"⟩, [], false⟩ nestedClasses nestedClassesReset
      [⟨"in/A.class"⟩] := by
  have hinput : nestedClasses.stat [] true ⟨"in"⟩ = .ok (["in"], .folder) := by rfl
  have hinput' : (resetOutput nestedClasses [] ⟨"in/out"⟩).2.stat [] true ⟨"in"⟩ =
      .ok (["in"], .folder) := by
    rfl
  have hlisted := classFiles_of_reset hinput hinput'
  have hinp : nestedClasses.addressOf [] ⟨"in"⟩ = .ok ["in"] := by rfl
  rw [remainingClassFiles, hinp, walkFiles_nestedClasses] at hlisted
  exact ⟨by rfl, by rfl, by rfl, by rfl, hlisted⟩

/-- The guard keeps an output folder away that holds the input, but not one in the input. A class file
    in it is listed by a scan, and the run deletes it unread. -/
theorem perform_misses_listed :
    let e := perform [] "T" (fun _ => handOver []) ⟨⟨"in"⟩, ⟨"in/out"⟩, [], false⟩ nestedClasses
    (Selection.ofFolder nestedClasses [] "T" ⟨"in"⟩).1 =
        .ok ⟨2, [⟨"in/A.class"⟩, ⟨"in/out/Old.class"⟩]⟩ ∧
      ∃ o, e.result = .ok o ∧ o.scanned = 1 ∧ o.classes = [⟨"in/A.class"⟩] ∧
        e.tree.node? ["in", "out", "Old.class"] = none := by
  intro e
  have hkept : (Selection.keepMarked nestedClassesReset [] "T" [⟨"in/A.class"⟩]).1 =
      .ok [⟨"in/A.class"⟩] := by
    have hone : scanFile nestedClassesReset [] "T" ⟨"in/A.class"⟩ = .ok (some "T") :=
      scanFile_specimen (by rfl)
    simp only [Selection.keepMarked, hone]
    rfl
  obtain ⟨events, hend⟩ := pastReset_nestedClasses.perform_engages hkept (by simp)
  obtain ⟨hresult, htree⟩ := hend fun _ => handOver []
  refine ⟨ofFolder_nestedClasses, _, hresult, rfl, rfl, ?_⟩
  show (perform _ _ _ _ _).tree.node? _ = none
  rw [htree]
  rfl

end Run

end SourceRecovery
