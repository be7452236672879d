import SourceRecovery.Proofs.ClassFile.Marked
import SourceRecovery.Proofs.ClassFiles
import SourceRecovery.Proofs.Engine.Places
import SourceRecovery.Proofs.FileTree.Files

/-!
# The marked class files of a folder

* `Listing`: class files as they are listed, with what they hold.
* `IsScanned`: the bytes of a listed file are accepted.
* `Rejected`: why a listed file is not scanned.
* `ofFolder_keeps_marked`: those with a marked method are selected, unless there is a file that is not
  scanned. The first of these is what the selection fails at.
-/

namespace SourceRecovery.Selection

open FileTree (Followed)
open ClassFile (HasMarked LacksMarked)

variable {t : FileTree} {cwd a : Address} {input : Path} {marker : String}
  {files : List (Address × Bytes)} {f g : Address × Bytes} {x : Option String}

/-- Whether names lead on from a folder to a file with this content. -/
structure IsHeld (t : FileTree) (a : Address) (f : Address × Bytes) : Prop where
  ne_nil : f.1 ≠ []
  plain : ∀ w ∈ f.1, Path.IsPlain w
  node : t.node? (a ++ f.1) = some (.file f.2)

/-- Class files below a folder in the order in which they are listed, by the names that lead there, and
    with what they hold. -/
structure Listing (t : FileTree) (cwd a : Address) (input : Path) (files : List (Address × Bytes)) :
    Prop where
  listed : classFiles t cwd input = .ok (files.map fun f => input.descend f.1)
  nodup : (files.map Prod.fst).Nodup
  held : ∀ f ∈ files, IsHeld t a f

/-- Whether a class file is scanned: its bytes spell a class file as far as they are read. A path that is
    too long for the system counts like bytes that do not. -/
def IsScanned (marker : String) (input : Path) (f : Address × Bytes) : Prop :=
  Followed input f.1 ∧
    (HasMarked (Text.encode marker) f.2 ∨ LacksMarked (Text.encode marker) f.2)

/-- Why a class file is not scanned. -/
inductive Rejected (marker : String) (input : Path) (f : Address × Bytes) : ScanFault → Prop
  | notOpened (cause : IoFault) : ¬ Followed input f.1 →
      Rejected marker input f (.notOpened (input.descend f.1) cause)
  | empty : f.2 = [] → Rejected marker input f (.empty (input.descend f.1))
  | malformed (fault : ClassFile.Fault) : f.2 ≠ [] → ClassFile.scan marker f.2 = .error fault →
      Rejected marker input f (.malformed (input.descend f.1) fault)

/-! ## One file -/

section OneFile

variable {file : Path} {b : Address} {content : Bytes}

theorem scanFile_of_empty (h : t.stat cwd true file = .ok (b, .file [])) :
    scanFile t cwd marker file = .error (.empty file) := by
  rw [scanFile, h]
  rfl

theorem scanFile_of_error {fault : ClassFile.Fault}
    (h : t.stat cwd true file = .ok (b, .file content)) (hne : content ≠ [])
    (hscan : ClassFile.scan marker content = .error fault) :
    scanFile t cwd marker file = .error (.malformed file fault) := by
  obtain ⟨byte, bytes, rfl⟩ := List.exists_cons_of_ne_nil hne
  rw [scanFile, h]
  simp [hscan]

/-- No class file is empty. -/
theorem scan_nil (marker : String) : ClassFile.scan marker [] ≠ .ok x := by
  intro h
  cases h

/-- A file that can be opened is scanned as its bytes are. -/
theorem scanFile_eq_ok (h : t.stat cwd true file = .ok (b, .file content)) :
    scanFile t cwd marker file = .ok x ↔ ClassFile.scan marker content = .ok x := by
  by_cases hempty : content = []
  · subst hempty
    rw [scanFile_of_empty h]
    constructor
    · intro hscan
      cases hscan
    · intro hscan
      exact absurd hscan (scan_nil marker)
  · cases hscan : ClassFile.scan marker content with
    | error fault => simp [scanFile_of_error h hempty hscan]
    | ok method =>
      obtain ⟨byte, bytes, rfl⟩ := List.exists_cons_of_ne_nil hempty
      rw [scanFile, h]
      simp [hscan]

theorem exists_stat_of_scanFile (h : scanFile t cwd marker file = .ok x) :
    ∃ found, t.stat cwd true file = .ok found := by
  unfold scanFile at h
  split at h
  · cases h
  · exact ⟨_, ‹_›⟩
  · cases h

end OneFile

/-! ## A file of a listing -/

section Held

variable (hleads : t.LeadsTo cwd input a) (htext : input.bytes ≠ []) (hf : IsHeld t a f)

include hleads htext hf

/-- What scanning a file of a listing gives. -/
theorem scanFile_descend_eq_ok : scanFile t cwd marker (input.descend f.1) = .ok x ↔
    Followed input f.1 ∧ ClassFile.scan marker f.2 = .ok x := by
  constructor
  · intro hscan
    obtain ⟨found, hfound⟩ := exists_stat_of_scanFile hscan
    have hfollowed := hleads.followed htext hf.plain hf.node hfound
    have hstat := hleads.stat_descend htext hf.plain hf.ne_nil hf.node hfollowed
    exact ⟨hfollowed, (scanFile_eq_ok hstat).1 hscan⟩
  · intro ⟨hfollowed, hscan⟩
    have hstat := hleads.stat_descend htext hf.plain hf.ne_nil hf.node hfollowed
    exact (scanFile_eq_ok hstat).2 hscan

theorem scans_descend : Scans t cwd marker (input.descend f.1) ↔ IsScanned marker input f := by
  unfold Scans IsScanned
  simp only [scanFile_descend_eq_ok hleads htext hf, exists_and_left, ClassFile.scan_answers]

theorem isMarked_descend : isMarked t cwd marker (input.descend f.1) = true ↔
    Followed input f.1 ∧ HasMarked (Text.encode marker) f.2 := by
  rw [← ClassFile.scan_eq_some, ← exists_and_left]
  simp only [← scanFile_descend_eq_ok hleads htext hf]
  unfold isMarked
  split <;> simp_all

/-- A file of a listing that is not scanned is rejected for one of three reasons. -/
theorem exists_rejected (h : ¬ IsScanned marker input f) :
    ∃ fault, scanFile t cwd marker (input.descend f.1) = .error fault ∧
      Rejected marker input f fault := by
  by_cases hfollowed : Followed input f.1
  · have hstat := hleads.stat_descend htext hf.plain hf.ne_nil hf.node hfollowed
    by_cases hempty : f.2 = []
    · rw [hempty] at hstat
      exact ⟨_, scanFile_of_empty hstat, .empty hempty⟩
    · cases hscan : ClassFile.scan marker f.2 with
      | error fault => exact ⟨_, scanFile_of_error hstat hempty hscan, .malformed fault hempty hscan⟩
      | ok x => exact absurd ⟨hfollowed, ClassFile.scan_answers.1 ⟨x, hscan⟩⟩ h
  · cases hstat : t.stat cwd true (input.descend f.1) with
    | error cause => exact ⟨_, by rw [scanFile, hstat], .notOpened cause hfollowed⟩
    | ok found => exact absurd (hleads.followed htext hf.plain hf.node hstat) hfollowed

end Held

/-! ## The selection -/

section Listed

variable (h : t.stat cwd true input = .ok (a, .folder))

include h

/-- The class files of a folder are listed. -/
theorem exists_listing
    (hnames : ∀ names n, t.node? (a ++ names) = some n → ∀ w ∈ names, Path.IsPlain w) :
    ∃ files, Listing t cwd a input files := by
  by_cases hbase : FileTree.isStandardInput input = true
  · -- standard input holds nothing
    refine ⟨[], ?_, .nil, by simp⟩
    rw [classFiles, FileTree.walkFiles, FileTree.walk, if_pos hbase]
    rfl
  · have hlists : FileTree.Lists t t.namesIn := FileTree.lists_of_perm fun _ => .refl _
    refine ⟨(FileTree.filesSeen (t.visit t.namesIn a)).filter fun f =>
      (input.descend f.1).extension? == some "class", ?_, ?_, ?_⟩
    · rw [classFiles, FileTree.walkFiles_eq h (Bool.eq_false_iff.2 hbase) hlists]
      show Except.ok _ = Except.ok _
      rw [List.map_map, List.filter_map]
      rfl
    · have hbefore := FileTree.pairwise_filesSeen (FileTree.pairwise_visit hlists a)
      exact List.pairwise_map.2 ((hbefore.imp FileTree.Before.ne).filter _)
    · intro f hf
      obtain ⟨hne, hnode⟩ := (FileTree.mem_filesSeen_visit hlists).1 (List.mem_filter.1 hf).1
      exact ⟨hne, hnames _ _ hnode, hnode⟩

variable (hfiles : Listing t cwd a input files)

include hfiles

theorem ofFolder_of_listing : (ofFolder t cwd marker input).1 =
    (keepMarked t cwd marker (files.map fun f => input.descend f.1)).1.map
      fun classes => ⟨files.length, classes⟩ := by
  have hinput : checkInput t cwd input = .ok () :=
    checkInput_eq_ok.2 (by rw [FileTree.isFolder, h])
  simp only [ofFolder, hinput, hfiles.listed, List.length_map]

open Classical in
theorem ofFolder_of_scanned (marker : String)
    (hscanned : ∀ f ∈ files, IsScanned marker input f) :
    (ofFolder t cwd marker input).1 = .ok ⟨files.length,
      (files.filter fun f => HasMarked (Text.encode marker) f.2).map fun f => input.descend f.1⟩ := by
  obtain ⟨htext, hleads⟩ := FileTree.reaches_of_stat h
  have hscans : ∀ p ∈ files.map fun f => input.descend f.1, Scans t cwd marker p := by
    intro p hp
    obtain ⟨f, hf, rfl⟩ := List.mem_map.1 hp
    exact (scans_descend hleads htext (hfiles.held f hf)).2 (hscanned f hf)
  have hmarked : ∀ f ∈ files, (isMarked t cwd marker ∘ fun f => input.descend f.1) f =
      decide (HasMarked (Text.encode marker) f.2) := by
    intro f hf
    rw [Function.comp, Bool.eq_iff_iff, isMarked_descend hleads htext (hfiles.held f hf), decide_eq_true_iff]
    exact and_iff_right (hscanned f hf).1
  rw [ofFolder_of_listing h hfiles, keepMarked_of_scans hscans, List.filter_map]
  show Except.ok _ = Except.ok _
  rw [List.filter_congr hmarked]

theorem ofFolder_of_unscanned {front back : List (Address × Bytes)}
    (hsplit : files = front ++ f :: back) (hfront : ∀ g ∈ front, IsScanned marker input g)
    (hnot : ¬ IsScanned marker input f) : ∃ fault, Rejected marker input f fault ∧
      (ofFolder t cwd marker input).1 = .error (.scan (input.descend f.1) fault.failure) := by
  obtain ⟨htext, hleads⟩ := FileTree.reaches_of_stat h
  have hheld : ∀ g ∈ front ++ f :: back, IsHeld t a g := hsplit ▸ hfiles.held
  obtain ⟨fault, hfault, hrejected⟩ := exists_rejected hleads htext (hheld f (by simp)) hnot
  have hscans : ∀ p ∈ front.map fun g => input.descend g.1, Scans t cwd marker p := by
    intro p hp
    obtain ⟨g, hg, rfl⟩ := List.mem_map.1 hp
    exact (scans_descend hleads htext (hheld g (by simp [hg]))).2 (hfront g hg)
  refine ⟨fault, hrejected, ?_⟩
  rw [ofFolder_of_listing h hfiles, hsplit, List.map_append, List.map_cons,
    keepMarked_of_fault hscans hfault]
  rfl

end Listed

/-- Files of a listing are told apart by their paths. -/
theorem IsHeld.ext (htext : input.bytes ≠ []) (hf : IsHeld t a f) (hg : IsHeld t a g)
    (h : input.descend f.1 = input.descend g.1) : f = g := by
  have hnames : f.1 = g.1 := descend_inj htext hf.plain hg.plain h
  have hnode := hf.node
  rw [hnames, hg.node] at hnode
  exact Prod.ext hnames (Node.file.inj (Option.some.inj hnode)).symm

theorem Listing.unique {files' : List (Address × Bytes)} (htext : input.bytes ≠ [])
    (h : Listing t cwd a input files) (h' : Listing t cwd a input files') : files = files' := by
  have hpaths := Except.ok.inj (h.listed.symm.trans h'.listed)
  exact map_inj_of_forall (S := IsHeld t a) (fun _ _ hf hg => hf.ext htext hg) h.held h'.held hpaths

/-- No file of a listing stands in the way of another one. -/
theorem Listing.apart (h : Listing t cwd a input files) :
    (files.map Prod.fst).Pairwise fun v w => ¬ v <+: w ∧ ¬ w <+: v := by
  have hno : ∀ f ∈ files, ∀ g ∈ files, f.1 ≠ g.1 → ¬ f.1 <+: g.1 := by
    intro f hf g hg hne hp
    have hfolder := FileTree.node?_above (h.held g hg).node
      ((List.prefix_append_right_inj a).2 hp) fun heq => hne (List.append_cancel_left heq)
    rw [(h.held f hf).node] at hfolder
    cases hfolder
  refine List.pairwise_map.2 ((List.pairwise_map.1 h.nodup).imp_of_mem fun {f g} hf hg hne => ?_)
  exact ⟨hno f hf g hg hne, hno g hg f hf hne.symm⟩

/-- What is selected is part of the listing. -/
theorem Listing.exists_selected (h : t.stat cwd true input = .ok (a, .folder))
    (hfiles : Listing t cwd a input files) {s : Selection}
    (hok : (ofFolder t cwd marker input).1 = .ok s) :
    ∃ selected : List (Address × Bytes), s.classes = selected.map (fun f => input.descend f.1) ∧
      selected.Sublist files := by
  rw [ofFolder_of_listing h hfiles] at hok
  cases hkept : (keepMarked t cwd marker (files.map fun f => input.descend f.1)).1 with
  | error e =>
    rw [hkept] at hok
    cases hok
  | ok classes =>
    rw [hkept] at hok
    refine ⟨files.filter (isMarked t cwd marker ∘ fun f => input.descend f.1), ?_,
      List.filter_sublist⟩
    rw [← Except.ok.inj hok, ← List.filter_map]
    exact keepMarked_eq_ok hkept

/-- Where a folder holds class files and nothing else, they are its listing. -/
theorem listing_of_under (h : t.stat cwd true input = .ok (a, .folder))
    (hbase : FileTree.isStandardInput input = false)
    (hunder : t.under a = files.map fun f => (f.1, .file f.2))
    (hclass : ∀ f ∈ files, (input.descend f.1).extension? = some (Text.encode "class"))
    (hnames : ∀ names n, t.node? (a ++ names) = some n → ∀ w ∈ names, Path.IsPlain w) :
    Listing t cwd a input files := by
  refine ⟨?_, ?_, ?_⟩
  · have hseen : classFilesSeen input (files.map fun f => (f.1, .file f.2)) = files.map Prod.fst := by
      rw [classFilesSeen, List.filterMap_map]
      show (files.filterMap (some ∘ Prod.fst)).filter _ = _
      rw [List.filterMap_eq_map, List.filter_eq_self]
      intro names hnames
      obtain ⟨f, hf, rfl⟩ := List.mem_map.1 hnames
      exact beq_iff_eq.2 (hclass f hf)
    rw [classFiles_of_folder h hbase, hunder, hseen, List.map_map]
    rfl
  · have hnodup := FileTree.nodup_under t a
    rwa [hunder, List.map_map] at hnodup
  · intro f hf
    obtain ⟨hne, hnode⟩ := FileTree.mem_under.1 (hunder ▸ List.mem_map.2 ⟨f, hf, rfl⟩)
    exact ⟨hne, hnames _ _ hnode, hnode⟩

/-- Of files that are not all scanned, one is the first. -/
theorem exists_first_unscanned (h : ¬ ∀ f ∈ files, IsScanned marker input f) :
    ∃ front f back, files = front ++ f :: back ∧ (∀ g ∈ front, IsScanned marker input g) ∧
      ¬ IsScanned marker input f := by
  classical
  have hany : files.any (fun f => decide (¬ IsScanned marker input f)) = true := by
    simpa using h
  obtain ⟨front, f, back, hsplit, hfront, hnot⟩ := exists_first hany
  exact ⟨front, f, back, hsplit, by simpa using hfront, by simpa using hnot⟩

open Classical in
/-- Of the class files of a folder, those with a marked method are selected, in the order in which they
    are listed, if all of them are scanned. Otherwise the selection fails at the first that is not,
    whichever files are marked. A file with a marked method counts as one, whatever stands behind that
    method: it is selected with the others, and is never what the selection fails at. -/
theorem ofFolder_keeps_marked (marker : String) (h : t.stat cwd true input = .ok (a, .folder))
    (hnames : ∀ names n, t.node? (a ++ names) = some n → ∀ w ∈ names, Path.IsPlain w) :
    ∃ files, Listing t cwd a input files ∧
      ((∀ f ∈ files, IsScanned marker input f) →
        (ofFolder t cwd marker input).1 = .ok ⟨files.length,
          (files.filter fun f => HasMarked (Text.encode marker) f.2).map
            fun f => input.descend f.1⟩) ∧
      (∀ front f back, files = front ++ f :: back → (∀ g ∈ front, IsScanned marker input g) →
        ¬ IsScanned marker input f → ∃ fault, Rejected marker input f fault ∧
          (ofFolder t cwd marker input).1 = .error (.scan (input.descend f.1) fault.failure)) ∧
      ∀ f ∈ files, Followed input f.1 → HasMarked (Text.encode marker) f.2 →
        (∀ s, (ofFolder t cwd marker input).1 = .ok s → input.descend f.1 ∈ s.classes) ∧
        ∀ cause, (ofFolder t cwd marker input).1 ≠ .error (.scan (input.descend f.1) cause) := by
  obtain ⟨files, hfiles⟩ := exists_listing h hnames
  have hgood := ofFolder_of_scanned h hfiles marker
  refine ⟨files, hfiles, hgood, fun _ _ _ => ofFolder_of_unscanned h hfiles,
    fun f hf hfollowed hmarked => ?_⟩
  by_cases hall : ∀ g ∈ files, IsScanned marker input g
  · rw [hgood hall]
    constructor
    · intro s hs
      rw [← Except.ok.inj hs]
      exact List.mem_map.2 ⟨f, List.mem_filter.2 ⟨hf, by simpa using hmarked⟩, rfl⟩
    · intro cause hcause
      cases hcause
  · obtain ⟨front, g, back, hsplit, hfront, hnot⟩ := exists_first_unscanned hall
    obtain ⟨fault, -, hfails⟩ := ofFolder_of_unscanned h hfiles hsplit hfront hnot
    rw [hfails]
    constructor
    · intro s hs
      cases hs
    · intro cause hcause
      have hg : IsHeld t a g := hfiles.held g (by simp [hsplit])
      obtain ⟨hpath, -⟩ := RunError.scan.inj (Except.error.inj hcause)
      obtain rfl := hg.ext (FileTree.reaches_of_stat h).1 (hfiles.held f hf) hpath
      exact hnot ⟨hfollowed, .inl hmarked⟩

/-! ## Two folders -/

/-- A class file that announces a method more than it has: behind its second method, which is marked,
    stands a byte of nothing. -/
def brokenBehindMarked : Bytes :=
  { ClassFile.specimen.head with methodCount := 3 }.encode ++
    (ClassFile.Format.encodeMethods ClassFile.specimen.methods ++ [0xFF])

/-- A class file without methods. -/
def methodless : Bytes :=
  { ClassFile.specimen.head with methodCount := 0 }.encode

theorem hasMarked_brokenBehindMarked : HasMarked (Text.encode "T") brokenBehindMarked :=
  ClassFile.hasMarked_of_split (h := { ClassFile.specimen.head with methodCount := 3 })
    [ClassFile.specimen.methods[0]] ClassFile.specimen.methods[1] (by decide) (by decide) (by decide) (by decide) [0xFF]

theorem lacksMarked_methodless : LacksMarked (Text.encode "T") methodless :=
  ⟨{ ClassFile.specimen.head with methodCount := 0 }, [], [], (List.append_nil _).symm,
    ⟨rfl, by simp, List.nil_prefix⟩⟩

/-- A folder with a class file that is broken behind its marked method, and one without methods; and a
    folder in which an empty one stands between marked ones. -/
def mixedClasses : FileTree where
  entries := [(["good"], .folder), (["good", "A.class"], .file brokenBehindMarked),
    (["good", "B.class"], .file methodless), (["bad"], .folder),
    (["bad", "A.class"], .file brokenBehindMarked), (["bad", "B.class"], .file []),
    (["bad", "C.class"], .file brokenBehindMarked)]
  nodup := by decide
  rooted := by simp [FileTree.FolderIn]

theorem plain_mixedClasses (hne : a ≠ []) (names : Address) (n : Node)
    (h : mixedClasses.node? (a ++ names) = some n) : ∀ w ∈ names, Path.IsPlain w := by
  have hplain : ∀ e ∈ mixedClasses.entries, ∀ w ∈ e.1, Path.IsPlain w := by decide
  intro w hw
  exact hplain _ (FileTree.mem_of_node? (by simp [hne]) h) w (List.mem_append_right _ hw)

theorem ofFolder_keeps_marked_mixedClasses :
    (ofFolder mixedClasses [] "T" ⟨"good"⟩).1 = .ok ⟨2, [⟨"good/A.class"⟩]⟩ ∧
      ∃ cause, (ofFolder mixedClasses [] "T" ⟨"bad"⟩).1 =
        .error (.scan ⟨"bad/B.class"⟩ cause) := by
  classical
  constructor
  · have hstat : mixedClasses.stat [] true ⟨"good"⟩ = .ok (["good"], .folder) := by rfl
    obtain ⟨files, hfiles, hgood, -, -⟩ :=
      ofFolder_keeps_marked "T" hstat (plain_mixedClasses (by simp))
    have hunder : mixedClasses.under ["good"] =
        ([(["A.class"], .file brokenBehindMarked), (["B.class"], .file methodless)] :
          List (Address × Node)) := by
      rw [FileTree.under]
      exact List.mergeSort_of_pairwise (by decide +kernel)
    have hlisting : Listing mixedClasses [] ["good"] ⟨"good"⟩
        [(["A.class"], brokenBehindMarked), (["B.class"], methodless)] :=
      listing_of_under hstat (by decide) hunder (by decide) (plain_mixedClasses (by simp))
    obtain rfl := hfiles.unique (by decide) hlisting
    have hscanned : ∀ f ∈ ([(["A.class"], brokenBehindMarked), (["B.class"], methodless)] :
        List (Address × Bytes)), IsScanned "T" ⟨"good"⟩ f := by
      simp only [List.forall_mem_cons]
      exact ⟨⟨⟨by rfl, by decide⟩, .inl hasMarked_brokenBehindMarked⟩,
        ⟨⟨by rfl, by decide⟩, .inr lacksMarked_methodless⟩, by simp⟩
    have hkept : ([(["A.class"], brokenBehindMarked), (["B.class"], methodless)] :
        List (Address × Bytes)).filter (fun f => decide (HasMarked (Text.encode "T") f.2)) =
          [((["A.class"] : Address), brokenBehindMarked)] := by
      simp [hasMarked_brokenBehindMarked, lacksMarked_methodless.not_hasMarked]
    rw [hgood hscanned, hkept]
    rfl
  · have hstat : mixedClasses.stat [] true ⟨"bad"⟩ = .ok (["bad"], .folder) := by rfl
    obtain ⟨files, hfiles, -, hbad, -⟩ :=
      ofFolder_keeps_marked "T" hstat (plain_mixedClasses (by simp))
    have hunder : mixedClasses.under ["bad"] = ([(["A.class"], .file brokenBehindMarked),
        (["B.class"], .file []), (["C.class"], .file brokenBehindMarked)] :
          List (Address × Node)) := by
      rw [FileTree.under]
      exact List.mergeSort_of_pairwise (by decide +kernel)
    have hlisting : Listing mixedClasses [] ["bad"] ⟨"bad"⟩ [(["A.class"], brokenBehindMarked),
        (["B.class"], []), (["C.class"], brokenBehindMarked)] :=
      listing_of_under hstat (by decide) hunder (by decide) (plain_mixedClasses (by simp))
    obtain rfl := hfiles.unique (by decide) hlisting
    have hmarked : IsScanned "T" ⟨"bad"⟩ (["A.class"], brokenBehindMarked) :=
      ⟨⟨by rfl, by decide⟩, .inl hasMarked_brokenBehindMarked⟩
    have hempty : ¬ IsScanned "T" ⟨"bad"⟩ (["B.class"], []) := by
      rintro ⟨-, haccepted⟩
      obtain ⟨x, hscan⟩ := ClassFile.scan_answers.2 haccepted
      exact scan_nil "T" hscan
    obtain ⟨fault, -, hfails⟩ := hbad [(["A.class"], brokenBehindMarked)] (["B.class"], [])
      [(["C.class"], brokenBehindMarked)] (by rfl) (by simpa using hmarked) hempty
    exact ⟨_, hfails⟩

end SourceRecovery.Selection
