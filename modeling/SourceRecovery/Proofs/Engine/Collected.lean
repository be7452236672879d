import Mathlib.Data.List.Forall2
import SourceRecovery.Proofs.Engine.Handover
import SourceRecovery.Proofs.FileTree.Files

/-!
# What is collected

What a receiver is handed of the files that a decompiler has left, and how that ends.

* `Work.handed`: the units that a receiver is handed along a course of action.
* `IsUnitOf`: the unit in a file.
* `SourceUnit.spelled`, `IsUnitOf.stripBase?`: it tells where the file stands.
* `Collected`: the three ways in which files are handed over.
* `collected_deliverFiles`, `harvest_collects`: there is no other way, and no file is left out.
-/

namespace SourceRecovery

open FileTree (Before Followed Lists filesSeen)

variable {σ α : Type} {receiver : Work.Receiver σ} {t t' w : FileTree} {cwd root : Address}
  {base : Path} {files front back : List (Address × Bytes)} {f : Address × Bytes} {u : SourceUnit}
  {names : Address} {content : String} {s s' : σ}

/-- The units that a receiver is handed along a course of action, in their order. -/
def Work.handed (receiver : Receiver σ) : Work α → FileTree → σ → List SourceUnit
  | .done _, _, _ => []
  | .note event rest, t, s => rest.handed receiver t (receiver.onEvent event s)
  | .files change rest, t, s => (rest t).handed receiver (change t) s
  | .deliver u rest, t, s =>
    let (answer, t, s) := receiver.onUnit u t s
    u :: (rest answer).handed receiver t s

/-- A folder and a name behind each other; a name alone has no folder. -/
def SourceUnit.spelled (u : SourceUnit) : String :=
  if u.folder = "" then u.entryName else u.folder ++ "/" ++ u.entryName

namespace Engine

/-! ## One file -/

/-- Whether a unit is the one in a file: the system follows the path of the file, the file holds the
    text of the unit, and its names are those of the unit. -/
structure IsUnitOf (base : Path) (f : Address × Bytes) (u : SourceUnit) : Prop where
  followed : Followed base f.1
  text : Text.encode u.content = f.2
  unit : u = unitOfFile f.1 u.content

/-- The folder and the name of a unit, put together again, are the names that lead to its file, as they
    are shown. -/
theorem spelled_unitOfFile (hplain : ∀ v ∈ names, Path.IsPlain v) (hne : names ≠ []) :
    (unitOfFile names content).spelled = Path.shown names := by
  obtain ⟨front, w, rfl⟩ := Path.exists_concat hne
  have hunit : (unitOfFile (front ++ [w]) content).folder = Path.shown front ∧
      (unitOfFile (front ++ [w]) content).entryName = Text.decodeLossy w := by
    simp [unitOfFile, Path.shown]
  rw [SourceUnit.spelled, hunit.1, hunit.2]
  by_cases hfront : front = []
  · subst hfront
    rw [if_pos (by rfl)]
    rw [Path.shown, List.nil_append, List.map_singleton, Text.join, String.intercalate_singleton]
  · have hbytes : (Path.ofPieces front).bytes ≠ [] := Path.bytes_ofPieces_ne_nil
      (fun v hv => hplain v (List.mem_append_left [w] hv)) hfront
    have hfolder : Path.shown front ≠ "" := by
      rw [← Path.text_ofPieces]
      exact mt Text.decodeLossy_eq_empty.1 hbytes
    rw [if_neg hfolder, Path.shown, Path.shown, List.map_append, Text.join, Text.join,
      String.intercalate_append_of_ne_nil (by simpa using hfront) (by simp)]
    simp

/-- The text of a file can be read exactly if the system follows its path and its bytes spell a text. -/
theorem readText_descend (htext : base.bytes ≠ []) (hleads : w.LeadsTo cwd base root)
    (hplain : ∀ v ∈ f.1, Path.IsPlain v) (hne : f.1 ≠ [])
    (hnode : w.node? (root ++ f.1) = some (.file f.2)) :
    (∃ content, readText w cwd (base.descend f.1) = .ok content ∧
        IsUnitOf base f (unitOfFile f.1 content)) ∨
      ∃ cause, readText w cwd (base.descend f.1) = .error cause ∧ (∀ u, ¬ IsUnitOf base f u) ∧
        (Followed base f.1 → cause = .notText) := by
  by_cases hfollowed : Followed base f.1
  · have hstat := hleads.stat_descend htext hplain hne hnode hfollowed
    cases hdecode : Text.decode? f.2 with
    | some content =>
      left
      refine ⟨content, ?_, hfollowed, Text.decode?_eq_some.1 hdecode, rfl⟩
      simp only [readText, FileTree.read, hstat, hdecode]
    | none =>
      right
      refine ⟨.notText, ?_, fun u hu => ?_, fun _ => rfl⟩
      · simp only [readText, FileTree.read, hstat, hdecode]
      · rw [Text.decode?_eq_some.2 hu.text] at hdecode
        cases hdecode
  · right
    cases hstat : w.stat cwd true (base.descend f.1) with
    | error cause =>
      refine ⟨cause, ?_, fun u hu => hfollowed hu.followed, fun h => absurd h hfollowed⟩
      simp only [readText, FileTree.read, hstat]
    | ok found => exact absurd (hleads.followed htext hplain hnode hstat) hfollowed

/-! ## All files -/

/-- The ways in which files are handed over: all of them are taken; or one cannot be read, behind
    others that are taken; or one is refused. In each, the units, and the outcome. -/
inductive Collected (receiver : Work.Receiver σ) (base : Path) (t : FileTree) (s : σ)
    (files : List (Address × Bytes)) :
    List SourceUnit → Except Failure Unit × FileTree × σ → Prop
  | all {units : List SourceUnit} {t' : FileTree} {s' : σ}
    (hunits : List.Forall₂ (IsUnitOf base) files units)
    (htaken : (Run.handOver units).perform receiver t s = (.ok (), t', s')) :
    Collected receiver base t s files units (.ok (), t', s')
  | unreadable {front back : List (Address × Bytes)} {f : Address × Bytes} {units : List SourceUnit}
    {t' : FileTree} {s' : σ} {cause : IoFault} (hsplit : files = front ++ f :: back)
    (hunits : List.Forall₂ (IsUnitOf base) front units)
    (htaken : (Run.handOver units).perform receiver t s = (.ok (), t', s'))
    (hnot : ∀ u, ¬ IsUnitOf base f u) (hcause : Followed base f.1 → cause = .notText) :
    Collected receiver base t s files units
      (.error (HarvestFault.unreadable (base.descend f.1) cause).failure, t', s')
  | refused {front back : List (Address × Bytes)} {f : Address × Bytes} {units : List SourceUnit}
    {u : SourceUnit} {t' t'' : FileTree} {s' s'' : σ} {failure : Failure}
    (hsplit : files = front ++ f :: back) (hunits : List.Forall₂ (IsUnitOf base) front units)
    (htaken : (Run.handOver units).perform receiver t s = (.ok (), t', s'))
    (hunit : IsUnitOf base f u) (hrefused : receiver.onUnit u t' s' = (.error failure, t'', s'')) :
    Collected receiver base t s files (units ++ [u]) (.error failure, t'', s'')

/-- A file that is taken comes in front of whatever becomes of the others. -/
theorem Collected.cons {units : List SourceUnit} {outcome : Except Failure Unit × FileTree × σ}
    (hunit : IsUnitOf base f u) (htaken : receiver.onUnit u t s = (.ok (), t', s'))
    (h : Collected receiver base t' s' files units outcome) :
    Collected receiver base t s (f :: files) (u :: units) outcome := by
  have hmore : ∀ us, (Run.handOver (u :: us)).perform receiver t s =
      (Run.handOver us).perform receiver t' s' := by
    intro us
    rw [Run.handOver, Work.perform_deliver, htaken]
  cases h with
  | all hunits hall => exact .all (.cons hunit hunits) (by rw [hmore, hall])
  | unreadable hsplit hunits hfront hnot hcause =>
    exact .unreadable (congrArg (f :: ·) hsplit) (.cons hunit hunits) (by rw [hmore, hfront]) hnot hcause
  | refused hsplit hunits hfront hlast hrefused =>
    exact .refused (congrArg (f :: ·) hsplit) (.cons hunit hunits) (by rw [hmore, hfront]) hlast hrefused

/-- Where collecting ends well, every file has been handed over. -/
theorem Collected.exists_unit {units : List SourceUnit} {outcome : Except Failure Unit × FileTree × σ}
    (h : Collected receiver base t s files units outcome) (hok : outcome.1 = .ok ()) :
    ∀ f ∈ files, ∃ u ∈ units, IsUnitOf base f u := by
  cases h with
  | all hunits htaken =>
    clear htaken
    induction hunits with
    | nil => simp
    | cons hunit _ ih =>
      intro f hf
      rcases List.mem_cons.1 hf with rfl | hf
      · exact ⟨_, List.mem_cons_self, hunit⟩
      · obtain ⟨u, hu, hunit'⟩ := ih f hf
        exact ⟨u, List.mem_cons_of_mem _ hu, hunit'⟩
  | unreadable _ _ _ _ _ => cases hok
  | refused _ _ _ _ _ => cases hok

/-- Files are handed over one after another, until one cannot be read or is refused, if what the
    receiver does has no influence on what is read. -/
theorem collected_deliverFiles (hmakes : receiver.Makes w t) (hnames : ∀ f ∈ files, f.1 ≠ [])
    (hread : ∀ f ∈ files, ∀ t', receiver.Makes w t' →
      (∃ content, readText t' cwd (base.descend f.1) = .ok content ∧
        IsUnitOf base f (unitOfFile f.1 content)) ∨
      ∃ cause, readText t' cwd (base.descend f.1) = .error cause ∧ (∀ u, ¬ IsUnitOf base f u) ∧
        (Followed base f.1 → cause = .notText)) (s : σ) :
    Collected receiver base t s files
      ((deliverFiles cwd base (files.map Prod.fst)).handed receiver t s)
      ((deliverFiles cwd base (files.map Prod.fst)).perform receiver t s) := by
  induction files generalizing t s with
  | nil => exact .all .nil rfl
  | cons f rest ih =>
    obtain ⟨hfirst, hrest⟩ := List.forall_mem_cons.1 hread
    obtain ⟨hne, hnames⟩ := List.forall_mem_cons.1 hnames
    rw [List.map_cons, deliverFiles, Work.perform_files, Work.handed]
    rcases hfirst t hmakes with ⟨content, htext, hunit⟩ | ⟨cause, hfails, hnot, hcause⟩
    · simp only [id, htext, namesOfFile_of_ne_nil hne]
      rw [Work.perform_deliver, Work.handed]
      have htaken := hmakes.taken (unitOfFile f.1 content) s
      cases houtcome : receiver.onUnit (unitOfFile f.1 content) t s with
      | mk answer after =>
        obtain ⟨t', s'⟩ := after
        rw [houtcome] at htaken
        cases answer with
        | error failure =>
          exact .refused (List.nil_append _).symm .nil rfl hunit houtcome
        | ok _ => exact (ih htaken hnames hrest s').cons hunit houtcome
    · simp only [id, hfails]
      exact .unreadable (List.nil_append _).symm .nil rfl hnot hcause

/-- The files below a folder are handed over in the order of their addresses, each with its text and
    its place, until one cannot be read or the receiver refuses one. The receiver has been handed the
    units of the files in front of that one, and the one that it refuses, and nothing is handed over
    behind it. The place is told as it is shown, which is exact where the names are text. In which order
    the system lists the names in each folder makes no difference. -/
theorem harvest_collects {listing : Address → List Name}
    (hfolder : w.stat cwd true base = .ok (root, .folder))
    (hbase : FileTree.isStandardInput base = false)
    (hplain : ∀ names n, w.node? (root ++ names) = some n → ∀ v ∈ names, Path.IsPlain v)
    (hlisting : Lists w listing) (hspares : receiver.Spares (root <+: ·) w) (s : σ) :
    ∃ files, files = filesSeen (w.visit listing root) ∧
      (∀ names content, (names, content) ∈ files ↔ w.node? (root ++ names) = some (.file content)) ∧
      files.Pairwise (fun f g => Before f.1 g.1) ∧
      Collected receiver base w s files ((harvest cwd base).handed receiver w s)
        ((harvest cwd base).perform receiver w s) ∧
      ∀ f ∈ files, ∀ u, IsUnitOf base f u → ∃ below,
        base.stripBase? (base.descend f.1) = some below ∧ u.spelled = below.text ∧
          ((∀ v ∈ f.1, Text.IsText v) → below = .ofText u.spelled) := by
  obtain ⟨htext, hleads⟩ := FileTree.reaches_of_stat hfolder
  have hroot := FileTree.node?_of_stat hfolder
  have hmem : ∀ names content, (names, content) ∈ filesSeen (w.visit listing root) ↔
      w.node? (root ++ names) = some (.file content) := by
    intro names content
    rw [FileTree.mem_filesSeen_visit hlisting, and_iff_right_iff_imp]
    rintro hfile rfl
    rw [List.append_nil, hroot] at hfile
    cases hfile
  have hheld : ∀ f ∈ filesSeen (w.visit listing root), f.1 ≠ [] ∧ (∀ v ∈ f.1, Path.IsPlain v) ∧
      w.node? (root ++ f.1) = some (.file f.2) := by
    intro f hf
    obtain ⟨hne, hnode⟩ := (FileTree.mem_filesSeen_visit hlisting).1 hf
    exact ⟨hne, hplain _ _ hnode, hnode⟩
  refine ⟨_, rfl, hmem, FileTree.pairwise_filesSeen (FileTree.pairwise_visit hlisting root), ?_, ?_⟩
  · have hwalk := FileTree.walkFiles_eq hfolder hbase hlisting
    rw [harvest, Work.perform_files, Work.handed]
    simp only [id, hwalk]
    refine collected_deliverFiles .nothing (fun f hf => (hheld f hf).1) (fun f hf t' ht' => ?_) s
    obtain ⟨hne, hnames, hnode⟩ := hheld f hf
    have hkept := hspares t' ht'
    exact readText_descend htext (hkept.leadsTo hleads) hnames hne
      (hkept.files _ _ (List.prefix_append _ _) hnode)
  · intro f hf u hunit
    obtain ⟨hne, hnames, -⟩ := hheld f hf
    rw [hunit.unit, spelled_unitOfFile hnames hne]
    exact ⟨_, Path.stripBase?_descend htext hnames hne, (Path.text_ofPieces f.1).symm,
      fun htexts => (Path.ofText_shown htexts).symm⟩

/-- A folder with a text, a file that is none, and another text. -/
def mixedSources : FileTree where
  entries := [(["out"], .folder), (["out", "A.kt"], .file (Text.encode "a")),
    (["out", "B.bin"], .file [0xFF]), (["out", "C.kt"], .file (Text.encode "c"))]
  nodup := by decide
  rooted := by simp [FileTree.FolderIn]

/-- A receiver that takes every unit, counts them, and changes nothing. -/
def counter : Work.Receiver Nat where
  onEvent _ n := n
  onUnit _ t n := (.ok (), t, n + 1)

theorem spares_counter (kept : Address → Prop) (w : FileTree) : counter.Spares kept w := by
  intro t ht
  induction ht with
  | nothing => exact .refl kept w
  | taken _ _ _ ih => exact ih

/-- The file that is no text ends the collecting. -/
theorem harvest_collects_mixedSources :
    ∃ files, ((["B.bin"], [0xFF]) : Address × Bytes) ∈ files ∧
      Collected counter ⟨"out"⟩ mixedSources 0 files
        ((harvest [] ⟨"out"⟩).handed counter mixedSources 0)
        ((harvest [] ⟨"out"⟩).perform counter mixedSources 0) ∧
      ((harvest [] ⟨"out"⟩).perform counter mixedSources 0).1 ≠ .ok () := by
  have hplain : ∀ names n, mixedSources.node? ((["out"] : Address) ++ names) = some n →
      ∀ v ∈ names, Path.IsPlain v := by
    have hentries : ∀ e ∈ mixedSources.entries, ∀ v ∈ e.1, Path.IsPlain v := by decide
    intro names n hnode v hv
    exact hentries _ (FileTree.mem_of_node? (by simp) hnode) v (List.mem_append_right _ hv)
  obtain ⟨files, -, hmem, -, hcollected, -⟩ := harvest_collects
    (show mixedSources.stat [] true ⟨"out"⟩ = .ok (["out"], .folder) by rfl) (by decide) hplain
    (FileTree.lists_of_perm fun _ => .refl _) (spares_counter _ _) 0
  have hbinary : ((["B.bin"], [0xFF]) : Address × Bytes) ∈ files := (hmem _ _).2 (by rfl)
  refine ⟨files, hbinary, hcollected, fun hok => ?_⟩
  obtain ⟨u, -, hunit⟩ := hcollected.exists_unit hok _ hbinary
  have hdecode := Text.decode?_eq_some.2 hunit.text
  have hnone : Text.decode? [0xFF] = none := by rfl
  rw [hnone] at hdecode
  cases hdecode

/-- A name that is no text. -/
def illName : Name := [0xFF] ++ Text.encode ".kt"

/-- A folder with one text, which has that name. -/
def illNamed : FileTree where
  entries := [(["out"], .folder), (["out", illName], .file (Text.encode "a"))]
  nodup := by decide
  rooted := by simp [FileTree.FolderIn]

/-- A path of that folder which is nearly too long. -/
def farOut : Path :=
  ⟨(List.replicate 2046 (Text.encode "./")).flatten ++ Text.encode "out"⟩

theorem walkFiles_illNamed (hstat : illNamed.stat [] false base = .ok (["out"], .folder))
    (hbase : FileTree.isStandardInput base = false) :
    illNamed.walkFiles [] base = .ok [[illName]] := by
  have hunder : illNamed.under ["out"] = [([illName], .file (Text.encode "a"))] :=
    List.mergeSort_singleton _
  simp only [FileTree.walkFiles, FileTree.walk, hstat, hbase, hunder]
  rfl

/-- The text is handed over with a name that is not its own; and it is not handed over at all where its
    path is too long, although its folder can be listed. -/
theorem harvest_misspells :
    (∃ u, (harvest [] ⟨"out"⟩).handed counter illNamed 0 = [u] ∧ u.spelled = "\uFFFD.kt" ∧
      Path.stripBase? ⟨"out"⟩ (Path.descend ⟨"out"⟩ [illName]) ≠ some (.ofText u.spelled)) ∧
    illNamed.stat [] true farOut = .ok (["out"], .folder) ∧
      (harvest [] farOut).handed counter illNamed 0 = [] ∧
      ((harvest [] farOut).perform counter illNamed 0).1 ≠ .ok () := by
  refine ⟨?_, ?_⟩
  · have hstat : illNamed.stat [] false ⟨"out"⟩ = .ok (["out"], .folder) := by rfl
    have hwalk := walkFiles_illNamed hstat (by decide)
    refine ⟨unitOfFile [illName] "a", ?_, by decide +kernel, by decide +kernel⟩
    rw [harvest, Work.handed]
    simp only [id, hwalk]
    rfl
  · have hstat : illNamed.stat [] false farOut = .ok (["out"], .folder) := by decide +kernel
    have hwalk := walkFiles_illNamed hstat (by decide +kernel)
    have hread : illNamed.stat [] true (farOut.descend [illName]) = .error .nameTooLong := by
      decide +kernel
    refine ⟨FileTree.stat_folder hstat, ?_, ?_⟩
    · rw [harvest, Work.handed]
      simp only [id, hwalk, deliverFiles, Work.handed, readText, FileTree.read, hread]
    · rw [harvest, Work.perform_files]
      simp only [id, hwalk, deliverFiles, Work.perform_files, readText, FileTree.read, hread]
      exact fun hok => by cases hok

end Engine

end SourceRecovery
