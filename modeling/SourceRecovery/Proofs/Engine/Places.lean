import SourceRecovery.Proofs.FileTree.Listing
import SourceRecovery.Proofs.FileTree.Making
import SourceRecovery.Proofs.Lists
import SourceRecovery.Proofs.Path.FileName
import SourceRecovery.Proofs.Selection
import SourceRecovery.Proofs.SourceUnit.Package

/-!
# Places of class files

Where class files stand below an input folder, and where their sources belong.

* `ClassPlace`: the folders that lead to a class file, and the stem of its name.
* `apart`: no place stands in the way of another one.
* `RecoveredSource`: what is recovered from a class file.
* `NeatBelow`: the class files below a folder have neat names.
* `exists_places`: the class files that a run selects there, by their places.
-/

namespace SourceRecovery

/-! ## Places -/

/-- A class file, by the folders that lead to it and the stem of its name. -/
structure ClassPlace where
  folders : List String
  stem : String
  deriving DecidableEq, Repr

/-- Whether a text can end a file name behind its stem. -/
def IsEnding (ending : String) : Prop :=
  ∃ cs, ending.toList = '.' :: cs ∧ ∀ c ∈ cs, c ≠ '.' ∧ c ≠ '/' ∧ c ≠ Char.ofNat 0

theorem isEnding_class : IsEnding ".class" :=
  ⟨"class".toList, rfl, by simp⟩

theorem isEnding_extension (kotlin : Bool) : IsEnding (SourceUnit.extension kotlin) := by
  cases kotlin
  · exact ⟨"java".toList, rfl, by simp⟩
  · exact ⟨"kt".toList, rfl, by simp⟩

namespace ClassPlace

variable {c d : ClassPlace} {ending ending' : String}

/-- The names that lead to a file of the place. -/
def file (c : ClassPlace) (ending : String) : List Name :=
  (c.folders ++ [c.stem ++ ending]).map Text.encode

/-- The names that lead to the class file. -/
def names (c : ClassPlace) : List Name :=
  c.file ".class"

/-- The names that lead to the source of the class file. -/
def sourceNames (c : ClassPlace) (kotlin : Bool) : List Name :=
  c.file (SourceUnit.extension kotlin)

/-- Whether the names of the folders and the stem are neat. -/
structure IsNeat (c : ClassPlace) : Prop where
  folders : ∀ w ∈ c.folders, SourceRecovery.IsNeat w
  stem : SourceRecovery.IsNeat c.stem

theorem file_ne_nil (c : ClassPlace) (ending : String) : c.file ending ≠ [] := by
  simp [file]

theorem isText_file (c : ClassPlace) (ending : String) : ∀ w ∈ c.file ending, Text.IsText w := by
  intro w hw
  obtain ⟨v, -, rfl⟩ := List.mem_map.1 hw
  exact Text.isText_encode v

theorem file_eq (c : ClassPlace) (ending : String) :
    c.file ending = c.folders.map Text.encode ++ [Text.encode c.stem ++ Text.encode ending] := by
  rw [file, List.map_append, List.map_singleton, Text.encode_append]

theorem IsNeat.plain (h : c.IsNeat) (hending : IsEnding ending) :
    ∀ w ∈ c.file ending, Path.IsPlain w := by
  obtain ⟨cs, hcs, hother⟩ := hending
  intro v hv
  obtain ⟨w, hw, rfl⟩ := List.mem_map.1 hv
  rcases List.mem_append.1 hw with hw | hw
  · exact (h.folders w hw).plain
  · rw [List.mem_singleton.1 hw]
    exact h.stem.plain_append hcs fun hmem => (hother '/' hmem).2.1 rfl

theorem names_ne_nil (c : ClassPlace) : c.names ≠ [] :=
  c.file_ne_nil _

theorem sourceNames_ne_nil (c : ClassPlace) (kotlin : Bool) : c.sourceNames kotlin ≠ [] :=
  c.file_ne_nil _

theorem IsNeat.plain_names (h : c.IsNeat) : ∀ w ∈ c.names, Path.IsPlain w :=
  h.plain isEnding_class

theorem IsNeat.plain_sourceNames (h : c.IsNeat) (kotlin : Bool) :
    ∀ w ∈ c.sourceNames kotlin, Path.IsPlain w :=
  h.plain (isEnding_extension kotlin)

/-- The names that lead to a source are no longer than those that lead to its class file. -/
theorem size_sourceNames_le (kotlin : Bool) (h : ∀ w ∈ c.names, w.length ≤ 255) :
    ∀ w ∈ c.sourceNames kotlin, w.length ≤ 255 := by
  rw [names, file_eq] at h
  rw [sourceNames, file_eq]
  intro w hw
  rcases List.mem_append.1 hw with hw | hw
  · exact h w (List.mem_append_left _ hw)
  · have hlast := h _ (List.mem_append_right _ List.mem_cons_self)
    have hext : (Text.encode (SourceUnit.extension kotlin)).length ≤
        (Text.encode ".class").length := by
      cases kotlin <;> decide
    rw [List.mem_singleton.1 hw, List.length_append]
    rw [List.length_append] at hlast
    omega

theorem IsNeat.no_nul (h : c.IsNeat) (hending : IsEnding ending) :
    ∀ w ∈ c.file ending, 0 ∉ w := by
  obtain ⟨cs, hcs, hother⟩ := hending
  intro v hv
  obtain ⟨w, hw, rfl⟩ := List.mem_map.1 hv
  rw [Path.nul_mem_encode]
  rcases List.mem_append.1 hw with hw | hw
  · exact (h.folders w hw).no_nul
  · rw [List.mem_singleton.1 hw, String.toList_append, hcs, List.mem_append, List.mem_cons]
    rintro (hmem | hdot | hmem)
    · exact h.stem.no_nul hmem
    · exact absurd hdot (by decide)
    · exact (hother _ hmem).2.2 rfl

theorem takeWhile_dotted {cs r : List Char} (h : '.' ∉ cs) :
    (cs ++ '.' :: r).takeWhile (· != '.') = cs := by
  rw [List.takeWhile_append_of_pos]
  · simp
  · intro c hc
    have hne : c ≠ '.' := by
      rintro rfl
      exact h hc
    simpa using hne

/-- The first dot of a name shows where a neat stem ends. -/
theorem stem_inj {v w : String} (hv : SourceRecovery.IsNeat v) (hw : SourceRecovery.IsNeat w)
    (hending : IsEnding ending) (hending' : IsEnding ending') (h : v ++ ending = w ++ ending') :
    v = w := by
  obtain ⟨cs, hcs, -⟩ := hending
  obtain ⟨cs', hcs', -⟩ := hending'
  have hlist := congrArg String.toList h
  rw [String.toList_append, String.toList_append, hcs, hcs'] at hlist
  rw [← String.toList_inj, ← takeWhile_dotted (r := cs) hv.no_dot, hlist,
    takeWhile_dotted hw.no_dot]

/-- No file of a place stands in the way of a file of another one: folders have no dots. -/
theorem apart (hc : c.IsNeat) (hd : d.IsNeat) (hending : IsEnding ending)
    (hending' : IsEnding ending') (h : c.file ending <+: d.file ending') : c = d := by
  have h : c.folders ++ [c.stem ++ ending] <+: d.folders ++ [d.stem ++ ending'] :=
    prefix_of_map_prefix Text.encode_inj h
  have hdot : '.' ∈ (c.stem ++ ending).toList := by
    obtain ⟨cs, hcs, -⟩ := hending
    simp [hcs]
  have hnot : ¬ c.folders ++ [c.stem ++ ending] <+: d.folders := by
    intro hp
    have hmem : c.stem ++ ending ∈ d.folders := hp.subset (List.mem_append_right _ (by simp))
    exact (hd.folders _ hmem).no_dot hdot
  rcases List.prefix_concat_iff.1 h with heq | hp
  · obtain ⟨hfolders, hlast⟩ := List.append_singleton_inj.1 heq
    obtain ⟨folders, stem⟩ := c
    obtain ⟨folders', stem'⟩ := d
    have hstem : stem = stem' := stem_inj hc.stem hd.stem hending hending' hlast
    rw [show folders = folders' from hfolders, hstem]
  · exact absurd hp hnot

theorem apart_of_nodup {done rest : List ClassPlace} (ending : ClassPlace → String)
    (hending : ∀ d, IsEnding (ending d)) (hnodup : (done ++ c :: rest).Nodup)
    (hneat : ∀ d ∈ done ++ c :: rest, d.IsNeat) (hd : d ∈ done) :
    ¬ d.file (ending d) <+: c.file (ending c) ∧ ¬ c.file (ending c) <+: d.file (ending d) := by
  have hne : d ≠ c := (List.nodup_append.1 hnodup).2.2 d hd c List.mem_cons_self
  have hdneat := hneat d (List.mem_append_left _ hd)
  have hcneat := hneat c (List.mem_append_right _ List.mem_cons_self)
  exact ⟨fun hp => hne (apart hdneat hcneat (hending d) (hending c) hp),
    fun hp => hne (apart hcneat hdneat (hending c) (hending d) hp).symm⟩

end ClassPlace

/-! ## Sources -/

/-- What is recovered from a class file: the text of a source in one of two languages. -/
structure RecoveredSource where
  kotlin : Bool
  text : String
  deriving DecidableEq, Repr

namespace RecoveredSource

/-- Whether a text can be that of the source at a place: it is not blank, and the package that can be
    read from it is the one of its folders, if any can be read. -/
structure Suits (s : RecoveredSource) (c : ClassPlace) : Prop where
  not_blank : Text.allBlank s.text = false
  package : Package.declared? s.text = none ∨
    Package.declared? s.text = some (Text.join "." c.folders)

/-- The file of a source, by the names that lead to it. -/
def fileAt (s : RecoveredSource) (c : ClassPlace) : Address × Bytes :=
  (c.sourceNames s.kotlin, Text.encode s.text)

/-- What is entered in the ledger for a source. -/
def writtenAt (s : RecoveredSource) (c : ClassPlace) : WrittenFile :=
  ⟨Path.shown (c.sourceNames s.kotlin), Digest.Sha256.ofText s.text⟩

end RecoveredSource

/-! ## Selected places -/

/-- Whether the class files below a folder, and the folders on the way to them, have neat names, which
    are text. No name of a file is one that no file can have. -/
structure NeatBelow (t : FileTree) (a : Address) : Prop where
  plain : ∀ names content, t.node? (a ++ names) = some (.file content) →
    ∀ w ∈ names, Path.IsPlain w
  neat : ∀ front stem content, stem ≠ [] →
    t.node? (a ++ (front ++ [stem ++ Text.encode ".class"])) = some (.file content) →
      ∃ c : ClassPlace, c.IsNeat ∧ c.names = front ++ [stem ++ Text.encode ".class"]

variable {t : FileTree} {a : Address} {cwd : Address} {marker : String} {input : Path}
  {names : List Name} {listed selected : List Path}

/-- A file below a folder whose path has the extension of class files has a place. -/
theorem NeatBelow.exists_place (h : NeatBelow t a) (hp : input.bytes ≠ []) (hne : names ≠ [])
    {content : Bytes} (hfile : t.node? (a ++ names) = some (.file content))
    (hext : (input.descend names).extension? = some (Text.encode "class")) :
    ∃ c : ClassPlace, c.IsNeat ∧ c.names = names := by
  have hending : Text.encode ".class" = Path.dot :: Text.encode "class" := by decide
  obtain ⟨front, w, rfl⟩ := Path.exists_concat hne
  rw [Path.extension?_descend hp (h.plain _ _ hfile)] at hext
  obtain ⟨stem, hstem, rfl⟩ := Path.eq_of_stemAndExtension hext
  rw [← hending] at hfile ⊢
  exact h.neat front stem content hstem hfile

/-- The class files of a folder are among the files below it, each of which is seen once. -/
theorem exists_files (hinput : t.stat cwd true input = .ok (a, .folder))
    (hlisted : classFiles t cwd input = .ok listed) :
    ∃ files : List Address, files.Nodup ∧
      (∀ names ∈ files, names ≠ [] ∧ ∃ content, t.node? (a ++ names) = some (.file content)) ∧
      listed = (files.map input.descend).filter
        fun p => p.extension? == some (Text.encode "class") := by
  by_cases hbase : FileTree.isStandardInput input = true
  · -- standard input holds nothing
    have hwalk : t.walkFiles cwd input = .ok [] := by
      rw [FileTree.walkFiles, FileTree.walk, if_pos hbase]
      rfl
    rw [classFiles, hwalk] at hlisted
    exact ⟨[], .nil, by simp, (Except.ok.inj hlisted).symm⟩
  · obtain ⟨files, hwalk, hnodup, hmem⟩ :=
      FileTree.walkFiles_of_folder hinput (Bool.eq_false_iff.2 hbase)
    rw [classFiles, hwalk] at hlisted
    exact ⟨files, hnodup, fun names hnames => (hmem names).1 hnames, (Except.ok.inj hlisted).symm⟩

/-- The class files that are selected below a folder with neat names, by their places. -/
theorem exists_places (hinput : t.stat cwd true input = .ok (a, .folder)) (hneat : NeatBelow t a)
    (hlisted : classFiles t cwd input = .ok listed)
    (hkept : (Selection.keepMarked t cwd marker listed).1 = .ok selected) :
    ∃ classes : List ClassPlace, classes.map (fun c => input.descend c.names) = selected ∧
      classes.Nodup ∧ ∀ c ∈ classes, c.IsNeat ∧ FileTree.Followed input c.names ∧
        ∃ content, t.node? (a ++ c.names) = some (.file content) := by
  obtain ⟨htext, hleads⟩ := FileTree.reaches_of_stat hinput
  obtain ⟨files, hnodup, hfiles, rfl⟩ := exists_files hinput hlisted
  have hplain : ∀ names ∈ files, ∀ w ∈ names, Path.IsPlain w := by
    intro names hnames
    obtain ⟨-, content, hfile⟩ := hfiles names hnames
    exact hneat.plain names _ hfile
  have hselected := Selection.keepMarked_eq_ok hkept
  have hplace : ∀ p ∈ selected, ∃ c : ClassPlace, input.descend c.names = p ∧ c.IsNeat ∧
      FileTree.Followed input c.names ∧ ∃ content, t.node? (a ++ c.names) = some (.file content) := by
    intro p hp
    rw [hselected] at hp
    obtain ⟨hp, hmarked⟩ := List.mem_filter.1 hp
    obtain ⟨hp, hext⟩ := List.mem_filter.1 hp
    obtain ⟨names, hnames, rfl⟩ := List.mem_map.1 hp
    obtain ⟨hne, content, hfile⟩ := hfiles names hnames
    obtain ⟨c, hc, rfl⟩ := hneat.exists_place htext hne hfile (beq_iff_eq.1 hext)
    obtain ⟨b, content', hstat⟩ := Selection.stat_of_isMarked hmarked
    have hfollowed : FileTree.Followed input c.names :=
      FileTree.LeadsTo.followed hleads htext (hplain _ hnames) hfile hstat
    exact ⟨c, rfl, hc, hfollowed, content, hfile⟩
  have hpaths : (files.map input.descend).Nodup := by
    refine List.pairwise_map.2 (hnodup.imp_of_mem fun hv hw hne heq => hne ?_)
    exact descend_inj htext (hplain _ hv) (hplain _ hw) heq
  obtain ⟨classes, hclasses, hplaces⟩ := exists_map_eq hplace
  refine ⟨classes, hclasses, ?_, hplaces⟩
  have hnodupSelected : selected.Nodup := by
    rw [hselected]
    exact (hpaths.filter _).filter _
  rw [← hclasses] at hnodupSelected
  exact List.Pairwise.of_map _ (fun c d hne heq => hne (by rw [heq])) hnodupSelected

end SourceRecovery
