import SourceRecovery.Proofs.Engine.Decompiler
import SourceRecovery.Proofs.Engine.Harvest
import SourceRecovery.Proofs.Run.Verdict

/-!
# Class files keep their places

A run writes the source of each class file where the class file was below the input, so that class
files of one simple name do not meet on the way.

* `Ready`: a run has selected class files with neat names, and its engine has a working folder.
* `Fits`: a source can be recovered and written.
* `canRecover_of_ready`, `canHarvest_of_recovered`: then the sources are recovered, and harvested.
* `files_of_harvested`: they are what is in the output folder at the end.
* `perform_keeps_places`: so a run ends well if the decompiler does what it is for.
* `perform_merges_places`: it need not if names are no text, or without a working folder.
-/

namespace SourceRecovery.Run

open FileTree (Followed)

variable {host : Host} {marker : String} {settings : Settings} {t t₁ t₂ u : FileTree}
  {listed selected : List Path} {inp root place : Address} {scratch output : Path}
  {classes : List ClassPlace} {source : ClassPlace → RecoveredSource} {c : ClassPlace}

/-! ## What a run needs -/

/-- Whether a run has selected class files with neat names, its output folder is empty, and its engine
    gets a working folder. -/
structure Ready (host : Host) (marker : String) (settings : Settings) (t t₁ t₂ : FileTree)
    (listed selected : List Path) (inp root : Address) (scratch : Path) (place : Address) :
    Prop where
  past : PastReset host.folder settings t t₁ listed
  kept : (Selection.keepMarked t₁ host.folder marker listed).1 = .ok selected
  ne_nil : selected ≠ []
  input : t₁.stat host.folder true settings.input = .ok (inp, .folder)
  neat : NeatBelow t₁ inp
  output : t₁.stat host.folder true settings.output = .ok (root, .folder)
  empty : ∀ b, root <+: b → b ≠ root → t₁.node? b = none
  made : host.makeScratch "compose-decompiler-" t₁ = (.ok scratch, t₂)
  folder : t₂.stat host.folder true scratch = .ok (place, .folder)

/-- Whether a source can be recovered and written: it suits its place, no path is too long, and the
    working folder of the engine is not on the way to where the source belongs. -/
structure Fits (output : Path) (root : Address) (scratch : Path) (place : Address)
    (s : RecoveredSource) (c : ClassPlace) : Prop where
  suits : s.Suits c
  staged : (scratch.descend (("classes" : Name) :: c.names)).bytes.length < 4096
  recovered : (scratch.descend (("out" : Name) :: c.sourceNames s.kotlin)).bytes.length < 4096
  written : (output.descend (c.sourceNames s.kotlin)).bytes.length < 4096
  apart : ¬ place <+: root ++ c.sourceNames s.kotlin

/-- Whether a class file stands at its place below the input folder. -/
structure IsPlaced (t : FileTree) (input : Path) (inp : Address) (c : ClassPlace) : Prop where
  neat : c.IsNeat
  followed : Followed input c.names
  file : t.node? (inp ++ c.names) = some (.file (t.contentAt (inp ++ c.names)))

/-- The class files that are selected have a place each. -/
theorem Ready.exists_places
    (h : Ready host marker settings t t₁ t₂ listed selected inp root scratch place) :
    ∃ classes : List ClassPlace, classes.map (fun c => settings.input.descend c.names) = selected ∧
      classes.Nodup ∧ ∀ c ∈ classes, IsPlaced t₁ settings.input inp c := by
  obtain ⟨classes, hselected, hnodup, hplaces⟩ :=
    SourceRecovery.exists_places h.input h.neat h.past.listed h.kept
  refine ⟨classes, hselected, hnodup, fun c hc => ?_⟩
  obtain ⟨hneat, hfollowed, content, hfile⟩ := hplaces c hc
  exact ⟨hneat, hfollowed, by rw [FileTree.contentAt_eq hfile, hfile]⟩

/-- A place is told by its path. -/
theorem IsPlaced.eq_of_descend {input : Path} {d : ClassPlace} (h : IsPlaced t₁ input inp c)
    (hd : d.IsNeat) (hp : input.bytes ≠ []) (heq : input.descend c.names = input.descend d.names) :
    c = d := by
  have hsame := descend_inj hp h.neat.plain_names hd.plain_names heq
  have hprefix : c.names <+: d.names := hsame ▸ List.prefix_refl _
  exact ClassPlace.apart h.neat hd isEnding_class isEnding_class hprefix

/-! ## Paths that are not too long -/

theorem usable_of_stat {t : FileTree} {cwd a : Address} {p : Path} {n : Node}
    (h : t.stat cwd true p = .ok (a, n)) : p.unusable? = none :=
  (FileTree.stat_eq_ok.1 h).1

/-- The system follows the way to a file of a place, below a path and some names, unless it is too
    long. -/
theorem IsPlaced.followed_behind {input p : Path} {ending : String} (front : List Name)
    (h : IsPlaced t₁ input inp c) (hp : p.unusable? = none) (hplain : ∀ w ∈ front, Path.IsPlain w)
    (hfront : ∀ w ∈ front, 0 ∉ w ∧ w.length ≤ 255)
    (hending : IsEnding ending) (hsizes : ∀ w ∈ c.file ending, w.length ≤ 255)
    (hsize : (p.descend (front ++ c.file ending)).bytes.length < 4096) :
    Followed p (front ++ c.file ending) := by
  have hall : ∀ {q : Name → Prop}, (∀ w ∈ front, q w) → (∀ w ∈ c.file ending, q w) →
      ∀ w ∈ front ++ c.file ending, q w := fun hfront hfile w hw =>
    (List.mem_append.1 hw).elim (hfront w) (hfile w)
  exact ⟨Path.usable_descend hp (hall hplain (h.neat.plain hending))
    (hall (fun w hw => (hfront w hw).1) (h.neat.no_nul hending)) hsize,
    hall (fun w hw => (hfront w hw).2) hsizes⟩

/-! ## From the input to the output -/

/-- The sources of the class files that are selected can be recovered. -/
theorem canRecover_of_ready
    (h : Ready host marker settings t t₁ t₂ listed selected inp root scratch place)
    (hselected : classes.map (fun c => settings.input.descend c.names) = selected)
    (hnodup : classes.Nodup) (hplaced : ∀ c ∈ classes, IsPlaced t₁ settings.input inp c)
    (hfits : ∀ c ∈ classes, Fits output root scratch place (source c) c) :
    Engine.CanRecover host t₁ t₂ settings.input scratch place
      (fun c => t₁.contentAt (inp ++ c.names)) source classes := by
  obtain ⟨htext, hleads⟩ := FileTree.reaches_of_stat h.input
  have hscratch := usable_of_stat h.folder
  refine ⟨Host.makeScratch_eq_ok h.made, h.folder, htext, ?_, hnodup, fun c hc => (hplaced c hc).neat,
    fun c hc => ?_, fun c hc => ?_, fun c hc => ?_⟩
  · rintro rfl
    exact h.ne_nil hselected.symm
  · have hc := hplaced c hc
    exact ⟨_, FileTree.LeadsTo.stat_descend hleads htext hc.neat.plain_names c.names_ne_nil hc.file
      hc.followed⟩
  · exact (hplaced c hc).followed_behind ["classes"] hscratch
      (by simpa using Engine.isPlain_classes) (by decide) isEnding_class (hplaced c hc).followed.2
      (hfits c hc).staged
  · exact (hplaced c hc).followed_behind ["out"] hscratch
      (by simpa using Engine.isPlain_out) (by decide) (isEnding_extension _)
      (c.size_sourceNames_le _ (hplaced c hc).followed.2) (hfits c hc).recovered

/-- Where a source belongs, nothing stands as long as nothing outside of the working folder has
    changed. -/
theorem Fits.freeBelow {s : RecoveredSource} (h : Fits output root scratch place s c)
    (hempty : ∀ b, root <+: b → b ≠ root → t₁.node? b = none)
    (hsame : FileTree.SameOutside place t₁ u) : FileTree.FreeBelow u root (c.sourceNames s.kotlin) := by
  refine ⟨c.sourceNames_ne_nil _, fun front hp hne => ?_⟩
  have hnot : ¬ place <+: root ++ front := fun hplace =>
    h.apart (hplace.trans ((List.prefix_append_right_inj root).2 hp))
  rw [hsame _ hnot, hempty _ (List.prefix_append root front) (by simpa using hne)]

/-- The sources that are recovered can be harvested. -/
theorem canHarvest_of_recovered
    (h : Ready host marker settings t t₁ t₂ listed selected inp root scratch place)
    (hcan : Engine.CanRecover host t₁ t₂ settings.input scratch place
      (fun c => t₁.contentAt (inp ++ c.names)) source classes)
    (hplaced : ∀ c ∈ classes, IsPlaced t₁ settings.input inp c)
    (hfits : ∀ c ∈ classes, Fits settings.output root scratch place (source c) c)
    (hrecovered : Engine.Recovered host.folder scratch place
      (classes.map fun c => (source c).fileAt c) t₁ u) :
    CanHarvest u host.folder settings.output root (scratch.descend ["out"]) source classes := by
  have hopens := (FileTree.opens_of_empty h.output h.empty).extend hrecovered.kept
  refine ⟨hopens, hcan.nodup, hcan.neat, fun c hc => (hfits c hc).suits, fun c hc => ?_,
    fun c hc => (hfits c hc).freeBelow h.empty hrecovered.outside, fun c hc => ?_⟩
  · exact (hplaced c hc).followed_behind [] (usable_of_stat h.output) (by simp) (by simp)
      (isEnding_extension _) (c.size_sourceNames_le _ (hplaced c hc).followed.2) (hfits c hc).written
  · have hfollowed := hcan.recovered c hc
    have hout := hrecovered.opens.descend (by simpa using Engine.isPlain_out) hcan.followed.2.2
      hrecovered.out
    have hfile := (hrecovered.files _ _).2 (List.mem_map_of_mem hc)
    exact ⟨_, FileTree.LeadsTo.stat_descend hout.reaches hout.text_ne
      ((hcan.neat c hc).plain_sourceNames _) (c.sourceNames_ne_nil _) hfile
      ⟨hfollowed.1, (List.forall_mem_cons.1 hfollowed.2).2⟩⟩

/-- At the end, the files below the output folder are the sources. -/
theorem files_of_harvested {t' : FileTree} {s : Account}
    (h : Ready host marker settings t t₁ t₂ listed selected inp root scratch place)
    (hfits : ∀ c ∈ classes, Fits settings.output root scratch place (source c) c)
    (hrecovered : Engine.Recovered host.folder scratch place
      (classes.map fun c => (source c).fileAt c) t₁ u)
    (hharvested : Harvested root source u classes t' s) (names : List Name) (content : Bytes) :
    (t'.removeFolders host.folder scratch).2.node? (root ++ names) = some (.file content) ↔
      ∃ c ∈ classes, (source c).fileAt c = (names, content) := by
  have hroot : t₁.node? root = some .folder := FileTree.node?_of_stat h.output
  have hroot' := hrecovered.kept.within _ _ hroot
  have hfree : ∀ e ∈ classes.map fun c => (source c).fileAt c, FileTree.FreeBelow u root e.1 := by
    intro e he
    obtain ⟨c, hc, rfl⟩ := List.mem_map.1 he
    exact (hfits c hc).freeBelow h.empty hrecovered.outside
  have hopens := hrecovered.opens.extend (hharvested.adds.extends hroot' hfree)
  obtain ⟨houtside, hgone⟩ :=
    Engine.node?_of_removeFolders (hopens.stat (usable_of_stat h.folder))
  constructor
  · intro hfile
    have hnot : ¬ place <+: root ++ names := fun hp => hgone _ content hp hfile
    rw [houtside _ hnot, hharvested.adds.file_iff hroot' hfree, List.mem_map] at hfile
    refine hfile.resolve_right fun hold => ?_
    rw [hrecovered.outside _ hnot] at hold
    by_cases hnil : names = []
    · rw [hnil, List.append_nil, hroot] at hold
      cases hold
    · rw [h.empty _ (List.prefix_append root names) (by simpa using hnil)] at hold
      cases hold
  · rintro ⟨c, hc, heq⟩
    have hfile := hharvested.adds.file _ (List.mem_map_of_mem hc)
    rw [heq] at hfile
    rw [houtside _ ?_, hfile]
    rw [← show c.sourceNames (source c).kotlin = names from (Prod.mk.inj heq).1]
    exact (hfits c hc).apart

/-! ## The whole run -/

/-- Whether a run wrote one source for each class file that was selected, and nothing else. -/
structure HoldsSources (root : Address) (source : ClassPlace → RecoveredSource)
    (classes : List ClassPlace) (selected : List Path) (o : Outcome) (t : FileTree) : Prop where
  selection : o.classes = selected
  dropped : o.dropped = 0
  count : o.written.length = selected.length
  written : ∀ f, f ∈ o.written ↔ ∃ c ∈ classes, f = (source c).writtenAt c
  files : ∀ names content, t.node? (root ++ names) = some (.file content) ↔
    ∃ c ∈ classes, (source c).fileAt c = (names, content)

/-- Every class file that is selected has a place of its own, whose names are neat and so are text; and
    if the program that is started recovers the sources of the staged class files, whatever these
    hold, the run ends well and has written each source at the place of its class file, with nothing
    written over and nothing dropped. -/
theorem perform_keeps_places
    (h : Ready host marker settings t t₁ t₂ listed selected inp root scratch place) :
    ∃ classes : List ClassPlace,
      classes.map (fun c => settings.input.descend c.names) = selected ∧ classes.Nodup ∧
      (∀ c ∈ classes, IsPlaced t₁ settings.input inp c) ∧
      ∀ (jar : Path) (source : ClassPlace → RecoveredSource),
        (∀ c ∈ classes, Fits settings.output root scratch place (source c) c) →
        Engine.Recovers host jar (requestFor settings selected) scratch place t₁
          (classes.map fun c => (c.names, t₁.contentAt (inp ++ c.names)))
          (classes.map fun c => (source c).fileAt c) →
        let e := perform host.folder marker (Engine.ofJar host jar) settings t
        ∃ o, e.result = .ok o ∧ HoldsSources root source classes selected o e.tree := by
  obtain ⟨classes, hselected, hnodup, hplaced⟩ := h.exists_places
  refine ⟨classes, hselected, hnodup, hplaced, fun jar source hfits hrecovers => ?_⟩
  have hcan := canRecover_of_ready h hselected hnodup hplaced hfits
  obtain ⟨u, hinto, hrecovered⟩ := Engine.CanRecover.decompileInto (requestFor settings selected) hcan
    hselected.symm hrecovers
  have hharvest := canHarvest_of_recovered h hcan hplaced hfits hrecovered
  have hout := hrecovered.opens.descend (by simpa using Engine.isPlain_out) hcan.followed.2.2
    hrecovered.out
  obtain ⟨events, hperform⟩ := h.past.performQuietly_of_ne_nil h.kept h.ne_nil
  obtain ⟨t', s, hharvested, hall⟩ := hharvest.harvest (hout.stat hcan.followed.2.1)
    (FileTree.isStandardInput_descend hcan.scratch_ne Engine.isPlain_out (by decide))
    (fun names content => by rw [hrecovered.files, List.mem_map]) events
  have hengine := Engine.perform_ofJar h.made hinto hharvested
  have hfiles := files_of_harvested h hfits hrecovered hall
  have hquiet : performQuietly host.folder marker (Engine.ofJar host jar) settings t =
      engage host.folder (Engine.ofJar host jar) settings
        (selectedOutcome settings listed.length selected) t₁ events := hperform _
  rw [engage_eq] at hquiet
  simp only [selectedOutcome, hengine, settle, hall.fault] at hquiet
  have hcount : s.written.length = selected.length := by
    rw [hall.length, ← hselected, List.length_map]
  refine ⟨_, by rw [perform_result, hquiet], rfl, hall.dropped, hcount, hall.ledger, ?_⟩
  rw [perform_tree, hquiet]
  exact hfiles

/-! ## Two packages -/

/-- A tree with class files of one simple name in two packages. -/
def twoPackages : FileTree where
  entries := [(["bin"], .folder), (["bin", "java"], .file []), (["in"], .folder),
    (["in", "a"], .folder), (["in", "a", "C.class"], .file ClassFile.specimen.encode),
    (["in", "b"], .folder), (["in", "b", "C.class"], .file ClassFile.specimen.encode),
    (["tmp"], .folder)]
  nodup := by decide
  rooted := by simp [FileTree.FolderIn]

/-- What a reset of the folder `out` makes of it. -/
def twoPackagesReset : FileTree where
  entries := (["out"], .folder) :: twoPackages.entries
  nodup := by decide
  rooted := by simp [FileTree.FolderIn, twoPackages]

/-- The places of the two class files. -/
def twoPlaces : List ClassPlace :=
  [⟨["a"], "C"⟩, ⟨["b"], "C"⟩]

/-- Sources of the two class files, one of which tells its package. -/
def sourceAt (c : ClassPlace) : RecoveredSource :=
  if c.folders = ["a"] then ⟨true, "package a\nclass C"⟩ else ⟨false, "class C {}"⟩

/-- Where the sources are to be put. -/
def recoveredFolder : Address :=
  ["tmp", "compose-decompiler-x", "out"]

/-- A folder with one file, put into a folder. -/
def putFile (root : Address) (w v : Name) (content : Bytes) (t : FileTree) : FileTree :=
  (t.place (root ++ [w]) .folder).place (root ++ [w, v]) (.file content)

/-- A program that puts the two sources where they are to be put. -/
def twoSources : Program := fun _ t =>
  (⟨0, []⟩,
    putFile recoveredFolder "b" "C.java" (Text.encode "class C {}")
      (putFile recoveredFolder "a" "C.kt" (Text.encode "package a\nclass C") t))

/-- A host with that program. -/
def recoveringHost : Host where
  folder := []
  userHome := none
  environment := [("COMPOSE_DECOMPILER_JAVA", "/bin/java"), ("TMPDIR", "/tmp")]
  suffixes := ["x"]
  programs := [(["bin", "java"], twoSources)]

theorem adds_putFile {t : FileTree} {w v : Name} (hroot : t.node? root = some .folder)
    (hfree : t.node? (root ++ [w]) = none) (content : Bytes) :
    FileTree.Adds root [([w, v], content)] t (putFile root w v content t) := by
  have hnode : ∀ b, (t.place (root ++ [w]) .folder).node? b =
      if b = root ++ [w] then some .folder else t.node? b := fun b =>
    FileTree.node?_place (by simp) (by rw [List.dropLast_concat]; exact hroot) (by simp [hfree])
  have hparent : (root ++ [w, v]).dropLast = root ++ [w] := by
    rw [List.append_cons, List.dropLast_concat]
  have hnone : t.node? (root ++ [w, v]) = none :=
    FileTree.node?_eq_none_of_below (a := root ++ [w]) (by simp [hfree]) ⟨[v], by simp⟩ (by simp)
  have hall : ∀ b, (putFile root w v content t).node? b = if b = root ++ [w, v] then
      some (.file content) else if b = root ++ [w] then some .folder else t.node? b := by
    intro b
    rw [putFile, FileTree.node?_place (by simp) (by rw [hparent, hnode, if_pos rfl])
      (by simp [hnode, hnone]), hnode]
  refine ⟨fun e he => ?_, fun a ha => ?_⟩
  · rw [List.mem_singleton.1 he, hall, if_pos rfl]
  · have hnot : ¬ a <+: root ++ [w, v] := ha _ List.mem_cons_self
    rw [hall, if_neg, if_neg]
    · rintro rfl
      exact hnot ⟨[v], by simp⟩
    · rintro rfl
      exact hnot (List.prefix_refl _)

theorem classFiles_twoPackagesReset : classFiles twoPackagesReset [] ⟨"in"⟩ =
    .ok [⟨"in/a/C.class"⟩, ⟨"in/b/C.class"⟩] := by
  have hunder : twoPackagesReset.under ["in"] = ([(["a"], .folder),
      (["a", "C.class"], .file ClassFile.specimen.encode), (["b"], .folder),
      (["b", "C.class"], .file ClassFile.specimen.encode)] : List (Address × Node)) := by
    rw [FileTree.under]
    exact List.mergeSort_of_pairwise (by decide +kernel)
  have hstat : twoPackagesReset.stat [] false ⟨"in"⟩ = .ok (["in"], .folder) := by rfl
  have hbase : FileTree.isStandardInput ⟨"in"⟩ = false := by decide
  simp only [classFiles, FileTree.walkFiles, FileTree.walk, hstat, hbase, hunder]
  rfl

theorem keepMarked_twoPackagesReset :
    (Selection.keepMarked twoPackagesReset [] "T" [⟨"in/a/C.class"⟩, ⟨"in/b/C.class"⟩]).1 =
      .ok [⟨"in/a/C.class"⟩, ⟨"in/b/C.class"⟩] := by
  have hone : scanFile twoPackagesReset [] "T" ⟨"in/a/C.class"⟩ = .ok (some "T") :=
    scanFile_specimen (by rfl)
  have hother : scanFile twoPackagesReset [] "T" ⟨"in/b/C.class"⟩ = .ok (some "T") :=
    scanFile_specimen (by rfl)
  simp only [Selection.keepMarked, hone, hother]
  rfl

theorem pastReset_twoPackages :
    PastReset [] ⟨⟨"in"⟩, ⟨"out"⟩, [], false⟩ twoPackages twoPackagesReset
      [⟨"in/a/C.class"⟩, ⟨"in/b/C.class"⟩] :=
  ⟨by rfl, by rfl, by rfl, by rfl, classFiles_twoPackagesReset⟩

/-- Below the folder `in` there are the two class files. -/
theorem names_of_twoPackagesReset {names : List Name} {content : Bytes}
    (h : twoPackagesReset.node? ((["in"] : Address) ++ names) = some (.file content)) :
    names = (["a", "C.class"] : Address) ∨ names = (["b", "C.class"] : Address) := by
  have hmem := FileTree.mem_of_node? (by simp) h
  have hnames : names = (["a", "C.class"] : Address) ∧ content = ClassFile.specimen.encode ∨
      names = (["b", "C.class"] : Address) ∧ content = ClassFile.specimen.encode := by
    simpa [twoPackagesReset, twoPackages] using hmem
  exact hnames.imp And.left And.left

theorem isNeat_twoPlaces : ∀ c ∈ twoPlaces, c.IsNeat := by
  have hblank : ∀ w ∈ ["a", "b", "C"], w.toList.all (fun c => !Text.isBlank c) = true := by decide
  have hneat : ∀ w ∈ ["a", "b", "C"], IsNeat w := by
    intro w hw
    have hall := hblank w hw
    simp only [List.mem_cons, List.not_mem_nil, or_false] at hw
    rcases hw with rfl | rfl | rfl <;>
      exact ⟨by decide, by decide, by decide, by decide, by decide, by simpa using hall⟩
  intro c hc
  simp only [twoPlaces, List.mem_cons, List.not_mem_nil, or_false] at hc
  rcases hc with rfl | rfl
  · exact ⟨by simpa using hneat "a" (by simp), hneat "C" (by simp)⟩
  · exact ⟨by simpa using hneat "b" (by simp), hneat "C" (by simp)⟩

theorem neatBelow_twoPackagesReset : NeatBelow twoPackagesReset ["in"] := by
  have hplace : ∀ {names : List Name} {content : Bytes},
      twoPackagesReset.node? ((["in"] : Address) ++ names) = some (.file content) →
      ∃ c : ClassPlace, c.IsNeat ∧ c.names = names := by
    intro names content h
    rcases names_of_twoPackagesReset h with rfl | rfl
    · exact ⟨⟨["a"], "C"⟩, isNeat_twoPlaces _ (by simp [twoPlaces]), by decide⟩
    · exact ⟨⟨["b"], "C"⟩, isNeat_twoPlaces _ (by simp [twoPlaces]), by decide⟩
  refine ⟨fun names content h => ?_, fun front stem content _ h => hplace h⟩
  obtain ⟨c, hneat, rfl⟩ := hplace h
  exact hneat.plain_names

/-- The run has what it needs. -/
theorem ready_twoPackages :
    Ready recoveringHost "T" ⟨⟨"in"⟩, ⟨"out"⟩, [], false⟩ twoPackages twoPackagesReset
      (recoveringHost.makeScratch "compose-decompiler-" twoPackagesReset).2
      [⟨"in/a/C.class"⟩, ⟨"in/b/C.class"⟩] [⟨"in/a/C.class"⟩, ⟨"in/b/C.class"⟩] ["in"] ["out"]
      ⟨"/tmp/compose-decompiler-x"⟩ ["tmp", "compose-decompiler-x"] := by
  refine ⟨pastReset_twoPackages, keepMarked_twoPackagesReset, by simp, by rfl,
    neatBelow_twoPackagesReset, by rfl, ?_, ?_, ?_⟩
  · intro b hp hne
    rw [Option.eq_none_iff_forall_ne_some]
    intro n hn
    obtain ⟨rest, rfl⟩ := hp
    have hmem := FileTree.mem_of_node? (by simp) hn
    have hrest : rest = [] ∧ n = .folder := by simpa [twoPackagesReset, twoPackages] using hmem
    exact hne (by rw [hrest.1, List.append_nil])
  · exact Prod.ext (ok_of_toOption (by decide +kernel)) rfl
  · exact ok_of_toOption (by decide +kernel)

/-- The host finds its program where that was at first. -/
theorem start_recoveringHost (h : FileTree.SameOutside ["tmp", "compose-decompiler-x"] twoPackagesReset u)
    {arguments : List Bytes}
    (hnul : (("/bin/java" : Bytes) :: arguments).any (fun s => s.contains 0) = false) :
    recoveringHost.start "/bin/java" arguments u = (.ok ⟨0, []⟩, (twoSources arguments u).2) := by
  have hbin : u.node? ["bin"] = some .folder := h ["bin"] (by decide)
  have hjava : u.node? ["bin", "java"] = some (.file []) := h ["bin", "java"] (by decide)
  have hwalk : FileTree.walkLinks u true FileTree.linkLimit [] [.enter "bin", .enter "java"] false =
      .ok (.taken ["bin", "java"] (.file [])) := by
    rw [FileTree.walkLinks_folder (by decide) hbin]
    exact FileTree.walkLinks_file (by decide) hjava
  have hresolve : u.resolve [] true ⟨"/bin/java"⟩ = .ok (.taken ["bin", "java"] (.file [])) := hwalk
  have hat : recoveringHost.programAt u ⟨"/bin/java"⟩ = .ok twoSources := by
    simp only [Host.programAt, recoveringHost, hresolve]
    rfl
  have hprogram : recoveringHost.program? u "/bin/java" = .ok twoSources := hat
  rw [Host.start, if_neg (Bool.eq_false_iff.1 hnul), hprogram]
  rfl

/-- The program puts the two sources into an empty folder, and does nothing else. -/
theorem adds_twoSources (hroot : u.node? recoveredFolder = some .folder)
    (hempty : ∀ b, recoveredFolder <+: b → b ≠ recoveredFolder → u.node? b = none)
    (arguments : List Bytes) :
    FileTree.Adds recoveredFolder (twoPlaces.map fun c => (sourceAt c).fileAt c) u
      (twoSources arguments u).2 := by
  have hfree : ∀ w, u.node? (recoveredFolder ++ [w]) = none := fun w =>
    hempty _ (List.prefix_append _ [w]) (by simp)
  have hone := adds_putFile (v := "C.kt") hroot (hfree "a") (Text.encode "package a\nclass C")
  refine hone.append (adds_putFile (w := "b") (v := "C.java") ?_ ?_ (Text.encode "class C {}"))
    (by decide)
  · exact hone.folder List.mem_cons_self (List.prefix_append _ _) (by decide)
  · rw [hone.elsewhere _ (by decide), hfree]

/-- Wherever the class files are staged, the program of the host recovers their sources. -/
theorem recovers_twoPackages (staged : List (Address × Bytes)) (selected : List Path) :
    Engine.Recovers recoveringHost ⟨"decompiler.jar"⟩
      (requestFor ⟨⟨"in"⟩, ⟨"out"⟩, [], false⟩ selected) ⟨"/tmp/compose-decompiler-x"⟩
      ["tmp", "compose-decompiler-x"] twoPackagesReset staged
      (twoPlaces.map fun c => (sourceAt c).fileAt c) := by
  intro u hstaged
  have hnul : (("/bin/java" : Bytes) :: Engine.arguments ⟨"decompiler.jar"⟩ ⟨⟨"in"⟩, [], [], false⟩
      ⟨"/tmp/compose-decompiler-x/classes"⟩ ⟨"/tmp/compose-decompiler-x/out"⟩).any
        (fun s => s.contains 0) = false := by
    decide +kernel
  exact ⟨⟨0, []⟩, _, start_recoveringHost hstaged.outside hnul, rfl,
    adds_twoSources hstaged.out hstaged.empty _⟩

theorem fits_twoPlaces : ∀ c ∈ twoPlaces, Fits ⟨"out"⟩ ["out"] ⟨"/tmp/compose-decompiler-x"⟩
    ["tmp", "compose-decompiler-x"] (sourceAt c) c := by
  intro c hc
  simp only [twoPlaces, List.mem_cons, List.not_mem_nil, or_false] at hc
  rcases hc with rfl | rfl
  · exact ⟨⟨by decide +kernel, .inr (by decide +kernel)⟩, by decide +kernel, by decide +kernel,
      by decide +kernel, by decide +kernel⟩
  · exact ⟨⟨by decide +kernel, .inl (by decide +kernel)⟩, by decide +kernel, by decide +kernel,
      by decide +kernel, by decide +kernel⟩

/-- Both class files keep their places, whether their sources tell them or not. -/
theorem perform_keeps_places_twoPackages :
    let selected : List Path := [⟨"in/a/C.class"⟩, ⟨"in/b/C.class"⟩]
    let e := perform [] "T" (Engine.ofJar recoveringHost ⟨"decompiler.jar"⟩)
      ⟨⟨"in"⟩, ⟨"out"⟩, [], false⟩ twoPackages
    Ready recoveringHost "T" ⟨⟨"in"⟩, ⟨"out"⟩, [], false⟩ twoPackages twoPackagesReset
        (recoveringHost.makeScratch "compose-decompiler-" twoPackagesReset).2 selected selected ["in"]
        ["out"] ⟨"/tmp/compose-decompiler-x"⟩ ["tmp", "compose-decompiler-x"] ∧
      ∃ o, e.result = .ok o ∧ HoldsSources ["out"] sourceAt twoPlaces selected o e.tree := by
  intro selected e
  obtain ⟨classes, hselected, -, hplaced, hkeeps⟩ := perform_keeps_places ready_twoPackages
  obtain ⟨c, rest, rfl, hc, hrest⟩ := List.map_eq_cons_iff.1 hselected
  obtain ⟨d, rest, rfl, hd, hnil⟩ := List.map_eq_cons_iff.1 hrest
  obtain rfl := List.map_eq_nil_iff.1 hnil
  obtain rfl : c = ⟨["a"], "C"⟩ := (hplaced c (by simp)).eq_of_descend
    (isNeat_twoPlaces _ (by simp [twoPlaces])) (by simp) (hc.trans (by rfl))
  obtain rfl : d = ⟨["b"], "C"⟩ := (hplaced d (by simp)).eq_of_descend
    (isNeat_twoPlaces _ (by simp [twoPlaces])) (by simp) (hd.trans (by rfl))
  exact ⟨ready_twoPackages, hkeeps ⟨"decompiler.jar"⟩ sourceAt fits_twoPlaces
    (recovers_twoPackages _ selected)⟩

/-! ## Names that are no text, and no working folder -/

/-- A name that is no text if it begins with a byte that no character has. -/
def illFormed (b : UInt8) (ending : String) : Name :=
  [b] ++ Text.encode ending

/-- A tree with two class files of such names. -/
def illPackage : FileTree where
  entries := [(["bin"], .folder), (["bin", "java"], .file []), (["in"], .folder),
    (["in", illFormed 0xFE ".class"], .file ClassFile.specimen.encode),
    (["in", illFormed 0xFF ".class"], .file ClassFile.specimen.encode), (["tmp"], .folder)]
  nodup := by decide
  rooted := by simp [FileTree.FolderIn]

/-- What a reset of the folder `out` makes of it. -/
def illPackageReset : FileTree where
  entries := (["out"], .folder) :: illPackage.entries
  nodup := by decide
  rooted := by simp [FileTree.FolderIn, illPackage]

/-- A program that puts one source for each of them where the sources are to be put. -/
def twoIllSources : Program := fun _ t =>
  (⟨0, []⟩,
    (t.place (recoveredFolder ++ [illFormed 0xFF ".java"]) (.file (Text.encode "class B {}"))).place
    (recoveredFolder ++ [illFormed 0xFE ".java"]) (.file (Text.encode "class A {}")))

/-- A host with that program. -/
def illHost : Host :=
  { recoveringHost with programs := [(["bin", "java"], twoIllSources)] }

/-- The paths of the class files, in their order. -/
def illSelected : List Path :=
  [Path.descend ⟨"in"⟩ [illFormed 0xFE ".class"], Path.descend ⟨"in"⟩ [illFormed 0xFF ".class"]]

theorem pastReset_illPackage :
    PastReset [] ⟨⟨"in"⟩, ⟨"out"⟩, [], false⟩ illPackage illPackageReset illSelected := by
  have hunder : illPackageReset.under ["in"] =
      [([illFormed 0xFE ".class"], .file ClassFile.specimen.encode),
        ([illFormed 0xFF ".class"], .file ClassFile.specimen.encode)] := by
    rw [FileTree.under]
    exact List.mergeSort_of_pairwise (by decide +kernel)
  have hstat : illPackageReset.stat [] false ⟨"in"⟩ = .ok (["in"], .folder) := by rfl
  have hbase : FileTree.isStandardInput ⟨"in"⟩ = false := by decide
  refine ⟨by rfl, by rfl, by rfl, by rfl, ?_⟩
  simp only [classFiles, FileTree.walkFiles, FileTree.walk, hstat, hbase, hunder]
  rfl

theorem keepMarked_illPackage :
    (Selection.keepMarked illPackageReset [] "T" illSelected).1 = .ok illSelected := by
  have hone : scanFile illPackageReset [] "T" (Path.descend ⟨"in"⟩ [illFormed 0xFE ".class"]) =
      .ok (some "T") :=
    scanFile_specimen (by rfl)
  have hother : scanFile illPackageReset [] "T" (Path.descend ⟨"in"⟩ [illFormed 0xFF ".class"]) =
      .ok (some "T") :=
    scanFile_specimen (by rfl)
  simp only [Selection.keepMarked, illSelected, hone, hother]
  rfl

/-- The tree that the engine harvests the sources from. -/
def illHarvested : FileTree :=
  (Engine.decompileInto illHost ⟨"decompiler.jar"⟩
    (requestFor ⟨⟨"in"⟩, ⟨"out"⟩, [], false⟩ illSelected) ⟨"/tmp/compose-decompiler-x/classes"⟩
    ⟨"/tmp/compose-decompiler-x/out"⟩
    (illHost.makeScratch "compose-decompiler-" illPackageReset).2).2

theorem walkFiles_illHarvested : illHarvested.walkFiles [] ⟨"/tmp/compose-decompiler-x/out"⟩ =
    .ok [[illFormed 0xFE ".java"], [illFormed 0xFF ".java"]] := by
  have hunder : illHarvested.under recoveredFolder =
      [([illFormed 0xFE ".java"], .file (Text.encode "class A {}")),
        ([illFormed 0xFF ".java"], .file (Text.encode "class B {}"))] := by
    have hbelow : (illHarvested.entries.filter fun e => FileTree.isBelow recoveredFolder e.1).map
        (fun e => (e.1.drop recoveredFolder.length, e.2)) =
        [([illFormed 0xFE ".java"], .file (Text.encode "class A {}")),
          ([illFormed 0xFF ".java"], .file (Text.encode "class B {}"))] := by decide +kernel
    rw [FileTree.under, hbelow]
    exact List.mergeSort_of_pairwise (by decide +kernel)
  have hstat : illHarvested.stat [] false ⟨"/tmp/compose-decompiler-x/out"⟩ =
      .ok (recoveredFolder, .folder) := ok_of_toOption (by decide +kernel)
  have hbase : FileTree.isStandardInput ⟨"/tmp/compose-decompiler-x/out"⟩ = false := by decide
  simp only [FileTree.walkFiles, FileTree.walk, hstat, hbase, hunder]
  rfl

/-- Nothing is dropped, but the source that comes last is written over the other one. -/
theorem perform_illPackage :
    let e := perform [] "T" (Engine.ofJar illHost ⟨"decompiler.jar"⟩) ⟨⟨"in"⟩, ⟨"out"⟩, [], false⟩
      illPackage
    (∃ o, e.result = .ok o) ∧
      e.tree.node? ["out", Text.encode "\uFFFD.java"] = some (.file (Text.encode "class B {}")) ∧
      ∀ a, e.tree.node? a ≠ some (.file (Text.encode "class A {}")) := by
  intro e
  have hscratch : illHost.makeScratch "compose-decompiler-" illPackageReset =
      (.ok ⟨"/tmp/compose-decompiler-x"⟩,
        (illHost.makeScratch "compose-decompiler-" illPackageReset).2) :=
    Prod.ext (ok_of_toOption (by decide +kernel)) rfl
  have hinto : Engine.decompileInto illHost ⟨"decompiler.jar"⟩
      (requestFor ⟨⟨"in"⟩, ⟨"out"⟩, [], false⟩ illSelected) ⟨"/tmp/compose-decompiler-x/classes"⟩
      ⟨"/tmp/compose-decompiler-x/out"⟩
      (illHost.makeScratch "compose-decompiler-" illPackageReset).2 =
      (.ok (), illHarvested) :=
    Prod.ext (ok_of_toOption (by decide +kernel)) rfl
  have hharvest : (Engine.harvest [] ⟨"/tmp/compose-decompiler-x/out"⟩).perform
      (recorder [] ⟨"out"⟩) illHarvested [] =
      (Engine.deliverFiles [] ⟨"/tmp/compose-decompiler-x/out"⟩
        [[illFormed 0xFE ".java"], [illFormed 0xFF ".java"]]).perform
          (recorder [] ⟨"out"⟩) illHarvested [] := by
    rw [Engine.harvest, Work.perform_files]
    simp only [id, walkFiles_illHarvested]
  obtain ⟨htree, hdecided⟩ := pastReset_illPackage.perform_of_ne_nil keepMarked_illPackage
    (by decide) (Engine.ofJar illHost ⟨"decompiler.jar"⟩)
  rw [Engine.perform_ofJar hscratch hinto hharvest] at htree hdecided
  have hstored : (((Engine.deliverFiles [] ⟨"/tmp/compose-decompiler-x/out"⟩
      [[illFormed 0xFE ".java"], [illFormed 0xFF ".java"]]).perform
        (recorder [] ⟨"out"⟩) illHarvested []).2.2.all fun r => (failure? r).isNone) = true := by
    decide +kernel
  refine ⟨hdecided.ok.2 ⟨fun u target cause hmem => ?_, ok_of_toOption (by decide +kernel)⟩, ?_, ?_⟩
  · cases List.all_eq_true.1 hstored _ hmem
  · show FileTree.node? (perform _ _ _ _ _).tree _ = _
    rw [htree]
    decide +kernel
  · intro a ha
    have hother : (e.tree.entries.all fun r => r.2 != .file (Text.encode "class A {}")) = true := by
      show ((perform _ _ _ _ _).tree.entries.all _) = true
      rw [htree]
      decide +kernel
    by_cases hroot : a = []
    · rw [hroot, FileTree.node?_nil] at ha
      cases ha
    · have hne := List.all_eq_true.1 hother _ (FileTree.mem_of_node? hroot ha)
      simp at hne

/-- A tree with a class file, and with a folder in the output folder. -/
def heldFolder : FileTree where
  entries := [(["bin"], .folder), (["bin", "java"], .file []), (["in"], .folder),
    (["in", "A.class"], .file ClassFile.specimen.encode), (["out"], .folder), (["out", "tmp"], .folder)]
  nodup := by decide
  rooted := by simp [FileTree.FolderIn]

/-- What a reset of the output folder makes of it. -/
def heldFolderReset : FileTree where
  entries := [(["out"], .folder), (["bin"], .folder), (["bin", "java"], .file []), (["in"], .folder),
    (["in", "A.class"], .file ClassFile.specimen.encode)]
  nodup := by decide
  rooted := by simp [FileTree.FolderIn]

/-- A host that keeps its temporary files in that folder. -/
def heldHost : Host :=
  { recoveringHost with
    environment := [("COMPOSE_DECOMPILER_JAVA", "/bin/java"), ("TMPDIR", "/out/tmp")] }

/-- The output folder is empty after the reset, but the engine gets no working folder any more. -/
theorem perform_heldFolder :
    let e := perform [] "T" (Engine.ofJar heldHost ⟨"decompiler.jar"⟩) ⟨⟨"in"⟩, ⟨"out"⟩, [], false⟩
      heldFolder
    (∃ failure, e.result = .error (.engine failure)) ∧ e.tree = heldFolderReset := by
  intro e
  have hpast : PastReset [] ⟨⟨"in"⟩, ⟨"out"⟩, [], false⟩ heldFolder heldFolderReset [⟨"in/A.class"⟩] :=
    ⟨by rfl, by rfl, by rfl, by rfl, classFiles_of_under (by rfl) (List.mergeSort_singleton _)⟩
  have hkept : (Selection.keepMarked heldFolderReset [] "T" [⟨"in/A.class"⟩]).1 =
      .ok [⟨"in/A.class"⟩] := by
    have hone : scanFile heldFolderReset [] "T" ⟨"in/A.class"⟩ = .ok (some "T") :=
      scanFile_specimen (by rfl)
    simp only [Selection.keepMarked, hone]
    rfl
  have hscratch : heldHost.makeScratch "compose-decompiler-" heldFolderReset =
      (.error ⟨⟨"/out/tmp/compose-decompiler-x"⟩, .notFound⟩, heldFolderReset) := by
    rfl
  obtain ⟨htree, hdecided⟩ := hpast.perform_of_ne_nil hkept (by simp)
    (Engine.ofJar heldHost ⟨"decompiler.jar"⟩)
  rw [Engine.ofJar, Work.perform_bind, Work.perform_attempt] at htree hdecided
  simp only [hscratch, Work.perform_pure] at htree hdecided
  exact ⟨⟨_, (hdecided.engine _).2 ⟨by simp, rfl⟩⟩, htree⟩

/-- Class files whose names are no text do not keep their places: these are told as they are shown, and
    then they are the same. And no class file keeps its place where the temporary files are kept in the
    output folder. -/
theorem perform_merges_places :
    let e := perform [] "T" (Engine.ofJar illHost ⟨"decompiler.jar"⟩) ⟨⟨"in"⟩, ⟨"out"⟩, [], false⟩
      illPackage
    let held := perform [] "T" (Engine.ofJar heldHost ⟨"decompiler.jar"⟩)
      ⟨⟨"in"⟩, ⟨"out"⟩, [], false⟩ heldFolder
    ((∃ o, e.result = .ok o) ∧
      e.tree.node? ["out", Text.encode "\uFFFD.java"] = some (.file (Text.encode "class B {}")) ∧
      ∀ a, e.tree.node? a ≠ some (.file (Text.encode "class A {}"))) ∧
    (∃ failure, held.result = .error (.engine failure)) ∧ held.tree = heldFolderReset :=
  ⟨perform_illPackage, perform_heldFolder⟩

end SourceRecovery.Run
