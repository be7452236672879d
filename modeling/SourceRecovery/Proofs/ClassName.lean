import SourceRecovery.ClassName
import SourceRecovery.Proofs.MarkedClasses
import SourceRecovery.Proofs.Path.OfText

/-!
# The class names of listed files

* `ofPath?_descend`: the class name of a file below a root is made of the names that lead there.
* `slashed_join`: names without dots are told by the text that joins them by dots.
* `classFiles_named`: every class file that is listed below a folder has a class name, which gives
  its path below the folder back where no other dot is in the way.
* `ofFolder_named`: so every class that a scan reports has a name.
* `ofPath?_self`: a root has no class name, not even one that is a class file.
-/

namespace SourceRecovery.ClassName

open Selection (Listing exists_listing)

variable {t : FileTree} {cwd a : Address} {base : Path} {files : List (Address × Bytes)}
  {f : Address × Bytes} {folders : Address} {w stem : Name} {s : String}

/-! ## The name of a file below a root -/

theorem dropExtension_concat (cs : List Path.Component) (w : Name) :
    dropExtension (cs ++ [.name w]) = cs ++ [.name (withoutExtension w)] := by
  induction cs with
  | nil => rfl
  | cons c cs ih =>
    obtain ⟨d, ds, hrest⟩ : ∃ d ds, cs ++ [Path.Component.name w] = d :: ds :=
      List.exists_cons_of_ne_nil (by simp)
    rw [List.cons_append, List.cons_append, ← ih, hrest]
    cases c <;> rfl

/-- The class name of a file is made of the names that lead to it as they are shown, the last without
    its extension. -/
theorem ofPath?_descend (hbase : base.bytes ≠ [])
    (hnames : ∀ v ∈ folders ++ [w], Path.IsPlain v) :
    ofPath? base (base.descend (folders ++ [w])) =
      some (Text.join "." ((folders ++ [withoutExtension w]).map Text.decodeLossy)) := by
  have hrest := Path.stripBase?_descend hbase hnames (by simp)
  have hcomponents := Path.components_ofPieces hnames (by simp)
  rw [List.map_append, List.map_singleton] at hcomponents
  rw [ofPath?, hrest]
  simp only [hcomponents, dropExtension_concat]
  cases hcs : folders.map Path.Component.name ++ [.name (withoutExtension w)] with
  | nil => simp at hcs
  | cons c cs =>
    have htexts : (c :: cs).map Path.Component.text =
        (folders ++ [withoutExtension w]).map Text.decodeLossy := by
      rw [← hcs, List.map_append, List.map_map, List.map_append]
      rfl
    simp only [htexts]

theorem encode_class : Text.encode ".class" = Path.dot :: Text.encode "class" := by
  decide

theorem withoutExtension_class (hstem : stem ≠ []) (hdot : Path.dot ∉ stem) :
    withoutExtension (stem ++ Text.encode ".class") = stem := by
  have hsplit : Path.stemAndExtension (stem ++ Path.dot :: Text.encode "class") =
      (stem, some (Text.encode "class")) := Path.stemAndExtension_append hstem (by decide)
  have hother : (stem == [Path.dot]) = false := by
    rw [beq_eq_false_iff_ne]
    rintro rfl
    exact hdot List.mem_cons_self
  simp [withoutExtension, encode_class, hsplit, hother]

/-- An extension is read behind whatever its stem is read as. -/
theorem decodeLossy_class (stem : Name) :
    Text.decodeLossy (stem ++ Text.encode ".class") = Text.decodeLossy stem ++ ".class" := by
  have hcut := Text.toList_decodeLossy_cut (c := '.') (by decide) stem (Text.encode "class")
  rw [Text.decodeLossy_encode] at hcut
  rw [encode_class, ← String.toList_inj, String.toList_append]
  exact hcut

/-! ## Names without dots -/

/-- A class name with slashes for its dots. -/
def slashed (name : String) : String :=
  String.ofList (name.toList.map fun c => if c = '.' then '/' else c)

theorem slashed_append (s t : String) : slashed (s ++ t) = slashed s ++ slashed t := by
  simp [slashed]

theorem slashed_eq_self (h : '.' ∉ s.toList) : slashed s = s := by
  have hmap : (s.toList.map fun c => if c = '.' then '/' else c) = s.toList.map id := by
    refine List.map_congr_left fun c hc => if_neg ?_
    rintro rfl
    exact h hc
  rw [slashed, hmap, List.map_id, String.ofList_toList]

/-- Names without dots that are joined by dots are told by that text. -/
theorem slashed_join {ws : List String} (h : ∀ w ∈ ws, '.' ∉ w.toList) :
    slashed (Text.join "." ws) = Text.join "/" ws := by
  induction ws with
  | nil => rfl
  | cons w ws ih =>
    obtain ⟨hw, hws⟩ := List.forall_mem_cons.1 h
    by_cases hlast : ws = []
    · subst hlast
      simpa [Text.join] using slashed_eq_self hw
    · have hdot : slashed "." = "/" := by decide
      rw [Text.join_cons "." w hlast, Text.join_cons "/" w hlast, slashed_append, slashed_append,
        slashed_eq_self hw, ih hws, hdot]

/-- What is read from a name without a dot holds none. -/
theorem dotless_decodeLossy (h : Path.dot ∉ w) : '.' ∉ (Text.decodeLossy w).toList := fun hmem =>
  h (Text.mem_of_mem_decodeLossy (c := '.') (by decide) (by decide) hmem)

/-! ## The files that are listed -/

/-- The names that lead to a listed class file: the last is more than the extension. -/
theorem exists_stem (hfiles : Listing t cwd a base files) (hbase : base.bytes ≠ [])
    (hf : f ∈ files) :
    ∃ folders stem, stem ≠ [] ∧ f.1 = folders ++ [stem ++ Text.encode ".class"] := by
  have hheld := hfiles.held f hf
  have hext := extension?_of_listed hfiles.listed (List.mem_map_of_mem hf)
  exact (Path.extension?_eq_class hbase hheld.plain hheld.ne_nil).1 hext

/-- Every listed class file has a class name. -/
theorem isSome_ofPath? (hfiles : Listing t cwd a base files) (hbase : base.bytes ≠ [])
    (hf : f ∈ files) :
    (ofPath? base (base.descend f.1)).isSome := by
  obtain ⟨folders, stem, -, hnames⟩ := exists_stem hfiles hbase hf
  rw [hnames, ofPath?_descend hbase (hnames ▸ (hfiles.held f hf).plain)]
  rfl

/-- Whether the components of a file's path below a root hold no dot but that of the extension
    `class`. -/
def HoldsOneDot (base p : Path) : Prop :=
  ∃ rest front stem, base.stripBase? p = some rest ∧
    rest.components = front ++ [.name (stem ++ Text.encode ".class")] ∧
    (∀ c ∈ front, Path.dot ∉ c.bytes) ∧ Path.dot ∉ stem

/-- Whether a file's path below a root is text. -/
def IsTextBelow (base p : Path) : Prop :=
  ∃ rest, base.stripBase? p = some rest ∧ Text.IsText rest.bytes

/-- The names that lead to a file whose path holds one dot hold no other dot. -/
theorem HoldsOneDot.dotless
    (h : HoldsOneDot base (base.descend (folders ++ [stem ++ Text.encode ".class"])))
    (hbase : base.bytes ≠ [])
    (hnames : ∀ w ∈ folders ++ [stem ++ Text.encode ".class"], Path.IsPlain w) :
    ∀ w ∈ folders ++ [stem], Path.dot ∉ w := by
  obtain ⟨rest, front, stem', hrest, hcomponents, hfront, hstem⟩ := h
  rw [Path.stripBase?_descend hbase hnames (by simp)] at hrest
  rw [← Option.some.inj hrest, Path.components_ofPieces hnames (by simp), List.map_append,
    List.map_singleton] at hcomponents
  obtain ⟨rfl, hlast⟩ := List.append_singleton_inj.1 hcomponents
  obtain rfl := List.append_cancel_right (Path.Component.name.inj hlast)
  intro w hw
  rcases List.mem_append.1 hw with hw | hw
  · exact hfront (.name w) (List.mem_map_of_mem hw)
  · rw [List.mem_singleton.1 hw]
    exact hstem

/-- With slashes for its dots and the extension behind it, the class name of such a file is what is
    shown of the names that lead to it. -/
theorem HoldsOneDot.spelled (h : HoldsOneDot base (base.descend f.1))
    (hfiles : Listing t cwd a base files) (hbase : base.bytes ≠ []) (hf : f ∈ files) :
    ∃ name, ofPath? base (base.descend f.1) = some name ∧
      slashed name ++ ".class" = (Path.ofPieces f.1).text := by
  obtain ⟨folders, stem, hstem, hnames⟩ := exists_stem hfiles hbase hf
  have hplain := (hfiles.held f hf).plain
  rw [hnames] at h hplain ⊢
  have hdots := h.dotless hbase hplain
  have hshown : ∀ s ∈ (folders ++ [stem]).map Text.decodeLossy, '.' ∉ s.toList := by
    intro s hs
    obtain ⟨w, hw, rfl⟩ := List.mem_map.1 hs
    exact dotless_decodeLossy (hdots w hw)
  refine ⟨_, ofPath?_descend hbase hplain, ?_⟩
  rw [withoutExtension_class hstem (hdots stem (by simp)), slashed_join hshown, Path.text_ofPieces,
    Path.shown, List.map_append, List.map_append, List.map_singleton, List.map_singleton,
    decodeLossy_class, Text.join_concat_append]

/-- Every class file that is listed below a folder has a class name, however the path of the folder is
    spelled and wherever dots stand in the names below it. Where the only dot is that of the
    extension, the class name with slashes for its dots and the extension behind it is the path of the
    file below the folder as it is shown, and the path itself if that is text; so no two files whose
    paths are text have one class name. -/
theorem classFiles_named (h : t.stat cwd true base = .ok (a, .folder))
    (hnames : ∀ names n, t.node? (a ++ names) = some n → ∀ w ∈ names, Path.IsPlain w) :
    ∃ files, classFiles t cwd base = .ok files ∧
      (∀ p ∈ files, (ofPath? base p).isSome) ∧
      (∀ p ∈ files, HoldsOneDot base p → ∃ name rest, ofPath? base p = some name ∧
        base.stripBase? p = some rest ∧ base.join rest = p ∧ slashed name ++ ".class" = rest.text ∧
        (Text.IsText rest.bytes → .ofText (slashed name ++ ".class") = rest)) ∧
      files.Pairwise fun p q => HoldsOneDot base p → IsTextBelow base p →
        HoldsOneDot base q → IsTextBelow base q → ofPath? base p ≠ ofPath? base q := by
  have htext := (FileTree.reaches_of_stat h).1
  obtain ⟨files, hfiles⟩ := exists_listing h hnames
  have hstrip : ∀ f ∈ files, base.stripBase? (base.descend f.1) = some (Path.ofPieces f.1) :=
    fun f hf => Path.stripBase?_descend htext (hfiles.held f hf).plain (hfiles.held f hf).ne_nil
  refine ⟨_, hfiles.listed, List.forall_mem_map.2 fun f hf => isSome_ofPath? hfiles htext hf,
    List.forall_mem_map.2 fun f hf hdot => ?_, List.pairwise_map.2
      ((List.pairwise_map.1 hfiles.nodup).imp_of_mem
        fun {f g} hf hg hne hdot htextual hdot' htextual' heq => hne ?_)⟩
  · obtain ⟨name, hname, hspelled⟩ := hdot.spelled hfiles htext hf
    have hheld := hfiles.held f hf
    refine ⟨name, _, hname, hstrip f hf, Path.join_ofPieces base hheld.plain hheld.ne_nil, hspelled,
      fun hrest => ?_⟩
    rw [hspelled, Path.ofText_text hrest]
  · obtain ⟨name, hname, hspelled⟩ := hdot.spelled hfiles htext hf
    obtain ⟨name', hname', hspelled'⟩ := hdot'.spelled hfiles htext hg
    obtain ⟨rest, hrest, hbytes⟩ := htextual
    obtain ⟨rest', hrest', hbytes'⟩ := htextual'
    obtain rfl := Option.some.inj ((hstrip f hf).symm.trans hrest)
    obtain rfl := Option.some.inj ((hstrip g hg).symm.trans hrest')
    obtain rfl : name = name' := Option.some.inj (by rw [← hname, heq, hname'])
    have hsame : Path.ofPieces f.1 = Path.ofPieces g.1 := by
      rw [← Path.ofText_text hbytes, ← hspelled, hspelled', Path.ofText_text hbytes']
    exact Path.ofPieces_inj (hfiles.held f hf).ne_nil (hfiles.held g hg).ne_nil
      (fun w hw => ((hfiles.held f hf).plain w hw).no_slash)
      (fun w hw => ((hfiles.held g hg).plain w hw).no_slash) hsame

/-- In a folder that is spelled in an odd way, the class file in the hidden folder has a name all the
    same, and a nested class gives its path back. -/
theorem classFiles_named_packedClasses :
    ∃ files, classFiles packedClasses [] ⟨"./in//"⟩ = .ok files ∧
      (∀ p ∈ files, (ofPath? ⟨"./in//"⟩ p).isSome) ∧ ⟨"./in//.git/B.class"⟩ ∈ files ∧
      ofPath? ⟨"./in//"⟩ ⟨"./in//a/A$1.class"⟩ = some "a.A$1" ∧
      (Path.ofText "./in//").join (.ofText (slashed "a.A$1" ++ ".class")) =
        ⟨"./in//a/A$1.class"⟩ := by
  have hstat : packedClasses.stat [] true ⟨"./in//"⟩ = .ok (["in"], .folder) := by rfl
  obtain ⟨files, hfiles, hnamed, hback, -⟩ := classFiles_named hstat plain_packedClasses
  have hlisted : ∀ names, IsClassFile packedClasses ["in"] names →
      (Path.ofText "./in//").descend names ∈ files := by
    intro names hfile
    rw [classFiles_of_folder hstat (by decide)] at hfiles
    obtain rfl := Except.ok.inj hfiles
    exact List.mem_map_of_mem ((mem_classFilesSeen (by decide) plain_packedClasses).2 hfile)
  have hhidden : (Path.ofText "./in//").descend [".git", "B.class"] ∈ files :=
    hlisted _ ⟨[".git"], "B", [], by decide, by decide, by rfl⟩
  have hnested : (Path.ofText "./in//").descend ["a", "A$1.class"] ∈ files :=
    hlisted _ ⟨["a"], "A$1", [], by decide, by decide, by rfl⟩
  have hdot : HoldsOneDot ⟨"./in//"⟩ ⟨"./in//a/A$1.class"⟩ :=
    ⟨⟨"a/A$1.class"⟩, [.name "a"], "A$1", by decide, by decide, by decide, by decide⟩
  obtain ⟨name, rest, hname, hrest, hjoin, -, htextual⟩ := hback _ hnested hdot
  have heval : ofPath? ⟨"./in//"⟩ ⟨"./in//a/A$1.class"⟩ = some "a.A$1" := by decide
  obtain rfl : name = "a.A$1" := Option.some.inj (hname.symm.trans heval)
  have hbelow : (Path.ofText "./in//").stripBase? ⟨"./in//a/A$1.class"⟩ =
      some (.ofText "a/A$1.class") := by
    decide
  obtain rfl : rest = .ofText "a/A$1.class" := Option.some.inj (hrest.symm.trans hbelow)
  refine ⟨files, hfiles, hnamed, hhidden, hname, ?_⟩
  rw [htextual (Text.isText_encode _)]
  exact hjoin

/-- A class file, and a folder with two whose names are no text. -/
def unreadableNames : FileTree where
  entries := [(["A.class"], .file []), (["in"], .folder),
    ([Text.encode "in", 0xFE :: Text.encode ".class"], .file []),
    ([Text.encode "in", 0xFF :: Text.encode ".class"], .file [])]
  nodup := by decide
  rooted := by simp [FileTree.FolderIn]

/-- A root that is itself a class file is listed and has no class name. Two files below one folder whose
    only dots are those of their extensions have one class name if what tells them apart is no text,
    and it gives the path of neither back. -/
theorem classFiles_merges_names :
    classFiles unreadableNames [] ⟨"A.class"⟩ = .ok [⟨"A.class"⟩] ∧
    ofPath? ⟨"A.class"⟩ ⟨"A.class"⟩ = none ∧
    ∃ p q, classFiles unreadableNames [] ⟨"in"⟩ = .ok [p, q] ∧ p ≠ q ∧
      (HoldsOneDot ⟨"in"⟩ p ∧ HoldsOneDot ⟨"in"⟩ q) ∧
      (ofPath? ⟨"in"⟩ p = some "\uFFFD" ∧ ofPath? ⟨"in"⟩ q = some "\uFFFD") ∧
      Path.stripBase? ⟨"in"⟩ p ≠ some (.ofText (slashed "\uFFFD" ++ ".class")) ∧
      Path.stripBase? ⟨"in"⟩ q ≠ some (.ofText (slashed "\uFFFD" ++ ".class")) := by
  have hstat : unreadableNames.stat [] true ⟨"in"⟩ = .ok (["in"], .folder) := by rfl
  have hunder : unreadableNames.under ["in"] = [([0xFE :: Text.encode ".class"], .file []),
      ([0xFF :: Text.encode ".class"], .file [])] := by
    rw [FileTree.under]
    exact List.mergeSort_of_pairwise (by decide +kernel)
  have hlisted := classFiles_of_folder hstat (by decide)
  rw [hunder] at hlisted
  refine ⟨by decide +kernel, by decide, ⟨Text.encode "in/" ++ 0xFE :: Text.encode ".class"⟩,
    ⟨Text.encode "in/" ++ 0xFF :: Text.encode ".class"⟩, hlisted, by decide, ⟨?_, ?_⟩,
    by decide, by decide, by decide⟩
  · exact ⟨⟨0xFE :: Text.encode ".class"⟩, [], [0xFE], by decide, by decide, by simp, by decide⟩
  · exact ⟨⟨0xFF :: Text.encode ".class"⟩, [], [0xFF], by decide, by decide, by simp, by decide⟩

/-- So every class that is selected from a folder has a name to be reported by. -/
theorem ofFolder_named {marker : String} {selected : Selection}
    (h : t.stat cwd true base = .ok (a, .folder))
    (hnames : ∀ names n, t.node? (a ++ names) = some n → ∀ w ∈ names, Path.IsPlain w)
    (hselected : (Selection.ofFolder t cwd marker base).1 = .ok selected) :
    ∀ p ∈ selected.classes, (ofPath? base p).isSome := by
  obtain ⟨files, hfiles⟩ := exists_listing h hnames
  rw [Selection.ofFolder_of_listing h hfiles] at hselected
  cases hkept : (Selection.keepMarked t cwd marker (files.map fun f => base.descend f.1)).1 with
  | error e =>
    rw [hkept] at hselected
    cases hselected
  | ok classes =>
    rw [hkept] at hselected
    obtain rfl := Except.ok.inj hselected
    intro p hp
    obtain ⟨hin, -⟩ := List.mem_filter.1 (Selection.keepMarked_eq_ok hkept ▸ hp)
    obtain ⟨f, hf, rfl⟩ := List.mem_map.1 hin
    exact isSome_ofPath? hfiles (FileTree.reaches_of_stat h).1 hf

/-- A root has no class name, so neither has a class file that is looked at by itself. -/
theorem ofPath?_self (p : Path) : ofPath? p p = none := by
  rw [ofPath?, Path.stripBase?_self]
  rfl

end SourceRecovery.ClassName
