import SourceRecovery.Proofs.FileTree.Traversal
import SourceRecovery.Proofs.Path.FileName
import SourceRecovery.Selection

/-!
# The class files of a folder

* `precedes_descend`: below one folder, the order of paths is that of the names that lead there.
* `extension?_eq_class`: what the name of a class file looks like.
* `classFiles_lists`: each class file below a folder is listed once, in the order of the components
  of paths, in whichever order the system lists the names in a folder.
-/

namespace SourceRecovery

open FileTree (Before Lists isStandardInput)

variable {t : FileTree} {cwd a : Address} {base : Path} {names : Address}

/-- A component as it stands in a path. -/
def Path.Component.bytes : Component → Bytes
  | .root => [slash]
  | .here => [dot]
  | .up => [dot, dot]
  | .name w => w

/-- Whether a path comes before another one: component by component, and those by their bytes. -/
def Path.Precedes (p q : Path) : Prop :=
  Before (p.components.map Component.bytes) (q.components.map Component.bytes)

theorem Path.Precedes.ne {p q : Path} (h : p.Precedes q) : p ≠ q := by
  rintro rfl
  exact Before.ne h rfl

theorem FileTree.before_append {names' : Address} (h : Before names names') (front : Address) :
    Before (front ++ names) (front ++ names') := by
  induction front with
  | nil => exact h
  | cons w front ih => exact FileTree.before_cons.2 ih

theorem Path.precedes_descend {names' : Address} (hbase : base.bytes ≠ [])
    (hnames : ∀ w ∈ names, Path.IsPlain w) (hnames' : ∀ w ∈ names', Path.IsPlain w)
    (h : Before names names') : (base.descend names).Precedes (base.descend names') := by
  have hbytes : ∀ ws : Address, (ws.map Component.name).map Component.bytes = ws := by
    intro ws
    rw [List.map_map]
    exact List.map_id ws
  rw [Precedes, components_descend hbase hnames, components_descend hbase hnames', List.map_append,
    List.map_append, hbytes, hbytes]
  exact FileTree.before_append h _

/-- What the path of a class file ends in. -/
theorem Path.extension?_eq_class (hbase : base.bytes ≠ []) (hnames : ∀ w ∈ names, Path.IsPlain w)
    (hne : names ≠ []) : (base.descend names).extension? = some (Text.encode "class") ↔
      ∃ folders stem, stem ≠ [] ∧ names = folders ++ [stem ++ Text.encode ".class"] := by
  have hending : Text.encode ".class" = dot :: Text.encode "class" := by decide
  obtain ⟨folders, w, rfl⟩ := (List.eq_nil_or_concat names).resolve_left hne
  simp only [List.concat_eq_append] at hnames ⊢
  rw [extension?_descend hbase hnames, stemAndExtension_eq_some (by decide)]
  constructor
  · rintro ⟨stem, hstem, rfl⟩
    exact ⟨folders, stem, hstem, by rw [hending]⟩
  · rintro ⟨folders', stem, hstem, heq⟩
    refine ⟨stem, hstem, ?_⟩
    rw [(List.append_inj' heq rfl).2 |> List.singleton_inj.1, hending]

/-! ## What is listed -/

/-- Only paths with the extension `class` are listed. -/
theorem extension?_of_listed {files : List Path} {p : Path} (h : classFiles t cwd base = .ok files)
    (hp : p ∈ files) : p.extension? = some (Text.encode "class") := by
  rw [classFiles] at h
  cases hwalk : t.walkFiles cwd base with
  | error fault =>
    rw [hwalk] at h
    cases h
  | ok found =>
    rw [hwalk] at h
    obtain rfl := Except.ok.inj h
    exact beq_iff_eq.1 (List.mem_filter.1 hp).2

/-- The class files among what is seen below a base, by the names that lead there. -/
def classFilesSeen (base : Path) (seen : List (Address × Node)) : List Address :=
  (seen.filterMap fun e => match e.2 with
    | .file _ => some e.1
    | _ => none).filter fun names => (base.descend names).extension? == some (Text.encode "class")

/-- Whether names lead from a folder to a class file: to a file whose name is more than its
    extension, whatever the names of the folders are. -/
def IsClassFile (t : FileTree) (a names : Address) : Prop :=
  ∃ folders stem content, stem ≠ [] ∧ names = folders ++ [stem ++ Text.encode ".class"] ∧
    t.node? (a ++ names) = some (.file content)

theorem classFiles_of_folder (h : t.stat cwd true base = .ok (a, .folder))
    (hbase : isStandardInput base = false) :
    classFiles t cwd base = .ok ((classFilesSeen base (t.under a)).map base.descend) := by
  rw [classFiles, FileTree.walkFiles, FileTree.walk_of_folder h hbase]
  exact congrArg Except.ok List.filter_map

theorem mem_classFilesSeen (hbase : base.bytes ≠ [])
    (hnames : ∀ names n, t.node? (a ++ names) = some n → ∀ w ∈ names, Path.IsPlain w) :
    names ∈ classFilesSeen base (t.under a) ↔ IsClassFile t a names := by
  rw [classFilesSeen, List.mem_filter, List.mem_filterMap, beq_iff_eq]
  constructor
  · rintro ⟨⟨⟨names', n⟩, hmem, hsome⟩, hext⟩
    obtain ⟨hne, hnode⟩ := FileTree.mem_under.1 hmem
    cases n with
    | folder => cases hsome
    | link target => cases hsome
    | file content =>
      obtain rfl : names' = names := Option.some.inj hsome
      obtain ⟨folders, stem, hstem, heq⟩ :=
        (Path.extension?_eq_class hbase (hnames _ _ hnode) hne).1 hext
      exact ⟨folders, stem, content, hstem, heq, hnode⟩
  · rintro ⟨folders, stem, content, hstem, heq, hnode⟩
    have hne : names ≠ [] := by simp [heq]
    refine ⟨⟨(names, .file content), FileTree.mem_under.2 ⟨hne, hnode⟩, rfl⟩, ?_⟩
    exact (Path.extension?_eq_class hbase (hnames _ _ hnode) hne).2 ⟨folders, stem, hstem, heq⟩

/-- What is seen in the order of addresses is listed in that order. -/
theorem pairwise_classFilesSeen {seen : List (Address × Node)}
    (h : seen.Pairwise fun e f => Before e.1 f.1) : (classFilesSeen base seen).Pairwise Before := by
  refine (List.pairwise_filterMap.2 (h.imp ?_)).filter _
  rintro ⟨names, n⟩ ⟨names', n'⟩ hbefore b hb b' hb'
  cases n <;> cases n' <;> simp_all

/-- The class files below a folder are listed, and nothing else is: each of them once, in the order
    of the components of paths. Folders and files whose names begin with a dot count as well, and
    links do not. In which order the system lists the names in each folder makes no difference. -/
theorem classFiles_lists {listing : Address → List Name}
    (h : t.stat cwd true base = .ok (a, .folder)) (hbase : isStandardInput base = false)
    (hnames : ∀ names n, t.node? (a ++ names) = some n → ∀ w ∈ names, Path.IsPlain w)
    (hlisting : Lists t listing) :
    ∃ files, classFiles t cwd base = .ok (files.map base.descend) ∧
      files = classFilesSeen base (t.visit listing a) ∧
      (∀ names, names ∈ files ↔ IsClassFile t a names) ∧
      (files.map base.descend).Nodup ∧ (files.map base.descend).Pairwise Path.Precedes := by
  have htext := (FileTree.reaches_of_stat h).1
  have hvisit := FileTree.visit_eq_under hlisting a
  have hmem : ∀ names, names ∈ classFilesSeen base (t.under a) ↔ IsClassFile t a names :=
    fun _ => mem_classFilesSeen htext hnames
  have hplain : ∀ names ∈ classFilesSeen base (t.under a), ∀ w ∈ names, Path.IsPlain w := by
    intro names hin
    obtain ⟨folders, stem, content, -, -, hnode⟩ := (hmem names).1 hin
    exact hnames names _ hnode
  have hprecedes : ((classFilesSeen base (t.under a)).map base.descend).Pairwise Path.Precedes := by
    have hbefore : (classFilesSeen base (t.under a)).Pairwise Before :=
      pairwise_classFilesSeen (hvisit ▸ FileTree.pairwise_visit hlisting a)
    refine List.pairwise_map.2 (hbefore.imp_of_mem fun hin hin' hlt => ?_)
    exact Path.precedes_descend htext (hplain _ hin) (hplain _ hin') hlt
  exact ⟨_, classFiles_of_folder h hbase, by rw [hvisit], hmem, hprecedes.imp Path.Precedes.ne,
    hprecedes⟩

/-- A folder with a hidden folder, a link, and a folder beside a file whose name begins with its. -/
def packedClasses : FileTree where
  entries := [(["in"], .folder), (["in", "a.class"], .file []), (["in", "a"], .folder),
    (["in", "a", "A.class"], .file []), (["in", "a", "A$1.class"], .file []),
    (["in", ".git"], .folder), (["in", ".git", "B.class"], .file []),
    (["in", "C.class"], .link "a.class"), (["in", ".class"], .file [])]
  nodup := by decide
  rooted := by simp [FileTree.FolderIn]

theorem plain_packedClasses (names : Address) (n : Node)
    (h : packedClasses.node? ((["in"] : Address) ++ names) = some n) :
    ∀ w ∈ names, Path.IsPlain w := by
  have hplain : ∀ e ∈ packedClasses.entries, ∀ w ∈ e.1, Path.IsPlain w := by decide
  intro w hw
  exact hplain _ (FileTree.mem_of_node? (by simp) h) w (List.mem_append_right _ hw)

/-- With the names in each folder listed backwards, the class file in the hidden folder is found, and
    the link is not. -/
theorem classFiles_lists_packedClasses :
    ∃ files, classFiles packedClasses [] ⟨"in"⟩ = .ok (files.map (Path.descend ⟨"in"⟩)) ∧
      files = classFilesSeen ⟨"in"⟩
        (packedClasses.visit (fun a => (packedClasses.namesIn a).reverse) ["in"]) ∧
      ([".git", "B.class"] : Address) ∈ files ∧ (["C.class"] : Address) ∉ files ∧
      (files.map (Path.descend ⟨"in"⟩)).Pairwise Path.Precedes := by
  obtain ⟨files, hfound, hseen, hmem, -, hprecedes⟩ := classFiles_lists
    (show packedClasses.stat [] true ⟨"in"⟩ = .ok (["in"], .folder) by rfl) (by decide)
    plain_packedClasses
    (FileTree.lists_of_perm fun a => List.reverse_perm (packedClasses.namesIn a))
  refine ⟨files, hfound, hseen, (hmem _).2 ?_, fun hlink => ?_, hprecedes⟩
  · exact ⟨[".git"], "B", [], by decide, by decide, by rfl⟩
  · obtain ⟨folders, stem, content, -, -, hnode⟩ := (hmem _).1 hlink
    cases hnode

end SourceRecovery
