import SourceRecovery.Run.Output
import SourceRecovery.Proofs.FileTree.Folders
import SourceRecovery.Proofs.SourceUnit.Destination

/-!
# Writing one source unit

* `write_cases`: what a write can do.
* `write_descend`: a path below a folder is written to its own address, or nothing changes.
* `pathBelow_descend`: the path that is entered for a file is made of its names.
* `deposit_spec`: what becomes of the tree with each unit.
-/

namespace SourceRecovery

namespace FileTree

variable {t : FileTree} {cwd root : Address} {output : Path} {names : List Name}

/-- Whether a file stands at an address of a tree that is else the same as another one. -/
def HasInstead (a : Address) (content : Bytes) (t t' : FileTree) : Prop :=
  ∀ b, t'.node? b = if b = a then some (.file content) else t.node? b

/-- Whether the system follows a path that leads on by these names. -/
def Followed (output : Path) (names : List Name) : Prop :=
  (output.descend names).unusable? = none ∧ ∀ w ∈ names, w.length ≤ 255

/-- A write changes nothing, or puts the file in the place of one that the path leads to, or where the
    path leads to nothing. -/
theorem write_cases (t : FileTree) (cwd : Address) (p : Path) (content : Bytes) :
    (∃ fault, t.write cwd p content = (.error fault, t)) ∨
    ∃ a, t.write cwd p content = (.ok (), t.place a (.file content)) ∧ p.unusable? = none ∧
      ((∃ old, t.resolve cwd true p = .ok (.taken a (.file old))) ∨
        t.resolve cwd true p = .ok (.vacant a false)) := by
  have husable : ∀ place, t.resolve cwd true p = .ok place → p.unusable? = none := by
    intro place hplace
    rw [resolve] at hplace
    split at hplace
    · cases hplace
    · assumption
  rw [write]
  cases hresolve : t.resolve cwd true p with
  | error fault => exact .inl ⟨fault, rfl⟩
  | ok place =>
    cases place with
    | taken a n =>
      cases n with
      | folder => exact .inl ⟨.isFolder, rfl⟩
      | link target => exact .inl ⟨.isFolder, rfl⟩
      | file old => exact .inr ⟨a, rfl, husable _ hresolve, .inl ⟨old, rfl⟩⟩
    | vacant a slash =>
      cases slash with
      | true => exact .inl ⟨.isFolder, rfl⟩
      | false => exact .inr ⟨a, rfl, husable _ hresolve, .inr rfl⟩

/-- Below a folder without links, a file is written to the address that its names spell, or nothing
    changes. -/
theorem write_descend (h : Opens t cwd output root) (hnames : ∀ w ∈ names, Path.IsPlain w)
    (hne : names ≠ []) (content : Bytes) :
    (∃ fault, t.write cwd (output.descend names) content = (.error fault, t)) ∨
    ∃ t', t.write cwd (output.descend names) content = (.ok (), t') ∧ Followed output names ∧
      t.node? (root ++ names) ≠ some .folder ∧ HasInstead (root ++ names) content t t' := by
  have hnil : root ++ names ≠ [] := by simp [hne]
  rcases write_cases t cwd (output.descend names) content with
    herror | ⟨a, hwrite, husable, hplace⟩
  · exact .inl herror
  · obtain ⟨left, hresolve⟩ := resolve_descend h hnames hne husable
    have hled := walkLinks_names names left false h.linkless h.node?_root
    rw [hresolve] at hplace
    rcases hplace with ⟨old, hwalk⟩ | hwalk
    · have hsizes := size_le_of_walkLinks_names h.linkless hwalk
      rw [hwalk] at hled
      obtain ⟨rfl, hnode⟩ := hled
      have hfree : t.node? (root ++ names) ≠ some .folder := by simp [hnode]
      exact .inr ⟨_, hwrite, ⟨husable, hsizes⟩, hfree, fun b =>
        node?_place hnil (node?_dropLast hnode) hfree⟩
    · have hsizes := size_le_of_walkLinks_names h.linkless hwalk
      rw [hwalk] at hled
      obtain ⟨rfl, -, -, hnone, hfolder⟩ := hled
      have hfree : t.node? (root ++ names) ≠ some .folder := by simp [hnone]
      exact .inr ⟨_, hwrite, ⟨husable, hsizes⟩, hfree, fun b => node?_place hnil hfolder hfree⟩

theorem Opens.hasInstead {t' : FileTree} {content : Bytes} (h : Opens t cwd output root)
    (hfree : t.node? (root ++ names) ≠ some .folder)
    (hinstead : HasInstead (root ++ names) content t t') : Opens t' cwd output root := by
  obtain ⟨left, hleft⟩ := h.reaches
  refine ⟨h.text_ne, ⟨left, hleft.mono ?_⟩, ?_⟩
  · intro b n hn hfile
    rw [hinstead b]
    split
    · rename_i hb
      subst hb
      cases n with
      | folder => exact absurd hn hfree
      | file content => exact absurd rfl (hfile content)
      | link target => exact absurd hn (h.linkless _ target (List.prefix_append root names))
    · exact hn
  · intro b target hp hlink
    rw [hinstead b] at hlink
    split at hlink
    · cases hlink
    · exact h.linkless b target hp hlink

end FileTree

theorem pathBelow_descend {output : Path} {names : List Name} (hp : output.bytes ≠ [])
    (hnames : ∀ w ∈ names, Path.IsPlain w) (hne : names ≠ []) :
    pathBelow output (output.descend names) = Path.shown names := by
  rw [pathBelow, Path.stripBase?_descend hp hnames hne]
  show Text.join "/" ((Path.ofPieces names).components.map Path.Component.text) = _
  rw [Path.components_ofPieces hnames hne, List.map_map]
  rfl

theorem descend_inj {output : Path} {names names' : List Name} (hp : output.bytes ≠ [])
    (hnames : ∀ w ∈ names, Path.IsPlain w) (hnames' : ∀ w ∈ names', Path.IsPlain w)
    (h : output.descend names = output.descend names') : names = names' := by
  have hcomponents := Path.components_descend hp hnames'
  rw [← h, Path.components_descend hp hnames] at hcomponents
  exact List.map_inj_right (fun _ _ => Path.Component.name.inj) |>.1
    (List.append_cancel_left hcomponents)

/-! ## Units -/

variable {t : FileTree} {cwd root : Address} {output : Path}

/-- What can become of a tree with a unit: nothing, new folders below the output folder, or also the
    file of the unit. -/
inductive Deposited (output : Path) (root : Address) (u : SourceUnit) (t : FileTree) :
    Deposit → FileTree → Prop
  | blank (h : u.isBlank = true) : Deposited output root u t .blank t
  | unusable (hblank : u.isBlank = false) (h : u.below? = none) :
    Deposited output root u t .unusable t
  | failed {target : Path} {cause : IoFault} {t' : FileTree} (hblank : u.isBlank = false)
    (h : u.below? ≠ none) (hgrow : t.GrowsBelow root t') :
    Deposited output root u t (.failed target cause) t'
  | stored {names : List Name} {t₁ t' : FileTree} (hblank : u.isBlank = false)
    (h : u.below? = some names) (hfollowed : FileTree.Followed output names)
    (hgrow : FileTree.GrowsBelow root t t₁) (hfree : t₁.node? (root ++ names) ≠ some .folder)
    (hinstead : FileTree.HasInstead (root ++ names) (Text.encode u.content) t₁ t') :
    Deposited output root u t
      (.stored ⟨Path.shown names, Digest.Sha256.hex (Text.encode u.content)⟩) t'

theorem deposit_spec (h : t.Opens cwd output root) (u : SourceUnit) :
    Deposited output root u t (deposit cwd output u t).1 (deposit cwd output u t).2 := by
  rw [deposit]
  split
  · exact .blank ‹_›
  · have hblank : u.isBlank = false := by simpa using ‹¬ u.isBlank = true›
    rw [SourceUnit.destination?_eq]
    cases hbelow : u.below? with
    | none => exact .unusable hblank hbelow
    | some names =>
      obtain ⟨hne, hnames⟩ := SourceUnit.plain_of_below? hbelow
      obtain ⟨front, w, rfl⟩ := Path.exists_concat hne
      have hfront : ∀ v ∈ front, Path.IsPlain v := fun v hv => hnames v (by simp [hv])
      have hlast : Path.IsPlain w := hnames w (by simp)
      have hgrow := FileTree.makeFolders_grows h hfront hlast
      have hsome : u.below? ≠ none := by simp [hbelow]
      simp only [Option.map_some]
      generalize t.makeFolders cwd _ = made at hgrow ⊢
      obtain ⟨outcome, t₁⟩ := made
      have hgrow : t.GrowsBelow root t₁ := hgrow
      cases outcome with
      | error cause => exact .failed hblank hsome hgrow
      | ok _ =>
        have hopens : t₁.Opens cwd output root := h.grow hgrow
        obtain ⟨fault, hwrite⟩ | ⟨t', hwrite, hfollowed, hfree, hinstead⟩ :=
          FileTree.write_descend hopens hnames hne (Text.encode u.content)
        · simp only [hwrite]
          exact .failed hblank hsome hgrow
        · simp only [hwrite]
          have hpath := pathBelow_descend h.text_ne hnames hne
          show Deposited output root u t (.stored ⟨pathBelow output _, _⟩) t'
          rw [hpath]
          exact .stored hblank hbelow hfollowed hgrow hfree hinstead

end SourceRecovery
