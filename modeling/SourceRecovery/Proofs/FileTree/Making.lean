import SourceRecovery.Proofs.FileTree.Additions
import SourceRecovery.Proofs.Path.Usable
import SourceRecovery.Proofs.Run.Deposit

/-!
# Folders and files that can be made

Below a folder without links, what is asked for is made wherever nothing stands in the way and the
system follows the path.

* `Paves`: a tree differs from another one by the folders on the way of some names.
* `makeFolder_descend`, `makeFoldersUpTo_paves`: a folder is made, with those in front of it.
* `write_in_folder`: a file is written into a folder.
* `makeFile_adds`: a file is made with the folders in front of it.
* `Adds.store`: so is one after other files.
-/

namespace SourceRecovery.FileTree

variable {t t' t'' : FileTree} {cwd root a : Address} {output p : Path} {names front : List Name}
  {files : List (Address × Bytes)} {content : Bytes} {w : Name} {links left : Nat} {slash : Bool}

/-! ## Ways along names -/

theorem not_prefix_of_concat (root : Address) (names : List Name) (w : Name) :
    ¬ root ++ (names ++ [w]) <+: root ++ names := by
  intro hp
  exact absurd ((List.prefix_append_right_inj root).1 hp).length_le (by simp)

theorem prefix_concat (h : a <+: root ++ names) (w : Name) :
    a <+: root ++ (names ++ [w]) := by
  rw [← List.append_assoc]
  exact h.trans (List.prefix_append _ _)

/-- Names of folders lead to the last of them. -/
theorem reaches_names (hsizes : ∀ w ∈ names, w.length ≤ 255)
    (h : t.node? (root ++ names) = some .folder) (links : Nat) :
    Reaches t links root (names.map .enter) links (root ++ names) := by
  induction names generalizing root with
  | nil =>
    rw [List.append_nil] at h ⊢
    exact .stop h
  | cons w names ih =>
    obtain ⟨hw, hsizes'⟩ := List.forall_mem_cons.1 hsizes
    rw [List.append_cons] at h ⊢
    refine .folder hw ?_ (ih hsizes' h)
    by_cases hlast : names = []
    · rwa [hlast, List.append_nil] at h
    · exact node?_above h (List.prefix_append _ _) (by simpa using hlast)

theorem Opens.leadsTo_descend (h : Opens t cwd output root) (hnames : ∀ w ∈ names, Path.IsPlain w)
    (hsizes : ∀ w ∈ names, w.length ≤ 255) (hfolder : t.node? (root ++ names) = some .folder) :
    t.LeadsTo cwd (output.descend names) (root ++ names) := by
  obtain ⟨left, hleft⟩ := h.reaches
  have hwalk := walkLinks_append hleft (names.map .enter) false
  rw [walkLinks_of_reaches (reaches_names hsizes hfolder left), ← Path.steps_descend output hnames,
    ← Path.origin_descend h.text_ne hnames] at hwalk
  exact reaches_of_walkLinks hwalk

/-- Names of folders behind a path open the last of them. -/
theorem Opens.descend (h : Opens t cwd output root) (hnames : ∀ w ∈ names, Path.IsPlain w)
    (hsizes : ∀ w ∈ names, w.length ≤ 255) (hfolder : t.node? (root ++ names) = some .folder) :
    Opens t cwd (output.descend names) (root ++ names) :=
  ⟨Path.bytes_descend_ne_nil h.text_ne hnames, h.leadsTo_descend hnames hsizes hfolder,
    fun a target hp => h.linkless a target ((List.prefix_append root names).trans hp)⟩

theorem Opens.stat (h : Opens t cwd output root) (husable : output.unusable? = none) :
    t.stat cwd true output = .ok (root, .folder) :=
  stat_of_leadsTo husable h.reaches

/-- Whether nothing but folders stands on the way of some names, and at its end. -/
def PassableBelow (t : FileTree) (root : Address) (names : List Name) : Prop :=
  ∀ front, front <+: names → front ≠ [] →
    t.node? (root ++ front) = none ∨ t.node? (root ++ front) = some .folder

theorem PassableBelow.of_prefix (h : PassableBelow t root names) (hp : front <+: names) :
    PassableBelow t root front :=
  fun before hbefore => h before (hbefore.trans hp)

/-- Where the way leads to no folder, nothing stands. -/
theorem PassableBelow.missing (h : PassableBelow t root names) (hroot : t.node? root = some .folder)
    (hnone : t.node? (root ++ names) ≠ some .folder) :
    names ≠ [] ∧ t.node? (root ++ names) = none := by
  have hne : names ≠ [] := by
    rintro rfl
    rw [List.append_nil] at hnone
    exact hnone hroot
  exact ⟨hne, (h names (List.prefix_refl names) hne).resolve_right hnone⟩

/-- Where a folder of the way is missing, the last one is not found. -/
theorem walkLinks_names_missing (hsizes : ∀ w ∈ names, w.length ≤ 255)
    (hway : PassableBelow t root names) (hroot : t.node? root = some .folder)
    (h : t.node? (root ++ names) = none) (links : Nat) (slash : Bool) :
    (∃ a, walkLinks t true links root (names.map .enter) slash = .ok (.vacant a slash)) ∨
      walkLinks t true links root (names.map .enter) slash = .error .notFound := by
  induction names generalizing root with
  | nil =>
    rw [List.append_nil, hroot] at h
    cases h
  | cons w names ih =>
    obtain ⟨hw, hsizes'⟩ := List.forall_mem_cons.1 hsizes
    rw [List.map_cons]
    rcases hway [w] (by simp) (by simp) with hnone | hfolder
    · rw [walkLinks_none hw hnone]
      split
      · exact .inl ⟨_, rfl⟩
      · exact .inr rfl
    · rw [walkLinks_folder hw hfolder]
      refine ih hsizes' ?_ hfolder (by rwa [List.append_cons] at h)
      intro front hp hne
      rw [List.append_assoc]
      exact hway (w :: front) ((List.prefix_cons_inj w).2 hp) (by simp)

/-! ## One folder -/

theorem Followed.of_append {rest : List Name} (htext : output.bytes ≠ [])
    (hnames : ∀ v ∈ names ++ rest, Path.IsPlain v) (h : Followed output (names ++ rest)) :
    Followed output names := by
  have hfront : ∀ v ∈ names, Path.IsPlain v := fun v hv => hnames v (List.mem_append_left rest hv)
  have hbegins : (output.descend names).Begins (output.descend (names ++ rest)) := by
    rw [Path.descend, Path.descend, List.foldl_append]
    exact Path.begins_descend _ fun v hv => hnames v (List.mem_append_right names hv)
  exact ⟨hbegins.usable (Path.bytes_descend_ne_nil htext hfront) h.1,
    fun v hv => h.2 v (List.mem_append_left rest hv)⟩

/-- The last of some names is looked up where the others lead. -/
theorem locate_descend (h : Opens t cwd output root) (hnames : ∀ v ∈ names ++ [w], Path.IsPlain v)
    (hfollowed : Followed output (names ++ [w])) :
    ∃ left, t.locate cwd (output.descend (names ++ [w])) =
      match walkLinks t true left root (names.map .enter) true with
      | .error fault => .error fault
      | .ok (.vacant _ _) => .error .notFound
      | .ok (.taken folder _) => .ok (.name folder w) := by
  obtain ⟨left, hleft⟩ := h.reaches
  have hsize : ¬ 255 < w.length := Nat.not_lt.2 (hfollowed.2 w (by simp))
  have hsteps : (output.descend (names ++ [w])).steps =
      output.steps ++ names.map .enter ++ [.enter w] := by
    rw [Path.steps_descend output hnames, List.map_append, List.append_assoc]
    rfl
  have hname : ¬ (output.descend (names ++ [w])).steps.all Step.isDots = true := by
    rw [hsteps]
    simp [Step.isDots]
  have hlast : ∀ folder, Ending.ofLast folder (some (.enter w)) = .ok (.name folder w) :=
    fun _ => if_neg hsize
  refine ⟨left, ?_⟩
  rw [locate, hfollowed.1]
  simp only [if_neg hname]
  rw [hsteps, List.dropLast_concat, List.getLast?_concat, Path.origin_descend h.text_ne hnames,
    walkLinks_append hleft]
  generalize walkLinks t true left root (names.map .enter) true = outcome
  rcases outcome with fault | (⟨folder, n⟩ | ⟨a, slash⟩)
  · rfl
  · exact hlast folder
  · rfl

/-- A folder is made in a folder where nothing stands. -/
theorem makeFolder_descend (h : Opens t cwd output root)
    (hnames : ∀ v ∈ names ++ [w], Path.IsPlain v) (hfollowed : Followed output (names ++ [w]))
    (hfolder : t.node? (root ++ names) = some .folder)
    (hfree : t.node? (root ++ (names ++ [w])) = none) :
    t.makeFolder cwd (output.descend (names ++ [w])) =
      (.ok (), t.place (root ++ (names ++ [w])) .folder) := by
  obtain ⟨left, hlocate⟩ := locate_descend h hnames hfollowed
  have hreaches := reaches_names (fun v hv => hfollowed.2 v (List.mem_append_left [w] hv)) hfolder left
  rw [walkLinks_of_reaches hreaches] at hlocate
  rw [← List.append_assoc] at hfree ⊢
  simp only [makeFolder, hlocate, hfree]

/-- A folder that is made for a path shows where the path leads, and nowhere else. -/
theorem node?_of_makeFolder (h : t.makeFolder cwd p = (.ok (), t'))
    (hstat : t'.stat cwd true p = .ok (a, .folder)) :
    t.node? a = none ∧ ∀ b, t'.node? b = if b = a then some .folder else t.node? b := by
  rcases makeFolder_cases t cwd p with ⟨folder, name, hlocate, hnone, hmake⟩ | ⟨fault, hmake, -⟩
  · rw [hmake] at h
    obtain ⟨-, rfl⟩ := Prod.mk.inj h
    have hleads := (reaches_of_stat hstat).2
    have hfolder : t.node? (folder ++ [name]).dropLast = some .folder := by
      by_cases hthere : t.node? (folder ++ [name]).dropLast = some .folder
      · exact hthere
      · -- nothing is put where there is no folder
        rw [place_of_no_folder .folder fun hplace => hthere hplace.2] at hleads
        exact absurd hleads (not_leadsTo_of_locate hlocate (.refl t) hnone)
    have hnode : ∀ b, (t.place (folder ++ [name]) .folder).node? b =
        if b = folder ++ [name] then some .folder else t.node? b := fun b =>
      node?_place (by simp) hfolder (by simp [hnone])
    have hwithin : t.Within (t.place (folder ++ [name]) .folder) := by
      intro b n hn
      rw [hnode, if_neg fun hb => by simp [hb, hnone] at hn, hn]
    rw [List.dropLast_concat] at hfolder
    have hnew := leadsTo_of_locate_within hlocate hwithin hfolder (by simp [hnode])
    obtain rfl := hnew.unique hleads
    exact ⟨hnone, hnode⟩
  · rw [hmake] at h
    cases (Prod.mk.inj h).1

/-- A folder is not made where the one in front of it is missing. -/
theorem makeFolder_descend_missing (h : Opens t cwd output root)
    (hnames : ∀ v ∈ names ++ [w], Path.IsPlain v) (hfollowed : Followed output (names ++ [w]))
    (hway : PassableBelow t root names) (hmissing : t.node? (root ++ names) = none) :
    t.makeFolder cwd (output.descend (names ++ [w])) = (.error .notFound, t) := by
  obtain ⟨left, hlocate⟩ := locate_descend h hnames hfollowed
  have hlocate' : t.locate cwd (output.descend (names ++ [w])) = .error .notFound := by
    rcases walkLinks_names_missing (fun v hv => hfollowed.2 v (List.mem_append_left [w] hv)) hway
      h.node?_root hmissing left true with ⟨a, hwalk⟩ | hwalk <;> rw [hlocate, hwalk]
  rw [makeFolder, hlocate']

/-- For a path that leads to a folder nothing needs to be made. -/
theorem makeFoldersUpTo_of_isFolder (h : t.isFolder cwd p = true) (htext : p.bytes ≠ []) (n : Nat) :
    t.makeFoldersUpTo cwd n p = (.ok (), t) := by
  obtain ⟨-, a, hleads⟩ := isFolder_iff.1 h
  rcases makeFolder_cases t cwd p with ⟨folder, name, hlocate, hnone, -⟩ | ⟨fault, hmake, hmissing⟩
  · exact absurd hleads (not_leadsTo_of_locate hlocate (.refl t) hnone)
  · cases n with
    | zero =>
      rw [makeFoldersUpTo, ensureFolder, hmake]
      exact if_pos h
    | succ n =>
      have hfault : fault ≠ .notFound := fun heq => hleads.locate_ne_notFound htext (hmissing heq)
      rw [makeFoldersUpTo, if_neg (by simpa using htext), hmake]
      simp only [h, if_true]

theorem makeFoldersUpTo_bare (h : Opens t cwd output root) (hnames : ∀ v ∈ names, Path.IsPlain v)
    (hfollowed : Followed output names) (hfolder : t.node? (root ++ names) = some .folder) (n : Nat) :
    t.makeFoldersUpTo cwd n (output.descend names).bare = (.ok (), t) := by
  have htext := Path.bytes_descend_ne_nil h.text_ne hnames
  obtain ⟨left, hleft⟩ := h.leadsTo_descend hnames hfollowed.2 hfolder
  exact makeFoldersUpTo_of_isFolder
    (isFolder_iff.2 ⟨Path.usable_bare hfollowed.1, _, left, reaches_bare htext hleft⟩)
    (Path.bare_ne_empty htext) n

/-! ## Many folders -/

/-- In a folder that is there, one folder is all that is made. -/
theorem makeFolders_name (h : Opens t cwd output root) (hw : Path.IsPlain w)
    (hfollowed : Followed output [w]) (hfree : t.node? (root ++ [w]) = none) :
    t.makeFolders cwd (output.descend [w]) = (.ok (), t.place (root ++ [w]) .folder) := by
  have hnames : ∀ v ∈ [] ++ [w], Path.IsPlain v := by simpa using hw
  have hfolder : t.node? (root ++ []) = some .folder := by simpa using h.node?_root
  have hmake := makeFolder_descend h hnames hfollowed hfolder hfree
  rw [List.nil_append] at hmake
  rw [makeFolders, makeFoldersUpTo, if_neg (by simpa using Path.bytes_descend_ne_nil h.text_ne hnames),
    hmake]

/-- Whether a tree differs from another one by the folders on the way of some names only. -/
structure Paves (root : Address) (names : List Name) (t t' : FileTree) : Prop where
  folder : ∀ front, front <+: names → t'.node? (root ++ front) = some .folder
  elsewhere : ∀ a, ¬ a <+: root ++ names → t'.node? a = t.node? a

theorem paves_self (h : t.node? (root ++ names) = some .folder) : Paves root names t t := by
  refine ⟨fun front hp => ?_, fun _ _ => rfl⟩
  by_cases heq : root ++ front = root ++ names
  · rw [heq, h]
  · exact node?_above h ((List.prefix_append_right_inj root).2 hp) heq

/-- The folder of the last name is put into the folder that the others lead to. -/
theorem Paves.concat (h : Paves root names t t') (hfree : t.node? (root ++ (names ++ [w])) = none) :
    Paves root (names ++ [w]) t (t'.place (root ++ (names ++ [w])) .folder) := by
  have hnone : t'.node? (root ++ (names ++ [w])) = none := by
    rw [h.elsewhere _ (not_prefix_of_concat root names w), hfree]
  have hparent : t'.node? (root ++ (names ++ [w])).dropLast = some .folder := by
    rw [← List.append_assoc, List.dropLast_concat]
    exact h.folder names (List.prefix_refl names)
  have hnode : ∀ b, (t'.place (root ++ (names ++ [w])) .folder).node? b =
      if b = root ++ (names ++ [w]) then some .folder else t'.node? b := fun b =>
    node?_place (by simp) hparent (by simp [hnone])
  refine ⟨fun front hp => ?_, fun a ha => ?_⟩
  · rw [hnode]
    split
    · rfl
    · rename_i hne
      rcases List.prefix_concat_iff.1 hp with heq | hp'
      · exact absurd (congrArg (root ++ ·) heq) hne
      · exact h.folder front hp'
  · have hne : a ≠ root ++ (names ++ [w]) := by
      rintro rfl
      exact ha (List.prefix_refl _)
    rw [hnode, if_neg hne, h.elsewhere a fun hp => ha (prefix_concat hp w)]

/-- Folders are made along names where nothing else stands in the way. -/
theorem makeFoldersUpTo_paves (n : Nat) (h : Opens t cwd output root)
    (hnames : ∀ v ∈ names, Path.IsPlain v) (hfollowed : Followed output names)
    (hway : PassableBelow t root names) (hn : names.length ≤ n) :
    ∃ t', t.makeFoldersUpTo cwd n (output.descend names).bare = (.ok (), t') ∧
      Paves root names t t' := by
  induction n generalizing names with
  | zero =>
    obtain rfl := List.length_eq_zero_iff.1 (Nat.le_zero.1 hn)
    exact ⟨t, makeFoldersUpTo_bare h hnames hfollowed (by simpa using h.node?_root) 0,
      paves_self (by simpa using h.node?_root)⟩
  | succ n ih =>
    by_cases hthere : t.node? (root ++ names) = some .folder
    · exact ⟨t, makeFoldersUpTo_bare h hnames hfollowed hthere _, paves_self hthere⟩
    · obtain ⟨hne, hfree⟩ := hway.missing h.node?_root hthere
      rw [Path.bare_descend h.text_ne hnames hne, makeFoldersUpTo,
        if_neg (by simpa using Path.bytes_descend_ne_nil h.text_ne hnames)]
      obtain ⟨front, w, rfl⟩ := Path.exists_concat hne
      have hfront : ∀ v ∈ front, Path.IsPlain v := fun v hv => hnames v (List.mem_append_left [w] hv)
      by_cases hparent : t.node? (root ++ front) = some .folder
      · rw [makeFolder_descend h hnames hfollowed hparent hfree]
        exact ⟨_, rfl, (paves_self hparent).concat hfree⟩
      · -- the folder in front of it is missing, and is made first
        have hway' : PassableBelow t root front := hway.of_prefix (List.prefix_append front [w])
        have hmissing := (hway'.missing h.node?_root hparent).2
        obtain ⟨t₁, hmade, hpaves⟩ := ih hfront (hfollowed.of_append h.text_ne hnames) hway' (by
          rw [List.length_append, List.length_singleton] at hn
          omega)
        have hgrow : GrowsBelow root t t₁ := by
          have hclimbs := makeFoldersUpTo_grows n h ⟨front, hfront, rfl⟩
          rwa [hmade] at hclimbs
        have hfree' : t₁.node? (root ++ (front ++ [w])) = none := by
          rw [hpaves.elsewhere _ (not_prefix_of_concat root front w), hfree]
        rw [makeFolder_descend_missing h hnames hfollowed hway' hmissing,
          Path.parent?_descend h.text_ne hfront (hnames w (by simp))]
        simp only [hmade, ensureFolder]
        rw [makeFolder_descend (h.grow hgrow) hnames hfollowed
          (hpaves.folder front (List.prefix_refl front)) hfree']
        exact ⟨_, rfl, hpaves.concat hfree⟩

/-- The folders in front of the last name are made where nothing else stands in the way. -/
theorem makeFolders_paves (h : Opens t cwd output root)
    (hnames : ∀ v ∈ names ++ [w], Path.IsPlain v) (hfollowed : Followed output (names ++ [w]))
    (hway : PassableBelow t root names) :
    ∃ t', t.makeFolders cwd ((output.descend (names ++ [w])).parent?.getD ⟨[]⟩) = (.ok (), t') ∧
      Paves root names t t' := by
  have hfront : ∀ v ∈ names, Path.IsPlain v := fun v hv => hnames v (List.mem_append_left [w] hv)
  rw [Path.parent?_descend h.text_ne hfront (hnames w (by simp))]
  refine makeFoldersUpTo_paves _ h hfront (hfollowed.of_append h.text_ne hnames) hway ?_
  by_cases hne : names = []
  · simp [hne]
  · rw [Option.getD_some, Path.bare_descend h.text_ne hfront hne,
      Path.slashPieces_descend output hfront hne, List.length_append]
    omega

/-! ## Files -/

/-- Names that are walked to a file are not too long. -/
theorem size_le_of_walkLinks_file {place : Place}
    (hfile : t.node? (root ++ names) = some (.file content))
    (h : walkLinks t true links root (names.map .enter) slash = .ok place) :
    ∀ w ∈ names, w.length ≤ 255 := by
  induction names generalizing root with
  | nil => simp
  | cons w names ih =>
    rw [List.map_cons] at h
    by_cases hsize : w.length ≤ 255
    · refine List.forall_mem_cons.2 ⟨hsize, ?_⟩
      by_cases hlast : names = []
      · simp [hlast]
      · rw [List.append_cons] at hfile
        have hfolder : t.node? (root ++ [w]) = some .folder :=
          node?_above hfile (List.prefix_append _ _) (by simpa using hlast)
        rw [walkLinks_folder hsize hfolder] at h
        exact ih hfile h
    · rw [walkLinks_tooLong (by omega)] at h
      cases h

/-- A file below a folder is found by its names, if the system follows them. -/
theorem LeadsTo.stat_descend (h : t.LeadsTo cwd p root) (htext : p.bytes ≠ [])
    (hnames : ∀ w ∈ names, Path.IsPlain w) (hne : names ≠ [])
    (hfile : t.node? (root ++ names) = some (.file content)) (hfollowed : Followed p names) :
    t.stat cwd true (p.descend names) = .ok (root ++ names, .file content) := by
  obtain ⟨left, hleft⟩ := h
  refine stat_eq_ok.2 ⟨hfollowed.1, ?_⟩
  rw [Path.origin_descend htext hnames, Path.steps_descend p hnames,
    Path.endsInSlash_descend p hnames hne, walkLinks_append hleft]
  exact walkLinks_names_file hfollowed.2 hne hfile

theorem LeadsTo.followed (h : t.LeadsTo cwd p root) (htext : p.bytes ≠ [])
    (hnames : ∀ w ∈ names, Path.IsPlain w)
    (hfile : t.node? (root ++ names) = some (.file content)) {found : Address × Node}
    (hstat : t.stat cwd true (p.descend names) = .ok found) : Followed p names := by
  obtain ⟨left, hleft⟩ := h
  obtain ⟨husable, hwalk⟩ := stat_eq_ok.1 hstat
  rw [Path.origin_descend htext hnames, Path.steps_descend p hnames, walkLinks_append hleft] at hwalk
  exact ⟨husable, size_le_of_walkLinks_file hfile hwalk⟩

/-- Names that lead to nothing make a path that leads to nothing. -/
theorem pathExists_descend (h : Opens t cwd output root) (hnames : ∀ w ∈ names, Path.IsPlain w)
    (hne : names ≠ []) (hfree : t.node? (root ++ names) = none) :
    t.pathExists cwd (output.descend names) = false := by
  have herror : ∃ fault, t.stat cwd true (output.descend names) = .error fault := by
    rw [stat]
    cases husable : (output.descend names).unusable? with
    | some fault => exact ⟨fault, by rw [resolve, husable]⟩
    | none =>
      obtain ⟨left, hresolve⟩ := resolve_descend h hnames hne husable
      have hled := walkLinks_names names left false h.linkless h.node?_root
      rw [hresolve]
      cases hwalk : walkLinks t true left root (names.map .enter) false with
      | error fault => exact ⟨fault, rfl⟩
      | ok place =>
        rw [hwalk] at hled
        cases place with
        | vacant a slash => exact ⟨.notFound, rfl⟩
        | taken a n =>
          obtain ⟨rfl, hnode⟩ := hled
          rw [hfree] at hnode
          cases hnode
  obtain ⟨fault, hstat⟩ := herror
  rw [pathExists, hstat]

/-- A file is written into a folder that is there, unless a folder stands in its place. -/
theorem write_in_folder (h : Opens t cwd output root)
    (hnames : ∀ v ∈ names ++ [w], Path.IsPlain v) (hfollowed : Followed output (names ++ [w]))
    (hfolder : t.node? (root ++ names) = some .folder)
    (hfree : t.node? (root ++ (names ++ [w])) ≠ some .folder) (content : Bytes) :
    ∃ t', t.write cwd (output.descend (names ++ [w])) content = (.ok (), t') ∧
      HasInstead (root ++ (names ++ [w])) content t t' := by
  obtain ⟨left, hresolve⟩ := resolve_descend h hnames (by simp) hfollowed.1
  have hparent : t.node? (root ++ (names ++ [w])).dropLast = some .folder := by
    rw [← List.append_assoc, List.dropLast_concat]
    exact hfolder
  have hplace : HasInstead (root ++ (names ++ [w])) content t
      (t.place (root ++ (names ++ [w])) (.file content)) :=
    fun b => node?_place (by simp) hparent hfree
  rw [write, hresolve]
  cases hnode : t.node? (root ++ (names ++ [w])) with
  | none =>
    have hsizes : ∀ v ∈ names, v.length ≤ 255 := fun v hv =>
      hfollowed.2 v (List.mem_append_left [w] hv)
    have hvacant : walkLinks t true left root ((names ++ [w]).map .enter) false =
        .ok (.vacant (root ++ (names ++ [w])) false) := by
      rw [← List.append_assoc] at hnode ⊢
      rw [List.map_append, walkLinks_append (reaches_names hsizes hfolder left)]
      exact walkLinks_none (hfollowed.2 w (by simp)) hnode
    rw [hvacant]
    exact ⟨_, rfl, hplace⟩
  | some n =>
    cases n with
    | folder => exact absurd hnode hfree
    | link target => exact absurd hnode (h.linkless _ target (List.prefix_append root _))
    | file old =>
      rw [walkLinks_names_file hfollowed.2 (by simp) hnode]
      exact ⟨_, rfl, hplace⟩

/-- A file is made with the folders in front of it, if only folders stand on its way and none in its
    place. -/
theorem makeFile_adds (h : Opens t cwd output root) (hnames : ∀ v ∈ names ++ [w], Path.IsPlain v)
    (hfollowed : Followed output (names ++ [w])) (hway : PassableBelow t root names)
    (hfree : t.node? (root ++ (names ++ [w])) ≠ some .folder) (content : Bytes) :
    ∃ t₁ t', t.makeFolders cwd ((output.descend (names ++ [w])).parent?.getD ⟨[]⟩) = (.ok (), t₁) ∧
      t.GrowsBelow root t₁ ∧ t₁.write cwd (output.descend (names ++ [w])) content = (.ok (), t') ∧
      Adds root [(names ++ [w], content)] t t' := by
  obtain ⟨t₁, hmade, hpaves⟩ := makeFolders_paves h hnames hfollowed hway
  have hgrow : GrowsBelow root t t₁ := by
    have hgrows := makeFolders_grows h (fun v hv => hnames v (List.mem_append_left [w] hv))
      (hnames w (by simp))
    rwa [hmade] at hgrows
  have hfree' : t₁.node? (root ++ (names ++ [w])) ≠ some .folder := by
    rwa [hpaves.elsewhere _ (not_prefix_of_concat root names w)]
  obtain ⟨t', hwrite, hinstead⟩ := write_in_folder (h.grow hgrow) hnames hfollowed
    (hpaves.folder names (List.prefix_refl names)) hfree' content
  refine ⟨t₁, t', hmade, hgrow, hwrite, ?_, fun a ha => ?_⟩
  · simp [hinstead _]
  · have hna : ¬ a <+: root ++ (names ++ [w]) := ha _ (List.mem_singleton.2 rfl)
    have hne : a ≠ root ++ (names ++ [w]) := by
      rintro rfl
      exact hna (List.prefix_refl _)
    rw [hinstead, if_neg hne, hpaves.elsewhere a fun hp => hna (prefix_concat hp w)]

/-- A file is made with the folders in front of it, if nothing stood in the way in a tree to which
    files were added since that do not stand in the way either. -/
theorem Adds.store {t₀ : FileTree} (h : Adds root files t₀ t) (hopens : Opens t₀ cwd output root)
    (hfiles : ∀ e ∈ files, FreeBelow t₀ root e.1) (hnames : ∀ v ∈ names, Path.IsPlain v)
    (hfollowed : Followed output names) (hfree : FreeBelow t₀ root names)
    (hapart : ∀ e ∈ files, ¬ e.1 <+: names ∧ ¬ names <+: e.1) (content : Bytes) :
    ∃ t₁ t', t.makeFolders cwd ((output.descend names).parent?.getD ⟨[]⟩) = (.ok (), t₁) ∧
      t.Extends t₁ ∧ t₁.write cwd (output.descend names) content = (.ok (), t') ∧
      Adds root (files ++ [(names, content)]) t₀ t' := by
  have hopens' : Opens t cwd output root := hopens.extend (h.extends hopens.node?_root hfiles)
  obtain ⟨front, w, rfl⟩ := Path.exists_concat hfree.ne_nil
  have hway : PassableBelow t root front := fun before hp hne =>
    h.free_or_folder hfree (fun e he => (hapart e he).1) (hp.trans (List.prefix_append front [w])) hne
  have hnone := h.free hfree fun e he => (hapart e he).2
  obtain ⟨t₁, t', hmade, hgrow, hwrite, hadds⟩ :=
    makeFile_adds hopens' hnames hfollowed hway (by simp [hnone]) content
  refine ⟨t₁, t', hmade, hgrow.extends, hwrite, h.append hadds ?_⟩
  intro e he e' he'
  rw [List.mem_singleton.1 he']
  exact (hapart e he).1

end SourceRecovery.FileTree
