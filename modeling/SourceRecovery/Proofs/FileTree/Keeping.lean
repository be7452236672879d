import SourceRecovery.Proofs.FileTree.Sparing

/-!
# Trees that keep what others hold

Most changes to a tree add to it, or change the files at some places only. The ways through the tree
are made of folders and links, and they stay.

* `Keeps`: the folders and links of a tree stay, and its files at some addresses.
* `Keeps.leadsTo`: a path leads where it has led.
* `Keeps.stat_descend`: below a folder, a file that is kept is found again.
-/

namespace SourceRecovery.FileTree

variable {t t' t'' : FileTree} {cwd root a : Address} {base p : Path} {names : List Name}
  {links : Nat} {content : Bytes} {kept : Address → Prop}

/-- Whether a tree holds the folders and links of another one, and its files at some addresses. -/
structure Keeps (kept : Address → Prop) (t t' : FileTree) : Prop where
  ways : ∀ b n, t.node? b = some n → (∀ content, n ≠ .file content) → t'.node? b = some n
  files : ∀ b content, kept b → t.node? b = some (.file content) → t'.node? b = some (.file content)

theorem Keeps.refl (kept : Address → Prop) (t : FileTree) : Keeps kept t t :=
  ⟨fun _ _ h _ => h, fun _ _ _ h => h⟩

theorem Keeps.trans (h : Keeps kept t t') (h' : Keeps kept t' t'') : Keeps kept t t'' :=
  ⟨fun b n hn hfile => h'.ways b n (h.ways b n hn hfile) hfile,
    fun b content hb hn => h'.files b content hb (h.files b content hb hn)⟩

theorem Keeps.of_imp {kept' : Address → Prop} (h : Keeps kept t t') (himp : ∀ b, kept' b → kept b) :
    Keeps kept' t t' :=
  ⟨h.ways, fun b content hb => h.files b content (himp b hb)⟩

theorem Keeps.leadsTo (h : Keeps kept t t') (hleads : t.LeadsTo cwd p a) : t'.LeadsTo cwd p a := by
  obtain ⟨left, hleft⟩ := hleads
  exact ⟨left, hleft.mono h.ways⟩

/-- The names of a file that is kept are walked as before, even if one of them is too long. -/
theorem Keeps.walkLinks_names (h : Keeps kept t t') (hne : names ≠ [])
    (hkept : kept (root ++ names)) (hfile : t.node? (root ++ names) = some (.file content)) :
    walkLinks t' true links root (names.map .enter) false =
      walkLinks t true links root (names.map .enter) false := by
  induction names generalizing root with
  | nil => exact absurd rfl hne
  | cons w names ih =>
    rw [List.append_cons] at hkept hfile
    rw [List.map_cons]
    by_cases hsize : w.length ≤ 255
    · by_cases hlast : names = []
      · subst hlast
        rw [List.append_nil] at hkept hfile
        rw [walkLinks_file hsize hfile, walkLinks_file hsize (h.files _ _ hkept hfile)]
      · have hfolder : t.node? (root ++ [w]) = some .folder :=
          node?_above hfile (List.prefix_append _ _) (by simpa using hlast)
        rw [walkLinks_folder hsize hfolder, walkLinks_folder hsize (h.ways _ _ hfolder (by simp))]
        exact ih hlast hkept hfile
    · rw [walkLinks_tooLong (by omega), walkLinks_tooLong (by omega)]

/-- Below a folder, a file that is kept is found as before, or not found as before. -/
theorem Keeps.stat_descend (h : Keeps kept t t') (hbase : base.bytes ≠ [])
    (hleads : t.LeadsTo cwd base root) (hnames : ∀ w ∈ names, Path.IsPlain w) (hne : names ≠ [])
    (hkept : kept (root ++ names)) (hfile : t.node? (root ++ names) = some (.file content)) :
    t'.stat cwd true (base.descend names) = t.stat cwd true (base.descend names) := by
  obtain ⟨left, hleft⟩ := hleads
  have hwalk : ∀ slash, walkLinks t' true linkLimit (base.origin cwd)
      (base.steps ++ names.map .enter) slash = walkLinks t' true left root (names.map .enter) slash :=
    walkLinks_append (hleft.mono h.ways) _
  rw [stat, stat, resolve, resolve, Path.steps_descend base hnames,
    Path.origin_descend hbase hnames, Path.endsInSlash_descend base hnames hne, hwalk,
    walkLinks_append hleft, h.walkLinks_names hne hkept hfile]

end SourceRecovery.FileTree
