import SourceRecovery.FileTree.Walk
import SourceRecovery.Proofs.FileTree.Alike

/-!
# The files below a folder

* `nodup_under`: a listing names nothing twice.
* `walk_of_folder`: where a path leads to a folder, a walk lists that folder.
* `walkFiles_of_folder`: it sees each file below the folder once.
* `walkFiles_of_fewer`: with fewer files left, it sees those in the same order.
-/

namespace SourceRecovery.FileTree

variable {t : FileTree} {cwd a : Address} {base : Path}

/-- A listing names nothing twice. -/
theorem nodup_under (t : FileTree) (a : Address) : ((t.under a).map Prod.fst).Nodup := by
  have hperm : ((t.under a).map Prod.fst).Perm
      ((t.entries.filter fun e => isBelow a e.1).map fun e => e.1.drop a.length) := by
    have hsorted := (List.mergeSort_perm ((t.entries.filter fun e => isBelow a e.1).map
      fun e => (e.1.drop a.length, e.2)) fun e f => addressLe e.1 f.1).map Prod.fst
    rwa [List.map_map] at hsorted
  refine hperm.nodup_iff.2 (List.pairwise_map.2 ?_)
  have hentries := (List.pairwise_map.1 t.nodup).sublist (List.filter_sublist (p := fun e => isBelow a e.1))
  refine hentries.imp_of_mem fun he hf hne heq => hne ?_
  -- what is below the folder is told by the names that lead there
  obtain ⟨⟨rest, hrest⟩, -⟩ := isBelow_iff.1 (List.mem_filter.1 he).2
  obtain ⟨⟨rest', hrest'⟩, -⟩ := isBelow_iff.1 (List.mem_filter.1 hf).2
  rw [← hrest, ← hrest', List.drop_left, List.drop_left] at heq
  rw [← hrest, ← hrest', heq]

theorem isStandardInput_descend {w : Name} (hbase : base.bytes ≠ []) (hw : Path.IsPlain w)
    (hne : w ≠ "-") : isStandardInput (base.descend [w]) = false := by
  rw [isStandardInput, Path.components_descend hbase (by simpa using hw)]
  simp [List.append_eq_singleton_iff, hne]

/-- Where a path leads to a folder, a walk lists what is below that folder. -/
theorem walk_of_folder (h : t.stat cwd true base = .ok (a, .folder))
    (hbase : isStandardInput base = false) : t.walk cwd base = .ok (t.under a) := by
  obtain ⟨husable, -⟩ := stat_eq_ok.1 h
  obtain ⟨left, hleft⟩ := (reaches_of_stat h).2
  rw [walk, hbase]
  rcases walkLinks_of_reaches_within (.refl t) hleft base.endsInSlash with hend | ⟨b, target, hend, -⟩
  · have hstat : t.stat cwd false base = .ok (a, .folder) := stat_eq_ok.2 ⟨husable, hend⟩
    simp only [hstat]
    rfl
  · have hstat : t.stat cwd false base = .ok (b, .link target) := stat_eq_ok.2 ⟨husable, hend⟩
    simp only [hstat, h]
    rfl

/-- A walk of a folder sees each file below it once. -/
theorem walkFiles_of_folder (h : t.stat cwd true base = .ok (a, .folder))
    (hbase : isStandardInput base = false) :
    ∃ files, t.walkFiles cwd base = .ok files ∧ files.Nodup ∧
      ∀ names, names ∈ files ↔ names ≠ [] ∧ ∃ content, t.node? (a ++ names) = some (.file content) := by
  refine ⟨_, by rw [walkFiles, walk_of_folder h hbase]; rfl, ?_, fun names => ?_⟩
  · refine List.pairwise_filterMap.2 ((List.pairwise_map.1 (nodup_under t a)).imp ?_)
    rintro ⟨names, n⟩ ⟨names', n'⟩ hne b hb b' hb'
    cases n <;> cases n' <;> simp_all
  · rw [List.mem_filterMap]
    constructor
    · rintro ⟨⟨names', n⟩, hmem, hsome⟩
      cases n with
      | file content =>
        obtain rfl : names' = names := Option.some.inj hsome
        exact ⟨(mem_under.1 hmem).1, content, (mem_under.1 hmem).2⟩
      | folder => cases hsome
      | link target => cases hsome
    · rintro ⟨hne, content, hnode⟩
      exact ⟨(names, .file content), mem_under.2 ⟨hne, hnode⟩, rfl⟩

/-- A walk of a folder sees the files below it in the order of their addresses. -/
theorem pairwise_walkFiles (h : t.stat cwd true base = .ok (a, .folder))
    (hbase : isStandardInput base = false) {files : List Address}
    (hfiles : t.walkFiles cwd base = .ok files) :
    files.Pairwise fun names names' => addressLe names names' = true := by
  rw [walkFiles, walk_of_folder h hbase] at hfiles
  rw [← Except.ok.inj hfiles]
  refine List.pairwise_filterMap.2 ((pairwise_under t a).imp ?_)
  rintro ⟨names, n⟩ ⟨names', n'⟩ hle b hb b' hb'
  cases n <;> cases n' <;> simp_all

/-- Where fewer files are left below a folder, a walk sees those that are left in the same order. -/
theorem walkFiles_of_fewer {t' : FileTree} {left : Address → Bool} {files : List Address}
    (h : t.stat cwd true base = .ok (a, .folder)) (h' : t'.stat cwd true base = .ok (a, .folder))
    (hleft : ∀ names content, t'.node? (a ++ names) = some (.file content) ↔
      t.node? (a ++ names) = some (.file content) ∧ left names = true)
    (hfiles : t.walkFiles cwd base = .ok files) :
    t'.walkFiles cwd base = .ok (files.filter left) := by
  cases hbase : isStandardInput base with
  | true =>
    have hnone : ∀ s : FileTree, s.walkFiles cwd base = .ok [] := fun s => by
      rw [walkFiles, walk, if_pos hbase]
      rfl
    rw [hnone] at hfiles ⊢
    rw [← Except.ok.inj hfiles]
    rfl
  | false =>
    obtain ⟨found, hfound, hnodup, hmem⟩ := walkFiles_of_folder h hbase
    obtain rfl : found = files := Except.ok.inj (hfound.symm.trans hfiles)
    obtain ⟨found', hfound', hnodup', hmem'⟩ := walkFiles_of_folder h' hbase
    have hsame : ∀ names, names ∈ found' ↔ names ∈ found.filter left := by
      intro names
      rw [List.mem_filter, hmem, hmem']
      simp only [hleft, exists_and_right, and_assoc]
    have hperm : found'.Perm (found.filter left) :=
      (List.perm_ext_iff_of_nodup hnodup' (hnodup.filter _)).2 hsame
    rw [hfound', hperm.eq_of_pairwise (fun _ _ _ _ => addressLe_antisymm)
      (pairwise_walkFiles h' hbase hfound') ((pairwise_walkFiles h hbase hfiles).filter _)]

end SourceRecovery.FileTree
