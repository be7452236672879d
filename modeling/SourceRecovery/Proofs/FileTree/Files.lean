import SourceRecovery.Proofs.FileTree.Traversal

/-!
# The files of a traversal

* `filesSeen`: the files among what is seen, with what they hold.
* `mem_filesSeen_visit`: those that a traversal sees are all files below the folder.
* `pairwise_filesSeen`: it sees each of them once, in the order of addresses.
* `walkFiles_eq`: walking a folder gives their names.
-/

namespace SourceRecovery.FileTree

variable {t : FileTree} {cwd a : Address} {base : Path} {seen : List (Address × Node)}
  {listing : Address → List Name} {names : Address} {content : Bytes}

/-- What is seen, if it is a file. -/
def fileSeen? (e : Address × Node) : Option (Address × Bytes) :=
  match e.2 with
  | .file content => some (e.1, content)
  | _ => none

theorem fileSeen?_eq_some {e : Address × Node} {f : Address × Bytes} :
    fileSeen? e = some f ↔ e = (f.1, .file f.2) := by
  obtain ⟨names, n⟩ := e
  obtain ⟨names', content⟩ := f
  unfold fileSeen?
  cases n with
  | folder => simp
  | link target => simp
  | file content' => simp

/-- The files among what is seen, by the names that lead there, with what they hold. -/
def filesSeen (seen : List (Address × Node)) : List (Address × Bytes) :=
  seen.filterMap fileSeen?

theorem mem_filesSeen : (names, content) ∈ filesSeen seen ↔ (names, .file content) ∈ seen := by
  simp [filesSeen, List.mem_filterMap, fileSeen?_eq_some]

theorem mem_filesSeen_visit (h : Lists t listing) : (names, content) ∈ filesSeen (t.visit listing a) ↔
    names ≠ [] ∧ t.node? (a ++ names) = some (.file content) := by
  rw [mem_filesSeen, mem_visit h]

theorem pairwise_filesSeen (h : seen.Pairwise fun e f => Before e.1 f.1) :
    (filesSeen seen).Pairwise fun e f => Before e.1 f.1 := by
  refine h.filterMap _ fun e e' hbefore f hf f' hf' => ?_
  rw [fileSeen?_eq_some.1 hf, fileSeen?_eq_some.1 hf'] at hbefore
  exact hbefore

theorem map_fst_filesSeen (seen : List (Address × Node)) :
    (filesSeen seen).map Prod.fst = seen.filterMap fun e => match e.2 with
      | .file _ => some e.1
      | _ => none := by
  rw [filesSeen, List.map_filterMap]
  congr 1
  funext e
  unfold fileSeen?
  split <;> rfl

/-- Walking a folder gives the names that lead to the files below it. -/
theorem walkFiles_eq (h : t.stat cwd true base = .ok (a, .folder))
    (hbase : isStandardInput base = false) (hlisting : Lists t listing) :
    t.walkFiles cwd base = .ok ((filesSeen (t.visit listing a)).map Prod.fst) := by
  rw [walkFiles, walk_of_folder h hbase, map_fst_filesSeen, visit_eq_under hlisting]
  rfl

end SourceRecovery.FileTree
