import SourceRecovery.Selection

/-!
# What is selected

* `keepMarked_of_scans`: where every class file can be scanned, those with a marked method are kept.
* `keepMarked_of_fault`: the first file that cannot be scanned decides.
* `keepMarked_error`: selecting fails in no other way.
* `scans_of_keepMarked`, `keepMarked_eq_ok`: what is scanned, and what is selected of it.
* `keepMarked_congr`: the files decide, and nothing else in the tree.
* `stat_of_isMarked`: what is selected can be read.
* `checkInput_eq_ok`: the input of a run is a folder.
-/

namespace SourceRecovery.Selection

variable {t : FileTree} {cwd : Address} {marker : String} {files : List Path}

/-- Whether a class file can be scanned. -/
def Scans (t : FileTree) (cwd : Address) (marker : String) (file : Path) : Prop :=
  ∃ method, scanFile t cwd marker file = .ok method

/-- Whether a class file can be scanned and has a marked method. -/
def isMarked (t : FileTree) (cwd : Address) (marker : String) (file : Path) : Bool :=
  match scanFile t cwd marker file with
  | .ok (some _) => true
  | _ => false

/-- Where every file can be scanned, those with a marked method are selected, in their order. -/
theorem keepMarked_of_scans (h : ∀ f ∈ files, Scans t cwd marker f) :
    (keepMarked t cwd marker files).1 =
      .ok (files.filter (isMarked t cwd marker)) := by
  induction files with
  | nil => rfl
  | cons file files ih =>
    obtain ⟨⟨method, hscan⟩, hrest⟩ := List.forall_mem_cons.1 h
    have hkept := ih hrest
    rw [keepMarked, hscan, List.filter_cons]
    simp only [isMarked, hscan] at hkept ⊢
    cases method with
    | none => simpa using hkept
    | some name =>
      simp only [hkept]
      rfl

/-- The first file that cannot be scanned decides, whatever stands behind it. -/
theorem keepMarked_of_fault {front back : List Path} {file : Path} {fault : ScanFault}
    (hfront : ∀ f ∈ front, Scans t cwd marker f)
    (hfault : scanFile t cwd marker file = .error fault) :
    (keepMarked t cwd marker (front ++ file :: back)).1 =
      .error (.scan file fault.failure) := by
  induction front with
  | nil => rw [List.nil_append, keepMarked, hfault]
  | cons first front ih =>
    obtain ⟨⟨method, hscan⟩, hrest⟩ := List.forall_mem_cons.1 hfront
    have hkept := ih hrest
    rw [List.cons_append, keepMarked, hscan]
    cases method with
    | none => exact hkept
    | some name =>
      simp only [hkept]
      rfl

/-- Selecting fails only at a file that cannot be scanned. -/
theorem keepMarked_error {e : RunError}
    (h : (keepMarked t cwd marker files).1 = .error e) :
    ∃ file cause, e = .scan file cause := by
  induction files with
  | nil => cases h
  | cons file files ih =>
    rw [keepMarked] at h
    split at h
    · exact ⟨_, _, (Except.error.inj h).symm⟩
    · exact ih h
    · cases hkept : (keepMarked t cwd marker files).1 with
      | error e' =>
        simp only [hkept] at h
        obtain rfl : e' = e := Except.error.inj h
        exact ih hkept
      | ok kept =>
        simp only [hkept] at h
        cases h

/-- Where files are selected, all of them can be scanned. -/
theorem scans_of_keepMarked {selected : List Path}
    (h : (keepMarked t cwd marker files).1 = .ok selected) : ∀ f ∈ files, Scans t cwd marker f := by
  induction files generalizing selected with
  | nil => simp
  | cons file files ih =>
    rw [keepMarked] at h
    split at h
    · cases h
    · rename_i hscan
      exact List.forall_mem_cons.2 ⟨⟨none, hscan⟩, ih h⟩
    · rename_i method hscan
      cases hkept : (keepMarked t cwd marker files).1 with
      | error e =>
        simp only [hkept] at h
        cases h
      | ok kept => exact List.forall_mem_cons.2 ⟨⟨some method, hscan⟩, ih hkept⟩

/-- What is selected are the files with a marked method. -/
theorem keepMarked_eq_ok {selected : List Path}
    (h : (keepMarked t cwd marker files).1 = .ok selected) :
    selected = files.filter (isMarked t cwd marker) := by
  have hkept := keepMarked_of_scans (scans_of_keepMarked h)
  rw [h] at hkept
  exact Except.ok.inj hkept

/-- What a path leads to decides how it is scanned. -/
theorem scanFile_congr {t' : FileTree} {file : Path}
    (h : t.stat cwd true file = t'.stat cwd true file) :
    scanFile t cwd marker file = scanFile t' cwd marker file := by
  rw [scanFile, scanFile, h]

/-- Trees in which each of the files is scanned alike give the same selection. -/
theorem keepMarked_congr {t' : FileTree}
    (h : ∀ f ∈ files, scanFile t cwd marker f = scanFile t' cwd marker f) :
    keepMarked t cwd marker files = keepMarked t' cwd marker files := by
  induction files with
  | nil => rfl
  | cons file files ih =>
    obtain ⟨hfile, hrest⟩ := List.forall_mem_cons.1 h
    rw [keepMarked, keepMarked, hfile, ih hrest]

/-- A file with a marked method is there to be read. -/
theorem stat_of_isMarked {file : Path} (h : isMarked t cwd marker file = true) :
    ∃ a content, t.stat cwd true file = .ok (a, .file content) := by
  unfold isMarked at h
  split at h
  · rename_i hscan
    unfold scanFile at hscan
    split at hscan
    · cases hscan
    · exact ⟨_, _, ‹_›⟩
    · cases hscan
  · cases h

theorem checkInput_eq_ok {input : Path} :
    checkInput t cwd input = .ok () ↔ t.isFolder cwd input = true := by
  unfold checkInput FileTree.isFolder
  split <;> simp_all

end SourceRecovery.Selection
