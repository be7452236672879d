import SourceRecovery.Proofs.FileTree.NewFolders
import SourceRecovery.Run.Output

/-!
# Resetting the output folder

Before a run, what the output path names is removed and a folder is made there.

* `not_leadsTo_of_removeOutput`: what could be removed is gone.
* `resetOutput_empties`: the output path then leads to a folder, and that is empty unless a `..` of
  the path leaves a folder that is missing by then.
* `resetOutput_keeps_stale`: such a folder is made on the way, and what the path leads to from there
  keeps what it holds.
* `resetOutput_of_empty`: for the empty path, nothing is done.
-/

namespace SourceRecovery

open FileTree (LeadsTo LeadsToEmpty Within)

variable {t t' : FileTree} {cwd : Address} {output : Path}

/-- What the output path names can be removed only with the folder that the path leads to. -/
theorem not_leadsTo_of_removeOutput (htext : output.bytes ≠ [])
    (h : removeOutput t cwd output = (.ok (), t')) :
    t'.Within t ∧ ∀ a, ¬ t'.LeadsTo cwd output a := by
  unfold removeOutput at h
  split at h
  · exact FileTree.not_leadsTo_of_removeFolders h
  · exact FileTree.not_leadsTo_of_unlink h
  · rename_i hstat
    obtain ⟨-, rfl⟩ := Prod.mk.inj h
    exact ⟨.refl t, fun a => FileTree.not_leadsTo_of_stat htext hstat⟩
  · cases (Prod.mk.inj h).1

/-- A reset that succeeds is a removal and the making of folders, both of which succeed. -/
theorem resetOutput_eq_ok (h : resetOutput t cwd output = (.ok (), t')) :
    ∃ t₁, removeOutput t cwd output = (.ok (), t₁) ∧ t₁.makeFolders cwd output = (.ok (), t') := by
  unfold resetOutput at h
  split at h
  · cases (Prod.mk.inj h).1
  · rename_i t₁ hremove
    refine ⟨t₁, hremove, ?_⟩
    split at h
    · cases (Prod.mk.inj h).1
    · rename_i t₂ hmake
      rw [hmake, (Prod.mk.inj h).2]

/-- Whatever fails in a reset, it is told as the same error. -/
theorem resetOutput_eq_error {e : RunError} (h : resetOutput t cwd output = (.error e, t')) :
    ∃ cause, e = .outputReset output cause := by
  unfold resetOutput at h
  split at h
  · exact ⟨_, (Except.error.inj (Prod.mk.inj h).1).symm⟩
  · split at h
    · exact ⟨_, (Except.error.inj (Prod.mk.inj h).1).symm⟩
    · cases (Prod.mk.inj h).1

/-- A reset that succeeds leaves a folder where the output path leads, unless the path is empty. That
    folder is empty if the path holds no `..`, or if, with what it named removed, the way to its last
    step is there. -/
theorem resetOutput_empties (hcwd : t.node? cwd = some .folder) (htext : output.bytes ≠ [])
    (h : resetOutput t cwd output = (.ok (), t')) :
    t'.isFolder cwd output = true ∧
      ((Step.up ∉ output.steps ∨
          ∃ ending, (removeOutput t cwd output).2.locate cwd output = .ok ending) →
        t'.LeadsToEmpty cwd output) := by
  obtain ⟨t₁, hremove, hmake⟩ := resetOutput_eq_ok h
  obtain ⟨hwithin, hgone⟩ := not_leadsTo_of_removeOutput htext hremove
  have hblocked : t₁.Unblocked cwd := (FileTree.unblocked_of_folder hcwd).of_within hwithin
  refine ⟨FileTree.isFolder_of_makeFoldersUpTo _ hblocked htext hmake, fun hway => ?_⟩
  rw [hremove] at hway
  exact FileTree.makeFoldersUpTo_empties _ hblocked htext hway hgone hmake

/-- A tree with a file in the folder `out`. -/
def staleOutput : FileTree where
  entries := [(["out"], .folder), (["out", "stale.txt"], .file [0x73])]
  nodup := by decide
  rooted := by simp [FileTree.FolderIn]

theorem resetOutput_empties_stale :
    staleOutput.node? [] = some .folder ∧ Step.up ∉ (Path.mk "./out/").steps ∧
      ∃ t', resetOutput staleOutput [] ⟨"./out/"⟩ = (.ok (), t') ∧
        t'.LeadsToEmpty [] ⟨"./out/"⟩ := by
  have hcwd : staleOutput.node? [] = some .folder := by rfl
  have hup : Step.up ∉ (Path.mk "./out/").steps := by decide
  have hreset : resetOutput staleOutput [] ⟨"./out/"⟩ =
      (.ok (), (resetOutput staleOutput [] ⟨"./out/"⟩).2) := by rfl
  exact ⟨hcwd, hup, _, hreset, (resetOutput_empties hcwd (by decide) hreset).2 (.inl hup)⟩

/-- With a folder missing in front of a `..`, nothing is found to be removed; the missing folder is
    then made, and the path leads to the old folder with its file. -/
theorem resetOutput_keeps_stale :
    ∃ t', resetOutput staleOutput [] ⟨"missing/../out"⟩ = (.ok (), t') ∧
      t'.node? ["out", "stale.txt"] = some (.file [0x73]) ∧
      ¬ t'.LeadsToEmpty [] ⟨"missing/../out"⟩ := by
  have hok : (resetOutput staleOutput [] ⟨"missing/../out"⟩).1.toOption = some () := by
    decide +kernel
  have hstat : ((resetOutput staleOutput [] ⟨"missing/../out"⟩).2.stat [] true
      ⟨"missing/../out"⟩).toOption = some ((["out"] : Address), .folder) := by
    decide +kernel
  have hstale : (resetOutput staleOutput [] ⟨"missing/../out"⟩).2.node? ["out", "stale.txt"] =
      some (.file [0x73]) := by
    decide +kernel
  generalize resetOutput staleOutput [] ⟨"missing/../out"⟩ = r at hok hstat hstale ⊢
  obtain ⟨e | _, t'⟩ := r
  · cases hok
  · refine ⟨t', rfl, hstale, ?_⟩
    rintro ⟨a, hleads, hempty⟩
    rw [hleads] at hstat
    obtain rfl : a = (["out"] : Address) := (Prod.mk.inj (Option.some.inj hstat)).1
    rw [hempty ["out", "stale.txt"] ⟨["stale.txt"], rfl⟩ (by decide)] at hstale
    cases hstale

/-- The empty path names nothing, neither to be removed nor to be made. -/
theorem resetOutput_of_empty (t : FileTree) (cwd : Address) :
    resetOutput t cwd ⟨[]⟩ = (.ok (), t) := by
  have hstat : t.stat cwd false ⟨[]⟩ = .error .notFound := rfl
  have hmake : t.makeFolders cwd ⟨[]⟩ = (.ok (), t) := rfl
  rw [resetOutput, removeOutput, hstat]
  simp only [hmake]

end SourceRecovery
