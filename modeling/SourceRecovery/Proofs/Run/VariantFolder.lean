import SourceRecovery.CompileTask
import SourceRecovery.Proofs.FileTree.Joined
import SourceRecovery.Proofs.Run.SparedInput

/-!
# The folder of a variant

A variant is written to a folder below the output root, and only that folder is reset for it. Its name
is what is left of the name of a task, and is joined to the root as a path: a name that begins with a
slash or holds `..` leads out of the root.

* `outputFolder_eq_ok`: which folder a task has.
* `outputFolder_stays_below`: which variants stay below the root, and what their reset leaves.
* `outputFolder_escapes`: eligible tasks whose variants do not.
-/

namespace SourceRecovery

variable {name : String} {root? : Option Path}

/-- An eligible task has the folder of its variant's name behind the root, and no other task has one. -/
theorem outputFolder_eq_ok {output : Path} : outputFolder root? (some name) = .ok output ↔
    (CompileTask.mk name).isEligible = true ∧
      output = (root?.getD defaultOutputRoot).join (.ofText (CompileTask.mk name).variant) := by
  rw [outputFolder]
  by_cases helig : (CompileTask.mk name).isEligible = true
  · simp [helig, CompileTask.outputFolder, eq_comm]
  · simp [helig]

/-- The folder of an eligible task is the root with the variant's name behind it. A name that begins
    with a slash stands for itself alone; every other one adds nothing but names to the root exactly if
    it holds no `..`, nor a dot in front of all where the root is the empty path. Below a root with no
    link in it, or with a name of one piece, the reset of such a folder takes away nothing that is
    outside the root, whether it succeeds or fails. -/
theorem outputFolder_stays_below (name : String) (root? : Option Path)
    (helig : (CompileTask.mk name).isEligible = true) :
    let root := root?.getD defaultOutputRoot
    let variant := Path.ofText (CompileTask.mk name).variant
    ∃ output, outputFolder root? (some name) = .ok output ∧
      (variant.isAbsolute = true → output = variant) ∧
      (variant.isAbsolute = false → (output.StaysBelow root ↔
        .up ∉ variant.components ∧ (root.bytes = [] → .here ∉ variant.components))) ∧
      (variant.isAbsolute = false → .up ∉ variant.components →
        ∀ t cwd, FileTree.node? t cwd = some .folder →
          (Path.slash ∉ variant.bytes ∨ ∀ r, t.LeadsTo cwd root r → t.Linkless r) →
          ∀ a n, (∀ r, t.LeadsTo cwd root r → ¬ r <+: a) → t.node? a = some n →
            (resetOutput t cwd output).2.node? a = some n) := by
  intro root variant
  refine ⟨root.join variant, outputFolder_eq_ok.2 ⟨helig, rfl⟩, ?_, Path.staysBelow_join, ?_⟩
  · intro habs
    rw [Path.join, if_pos habs]
  · intro hrelative hup t cwd hcwd hway a n houtside hn
    refine resetOutput_keeps ?_ hn
    intro b m hnamed hbelow
    obtain ⟨r, hr, hroot⟩ := FileTree.stat_join_below hcwd hrelative hup hway hnamed
    exact houtside r hr (hroot.trans hbelow)

/-- A tree with an old source below the default root, and a file beside it. -/
def builtVariant : FileTree where
  entries := [(["build"], .folder), (["build", "compose_decompiled"], .folder),
    (["build", "compose_decompiled", "Debug"], .folder),
    (["build", "compose_decompiled", "Debug", "Old.kt"], .file [0x6F]),
    (["build", "keep.txt"], .file [0x6B])]
  nodup := by decide
  rooted := by simp [FileTree.FolderIn]

/-- The sources of `compileDebugKotlin` go to `Debug` below the default root. What is there is removed,
    the file beside the root is not. -/
theorem outputFolder_stays_below_debug :
    ∃ output, outputFolder none (some "compileDebugKotlin") = .ok output ∧
      output.StaysBelow defaultOutputRoot ∧
      (resetOutput builtVariant [] output).2.node? ["build", "keep.txt"] = some (.file [0x6B]) := by
  obtain ⟨output, houtput, -, hstays, hspares⟩ :=
    outputFolder_stays_below "compileDebugKotlin" none (by decide)
  refine ⟨output, houtput, (hstays (by decide)).2 (by decide), ?_⟩
  refine hspares (by decide) (by decide) builtVariant [] (by rfl) (.inl (by decide)) _ _ ?_ (by rfl)
  intro r hr
  have hroot : builtVariant.stat [] true defaultOutputRoot =
      .ok (["build", "compose_decompiled"], .folder) := by rfl
  rw [hr.unique (FileTree.reaches_of_stat hroot).2]
  decide

/-- A tree with a folder `w` that holds a folder of data and an output root with a link to it, beside
    the folder `etc`. -/
def besideRoot : FileTree where
  entries := [(["etc"], .folder), (["etc", "hosts"], .file [0x68]), (["w"], .folder),
    (["w", "data"], .folder), (["w", "data", "keep.txt"], .file [0x6B]), (["w", "out"], .folder),
    (["w", "out", "Debug"], .link "../data")]
  nodup := by decide
  rooted := by simp [FileTree.FolderIn]

/-- Eligible tasks whose resets remove files outside the root: the folder of one replaces the root, that
    of the next leaves it through `..`, and the last one's, with a slash behind its name, leads out of
    the root through a link. -/
theorem outputFolder_escapes :
    ((CompileTask.mk "compile/etc/Kotlin").isEligible = true ∧
      outputFolder (some ⟨"out"⟩) (some "compile/etc/Kotlin") = .ok ⟨"/etc/"⟩ ∧
      ¬ (Path.mk "/etc/").StaysBelow ⟨"out"⟩ ∧
      besideRoot.node? ["etc", "hosts"] = some (.file [0x68]) ∧
      (resetOutput besideRoot ["w"] ⟨"/etc/"⟩).2.node? ["etc", "hosts"] = none) ∧
    ((CompileTask.mk "compile../dataKotlin").isEligible = true ∧
      outputFolder (some ⟨"out"⟩) (some "compile../dataKotlin") = .ok ⟨"out/../data"⟩ ∧
      ¬ (Path.mk "out/../data").StaysBelow ⟨"out"⟩ ∧
      besideRoot.node? ["w", "data", "keep.txt"] = some (.file [0x6B]) ∧
      (resetOutput besideRoot ["w"] ⟨"out/../data"⟩).2.node? ["w", "data", "keep.txt"] = none) ∧
    (CompileTask.mk "compileDebug/Kotlin").isEligible = true ∧
      outputFolder (some ⟨"out"⟩) (some "compileDebug/Kotlin") = .ok ⟨"out/Debug/"⟩ ∧
      (resetOutput besideRoot ["w"] ⟨"out/Debug/"⟩).2.node? ["w", "data", "keep.txt"] = none := by
  refine ⟨⟨by decide, by rfl, ?_, by rfl, by rfl⟩, ⟨by decide, by rfl, ?_, by rfl, by rfl⟩,
    by decide, by rfl, by rfl⟩
  · rintro ⟨added, hadded, -⟩
    have hroot : Path.components ⟨"/etc/"⟩ = [.root, .name "etc"] := by rfl
    have hout : Path.components ⟨"out"⟩ = [.name "out"] := by rfl
    rw [hroot, hout] at hadded
    cases hadded
  · rintro ⟨added, hadded, hnames⟩
    have hdata : Path.components ⟨"out/../data"⟩ = [.name "out", .up, .name "data"] := by rfl
    have hout : Path.components ⟨"out"⟩ = [.name "out"] := by rfl
    rw [hdata, hout] at hadded
    obtain rfl := (List.cons.inj hadded).2
    obtain ⟨w, hw⟩ := hnames .up List.mem_cons_self
    cases hw

end SourceRecovery
