import SourceRecovery.Proofs.FileTree.Canonical
import SourceRecovery.Proofs.Run.Configuration

/-!
# The input is not removed with the output

The guard compares the absolute names of input and output, the removal goes by the path of the output
as it is spelled. Together they spare the input, whatever the two paths run through, as long as what
the output path names has an absolute name; the guard lets a path without one pass.

* `removeOutput_snd`: what is left once the output is removed, or could not be.
* `removeOutput_spares`, `resetOutput_keeps`: what the output path does not name stays.
* `resetOutput_adds`: the reset adds nothing but folders.
* `removeOutput_keeps_input`: the guard keeps the removal away from the input folder.
* `perform_spares_input`: an output that holds the input is refused untouched, and no other reset
  takes the input away, unless the output has no absolute name.
* `perform_removes_input`: without one, the input goes with the output.
-/

namespace SourceRecovery

open FileTree (GrowsBelow Within)

variable {t : FileTree} {cwd a inp out : Address} {input output p : Path} {n : Node}

/-! ## The guard -/

theorem guardOverlap_of_canonical (hout : t.canonical cwd output = .ok out)
    (hinp : t.canonical cwd input = .ok inp) : guardOverlap t cwd input output =
      if out <+: inp then .error (.configuration (.outputHoldsInput output input)) else .ok () := by
  simp only [guardOverlap, hout, hinp, FileTree.isAtOrBelow_iff]

/-- An output with an absolute name is refused if the input is there or below, whether the input has an
    absolute name or not. -/
theorem refused_of_above (hout : t.canonical cwd output = .ok out)
    (hinput : t.stat cwd true input = .ok (inp, n)) (habove : out <+: inp) :
    ∃ fault, guardOverlap t cwd input output = .error (.configuration fault) := by
  cases hinp : t.canonical cwd input with
  | error cause => exact ⟨.inputUnresolvable input cause, by simp only [guardOverlap, hout, hinp]⟩
  | ok inp' =>
    obtain rfl := FileTree.eq_of_canonical hinp hinput
    exact ⟨.outputHoldsInput output input, by
      rw [guardOverlap_of_canonical hout hinp, if_pos habove]⟩

/-! ## What a reset leaves -/

/-- Whether the output can be removed or not: its path names nothing and nothing has changed, or what it
    names is emptied or gone. -/
theorem removeOutput_snd (t : FileTree) (cwd : Address) (output : Path) :
    (∀ found, t.stat cwd false output ≠ .ok found) ∧ (removeOutput t cwd output).2 = t ∨
      ∃ a n, t.stat cwd false output = .ok (a, n) ∧
        (n = .folder ∧ (removeOutput t cwd output).2 = t.clear a ∨
          n = .folder ∧ (removeOutput t cwd output).2 = (t.clear a).prune a ∨
          n ≠ .folder ∧ (removeOutput t cwd output).2 = t.prune a) := by
  rw [removeOutput]
  split
  · rename_i a hstat
    right
    refine ⟨a, .folder, hstat, ?_⟩
    rcases FileTree.removeFolders_snd (FileTree.stat_folder hstat) with hleft | hleft
    · exact .inl ⟨rfl, hleft⟩
    · exact .inr (.inl ⟨rfl, hleft⟩)
  · rename_i a n hfolder hstat
    have hne : n ≠ .folder := hfolder
    exact .inr ⟨a, n, hstat, .inr (.inr ⟨hne, FileTree.unlink_snd hstat hne⟩)⟩
  · rename_i hstat
    exact .inl ⟨by simp [hstat], rfl⟩
  · rename_i hstat
    exact .inl ⟨by simp [hstat], rfl⟩

/-- What is not at the node that the output path names, nor below it, stays. -/
theorem removeOutput_spares (hspared : ∀ b n, t.stat cwd false output = .ok (b, n) → ¬ b <+: a) :
    (removeOutput t cwd output).2.node? a = t.node? a := by
  rcases removeOutput_snd t cwd output with ⟨-, hsame⟩ | ⟨b, n, hstat, hleft⟩
  · rw [hsame]
  · have haway : ¬ b <+: a := hspared b n hstat
    rcases hleft with ⟨-, hleft⟩ | ⟨-, hleft⟩ | ⟨-, hleft⟩
    · rw [hleft]
      exact FileTree.node?_clear_of_not_below fun hp => absurd hp haway
    · rw [hleft, FileTree.node?_prune_of_not_below haway]
      exact FileTree.node?_clear_of_not_below fun hp => absurd hp haway
    · rw [hleft]
      exact FileTree.node?_prune_of_not_below haway

theorem removeOutput_within (t : FileTree) (cwd : Address) (output : Path) :
    (removeOutput t cwd output).2.Within t := by
  rcases removeOutput_snd t cwd output with ⟨-, hsame⟩ | ⟨b, n, -, hleft⟩
  · rw [hsame]
    exact .refl t
  · rcases hleft with ⟨-, hleft⟩ | ⟨-, hleft⟩ | ⟨-, hleft⟩
    · rw [hleft]
      exact FileTree.within_clear t b
    · rw [hleft]
      exact (FileTree.within_prune _ b).trans (FileTree.within_clear t b)
    · rw [hleft]
      exact FileTree.within_prune t b

/-- Whether it succeeds or not, a reset adds nothing but folders to what the removal left. -/
theorem resetOutput_adds (t : FileTree) (cwd : Address) (output : Path) :
    GrowsBelow [] (removeOutput t cwd output).2 (resetOutput t cwd output).2 := by
  rw [resetOutput]
  generalize removeOutput t cwd output = removed
  obtain ⟨answer, t₁⟩ := removed
  cases answer with
  | error cause => exact .refl [] t₁
  | ok _ =>
    have hadds : GrowsBelow [] t₁ (t₁.makeFolders cwd output).2 :=
      FileTree.makeFoldersUpTo_adds t₁ cwd _ output
    simp only
    generalize t₁.makeFolders cwd output = made at hadds ⊢
    obtain ⟨answer, t₂⟩ := made
    cases answer <;> exact hadds

/-- What is not at the node that the output path names, nor below it, outlasts a reset. -/
theorem resetOutput_keeps (hspared : ∀ b n, t.stat cwd false output = .ok (b, n) → ¬ b <+: a)
    (h : t.node? a = some n) : (resetOutput t cwd output).2.node? a = some n :=
  (resetOutput_adds t cwd output).node?_some ((removeOutput_spares hspared).trans h)

/-! ## The input -/

/-- Whether the folder that a path names has an absolute name, if the path names a folder. -/
def FolderNamed (t : FileTree) (cwd : Address) (p : Path) : Prop :=
  ∀ a, t.stat cwd false p = .ok (a, .folder) → t.canonical cwd p = .ok a

/-- Every folder has an absolute name where the working folder is there and nothing is too deep. -/
theorem folderNamed_of_nameable (hbase : t.HasBase cwd p) (h : t.Nameable) : FolderNamed t cwd p :=
  fun _ hstat => FileTree.canonical_of_stat (FileTree.stat_folder hstat) hbase h

/-- Where the guard finds nothing wrong, what the output path names is neither the input folder nor
    above it. -/
theorem not_above_input (hinput : t.stat cwd true input = .ok (inp, .folder))
    (hguard : guardOverlap t cwd input output = .ok ()) (hnamed : FolderNamed t cwd output)
    (hstat : t.stat cwd false output = .ok (a, n)) : ¬ a <+: inp := by
  intro habove
  have hinp : t.node? inp = some .folder := FileTree.node?_of_stat hinput
  by_cases hfolder : n = .folder
  · -- a folder that is named without following links is the one that the guard has compared
    subst hfolder
    obtain ⟨fault, hrefused⟩ := refused_of_above (hnamed a hstat) hinput habove
    rw [hguard] at hrefused
    cases hrefused
  · -- a file or link holds nothing
    have hnode : t.node? a = some n := FileTree.node?_of_stat hstat
    have hsame : a = inp := by
      refine Classical.byContradiction fun hne => hfolder ?_
      rw [FileTree.node?_above hinp habove hne] at hnode
      exact (Option.some.inj hnode).symm
    rw [hsame, hinp] at hnode
    exact hfolder (Option.some.inj hnode).symm

/-- Where the guard finds nothing wrong, the input folder stays when the output is removed. -/
theorem removeOutput_keeps_input (hinput : t.stat cwd true input = .ok (inp, .folder))
    (hguard : guardOverlap t cwd input output = .ok ()) (hnamed : FolderNamed t cwd output) :
    (removeOutput t cwd output).2.node? inp = some .folder := by
  rw [removeOutput_spares fun a n hstat => not_above_input hinput hguard hnamed hstat]
  exact FileTree.node?_of_stat hinput

theorem stat_of_checkInput (h : Selection.checkInput t cwd input = .ok ()) :
    ∃ inp, t.stat cwd true input = .ok (inp, .folder) := by
  obtain ⟨husable, inp, hleads⟩ := FileTree.isFolder_iff.1 (Selection.checkInput_eq_ok.1 h)
  exact ⟨inp, FileTree.stat_of_leadsTo husable hleads⟩

namespace Run

/-- Whatever the engine, a run whose output has an absolute name and holds the input ends with nothing
    touched: the guard refuses it, or an input that is no folder is refused before. -/
theorem performQuietly_of_above {marker : String} {settings : Settings}
    (hout : t.canonical cwd settings.output = .ok out)
    (hinput : t.stat cwd true settings.input = .ok (inp, n)) (habove : out <+: inp) :
    ∃ fault, ∀ engine, performQuietly cwd marker engine settings t =
      ⟨.error (.configuration fault), t, opening settings⟩ := by
  cases n with
  | folder =>
    have hcheck : Selection.checkInput t cwd settings.input = .ok () := by
      simp only [Selection.checkInput, hinput]
    obtain ⟨fault, hguard⟩ := refused_of_above hout hinput habove
    exact ⟨fault, fun engine => by simp only [performQuietly, hcheck, hguard, opening]⟩
  | file _ | link _ =>
    have hcheck : Selection.checkInput t cwd settings.input =
        .error (.configuration (.inputNoFolder settings.input)) := by
      simp only [Selection.checkInput, hinput]
    exact ⟨.inputNoFolder settings.input, fun engine => by
      simp only [performQuietly, hcheck, opening]⟩

/-- A run whose output is the input folder or holds it, links followed on both sides, is refused with
    nothing touched if the output has an absolute name. Where the checks of input and output find
    nothing wrong, the reset of the output leaves the input folder in its place, whether the reset
    succeeds or fails, if a folder that the output path names has an absolute name. In any case the
    reset leaves everything that is not at the node that the output path names or below it, and it
    makes no file. -/
theorem perform_spares_input (cwd : Address) (marker : String) (engine : Engine)
    (settings : Settings) (t : FileTree) :
    (∀ out inp n, t.canonical cwd settings.output = .ok out →
      t.stat cwd true settings.input = .ok (inp, n) → out <+: inp →
      (∃ fault, (perform cwd marker engine settings t).result = .error (.configuration fault)) ∧
        (perform cwd marker engine settings t).tree = t ∧
        ∀ engine', perform cwd marker engine' settings t = perform cwd marker engine settings t) ∧
    (Selection.checkInput t cwd settings.input = .ok () →
      guardOverlap t cwd settings.input settings.output = .ok () →
      let t' := (resetOutput t cwd settings.output).2
      (∃ inp, t.stat cwd true settings.input = .ok (inp, .folder) ∧
        (FolderNamed t cwd settings.output → t'.node? inp = some .folder)) ∧
        (∀ a, (∀ b n, t.stat cwd false settings.output = .ok (b, n) → ¬ b <+: a) →
          ∀ n, t.node? a = some n → t'.node? a = some n) ∧
        ∀ a content, t'.node? a = some (.file content) → t.node? a = some (.file content)) := by
  refine ⟨?_, ?_⟩
  · intro out inp n hout hinput habove
    obtain ⟨fault, hend⟩ := performQuietly_of_above hout hinput habove
    obtain ⟨hresult, htree, hsame⟩ := perform_of_fixed hend engine
    exact ⟨⟨fault, hresult⟩, htree, hsame⟩
  · intro hcheck hguard t'
    have hadds : GrowsBelow [] (removeOutput t cwd settings.output).2 t' :=
      resetOutput_adds t cwd settings.output
    refine ⟨?_, ?_, ?_⟩
    · obtain ⟨inp, hinput⟩ := stat_of_checkInput hcheck
      exact ⟨inp, hinput, fun hnamed =>
        hadds.node?_some (removeOutput_keeps_input hinput hguard hnamed)⟩
    · intro a haway n hn
      exact resetOutput_keeps haway hn
    · intro a content hfile
      exact removeOutput_within t cwd settings.output a _ (hadds.file_iff.1 hfile)

/-- A tree in which the folder `in` holds a file and the folder `out`, with a link to that one. -/
def nestedOutput : FileTree where
  entries := [(["in"], .folder), (["in", "A.class"], .file [0xCA]), (["in", "out"], .folder),
    (["in", "out", "old.txt"], .file [0x6F]), (["link"], .link "in/out")]
  nodup := by decide
  rooted := by simp [FileTree.FolderIn]

/-- The input folder is refused as output also when a link leads there and back. With a slash behind
    it, the link names the folder that it leads to: that folder is emptied and then cannot be removed
    by that name, and the input that holds it stays. -/
theorem perform_spares_input_nestedOutput :
    (∃ fault, (perform [] "T" carelessEngine ⟨⟨"in"⟩, ⟨"link/.."⟩, [], false⟩ nestedOutput).result =
      .error (.configuration fault)) ∧
    (∃ e, (resetOutput nestedOutput [] ⟨"link/"⟩).1 = .error e) ∧
    (resetOutput nestedOutput [] ⟨"link/"⟩).2.node? ["in"] = some .folder ∧
    (resetOutput nestedOutput [] ⟨"link/"⟩).2.node? ["in", "A.class"] = some (.file [0xCA]) ∧
    (resetOutput nestedOutput [] ⟨"link/"⟩).2.node? ["in", "out", "old.txt"] = none := by
  have hrefused := (perform_spares_input [] "T" carelessEngine ⟨⟨"in"⟩, ⟨"link/.."⟩, [], false⟩
    nestedOutput).1 ["in"] ["in"] .folder (by rfl) (by rfl) (List.prefix_refl _)
  obtain ⟨⟨inp, hinput, hinp⟩, hspared, -⟩ := (perform_spares_input [] "T" carelessEngine
    ⟨⟨"in"⟩, ⟨"link/"⟩, [], false⟩ nestedOutput).2 (by rfl) (by rfl)
  have hstat : nestedOutput.stat [] true ⟨"in"⟩ = .ok (["in"], .folder) := by rfl
  obtain rfl : inp = (["in"] : Address) := by
    rw [hstat] at hinput
    exact (Prod.mk.inj (Except.ok.inj hinput)).1.symm
  have hlink : nestedOutput.stat [] false ⟨"link/"⟩ = .ok (["in", "out"], .folder) := by rfl
  have hnamed : FolderNamed nestedOutput [] ⟨"link/"⟩ := by
    intro a hstat
    rw [hlink] at hstat
    rw [← (Prod.mk.inj (Except.ok.inj hstat)).1]
    rfl
  refine ⟨hrefused.1, ⟨.outputReset ⟨"link/"⟩ .notFolder, by rfl⟩, hinp hnamed,
    hspared _ ?_ _ (by rfl), by rfl⟩
  intro b n hstat
  rw [hlink] at hstat
  rw [← (Prod.mk.inj (Except.ok.inj hstat)).1]
  decide

/-- A tree with the folder `w/in`, which holds a file. -/
def deepInput : FileTree where
  entries := [(["w"], .folder), (["w", "in"], .folder), (["w", "in", "A.class"], .file [0xCA])]
  nodup := by decide
  rooted := by simp [FileTree.FolderIn]

/-- A working folder that has been removed has no absolute name, and the folder that held it has none
    either by the path `..`. That path passes although the input is below it, and the reset takes the
    input away. -/
theorem perform_removes_input :
    let e := perform ["w", "gone"] "T" carelessEngine ⟨⟨"/w/in"⟩, ⟨".."⟩, [], false⟩ deepInput
    deepInput.stat ["w", "gone"] true ⟨".."⟩ = .ok (["w"], .folder) ∧
    deepInput.stat ["w", "gone"] true ⟨"/w/in"⟩ = .ok (["w", "in"], .folder) ∧
    Selection.checkInput deepInput ["w", "gone"] ⟨"/w/in"⟩ = .ok () ∧
    guardOverlap deepInput ["w", "gone"] ⟨"/w/in"⟩ ⟨".."⟩ = .ok () ∧
    e.result = .error (.outputReset ⟨".."⟩ .notEmpty) ∧
    e.tree.node? ["w", "in"] = none ∧ e.tree.node? ["w", "in", "A.class"] = none :=
  ⟨by rfl, by rfl, by rfl, by rfl, by rfl, by rfl, by rfl⟩

end Run

end SourceRecovery
