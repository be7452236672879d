import SourceRecovery.Proofs.FileTree.Alike
import SourceRecovery.Proofs.FileTree.Joined
import SourceRecovery.Proofs.FileTree.Making
import SourceRecovery.Proofs.Run.Accounts
import SourceRecovery.Proofs.Run.KeptFiles
import SourceRecovery.Proofs.Run.Reset
import SourceRecovery.Proofs.Run.SparedInput
import SourceRecovery.Proofs.Run.VariantFolder

/-!
# Runs for two variants

Variants with different names are written to folders beside each other below one output root, and a
run resets the folder of its own variant only. So what a run has written for one variant stays through
the runs for another one.

* `resetOutput_makes`: the folder of a variant is a new one in the folder that the root leads to.
* `Unharmed`: a tree still holds what stood at some places of another one, out of reach of the next
  reset.
* `RunsFor`: runs for one output folder in a row.
* `perform_spares_variant`: what a run has written outlasts all runs for another variant.
* `perform_destroys_variant`: the variant without a name has the root itself, and its run takes the
  others away.
-/

namespace SourceRecovery

open FileTree (HasNew LeadsTo)

variable {t t' : FileTree} {cwd a r : Address} {root output : Path} {n : Node} {v w : Name}

/-! ## A new folder in the root -/

/-- A new folder at a name behind a path has this name, and stands where the path leads. -/
theorem FileTree.HasNew.of_join (h : HasNew t cwd (root.join ⟨w⟩) r v t') (hw : Path.IsPlain w) :
    v = w ∧ t.LeadsTo cwd root r := by
  obtain ⟨init, left, hsteps, hinit⟩ := h.way
  rw [Path.steps_join_name root hw] at hsteps
  obtain ⟨rfl, hlast⟩ := List.append_inj' hsteps rfl
  rw [Path.origin_join hw.not_isAbsolute] at hinit
  exact ⟨(Step.enter.inj (List.singleton_inj.1 hlast)).symm, left, hinit⟩

/-- Whether nothing is missing in front of a `..` of an output path once what it names is removed. -/
def FindsWay (t : FileTree) (cwd : Address) (output : Path) : Prop :=
  Step.up ∉ output.steps ∨ ∃ ending, (removeOutput t cwd output).2.locate cwd output = .ok ending

/-- A reset that succeeds for a name behind the root makes a folder of that name where the root
    leads, after it has removed what had the name there. -/
theorem resetOutput_makes (hcwd : t.node? cwd = some .folder) (hw : Path.IsPlain w)
    (hway : FindsWay t cwd (root.join ⟨w⟩))
    (h : resetOutput t cwd (root.join ⟨w⟩) = (.ok (), t')) :
    ∃ u r, (removeOutput t cwd (root.join ⟨w⟩)).2.Within u ∧ u.LeadsTo cwd root r ∧
      HasNew u cwd (root.join ⟨w⟩) r w t' := by
  have htext : (root.join ⟨w⟩).bytes ≠ [] := Path.join_ne_empty root hw
  obtain ⟨t₁, hremove, hmake⟩ := resetOutput_eq_ok h
  obtain ⟨hwithin, hgone⟩ := not_leadsTo_of_removeOutput htext hremove
  have hblocked : t₁.Unblocked cwd := (FileTree.unblocked_of_folder hcwd).of_within hwithin
  rw [FindsWay, hremove] at hway
  rw [hremove]
  obtain ⟨u, hgrow, hlast⟩ := FileTree.makeFoldersUpTo_last _ hblocked htext hway hgone hmake
  obtain ⟨r, name, hnew⟩ := FileTree.hasNew_of_makeFolder (hblocked.grow hgrow) hlast
  obtain ⟨rfl, hr⟩ := hnew.of_join hw
  exact ⟨u, r, hgrow.within, hr, hnew⟩

namespace Run

variable {t₀ : FileTree} {d : Address} {places : Address → Prop}
  {settings : Settings} {marker : String} {engine : Engine} {o : Outcome}

/-! ## One run -/

/-- Whether a tree holds what stood at some places of the tree `t₀`, and none of it is where the name
    `w` behind the root leads. -/
structure Unharmed (cwd : Address) (root : Path) (w : Name) (t₀ : FileTree)
    (places : Address → Prop) (t : FileTree) : Prop where
  holds : ∀ a n, places a → t₀.node? a = some n → t.node? a = some n
  apart : ∀ r, t.LeadsTo cwd root r → ∀ a n, places a → t₀.node? a = some n → ¬ r ++ [w] <+: a

theorem unharmed_start (hleads : t.LeadsTo cwd root r) (w : Name) :
    Unharmed cwd root w t (fun a => ¬ r ++ [w] <+: a) t := by
  refine ⟨fun a n _ h => h, ?_⟩
  intro r' hr' a n haway _
  rwa [hr'.unique hleads]

/-- A run that succeeds leaves unharmed what its reset does not reach. -/
theorem Unharmed.perform (h : Unharmed cwd root w t₀ places t) (hcwd : t.node? cwd = some .folder)
    (hw : Path.IsPlain w) (houtput : settings.output = root.join ⟨w⟩)
    (hway : FindsWay t cwd settings.output)
    (hengine : engine.Spares cwd settings.output (resetOutput t cwd settings.output).2)
    (hok : (perform cwd marker engine settings t).result = .ok o) :
    Unharmed cwd root w t₀ places (perform cwd marker engine settings t).tree := by
  obtain ⟨t₁, files, selected, hpast, hkept⟩ := pastReset_of_ok hok
  have hreset := hpast.reset
  rw [hreset] at hengine
  rw [houtput] at hreset hway
  obtain ⟨u, r, hgrow, hr, hnew⟩ := resetOutput_makes hcwd hw hway hreset
  -- the removal does not reach what has to stay, so it is there when the new folder is made
  have hkeeps : ∀ a n, places a → t₀.node? a = some n → u.node? a = some n := by
    intro a n hd hn
    refine hgrow a n ?_
    rw [removeOutput_spares]
    · exact h.holds a n hd hn
    · intro b m hnamed hbelow
      obtain ⟨r', hr', rfl⟩ := FileTree.stat_join_name hcwd hw hnamed
      exact h.apart r' hr' a n hd hn hbelow
  have hempty : t₁.LeadsToEmpty cwd settings.output := by
    rw [houtput]
    exact ⟨r ++ [w], FileTree.stat_of_leadsTo hnew.usable hnew.leadsTo, hnew.empty⟩
  have hwithin : u.Within (Run.perform cwd marker engine settings t).tree :=
    hnew.within.trans (hpast.within hkept hempty hengine)
  refine ⟨fun a n hd hn => hwithin a n (hkeeps a n hd hn), ?_⟩
  intro r' hr' a n hd hn hbelow
  obtain ⟨left, hleft⟩ := hr
  obtain rfl := hr'.unique ⟨left, hleft.within hwithin⟩
  have hthere := hkeeps a n hd hn
  by_cases hsame : a = r' ++ [w]
  · rw [hsame, hnew.free] at hthere
    cases hthere
  · have hgone := hnew.empty a hbelow hsame
    rw [hnew.within a n hthere] at hgone
    cases hgone

/-! ## Runs in a row -/

/-- Whether runs for one output folder that succeed, one after the other, lead from a tree to another
    one. Each of them finds the way to its folder, and its engine spares what it finds. -/
inductive RunsFor (cwd : Address) (output : Path) : FileTree → FileTree → Prop
  | done (t : FileTree) : RunsFor cwd output t t
  | run {t t' : FileTree} {marker : String} {settings : Settings} {engine : Engine} {o : Outcome}
    (hcwd : t.node? cwd = some .folder) (houtput : settings.output = output)
    (hway : FindsWay t cwd settings.output)
    (hengine : engine.Spares cwd settings.output (resetOutput t cwd settings.output).2)
    (hok : (perform cwd marker engine settings t).result = .ok o)
    (rest : RunsFor cwd output (perform cwd marker engine settings t).tree t') :
    RunsFor cwd output t t'

theorem Unharmed.runs (h : Unharmed cwd root w t₀ places t) (hw : Path.IsPlain w)
    (hruns : RunsFor cwd (root.join ⟨w⟩) t t') : Unharmed cwd root w t₀ places t' := by
  induction hruns with
  | done t => exact h
  | run hcwd houtput hway hengine hok _ ih =>
    exact ih (h.perform hcwd hw houtput hway hengine hok)

/-- What a run leaves that succeeds for a name behind the root. -/
theorem exists_folder_of_ok (hcwd : t.node? cwd = some .folder) (hv : Path.IsPlain v)
    (houtput : settings.output = root.join ⟨v⟩) (hway : FindsWay t cwd settings.output)
    (hengine : ∀ request, LeavesFiles (engine request))
    (hok : (perform cwd marker engine settings t).result = .ok o) :
    ∃ r kept s, (perform cwd marker engine settings t).tree.LeadsTo cwd root r ∧
      v.length ≤ 255 ∧
      (perform cwd marker engine settings t).tree.node? (r ++ [v]) = some .folder ∧
      Describes cwd settings.output (r ++ [v]) (resetOutput t cwd settings.output).2 kept
        (perform cwd marker engine settings t).tree s ∧
      o.written = s.written := by
  obtain ⟨t₁, files, selected, hpast, hkept⟩ := pastReset_of_ok hok
  have htree : (resetOutput t cwd settings.output).2 = t₁ := by rw [hpast.reset]
  have hreset := hpast.reset
  rw [houtput] at hreset hway
  obtain ⟨u, r, -, ⟨left, hleft⟩, hnew⟩ := resetOutput_makes hcwd hv hway hreset
  rw [← houtput] at hnew
  have hempty : t₁.LeadsToEmpty cwd settings.output :=
    ⟨r ++ [v], FileTree.stat_of_leadsTo hnew.usable hnew.leadsTo, hnew.empty⟩
  have hwithin := hpast.within hkept hempty (spares_of_leavesFiles hengine)
  obtain ⟨d, record, s, haccounts, -, -, hwritten, -⟩ :=
    accounts_of_ok (htree ▸ hempty) hengine hok
  obtain ⟨left', hend⟩ := hnew.leadsTo
  obtain rfl : d = r ++ [v] :=
    LeadsTo.unique haccounts.describes.opens.reaches ⟨left', hend.within hwithin⟩
  exact ⟨r, _, s, ⟨left, hleft.within (hnew.within.trans hwithin)⟩, hnew.size,
    hwithin _ _ hnew.there, haccounts.describes, hwritten⟩

/-- What is below one name in a folder is not below another one. -/
theorem not_prefix_of_name_ne (hne : v ≠ w) (h : r ++ [v] <+: a) : ¬ r ++ [w] <+: a := by
  intro h'
  have hsame : r ++ [v] = r ++ [w] :=
    (List.prefix_of_prefix_length_le h h' (by simp)).eq_of_length (by simp)
  exact hne (List.append_singleton_inj.1 hsame).2

/-- For two tasks whose variants have different names, each of them the name of a folder: after a run
    for one of them, any number of runs for the other one leaves everything as it was that is not in
    the other one's folder. So every file that the run has written is in its place, and it can be read
    by the same path if the way to the root does not lead through the other one's folder. -/
theorem perform_spares_variant {task other : String} {root? : Option Path}
    (htask : outputFolder root? (some task) = .ok settings.output)
    (hother : outputFolder root? (some other) = .ok output)
    (hv : Path.IsPlain (CompileTask.mk task).variant)
    (hw : Path.IsPlain (CompileTask.mk other).variant)
    (hne : (CompileTask.mk task).variant ≠ (CompileTask.mk other).variant)
    (hcwd : t.node? cwd = some .folder) (hway : FindsWay t cwd settings.output)
    (hengine : ∀ request, LeavesFiles (engine request))
    (hok : (perform cwd marker engine settings t).result = .ok o)
    (hruns : RunsFor cwd output (perform cwd marker engine settings t).tree t') :
    let root := root?.getD defaultOutputRoot
    let v := Text.encode (CompileTask.mk task).variant
    let w := Text.encode (CompileTask.mk other).variant
    let tree := (perform cwd marker engine settings t).tree
    ∃ r, tree.LeadsTo cwd root r ∧
      (∀ a n, ¬ r ++ [w] <+: a → tree.node? a = some n → t'.node? a = some n) ∧
      ∀ f ∈ o.written, ∃ names content,
        f = ⟨Path.shown names, Digest.Sha256.hex content⟩ ∧
        tree.read cwd (settings.output.descend names) = .ok content ∧
        t'.node? (r ++ [v] ++ names) = some (.file content) ∧
        ((tree.prune (r ++ [w])).LeadsTo cwd root r →
          t'.read cwd (settings.output.descend names) = .ok content) := by
  intro root v w tree
  obtain ⟨-, houtput⟩ := outputFolder_eq_ok.1 htask
  obtain ⟨-, rfl⟩ := outputFolder_eq_ok.1 hother
  obtain ⟨r, kept, s, hr, hsize, hfolder, hdescribes, hwritten⟩ :=
    exists_folder_of_ok hcwd hv houtput hway hengine hok
  have hholds := ((unharmed_start hr w).runs hw hruns).holds
  have hown : ∀ a n, r ++ [v] <+: a → tree.node? a = some n → t'.node? a = some n :=
    fun a n hbelow => hholds a n (not_prefix_of_name_ne (mt Text.encode_eq_encode.1 hne) hbelow)
  refine ⟨r, hr, hholds, ?_⟩
  intro f hf
  rw [hwritten] at hf
  obtain ⟨names, content, rfl, hfile, hfollowed⟩ := hdescribes.file_of_written hf
  obtain ⟨hnonempty, hnames⟩ := hdescribes.plain hfile
  have htext : settings.output.bytes ≠ [] := by
    rw [houtput]
    exact Path.join_ne_empty _ hv
  have hfile' := hown _ _ (List.prefix_append _ names) hfile
  refine ⟨names, content, rfl, ?_, hfile', ?_⟩
  · have hleads : tree.LeadsTo cwd settings.output (r ++ [v]) := hdescribes.opens.reaches
    have hstat := hleads.stat_descend htext hnames hnonempty hfile hfollowed
    simp only [FileTree.read, hstat]
  · rintro ⟨left, hpruned⟩
    have hr' : t'.LeadsTo cwd root r := ⟨left, hpruned.within (FileTree.prune_within hholds)⟩
    have hleads : t'.LeadsTo cwd settings.output (r ++ [v]) := by
      rw [houtput]
      exact hr'.join hv hsize (hown _ _ (List.prefix_refl _) hfolder)
    have hstat := hleads.stat_descend htext hnames hnonempty hfile' hfollowed
    simp only [FileTree.read, hstat]

/-! ## Two variants of one build -/

/-- What a run for `folder` is asked for here. -/
def buildSettings (folder : String) : Settings :=
  ⟨⟨"in"⟩, ⟨folder⟩, [], false⟩

/-- An engine that hands over one unit, and one that hands over none. -/
def oneUnit : Engine := fun _ => handOver [⟨"", some "a.B", "B.kt", "x"⟩]

def noUnit : Engine := fun _ => handOver []

theorem leavesFiles_oneUnit (request : Request) : LeavesFiles (oneUnit request) :=
  leavesFiles_handOver _

theorem leavesFiles_noUnit (request : Request) : LeavesFiles (noUnit request) :=
  leavesFiles_handOver []

/-- What a run for the folder `out/Debug` leaves. -/
def builtDebug : FileTree where
  entries := [(["out", "Debug", "a", "B.kt"], .file (Text.encode "x")),
    (["out", "Debug", "a"], .folder), (["out", "Debug"], .folder), (["out"], .folder),
    (["in"], .folder), (["in", "A.class"], .file ClassFile.specimen.encode)]
  nodup := by decide
  rooted := by simp [FileTree.FolderIn]

/-- What a reset of the folder `out/Debug` makes of a tree with one class file. -/
def debugReset : FileTree where
  entries := [(["out", "Debug"], .folder), (["out"], .folder), (["in"], .folder),
    (["in", "A.class"], .file ClassFile.specimen.encode)]
  nodup := by decide
  rooted := by simp [FileTree.FolderIn]

/-- A run that lists this one class file lets its engine decide. -/
theorem PastReset.perform_of_class {t t₁ : FileTree} {folder : String}
    (h : PastReset [] (buildSettings folder) t t₁ [⟨"in/A.class"⟩])
    (hclass : t₁.stat [] true ⟨"in/A.class"⟩ =
      .ok (["in", "A.class"], .file ClassFile.specimen.encode)) :
    ∃ events, ∀ engine : Engine,
      let ended := (engine (requestFor (buildSettings folder) [⟨"in/A.class"⟩])).perform
        (receiver [] ⟨folder⟩) t₁ (.start events)
      (perform [] "T" engine (buildSettings folder) t).result =
          settle (selectedOutcome (buildSettings folder) 1 [⟨"in/A.class"⟩]) ended.1 ended.2.2 ∧
        (perform [] "T" engine (buildSettings folder) t).tree = ended.2.1 := by
  have hkept : (Selection.keepMarked t₁ [] "T" [⟨"in/A.class"⟩]).1 = .ok [⟨"in/A.class"⟩] := by
    simp only [Selection.keepMarked, scanFile_specimen hclass]
    rfl
  exact h.perform_engages hkept (by simp)

theorem PastReset.perform_noUnit {t t₁ : FileTree} {folder : String}
    (h : PastReset [] (buildSettings folder) t t₁ [⟨"in/A.class"⟩])
    (hclass : t₁.stat [] true ⟨"in/A.class"⟩ =
      .ok (["in", "A.class"], .file ClassFile.specimen.encode)) :
    (∃ o, (perform [] "T" noUnit (buildSettings folder) t).result = .ok o) ∧
      (perform [] "T" noUnit (buildSettings folder) t).tree = t₁ := by
  obtain ⟨events, hend⟩ := h.perform_of_class hclass
  obtain ⟨hresult, htree⟩ := hend noUnit
  exact ⟨⟨_, hresult.trans rfl⟩, htree.trans rfl⟩

theorem perform_builtDebug :
    (∃ o, (perform [] "T" oneUnit (buildSettings "out/Debug") oneClass).result = .ok o) ∧
      (perform [] "T" oneUnit (buildSettings "out/Debug") oneClass).tree = builtDebug := by
  have hpast : PastReset [] (buildSettings "out/Debug") oneClass debugReset [⟨"in/A.class"⟩] :=
    ⟨by rfl, by rfl, by rfl, by rfl,
      classFiles_of_under (by rfl) (List.mergeSort_singleton _)⟩
  obtain ⟨events, hend⟩ := hpast.perform_of_class (by rfl)
  obtain ⟨hresult, htree⟩ := hend oneUnit
  refine ⟨⟨_, hresult.trans (by rfl)⟩, ?_⟩
  rw [htree]
  exact FileTree.eq_of_entries (by rfl)

/-- What a reset of the folder `out/Release` makes of it then. -/
def releaseReset : FileTree where
  entries := (["out", "Release"], .folder) :: builtDebug.entries
  nodup := by decide
  rooted := by simp [FileTree.FolderIn, builtDebug]

/-- The source of `compileDebugKotlin` is there after a run for `compileReleaseKotlin`. -/
theorem perform_spares_variant_release :
    ∃ o t', (perform [] "T" oneUnit (buildSettings "out/Debug") oneClass).result = .ok o ∧
      RunsFor [] ⟨"out/Release"⟩ (perform [] "T" oneUnit (buildSettings "out/Debug") oneClass).tree
        t' ∧
      t'.node? ["out", "Release"] = some .folder ∧
      t'.node? ["out", "Debug", "a", "B.kt"] = some (.file (Text.encode "x")) := by
  obtain ⟨⟨o, ho⟩, htree⟩ := perform_builtDebug
  have hpast : PastReset [] (buildSettings "out/Release") builtDebug releaseReset
      [⟨"in/A.class"⟩] :=
    ⟨by rfl, by rfl, by rfl, by rfl,
      classFiles_of_under (by rfl) (List.mergeSort_singleton _)⟩
  obtain ⟨⟨o', ho'⟩, hreleased⟩ := hpast.perform_noUnit (by rfl)
  have hruns : RunsFor [] ⟨"out/Release"⟩
      (perform [] "T" oneUnit (buildSettings "out/Debug") oneClass).tree releaseReset := by
    rw [htree]
    refine .run (by rfl) rfl (.inl (by decide))
      (spares_of_leavesFiles leavesFiles_noUnit) ho' ?_
    rw [hreleased]
    exact .done _
  have htask : outputFolder (some ⟨"out"⟩) (some "compileDebugKotlin") =
      .ok (buildSettings "out/Debug").output := by rfl
  have hother : outputFolder (some ⟨"out"⟩) (some "compileReleaseKotlin") = .ok ⟨"out/Release"⟩ := by
    rfl
  obtain ⟨r, hr, hholds, -⟩ := perform_spares_variant htask hother
    ⟨by decide, by decide, by decide, by decide⟩ ⟨by decide, by decide, by decide, by decide⟩
    (by decide) (by rfl) (.inl (by decide)) leavesFiles_oneUnit ho hruns
  have hroot : builtDebug.stat [] true ⟨"out"⟩ = .ok (["out"], .folder) := by rfl
  rw [htree] at hr hholds
  obtain rfl := hr.unique (FileTree.reaches_of_stat hroot).2
  exact ⟨o, releaseReset, ho, hruns, by rfl, hholds _ _ (by decide) (by rfl)⟩

/-- The variant of `compileKotlin` has no name, so its folder is the root itself. A run for it takes
    away what a run for `compileDebugKotlin` has written. -/
theorem perform_destroys_variant :
    (CompileTask.mk "compileDebugKotlin").variant ≠ (CompileTask.mk "compileKotlin").variant ∧
    outputFolder (some ⟨"out"⟩) (some "compileDebugKotlin") = .ok ⟨"out/Debug"⟩ ∧
    outputFolder (some ⟨"out"⟩) (some "compileKotlin") = .ok ⟨"out/"⟩ ∧
    let e := perform [] "T" oneUnit (buildSettings "out/Debug") oneClass
    let e' := perform [] "T" noUnit (buildSettings "out/") e.tree
    (∃ o, e.result = .ok o) ∧
      e.tree.node? ["out", "Debug", "a", "B.kt"] = some (.file (Text.encode "x")) ∧
      (∃ o, e'.result = .ok o) ∧ e'.tree.node? ["out", "Debug", "a", "B.kt"] = none := by
  refine ⟨by decide, by rfl, by rfl, ?_⟩
  intro e e'
  obtain ⟨hok, htree⟩ := perform_builtDebug
  have hpast : PastReset [] (buildSettings "out/") builtDebug oneClassReset [⟨"in/A.class"⟩] :=
    ⟨by rfl, by rfl, by rfl, by rfl, classFiles_oneClassReset⟩
  obtain ⟨hok', hended⟩ := hpast.perform_noUnit (by rfl)
  have hsecond : e' = perform [] "T" noUnit (buildSettings "out/") builtDebug := by
    rw [← htree]
  rw [← hsecond] at hok' hended
  refine ⟨hok, ?_, hok', ?_⟩
  · show (perform [] "T" oneUnit (buildSettings "out/Debug") oneClass).tree.node? _ = _
    rw [htree]
    rfl
  · rw [hended]
    rfl

end Run

end SourceRecovery
