import SourceRecovery.Proofs.FileTree.Alike
import SourceRecovery.Proofs.FileTree.Remaking
import SourceRecovery.Proofs.Run.OutputTree
import SourceRecovery.Proofs.Run.SparedInput

/-!
# Runs from two trees

What a run makes of two trees that differ in what is below its output folder.

* `Work.Alike`: two courses of action that do the same in trees that hold the same.
* `deposit_alike`, `Work.Alike.perform`, `afterReset_alike`: each part of a run does so.
* `resetOutput_alike`: the reset takes away what told the trees apart.
* `resetOutput_within`: an output path that does not need what is below the output folder has
  nothing made for it but that folder.
* `perform_forgets_output`: the run from the one tree ends like the run from the other.
* `perform_not_repeated`: it need not, if the output path runs through the output folder.
-/

namespace SourceRecovery

open FileTree (Alike AlikeBut SameEnd FewerFolders)

variable {t t' : FileTree} {cwd d : Address} {marker : String} {output input : Path}
  {settings : Settings} {events : List Event}

/-! ## Courses of action -/

namespace Work

/-- Two courses of action that do the same, and see the same, wherever trees hold the same. -/
inductive Alike {α : Type} : Work α → Work α → Prop
  | done (value : α) : Alike (.done value) (.done value)
  | note (event : Event) {rest rest' : Work α} (h : Alike rest rest') :
    Alike (.note event rest) (.note event rest')
  | files {change change' : FileTree → FileTree} {rest rest' : FileTree → Work α}
    (hchange : ∀ t t', t.Alike t' → (change t).Alike (change' t'))
    (h : ∀ t t', t.Alike t' → Alike (rest t) (rest' t')) :
    Alike (.files change rest) (.files change' rest')
  | deliver (u : SourceUnit) {rest rest' : Except Failure Unit → Work α}
    (h : ∀ answer, Alike (rest answer) (rest' answer)) :
    Alike (.deliver u rest) (.deliver u rest')

end Work

/-- Whether all that an engine does depends on its request and on what stands in the tree. -/
def Engine.IsSteady (engine : Engine) : Prop :=
  ∀ request, (engine request).Alike (engine request)

namespace Run

theorem deposit_alike (h : t.Alike t') (cwd : Address) (output : Path) (u : SourceUnit) :
    SameEnd (deposit cwd output u t) (deposit cwd output u t') := by
  rw [deposit, deposit]
  split
  · exact ⟨rfl, h⟩
  · cases u.destination? output with
    | none => exact ⟨rfl, h⟩
    | some target =>
      obtain ⟨answer, r, r', hmake, hmake', hr⟩ :=
        (h.makeFolders cwd (target.parent?.getD ⟨[]⟩)).cases
      simp only [hmake, hmake']
      cases answer with
      | error cause => exact ⟨rfl, hr⟩
      | ok _ =>
        obtain ⟨answer, w, w', hwrite, hwrite', hw⟩ :=
          (hr.write cwd target (Text.encode u.content)).cases
        simp only [hwrite, hwrite']
        cases answer <;> exact ⟨rfl, hw⟩

/-- Courses of action that are alike end alike, and so does the account of their units. -/
theorem perform_alike {α : Type} {course course' : Work α} (hcourse : course.Alike course')
    (h : t.Alike t') (cwd : Address) (output : Path) (s : Account) :
    (course.perform (receiver cwd output) t s).1 = (course'.perform (receiver cwd output) t' s).1 ∧
    (course.perform (receiver cwd output) t s).2.1.Alike
      (course'.perform (receiver cwd output) t' s).2.1 ∧
    (course.perform (receiver cwd output) t s).2.2 =
      (course'.perform (receiver cwd output) t' s).2.2 := by
  induction hcourse generalizing t t' s with
  | done value => exact ⟨rfl, h, rfl⟩
  | note event _ ih => exact ih h (s.tell event)
  | files hchange _ ih => exact ih t t' h (hchange t t' h) s
  | deliver u _ ih =>
    obtain ⟨hdeposit, htree⟩ := deposit_alike h cwd output u
    rw [Work.perform, Work.perform, onUnit_eq, onUnit_eq, hdeposit]
    exact ih _ htree _

/-! ## The selection -/

theorem scanFile_alike (h : t.Alike t') (cwd : Address) (marker : String) (file : Path) :
    scanFile t cwd marker file = scanFile t' cwd marker file :=
  Selection.scanFile_congr (h.stat_eq cwd true file)

theorem keepMarked_alike (h : t.Alike t') (cwd : Address) (marker : String) (files : List Path) :
    Selection.keepMarked t cwd marker files = Selection.keepMarked t' cwd marker files :=
  Selection.keepMarked_congr fun file _ => scanFile_alike h cwd marker file

theorem ofFolder_alike (h : t.Alike t') (cwd : Address) (marker : String) (input : Path) :
    Selection.ofFolder t cwd marker input = Selection.ofFolder t' cwd marker input := by
  have hkept : Selection.keepMarked t cwd marker = Selection.keepMarked t' cwd marker :=
    funext (keepMarked_alike h cwd marker)
  rw [Selection.ofFolder, Selection.ofFolder, Selection.checkInput, Selection.checkInput,
    classFiles, classFiles, h.stat_eq, h.walkFiles_eq, hkept]

/-! ## Behind the reset -/

/-- Whether two runs end alike: with the same result and the same events, and trees that hold the
    same. -/
structure EndsAlike (e e' : RunEnd) : Prop where
  result : e.result = e'.result
  events : e.events = e'.events
  tree : e.tree.Alike e'.tree

theorem engage_alike {engine : Engine} (hengine : engine.IsSteady) (h : t.Alike t') (cwd : Address)
    (settings : Settings) (outcome : Outcome) (events : List Event) :
    EndsAlike (engage cwd engine settings outcome t events)
      (engage cwd engine settings outcome t' events) := by
  obtain ⟨hended, htree, haccount⟩ := perform_alike (hengine (requestFor settings outcome.classes)) h
    cwd settings.output (.start events)
  rw [engage_eq, engage_eq]
  simp only [hended, haccount]
  exact ⟨rfl, rfl, htree⟩

theorem afterReset_alike {engine : Engine} (hengine : engine.IsSteady) (h : t.Alike t')
    (cwd : Address) (marker : String) (settings : Settings) (events : List Event) :
    EndsAlike (afterReset cwd marker engine settings t events)
      (afterReset cwd marker engine settings t' events) := by
  rw [afterReset, afterReset, ofFolder_alike h]
  split
  · exact ⟨rfl, rfl, h⟩
  · dsimp only
    split
    · exact ⟨rfl, rfl, h⟩
    · exact engage_alike hengine h _ _ _ _

/-! ## The reset -/

theorem removeOutput_of_folder (h : t.stat cwd false output = .ok (d, .folder)) :
    removeOutput t cwd output = t.removeFolders cwd output := by
  rw [removeOutput, h]

/-- Once what is below the output folder is gone, a reset cannot tell what it was. -/
theorem resetOutput_alike (hstat : t.stat cwd false output = .ok (d, .folder))
    (hstat' : t'.stat cwd false output = .ok (d, .folder)) (hsame : AlikeBut d t t') :
    SameEnd (resetOutput t cwd output) (resetOutput t' cwd output) := by
  obtain ⟨answer, r, r', hr, hr', halike⟩ := (FileTree.sameEnd_removeFolders
    (FileTree.stat_folder hstat) (FileTree.stat_folder hstat') hsame.clear).cases
  rw [resetOutput, resetOutput, removeOutput_of_folder hstat, removeOutput_of_folder hstat', hr, hr']
  cases answer with
  | error cause => exact ⟨rfl, halike⟩
  | ok _ =>
    obtain ⟨answer, m, m', hm, hm', halike⟩ := (halike.makeFolders cwd output).cases
    simp only [hm, hm']
    cases answer <;> exact ⟨rfl, halike⟩

/-- Where the output path leads to its folder even when that is empty, the reset makes nothing but
    that folder: nothing stands afterwards that did not stand in front of it or beside it. -/
theorem resetOutput_within (hway : (t.clear d).stat cwd false output = .ok (d, .folder))
    {t₁ : FileTree} (h : resetOutput t cwd output = (.ok (), t₁)) : t₁.Within (t.clear d) := by
  obtain ⟨r, hremove, hmake⟩ := resetOutput_eq_ok h
  have hstat : t.stat cwd false output = .ok (d, .folder) :=
    FileTree.stat_within hway (FileTree.within_clear t d)
  have hleads : (t.clear d).LeadsTo cwd output d := (FileTree.reaches_of_stat hway).2
  have hgone := (not_leadsTo_of_removeOutput (FileTree.reaches_of_stat hway).1 hremove).2
  -- what is removed is the folder itself, as nothing else is in the way of the path
  have hpruned : r = (t.clear d).prune d := by
    rw [removeOutput_of_folder hstat] at hremove
    have hleft := FileTree.removeFolders_snd (FileTree.stat_folder hstat)
    rw [hremove] at hleft
    rcases hleft with hleft | hleft
    · subst hleft
      exact absurd hleads (hgone d)
    · exact hleft
  have hfewer : FewerFolders r (t.clear d) := by
    rw [hpruned]
    refine ⟨FileTree.within_prune _ d, fun b n hn => ?_⟩
    by_cases hp : d <+: b
    · right
      rw [FileTree.node?_clear] at hn
      split at hn
      · cases hn
      · rename_i hbelow
        have hb : d = b := Classical.byContradiction fun hne => hbelow ⟨hp, hne⟩
        rw [← hb, FileTree.node?_of_stat hstat] at hn
        exact (Option.some.inj hn).symm
    · left
      rwa [FileTree.node?_prune_of_not_below hp]
  have hmade := FileTree.makeFoldersUpTo_remakes (output.slashPieces.length + 1) hfewer
    (.inl ⟨d, hleads⟩)
  rw [show r.makeFoldersUpTo cwd (output.slashPieces.length + 1) output = (.ok (), t₁) from hmake]
    at hmade
  exact hmade.within

/-! ## The whole run -/

/-- What is told of the failure of a run, if it fails. -/
def failureEvents : Except RunError Outcome → List Event
  | .ok _ => []
  | .error e => [.runFailed e.chain]

theorem perform_events (cwd : Address) (marker : String) (engine : Engine) (settings : Settings)
    (t : FileTree) : (perform cwd marker engine settings t).events =
      (performQuietly cwd marker engine settings t).events ++
        failureEvents (performQuietly cwd marker engine settings t).result := by
  rw [perform]
  cases (performQuietly cwd marker engine settings t).result <;> simp [failureEvents]

theorem endsAlike_of_quietly {engine : Engine}
    (h : EndsAlike (performQuietly cwd marker engine settings t)
      (performQuietly cwd marker engine settings t')) :
    EndsAlike (perform cwd marker engine settings t) (perform cwd marker engine settings t') := by
  refine ⟨?_, ?_, ?_⟩
  · rw [perform_result, perform_result, h.result]
  · rw [perform_events, perform_events, h.result, h.events]
  · rw [perform_tree, perform_tree]
    exact h.tree

/-- Runs that find nothing wrong with their input, and whose resets are alike, end alike. -/
theorem endsAlike_of_reset {engine : Engine} (hengine : engine.IsSteady)
    (hinput : Selection.checkInput t cwd settings.input = .ok ())
    (hguard : guardOverlap t cwd settings.input settings.output = .ok ())
    (hinput' : Selection.checkInput t' cwd settings.input = .ok ())
    (hguard' : guardOverlap t' cwd settings.input settings.output = .ok ())
    (hreset : SameEnd (resetOutput t cwd settings.output) (resetOutput t' cwd settings.output)) :
    EndsAlike (perform cwd marker engine settings t) (perform cwd marker engine settings t') := by
  refine endsAlike_of_quietly ?_
  obtain ⟨answer, r, r', hr, hr', halike⟩ := hreset.cases
  simp only [performQuietly, hinput, hguard, hinput', hguard', hr, hr']
  cases answer with
  | error e => exact ⟨rfl, rfl, halike⟩
  | ok _ => exact afterReset_alike hengine halike cwd marker settings _

/-- A run that is refused for its input or for where its output leads has touched nothing. -/
theorem perform_refused {e : RunError} (engine : Engine)
    (h : Selection.checkInput t cwd settings.input = .error e ∨
      Selection.checkInput t cwd settings.input = .ok () ∧
        guardOverlap t cwd settings.input settings.output = .error e) :
    (∃ fault, (perform cwd marker engine settings t).result = .error (.configuration fault)) ∧
      (perform cwd marker engine settings t).tree = t := by
  have hfault : ∃ fault, e = .configuration fault := by
    rcases h with h | ⟨-, h⟩
    · rw [Selection.checkInput] at h
      split at h
      · exact ⟨_, (Except.error.inj h).symm⟩
      · cases h
      · exact ⟨_, (Except.error.inj h).symm⟩
    · rw [guardOverlap] at h
      split at h
      · cases h
      · split at h
        · exact ⟨_, (Except.error.inj h).symm⟩
        · split at h
          · exact ⟨_, (Except.error.inj h).symm⟩
          · cases h
  have hend : performQuietly cwd marker engine settings t = ⟨.error e, t, opening settings⟩ := by
    rcases h with h | ⟨hinput, h⟩
    · simp only [performQuietly, h, opening]
    · simp only [performQuietly, hinput, h, opening]
  obtain ⟨fault, rfl⟩ := hfault
  rw [perform_result, perform_tree, hend]
  exact ⟨⟨fault, rfl⟩, rfl⟩

/-- A path that does not need what is below a folder has the same absolute name whatever is there. -/
theorem canonical_of_alikeBut {p : Path} {a b : Address} {n : Node}
    (hstat : (t.clear d).stat cwd true p = .ok (b, n)) (hbase : (t.clear d).HasBase cwd p)
    (hsame : AlikeBut d t t') (h : t.canonical cwd p = .ok a) : t'.canonical cwd p = .ok a := by
  have hcleared := FileTree.canonical_of_within h hstat hbase (FileTree.within_clear t d)
  have hwithin : (t.clear d).Within t' := fun b n hn =>
    FileTree.within_clear t' d b n (hsame.clear b ▸ hn)
  exact FileTree.canonical_within hcleared hwithin

/-- Whether input and output have an absolute name to lead on from that is not taken away with the
    output folder `d`: each of them is absolute, or the working folder is neither that folder nor in
    it. -/
structure HasBases (t : FileTree) (cwd d : Address) (settings : Settings) : Prop where
  input : (t.prune d).HasBase cwd settings.input
  output : (t.prune d).HasBase cwd settings.output

theorem HasBases.congr (h : HasBases t cwd d settings) (hsame : AlikeBut d t t') :
    HasBases t' cwd d settings := by
  have hwithin : (t.prune d).Within (t'.prune d) := FileTree.prune_within fun b n hp hn => by
    rw [FileTree.node?_prune_of_not_below hp, ← hsame b fun hbelow => hp hbelow.1]
    exact hn
  exact ⟨h.input.within hwithin, h.output.within hwithin⟩

theorem HasBases.clear (h : HasBases t cwd d settings) :
    (t.clear d).HasBase cwd settings.input ∧ (t.clear d).HasBase cwd settings.output := by
  have hwithin : (t.prune d).Within (t.clear d) := FileTree.prune_within fun b n hp hn =>
    (FileTree.node?_clear_of_not_below fun h => absurd h hp).trans hn
  exact ⟨h.input.within hwithin, h.output.within hwithin⟩

/-- Where the output path does not need what is below its folder, the other tree passes the checks of
    input and output too: what leads to the input after the reset is in both trees. -/
theorem checks_of_reset {t₁ : FileTree}
    (hway : (t.clear d).stat cwd false settings.output = .ok (d, .folder))
    (hbases : HasBases t cwd d settings) (hsame : AlikeBut d t t')
    (hguard : guardOverlap t cwd settings.input settings.output = .ok ())
    (hreset : resetOutput t cwd settings.output = (.ok (), t₁))
    (hagain : Selection.checkInput t₁ cwd settings.input = .ok ()) :
    Selection.checkInput t' cwd settings.input = .ok () ∧
      guardOverlap t' cwd settings.input settings.output = .ok () := by
  obtain ⟨inp, hinput₁⟩ := stat_of_checkInput hagain
  have hcleared := FileTree.stat_within hinput₁ (resetOutput_within hway hreset)
  have hinput' : t'.stat cwd true settings.input = .ok (inp, .folder) := by
    have hcleared' := hcleared
    rw [hsame.clear.stat_eq] at hcleared'
    exact FileTree.stat_within hcleared' (FileTree.within_clear t' d)
  constructor
  · simp only [Selection.checkInput, hinput']
  · cases hout' : t'.canonical cwd settings.output with
    | error cause => simp only [guardOverlap, hout']
    | ok out =>
      -- the output has the same absolute name in the first tree, so the input had one there
      have hway' := hway
      rw [hsame.clear.stat_eq] at hway'
      have hout := canonical_of_alikeBut (FileTree.stat_folder hway') (hbases.congr hsame).clear.2
        hsame.symm hout'
      cases hinp : t.canonical cwd settings.input with
      | error cause =>
        simp only [guardOverlap, hout, hinp] at hguard
        cases hguard
      | ok inp' =>
        have hinp' := canonical_of_alikeBut hcleared hbases.clear.1 hsame hinp
        rw [guardOverlap_of_canonical hout hinp] at hguard
        rw [guardOverlap_of_canonical hout' hinp', hguard]

/-- A run that succeeds, and one from a tree that differs in what is below the output folder. The
    second one ends like the first, or it is refused with nothing touched. It does end like the first
    if the output path leads to that folder even when that is empty, and a path that is relative starts
    outside of it; and then, if the first run has changed nothing but what is below its output folder,
    so does the same run once more. -/
theorem perform_forgets_output {engine : Engine} {o : Outcome} (hengine : engine.IsSteady)
    (hsame : AlikeBut d t t') (h : (perform cwd marker engine settings t).result = .ok o) :
    let e := perform cwd marker engine settings t
    (t.stat cwd false settings.output = .ok (d, .folder) →
      t'.stat cwd false settings.output = .ok (d, .folder) →
      EndsAlike e (perform cwd marker engine settings t') ∨
        (∃ fault, (perform cwd marker engine settings t').result = .error (.configuration fault)) ∧
          (perform cwd marker engine settings t').tree = t') ∧
    ((t.clear d).stat cwd false settings.output = .ok (d, .folder) → HasBases t cwd d settings →
      EndsAlike e (perform cwd marker engine settings t') ∧
        (AlikeBut d t e.tree → EndsAlike e (perform cwd marker engine settings e.tree))) := by
  intro e
  obtain ⟨t₁, files, selected, hpast, -⟩ := pastReset_of_ok h
  refine ⟨?_, ?_⟩
  · intro hstat hstat'
    cases hinput' : Selection.checkInput t' cwd settings.input with
    | error e' => exact .inr (perform_refused engine (.inl hinput'))
    | ok _ =>
      cases hguard' : guardOverlap t' cwd settings.input settings.output with
      | error e' => exact .inr (perform_refused engine (.inr ⟨hinput', hguard'⟩))
      | ok _ =>
        exact .inl (endsAlike_of_reset hengine hpast.input hpast.guard hinput' hguard'
          (resetOutput_alike hstat hstat' hsame))
  · intro hway hbases
    have halike : ∀ t', AlikeBut d t t' → EndsAlike e (perform cwd marker engine settings t') := by
      intro t' hsame
      obtain ⟨hinput', hguard'⟩ := checks_of_reset hway hbases hsame hpast.guard hpast.reset hpast.again
      have hstat := FileTree.stat_within hway (FileTree.within_clear t d)
      rw [hsame.clear.stat_eq] at hway
      have hstat' := FileTree.stat_within hway (FileTree.within_clear t' d)
      exact endsAlike_of_reset hengine hpast.input hpast.guard hinput' hguard'
        (resetOutput_alike hstat hstat' hsame)
    exact ⟨halike t' hsame, halike e.tree⟩

/-- A tree with a class file in the folder `in`, and a file in the folder `out`. -/
def usedOutput : FileTree where
  entries := [(["in"], .folder), (["in", "A.class"], .file ClassFile.specimen.encode),
    (["out"], .folder), (["out", "old.kt"], .file [0x6F])]
  nodup := by decide
  rooted := by simp [FileTree.FolderIn]

/-- The same tree with something else in the folder `out`. -/
def otherOutput : FileTree where
  entries := [(["in"], .folder), (["in", "A.class"], .file ClassFile.specimen.encode),
    (["out"], .folder), (["out", "a"], .folder)]
  nodup := by decide
  rooted := by simp [FileTree.FolderIn]

/-- An engine that hands over one unit, and ends with the answer to it. -/
def oneUnitEngine : Engine := fun _ => .deliver ⟨"", none, "B.kt", "x"⟩ .done

theorem isSteady_oneUnitEngine : oneUnitEngine.IsSteady :=
  fun _ => .deliver _ fun answer => .done answer

theorem perform_usedOutput : ∃ o,
    (perform [] "T" oneUnitEngine ⟨⟨"in"⟩, ⟨"out"⟩, [], false⟩ usedOutput).result = .ok o :=
  perform_ok_of_oneClassReset oneUnitEngine
    ⟨by rfl, by rfl, by rfl, by rfl, classFiles_oneClassReset⟩ (by decide +kernel)

/-- What was in the folder `out` makes no difference, and neither does what the run leaves there. -/
theorem perform_forgets_output_usedOutput :
    let settings : Settings := ⟨⟨"in"⟩, ⟨"out"⟩, [], false⟩
    oneUnitEngine.IsSteady ∧ AlikeBut ["out"] usedOutput otherOutput ∧
      (∃ o, (perform [] "T" oneUnitEngine settings usedOutput).result = .ok o) ∧
      EndsAlike (perform [] "T" oneUnitEngine settings usedOutput)
        (perform [] "T" oneUnitEngine settings otherOutput) := by
  intro settings
  have hsame : AlikeBut ["out"] usedOutput otherOutput := by
    intro b hb
    have hold : (["out", "old.kt"] : Address) ≠ b := fun h => hb (h ▸ by decide)
    have hother : (["out", "a"] : Address) ≠ b := fun h => hb (h ▸ by decide)
    simp [FileTree.node?, usedOutput, otherOutput, hold, hother, List.find?_cons]
  obtain ⟨o, ho⟩ := perform_usedOutput
  have hway : (usedOutput.clear ["out"]).stat [] false ⟨"out"⟩ = .ok (["out"], .folder) := by rfl
  exact ⟨isSteady_oneUnitEngine, hsame, ⟨o, ho⟩,
    ((perform_forgets_output isSteady_oneUnitEngine hsame ho).2 hway
      ⟨.inr (by rfl), .inr (by rfl)⟩).1⟩

/-! ## An output path that runs through its own folder -/

/-- A tree with an empty folder `in`, and a folder `out` that holds a link to a folder in it. -/
def linkedOutput : FileTree where
  entries := [(["in"], .folder), (["out"], .folder), (["out", "b"], .folder),
    (["out", "b", "c"], .folder), (["out", "link"], .link "b/c")]
  nodup := by decide
  rooted := by simp [FileTree.FolderIn]

/-- The same tree with a folder instead of the link, and nothing else in the folder `out`. -/
def unlinkedOutput : FileTree where
  entries := [(["out", "link"], .folder), (["in"], .folder), (["out"], .folder)]
  nodup := by decide
  rooted := by simp [FileTree.FolderIn]

/-- A path that leads through the link and back to the folder `out`. -/
def roundabout : Path := ⟨"out/link/../.."⟩

/-- With nothing to be selected, a run by that path does no more than to reset its output. -/
theorem pastReset_linkedOutput :
    PastReset [] ⟨⟨"in"⟩, roundabout, [], false⟩ linkedOutput unlinkedOutput [] := by
  have hreset : resetOutput linkedOutput [] roundabout = (.ok (), unlinkedOutput) :=
    Prod.ext (ok_of_toOption (by decide +kernel)) (FileTree.eq_of_entries (by decide +kernel))
  have hguard : guardOverlap linkedOutput [] ⟨"in"⟩ roundabout = .ok () :=
    ok_of_toOption (by decide +kernel)
  have hunder : unlinkedOutput.under ["in"] = [] := by
    rw [FileTree.under]
    exact List.mergeSort_nil
  have hlisted : classFiles unlinkedOutput [] ⟨"in"⟩ = .ok [] := by
    have hstat : unlinkedOutput.stat [] false ⟨"in"⟩ = .ok (["in"], .folder) := by rfl
    have hbase : FileTree.isStandardInput ⟨"in"⟩ = false := by decide
    simp only [classFiles, FileTree.walkFiles, FileTree.walk, hstat, hbase, hunder]
    rfl
  exact ⟨by rfl, hguard, hreset, by rfl, hlisted⟩

/-- An output path that leads through a link in its own folder and back leads elsewhere once the link
    is gone. A run makes a folder instead of the link, and the path then leads to the folder above: the
    same run once more is refused, although only what is below the output folder has changed. -/
theorem perform_not_repeated :
    let settings : Settings := ⟨⟨"in"⟩, roundabout, [], false⟩
    let e := perform [] "T" carelessEngine settings linkedOutput
    linkedOutput.stat [] false roundabout = .ok (["out"], .folder) ∧
      (∃ o, e.result = .ok o) ∧ AlikeBut ["out"] linkedOutput e.tree ∧
      (perform [] "T" carelessEngine settings e.tree).result =
        .error (.configuration (.outputHoldsInput roundabout ⟨"in"⟩)) := by
  intro settings e
  have hstat : linkedOutput.stat [] false roundabout = .ok (["out"], .folder) :=
    ok_of_toOption (by decide +kernel)
  have hkept : (Selection.keepMarked unlinkedOutput [] "T" []).1 = .ok [] := rfl
  obtain ⟨hresult, htree, -⟩ := pastReset_linkedOutput.perform_of_nil hkept carelessEngine
  have hsame : AlikeBut ["out"] linkedOutput unlinkedOutput := by
    intro b hb
    have hlink : (["out", "link"] : Address) ≠ b := fun h => hb (h ▸ by decide)
    have hfront : (["out", "b"] : Address) ≠ b := fun h => hb (h ▸ by decide)
    have hback : (["out", "b", "c"] : Address) ≠ b := fun h => hb (h ▸ by decide)
    simp [FileTree.node?, linkedOutput, unlinkedOutput, hlink, hfront, hback, List.find?_cons]
  have hinput : Selection.checkInput unlinkedOutput [] ⟨"in"⟩ = .ok () := by rfl
  have hout : unlinkedOutput.canonical [] roundabout = .ok [] := ok_of_toOption (by decide +kernel)
  have hinp : unlinkedOutput.canonical [] ⟨"in"⟩ = .ok ["in"] := by rfl
  have hguard : guardOverlap unlinkedOutput [] ⟨"in"⟩ roundabout =
      .error (.configuration (.outputHoldsInput roundabout ⟨"in"⟩)) :=
    guardOverlap_of_canonical hout hinp
  rw [show e.tree = unlinkedOutput from htree]
  refine ⟨hstat, ⟨_, hresult⟩, hsame, ?_⟩
  rw [perform_result]
  simp only [performQuietly, settings, hinput, hguard]

end Run

end SourceRecovery
