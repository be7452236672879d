import SourceRecovery.Proofs.Run.Reset
import SourceRecovery.Proofs.Run.Verdict

/-!
# Runs that are not possible as they were asked for

A run that is refused for what it was asked to do has not called its engine, and has left the tree as
it was unless the input was lost with the old output folder.

* `PastReset.ne_configuration`: a run that gets past the reset is not refused any more.
* `isFolder_of_reset`: an input that outlasts the removal of the old output folder outlasts the reset.
* `performQuietly_of_configuration`: the two places where a run is refused.
* `perform_configuration`: what a refused run has done.
* `perform_loses_linked`: an input behind a link in the output folder is lost with it.
-/

namespace SourceRecovery.Run

open Selection (checkInput_eq_ok keepMarked_error)

variable {t t₁ : FileTree} {cwd : Address} {marker : String} {files : List Path}
  {settings : Settings} {engine : Engine} {fault : ConfigurationFault}

/-- A run that can list its class files ends with an outcome or another error. -/
theorem PastReset.ne_configuration (h : PastReset cwd settings t t₁ files) :
    (perform cwd marker engine settings t).result ≠ .error (.configuration fault) := by
  intro hresult
  cases hkept : (Selection.keepMarked t₁ cwd marker files).1 with
  | error e =>
    obtain ⟨file, cause, rfl⟩ := keepMarked_error hkept
    rw [(h.perform_of_error hkept engine).1] at hresult
    cases hresult
  | ok selected =>
    by_cases hnil : selected = []
    · rw [hnil] at hkept
      rw [(h.perform_of_nil hkept engine).1] at hresult
      cases hresult
    · have hdecided := (h.perform_of_ne_nil hkept hnil engine).2
      rw [hresult] at hdecided
      rcases hdecided.result_cases with ⟨target, cause, h⟩ | ⟨failure, h⟩ | ⟨outcome, h⟩ <;> cases h

/-- A run that gets past the reset is refused only if its input is gone by then. -/
theorem again_of_configuration (hinput : Selection.checkInput t cwd settings.input = .ok ())
    (hguard : guardOverlap t cwd settings.input settings.output = .ok ())
    (hreset : resetOutput t cwd settings.output = (.ok (), t₁))
    (h : (perform cwd marker engine settings t).result = .error (.configuration fault)) :
    ∃ e, Selection.checkInput t₁ cwd settings.input = .error e := by
  cases hagain : Selection.checkInput t₁ cwd settings.input with
  | error e => exact ⟨e, rfl⟩
  | ok _ =>
    cases hfiles : classFiles t₁ cwd settings.input with
    | ok files => exact absurd h (PastReset.ne_configuration ⟨hinput, hguard, hreset, hagain, hfiles⟩)
    | error walkFault =>
      have hend : (perform cwd marker engine settings t).result =
          .error (.scan settings.input (listingFailure walkFault)) := by
        rw [perform_result]
        simp only [performQuietly, hinput, hguard, hreset, afterReset, Selection.ofFolder, hagain,
          hfiles]
      rw [hend] at h
      cases h

/-- An input that is still there once the old output folder is removed is there after the reset. -/
theorem isFolder_of_reset {input output : Path}
    (hreset : resetOutput t cwd output = (.ok (), t₁))
    (hkept : (removeOutput t cwd output).2.isFolder cwd input = true) :
    t₁.isFolder cwd input = true := by
  obtain ⟨t₀, hremove, hmake⟩ := resetOutput_eq_ok hreset
  have hadds := FileTree.makeFoldersUpTo_adds t₀ cwd (output.slashPieces.length + 1) output
  rw [hremove] at hkept
  rw [show t₀.makeFoldersUpTo cwd (output.slashPieces.length + 1) output = (.ok (), t₁) from hmake]
    at hadds
  exact FileTree.isFolder_within hkept hadds.within

/-- A refused run ends alike for every engine: with nothing touched, or behind a reset that left its
    input nowhere. -/
theorem performQuietly_of_configuration
    (h : (perform cwd marker engine settings t).result = .error (.configuration fault)) :
    (∃ e, ∀ engine', performQuietly cwd marker engine' settings t =
      ⟨.error e, t, opening settings⟩) ∨
    ∃ t₁ e, t.isFolder cwd settings.input = true ∧
      resetOutput t cwd settings.output = (.ok (), t₁) ∧
      t₁.isFolder cwd settings.input ≠ true ∧
      ∀ engine', performQuietly cwd marker engine' settings t =
        ⟨.error e, t₁, opening settings ++ []⟩ := by
  cases hinput : Selection.checkInput t cwd settings.input with
  | error e =>
    refine .inl ⟨e, fun engine' => ?_⟩
    simp only [performQuietly, hinput, opening]
  | ok _ =>
    cases hguard : guardOverlap t cwd settings.input settings.output with
    | error e =>
      refine .inl ⟨e, fun engine' => ?_⟩
      simp only [performQuietly, hinput, hguard, opening]
    | ok _ =>
      right
      obtain ⟨t₁, hreset⟩ : ∃ t₁, resetOutput t cwd settings.output = (.ok (), t₁) := by
        cases hreset : resetOutput t cwd settings.output with
        | mk answer t₁ =>
          cases answer with
          | ok _ => exact ⟨t₁, rfl⟩
          | error e =>
            obtain ⟨cause, rfl⟩ := resetOutput_eq_error hreset
            rw [perform_result] at h
            simp only [performQuietly, hinput, hguard, hreset] at h
            cases h
      obtain ⟨e, hagain⟩ := again_of_configuration hinput hguard hreset h
      refine ⟨t₁, e, checkInput_eq_ok.1 hinput, hreset, fun hthere => ?_, fun engine' => ?_⟩
      · rw [checkInput_eq_ok.2 hthere] at hagain
        cases hagain
      · simp only [performQuietly, hinput, hguard, hreset, afterReset, Selection.ofFolder, hagain,
          opening]

/-- A run that is refused has not called its engine: no other engine would have made a difference. It
    has changed nothing, or else it has taken its own input away, and that only if removing the old
    output folder does. Every folder of a tree can be listed; an input whose access rights forbid that
    would be refused before anything is changed. -/
theorem perform_configuration
    (h : (perform cwd marker engine settings t).result = .error (.configuration fault)) :
    (∀ engine', perform cwd marker engine' settings t = perform cwd marker engine settings t) ∧
    ((perform cwd marker engine settings t).tree = t ∨
      t.isFolder cwd settings.input = true ∧
        (perform cwd marker engine settings t).tree.isFolder cwd settings.input = false) ∧
    ((t.isFolder cwd settings.input = true →
        (removeOutput t cwd settings.output).2.isFolder cwd settings.input = true) →
      (perform cwd marker engine settings t).tree = t) := by
  rcases performQuietly_of_configuration h with ⟨e, hend⟩ | ⟨t₁, e, hinput, hreset, hgone, hend⟩
  · obtain ⟨-, htree, hsame⟩ := perform_of_fixed hend engine
    exact ⟨hsame, .inl htree, fun _ => htree⟩
  · obtain ⟨-, htree, hsame⟩ := perform_of_fixed hend engine
    refine ⟨hsame, .inr ⟨hinput, ?_⟩, fun hkept => ?_⟩
    · rw [htree]
      exact Bool.eq_false_iff.2 hgone
    · -- what is gone after the reset was gone after the removal, since folders are only added then
      exact absurd (isFolder_of_reset hreset (hkept hinput)) hgone

theorem perform_configuration_oneClass :
    (perform [] "T" carelessEngine ⟨⟨"gone"⟩, ⟨"in"⟩, [], false⟩ oneClass).result =
        .error (.configuration (.inputInaccessible ⟨"gone"⟩ .notFound)) ∧
      (perform [] "T" carelessEngine ⟨⟨"gone"⟩, ⟨"in"⟩, [], false⟩ oneClass).tree = oneClass := by
  have hresult : (perform [] "T" carelessEngine ⟨⟨"gone"⟩, ⟨"in"⟩, [], false⟩ oneClass).result =
      .error (.configuration (.inputInaccessible ⟨"gone"⟩ .notFound)) := by
    rfl
  have hgone : oneClass.isFolder [] ⟨"gone"⟩ = false := by rfl
  refine ⟨hresult, (perform_configuration hresult).2.2 ?_⟩
  intro hthere
  rw [hgone] at hthere
  cases hthere

/-- A tree whose folder `out` holds a link to the folder `data`, and a file. -/
def linkedInput : FileTree where
  entries := [(["data"], .folder), (["out"], .folder), (["out", "link"], .link "../data"),
    (["out", "old.txt"], .file [0x6F])]
  nodup := by decide
  rooted := by simp [FileTree.FolderIn]

/-- An input that is reached by a link in the output folder passes every check, is lost with the link,
    and is refused once everything in the output folder is gone. -/
theorem perform_loses_linked :
    (perform [] "T" carelessEngine ⟨⟨"out/link"⟩, ⟨"out"⟩, [], false⟩ linkedInput).result =
      .error (.configuration (.inputInaccessible ⟨"out/link"⟩ .notFound)) ∧
    linkedInput.node? ["out", "old.txt"] = some (.file [0x6F]) ∧
    (perform [] "T" carelessEngine ⟨⟨"out/link"⟩, ⟨"out"⟩, [], false⟩ linkedInput).tree.node?
      ["out", "old.txt"] = none :=
  ⟨by rfl, by rfl, by rfl⟩

end SourceRecovery.Run
