import SourceRecovery.Engine.Staging
import SourceRecovery.Proofs.Engine.Places

/-!
# Staged class files

* `stagedPath?_descend`: a file below the input folder is staged at its path from there.
* `CanStage`: what staging needs.
* `CanStage.stageInput`: one class file is staged at its place.
* `CanStage.stageInputs`: so are all of them, in an empty folder, and nothing else changes.
-/

namespace SourceRecovery.Engine

open FileTree (Adds Opens FreeBelow Followed)

variable {t t₀ : FileTree} {cwd root : Address} {input source : Path} {names : List Name}
  {classes done rest : List ClassPlace} {c : ClassPlace} {content : ClassPlace → Bytes}

/-- A file below the input folder is staged at its path from there. -/
theorem stagedPath?_descend (hp : input.bytes ≠ []) (hnames : ∀ w ∈ names, Path.IsPlain w)
    (hne : names ≠ []) : stagedPath? input (input.descend names) = some (Path.ofPieces names) := by
  have hall : (Path.ofPieces names).components.all isName = true := by
    rw [Path.components_ofPieces hnames hne]
    simp [isName]
  have htext := Path.bytes_ofPieces_ne_nil hnames hne
  simp only [stagedPath?, Path.stripBase?_descend hp hnames hne, hall, if_true]
  simp [htext]

/-- What staging needs: an empty folder that the path `source` leads to, and class files of different
    places that can be read. -/
structure CanStage (t : FileTree) (cwd : Address) (input source : Path) (root : Address)
    (content : ClassPlace → Bytes) (classes : List ClassPlace) : Prop where
  opens : Opens t cwd source root
  empty : ∀ b, root <+: b → b ≠ root → t.node? b = none
  input_ne : input.bytes ≠ []
  nodup : classes.Nodup
  neat : ∀ c ∈ classes, c.IsNeat
  followed : ∀ c ∈ classes, Followed source c.names
  read : ∀ c ∈ classes, ∃ a, t.stat cwd true (input.descend c.names) = .ok (a, .file (content c))

/-- A class file is staged at its place, after those that are `done`. -/
theorem CanStage.stageInput (h : CanStage t₀ cwd input source root content classes)
    (hsplit : classes = done ++ c :: rest)
    (hadds : Adds root (done.map fun d => (d.names, content d)) t₀ t) :
    ∃ t', Engine.stageInput cwd input source (input.descend c.names) t = (.ok (), t') ∧
      Adds root ((done ++ [c]).map fun d => (d.names, content d)) t₀ t' := by
  have hc : c ∈ classes := by simp [hsplit]
  have hnames := (h.neat c hc).plain_names
  have hfree : ∀ d : ClassPlace, FreeBelow t₀ root d.names := fun d =>
    FileTree.freeBelow_of_empty h.empty d.names_ne_nil
  have hfiles : ∀ e ∈ done.map fun d => (d.names, content d), FreeBelow t₀ root e.1 := by
    intro e he
    obtain ⟨d, -, rfl⟩ := List.mem_map.1 he
    exact hfree d
  have hapart : ∀ e ∈ done.map fun d => (d.names, content d),
      ¬ e.1 <+: c.names ∧ ¬ c.names <+: e.1 := by
    intro e he
    obtain ⟨d, hd, rfl⟩ := List.mem_map.1 he
    exact ClassPlace.apart_of_nodup (fun _ => ".class") (fun _ => isEnding_class)
      (hsplit ▸ h.nodup) (hsplit ▸ h.neat) hd
  have hextends := hadds.extends h.opens.node?_root hfiles
  have htarget : source.join (Path.ofPieces c.names) = source.descend c.names :=
    Path.join_ofPieces source hnames c.names_ne_nil
  have hnew := FileTree.pathExists_descend (h.opens.extend hextends) hnames c.names_ne_nil
    (hadds.free (hfree c) fun e he => (hapart e he).2)
  obtain ⟨a, hread⟩ := h.read c hc
  obtain ⟨t₁, t', hmade, hgrow, hwrite, hadds'⟩ :=
    hadds.store h.opens hfiles hnames (h.followed c hc) (hfree c) hapart (content c)
  have hstat := FileTree.stat_within hread (hextends.trans hgrow).within
  refine ⟨t', ?_, by simpa using hadds'⟩
  simp only [Engine.stageInput, stagedPath?_descend h.input_ne hnames c.names_ne_nil, htarget, hnew,
    hmade, FileTree.copy, hstat, hwrite]
  rfl

/-- Behind an input that is staged come the others. -/
theorem stageInputs_of_ok {inputRoot p : Path} {ps : List Path} {t' : FileTree}
    (h : Engine.stageInput cwd inputRoot source p t = (.ok (), t')) :
    Engine.stageInputs cwd inputRoot source (p :: ps) t =
      Engine.stageInputs cwd inputRoot source ps t' := by
  dsimp only [Engine.stageInputs]
  rw [h]

theorem CanStage.stageInputs_rest (h : CanStage t₀ cwd input source root content classes)
    (hsplit : classes = done ++ rest)
    (hadds : Adds root (done.map fun d => (d.names, content d)) t₀ t) :
    ∃ t', Engine.stageInputs cwd input source (rest.map fun c => input.descend c.names) t =
        (.ok (), t') ∧
      Adds root (classes.map fun d => (d.names, content d)) t₀ t' := by
  induction rest generalizing done t with
  | nil =>
    rw [List.append_nil] at hsplit
    exact ⟨t, rfl, hsplit ▸ hadds⟩
  | cons c rest ih =>
    obtain ⟨t', hstaged, hadds'⟩ := h.stageInput hsplit hadds
    obtain ⟨t'', hrest, hall⟩ := ih (by simp [hsplit]) hadds'
    refine ⟨t'', ?_, hall⟩
    rw [List.map_cons, stageInputs_of_ok hstaged, hrest]

/-- The class files are staged, each at its place, and nothing else changes. -/
theorem CanStage.stageInputs (h : CanStage t cwd input source root content classes) :
    ∃ t', Engine.stageInputs cwd input source (classes.map fun c => input.descend c.names) t =
        (.ok (), t') ∧
      Adds root (classes.map fun d => (d.names, content d)) t t' :=
  h.stageInputs_rest (List.nil_append classes).symm (.nil root t)

end SourceRecovery.Engine
