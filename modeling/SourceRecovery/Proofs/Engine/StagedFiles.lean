import Mathlib.Data.List.Forall2
import SourceRecovery.Proofs.Engine.Launch
import SourceRecovery.Proofs.Engine.Staging
import SourceRecovery.Proofs.FileTree.StayingBelow
import SourceRecovery.Proofs.MarkedClasses

/-!
# The files of a staging folder

Inputs are staged from wherever they are, however their paths are spelled, and whatever they are to
each other.

* `StagedAs`: the names that an input is staged at.
* `stagedAs_of_stagedPath?`: there is at least one, and there is nothing else in the path.
* `HoldsInputs`: the folder holds one file for each input that is done.
* `HoldsInputs.stageInput`, `HoldsInputs.stageInputs`: one more input is one more file.
* `stageInput_selected`: a selected class file meets none that is staged before it.
* `stageInputs_keeps_apart`: what is staged, and why an input is not.
-/

namespace SourceRecovery.Engine

open FileTree (Adds Opens OnlyBelow HasInstead GrowsBelow)
open Selection (Listing IsHeld)

variable {t t' t₀ : FileTree} {cwd root a : Address} {inputRoot source input staged : Path}
  {inputs done rest : List Path} {files : List (Address × Bytes)} {names : Address} {content : Bytes}

/-! ## Places -/

/-- Whether an input is staged at these names. -/
def StagedAs (inputRoot input : Path) (names : Address) : Prop :=
  ∃ staged, stagedPath? inputRoot input = some staged ∧ staged.isAbsolute = false ∧
    staged.components = names.map .name ∧ names ≠ []

theorem stagedAs_of_stagedPath? (h : stagedPath? inputRoot input = some staged) :
    StagedAs inputRoot input staged.stepNames := by
  have hrelative := (stagedPath?_stays h).1
  have hcomponents := Path.components_eq_names (stagedPath?_names h)
  refine ⟨staged, h, hrelative, hcomponents, ?_⟩
  intro hnil
  rw [hnil] at hcomponents
  have htext := (Option.filter_eq_some_iff.1 h).2
  rw [Path.bytes_eq_nil_of_components hrelative hcomponents] at htext
  cases htext

/-! ## One input -/

/-- What is done for an input that is staged. -/
theorem stageInput_eq_ok (h : stageInput cwd inputRoot source input t = (.ok (), t')) :
    ∃ staged t₁ b content, stagedPath? inputRoot input = some staged ∧
      t.pathExists cwd (source.join staged) = false ∧
      t.makeFolders cwd ((source.join staged).parent?.getD ⟨[]⟩) = (.ok (), t₁) ∧
      t₁.stat cwd true input = .ok (b, .file content) ∧
      t₁.write cwd (source.join staged) content = (.ok (), t') := by
  rw [stageInput] at h
  cases hstaged : stagedPath? inputRoot input with
  | none =>
    rw [hstaged] at h
    cases (Prod.mk.inj h).1
  | some staged =>
    simp only [hstaged] at h
    split at h
    · cases (Prod.mk.inj h).1
    · rename_i hnew
      split at h
      · cases (Prod.mk.inj h).1
      · rename_i t₁ hmade
        split at h
        · cases (Prod.mk.inj h).1
        · rename_i t₂ hcopied
          obtain ⟨-, rfl⟩ := Prod.mk.inj h
          rw [FileTree.copy] at hcopied
          split at hcopied
          · cases (Prod.mk.inj hcopied).1
          · rename_i b content hstat
            exact ⟨staged, t₁, b, content, rfl, Bool.eq_false_iff.2 hnew, hmade, hstat, hcopied⟩
          · cases (Prod.mk.inj hcopied).1

/-- Whether the folder at `root` holds one file for each of these inputs, at the names that the input is
    staged at and with what the input holds, and no other file. -/
structure HoldsInputs (cwd : Address) (inputRoot : Path) (root : Address) (t : FileTree)
    (inputs : List Path) (files : List (Address × Bytes)) : Prop where
  each : List.Forall₂ (fun input f => StagedAs inputRoot input f.1 ∧
    ∃ b, t.stat cwd true input = .ok (b, .file f.2)) inputs files
  nodup : (files.map Prod.fst).Nodup
  held : ∀ names content, t.node? (root ++ names) = some (.file content) ↔ (names, content) ∈ files

/-- One more input is one more file, and nothing else changes but for new folders. -/
theorem HoldsInputs.stageInput (h : HoldsInputs cwd inputRoot root t done files)
    (hopens : Opens t cwd source root)
    (hok : Engine.stageInput cwd inputRoot source input t = (.ok (), t')) :
    t.Within t' ∧ Opens t' cwd source root ∧
      ∃ f, HoldsInputs cwd inputRoot root t' (done ++ [input]) (files ++ [f]) := by
  obtain ⟨staged, t₁, b, content, hstaged, hnew, hmade, hread, hwrite⟩ := stageInput_eq_ok hok
  obtain ⟨hrelative, hup⟩ := stagedPath?_stays hstaged
  have hgrow : GrowsBelow root t t₁ := by
    have hbelow := FileTree.makeFolders_below hopens hrelative hup
    rwa [hmade] at hbelow
  obtain ⟨hne, hnone, hinstead⟩ := FileTree.write_new hopens hrelative hup hnew hgrow hwrite
  have hwithin₁ : t₁.Within t' := by
    intro c n hn
    rw [hinstead c, if_neg, hn]
    rintro rfl
    rw [hnone] at hn
    cases hn
  have hwithin : t.Within t' := hgrow.within.trans hwithin₁
  refine ⟨hwithin, (hopens.grow hgrow).hasInstead (by simp [hnone]) hinstead,
    (staged.stepNames, content), ?_, ?_, ?_⟩
  · have hdone := h.each.imp fun p f hpf =>
      (⟨hpf.1, hpf.2.imp fun c hc => FileTree.stat_within hc hwithin⟩ :
        StagedAs inputRoot p f.1 ∧ ∃ b, t'.stat cwd true p = .ok (b, .file f.2))
    have hread' := FileTree.stat_within hread hwithin₁
    exact List.rel_append hdone (.cons ⟨stagedAs_of_stagedPath? hstaged, b, hread'⟩ .nil)
  · rw [List.map_append, List.nodup_append]
    refine ⟨h.nodup, by simp, ?_⟩
    intro names hnames names' hnames' heq
    obtain rfl := List.mem_singleton.1 hnames'
    obtain ⟨f, hf, rfl⟩ := List.mem_map.1 hnames
    have hold := hgrow.node?_some ((h.held f.1 f.2).2 hf)
    rw [heq, hnone] at hold
    cases hold
  · intro names c
    rw [hinstead, List.mem_append, List.mem_singleton, ← h.held, ← hgrow.file_iff]
    by_cases hnames : names = staged.stepNames
    · subst hnames
      simp [hnone]
      exact eq_comm
    · simp [hnames]

/-- Inputs that are staged are one file each. -/
theorem HoldsInputs.stageInputs (h : HoldsInputs cwd inputRoot root t done files)
    (hopens : Opens t cwd source root)
    (hok : Engine.stageInputs cwd inputRoot source rest t = (.ok (), t')) :
    t.Within t' ∧ Opens t' cwd source root ∧
      ∃ files', HoldsInputs cwd inputRoot root t' (done ++ rest) files' := by
  induction rest generalizing done files t with
  | nil =>
    obtain ⟨-, rfl⟩ := Prod.mk.inj hok
    exact ⟨.refl t, hopens, files, by rwa [List.append_nil]⟩
  | cons input rest ih =>
    rw [Engine.stageInputs] at hok
    split at hok
    · cases (Prod.mk.inj hok).1
    · rename_i t₁ hstaged
      obtain ⟨hwithin, hopens', f, hmore⟩ := h.stageInput hopens hstaged
      obtain ⟨hwithin', hopens'', files', hall⟩ := ih hmore hopens' hok
      exact ⟨hwithin.trans hwithin', hopens'', files', by rwa [List.append_cons]⟩

/-- Where an input is staged, as far as paths are told apart. -/
def stagedPlace? (inputRoot input : Path) : Option (List Path.Component) :=
  (stagedPath? inputRoot input).map Path.components

theorem stagedPlace?_eq (h : StagedAs inputRoot input names) :
    stagedPlace? inputRoot input = some (names.map .name) := by
  obtain ⟨staged, hstaged, -, hcomponents, -⟩ := h
  rw [stagedPlace?, hstaged, Option.map_some, hcomponents]

/-- Inputs that are staged have different places. -/
theorem HoldsInputs.nodup_places (h : HoldsInputs cwd inputRoot root t inputs files) :
    (inputs.map (stagedPlace? inputRoot)).Nodup := by
  have hplaces : inputs.map (stagedPlace? inputRoot) =
      (files.map Prod.fst).map fun names => some (names.map Path.Component.name) := by
    rw [List.map_map, ← List.forall₂_eq_eq_eq, List.forall₂_map_left_iff, List.forall₂_map_right_iff]
    exact h.each.imp fun p f hpf => stagedPlace?_eq hpf.1
  rw [hplaces]
  refine List.pairwise_map.2 (h.nodup.imp fun hne heq => hne ?_)
  exact List.map_injective_iff.2 (fun _ _ => Path.Component.name.inj) (Option.some.inj heq)

/-! ## Selected class files -/

/-- Whether it is the system that keeps an input from being staged. -/
def StagingFault.IsOfSystem : StagingFault → Prop
  | .noFolder _ _ | .notCopied _ _ => True
  | .nameless _ | .collision _ => False

/-- Why an input is not staged. -/
theorem stageInput_eq_error {fault : StagingFault}
    (h : stageInput cwd inputRoot source input t = (.error fault, t')) : fault.IsOfSystem ∨
      stagedPath? inputRoot input = none ∨ ∃ staged, stagedPath? inputRoot input = some staged ∧
        t.pathExists cwd (source.join staged) = true := by
  rw [stageInput] at h
  cases hstaged : stagedPath? inputRoot input with
  | none => exact .inr (.inl rfl)
  | some staged =>
    simp only [hstaged] at h
    split at h
    · exact .inr (.inr ⟨staged, rfl, ‹_›⟩)
    · left
      split at h
      · obtain ⟨hfault, -⟩ := Prod.mk.inj h
        rw [← Except.error.inj hfault]
        trivial
      · split at h
        · obtain ⟨hfault, -⟩ := Prod.mk.inj h
          rw [← Except.error.inj hfault]
          trivial
        · cases (Prod.mk.inj h).1

/-- A file below the input root is staged at its path from there, unless the system fails, if it stands
    in no other one's way. -/
theorem stageInput_selected (hopens : Opens t₀ cwd source root)
    (hempty : ∀ b, root <+: b → b ≠ root → t₀.node? b = none) (hadds : Adds root files t₀ t)
    (htext : inputRoot.bytes ≠ []) (hplain : ∀ w ∈ names, Path.IsPlain w) (hne : names ≠ [])
    (hnil : ∀ e ∈ files, e.1 ≠ []) (hapart : ∀ e ∈ files, ¬ e.1 <+: names ∧ ¬ names <+: e.1) :
    match stageInput cwd inputRoot source (inputRoot.descend names) t with
    | (.error fault, _) => fault.IsOfSystem
    | (.ok (), t') => ∃ content, Adds root (files ++ [(names, content)]) t₀ t' := by
  have hfiles : ∀ e ∈ files, FileTree.FreeBelow t₀ root e.1 := fun e he =>
    FileTree.freeBelow_of_empty hempty (hnil e he)
  have hfree := FileTree.freeBelow_of_empty hempty hne
  have hopens' := hopens.extend (hadds.extends hopens.node?_root hfiles)
  have htarget : source.join (Path.ofPieces names) = source.descend names :=
    Path.join_ofPieces source hplain hne
  have hplace : stagedPath? inputRoot (inputRoot.descend names) = some (Path.ofPieces names) :=
    stagedPath?_descend htext hplain hne
  have hnew := FileTree.pathExists_descend hopens' hplain hne
    (hadds.free hfree fun e he => (hapart e he).2)
  split
  · rename_i fault t' hstaged
    rcases stageInput_eq_error hstaged with hsystem | hnone | ⟨staged, hsome, hexists⟩
    · exact hsystem
    · rw [hplace] at hnone
      cases hnone
    · obtain rfl := Option.some.inj (hplace.symm.trans hsome)
      rw [htarget, hnew] at hexists
      cases hexists
  · rename_i t' hstaged
    obtain ⟨staged, t₁, b, content, hsome, -, hmade, -, hwrite⟩ := stageInput_eq_ok hstaged
    obtain rfl := Option.some.inj (hplace.symm.trans hsome)
    rw [htarget] at hmade hwrite
    have hopens₁ : Opens t₁ cwd source root := by
      obtain ⟨front, w, rfl⟩ := Path.exists_concat hne
      have hgrow := FileTree.makeFolders_grows hopens'
        (fun v hv => hplain v (List.mem_append_left [w] hv)) (hplain w (by simp))
      rw [hmade] at hgrow
      exact hopens'.grow hgrow
    rcases FileTree.write_descend hopens₁ hplain hne content with ⟨fault, hfault⟩ | ⟨-, -, hfollowed, -⟩
    · rw [hwrite] at hfault
      cases (Prod.mk.inj hfault).1
    · obtain ⟨t₁', t'', hmade', -, hwrite', hadds'⟩ :=
        hadds.store hopens hfiles hplain hfollowed hfree hapart content
      obtain ⟨-, rfl⟩ := Prod.mk.inj (hmade.symm.trans hmade')
      obtain ⟨-, rfl⟩ := Prod.mk.inj (hwrite.symm.trans hwrite')
      exact ⟨content, hadds'⟩

/-- Files below the input root that stand in no other one's way are staged, up to one at which the system
    fails. -/
theorem stageInputs_selected {rest : List Address} (hopens : Opens t₀ cwd source root)
    (hempty : ∀ b, root <+: b → b ≠ root → t₀.node? b = none) (hadds : Adds root files t₀ t)
    (htext : inputRoot.bytes ≠ [])
    (hrest : ∀ names ∈ rest, names ≠ [] ∧ ∀ w ∈ names, Path.IsPlain w)
    (hnil : ∀ e ∈ files, e.1 ≠ [])
    (hapart : (files.map Prod.fst ++ rest).Pairwise fun v w => ¬ v <+: w ∧ ¬ w <+: v)
    {fault : StagingFault}
    (h : (stageInputs cwd inputRoot source (rest.map inputRoot.descend) t).1 = .error fault) :
    fault.IsOfSystem := by
  induction rest generalizing files t with
  | nil => cases h
  | cons names rest ih =>
    obtain ⟨⟨hne, hplain⟩, hrest'⟩ := List.forall_mem_cons.1 hrest
    have hfront : ∀ e ∈ files, ¬ e.1 <+: names ∧ ¬ names <+: e.1 := by
      intro e he
      exact (List.pairwise_append.1 hapart).2.2 e.1 (List.mem_map.2 ⟨e, he, rfl⟩) names
        List.mem_cons_self
    have hone := stageInput_selected hopens hempty hadds htext hplain hne hnil hfront
    rw [List.map_cons, stageInputs] at h
    generalize stageInput cwd inputRoot source (inputRoot.descend names) t = outcome at hone h
    obtain ⟨fault' | _, t'⟩ := outcome
    · obtain rfl := Except.error.inj h
      exact hone
    · obtain ⟨content, hadds'⟩ := hone
      refine ih hadds' hrest' ?_ ?_ h
      · intro e he
        rcases List.mem_append.1 he with he | he
        · exact hnil e he
        · rw [List.mem_singleton.1 he]
          exact hne
      · rwa [List.map_append, List.append_assoc]

/-! ## All requests -/

/-- Staging puts nothing anywhere but into its folder, which was empty. Inputs that are staged are one
    file each there, at their names and with what they hold, and everything else is found as before;
    two inputs at one place are never staged. Class files that a scan of the input root has selected are
    staged at their paths from there, and only the system keeps one from being staged. -/
theorem stageInputs_keeps_apart (hsource : t.stat cwd true source = .ok (root, .folder))
    (hempty : ∀ b, root <+: b → b ≠ root → t.node? b = none) (inputRoot : Path)
    (inputs : List Path) :
    (∀ input staged, stagedPath? inputRoot input = some staged →
      StagedAs inputRoot input staged.stepNames) ∧
    OnlyBelow root t (stageInputs cwd inputRoot source inputs t).2 ∧
    (∀ t', stageInputs cwd inputRoot source inputs t = (.ok (), t') →
      (∃ files, HoldsInputs cwd inputRoot root t' inputs files) ∧
      ∀ p found, t.stat cwd true p = .ok found → t'.stat cwd true p = .ok found) ∧
    (¬ (inputs.map (stagedPlace? inputRoot)).Nodup →
      ∃ fault, (stageInputs cwd inputRoot source inputs t).1 = .error fault) ∧
    ∀ t₀ a marker s, t₀.stat cwd true inputRoot = .ok (a, .folder) →
      (∀ names n, t₀.node? (a ++ names) = some n → ∀ w ∈ names, Path.IsPlain w) →
      (Selection.ofFolder t₀ cwd marker inputRoot).1 = .ok s → inputs = s.classes →
      (∀ input ∈ inputs, ∃ names, input = inputRoot.descend names ∧
        StagedAs inputRoot input names ∧ stagedPath? inputRoot input = inputRoot.stripBase? input) ∧
      ∀ fault, (stageInputs cwd inputRoot source inputs t).1 = .error fault → fault.IsOfSystem := by
  have hopens := FileTree.opens_of_empty hsource hempty
  have hstart : HoldsInputs cwd inputRoot root t [] [] := by
    refine ⟨.nil, .nil, fun names content => ⟨fun hfile => ?_, fun hmem => by cases hmem⟩⟩
    by_cases hnil : names = []
    · rw [hnil, List.append_nil, hopens.node?_root] at hfile
      cases hfile
    · rw [hempty _ (List.prefix_append root names) (by simpa using hnil)] at hfile
      cases hfile
  refine ⟨fun _ _ => stagedAs_of_stagedPath?, stageInputs_below hopens inputRoot inputs, ?_, ?_, ?_⟩
  · intro t' hok
    obtain ⟨hwithin, -, files, hall⟩ := hstart.stageInputs hopens hok
    exact ⟨⟨files, hall⟩, fun p found hp => FileTree.stat_within hp hwithin⟩
  · intro hsame
    cases houtcome : stageInputs cwd inputRoot source inputs t with
    | mk outcome t' =>
      cases outcome with
      | error fault => exact ⟨fault, rfl⟩
      | ok _ =>
        obtain ⟨-, -, files, hall⟩ := hstart.stageInputs hopens houtcome
        exact absurd hall.nodup_places hsame
  · rintro t₀ a marker s hstat hnames hok rfl
    obtain ⟨files, hfiles⟩ := Selection.exists_listing hstat hnames
    obtain ⟨selected, hselected, hpart⟩ := hfiles.exists_selected hstat hok
    have htext := (FileTree.reaches_of_stat hstat).1
    have hheld : ∀ f ∈ selected, IsHeld t₀ a f := fun f hf => hfiles.held f (hpart.subset hf)
    constructor
    · intro input hinput
      rw [hselected] at hinput
      obtain ⟨f, hf, rfl⟩ := List.mem_map.1 hinput
      obtain ⟨hne, hplain, -⟩ := hheld f hf
      have hplace := stagedPath?_descend htext hplain hne
      have has := stagedAs_of_stagedPath? hplace
      rw [Path.stepNames_of_components (Path.components_ofPieces hplain hne)] at has
      exact ⟨f.1, rfl, has, hplace.trans (Path.stripBase?_descend htext hplain hne).symm⟩
    · intro fault hfault
      rw [hselected, ← Function.comp_def, ← List.map_map] at hfault
      refine stageInputs_selected hopens hempty (.nil root t) htext ?_ (by simp) ?_ hfault
      · intro names hnames
        obtain ⟨f, hf, rfl⟩ := List.mem_map.1 hnames
        exact ⟨(hheld f hf).ne_nil, (hheld f hf).plain⟩
      · exact hfiles.apart.sublist (hpart.map _)

/-- An empty folder beside three class files of one name, one of them outside of the folder `in`. -/
def sameNames : FileTree where
  entries := [(["in"], .folder), (["in", "A.class"], .file [1]), (["in", "p"], .folder),
    (["in", "p", "A.class"], .file [2]), (["lib"], .folder), (["lib", "A.class"], .file [3]),
    (["staging"], .folder)]
  nodup := by decide
  rooted := by simp [FileTree.FolderIn]

/-- The two of different packages are staged. The one from elsewhere would stand where one of them
    does. -/
theorem stageInputs_keeps_apart_sameNames :
    (∃ t' files, stageInputs [] ⟨"in"⟩ ⟨"staging"⟩ [⟨"in/A.class"⟩, ⟨"in/p/A.class"⟩] sameNames =
        (.ok (), t') ∧
      HoldsInputs [] ⟨"in"⟩ ["staging"] t' [⟨"in/A.class"⟩, ⟨"in/p/A.class"⟩] files) ∧
    ∃ fault, (stageInputs [] ⟨"in"⟩ ⟨"staging"⟩ [⟨"in/A.class"⟩, ⟨"in/p/A.class"⟩, ⟨"lib/A.class"⟩]
      sameNames).1 = .error fault := by
  have hsource : sameNames.stat [] true ⟨"staging"⟩ = .ok (["staging"], .folder) := by rfl
  have hempty : ∀ b, (["staging"] : Address) <+: b → b ≠ ["staging"] → sameNames.node? b = none := by
    have hentries : ∀ e ∈ sameNames.entries, (["staging"] : Address) <+: e.1 → e.1 = ["staging"] := by
      decide
    intro b hp hne
    refine Option.eq_none_iff_forall_ne_some.2 fun n hnode => hne ?_
    have hnil : b ≠ [] := by
      rintro rfl
      exact absurd hp (by decide)
    exact hentries _ (FileTree.mem_of_node? hnil hnode) hp
  constructor
  · obtain ⟨-, -, hok, -⟩ :=
      stageInputs_keeps_apart hsource hempty ⟨"in"⟩ [⟨"in/A.class"⟩, ⟨"in/p/A.class"⟩]
    have hstaged : stageInputs [] ⟨"in"⟩ ⟨"staging"⟩ [⟨"in/A.class"⟩, ⟨"in/p/A.class"⟩] sameNames =
        (.ok (), (stageInputs [] ⟨"in"⟩ ⟨"staging"⟩ [⟨"in/A.class"⟩, ⟨"in/p/A.class"⟩]
          sameNames).2) := by
      rfl
    obtain ⟨⟨files, hfiles⟩, -⟩ := hok _ hstaged
    exact ⟨_, files, hstaged, hfiles⟩
  · obtain ⟨-, -, -, hsame, -⟩ := stageInputs_keeps_apart hsource hempty ⟨"in"⟩
      [⟨"in/A.class"⟩, ⟨"in/p/A.class"⟩, ⟨"lib/A.class"⟩]
    exact hsame (by decide)

end SourceRecovery.Engine
