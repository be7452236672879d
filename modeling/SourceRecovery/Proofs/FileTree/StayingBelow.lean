import SourceRecovery.Proofs.FileTree.Joined
import SourceRecovery.Proofs.FileTree.Making
import SourceRecovery.Proofs.FileTree.Remaking

/-!
# What stays below a folder

A path that is joined to one that leads to a folder without links, and goes nowhere up, may be spelled
in many ways. Whatever is made or written for it comes to stand below that folder.

* `OnlyBelow`: trees differ below an address only.
* `vacant_below`: where such a path leads to nothing, that is where its names say.
* `makeFoldersUpTo_below`: folders on its way are made below the folder.
* `write_join`, `copy_below`: so is the file that it names.
* `Ends.of_file`: a file that was there before folders were made is found as before.
* `write_new`: a file that is written where the path led to nothing is new.
-/

namespace SourceRecovery.FileTree

variable {t t' t'' : FileTree} {cwd cur root a : Address} {output p q : Path} {names : List Name}
  {steps more : List Step} {links : Nat} {slash s : Bool} {content : Bytes}

/-! ## Trees that differ below a folder only -/

/-- Whether trees hold the same everywhere but below an address. -/
def OnlyBelow (root : Address) (t t' : FileTree) : Prop :=
  ∀ a, ¬ (root <+: a ∧ a ≠ root) → t'.node? a = t.node? a

theorem OnlyBelow.refl (root : Address) (t : FileTree) : OnlyBelow root t t :=
  fun _ _ => rfl

theorem OnlyBelow.trans (h : OnlyBelow root t t') (h' : OnlyBelow root t' t'') :
    OnlyBelow root t t'' :=
  fun a ha => (h' a ha).trans (h a ha)

theorem OnlyBelow.of_append (h : OnlyBelow (root ++ names) t t') : OnlyBelow root t t' := by
  refine fun a ha => h a fun ⟨hp, hne⟩ => ha ⟨(List.prefix_append root names).trans hp, ?_⟩
  rintro rfl
  exact hne ((List.prefix_append a names).eq_of_length_le hp.length_le)

/-- Where nothing was below the address, everything is still there. -/
theorem OnlyBelow.within (h : OnlyBelow root t t')
    (hempty : ∀ b, root <+: b → b ≠ root → t.node? b = none) : t.Within t' := by
  intro b n hn
  rw [h b, hn]
  rintro ⟨hp, hne⟩
  rw [hempty b hp hne] at hn
  cases hn

theorem GrowsBelow.onlyBelow (h : GrowsBelow root t t') : OnlyBelow root t t' :=
  fun _ => h.node?_outside

theorem HasInstead.onlyBelow (h : HasInstead (root ++ names) content t t') (hne : names ≠ []) :
    OnlyBelow root t t' := by
  intro a ha
  rw [h a, if_neg]
  rintro rfl
  exact ha ⟨List.prefix_append root names, by simpa using hne⟩

/-! ## Where a joined path leads -/

/-- Where steps that go nowhere up, through folders without links, lead to nothing, that is at the
    address that their names spell, in a folder. -/
theorem vacant_below (hlinkless : t.Linkless root) (hup : .up ∉ steps) (hcur : root <+: cur)
    (hfolder : t.node? cur = some .folder)
    (h : walkLinks t true links cur steps slash = .ok (.vacant a s)) :
    steps.filterMap Step.name? ≠ [] ∧ a = cur ++ steps.filterMap Step.name? ∧ t.node? a = none ∧
      t.node? a.dropLast = some .folder := by
  induction steps generalizing cur with
  | nil =>
    rw [walkLinks_nil, hfolder] at h
    cases h
  | cons step rest ih =>
    have hup' : .up ∉ rest := fun hmem => hup (List.mem_cons_of_mem _ hmem)
    cases step with
    | here =>
      rw [walkLinks_here] at h
      exact ih hup' hcur hfolder h
    | up => exact absurd List.mem_cons_self hup
    | enter name =>
      have hcur' : root <+: cur ++ [name] := hcur.trans (List.prefix_append _ _)
      have hnames : (Step.enter name :: rest).filterMap Step.name? =
          name :: rest.filterMap Step.name? := rfl
      rw [hnames]
      refine ⟨List.cons_ne_nil _ _, ?_⟩
      by_cases hsize : name.length ≤ 255
      · cases hnode : t.node? (cur ++ [name]) with
        | none =>
          rw [walkLinks_none hsize hnode] at h
          split at h
          · rename_i hlast
            obtain rfl : rest = [] := List.isEmpty_iff.1 hlast
            obtain ⟨rfl, -⟩ := Place.vacant.inj (Except.ok.inj h)
            exact ⟨rfl, hnode, by rwa [List.dropLast_concat]⟩
          · cases h
        | some n =>
          cases n with
          | folder =>
            rw [walkLinks_folder hsize hnode] at h
            obtain ⟨-, ha, hnone⟩ := ih hup' hcur' hnode h
            rw [List.append_assoc] at ha
            exact ⟨ha, hnone⟩
          | file content =>
            rw [walkLinks_file hsize hnode] at h
            split at h <;> cases h
          | link target => exact absurd hnode (hlinkless _ target hcur')
      · rw [walkLinks_tooLong (by omega)] at h
        cases h

/-- A path that is joined to one that leads to a folder is walked from there. -/
theorem resolve_join {left : Nat}
    (h : Reaches t linkLimit (output.origin cwd) output.steps left root) (hq : q.isAbsolute = false)
    (husable : (output.join q).unusable? = none) : t.resolve cwd true (output.join q) =
      walkLinks t true left root q.steps (output.join q).endsInSlash := by
  rw [resolve, husable]
  show walkLinks t true linkLimit _ _ _ = _
  rw [Path.origin_join hq, Path.steps_join hq, walkLinks_append h]

/-! ## What is made there -/

/-- On the way of a joined path that goes nowhere up, one folder is made at most, below the folder
    that the path in front leads to. -/
theorem makeFolder_below (h : Opens t cwd output root) (horigin : p.origin cwd = output.origin cwd)
    (hsteps : p.steps <+: output.steps ++ more) (hup : .up ∉ more) :
    GrowsBelow root t (t.makeFolder cwd p).2 := by
  obtain ⟨left, hleft⟩ := h.reaches
  rcases makeFolder_cases t cwd p with ⟨folder, name, hlocate, hnone, hmake⟩ | ⟨fault, hmake, -⟩
  · have hno : ∀ b, ¬ t.LeadsTo cwd p b := fun b => not_leadsTo_of_locate hlocate (.refl t) hnone
    obtain ⟨init, n, hlast, -, hwalk⟩ := locate_eq_name hlocate
    rcases List.prefix_or_prefix_of_prefix hsteps (List.prefix_append output.steps more) with
      ⟨behind, hbehind⟩ | ⟨front, hfront⟩
    · -- the path in front has been here
      rw [← hbehind] at hleft
      rcases hleft.front with ⟨left', b, hb⟩ | hstays
      · rw [← horigin] at hb
        exact absurd ⟨left', hb⟩ (hno b)
      · exact absurd rfl (hstays (.enter name) (by simp [hlast]) name)
    · have hfrontUp : .up ∉ front := by
        rw [← hfront, List.prefix_append_right_inj] at hsteps
        exact fun hmem => hup (hsteps.subset hmem)
      by_cases hnil : front = []
      · rw [hnil, List.append_nil] at hfront
        rw [hfront, ← horigin] at hleft
        exact absurd ⟨left, hleft⟩ (hno root)
      · obtain ⟨front, last, rfl⟩ : ∃ init last, front = init ++ [last] :=
          ⟨_, _, (List.dropLast_concat_getLast hnil).symm⟩
        rw [hlast, ← List.append_assoc] at hfront
        obtain ⟨rfl, -⟩ := List.append_inj' hfront rfl
        rw [horigin, walkLinks_append hleft] at hwalk
        have hbelow := (ends_of_walkLinks hwalk).stays_below h.linkless
          (fun hmem => hfrontUp (List.mem_append_left _ hmem)) (List.prefix_refl root)
        rw [hmake]
        refine growsBelow_place (hbelow.trans (List.prefix_append _ _)) ?_ hnone
        rintro rfl
        exact absurd hbelow.length_le (by simp)
  · rw [hmake]
    exact .refl root t

/-- Folders on the way of a joined path that goes nowhere up are made below the folder that the path
    in front leads to. -/
theorem makeFoldersUpTo_below (n : Nat) (h : Opens t cwd output root)
    (horigin : p.origin cwd = output.origin cwd) (hsteps : p.steps <+: output.steps ++ more)
    (hup : .up ∉ more) : GrowsBelow root t (t.makeFoldersUpTo cwd n p).2 := by
  induction n generalizing p with
  | zero =>
    rw [makeFoldersUpTo, ensureFolder_snd]
    exact makeFolder_below h horigin hsteps hup
  | succ n ih =>
    rcases makeFoldersUpTo_succ t cwd n p with heq | heq | ⟨q, -, hq, heq⟩
    · rw [heq]
      exact .refl root t
    · rw [heq]
      exact makeFolder_below h horigin hsteps hup
    · have hgrow : GrowsBelow root t (t.makeFoldersUpTo cwd n q).2 := by
        by_cases htext : q.bytes = []
        · rw [makeFoldersUpTo_of_empty htext]
          exact .refl root t
        · refine ih ?_ ((Path.steps_prefix_of_parent? hq htext).trans hsteps)
          rw [← horigin, Path.origin, Path.origin, Path.isAbsolute_of_parent? hq htext]
      rcases heq with heq | heq
      · rw [heq]
        exact hgrow
      · rw [heq]
        exact hgrow.trans (makeFolder_below (h.grow hgrow) horigin hsteps hup)

/-- The folders in front of a joined path that goes nowhere up are made below the folder that the path
    in front leads to. -/
theorem makeFolders_below (h : Opens t cwd output root) (hq : q.isAbsolute = false)
    (hup : .up ∉ q.steps) :
    GrowsBelow root t (t.makeFolders cwd ((output.join q).parent?.getD ⟨[]⟩)).2 := by
  have hnothing : GrowsBelow root t (t.makeFolders cwd ⟨[]⟩).2 := by
    rw [makeFolders, makeFoldersUpTo_of_empty rfl]
    exact .refl root t
  cases hparent : (output.join q).parent? with
  | none => exact hnothing
  | some p =>
    rw [Option.getD_some]
    by_cases htext : p.bytes = []
    · obtain ⟨text⟩ := p
      obtain rfl : text = [] := htext
      exact hnothing
    · refine makeFoldersUpTo_below _ h ?_ ?_ hup
      · rw [Path.origin, Path.isAbsolute_of_parent? hparent htext, ← Path.origin,
          Path.origin_join hq]
      · rw [← Path.steps_join hq]
        exact Path.steps_prefix_of_parent? hparent htext

/-- A file is written to the address that the names of the joined path spell, where there was nothing
    or another file, or nothing changes. -/
theorem write_join {left : Nat} (h : Opens t cwd output root)
    (hleft : Reaches t linkLimit (output.origin cwd) output.steps left root)
    (hq : q.isAbsolute = false) (hup : .up ∉ q.steps) (content : Bytes) :
    (∃ fault, t.write cwd (output.join q) content = (.error fault, t)) ∨
      ∃ t', t.write cwd (output.join q) content = (.ok (), t') ∧ (output.join q).unusable? = none ∧
        q.stepNames ≠ [] ∧ HasInstead (root ++ q.stepNames) content t t' ∧
        (t.node? (root ++ q.stepNames) = none ∨
          ∃ old, Ends t true left root q.steps (output.join q).endsInSlash (root ++ q.stepNames)
            (.file old)) := by
  rcases write_cases t cwd (output.join q) content with herror | ⟨a, hwrite, husable, hplace⟩
  · exact .inl herror
  · right
    refine ⟨_, hwrite, husable, ?_⟩
    rw [resolve_join hleft hq husable] at hplace
    rcases hplace with ⟨old, hwalk⟩ | hwalk
    · have hends := ends_of_walkLinks hwalk
      have hnode := hends.node?_end
      obtain rfl : a = root ++ q.stepNames := hends.eq_names h.linkless hup (List.prefix_refl root)
      have hne : q.stepNames ≠ [] := by
        intro hnil
        rw [hnil, List.append_nil, h.node?_root] at hnode
        cases hnode
      exact ⟨hne, fun b => node?_place (by simp [hne]) (node?_dropLast hnode) (by simp [hnode]),
        .inr ⟨old, hends⟩⟩
    · obtain ⟨hne, ha, hnone, hfolder⟩ :=
        vacant_below h.linkless hup (List.prefix_refl root) h.node?_root hwalk
      obtain rfl : a = root ++ q.stepNames := ha
      have hnil : root ++ q.stepNames ≠ [] := List.append_ne_nil_of_right_ne_nil root hne
      exact ⟨hne, fun b => node?_place hnil hfolder (by simp [hnone]), .inl hnone⟩

/-- Whatever is copied, it comes to stand below the folder that the path in front leads to. -/
theorem copy_below (h : Opens t cwd output root) (hq : q.isAbsolute = false) (hup : .up ∉ q.steps)
    (source : Path) : OnlyBelow root t (t.copy cwd source (output.join q)).2 ∧
      Opens (t.copy cwd source (output.join q)).2 cwd output root := by
  rw [copy]
  split
  · exact ⟨.refl root t, h⟩
  · rename_i content _
    obtain ⟨left, hleft⟩ := h.reaches
    rcases write_join h hleft hq hup content with
      ⟨fault, hwrite⟩ | ⟨t', hwrite, -, hne, hinstead, hway⟩
    · rw [hwrite]
      exact ⟨.refl root t, h⟩
    · have hfree : t.node? (root ++ q.stepNames) ≠ some .folder := by
        rcases hway with hnone | ⟨old, hends⟩
        · simp [hnone]
        · simp [hends.node?_end]
      rw [hwrite]
      exact ⟨hinstead.onlyBelow hne, h.hasInstead hfree hinstead⟩
  · exact ⟨.refl root t, h⟩

/-! ## A new file -/

variable {t₁ : FileTree} {follow : Bool} {n : Node}

/-- The way to a file is made of folders that stand wherever the file does. -/
theorem Ends.of_file (h : Ends t' follow links cur steps slash a n) (hn : n = .file content)
    (hlinkless : t'.Linkless root) (hup : .up ∉ steps) (hcur : root <+: cur)
    (hfile : t.node? a = some (.file content)) : Ends t follow links cur steps slash a n := by
  induction h with
  | stop hnode => exact .stop (hn ▸ hfile)
  | here _ ih => exact .here (ih hn (fun hmem => hup (List.mem_cons_of_mem _ hmem)) hcur hfile)
  | up _ _ => exact absurd List.mem_cons_self hup
  | @folder links cur a rest slash n name hsize hnode h ih =>
    have hcur' : root <+: cur ++ [name] := hcur.trans (List.prefix_append _ _)
    have hup' : .up ∉ rest := fun hmem => hup (List.mem_cons_of_mem _ hmem)
    have hne : cur ++ [name] ≠ a := by
      rintro rfl
      have hend := h.node?_end
      rw [hnode, hn] at hend
      cases hend
    have hp : cur ++ [name] <+: a := by
      rw [h.eq_names hlinkless hup' hcur']
      exact List.prefix_append _ _
    exact .folder hsize (node?_above hfile hp hne) (ih hn hup' hcur' hfile)
  | file hsize _ => exact .file hsize (hn ▸ hfile)
  | linkItself _ hnode _ => cases hn
  | link _ hnode _ _ _ =>
    exact absurd hnode (hlinkless _ _ (hcur.trans (List.prefix_append _ _)))

/-- A file that is written where a joined path led to nothing, after folders were made, stands at the
    names of the path, and nothing stood there. -/
theorem write_new (h : Opens t cwd output root) (hq : q.isAbsolute = false) (hup : .up ∉ q.steps)
    (hnew : t.pathExists cwd (output.join q) = false) (hgrow : GrowsBelow root t t₁)
    (hwrite : t₁.write cwd (output.join q) content = (.ok (), t')) :
    q.stepNames ≠ [] ∧ t₁.node? (root ++ q.stepNames) = none ∧
      HasInstead (root ++ q.stepNames) content t₁ t' := by
  obtain ⟨left, hleft⟩ := h.reaches
  rcases write_join (h.grow hgrow) (hleft.within hgrow.within) hq hup content with
    ⟨fault, hfails⟩ | ⟨t₂, hplaced, husable, hne, hinstead, hway⟩
  · rw [hwrite] at hfails
    cases (Prod.mk.inj hfails).1
  obtain ⟨-, rfl⟩ := Prod.mk.inj (hwrite.symm.trans hplaced)
  rcases hway with hnone | ⟨old, hends⟩
  · exact ⟨hne, hnone, hinstead⟩
  · -- a file that is there now was there before, and the path would have led to it
    have hold := hgrow.file_iff.1 hends.node?_end
    have hbefore := (hends.of_file rfl (h.grow hgrow).linkless hup (List.prefix_refl root) hold).walkLinks
    rw [pathExists, stat, resolve_join hleft hq husable, hbefore] at hnew
    cases hnew

end SourceRecovery.FileTree
