import SourceRecovery.Proofs.FileTree.Joined
import SourceRecovery.Proofs.FileTree.Remaking

/-!
# Ways to a folder that are made again and again

A folder is made with those in front of it, and that may stop halfway. Wherever its path leads then,
there is nothing that was not there before.

* `Straight`: a path goes nowhere up behind a folder that it leads through.
* `EmptyAt`: wherever a path leads, that folder is empty.
* `makeFoldersUpTo_emptyAt`: making such a folder, or failing to, leaves it so.
-/

namespace SourceRecovery

namespace FileTree

variable {t t' u : FileTree} {cwd a : Address} {p q : Path} {n : Nat}

/-- Whether a path leads to a folder with its first steps and goes nowhere up from there. -/
def Straight (t : FileTree) (cwd : Address) (p : Path) : Prop :=
  ∃ front more, p.steps = front ++ more ∧ .up ∉ more ∧
    ∃ left a, Reaches t linkLimit (p.origin cwd) front left a

/-- Whether nothing is in the folder that a path leads to, if it leads to one. -/
def EmptyAt (t : FileTree) (cwd : Address) (p : Path) : Prop :=
  ∀ a, t.LeadsTo cwd p a → ∀ b, a <+: b → b ≠ a → t.node? b = none

/-- In an empty folder there is no name. -/
theorem EmptyAt.stat_join {w : Name} {follow : Bool} (h : t.EmptyAt cwd p)
    (hcwd : t.node? cwd = some .folder) (hw : Path.IsPlain w) :
    ∃ fault, t.stat cwd follow (p.join ⟨w⟩) = .error fault := by
  cases hstat : t.stat cwd follow (p.join ⟨w⟩) with
  | error fault => exact ⟨fault, rfl⟩
  | ok found =>
    obtain ⟨b, m⟩ := found
    obtain ⟨left, r, hreach, hends⟩ := FileTree.stat_join hcwd hw.not_isAbsolute hstat
    have hnone : t.node? (r ++ [w]) = none := h r ⟨left, hreach⟩ _ (by simp) (by simp)
    rw [hw.steps] at hends
    generalize (p.join ⟨w⟩).endsInSlash = slash at hends
    cases hends with
    | folder _ hnode _ => cases hnone.symm.trans hnode
    | file _ hnode => cases hnone.symm.trans hnode
    | linkItself _ hnode _ => cases hnone.symm.trans hnode
    | link _ hnode _ _ => cases hnone.symm.trans hnode

/-- A path without `..` is straight. -/
theorem straight_of_no_up (hcwd : t.node? cwd = some .folder) (hup : .up ∉ p.steps) :
    t.Straight cwd p :=
  ⟨[], p.steps, rfl, hup, linkLimit, _, .stop (node?_origin hcwd p)⟩

theorem Straight.within (h : t.Straight cwd p) (hwithin : t.Within t') : t'.Straight cwd p := by
  obtain ⟨front, more, hsteps, hup, left, a, hfront⟩ := h
  exact ⟨front, more, hsteps, hup, left, a, hfront.within hwithin⟩

/-- The path in front of a straight one is straight, and only names are entered behind it, unless it
    leads to a folder already. -/
theorem Straight.parent (h : t.Straight cwd p) (hcwd : t.node? cwd = some .folder)
    (hq : p.parent? = some q) (htext : q.bytes ≠ []) (hno : ∀ a, ¬ t.LeadsTo cwd q a) :
    t.Straight cwd q ∧ ∃ rest name, p.steps = q.steps ++ rest ∧ .up ∉ rest ∧ .enter name ∈ rest := by
  obtain ⟨front, more, hsteps, hup, left, a, hfront⟩ := h
  obtain ⟨rest, hrest, hcounts⟩ := Path.rest_of_parent? hq htext
  have horigin : p.origin cwd = q.origin cwd := by
    rw [Path.origin, Path.origin, Path.isAbsolute_of_parent? hq htext]
  rw [horigin] at hfront
  rcases List.append_eq_append_iff.1 (hrest.symm.trans hsteps) with
    ⟨behind, rfl, hbehind⟩ | ⟨between, hbetween, rfl⟩
  · -- the first steps lead through the path in front of it
    rcases hfront.front with ⟨left', b, hb⟩ | hstays
    · exact absurd ⟨left', hb⟩ (hno b)
    · obtain ⟨b, hb⟩ := reaches_of_stays (node?_origin hcwd q) hstays
      exact absurd ⟨_, hb⟩ (hno b)
  · have hup' : .up ∉ rest := fun hmem => hup (List.mem_append_right between hmem)
    obtain ⟨name, hname⟩ := hcounts.resolve_left hup'
    refine ⟨⟨front, between, hbetween, fun hmem => hup (List.mem_append_left rest hmem), left, a,
      hfront⟩, rest, name, hrest, hup', hname⟩

/-- Where a path led to no folder, one folder that is made is empty. -/
theorem emptyAt_of_makeFolder (hcwd : t.Unblocked cwd) (hno : ∀ a, ¬ t.LeadsTo cwd p a) :
    (t.makeFolder cwd p).2.EmptyAt cwd p := by
  rcases makeFolder_cases t cwd p with ⟨folder, name, -, -, hmake⟩ | ⟨fault, hmake, -⟩
  · obtain ⟨folder, name, hnew⟩ := hasNew_of_makeFolder hcwd hmake
    rw [hmake]
    intro a ha
    rw [ha.unique hnew.leadsTo]
    exact hnew.empty
  · rw [hmake]
    exact fun a ha => absurd ha (hno a)

/-- Once those in front of it are made, a straight path that led to no folder still leads to none. -/
theorem Straight.not_leadsTo (h : t.Straight cwd p) (hcwd : t.node? cwd = some .folder)
    (hno : ∀ a, ¬ t.LeadsTo cwd p a) (hq : p.parent? = some q)
    (hempty : q.bytes ≠ [] → t.Straight cwd q → (∀ a, ¬ t.LeadsTo cwd q a) →
      (t.makeFoldersUpTo cwd n q).2.EmptyAt cwd q) (a : Address) :
    ¬ (t.makeFoldersUpTo cwd n q).2.LeadsTo cwd p a := by
  by_cases htext : q.bytes = []
  · rw [makeFoldersUpTo_of_empty htext]
    exact hno a
  · by_cases hleads : ∃ b, t.LeadsTo cwd q b
    · obtain ⟨b, hb⟩ := hleads
      rw [makeFoldersUpTo_of_leadsTo hb htext]
      exact hno a
    · have hnoq : ∀ b, ¬ t.LeadsTo cwd q b := fun b hb => hleads ⟨b, hb⟩
      obtain ⟨hstraight, rest, name, hsteps, hup, hname⟩ := h.parent hcwd hq htext hnoq
      have hempty' := hempty htext hstraight hnoq
      have hcwd' := (makeFoldersUpTo_adds t cwd n q).node?_some hcwd
      generalize (t.makeFoldersUpTo cwd n q).2 = u at hempty' hcwd'
      rintro ⟨left, hleft⟩
      have horigin : p.origin cwd = q.origin cwd := by
        rw [Path.origin, Path.origin, Path.isAbsolute_of_parent? hq htext]
      rw [horigin, hsteps] at hleft
      obtain ⟨left', b, hb⟩ : ∃ left b, Reaches u linkLimit (q.origin cwd) q.steps left b := by
        rcases hleft.front with hthere | hstays
        · exact hthere
        · obtain ⟨b, hb⟩ := reaches_of_stays (node?_origin hcwd' q) hstays
          exact ⟨_, b, hb⟩
      have hwalk := walkLinks_of_reaches hleft false
      rw [walkLinks_append hb] at hwalk
      obtain ⟨left'', hrest⟩ := reaches_of_walkLinks hwalk
      exact hrest.enter_not_mem (hempty' b ⟨left', hb⟩) hup hname

/-- A straight path that leads to an empty folder, or to none, does so once that folder has been
    made, and also if making it failed. -/
theorem makeFoldersUpTo_emptyAt (n : Nat) (hcwd : t.node? cwd = some .folder) (htext : p.bytes ≠ [])
    (hstraight : t.Straight cwd p) (hempty : t.EmptyAt cwd p) :
    (t.makeFoldersUpTo cwd n p).2.EmptyAt cwd p := by
  by_cases hleads : ∃ a, t.LeadsTo cwd p a
  · obtain ⟨a, ha⟩ := hleads
    rw [makeFoldersUpTo_of_leadsTo ha htext]
    exact hempty
  have hno : ∀ a, ¬ t.LeadsTo cwd p a := fun a ha => hleads ⟨a, ha⟩
  clear hleads hempty
  induction n generalizing p with
  | zero =>
    rw [makeFoldersUpTo, ensureFolder_snd]
    exact emptyAt_of_makeFolder (unblocked_of_folder hcwd) hno
  | succ n ih =>
    rcases makeFoldersUpTo_succ t cwd n p with heq | heq | ⟨q, -, hq, heq⟩
    · rw [heq]
      exact fun a ha => absurd ha (hno a)
    · rw [heq]
      exact emptyAt_of_makeFolder (unblocked_of_folder hcwd) hno
    · have hno' := hstraight.not_leadsTo hcwd hno hq fun htext' hstraight' => ih htext' hstraight'
      have hcwd' := (makeFoldersUpTo_adds t cwd n q).node?_some hcwd
      rcases heq with heq | heq
      · rw [heq]
        exact fun a ha => absurd ha (hno' a)
      · rw [heq]
        exact emptyAt_of_makeFolder (unblocked_of_folder hcwd') hno'

end FileTree

end SourceRecovery
