import SourceRecovery.Proofs.FileTree.NewFolders

/-!
# What a removal spares

Removing what a path names shows at that node and below it only, whether the removal succeeds or not.

* `node?_clear`: what is left of a folder that is emptied.
* `stat_eq_ok`, `LeadsTo.unique`: a path names one node.
* `node?_removeFolders`: a folder that is removed is gone, and nothing else.
* `removeFolders_snd`: a folder that is to be removed is emptied, and at most it is gone itself.
* `unlink_snd`: a file or link that is to be removed is all that goes.
-/

namespace SourceRecovery.FileTree

variable {t t' : FileTree} {cwd a b : Address} {p : Path} {n : Node} {w : Name}
  {follow slash : Bool} {links : Nat} {cur : Address} {steps : List Step}

/-- What is below a folder that is emptied is gone, and everything else is as it was. -/
theorem node?_clear (t : FileTree) (a b : Address) :
    (t.clear a).node? b = if a <+: b ∧ a ≠ b then none else t.node? b := by
  split
  · rename_i hbelow
    rw [Option.eq_none_iff_forall_ne_some]
    intro n hn
    have hb : b ≠ [] := by
      rintro rfl
      exact hbelow.2 (List.prefix_nil.1 hbelow.1)
    have hkeep := (List.mem_filter.1 (mem_of_node? hb hn)).2
    rw [Bool.not_eq_true', ← Bool.not_eq_true, isBelow_iff] at hkeep
    exact hkeep hbelow
  · rename_i hbelow
    exact node?_clear_of_not_below fun hp =>
      Classical.byContradiction fun hne => hbelow ⟨hp, hne⟩

/-! ## The node that a path names -/

theorem node?_of_walkLinks (h : walkLinks t follow links cur steps slash = .ok (.taken a n)) :
    t.node? a = some n :=
  (ends_of_walkLinks h).node?_end

/-- A walk to a node ends there as well where more has come to stand. -/
theorem walkLinks_within (h : walkLinks t follow links cur steps slash = .ok (.taken a n))
    (hwithin : t.Within t') :
    walkLinks t' follow links cur steps slash = .ok (.taken a n) :=
  ((ends_of_walkLinks h).within hwithin).walkLinks

/-- A path names the same node where more has come to stand. -/
theorem stat_within (h : t.stat cwd follow p = .ok (a, n)) (hwithin : t.Within t') :
    t'.stat cwd follow p = .ok (a, n) := by
  obtain ⟨husable, hwalk⟩ := stat_eq_ok.1 h
  exact stat_eq_ok.2 ⟨husable, walkLinks_within hwalk hwithin⟩

theorem node?_of_stat (h : t.stat cwd follow p = .ok (a, n)) : t.node? a = some n :=
  node?_of_walkLinks (stat_eq_ok.1 h).2

/-- Where a path leads to a folder without the link at its end being followed, it leads there with
    it followed as well. -/
theorem stat_folder (h : t.stat cwd follow p = .ok (a, .folder)) :
    t.stat cwd true p = .ok (a, .folder) :=
  stat_of_leadsTo (stat_eq_ok.1 h).1 (reaches_of_stat h).2

/-- A path leads to one folder. -/
theorem LeadsTo.unique (ha : t.LeadsTo cwd p a) (hb : t.LeadsTo cwd p b) : a = b := by
  obtain ⟨left, ha⟩ := ha
  obtain ⟨left', hb⟩ := hb
  have hwalk := walkLinks_of_reaches ha true
  rw [walkLinks_of_reaches hb true] at hwalk
  exact (Place.taken.inj (Except.ok.inj hwalk)).1.symm

/-- A folder at the last name of a path is where the path leads. It may have come to stand there since
    the name was looked up. -/
theorem leadsTo_of_locate_within {folder : Address}
    (hlocate : t.locate cwd p = .ok (.name folder w)) (hwithin : t.Within t')
    (hfolder : t.node? folder = some .folder) (hnode : t'.node? (folder ++ [w]) = some .folder) :
    t'.LeadsTo cwd p (folder ++ [w]) := by
  obtain ⟨init, n, hsteps, hsize, hwalk⟩ := locate_eq_name hlocate
  rw [node?_of_walkLinks hwalk] at hfolder
  obtain rfl : n = .folder := Option.some.inj hfolder
  obtain ⟨left, hinit⟩ := reaches_of_walkLinks hwalk
  have hend : walkLinks t' true linkLimit (p.origin cwd) p.steps false =
      .ok (.taken (folder ++ [w]) .folder) := by
    rw [hsteps, walkLinks_append (hinit.within hwithin), walkLinks_folder hsize hnode, walkLinks_nil,
      hnode]
  exact reaches_of_walkLinks hend

/-- Where the steps in front of a name lead, the name is looked up. -/
theorem locate_of_way {folder : Address} {init : List Step} {left : Nat} (husable : p.unusable? = none)
    (hsteps : p.steps = init ++ [.enter w]) (hsize : w.length ≤ 255)
    (hinit : Reaches t linkLimit (p.origin cwd) init left folder) :
    t.locate cwd p = .ok (.name folder w) := by
  rw [locate, husable]
  simp only [hsteps]
  rw [if_neg (by simp [Step.isDots]), List.dropLast_concat, List.getLast?_concat,
    walkLinks_of_reaches hinit]
  exact if_neg (Nat.not_lt.2 hsize)

theorem leadsTo_of_locate {folder : Address} (hlocate : t.locate cwd p = .ok (.name folder w))
    (hnode : t.node? (folder ++ [w]) = some .folder) : t.LeadsTo cwd p (folder ++ [w]) := by
  have hfolder := node?_dropLast hnode
  rw [List.dropLast_concat] at hfolder
  exact leadsTo_of_locate_within hlocate (.refl t) hfolder hnode

/-! ## Removing it -/

/-- A folder at the last name of its path is removed with what is in it, if the steps in front of the
    name lead to it once it is empty. -/
theorem node?_removeFolders {folder : Address} {init : List Step} {left : Nat}
    (hsteps : p.steps = init ++ [.enter w]) (hsize : w.length ≤ 255)
    (h : t.stat cwd true p = .ok (folder ++ [w], .folder))
    (hinit : Reaches (t.clear (folder ++ [w])) linkLimit (p.origin cwd) init left folder)
    (b : Address) : (t.removeFolders cwd p).2.node? b =
      if folder ++ [w] <+: b then none else t.node? b := by
  have hnode : (t.clear (folder ++ [w])).node? (folder ++ [w]) = some .folder := by
    rw [node?_clear_of_not_below fun _ => rfl, node?_of_stat h]
  have hempty : ((t.clear (folder ++ [w])).entries.any
      fun e => isBelow (folder ++ [w]) e.1) = false := by
    refine List.any_eq_false.2 fun e he hbelow => ?_
    have hkeep := (List.mem_filter.1 he).2
    simp [hbelow] at hkeep
  have hlocate := locate_of_way (stat_eq_ok.1 h).1 hsteps hsize hinit
  have hremove : (t.removeFolders cwd p).2 = (t.clear (folder ++ [w])).prune (folder ++ [w]) := by
    simp [removeFolders, h, removeFolder, hlocate, hnode, hempty]
  rw [hremove]
  split
  · rename_i hp
    refine node?_prune_of_below ?_ hp
    rintro rfl
    exact absurd hp.length_le (by simp)
  · rename_i hp
    rw [node?_prune_of_not_below hp, node?_clear, if_neg fun hbelow => hp hbelow.1]

/-- A folder that is to be removed is emptied, and is gone if it can be removed when it is empty. -/
theorem removeFolders_snd (h : t.stat cwd true p = .ok (a, .folder)) :
    (t.removeFolders cwd p).2 = t.clear a ∨ (t.removeFolders cwd p).2 = (t.clear a).prune a := by
  have hleads : t.LeadsTo cwd p a := (reaches_of_stat h).2
  simp only [removeFolders, h]
  rcases removeFolder_cases (t.clear a) cwd p with
    ⟨folder, name, hlocate, hnode, hremove⟩ | ⟨fault, hremove, -⟩
  · -- the way to the last name is the same as before the folder was emptied
    obtain ⟨left, hway⟩ := leadsTo_of_locate hlocate hnode
    obtain rfl := hleads.unique ⟨left, hway.within (within_clear t a)⟩
    rw [hremove]
    exact .inr rfl
  · left
    rw [hremove]
    split
    · rename_i heq
      exact (Prod.mk.inj heq).2.symm
    · rfl

/-- A file or link that is to be removed is gone, and nothing else. -/
theorem unlink_snd (h : t.stat cwd false p = .ok (a, n)) (hfolder : n ≠ .folder) :
    (t.unlink cwd p).2 = t.prune a := by
  obtain ⟨husable, hwalk⟩ := stat_eq_ok.1 h
  rw [unlink, resolve, husable]
  simp only [hwalk]

end SourceRecovery.FileTree
