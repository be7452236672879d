import SourceRecovery.Proofs.FileTree.Folders

/-!
# Paths whose folder is gone

What a path leads to once the system has removed what it named.

* `within_prune`, `within_clear`: removing leaves what was there before, and nothing else.
* `walkLinks_of_reaches_within`: a way in what is left is walked in the whole tree as well.
* `not_leadsTo_of_removeFolders`, `not_leadsTo_of_unlink`: a path whose folder, file or link could be
  removed leads to no folder.
-/

namespace SourceRecovery.FileTree

variable {t t' t'' : FileTree} {cwd a b cur : Address} {p : Path} {links left : Nat}
  {steps : List Step} {slash : Bool} {n : Node} {w : Name}

/-! ## What is left of a tree -/

theorem within_restrict {keep : Address → Bool}
    {closed : ∀ a, keep a = true → keep a.dropLast = true} : (t.restrict keep closed).Within t := by
  intro a n h
  by_cases ha : a = []
  · subst ha
    rw [node?_nil] at h ⊢
    exact h
  · exact node?_of_mem (List.mem_filter.1 (mem_of_node? ha h)).1

theorem within_prune (t : FileTree) (a : Address) : (t.prune a).Within t :=
  within_restrict

theorem within_clear (t : FileTree) (a : Address) : (t.clear a).Within t :=
  within_restrict

/-- What is taken away is gone, and what is below it. -/
theorem node?_prune_of_below (hb : b ≠ []) (h : a <+: b) : (t.prune a).node? b = none := by
  rw [Option.eq_none_iff_forall_ne_some]
  intro n hn
  have hkeep := (List.mem_filter.1 (mem_of_node? hb hn)).2
  rw [Bool.not_eq_true', isAtOrBelow_eq_false_iff] at hkeep
  exact hkeep h

/-- Without an address, a tree is part of any that holds the rest of it. -/
theorem prune_within (h : ∀ b n, ¬ a <+: b → t.node? b = some n → t'.node? b = some n) :
    (t.prune a).Within t' := by
  intro b n hn
  by_cases hb : b = []
  · rw [hb, node?_nil] at hn ⊢
    exact hn
  · by_cases hp : a <+: b
    · rw [node?_prune_of_below hb hp] at hn
      cases hn
    · exact h b n hp (within_prune t a b n hn)

/-! ## Paths that lead to a folder -/

theorem stat_of_leadsTo (husable : p.unusable? = none) (h : t.LeadsTo cwd p a) :
    t.stat cwd true p = .ok (a, .folder) := by
  obtain ⟨left, hleft⟩ := h
  rw [stat, resolve, husable]
  simp only [walkLinks_of_reaches hleft]

theorem isFolder_iff :
    t.isFolder cwd p = true ↔ p.unusable? = none ∧ ∃ a, t.LeadsTo cwd p a := by
  constructor
  · intro h
    unfold isFolder at h
    split at h
    · rename_i a hstat
      refine ⟨?_, a, (reaches_of_stat hstat).2⟩
      cases husable : p.unusable? with
      | none => rfl
      | some fault => simp [stat, resolve, husable] at hstat
    · cases h
  · rintro ⟨husable, a, ha⟩
    rw [isFolder, stat_of_leadsTo husable ha]

/-- A path that leads to a folder still does where more has come to stand. -/
theorem isFolder_within (h : t.isFolder cwd p = true) (hwithin : t.Within t') :
    t'.isFolder cwd p = true := by
  obtain ⟨husable, a, left, hleft⟩ := isFolder_iff.1 h
  exact isFolder_iff.2 ⟨husable, a, left, hleft.within hwithin⟩

/-! ## Ways that are not followed to the end -/

/-- A way to a folder is walked in a tree that holds more as well. Where no link is followed at its
    end, the walk may stop at one, and then the link is on the way. -/
theorem walkLinks_of_reaches_within (hwithin : t.Within t') (h : Reaches t links cur steps left a)
    (slash : Bool) :
    walkLinks t' false links cur steps slash = .ok (.taken a .folder) ∨
      ∃ b target, walkLinks t' false links cur steps slash = .ok (.taken b (.link target)) ∧
        t.node? b = some (.link target) := by
  induction h generalizing slash with
  | stop hnode =>
    rw [walkLinks_nil, hwithin _ _ hnode]
    exact .inl rfl
  | here _ ih =>
    rw [walkLinks_here]
    exact ih slash
  | up _ ih =>
    rw [walkLinks_up]
    exact ih slash
  | folder hsize hnode _ ih =>
    rw [walkLinks_folder hsize (hwithin _ _ hnode)]
    exact ih slash
  | @link links left cur a rest name target hsize hnode _ ih =>
    rw [walkLinks_link_eq hsize (hwithin _ _ hnode)]
    split
    · exact .inr ⟨_, target, rfl, hnode⟩
    · exact ih _

/-! ## What a removal leaves -/

/-- A folder that is removed stood at the last name of its path. -/
theorem removeFolder_cases (t : FileTree) (cwd : Address) (p : Path) :
    (∃ folder name, t.locate cwd p = .ok (.name folder name) ∧
      t.node? (folder ++ [name]) = some .folder ∧
      t.removeFolder cwd p = (.ok (), t.prune (folder ++ [name]))) ∨
    ∃ fault, t.removeFolder cwd p = (.error fault, t) ∧
      (fault = .notFound → t.locate cwd p = .error .notFound ∨
        ∃ folder name, t.locate cwd p = .ok (.name folder name) ∧
          t.node? (folder ++ [name]) = none) := by
  cases hlocate : t.locate cwd p with
  | error fault =>
    refine .inr ⟨fault, by rw [removeFolder, hlocate], ?_⟩
    rintro rfl
    exact .inl rfl
  | ok ending =>
    cases ending with
    | here => exact .inr ⟨.invalid, by rw [removeFolder, hlocate], fun h => by cases h⟩
    | up => exact .inr ⟨.notEmpty, by rw [removeFolder, hlocate], fun h => by cases h⟩
    | root => exact .inr ⟨.busy, by rw [removeFolder, hlocate], fun h => by cases h⟩
    | name folder name =>
      simp only [removeFolder, hlocate]
      split
      · rename_i hnode
        exact .inr ⟨.notFound, rfl, fun _ => .inr ⟨folder, name, rfl, hnode⟩⟩
      · rename_i hnode
        split
        · exact .inr ⟨.notEmpty, rfl, fun h => by cases h⟩
        · exact .inl ⟨folder, name, rfl, hnode, rfl⟩
      · exact .inr ⟨.notFolder, rfl, fun h => by cases h⟩

/-- A folder that could be removed with what is in it is gone. -/
theorem not_leadsTo_of_removeFolders (h : t.removeFolders cwd p = (.ok (), t')) :
    t'.Within t ∧ ∀ a, ¬ t'.LeadsTo cwd p a := by
  unfold removeFolders at h
  split at h
  · cases h
  · rename_i root hstat
    have hclear := within_clear t root
    rcases removeFolder_cases (t.clear root) cwd p with
      ⟨folder, name, hlocate, -, hremove⟩ | ⟨fault, hremove, hmissing⟩
    · rw [hremove] at h
      obtain ⟨-, rfl⟩ := Prod.mk.inj h
      have hprune := within_prune (t.clear root) (folder ++ [name])
      exact ⟨hprune.trans hclear, fun a => not_leadsTo_of_locate hlocate hprune
        (node?_prune_of_below (by simp) (List.prefix_refl _))⟩
    · by_cases hfault : fault = .notFound
      · subst hfault
        rw [hremove] at h
        obtain ⟨-, rfl⟩ := Prod.mk.inj h
        refine ⟨hclear, fun a hleads => ?_⟩
        rcases hmissing rfl with hmissing | ⟨folder, name, hlocate, hnone⟩
        · exact hleads.locate_ne_notFound (reaches_of_stat hstat).1 hmissing
        · exact not_leadsTo_of_locate hlocate (.refl _) hnone hleads
      · rw [hremove] at h
        split at h
        · rename_i heq
          exact absurd (Except.error.inj (Prod.mk.inj heq).1) hfault
        · cases h
  · cases h

/-- A file or link that could be removed is gone, and with it the folder that a link led to. -/
theorem not_leadsTo_of_unlink (h : t.unlink cwd p = (.ok (), t')) :
    t'.Within t ∧ ∀ a, ¬ t'.LeadsTo cwd p a := by
  unfold unlink at h
  split at h
  · cases h
  · cases h
  · cases h
  · rename_i b n hfolder hresolve
    obtain ⟨-, rfl⟩ := Prod.mk.inj h
    have hprune := within_prune t b
    refine ⟨hprune, ?_⟩
    rintro a ⟨left, hleft⟩
    unfold resolve at hresolve
    split at hresolve
    · cases hresolve
    · rcases walkLinks_of_reaches_within hprune hleft p.endsInSlash with
        hend | ⟨c, target, hend, hthere⟩
      · rw [hend] at hresolve
        obtain ⟨-, rfl⟩ := Place.taken.inj (Except.ok.inj hresolve)
        exact hfolder rfl
      · -- the link at the end is the one that was taken away
        rw [hend] at hresolve
        obtain ⟨rfl, -⟩ := Place.taken.inj (Except.ok.inj hresolve)
        by_cases hnil : c = []
        · subst hnil
          rw [node?_nil] at hthere
          cases hthere
        · rw [node?_prune_of_below hnil (List.prefix_refl c)] at hthere
          cases hthere

/-- A path that names nothing leads to no folder. -/
theorem not_leadsTo_of_stat (htext : p.bytes ≠ []) (h : t.stat cwd false p = .error .notFound) :
    ¬ t.LeadsTo cwd p a := by
  rintro ⟨left, hleft⟩
  rw [stat, resolve] at h
  cases husable : p.unusable? with
  | some fault =>
    rw [husable] at h
    have hfault : fault = .notFound := Except.error.inj h
    exact htext (Path.text_of_unusable? (hfault ▸ husable))
  | none =>
    rw [husable] at h
    rcases walkLinks_of_reaches_within (.refl t) hleft p.endsInSlash with
      hend | ⟨b, target, hend, -⟩
    · simp [hend] at h
    · simp [hend] at h

end SourceRecovery.FileTree
