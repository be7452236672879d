import SourceRecovery.Proofs.FileTree.Sparing
import SourceRecovery.Proofs.Path.Usable

/-!
# Absolute names of paths

What `canonical` finds by absolute names, against where the system follows a path to.

* `canonical_eq_ok`: what an absolute name takes, beside a way of names that are not too long.
* `eq_of_canonical`: where both find something, they find the same.
* `canonical_of_stat`: what the system finds has an absolute name, as long as the working folder is
  there and no address of the tree is too long to be spelled.
* `canonical_within`, `canonical_of_within`: a name that is found is found where more has come to
  stand, and in a part of the tree that the system finds it in.
-/

namespace SourceRecovery.FileTree

variable {t t' : FileTree} {cwd cur a b : Address} {p : Path} {n m : Node} {follow slash : Bool}
  {links : Nat} {steps : List Step}

/-! ## Addresses that can be spelled -/

theorem nameable_within (t : FileTree) : t.nameable.Within t :=
  within_restrict

theorem node?_nameable (h : nameLength a < 4096) : t.nameable.node? a = t.node? a :=
  node?_restrict (by simpa using h)

theorem nameLength_of_nameable (h : t.nameable.node? a = some n) : nameLength a < 4096 := by
  by_cases ha : a = []
  · rw [ha, nameLength]
    omega
  · simpa using (List.mem_filter.1 (mem_of_node? ha h)).2

/-- What is left of a tree is left of one that holds more, too. -/
theorem Within.nameable (h : t.Within t') : t.nameable.Within t'.nameable := by
  intro b n hn
  rw [node?_nameable (nameLength_of_nameable hn)]
  exact h _ _ (nameable_within t _ _ hn)

/-- Whether every node of a tree stands at an address that can be spelled. -/
def Nameable (t : FileTree) : Prop :=
  ∀ b, t.node? b ≠ none → nameLength b < 4096

theorem Nameable.within (h : t.Nameable) : t.Within t.nameable := by
  intro b n hn
  rw [node?_nameable (h b (by simp [hn]))]
  exact hn

/-! ## Absolute names -/

/-- Whether there is an absolute name that a path leads on from. -/
def HasBase (t : FileTree) (cwd : Address) (p : Path) : Prop :=
  p.isAbsolute = true ∨ t.node? cwd = some .folder

theorem HasBase.within (h : t.HasBase cwd p) (hwithin : t.Within t') : t'.HasBase cwd p :=
  h.imp_right (hwithin _ _)

/-- An absolute name takes a path that is spelled, an absolute name to lead on from, and a way on which
    every address can be spelled. -/
theorem canonical_eq_ok : t.canonical cwd p = .ok a ↔
    0 ∉ p.bytes ∧ p.bytes ≠ [] ∧ t.HasBase cwd p ∧
      ∃ n, t.nameable.walkLinks true linkLimit (p.origin cwd) p.steps p.endsInSlash =
        .ok (.taken a n) := by
  unfold canonical
  by_cases hnul : 0 ∈ p.bytes
  · simp [hnul]
  by_cases hempty : p.bytes = []
  · simp [hempty]
  rw [if_neg (by simpa using hnul), if_neg (by simpa using hempty)]
  rw [HasBase]
  by_cases hfolder : p.isAbsolute = true ∨ t.node? cwd = some .folder
  · rw [if_neg (by simpa using fun hrelative => hfolder.resolve_left (by simp [hrelative]))]
    simp only [hnul, hempty, hfolder, not_false_eq_true, ne_eq, true_and]
    split
    · rename_i b n hwalk
      simp [hwalk]
    · rename_i hwalk
      have hno : ∀ n, t.nameable.walkLinks true linkLimit (p.origin cwd) p.steps p.endsInSlash ≠
          .ok (.taken a n) := fun n => hwalk a n
      simp only [hno, exists_false, iff_false]
      split <;> simp
  · rw [if_pos (by simpa using hfolder)]
    simp [hfolder]

/-- An absolute name is that of what the system finds. -/
theorem eq_of_canonical (hname : t.canonical cwd p = .ok a) (hstat : t.stat cwd true p = .ok (b, n)) :
    a = b := by
  obtain ⟨-, -, -, m, hwalk⟩ := canonical_eq_ok.1 hname
  have hwalk' := walkLinks_within hwalk (nameable_within t)
  rw [(stat_eq_ok.1 hstat).2] at hwalk'
  exact (Place.taken.inj (Except.ok.inj hwalk')).1.symm

/-- What the system finds has an absolute name, where the path leads on from one and nothing is too
    deep. -/
theorem canonical_of_stat (hstat : t.stat cwd true p = .ok (a, n)) (hbase : t.HasBase cwd p)
    (h : t.Nameable) : t.canonical cwd p = .ok a := by
  obtain ⟨husable, hwalk⟩ := stat_eq_ok.1 hstat
  obtain ⟨hnul, hempty, -⟩ := Path.unusable?_eq_none.1 husable
  exact canonical_eq_ok.2 ⟨hnul, hempty, hbase, n, walkLinks_within hwalk h.within⟩

/-- An absolute name stays where more has come to stand. -/
theorem canonical_within (hname : t.canonical cwd p = .ok a) (hwithin : t.Within t') :
    t'.canonical cwd p = .ok a := by
  obtain ⟨hnul, hempty, hbase, n, hwalk⟩ := canonical_eq_ok.1 hname
  exact canonical_eq_ok.2 ⟨hnul, hempty, hbase.within hwithin, n,
    walkLinks_within hwalk hwithin.nameable⟩

/-! ## Absolute names in what is left of a tree -/

/-- Steps that end at a node in two parts of a tree, end there in what the parts have in common. -/
theorem Ends.common {u v w : FileTree} (hparts : u.Within t ∧ v.Within t)
    (hw : ∀ c k, u.node? c = some k → v.node? c = some k → w.node? c = some k)
    (hu : Ends u follow links cur steps slash a n) (hv : Ends v follow links cur steps slash b m) :
    Ends w follow links cur steps slash a n := by
  have hsame : ∀ {c k k'}, u.node? c = some k → v.node? c = some k' → k = k' := fun hk hk' =>
    Option.some.inj ((hparts.1 _ _ hk).symm.trans (hparts.2 _ _ hk'))
  induction hu with
  | stop hnode =>
    cases hv with
    | stop hnode' => exact .stop (hw _ _ hnode (hsame hnode hnode' ▸ hnode'))
  | here _ ih =>
    cases hv with
    | here hv => exact .here (ih hv)
  | up _ ih =>
    cases hv with
    | up hv => exact .up (ih hv)
  | folder hsize hnode _ ih =>
    cases hv with
    | folder _ hnode' hv => exact .folder hsize (hw _ _ hnode hnode') (ih hv)
    | file _ hnode' | linkItself _ hnode' _ | link _ hnode' _ _ => cases hsame hnode hnode'
  | file hsize hnode =>
    cases hv with
    | file _ hnode' => exact .file hsize (hw _ _ hnode (hsame hnode hnode' ▸ hnode'))
    | folder _ hnode' _ | linkItself _ hnode' _ | link _ hnode' _ _ => cases hsame hnode hnode'
  | linkItself hsize hnode hfollow =>
    cases hv with
    | linkItself _ hnode' _ =>
      exact .linkItself hsize (hw _ _ hnode (hsame hnode hnode' ▸ hnode')) hfollow
    | link _ _ hgoes _ => simp [hfollow] at hgoes
    | folder _ hnode' _ | file _ hnode' => cases hsame hnode hnode'
  | link hsize hnode hgoes _ ih =>
    cases hv with
    | link _ hnode' _ hv =>
      cases hsame hnode hnode'
      exact .link hsize (hw _ _ hnode hnode') hgoes (ih hv)
    | linkItself _ _ hfollow => simp [hfollow] at hgoes
    | folder _ hnode' _ | file _ hnode' => cases hsame hnode hnode'

/-- What the system finds in a part of a tree has the absolute name there that it has in the whole
    tree. -/
theorem canonical_of_within (hname : t'.canonical cwd p = .ok a)
    (hstat : t.stat cwd true p = .ok (b, n)) (hbase : t.HasBase cwd p) (hwithin : t.Within t') :
    t.canonical cwd p = .ok a := by
  obtain rfl := eq_of_canonical hname (stat_within hstat hwithin)
  obtain ⟨hnul, hempty, -, m, hwalk⟩ := canonical_eq_ok.1 hname
  refine canonical_eq_ok.2 ⟨hnul, hempty, hbase, n, Ends.walkLinks ?_⟩
  refine (ends_of_walkLinks (stat_eq_ok.1 hstat).2).common ⟨hwithin, nameable_within t'⟩ ?_
    (ends_of_walkLinks hwalk)
  intro c k hk hk'
  rw [node?_nameable (nameLength_of_nameable hk')]
  exact hk

end SourceRecovery.FileTree
