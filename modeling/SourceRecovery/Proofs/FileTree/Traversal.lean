import SourceRecovery.Proofs.FileTree.Listing

/-!
# Traversals

A walker asks the system for the names in a folder, which come in any order, takes them in the order
of their bytes, and goes into each folder before it takes the next name. Links it leaves alone.

* `Lists`: the system lists every name in a folder once.
* `visit`: what a walker sees.
* `mem_visit`, `pairwise_visit`: everything below the folder, once, in the order of addresses.
* `visit_eq_under`: so no order in which the system lists names makes a difference.
-/

namespace SourceRecovery.FileTree

variable {t : FileTree} {a : Address} {n : Node} {listing : Address → List Name}

/-! ## The order of addresses -/

/-- The order of names, by their bytes. -/
def nameLe (v w : Name) : Bool :=
  decide (v ≤ w)

/-- Whether an address comes before another one: name by name, and names by their bytes. -/
def Before (a b : Address) : Prop :=
  a < b

theorem before_nil {w : Name} {names : Address} : Before [] (w :: names) :=
  List.nil_lt_cons _ _

theorem before_cons {w : Name} {names names' : Address} :
    Before (w :: names) (w :: names') ↔ Before names names' := by
  simp [Before]

theorem before_of_lt {v w : Name} (h : v < w) (names names' : Address) :
    Before (v :: names) (w :: names') := by
  simp [Before, List.cons_lt_cons_iff, h]

theorem Before.ne {a b : Address} (h : Before a b) : a ≠ b := by
  rintro rfl
  exact List.lt_irrefl _ h

theorem Before.addressLe {a b : Address} (h : Before a b) : addressLe a b = true :=
  decide_eq_true (List.le_of_lt h)

theorem before_of_addressLe {a b : Address} (h : addressLe a b = true) (hne : a ≠ b) :
    Before a b :=
  Classical.byContradiction fun hlt =>
    hne (addressLe_antisymm h (decide_eq_true (List.not_lt.1 hlt)))

theorem pairwise_mergeSort_nameLe {names : List Name} (h : names.Nodup) :
    (names.mergeSort nameLe).Pairwise fun v w => v < w := by
  have htrans : ∀ u v w, nameLe u v = true → nameLe v w = true → nameLe u w = true := by
    intro u v w huv hvw
    simp only [nameLe, decide_eq_true_eq] at huv hvw ⊢
    exact List.le_trans huv hvw
  have htotal : ∀ v w, (nameLe v w || nameLe w v) = true := by
    intro v w
    simp only [nameLe, Bool.or_eq_true, decide_eq_true_eq]
    exact List.le_total _ _
  have hsorted := List.pairwise_mergeSort htrans htotal names
  have hnodup : (names.mergeSort nameLe).Nodup := (List.mergeSort_perm names nameLe).nodup_iff.2 h
  refine (hsorted.and hnodup).imp ?_
  rintro v w ⟨hle, hne⟩
  refine Classical.byContradiction fun hlt => hne ?_
  exact List.le_antisymm (of_decide_eq_true hle) (List.not_lt.1 hlt)

/-! ## What a walker sees -/

/-- Whether the system lists every name in a folder, and each once. -/
structure Lists (t : FileTree) (listing : Address → List Name) : Prop where
  nodup : ∀ a, (listing a).Nodup
  mem : ∀ a w, w ∈ listing a ↔ t.node? (a ++ [w]) ≠ none

/-- The names in a folder, in the order of the entries. -/
def namesIn (t : FileTree) (a : Address) : List Name :=
  (t.entries.filter fun e => e.1.dropLast = a).filterMap fun e => e.1.getLast?

theorem mem_namesIn {w : Name} : w ∈ t.namesIn a ↔ t.node? (a ++ [w]) ≠ none := by
  rw [namesIn, List.mem_filterMap]
  constructor
  · rintro ⟨⟨b, m⟩, he, hlast⟩
    obtain ⟨hmem, hdrop⟩ := List.mem_filter.1 he
    obtain ⟨c, rfl⟩ := List.getLast?_eq_some_iff.1 hlast
    obtain rfl : c = a := by simpa using hdrop
    simp [node?_of_mem hmem]
  · intro hnode
    obtain ⟨m, hm⟩ := Option.ne_none_iff_exists'.1 hnode
    exact ⟨(a ++ [w], m), List.mem_filter.2 ⟨mem_of_node? (by simp) hm, by simp⟩, by simp⟩

/-- Whatever order the system takes those names in, it lists every name once. -/
theorem lists_of_perm (h : ∀ a, (listing a).Perm (t.namesIn a)) : Lists t listing where
  nodup a := by
    refine (h a).nodup_iff.2 (List.pairwise_filterMap.2 ?_)
    have hentries := (List.pairwise_map.1 t.nodup).sublist
      (List.filter_sublist (p := fun e => e.1.dropLast = a))
    refine hentries.imp_of_mem ?_
    rintro ⟨b, m⟩ ⟨b', m'⟩ he he' hne v hv v' hv' rfl
    obtain ⟨c, rfl⟩ := List.getLast?_eq_some_iff.1 hv
    obtain ⟨c', rfl⟩ := List.getLast?_eq_some_iff.1 hv'
    refine hne ?_
    have hc : c = a := by simpa using (List.mem_filter.1 he).2
    have hc' : c' = a := by simpa using (List.mem_filter.1 he').2
    rw [hc, hc']
  mem a w := (h a).mem_iff.trans mem_namesIn

/-- In a folder that stands in another one there is less than in that one. -/
theorem length_below_lt {w : Name} (h : t.node? (a ++ [w]) = some .folder) :
    (t.entries.filter fun e => isBelow (a ++ [w]) e.1).length <
      (t.entries.filter fun e => isBelow a e.1).length := by
  have hinner : (t.entries.filter fun e => isBelow (a ++ [w]) e.1) =
      (t.entries.filter fun e => isBelow a e.1).filter fun e => isBelow (a ++ [w]) e.1 := by
    rw [List.filter_filter]
    refine List.filter_congr fun e _ => ?_
    rw [Bool.eq_iff_iff, Bool.and_eq_true, isBelow_iff, isBelow_iff]
    refine ⟨fun hbelow => ⟨hbelow, (List.prefix_append a [w]).trans hbelow.1, ?_⟩, And.left⟩
    rintro rfl
    exact absurd hbelow.1.length_le (by simp)
  have hmem : (a ++ [w], Node.folder) ∈ t.entries.filter fun e => isBelow a e.1 :=
    List.mem_filter.2 ⟨mem_of_node? (by simp) h, isBelow_iff.2 ⟨List.prefix_append _ _, by simp⟩⟩
  rw [hinner]
  refine Nat.lt_of_le_of_ne (List.length_filter_le _ _) fun hlength => ?_
  have hall := List.filter_eq_self.1 (List.filter_sublist.eq_of_length hlength) _ hmem
  exact (isBelow_iff.1 hall).2 rfl

/-- What a walker sees below a folder, if the system lists names in this way: each node by the names
    that lead there from the folder. -/
def visit (t : FileTree) (listing : Address → List Name) (a : Address) : List (Address × Node) :=
  ((listing a).mergeSort nameLe).flatMap fun w =>
    match _h : t.node? (a ++ [w]) with
    | none => []
    | some .folder =>
      ([w], .folder) :: (visit t listing (a ++ [w])).map fun e => (w :: e.1, e.2)
    | some (.file content) => [([w], .file content)]
    | some (.link target) => [([w], .link target)]
termination_by (t.entries.filter fun e => isBelow a e.1).length
decreasing_by exact length_below_lt _h

/-- What a walker sees of one name in a folder. -/
def visitName (t : FileTree) (listing : Address → List Name) (a : Address) (w : Name) :
    List (Address × Node) :=
  match t.node? (a ++ [w]) with
  | none => []
  | some .folder => ([w], .folder) :: (t.visit listing (a ++ [w])).map fun e => (w :: e.1, e.2)
  | some (.file content) => [([w], .file content)]
  | some (.link target) => [([w], .link target)]

theorem visit_eq (t : FileTree) (listing : Address → List Name) (a : Address) :
    t.visit listing a = ((listing a).mergeSort nameLe).flatMap (t.visitName listing a) := by
  rw [visit]
  congr 1
  funext w
  unfold visitName
  split <;> rename_i h <;> simp only [h]

/-- What is seen of a name begins with it. -/
theorem exists_of_mem_visitName {w : Name} {e : Address × Node}
    (h : e ∈ t.visitName listing a w) : ∃ names, e.1 = w :: names := by
  unfold visitName at h
  split at h
  · cases h
  · rcases List.mem_cons.1 h with rfl | h
    · exact ⟨[], rfl⟩
    · obtain ⟨f, -, rfl⟩ := List.mem_map.1 h
      exact ⟨f.1, rfl⟩
  · exact ⟨[], by rw [List.mem_singleton.1 h]⟩
  · exact ⟨[], by rw [List.mem_singleton.1 h]⟩

/-- What is seen of a name is what it stands for, and what is below that if it is a folder. -/
theorem mem_visitName {w : Name} {names : Address} :
    (w :: names, n) ∈ t.visitName listing a w ↔
      names = [] ∧ t.node? (a ++ [w]) = some n ∨
        t.node? (a ++ [w]) = some .folder ∧ (names, n) ∈ t.visit listing (a ++ [w]) := by
  unfold visitName
  split <;> rename_i h <;> simp [h, eq_comm]

theorem mem_visit_cons {w : Name} {names : Address} :
    (w :: names, n) ∈ t.visit listing a ↔
      w ∈ listing a ∧ (w :: names, n) ∈ t.visitName listing a w := by
  rw [visit_eq, List.mem_flatMap]
  constructor
  · rintro ⟨v, hv, hmem⟩
    obtain ⟨names', hnames⟩ := exists_of_mem_visitName hmem
    obtain rfl := (List.cons.inj hnames).1
    exact ⟨List.mem_mergeSort.1 hv, hmem⟩
  · rintro ⟨hw, hmem⟩
    exact ⟨w, List.mem_mergeSort.2 hw, hmem⟩

/-- A walker sees what stands below a folder. -/
theorem mem_visit (h : Lists t listing) {names : Address} :
    (names, n) ∈ t.visit listing a ↔ names ≠ [] ∧ t.node? (a ++ names) = some n := by
  induction names generalizing a with
  | nil =>
    refine ⟨fun hmem => ?_, fun hnil => absurd rfl hnil.1⟩
    rw [visit_eq] at hmem
    obtain ⟨w, -, hw⟩ := List.mem_flatMap.1 hmem
    obtain ⟨names, hnames⟩ := exists_of_mem_visitName hw
    cases hnames
  | cons w names ih =>
    have happend : a ++ w :: names = a ++ [w] ++ names := by simp
    rw [mem_visit_cons, mem_visitName, ih, happend]
    constructor
    · rintro ⟨-, ⟨rfl, hnode⟩ | ⟨-, -, hnode⟩⟩
      · exact ⟨by simp, by rwa [List.append_nil]⟩
      · exact ⟨by simp, hnode⟩
    · rintro ⟨-, hnode⟩
      by_cases hnames : names = []
      · subst hnames
        rw [List.append_nil] at hnode
        exact ⟨(h.mem a w).2 (by simp [hnode]), .inl ⟨rfl, hnode⟩⟩
      · have hfolder := node?_above hnode (List.prefix_append _ _) (by simpa using hnames)
        exact ⟨(h.mem a w).2 (by simp [hfolder]), .inr ⟨hfolder, hnames, hnode⟩⟩

/-- A walker sees it in the order of addresses. -/
theorem pairwise_visit (h : Lists t listing) (a : Address) :
    (t.visit listing a).Pairwise fun e f => Before e.1 f.1 := by
  induction a using visit.induct t with
  | case1 a ih =>
    rw [visit_eq]
    refine List.pairwise_flatMap.2 ⟨fun w _ => ?_, ?_⟩
    · unfold visitName
      split
      · exact .nil
      · rename_i hfolder
        refine .cons ?_ (List.pairwise_map.2 ?_)
        · intro e he
          obtain ⟨⟨names, m⟩, hmem, rfl⟩ := List.mem_map.1 he
          obtain ⟨v, names, rfl⟩ := List.exists_cons_of_ne_nil ((mem_visit h).1 hmem).1
          exact before_cons.2 before_nil
        · exact (ih w hfolder).imp before_cons.2
      · exact List.pairwise_singleton _ _
      · exact List.pairwise_singleton _ _
    · refine (pairwise_mergeSort_nameLe (h.nodup a)).imp fun hlt e he f hf => ?_
      obtain ⟨names, hnames⟩ := exists_of_mem_visitName he
      obtain ⟨names', hnames'⟩ := exists_of_mem_visitName hf
      rw [hnames, hnames']
      exact before_of_lt hlt _ _

/-- So what a walker sees, and in which order, does not depend on the order in which the system lists
    the names in a folder. -/
theorem visit_eq_under (h : Lists t listing) (a : Address) : t.visit listing a = t.under a := by
  have hnodup : (t.visit listing a).Nodup :=
    (pairwise_visit h a).imp fun hbefore heq => hbefore.ne (congrArg Prod.fst heq)
  have hnodup' : (t.under a).Nodup :=
    List.Pairwise.of_map Prod.fst (fun _ _ hne heq => hne (congrArg Prod.fst heq)) (nodup_under t a)
  have hperm : (t.visit listing a).Perm (t.under a) :=
    (List.perm_ext_iff_of_nodup hnodup hnodup').2 fun _ => (mem_visit h).trans mem_under.symm
  refine List.Perm.eq_of_pairwise ?_ ((pairwise_visit h a).imp Before.addressLe)
    (pairwise_under t a) hperm
  rintro ⟨names, n⟩ ⟨names', n'⟩ he he' hle hle'
  obtain rfl := addressLe_antisymm hle hle'
  have hnode := ((mem_visit h).1 he).2
  rw [(mem_under.1 he').2] at hnode
  rw [Option.some.inj hnode]

end SourceRecovery.FileTree
