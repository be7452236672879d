import SourceRecovery.FileTree.Operations
import SourceRecovery.FileTree.Walk
import SourceRecovery.Proofs.FileTree.Sparing
import SourceRecovery.Proofs.Text.Bytes

/-!
# Trees that hold the same

A tree keeps its entries in some order, and no operation tells two orders apart.

* `Alike`: the same node stands at every address of two trees.
* `Alike.walkLinks_eq`, `Alike.under_eq`: what is seen of such trees is the same.
* `Alike.place`, `Alike.prune`: changes leave them alike.
* `SameEnd`: an operation answers alike and leaves alike trees.
* `AlikeBut`: trees hold the same but for what is below a folder, and once that is gone they are
  alike.
-/

namespace SourceRecovery.FileTree

variable {t t' : FileTree} {a b : Address} {n : Node} {cwd : Address} {p : Path}

/-- Whether the same stands everywhere in two trees. -/
def Alike (t t' : FileTree) : Prop :=
  ∀ a, t.node? a = t'.node? a

/-- The entries make the tree. -/
theorem eq_of_entries (h : t.entries = t'.entries) : t = t' := by
  cases t
  cases t'
  cases h
  rfl

namespace Alike

theorem symm (h : t.Alike t') : t'.Alike t :=
  fun a => (h a).symm

/-! ## Paths -/

theorem walkLinks_eq (h : t.Alike t') (follow : Bool) (links : Nat) (cur : Address)
    (steps : List Step) (slash : Bool) :
    walkLinks t follow links cur steps slash = walkLinks t' follow links cur steps slash := by
  induction links, cur, steps, slash using walkLinks_induction (t := t) with
  | nil => rw [walkLinks_nil, walkLinks_nil, h]
  | here ih => rw [walkLinks_here, walkLinks_here, ih]
  | up ih => rw [walkLinks_up, walkLinks_up, ih]
  | tooLong hsize => rw [walkLinks_tooLong hsize, walkLinks_tooLong hsize]
  | missing hsize hnode =>
    rw [walkLinks_none hsize hnode, walkLinks_none hsize ((h _).symm.trans hnode)]
  | folder hsize hnode ih =>
    rw [walkLinks_folder hsize hnode, walkLinks_folder hsize ((h _).symm.trans hnode), ih]
  | file hsize hnode =>
    rw [walkLinks_file hsize hnode, walkLinks_file hsize ((h _).symm.trans hnode)]
  | linkZero hsize hnode =>
    rw [walkLinks_link_zero_eq hsize hnode, walkLinks_link_zero_eq hsize ((h _).symm.trans hnode)]
  | link hsize hnode ih =>
    rw [walkLinks_link_eq hsize hnode, walkLinks_link_eq hsize ((h _).symm.trans hnode), ih]

theorem resolve_eq (h : t.Alike t') (cwd : Address) (follow : Bool) (p : Path) :
    t.resolve cwd follow p = t'.resolve cwd follow p := by
  rw [resolve, resolve, h.walkLinks_eq]

theorem stat_eq (h : t.Alike t') (cwd : Address) (follow : Bool) (p : Path) :
    t.stat cwd follow p = t'.stat cwd follow p := by
  rw [stat, stat, h.resolve_eq]

theorem isFolder_eq (h : t.Alike t') (cwd : Address) (p : Path) :
    t.isFolder cwd p = t'.isFolder cwd p := by
  rw [isFolder, isFolder, h.stat_eq]

theorem locate_eq (h : t.Alike t') (cwd : Address) (p : Path) :
    t.locate cwd p = t'.locate cwd p := by
  rw [locate, locate, h.walkLinks_eq]

/-! ## Changes -/

theorem prune (h : t.Alike t') (a : Address) : (t.prune a).Alike (t'.prune a) := by
  intro b
  by_cases hp : a <+: b
  · by_cases hb : b = []
    · rw [hb, node?_nil, node?_nil]
    · rw [node?_prune_of_below hb hp, node?_prune_of_below hb hp]
  · rw [node?_prune_of_not_below hp, node?_prune_of_not_below hp, h b]

theorem place (h : t.Alike t') (a : Address) (n : Node) : (t.place a n).Alike (t'.place a n) := by
  by_cases hplace : a ≠ [] ∧ t.node? a.dropLast = some .folder
  · have hplace' : a ≠ [] ∧ t'.node? a.dropLast = some .folder := ⟨hplace.1, h _ ▸ hplace.2⟩
    intro b
    by_cases hp : a <+: b
    · by_cases hb : b = a
      · rw [hb, node?_place_self hplace.1 hplace.2, node?_place_self hplace'.1 hplace'.2]
      · rw [node?_place_of_below hplace.1 hplace.2 hp hb,
          node?_place_of_below hplace'.1 hplace'.2 hp hb]
    · rw [node?_place_of_not_below hp, node?_place_of_not_below hp, h b]
  · have hplace' : ¬ (a ≠ [] ∧ t'.node? a.dropLast = some .folder) := h a.dropLast ▸ hplace
    rw [place_of_no_folder n hplace, place_of_no_folder n hplace']
    exact h

end Alike

/-! ## Listing -/

/-- What is listed below an address stands there. -/
theorem mem_under {names : List Name} :
    (names, n) ∈ t.under a ↔ names ≠ [] ∧ t.node? (a ++ names) = some n := by
  rw [under, List.mem_mergeSort, List.mem_map]
  constructor
  · rintro ⟨⟨b, m⟩, he, heq⟩
    obtain ⟨hmem, hbelow⟩ := List.mem_filter.1 he
    obtain ⟨⟨rest, rfl⟩, hne⟩ := isBelow_iff.1 hbelow
    obtain ⟨rfl, rfl⟩ := Prod.mk.inj heq
    rw [List.drop_left]
    exact ⟨fun hnil => hne (by simp [hnil]), node?_of_mem hmem⟩
  · rintro ⟨hne, hnode⟩
    refine ⟨(a ++ names, n), List.mem_filter.2 ⟨mem_of_node? (by simp [hne]) hnode, ?_⟩, ?_⟩
    · exact isBelow_iff.2 ⟨List.prefix_append a names, by simpa using hne⟩
    · rw [List.drop_left]

theorem addressLe_total (a b : Address) : (addressLe a b || addressLe b a) = true := by
  simp only [addressLe, Bool.or_eq_true, decide_eq_true_eq]
  exact List.le_total _ _

theorem addressLe_trans (a b c : Address) (h : addressLe a b = true) (h' : addressLe b c = true) :
    addressLe a c = true := by
  simp only [addressLe, decide_eq_true_eq] at h h' ⊢
  exact List.le_trans h h'

theorem addressLe_antisymm (h : addressLe a b = true) (h' : addressLe b a = true) : a = b := by
  simp only [addressLe, decide_eq_true_eq] at h h'
  exact List.le_antisymm h h'

theorem pairwise_under (t : FileTree) (a : Address) :
    (t.under a).Pairwise fun e f => addressLe e.1 f.1 = true :=
  List.pairwise_mergeSort (fun e f g => addressLe_trans e.1 f.1 g.1)
    (fun e f => addressLe_total e.1 f.1) _

theorem nodup_entries (t : FileTree) : t.entries.Nodup :=
  List.Pairwise.of_map Prod.fst (fun _ _ hne heq => hne (congrArg Prod.fst heq)) t.nodup

namespace Alike

theorem mem_entries (h : t.Alike t') {e : Address × Node} (he : e ∈ t.entries) : e ∈ t'.entries :=
  mem_of_node? (t.rooted e he).1 ((h e.1).symm.trans (node?_of_mem he))

theorem entries_perm (h : t.Alike t') : t.entries.Perm t'.entries :=
  (List.perm_ext_iff_of_nodup (nodup_entries t) (nodup_entries t')).2 fun _ =>
    ⟨h.mem_entries, h.symm.mem_entries⟩

/-- The order of a listing is that of the addresses, so it does not show the order of the entries. -/
theorem under_eq (h : t.Alike t') (a : Address) : t.under a = t'.under a := by
  have hperm : (t.under a).Perm (t'.under a) :=
    ((List.mergeSort_perm _ _).trans ((h.entries_perm.filter _).map _)).trans
      (List.mergeSort_perm _ _).symm
  refine List.Perm.eq_of_pairwise ?_ (pairwise_under t a) (pairwise_under t' a) hperm
  rintro ⟨names, n⟩ ⟨names', n'⟩ he he' hle hle'
  obtain rfl := addressLe_antisymm hle hle'
  have hnode := (mem_under.1 he).2
  rw [h, (mem_under.1 he').2] at hnode
  rw [Option.some.inj hnode]

theorem walk_eq (h : t.Alike t') (cwd : Address) (base : Path) :
    t.walk cwd base = t'.walk cwd base := by
  have hunder : t.under = t'.under := funext h.under_eq
  rw [walk, walk, h.stat_eq, h.stat_eq, hunder]

theorem walkFiles_eq (h : t.Alike t') (cwd : Address) (base : Path) :
    t.walkFiles cwd base = t'.walkFiles cwd base := by
  rw [walkFiles, walkFiles, h.walk_eq]

end Alike

/-! ## Operations -/

/-- Whether two operations answer alike and leave alike trees. -/
def SameEnd {α : Type} (o o' : α × FileTree) : Prop :=
  o.1 = o'.1 ∧ o.2.Alike o'.2

theorem SameEnd.cases {α : Type} {o o' : α × FileTree} (h : SameEnd o o') :
    ∃ answer u u', o = (answer, u) ∧ o' = (answer, u') ∧ u.Alike u' :=
  ⟨o.1, o.2, o'.2, rfl, Prod.ext h.1.symm rfl, h.2⟩

namespace Alike

theorem write (h : t.Alike t') (cwd : Address) (p : Path) (content : Bytes) :
    SameEnd (t.write cwd p content) (t'.write cwd p content) := by
  rw [FileTree.write, FileTree.write, h.resolve_eq]
  cases t'.resolve cwd true p with
  | error fault => exact ⟨rfl, h⟩
  | ok found =>
    cases found with
    | taken a n =>
      cases n with
      | file old => exact ⟨rfl, h.place a _⟩
      | folder => exact ⟨rfl, h⟩
      | link target => exact ⟨rfl, h⟩
    | vacant a slash =>
      cases slash with
      | true => exact ⟨rfl, h⟩
      | false => exact ⟨rfl, h.place a _⟩

theorem makeFolder (h : t.Alike t') (cwd : Address) (p : Path) :
    SameEnd (t.makeFolder cwd p) (t'.makeFolder cwd p) := by
  rw [FileTree.makeFolder, FileTree.makeFolder, h.locate_eq]
  cases t'.locate cwd p with
  | error fault => exact ⟨rfl, h⟩
  | ok ending =>
    cases ending with
    | name folder name =>
      simp only [h (folder ++ [name])]
      cases t'.node? (folder ++ [name]) with
      | some n => exact ⟨rfl, h⟩
      | none => exact ⟨rfl, h.place _ _⟩
    | here => exact ⟨rfl, h⟩
    | up => exact ⟨rfl, h⟩
    | root => exact ⟨rfl, h⟩

theorem ensureFolder (h : t.Alike t') (cwd : Address) (p : Path) :
    SameEnd (t.ensureFolder cwd p) (t'.ensureFolder cwd p) := by
  obtain ⟨answer, u, u', hmake, hmake', hu⟩ := (h.makeFolder cwd p).cases
  rw [FileTree.ensureFolder, FileTree.ensureFolder, hmake, hmake']
  cases answer with
  | ok _ => exact ⟨rfl, hu⟩
  | error fault =>
    simp only [hu.isFolder_eq]
    cases u'.isFolder cwd p <;> exact ⟨rfl, hu⟩

theorem makeFoldersUpTo (h : t.Alike t') (cwd : Address) (n : Nat) (p : Path) :
    SameEnd (t.makeFoldersUpTo cwd n p) (t'.makeFoldersUpTo cwd n p) := by
  induction n generalizing t t' p with
  | zero => exact h.ensureFolder cwd p
  | succ n ih =>
    rw [FileTree.makeFoldersUpTo, FileTree.makeFoldersUpTo]
    split
    · exact ⟨rfl, h⟩
    · obtain ⟨answer, u, u', hmake, hmake', hu⟩ := (h.makeFolder cwd p).cases
      rw [hmake, hmake']
      rcases answer with fault | _
      · by_cases hmissing : fault = .notFound
        · subst hmissing
          cases p.parent? with
          | none => exact ⟨rfl, hu⟩
          | some q =>
            obtain ⟨answer, v, v', hfront, hfront', hv⟩ := (ih hu q).cases
            simp only [hfront, hfront']
            cases answer with
            | error fault => exact ⟨rfl, hv⟩
            | ok _ => exact hv.ensureFolder cwd p
        · simp only [hu.isFolder_eq]
          cases u'.isFolder cwd p <;> exact ⟨rfl, hu⟩
      · exact ⟨rfl, hu⟩

theorem makeFolders (h : t.Alike t') (cwd : Address) (p : Path) :
    SameEnd (t.makeFolders cwd p) (t'.makeFolders cwd p) :=
  h.makeFoldersUpTo cwd _ p

theorem any_isBelow_eq (h : t.Alike t') (a : Address) :
    (t.entries.any fun e => isBelow a e.1) = t'.entries.any fun e => isBelow a e.1 :=
  h.entries_perm.any_eq

theorem removeFolder (h : t.Alike t') (cwd : Address) (p : Path) :
    SameEnd (t.removeFolder cwd p) (t'.removeFolder cwd p) := by
  rw [FileTree.removeFolder, FileTree.removeFolder, h.locate_eq]
  cases t'.locate cwd p with
  | error fault => exact ⟨rfl, h⟩
  | ok ending =>
    cases ending with
    | here => exact ⟨rfl, h⟩
    | up => exact ⟨rfl, h⟩
    | root => exact ⟨rfl, h⟩
    | name folder name =>
      simp only [h (folder ++ [name]), h.any_isBelow_eq]
      split
      · exact ⟨rfl, h⟩
      · split
        · exact ⟨rfl, h⟩
        · exact ⟨rfl, h.prune _⟩
      · exact ⟨rfl, h⟩

end Alike

/-- Removing a folder depends on nothing that is in it. -/
theorem sameEnd_removeFolders (hstat : t.stat cwd true p = .ok (a, .folder))
    (hstat' : t'.stat cwd true p = .ok (a, .folder)) (hclear : (t.clear a).Alike (t'.clear a)) :
    SameEnd (t.removeFolders cwd p) (t'.removeFolders cwd p) := by
  obtain ⟨answer, u, u', hremove, hremove', hu⟩ := (hclear.removeFolder cwd p).cases
  simp only [removeFolders, hstat, hstat', hremove, hremove']
  split
  · rename_i heq
    obtain ⟨rfl, rfl⟩ := Prod.mk.inj heq
    exact ⟨rfl, hu⟩
  · split
    · rename_i hother _ _ heq
      obtain ⟨rfl, -⟩ := Prod.mk.inj heq
      exact absurd rfl (hother u)
    · exact ⟨rfl, hu⟩

/-! ## Trees that differ in one folder -/

/-- Whether two trees hold the same but for what is below an address. -/
def AlikeBut (d : Address) (t t' : FileTree) : Prop :=
  ∀ b, ¬ (d <+: b ∧ d ≠ b) → t.node? b = t'.node? b

theorem AlikeBut.symm {d : Address} (h : AlikeBut d t t') : AlikeBut d t' t :=
  fun b hb => (h b hb).symm

/-- Once it is emptied, nothing tells a folder's old contents. -/
theorem AlikeBut.clear {d : Address} (h : AlikeBut d t t') : (t.clear d).Alike (t'.clear d) := by
  intro b
  rw [node?_clear, node?_clear]
  split
  · rfl
  · exact h b ‹_›

end SourceRecovery.FileTree
