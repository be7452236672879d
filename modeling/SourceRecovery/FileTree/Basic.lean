import SourceRecovery.Path.Basic

/-!
# File trees

The files, folders and links under one root, each at its address: the names that lead to it from
the root. A tree is a finite set of entries in which every entry stands in a folder.

* `place` puts one node at an address, instead of whatever stood at or below it.
* `prune` takes away an address with everything below it, `clear` only what is below it.
* `under` lists what is below an address, in the order of names by their bytes and every folder in
  front of what it holds.

Every change of a tree is made of the first three, so a change shows in no other place than the
address it names: `node?_place_of_not_below`, `node?_prune_of_not_below`.
-/

namespace SourceRecovery

/-- The names that lead from the root to a node. -/
abbrev Address := List Name

/-- What stands at an address. -/
inductive Node where
  | folder
  | file (content : Bytes)
  /-- A link to the path that `target` spells. -/
  | link (target : Bytes)
  deriving DecidableEq, Repr

namespace FileTree

/-- The root is a folder, and so is every address that the entries say is one. -/
def FolderIn (entries : List (Address × Node)) (a : Address) : Prop :=
  a = [] ∨ (a, Node.folder) ∈ entries

/-- Whether an address is another one or leads on from it. -/
def isAtOrBelow (a b : Address) : Bool :=
  a.isPrefixOf b

/-- Whether an address leads on from another one. -/
def isBelow (a b : Address) : Bool :=
  isAtOrBelow a b && a != b

theorem isAtOrBelow_iff {a b : Address} : isAtOrBelow a b = true ↔ a <+: b := by
  simp [isAtOrBelow]

theorem isAtOrBelow_eq_false_iff {a b : Address} : isAtOrBelow a b = false ↔ ¬ a <+: b := by
  rw [← isAtOrBelow_iff, Bool.not_eq_true]

theorem isBelow_iff {a b : Address} : isBelow a b = true ↔ a <+: b ∧ a ≠ b := by
  simp [isBelow, isAtOrBelow_iff]

theorem not_prefix_dropLast {a : Address} (h : a ≠ []) : ¬ a <+: a.dropLast := by
  intro hp
  have hle := hp.length_le
  have : 0 < a.length := List.length_pos_iff.2 h
  rw [List.length_dropLast] at hle
  omega

theorem isAtOrBelow_of_dropLast {a b : Address} (h : isAtOrBelow a b.dropLast = true) :
    isAtOrBelow a b = true :=
  isAtOrBelow_iff.2 ((isAtOrBelow_iff.1 h).trans (List.dropLast_prefix b))

theorem isBelow_of_dropLast {a b : Address} (h : isBelow a b.dropLast = true) :
    isBelow a b = true := by
  rw [isBelow_iff] at h ⊢
  refine ⟨h.1.trans (List.dropLast_prefix b), ?_⟩
  rintro rfl
  by_cases ha : a = []
  · subst ha; exact h.2 rfl
  · exact not_prefix_dropLast ha h.1

end FileTree

/-- A set of entries with one node per address, each in a folder. -/
structure FileTree where
  entries : List (Address × Node)
  nodup : (entries.map Prod.fst).Nodup
  rooted : ∀ e ∈ entries, e.1 ≠ [] ∧ FileTree.FolderIn entries e.1.dropLast

namespace FileTree

/-- The tree that holds nothing but its root. -/
def empty : FileTree :=
  ⟨[], by simp, by simp⟩

instance : Inhabited FileTree := ⟨empty⟩

/-- The node at an address. -/
def node? (t : FileTree) (a : Address) : Option Node :=
  if a = [] then some .folder else (t.entries.find? fun e => e.1 == a).map Prod.snd

@[simp]
theorem node?_nil (t : FileTree) : t.node? [] = some .folder := by
  simp [node?]

theorem mem_of_node? {t : FileTree} {a : Address} {n : Node} (ha : a ≠ [])
    (h : t.node? a = some n) : (a, n) ∈ t.entries := by
  simp only [node?, if_neg ha, Option.map_eq_some_iff] at h
  obtain ⟨⟨b, m⟩, hf, rfl⟩ := h
  have hb : b = a := by simpa using List.find?_some hf
  exact hb ▸ List.mem_of_find?_eq_some hf

theorem folderIn_of_node? {t : FileTree} {a : Address} (h : t.node? a = some .folder) :
    FolderIn t.entries a := by
  by_cases ha : a = []
  · exact .inl ha
  · exact .inr (mem_of_node? ha h)

/-! ## Changes -/

/-- The entries whose address `keep` accepts; it has to accept the folder of every address that it
    accepts. -/
def restrict (t : FileTree) (keep : Address → Bool)
    (closed : ∀ a, keep a = true → keep a.dropLast = true) : FileTree where
  entries := t.entries.filter fun e => keep e.1
  nodup := t.nodup.sublist (List.filter_sublist.map _)
  rooted := by
    intro e he
    obtain ⟨hm, hk⟩ := List.mem_filter.1 he
    obtain ⟨hne, hf⟩ := t.rooted e hm
    refine ⟨hne, hf.imp id fun h => List.mem_filter.2 ⟨h, closed _ hk⟩⟩

/-- The tree without an address and everything below it. -/
def prune (t : FileTree) (a : Address) : FileTree :=
  t.restrict (fun b => !isAtOrBelow a b) fun b hb => by
    cases h : isAtOrBelow a b.dropLast with
    | false => rfl
    | true => simp [isAtOrBelow_of_dropLast h] at hb

/-- The tree without what is below an address. -/
def clear (t : FileTree) (a : Address) : FileTree :=
  t.restrict (fun b => !isBelow a b) fun b hb => by
    cases h : isBelow a b.dropLast with
    | false => rfl
    | true => simp [isBelow_of_dropLast h] at hb

/-- The tree with a node put at an address, instead of whatever stood at or below it. Where no
    folder is there to hold the node, nothing changes. -/
def place (t : FileTree) (a : Address) (n : Node) : FileTree :=
  if h : a ≠ [] ∧ t.node? a.dropLast = some .folder then
    { entries := (a, n) :: (t.prune a).entries
      nodup := by
        refine List.nodup_cons.2 ⟨?_, (t.prune a).nodup⟩
        intro hm
        obtain ⟨e, he, hea⟩ := List.mem_map.1 hm
        have hk := (List.mem_filter.1 he).2
        simp [isAtOrBelow_eq_false_iff, hea] at hk
      rooted := by
        intro e he
        rcases List.mem_cons.1 he with rfl | he
        · refine ⟨h.1, (folderIn_of_node? h.2).imp id fun hf => ?_⟩
          refine List.mem_cons_of_mem _ (List.mem_filter.2 ⟨hf, ?_⟩)
          simpa [isAtOrBelow_eq_false_iff] using not_prefix_dropLast h.1
        · obtain ⟨hne, hf⟩ := (t.prune a).rooted e he
          exact ⟨hne, hf.imp id (List.mem_cons_of_mem _)⟩ }
  else t

/-! ## Where a change shows -/

theorem node?_restrict {t : FileTree} {keep : Address → Bool}
    {closed : ∀ a, keep a = true → keep a.dropLast = true} {a : Address} (h : keep a = true) :
    (t.restrict keep closed).node? a = t.node? a := by
  unfold node? restrict
  split
  · rfl
  · congr 1
    simp only [List.find?_filter]
    congr 1
    funext e
    by_cases he : e.1 = a <;> simp [he, h]

/-- Taking an address away shows nowhere else. -/
theorem node?_prune_of_not_below {t : FileTree} {a b : Address} (h : ¬ a <+: b) :
    (t.prune a).node? b = t.node? b :=
  node?_restrict (by simpa [isAtOrBelow_eq_false_iff] using h)

/-- Emptying an address shows nowhere else. -/
theorem node?_clear_of_not_below {t : FileTree} {a b : Address} (h : a <+: b → a = b) :
    (t.clear a).node? b = t.node? b :=
  node?_restrict (by
    rw [Bool.not_eq_true', ← Bool.not_eq_true, isBelow_iff]
    exact fun hb => hb.2 (h hb.1))

theorem entries_place {t : FileTree} {a : Address} (n : Node) (ha : a ≠ [])
    (hf : t.node? a.dropLast = some .folder) :
    (t.place a n).entries = (a, n) :: (t.prune a).entries := by
  simp only [place, dif_pos (And.intro ha hf)]

theorem place_of_no_folder {t : FileTree} {a : Address} (n : Node)
    (h : ¬ (a ≠ [] ∧ t.node? a.dropLast = some .folder)) : t.place a n = t := by
  simp only [place, dif_neg h]

/-- Putting a node at an address shows nowhere else. -/
theorem node?_place_of_not_below {t : FileTree} {a b : Address} {n : Node} (h : ¬ a <+: b) :
    (t.place a n).node? b = t.node? b := by
  by_cases hp : a ≠ [] ∧ t.node? a.dropLast = some .folder
  · have hab : a ≠ b := fun hab => h (hab ▸ List.prefix_refl a)
    rw [← node?_prune_of_not_below (t := t) h]
    simp [node?, entries_place n hp.1 hp.2, hab]
  · rw [place_of_no_folder n hp]

/-- A node that is put in a folder stands there. -/
theorem node?_place_self {t : FileTree} {a : Address} {n : Node} (ha : a ≠ [])
    (hf : t.node? a.dropLast = some .folder) : (t.place a n).node? a = some n := by
  simp only [node?, if_neg ha, entries_place n ha hf, List.find?_cons]
  simp

/-! ## Listing -/

/-- The order of addresses: name by name, and names by their bytes. -/
def addressLe (a b : Address) : Bool :=
  decide (a ≤ b)

/-- What is below an address, with the names that lead there from it, in the order of addresses. -/
def under (t : FileTree) (a : Address) : List (Address × Node) :=
  ((t.entries.filter fun e => isBelow a e.1).map fun e => (e.1.drop a.length, e.2)).mergeSort
    fun e f => addressLe e.1 f.1

end FileTree

end SourceRecovery
