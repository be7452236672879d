import SourceRecovery.Proofs.FileTree.Sparing

/-!
# Files that are added below a folder

* `Extends`: a tree holds what another one does, and beyond that only files and folders.
* `Adds`: a tree differs from another one by some files below a folder, and the folders on the way to
  them.
* `Adds.file_iff`: which files there are then.
* `Adds.extends`: where nothing stood in the way, nothing is lost.
* `Adds.append`: files that do not stand in each other's way are added one after another.
* `SameOutside`: trees differ below a folder only, as they do by files added there.
-/

namespace SourceRecovery.FileTree

variable {t t' t'' : FileTree} {cwd root a : Address} {p : Path} {names front : List Name}
  {files : List (Address × Bytes)} {content : Bytes}

/-! ## Trees that hold more -/

/-- Whether a tree holds everything that another one does, and beyond that only files and folders. -/
structure Extends (t t' : FileTree) : Prop where
  within : t.Within t'
  link : ∀ a target, t'.node? a = some (.link target) → t.node? a = some (.link target)

theorem Extends.trans (h : t.Extends t') (h' : t'.Extends t'') : t.Extends t'' :=
  ⟨h.within.trans h'.within, fun a target hlink => h.link a target (h'.link a target hlink)⟩

theorem GrowsBelow.extends (h : GrowsBelow root t t') : t.Extends t' :=
  ⟨h.within, fun _ _ hlink => h.node?_of_some hlink (by simp)⟩

/-- A path still opens the folder that it opened. -/
theorem Opens.extend (h : Opens t cwd p root) (hextends : t.Extends t') : Opens t' cwd p root := by
  obtain ⟨left, hleft⟩ := h.reaches
  refine ⟨h.text_ne, ⟨left, hleft.within hextends.within⟩, ?_⟩
  intro a target hp hlink
  exact h.linkless a target hp (hextends.link a target hlink)

/-! ## Added files -/

/-- Whether a tree differs from another one by these files below a folder, each told by the names that
    lead to it, and by the folders on the way to them. -/
structure Adds (root : Address) (files : List (Address × Bytes)) (t t' : FileTree) : Prop where
  file : ∀ e ∈ files, t'.node? (root ++ e.1) = some (.file e.2)
  elsewhere : ∀ a, (∀ e ∈ files, ¬ a <+: root ++ e.1) → t'.node? a = t.node? a

/-- Whether names lead from a folder to nothing, from the first of them on. -/
structure FreeBelow (t : FileTree) (root : Address) (names : List Name) : Prop where
  ne_nil : names ≠ []
  free : ∀ front, front <+: names → front ≠ [] → t.node? (root ++ front) = none

theorem freeBelow_of_empty (h : ∀ b, root <+: b → b ≠ root → t.node? b = none) (hne : names ≠ []) :
    FreeBelow t root names :=
  ⟨hne, fun front _ hfront => h _ (List.prefix_append root front) (by simpa using hfront)⟩

/-- The bytes of the file at an address; none if no file stands there. -/
def contentAt (t : FileTree) (a : Address) : Bytes :=
  match t.node? a with
  | some (.file content) => content
  | _ => []

theorem contentAt_eq (h : t.node? a = some (.file content)) : t.contentAt a = content := by
  rw [contentAt, h]

theorem Adds.nil (root : Address) (t : FileTree) : Adds root [] t t :=
  ⟨by simp, fun _ _ => rfl⟩

theorem Adds.folder (h : Adds root files t t') {e : Address × Bytes} (he : e ∈ files)
    (hp : a <+: root ++ e.1) (hne : a ≠ root ++ e.1) : t'.node? a = some .folder :=
  node?_above (h.file e he) hp hne

/-- What stands on the way to names that are free below a folder stands in front of the folder. -/
theorem FreeBelow.way (h : FreeBelow t root names) (hroot : t.node? root = some .folder)
    (hp : a <+: root ++ names) : t.node? a = none ∨ a <+: root ∧ t.node? a = some .folder := by
  rcases List.prefix_or_prefix_of_prefix hp (List.prefix_append root names) with hup | ⟨front, rfl⟩
  · right
    by_cases hsame : a = root
    · exact ⟨hup, hsame ▸ hroot⟩
    · exact ⟨hup, node?_above hroot hup hsame⟩
  · by_cases hnil : front = []
    · right
      rw [hnil, List.append_nil]
      exact ⟨List.prefix_refl root, hroot⟩
    · left
      exact h.free front ((List.prefix_append_right_inj root).1 hp) hnil

/-- Names that are free below a folder are so still, but for the folders on the way to added files. -/
theorem Adds.free_or_folder (h : Adds root files t t') (hfree : FreeBelow t root names)
    (hapart : ∀ e ∈ files, ¬ e.1 <+: names) (hp : front <+: names) (hne : front ≠ []) :
    t'.node? (root ++ front) = none ∨ t'.node? (root ++ front) = some .folder := by
  by_cases hway : ∃ e ∈ files, root ++ front <+: root ++ e.1
  · obtain ⟨e, he, hpe⟩ := hway
    right
    refine h.folder he hpe ?_
    intro heq
    rw [List.append_cancel_left heq] at hp
    exact hapart e he hp
  · left
    rw [h.elsewhere _ fun e he hpe => hway ⟨e, he, hpe⟩]
    exact hfree.free front hp hne

theorem Adds.free (h : Adds root files t t') (hfree : FreeBelow t root names)
    (hapart : ∀ e ∈ files, ¬ names <+: e.1) : t'.node? (root ++ names) = none := by
  rw [h.elsewhere]
  · exact hfree.free names (List.prefix_refl names) hfree.ne_nil
  · intro e he hp
    exact hapart e he ((List.prefix_append_right_inj root).1 hp)

/-- Where nothing stood in the way of the added files, nothing is lost. -/
theorem Adds.extends (h : Adds root files t t') (hroot : t.node? root = some .folder)
    (hfree : ∀ e ∈ files, FreeBelow t root e.1) : t.Extends t' := by
  refine ⟨fun a n hn => ?_, fun a target hlink => ?_⟩
  · by_cases hway : ∃ e ∈ files, a <+: root ++ e.1
    · obtain ⟨e, he, hp⟩ := hway
      rcases (hfree e he).way hroot hp with hnone | ⟨hup, hfolder⟩
      · rw [hn] at hnone
        cases hnone
      · rw [hn] at hfolder
        rw [Option.some.inj hfolder]
        refine h.folder he hp ?_
        rintro rfl
        have hlen := hup.length_le
        have hpos := List.length_pos_iff.2 (hfree e he).ne_nil
        rw [List.length_append] at hlen
        omega
    · rw [h.elsewhere a fun e he hp => hway ⟨e, he, hp⟩, hn]
  · by_cases hway : ∃ e ∈ files, a <+: root ++ e.1
    · obtain ⟨e, he, hp⟩ := hway
      by_cases heq : a = root ++ e.1
      · rw [heq, h.file e he] at hlink
        cases hlink
      · rw [h.folder he hp heq] at hlink
        cases hlink
    · rwa [h.elsewhere a fun e he hp => hway ⟨e, he, hp⟩] at hlink

/-- The files below the folder are those that were there and those that were added. -/
theorem Adds.file_iff (h : Adds root files t t') (hroot : t.node? root = some .folder)
    (hfree : ∀ e ∈ files, FreeBelow t root e.1) :
    t'.node? (root ++ names) = some (.file content) ↔
      (names, content) ∈ files ∨ t.node? (root ++ names) = some (.file content) := by
  constructor
  · intro hfile
    by_cases hway : ∃ e ∈ files, root ++ names <+: root ++ e.1
    · obtain ⟨⟨names', content'⟩, he, hp⟩ := hway
      by_cases heq : root ++ names = root ++ names'
      · left
        rw [heq, h.file _ he] at hfile
        rw [List.append_cancel_left heq, ← Node.file.inj (Option.some.inj hfile)]
        exact he
      · rw [h.folder he hp heq] at hfile
        cases hfile
    · right
      rwa [h.elsewhere _ fun e he hp => hway ⟨e, he, hp⟩] at hfile
  · rintro (he | hfile)
    · exact h.file _ he
    · exact (h.extends hroot hfree).within _ _ hfile

/-- The files below a folder that was empty are those that were added. -/
theorem Adds.file_iff_of_empty (h : Adds root files t t') (hroot : t.node? root = some .folder)
    (hempty : ∀ b, root <+: b → b ≠ root → t.node? b = none) (hne : ∀ e ∈ files, e.1 ≠ []) :
    t'.node? (root ++ names) = some (.file content) ↔ (names, content) ∈ files := by
  rw [h.file_iff hroot fun e he => freeBelow_of_empty hempty (hne e he), or_iff_left]
  intro hfile
  by_cases hnil : names = []
  · rw [hnil, List.append_nil, hroot] at hfile
    cases hfile
  · rw [hempty _ (List.prefix_append root names) (by simpa using hnil)] at hfile
    cases hfile

/-- Files that do not stand in each other's way are added one after another. -/
theorem Adds.append {added : List (Address × Bytes)} (h : Adds root files t t')
    (h' : Adds root added t' t'') (hapart : ∀ e ∈ files, ∀ e' ∈ added, ¬ e.1 <+: e'.1) :
    Adds root (files ++ added) t t'' := by
  refine ⟨fun e he => ?_, fun a ha => ?_⟩
  · rcases List.mem_append.1 he with he | he
    · rw [h'.elsewhere, h.file e he]
      intro e' he' hp
      exact hapart e he e' he' ((List.prefix_append_right_inj root).1 hp)
    · exact h'.file e he
  · rw [h'.elsewhere a fun e he => ha e (List.mem_append_right files he),
      h.elsewhere a fun e he => ha e (List.mem_append_left added he)]

/-! ## Trees that differ below a folder only -/

/-- Whether trees hold the same everywhere but at an address and below it. -/
def SameOutside (place : Address) (t t' : FileTree) : Prop :=
  ∀ a, ¬ place <+: a → t'.node? a = t.node? a

theorem SameOutside.trans {place : Address} (h : SameOutside place t t')
    (h' : SameOutside place t' t'') : SameOutside place t t'' :=
  fun a ha => (h' a ha).trans (h a ha)

/-- Files that are added below a folder show below it only. -/
theorem Adds.sameOutside {place : Address} (h : Adds (place ++ front) files t t')
    (hroot : t.node? (place ++ front) = some .folder) : SameOutside place t t' := by
  intro a ha
  by_cases hway : ∃ e ∈ files, a <+: place ++ front ++ e.1
  · obtain ⟨e, he, hp⟩ := hway
    have hup : a <+: place ++ front := by
      rcases List.prefix_or_prefix_of_prefix hp (List.prefix_append _ e.1) with hup | hdown
      · exact hup
      · exact absurd ((List.prefix_append place front).trans hdown) ha
    have hne : a ≠ place ++ front := by
      rintro rfl
      exact ha (List.prefix_append place front)
    have hfile : a ≠ place ++ front ++ e.1 := by
      rintro rfl
      exact ha ((List.prefix_append place front).trans (List.prefix_append _ e.1))
    rw [h.folder he hp hfile, node?_above hroot hup hne]
  · exact h.elsewhere a fun e he hp => hway ⟨e, he, hp⟩

end SourceRecovery.FileTree
