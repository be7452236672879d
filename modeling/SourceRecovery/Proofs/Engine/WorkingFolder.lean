import SourceRecovery.Host
import SourceRecovery.Proofs.FileTree.Making

/-!
# The decompiler's working folder

The decompiler works in a folder of its own, with one half for what it reads and one for what it
writes.

* `makeScratch_eq_ok`: the folder is one that could be made.
* `Furnished`: a tree differs from another one by such a folder and its two halves only.
* `furnish`: the halves are made.
* `node?_of_removeFolders`, `node?_of_removeNew`: at the end, all of it is gone.
-/

namespace SourceRecovery

open FileTree (Opens Followed SameOutside)

variable {t t' : FileTree} {cwd place : Address} {scratch : Path} {host : Host}

/-! ## A folder of its own -/

theorem Host.tryNames_eq_ok {folder p : Path} {front back : String}
    {make : FileTree → Path → FileTree.Outcome Unit} {draws : List String}
    (h : Host.tryNames folder front back make t draws = (.ok p, t')) : make t p = (.ok (), t') := by
  induction draws with
  | nil => cases (Prod.mk.inj h).1
  | cons draw draws ih =>
    rw [tryNames] at h
    split at h
    · rename_i hmake
      obtain ⟨hp, rfl⟩ := Prod.mk.inj h
      rw [← Except.ok.inj hp]
      exact hmake
    · exact ih h
    · cases (Prod.mk.inj h).1

/-- A folder among the temporary files is one that could be made. -/
theorem Host.makeScratch_eq_ok {front : String} (h : host.makeScratch front t = (.ok scratch, t')) :
    t.makeFolder host.folder scratch = (.ok (), t') :=
  tryNames_eq_ok h

namespace Engine

/-! ## Its two halves -/

/-- Whether a tree differs from another one by a new folder at an address, with its two halves, and by
    nothing else. -/
structure Furnished (place : Address) (t t' : FileTree) : Prop where
  fresh : t.node? place = none
  node : ∀ b, t'.node? b =
    if b ∈ [place, place ++ (["classes"] : Address), place ++ (["out"] : Address)] then some .folder
    else t.node? b

/-- Nothing stood where the folder is made, or below. -/
theorem Furnished.node?_below (h : Furnished place t t') {b : Address} (hp : place <+: b) :
    t.node? b = none :=
  FileTree.node?_eq_none_of_free h.fresh hp

theorem Furnished.extends (h : Furnished place t t') : t.Extends t' := by
  have hnew : ∀ b ∈ [place, place ++ (["classes"] : Address), place ++ (["out"] : Address)],
      place <+: b := by
    simp
  refine ⟨fun b n hn => ?_, fun b target hlink => ?_⟩
  · rw [h.node, if_neg, hn]
    intro hb
    rw [h.node?_below (hnew b hb)] at hn
    cases hn
  · rw [h.node] at hlink
    split at hlink
    · cases hlink
    · exact hlink

theorem Furnished.sameOutside (h : Furnished place t t') : SameOutside place t t' := by
  intro b hb
  rw [h.node, if_neg]
  intro hmem
  refine hb ?_
  simp only [List.mem_cons, List.not_mem_nil, or_false] at hmem
  rcases hmem with rfl | rfl | rfl <;> simp

/-- Both halves are folders. -/
theorem Furnished.half (h : Furnished place t t') {w : Name} (hw : w ∈ (["classes", "out"] : Address)) :
    t'.node? (place ++ [w]) = some .folder := by
  rw [h.node, if_pos]
  simp only [List.mem_cons, List.not_mem_nil, or_false] at hw
  rcases hw with rfl | rfl <;> simp

/-- Nothing stands in a half. -/
theorem Furnished.empty (h : Furnished place t t') (w : Name) {b : Address}
    (hp : place ++ [w] <+: b) (hne : b ≠ place ++ [w]) : t'.node? b = none := by
  have hlen := hp.length_le
  rw [h.node, if_neg, h.node?_below ((List.prefix_append place [w]).trans hp)]
  intro hmem
  simp only [List.mem_cons, List.not_mem_nil, or_false] at hmem
  rcases hmem with rfl | rfl | rfl
  · exact absurd hlen (by simp)
  · exact hne (hp.eq_of_length (by simp)).symm
  · exact hne (hp.eq_of_length (by simp)).symm

theorem isPlain_classes : Path.IsPlain "classes" := by
  decide

theorem isPlain_out : Path.IsPlain "out" := by
  decide

/-- In a folder that was made just now, nothing stands. -/
theorem empty_of_made (hmade : t.makeFolder cwd scratch = (.ok (), t'))
    (hstat : t'.stat cwd true scratch = .ok (place, .folder)) {b : Address} (hp : place <+: b)
    (hne : b ≠ place) : t'.node? b = none := by
  obtain ⟨hfresh, hnode⟩ := FileTree.node?_of_makeFolder hmade hstat
  rw [hnode, if_neg hne, FileTree.node?_eq_none_of_free hfresh hp]

/-- In a folder that was made just now, the two halves are made. -/
theorem furnish {t₂ : FileTree} (hmade : t.makeFolder cwd scratch = (.ok (), t₂))
    (hstat : t₂.stat cwd true scratch = .ok (place, .folder))
    (hclasses : Followed scratch ["classes"]) (hout : Followed scratch ["out"]) :
    ∃ t₃ t₄, t₂.makeFolders cwd (scratch.join ⟨"classes"⟩) = (.ok (), t₃) ∧
      t₃.makeFolders cwd (scratch.join ⟨"out"⟩) = (.ok (), t₄) ∧ Furnished place t t₄ ∧
      Opens t₄ cwd scratch place := by
  obtain ⟨hfresh, hnode₂⟩ := FileTree.node?_of_makeFolder hmade hstat
  have hbelow : ∀ b, place <+: b → b ≠ place → t₂.node? b = none := fun b =>
    empty_of_made hmade hstat
  have hopens₂ := FileTree.opens_of_empty hstat hbelow
  -- one half
  have hfree₂ : t₂.node? (place ++ (["classes"] : Address)) = none := hbelow _ (by simp) (by simp)
  have hmake₃ := FileTree.makeFolders_name hopens₂ isPlain_classes hclasses hfree₂
  have hnode₃ : ∀ b, (t₂.place (place ++ (["classes"] : Address)) .folder).node? b =
      if b = place ++ (["classes"] : Address) then some .folder else t₂.node? b := fun b =>
    FileTree.node?_place (by simp) (by simpa using hopens₂.node?_root) (by simp [hfree₂])
  have hopens₃ := hopens₂.grow
    (FileTree.growsBelow_place (by simp : place <+: place ++ (["classes"] : Address)) (by simp) hfree₂)
  -- and the other one
  have hfree₃ : (t₂.place (place ++ (["classes"] : Address)) .folder).node?
      (place ++ (["out"] : Address)) = none := by
    rw [hnode₃, if_neg (by simp), hbelow _ (by simp) (by simp)]
  have hmake₄ := FileTree.makeFolders_name hopens₃ isPlain_out hout hfree₃
  have hnode₄ := fun b => FileTree.node?_place (b := b) (n := .folder)
    (by simp : place ++ (["out"] : Address) ≠ []) (by simpa using hopens₃.node?_root) (by simp [hfree₃])
  have hopens₄ := hopens₃.grow
    (FileTree.growsBelow_place (by simp : place <+: place ++ (["out"] : Address)) (by simp) hfree₃)
  refine ⟨_, _, hmake₃, hmake₄, ⟨hfresh, fun b => ?_⟩, hopens₄⟩
  rw [hnode₄, hnode₃, hnode₂]
  by_cases h₄ : b = place ++ (["out"] : Address)
  · simp [h₄]
  · by_cases h₃ : b = place ++ (["classes"] : Address)
    · simp [h₃]
    · simp [h₃, h₄]

/-! ## Its end -/

/-- Once a folder is removed, no file stands at its address or below; what stands elsewhere stays. -/
theorem node?_of_removeFolders (h : t.stat cwd true scratch = .ok (place, .folder)) :
    SameOutside place t (t.removeFolders cwd scratch).2 ∧
      ∀ b content, place <+: b → (t.removeFolders cwd scratch).2.node? b ≠ some (.file content) := by
  have hclear : ∀ b content, place <+: b → (t.clear place).node? b ≠ some (.file content) := by
    intro b content hp
    rw [FileTree.node?_clear]
    split
    · simp
    · rename_i hbelow
      have hb : place = b := Classical.byContradiction fun hne => hbelow ⟨hp, hne⟩
      rw [← hb, FileTree.node?_of_stat h]
      simp
  rcases FileTree.removeFolders_snd h with heq | heq
  · rw [heq]
    exact ⟨fun b hb => FileTree.node?_clear_of_not_below fun hp => absurd hp hb, hclear⟩
  · rw [heq]
    refine ⟨fun b hb => ?_, fun b content hp hfile => ?_⟩
    · rw [FileTree.node?_prune_of_not_below hb]
      exact FileTree.node?_clear_of_not_below fun hp => absurd hp hb
    · exact hclear b content hp (FileTree.within_prune _ place b _ hfile)

/-- A folder that was made just now is removed with all that has come to stand in it, if the folders
    and links that were there with it have stayed. -/
theorem node?_of_removeNew {w : FileTree} (hcwd : t.Unblocked cwd)
    (hmade : t.makeFolder cwd scratch = (.ok (), t'))
    (hstat : t'.stat cwd true scratch = .ok (place, .folder))
    (hways : ∀ b n, t'.node? b = some n → (∀ content, n ≠ .file content) → w.node? b = some n)
    (b : Address) : (w.removeFolders cwd scratch).2.node? b =
      if place <+: b then none else w.node? b := by
  obtain ⟨folder, name, hnew⟩ := FileTree.hasNew_of_makeFolder hcwd hmade
  obtain ⟨husable, -⟩ := FileTree.stat_eq_ok.1 hstat
  obtain rfl := hnew.leadsTo.unique (FileTree.reaches_of_stat hstat).2
  obtain ⟨init, left, hsteps, hinit⟩ := hnew.way
  obtain ⟨left', hleft⟩ := hnew.leadsTo
  have hstat' := FileTree.stat_of_leadsTo husable ⟨left', hleft.mono hways⟩
  refine FileTree.node?_removeFolders hsteps hnew.size hstat' (hinit.mono ?_) b
  -- the way to the folder has not led through it
  intro c n hn hfile
  rw [FileTree.node?_clear, if_neg, hways c n (hnew.within c n hn) hfile]
  rintro ⟨hp, hne⟩
  rw [FileTree.node?_eq_none_of_free hnew.free hp] at hn
  cases hn

end Engine

end SourceRecovery
