import SourceRecovery.Proofs.FileTree.Sparing
import SourceRecovery.Proofs.Path.StepNames

/-!
# Where joined paths lead

A path that is joined to another one leads on from the folder that this one leads to. Without `..` in
it, and with no link on the way, it cannot lead out of that folder again.

* `Ends.front`: steps that lead to a node have led through a folder before.
* `Ends.eq_names`, `Ends.stays_below`: steps that go nowhere up end where their names say, below the
  folder that they begin in.
* `LeadsTo.join`: a name behind a path that leads to a folder.
* `stat_join`: the two parts of the way of a joined path.
* `stat_join_below`, `stat_join_name`: where it ends.
-/

namespace SourceRecovery

variable {q root : Path}

theorem Path.up_mem_components_of_steps (h : .up ∈ q.steps) : .up ∈ q.components := by
  obtain ⟨w, hw, hstep⟩ := List.mem_filterMap.1 h
  refine List.mem_append_right _ (List.mem_filterMap.2 ⟨w, hw, ?_⟩)
  rw [Step.ofPiece?] at hstep
  split at hstep
  · cases hstep
  · split at hstep
    · cases hstep
    · split at hstep
      · rename_i hempty hhere hup
        simp [Path.componentOf?, Path.isIdle, hempty, hhere, hup]
      · cases hstep

theorem Path.steps_join_name {w : Name} (root : Path) (hw : Path.IsPlain w) :
    (root.join ⟨w⟩).steps = root.steps ++ [.enter w] := by
  rw [Path.steps_join hw.not_isAbsolute, hw.steps]

/-- A piece alone that is no name is a dot, if it is not `..`. -/
theorem Path.steps_of_not_plain (hsingle : slash ∉ q.bytes) (hplain : ¬ Path.IsPlain q.bytes)
    (hup : .up ∉ q.steps) : ∀ s ∈ q.steps, s = .here := by
  obtain ⟨bytes⟩ := q
  by_cases hempty : bytes = []
  · subst hempty
    intro s hs
    cases hs
  · by_cases hhere : bytes = [dot]
    · subst hhere
      intro s hs
      exact List.mem_singleton.1 (show s ∈ [Step.here] from hs)
    · by_cases hdots : bytes = [dot, dot]
      · subst hdots
        exact absurd (show Step.up ∈ [Step.up] from List.mem_cons_self) hup
      · exact absurd ⟨hempty, hhere, hdots, hsingle⟩ hplain

namespace FileTree

variable {t : FileTree} {cwd cur a r : Address} {n : Node} {links : Nat} {steps more : List Step}
  {follow slash : Bool} {w : Name}

/-! ## The front of a walk -/

theorem eq_of_append_single {step : Step} (hmore : more ≠ []) (h : steps ++ more = [step]) :
    steps = [] ∧ more = [step] := by
  rcases List.append_eq_singleton_iff.1 h with h | h
  · exact h
  · exact absurd h.2 hmore

/-- Steps that lead to a node, but are not the last ones, lead to a folder first. The last ones do as
    well if a slash stands behind them. -/
theorem Ends.front (hcur : t.node? cur = some .folder) (hmore : more ≠ [] ∨ slash = true)
    (h : Ends t follow links cur (steps ++ more) slash a n) :
    ∃ left b, Reaches t links cur steps left b ∧ Ends t follow left b more slash a n := by
  generalize hall : steps ++ more = all at h
  induction h generalizing steps with
  | @stop links cur slash n hnode =>
    obtain ⟨rfl, rfl⟩ := List.append_eq_nil_iff.1 hall
    exact ⟨links, cur, .stop hcur, .stop hnode⟩
  | @here links cur _ rest _ _ h ih =>
    cases steps with
    | nil =>
      obtain rfl : more = .here :: rest := hall
      exact ⟨links, cur, .stop hcur, .here h⟩
    | cons step steps =>
      obtain ⟨rfl, hrest⟩ := List.cons.inj hall
      obtain ⟨left, b, hreach, hends⟩ := ih hcur hmore hrest
      exact ⟨left, b, .here hreach, hends⟩
  | @up links cur _ rest _ _ h ih =>
    cases steps with
    | nil =>
      obtain rfl : more = .up :: rest := hall
      exact ⟨links, cur, .stop hcur, .up h⟩
    | cons step steps =>
      obtain ⟨rfl, hrest⟩ := List.cons.inj hall
      obtain ⟨left, b, hreach, hends⟩ := ih (node?_dropLast hcur) hmore hrest
      exact ⟨left, b, .up hreach, hends⟩
  | @folder links cur _ rest _ _ name hsize hnode h ih =>
    cases steps with
    | nil =>
      obtain rfl : more = .enter name :: rest := hall
      exact ⟨links, cur, .stop hcur, .folder hsize hnode h⟩
    | cons step steps =>
      obtain ⟨rfl, hrest⟩ := List.cons.inj hall
      obtain ⟨left, b, hreach, hends⟩ := ih hnode hmore hrest
      exact ⟨left, b, .folder hsize hnode hreach, hends⟩
  | @file links cur name _ hsize hnode =>
    obtain ⟨rfl, rfl⟩ := eq_of_append_single (hmore.resolve_right (by simp)) hall
    exact ⟨links, cur, .stop hcur, .file hsize hnode⟩
  | @linkItself links cur name _ hsize hnode hfollow =>
    obtain ⟨rfl, rfl⟩ := eq_of_append_single (hmore.resolve_right (by simp)) hall
    exact ⟨links, cur, .stop hcur, .linkItself hsize hnode hfollow⟩
  | @link links cur _ rest slash _ name target hsize hnode hgoes h ih =>
    cases steps with
    | nil =>
      obtain rfl : more = .enter name :: rest := hall
      exact ⟨links + 1, cur, .stop hcur, .link hsize hnode hgoes h⟩
    | cons step steps =>
      obtain ⟨rfl, hrest⟩ := List.cons.inj (show step :: (steps ++ more) = _ from hall)
      -- a slash at the end of the target is not at the end of the way
      have hslash : (slash || rest.isEmpty && (Path.mk target).endsInSlash) = slash := by
        rw [← hrest]
        rcases hmore with hmore | hmore <;> simp [hmore]
      rw [hslash] at ih
      obtain ⟨left, b, hreach, hends⟩ :=
        ih (node?_origin hcur ⟨target⟩) hmore (by rw [← hrest, List.append_assoc])
      exact ⟨left, b, .link hsize hnode hreach, hends⟩

/-! ## Walks that go nowhere up -/

/-- Steps that go nowhere up, through folders without links, end at the address that their names
    spell. -/
theorem Ends.eq_names (h : Ends t follow links cur steps slash a n) (hlinkless : t.Linkless r)
    (hup : .up ∉ steps) (hcur : r <+: cur) : a = cur ++ steps.filterMap Step.name? := by
  induction h with
  | stop _ => simp
  | here _ ih => exact ih (fun hmem => hup (List.mem_cons_of_mem _ hmem)) hcur
  | up _ _ => exact absurd List.mem_cons_self hup
  | folder _ _ _ ih =>
    rw [ih (fun hmem => hup (List.mem_cons_of_mem _ hmem)) (hcur.trans (List.prefix_append _ _)),
      List.append_assoc]
    rfl
  | file _ _ | linkItself _ _ _ => rfl
  | link _ hnode _ _ _ =>
    exact absurd hnode (hlinkless _ _ (hcur.trans (List.prefix_append _ _)))

/-- So they end below the folder that they begin in. -/
theorem Ends.stays_below (h : Ends t follow links cur steps slash a n) (hlinkless : t.Linkless r)
    (hup : .up ∉ steps) (hcur : r <+: cur) : r <+: a := by
  rw [h.eq_names hlinkless hup hcur]
  exact hcur.trans (List.prefix_append cur _)

/-- Dots alone lead nowhere. -/
theorem Ends.eq_of_dots (h : Ends t follow links cur steps slash a n)
    (hdots : ∀ s ∈ steps, s = .here) : a = cur := by
  induction h with
  | stop _ => rfl
  | here _ ih => exact ih fun s hs => hdots s (List.mem_cons_of_mem _ hs)
  | up _ _ | folder _ _ _ _ | file _ _ | linkItself _ _ _ | link _ _ _ _ _ =>
    cases hdots _ List.mem_cons_self

/-- A name alone is entered where it stands, even if it is that of a link. -/
theorem Ends.eq_of_name (h : Ends t false links cur [.enter w] false a n) : a = cur ++ [w] := by
  cases h with
  | folder _ _ h =>
    cases h
    rfl
  | file _ _ | linkItself _ _ _ => rfl
  | link _ _ hgoes _ => cases hgoes

/-! ## Joined paths -/

/-- A name behind a path leads to the folder of that name where the path leads. -/
theorem LeadsTo.join (h : t.LeadsTo cwd root r) (hw : Path.IsPlain w) (hsize : w.length ≤ 255)
    (hnode : t.node? (r ++ [w]) = some .folder) : t.LeadsTo cwd (root.join ⟨w⟩) (r ++ [w]) := by
  obtain ⟨left, hleft⟩ := h
  have hend : t.walkLinks true linkLimit (root.origin cwd) (root.steps ++ [.enter w]) false =
      .ok (.taken (r ++ [w]) .folder) := by
    rw [walkLinks_append hleft, walkLinks_folder hsize hnode, walkLinks_nil, hnode]
  rw [LeadsTo, Path.origin_join hw.not_isAbsolute, Path.steps_join_name root hw]
  exact reaches_of_walkLinks hend

/-- A joined path leads on from the folder that the path in front leads to. -/
theorem stat_join (hcwd : t.node? cwd = some .folder) (hq : q.isAbsolute = false)
    (h : t.stat cwd follow (root.join q) = .ok (a, n)) :
    ∃ left r, Reaches t linkLimit (root.origin cwd) root.steps left r ∧
      Ends t follow left r q.steps (root.join q).endsInSlash a n := by
  obtain ⟨husable, hwalk⟩ := stat_eq_ok.1 h
  have hends := ends_of_walkLinks hwalk
  rw [Path.origin_join hq, Path.steps_join hq] at hends
  refine hends.front (node?_origin hcwd root) ?_
  by_cases hsteps : q.steps = []
  · right
    -- the empty path behind another one is a slash
    have hempty := Path.bytes_eq_nil_of_steps hq hsteps
    obtain ⟨text⟩ := q
    obtain rfl : text = [] := hempty
    refine Path.endsInSlash_join_empty ?_
    intro hroot
    rw [Path.join_of_empty hroot hq] at husable
    exact absurd rfl (Path.unusable?_eq_none.1 husable).2.1
  · exact .inl hsteps

/-- A name behind a path names what has that name in the folder that the path leads to. -/
theorem stat_join_name (hcwd : t.node? cwd = some .folder) (hw : Path.IsPlain w)
    (h : t.stat cwd false (root.join ⟨w⟩) = .ok (a, n)) :
    ∃ r, t.LeadsTo cwd root r ∧ a = r ++ [w] := by
  obtain ⟨left, r, hreach, hends⟩ := stat_join hcwd hw.not_isAbsolute h
  have hslash : (root.descend [w]).endsInSlash = false :=
    Path.endsInSlash_descend root (by simpa using hw) (by simp)
  rw [hw.steps, show root.join ⟨w⟩ = root.descend [w] from rfl, hslash] at hends
  exact ⟨r, ⟨left, hreach⟩, hends.eq_of_name⟩

/-- A joined path without `..` leads below the folder that the path in front leads to, if it has only
    one piece or meets no link. -/
theorem stat_join_below (hcwd : t.node? cwd = some .folder) (hq : q.isAbsolute = false)
    (hup : .up ∉ q.components)
    (hway : Path.slash ∉ q.bytes ∨ ∀ r, t.LeadsTo cwd root r → t.Linkless r)
    (h : t.stat cwd false (root.join q) = .ok (a, n)) : ∃ r, t.LeadsTo cwd root r ∧ r <+: a := by
  have hup' : .up ∉ q.steps := mt Path.up_mem_components_of_steps hup
  rcases hway with hsingle | hlinkless
  · by_cases hplain : Path.IsPlain q.bytes
    · obtain ⟨r, hr, rfl⟩ := stat_join_name hcwd hplain h
      exact ⟨r, hr, List.prefix_append _ _⟩
    · obtain ⟨left, r, hreach, hends⟩ := stat_join hcwd hq h
      obtain rfl := hends.eq_of_dots (Path.steps_of_not_plain hsingle hplain hup')
      exact ⟨a, ⟨left, hreach⟩, List.prefix_refl a⟩
  · obtain ⟨left, r, hreach, hends⟩ := stat_join hcwd hq h
    exact ⟨r, ⟨left, hreach⟩, hends.stays_below (hlinkless r ⟨left, hreach⟩) hup'
      (List.prefix_refl r)⟩

end FileTree

end SourceRecovery
