import SourceRecovery.Proofs.FileTree.Removal

/-!
# Folders that are made where a path leads to none

A folder that has to be made is made with the folders that are missing in front of it. Which of them
are missing is read off the path, and what is made for one of them may be what a later `..` leaves.

* `slashPieces_of_parent?`: the path in front of a path, by its pieces.
* `walkLinks_taken_folder`: what a slash stands behind is a folder.
* `HasNew`, `hasNew_of_makeFolder`: one folder that is made, where its path leads and empty.
* `makeFoldersUpTo_last`, `makeFoldersUpTo_empties`: a path that led to no folder leads to an empty
  one, unless a `..` of it leaves a folder that was missing.
* `isFolder_of_makeFoldersUpTo`: even then it leads to a folder.
-/

namespace SourceRecovery

namespace Path

variable {p q : Path} {ws : List Name} {n : Nat}

/-! ## The path in front of a path -/

theorem dropIdleEnd_eq_concat (h : n < (dropIdleEnd n ws).length) :
    ∃ front w, dropIdleEnd n ws = front ++ [w] ∧ isIdle w = false := by
  rw [dropIdleEnd] at h ⊢
  have hcount := List.head?_dropWhile_not isIdle (ws.drop n).reverse
  cases hrest : (ws.drop n).reverse.dropWhile isIdle with
  | nil =>
    rw [hrest, List.reverse_nil, List.append_nil, List.length_take] at h
    omega
  | cons w rest =>
    rw [hrest] at hcount
    refine ⟨ws.take n ++ rest.reverse, w, ?_, hcount⟩
    rw [List.reverse_cons, List.append_assoc]

/-- The pieces of a path are those of the path in front of it, and then some of which one counts. -/
theorem slashPieces_of_parent? (h : p.parent? = some q) (hq : q.bytes ≠ []) :
    ∃ front rest, q = ofFront front ∧ p.slashPieces = front ++ rest ∧
      ∃ w ∈ rest, isIdle w = false := by
  simp only [parent?] at h
  split at h
  · rename_i hlt
    obtain ⟨behind, -, hall⟩ := dropIdleEnd_append p.leadLength p.slashPieces
    obtain ⟨before, w, hlast, hw⟩ := dropIdleEnd_eq_concat hlt
    rw [hlast, List.dropLast_concat] at h
    obtain ⟨between, -, hbefore⟩ := dropIdleEnd_append p.leadLength before
    refine ⟨_, between ++ w :: behind, (Option.some.inj h).symm, ?_, w, by simp, hw⟩
    calc p.slashPieces = before ++ [w] ++ behind := by rw [← hlast, ← hall]
      _ = _ := by
        conv => lhs; rw [hbefore]
        simp
  · split at h
    · exact absurd (congrArg Path.bytes (Option.some.inj h)).symm hq
    · cases h

theorem ofPiece?_of_counts {w : Name} (h : isIdle w = false) :
    Step.ofPiece? w = some .up ∨ Step.ofPiece? w = some (.enter w) := by
  rw [isIdle, Bool.or_eq_false_iff] at h
  rw [Step.ofPiece?, h.1, h.2]
  by_cases hup : w = [dot, dot]
  · exact .inl (by simp [hup])
  · exact .inr (by simp [hup])

/-- Behind the steps of the path in front of it, a path goes up or enters a name. -/
theorem rest_of_parent? (h : p.parent? = some q) (hq : q.bytes ≠ []) :
    ∃ rest, p.steps = q.steps ++ rest ∧ (.up ∈ rest ∨ ∃ name, .enter name ∈ rest) := by
  obtain ⟨front, rest, rfl, hpieces, w, hw, hcounts⟩ := slashPieces_of_parent? h hq
  have hslash : ∀ v ∈ front, slash ∉ v := fun v hv =>
    not_mem_of_mem_slashPieces (p := p) (by simp [hpieces, hv])
  refine ⟨rest.filterMap Step.ofPiece?, ?_, ?_⟩
  · rw [steps, hpieces, List.filterMap_append, steps_ofFront hslash]
  · rcases ofPiece?_of_counts hcounts with hstep | hstep
    · exact .inl (List.mem_filterMap.2 ⟨w, hw, hstep⟩)
    · exact .inr ⟨w, List.mem_filterMap.2 ⟨w, hw, hstep⟩⟩

/-- The steps of a path begin with those of the path in front of it. -/
theorem steps_prefix_of_parent? (h : p.parent? = some q) (hq : q.bytes ≠ []) :
    q.steps <+: p.steps := by
  obtain ⟨rest, hsteps, -⟩ := rest_of_parent? h hq
  exact ⟨rest, hsteps.symm⟩

/-- A path without `..` enters a name behind the steps of the path in front of it. -/
theorem steps_of_parent? (h : p.parent? = some q) (hq : q.bytes ≠ []) (hup : Step.up ∉ p.steps) :
    ∃ rest name, p.steps = q.steps ++ rest ∧ Step.enter name ∈ rest := by
  obtain ⟨rest, hsteps, hrest | ⟨name, hname⟩⟩ := rest_of_parent? h hq
  · rw [hsteps] at hup
    exact absurd (List.mem_append_right _ hrest) hup
  · exact ⟨rest, name, hsteps, hname⟩

/-- A path starts where the path in front of it does. -/
theorem isAbsolute_of_parent? (h : p.parent? = some q) (hq : q.bytes ≠ []) :
    q.isAbsolute = p.isAbsolute := by
  obtain ⟨front, rest, rfl, hpieces, w, hw, hcounts⟩ := slashPieces_of_parent? h hq
  have hslash : ∀ v ∈ front, slash ∉ v := fun v hv =>
    not_mem_of_mem_slashPieces (p := p) (by simp [hpieces, hv])
  have hne : front ≠ [] := by
    rintro rfl
    exact hq rfl
  have hp : p.bytes ≠ [] := by
    intro hempty
    -- the empty path has one piece, and that one counts for nothing
    have hsingle : p.slashPieces = [[]] := by
      rw [slashPieces, hempty, List.splitOn_nil]
    have hmem : w ∈ p.slashPieces := hpieces ▸ List.mem_append_right front hw
    rw [hsingle, List.mem_singleton] at hmem
    subst hmem
    cases hcounts
  have hhead : front.head? = p.slashPieces.head? := by
    obtain ⟨v, vs, rfl⟩ := List.exists_cons_of_ne_nil hne
    rw [hpieces]
    rfl
  rw [Bool.eq_iff_iff, isAbsolute_ofFront hne hslash, isAbsolute_iff hp, head?_base hp, hhead]

end Path

namespace FileTree

variable {t t' : FileTree} {cwd root a cur : Address} {p q : Path} {links left n : Nat}
  {steps rest : List Step} {name : Name} {node : Node} {follow slash : Bool}

/-! ## Growth anywhere -/

/-- Whatever one folder is made for, nothing that was there changes. -/
theorem makeFolder_adds (t : FileTree) (cwd : Address) (p : Path) :
    GrowsBelow [] t (t.makeFolder cwd p).2 := by
  rcases makeFolder_cases t cwd p with ⟨folder, name, -, hnone, hmake⟩ | ⟨fault, hmake, -⟩
  · rw [hmake]
    exact growsBelow_place List.nil_prefix (by simp) hnone
  · rw [hmake]
    exact .refl [] t

theorem makeFoldersUpTo_adds (t : FileTree) (cwd : Address) (n : Nat) (p : Path) :
    GrowsBelow [] t (t.makeFoldersUpTo cwd n p).2 := by
  induction n generalizing p with
  | zero =>
    rw [makeFoldersUpTo, ensureFolder_snd]
    exact makeFolder_adds t cwd p
  | succ n ih =>
    rcases makeFoldersUpTo_succ t cwd n p with heq | heq | ⟨q, -, -, heq | heq⟩
    · rw [heq]
      exact .refl [] t
    · rw [heq]
      exact makeFolder_adds t cwd p
    · rw [heq]
      exact ih q
    · rw [heq]
      exact (ih q).trans (makeFolder_adds _ cwd p)

theorem GrowsBelow.within (h : GrowsBelow root t t') : t.Within t' :=
  fun _ _ hn => h.node?_some hn

/-! ## Ways that nothing blocks -/

/-- Whether nothing but folders stands at an address and on the way to it. -/
def Unblocked (t : FileTree) (a : Address) : Prop :=
  ∀ b node, b <+: a → t.node? b = some node → node = .folder

theorem unblocked_of_folder (h : t.node? a = some .folder) : t.Unblocked a := by
  intro b node hp hnode
  by_cases hb : b = a
  · rw [hb, h] at hnode
    exact (Option.some.inj hnode).symm
  · rw [node?_above h hp hb] at hnode
    exact (Option.some.inj hnode).symm

theorem Unblocked.dropLast (h : t.Unblocked a) : t.Unblocked a.dropLast :=
  fun b node hp => h b node (hp.trans (List.dropLast_prefix a))

theorem Unblocked.of_within (h : t'.Unblocked a) (hwithin : t.Within t') : t.Unblocked a :=
  fun b node hp hnode => h b node hp (hwithin b node hnode)

theorem Unblocked.grow (h : t.Unblocked a) (hgrow : GrowsBelow root t t') : t'.Unblocked a := by
  intro b node hp hnode
  by_cases hfolder : node = .folder
  · exact hfolder
  · exact h b node hp (hgrow.node?_of_some hnode hfolder)

theorem Unblocked.origin (h : t.Unblocked a) (p : Path) : t.Unblocked (p.origin a) := by
  rw [Path.origin]
  split
  · exact unblocked_of_folder (node?_nil t)
  · exact h

/-- What a slash stands behind is a folder. -/
theorem Ends.eq_folder {n : Node} (h : Ends t follow links cur steps slash a n)
    (hcur : t.Unblocked cur) (hslash : slash = true) : n = .folder := by
  induction h with
  | @stop _ cur _ _ hnode => exact hcur cur _ (List.prefix_refl cur) hnode
  | here _ ih => exact ih hcur hslash
  | up _ ih => exact ih hcur.dropLast hslash
  | folder _ hnode _ ih => exact ih (unblocked_of_folder hnode) hslash
  | file _ _ | linkItself _ _ _ => cases hslash
  | @link _ _ _ _ _ _ _ target _ _ _ _ ih =>
    exact ih (hcur.origin ⟨target⟩) (by rw [hslash, Bool.true_or])

theorem walkLinks_taken_folder (hcur : t.Unblocked cur) (hslash : slash = true)
    (h : walkLinks t follow links cur steps slash = .ok (.taken a node)) : node = .folder :=
  (ends_of_walkLinks h).eq_folder hcur hslash

/-! ## New folders are empty -/

/-- Whether a path leads to a folder with nothing in it. -/
def LeadsToEmpty (t : FileTree) (cwd : Address) (p : Path) : Prop :=
  ∃ a, t.stat cwd true p = .ok (a, .folder) ∧ ∀ b, a <+: b → b ≠ a → t.node? b = none

theorem usable_of_locate {ending : Ending} (h : t.locate cwd p = .ok ending) :
    p.unusable? = none := by
  rw [locate] at h
  split at h
  · cases h
  · assumption

/-- Whether a tree is another one with an empty folder more, at the last name of a path. -/
structure HasNew (t : FileTree) (cwd : Address) (p : Path) (folder : Address) (name : Name)
    (t' : FileTree) : Prop where
  usable : p.unusable? = none
  /-- The steps in front of the name lead to the folder that it is looked up in. -/
  way : ∃ init left, p.steps = init ++ [.enter name] ∧
    Reaches t linkLimit (p.origin cwd) init left folder
  size : name.length ≤ 255
  free : t.node? (folder ++ [name]) = none
  within : t.Within t'
  there : t'.node? (folder ++ [name]) = some .folder
  empty : ∀ b, folder ++ [name] <+: b → b ≠ folder ++ [name] → t'.node? b = none

theorem hasNew_of_makeFolder (hcwd : t.Unblocked cwd) (h : t.makeFolder cwd p = (.ok (), t')) :
    ∃ folder name, HasNew t cwd p folder name t' := by
  have hadds : GrowsBelow [] t (t.makeFolder cwd p).2 := makeFolder_adds t cwd p
  rcases makeFolder_cases t cwd p with ⟨folder, name, hlocate, hnone, hmake⟩ | ⟨fault, hmake, -⟩
  · rw [hmake] at h hadds
    obtain ⟨-, rfl⟩ := Prod.mk.inj h
    obtain ⟨init, node, hsteps, hsize, hwalk⟩ := locate_eq_name hlocate
    obtain rfl : node = .folder := walkLinks_taken_folder (hcwd.origin p) rfl hwalk
    obtain ⟨left, hinit⟩ := reaches_of_walkLinks hwalk
    have hfolder : t.node? (folder ++ [name]).dropLast = some .folder := by
      rw [List.dropLast_concat]
      exact hinit.node?_end
    refine ⟨folder, name, usable_of_locate hlocate, ⟨init, left, hsteps, hinit⟩, hsize, hnone,
      hadds.within, node?_place_self (by simp) hfolder, ?_⟩
    intro b hp hne
    rw [node?_place (by simp) hfolder (by simp [hnone]), if_neg hne, node?_eq_none_of_free hnone hp]
  · rw [hmake] at h
    cases (Prod.mk.inj h).1

/-- A new folder is where its path leads. -/
theorem HasNew.leadsTo {folder : Address} (h : HasNew t cwd p folder name t') :
    t'.LeadsTo cwd p (folder ++ [name]) := by
  obtain ⟨init, left, hsteps, hinit⟩ := h.way
  have hend : walkLinks t' true linkLimit (p.origin cwd) p.steps false =
      .ok (.taken (folder ++ [name]) .folder) := by
    rw [hsteps, walkLinks_append (hinit.within h.within), walkLinks_folder h.size h.there,
      walkLinks_nil, h.there]
  exact reaches_of_walkLinks hend

/-- A folder that is made is where its path leads, and it is empty. -/
theorem leadsToEmpty_of_makeFolder (hcwd : t.Unblocked cwd)
    (h : t.makeFolder cwd p = (.ok (), t')) : t'.LeadsToEmpty cwd p := by
  obtain ⟨folder, name, hnew⟩ := hasNew_of_makeFolder hcwd h
  exact ⟨folder ++ [name], stat_of_leadsTo hnew.usable hnew.leadsTo, hnew.empty⟩

/-- What is made sure to be a folder is a new one, or was one before. -/
theorem ensureFolder_ok (hcwd : t.Unblocked cwd) (h : t.ensureFolder cwd p = (.ok (), t')) :
    t'.LeadsToEmpty cwd p ∨ t' = t ∧ t.isFolder cwd p = true := by
  rcases makeFolder_cases t cwd p with ⟨folder, name, -, -, hmake⟩ | ⟨fault, hmake, -⟩
  · rw [ensureFolder, hmake] at h
    exact .inl (leadsToEmpty_of_makeFolder hcwd (hmake.trans h))
  · rw [ensureFolder, hmake] at h
    by_cases hthere : t.isFolder cwd p = true
    · simp only [hthere, if_true] at h
      exact .inr ⟨(Prod.mk.inj h).2.symm, hthere⟩
    · simp [hthere] at h

/-- Where a path led to no folder, a folder that is there afterwards has been made. -/
theorem makeFolder_of_ensureFolder (hno : ∀ a, ¬ t.LeadsTo cwd p a)
    (h : t.ensureFolder cwd p = (.ok (), t')) : t.makeFolder cwd p = (.ok (), t') := by
  rcases makeFolder_cases t cwd p with ⟨folder, name, -, -, hmake⟩ | ⟨fault, hmake, -⟩
  · rw [ensureFolder, hmake] at h
    exact hmake.trans h
  · have hthere : ¬ t.isFolder cwd p = true := fun hthere =>
      (isFolder_iff.1 hthere).2.elim hno
    rw [ensureFolder, hmake] at h
    simp [hthere] at h

theorem LeadsToEmpty.isFolder (h : t.LeadsToEmpty cwd p) : t.isFolder cwd p = true := by
  obtain ⟨a, hstat, -⟩ := h
  rw [FileTree.isFolder, hstat]

theorem isFolder_of_ensureFolder (hcwd : t.Unblocked cwd)
    (h : t.ensureFolder cwd p = (.ok (), t')) : t'.isFolder cwd p = true := by
  rcases ensureFolder_ok hcwd h with hempty | ⟨rfl, hthere⟩
  · exact hempty.isFolder
  · exact hthere

/-- In an empty folder no name can be entered. -/
theorem Reaches.enter_not_mem (h : Reaches t links cur rest left a)
    (hempty : ∀ b, cur <+: b → b ≠ cur → t.node? b = none) (hup : Step.up ∉ rest) :
    Step.enter name ∉ rest := by
  induction h with
  | stop _ => simp
  | here _ ih =>
    have hrest := ih hempty (fun hmem => hup (List.mem_cons_of_mem _ hmem))
    simpa using hrest
  | up _ _ => exact absurd List.mem_cons_self hup
  | folder _ hnode _ _ =>
    rw [hempty _ (List.prefix_append _ _) (by simp)] at hnode
    cases hnode
  | link _ hnode _ _ =>
    rw [hempty _ (List.prefix_append _ _) (by simp)] at hnode
    cases hnode

/-- A path that enters a name behind one that leads to an empty folder leads to no folder. -/
theorem LeadsToEmpty.not_leadsTo (h : t.LeadsToEmpty cwd q) (horigin : p.origin cwd = q.origin cwd)
    (hsteps : p.steps = q.steps ++ rest) (hname : Step.enter name ∈ rest)
    (hup : Step.up ∉ p.steps) : ¬ t.LeadsTo cwd p a := by
  rintro ⟨left, hleft⟩
  obtain ⟨root, hstat, hempty⟩ := h
  obtain ⟨left', hfront⟩ := (reaches_of_stat hstat).2
  have hwalk := walkLinks_of_reaches hleft false
  rw [horigin, hsteps, walkLinks_append hfront] at hwalk
  obtain ⟨left'', hrest⟩ := reaches_of_walkLinks hwalk
  rw [hsteps] at hup
  exact hrest.enter_not_mem hempty (fun hmem => hup (List.mem_append_right _ hmem)) hname

/-! ## Many folders -/

/-- A folder is made sure of as it is, or once the one in front of it is. -/
theorem makeFoldersUpTo_ok (htext : p.bytes ≠ [])
    (h : t.makeFoldersUpTo cwd (n + 1) p = (.ok (), t')) :
    t.ensureFolder cwd p = (.ok (), t') ∨
      t.locate cwd p = .error .notFound ∧ ∃ q u, p.parent? = some q ∧
        t.makeFoldersUpTo cwd n q = (.ok (), u) ∧ u.ensureFolder cwd p = (.ok (), t') := by
  rw [makeFoldersUpTo, if_neg (by simpa using htext)] at h
  rcases makeFolder_cases t cwd p with ⟨folder, name, -, -, hmake⟩ | ⟨fault, hmake, hlocate⟩
  · rw [hmake] at h
    left
    rw [ensureFolder, hmake]
    exact h
  · rw [hmake] at h
    by_cases hmissing : fault = .notFound
    · subst hmissing
      refine .inr ⟨hlocate rfl, ?_⟩
      cases hq : p.parent? with
      | none => simp [hq] at h
      | some q =>
        simp only [hq] at h
        cases hfront : t.makeFoldersUpTo cwd n q with
        | mk answer u =>
          rw [hfront] at h
          cases answer with
          | error fault => cases (Prod.mk.inj h).1
          | ok _ => exact ⟨q, u, rfl, hfront, h⟩
    · left
      rw [ensureFolder, hmake]
      simpa using h

/-- For a path that leads to a folder, nothing is made. -/
theorem makeFoldersUpTo_of_leadsTo (h : t.LeadsTo cwd p a) (htext : p.bytes ≠ []) (n : Nat) :
    (t.makeFoldersUpTo cwd n p).2 = t := by
  have hmake : (t.makeFolder cwd p).2 = t := h.elim fun _ hleft => makeFolder_of_reaches hleft
  cases n with
  | zero => rw [makeFoldersUpTo, ensureFolder_snd, hmake]
  | succ n =>
    rcases makeFoldersUpTo_succ t cwd n p with heq | heq | ⟨q, hmissing, -, -⟩
    · exact heq
    · rw [heq, hmake]
    · exact absurd hmissing (h.locate_ne_notFound htext)

/-- For the empty path, nothing is made. -/
theorem makeFoldersUpTo_of_empty (htext : p.bytes = []) (n : Nat) :
    (t.makeFoldersUpTo cwd n p).2 = t := by
  cases n with
  | zero =>
    have hlocate : t.locate cwd p = .error .notFound := by
      rw [locate, Path.unusable?, htext]
      rfl
    rw [makeFoldersUpTo, ensureFolder_snd, makeFolder, hlocate]
  | succ n =>
    rw [makeFoldersUpTo, htext]
    rfl

/-- A path without `..` that leads to no folder still leads to none once the folders in front of it
    are made. -/
theorem not_leadsTo_of_parent? {u : FileTree} (hq : p.parent? = some q) (hup : Step.up ∉ p.steps)
    (hno : ∀ a, ¬ t.LeadsTo cwd p a) (hmade : t.makeFoldersUpTo cwd n q = (.ok (), u))
    (hfront : q.bytes ≠ [] → (∀ a, ¬ t.LeadsTo cwd q a) → u.LeadsToEmpty cwd q) (a : Address) :
    ¬ u.LeadsTo cwd p a := by
  have hsame : (t.makeFoldersUpTo cwd n q).2 = u := by rw [hmade]
  by_cases htext : q.bytes = []
  · rw [← hsame, makeFoldersUpTo_of_empty htext]
    exact hno a
  · by_cases hleads : ∃ b, t.LeadsTo cwd q b
    · obtain ⟨b, hb⟩ := hleads
      rw [← hsame, makeFoldersUpTo_of_leadsTo hb htext]
      exact hno a
    · obtain ⟨rest, name, hsteps, hname⟩ := Path.steps_of_parent? hq htext hup
      have horigin : p.origin cwd = q.origin cwd := by
        rw [Path.origin, Path.origin, Path.isAbsolute_of_parent? hq htext]
      exact (hfront htext fun b hb => hleads ⟨b, hb⟩).not_leadsTo horigin hsteps hname hup

/-- A path that led to no folder is made last, in a tree with all that was there, if it holds no `..` or
    nothing is missing in front of its last name. -/
theorem makeFoldersUpTo_last (n : Nat) (hcwd : t.Unblocked cwd) (htext : p.bytes ≠ [])
    (hway : Step.up ∉ p.steps ∨ ∃ ending, t.locate cwd p = .ok ending)
    (hno : ∀ a, ¬ t.LeadsTo cwd p a) (h : t.makeFoldersUpTo cwd n p = (.ok (), t')) :
    ∃ u, t.GrowsBelow [] u ∧ u.makeFolder cwd p = (.ok (), t') := by
  induction n generalizing p t' with
  | zero => exact ⟨t, .refl [] t, makeFolder_of_ensureFolder hno h⟩
  | succ n ih =>
    rcases makeFoldersUpTo_ok htext h with hensure | ⟨hmissing, q, u, hq, hmade, hensure⟩
    · exact ⟨t, .refl [] t, makeFolder_of_ensureFolder hno hensure⟩
    · have hup : Step.up ∉ p.steps := by
        rcases hway with hup | ⟨ending, hok⟩
        · exact hup
        · rw [hmissing] at hok
          cases hok
      have hadds := makeFoldersUpTo_adds t cwd n q
      rw [hmade] at hadds
      -- the path in front of it holds no `..` either, so if it is made, it is empty
      have hno' := not_leadsTo_of_parent? hq hup hno hmade fun htext' hnoq => by
        obtain ⟨v, hgrow, hlast⟩ :=
          ih htext' (.inl fun hs => hup (Path.mem_steps_of_parent? hq hs)) hnoq hmade
        exact leadsToEmpty_of_makeFolder (hcwd.grow hgrow) hlast
      exact ⟨u, hadds, makeFolder_of_ensureFolder hno' hensure⟩

/-- A path that led to no folder leads to an empty one once it could be made, if it holds no `..` or
    nothing is missing in front of its last name. -/
theorem makeFoldersUpTo_empties (n : Nat) (hcwd : t.Unblocked cwd) (htext : p.bytes ≠ [])
    (hway : Step.up ∉ p.steps ∨ ∃ ending, t.locate cwd p = .ok ending)
    (hno : ∀ a, ¬ t.LeadsTo cwd p a) (h : t.makeFoldersUpTo cwd n p = (.ok (), t')) :
    t'.LeadsToEmpty cwd p := by
  obtain ⟨u, hgrow, hlast⟩ := makeFoldersUpTo_last n hcwd htext hway hno h
  exact leadsToEmpty_of_makeFolder (hcwd.grow hgrow) hlast

/-- Whatever is missing, a path that could be made leads to a folder. -/
theorem isFolder_of_makeFoldersUpTo (n : Nat) (hcwd : t.Unblocked cwd) (htext : p.bytes ≠ [])
    (h : t.makeFoldersUpTo cwd n p = (.ok (), t')) : t'.isFolder cwd p = true := by
  cases n with
  | zero => exact isFolder_of_ensureFolder hcwd h
  | succ n =>
    rcases makeFoldersUpTo_ok htext h with hensure | ⟨-, q, u, -, hmade, hensure⟩
    · exact isFolder_of_ensureFolder hcwd hensure
    · have hadds := makeFoldersUpTo_adds t cwd n q
      rw [hmade] at hadds
      exact isFolder_of_ensureFolder (hcwd.grow hadds) hensure

end FileTree

end SourceRecovery
