import SourceRecovery.FileTree.Operations
import SourceRecovery.Proofs.FileTree.Descent

/-!
# Folders that are made below a folder

* `GrowsBelow`: a tree differs from another one by new folders below an address, and by nothing else.
* `makeFolder_of_reaches`: where a path leads to a folder, nothing is made for it.
* `makeFoldersUpTo_succ`: what one folder, with those in front of it, can make of a tree.
* `makeFolders_grows`: for names behind it, folders are made below that folder only.
-/

namespace SourceRecovery.FileTree

variable {t t' t'' : FileTree} {cwd root a : Address} {output p : Path} {names : List Name}
  {w : Name}

/-! ## Growth -/

/-- Whether a tree differs from another one by new folders below an address only. -/
def GrowsBelow (root : Address) (t t' : FileTree) : Prop :=
  ∀ a, t'.node? a = t.node? a ∨
    root <+: a ∧ a ≠ root ∧ t.node? a = none ∧ t'.node? a = some .folder

theorem GrowsBelow.refl (root : Address) (t : FileTree) : GrowsBelow root t t :=
  fun _ => .inl rfl

theorem GrowsBelow.trans (h : GrowsBelow root t t') (h' : GrowsBelow root t' t'') :
    GrowsBelow root t t'' := by
  intro a
  rcases h a with heq | ⟨hp, hne, hnone, hfolder⟩
  · rcases h' a with heq' | ⟨hp, hne, hnone, hfolder⟩
    · exact .inl (heq'.trans heq)
    · exact .inr ⟨hp, hne, heq ▸ hnone, hfolder⟩
  · rcases h' a with heq' | ⟨-, -, hnone', -⟩
    · exact .inr ⟨hp, hne, hnone, heq'.trans hfolder⟩
    · rw [hfolder] at hnone'
      cases hnone'

theorem GrowsBelow.node?_some {n : Node} (h : GrowsBelow root t t') (hn : t.node? a = some n) :
    t'.node? a = some n := by
  rcases h a with heq | ⟨-, -, hnone, -⟩
  · rw [heq, hn]
  · rw [hn] at hnone
    cases hnone

/-- What is no folder was there before. -/
theorem GrowsBelow.node?_of_some {n : Node} (h : GrowsBelow root t t') (hn : t'.node? a = some n)
    (hfolder : n ≠ .folder) : t.node? a = some n := by
  rcases h a with heq | ⟨-, -, -, hnew⟩
  · rw [← heq, hn]
  · rw [hn] at hnew
    exact absurd (Option.some.inj hnew) hfolder

theorem GrowsBelow.file_iff {content : Bytes} (h : GrowsBelow root t t') :
    t'.node? a = some (.file content) ↔ t.node? a = some (.file content) :=
  ⟨fun hn => h.node?_of_some hn (by simp), h.node?_some⟩

theorem GrowsBelow.node?_outside (h : GrowsBelow root t t') (ha : ¬ (root <+: a ∧ a ≠ root)) :
    t'.node? a = t.node? a := by
  rcases h a with heq | ⟨hp, hne, -, -⟩
  · exact heq
  · exact absurd ⟨hp, hne⟩ ha

theorem Opens.grow (h : Opens t cwd output root) (hgrow : GrowsBelow root t t') :
    Opens t' cwd output root := by
  obtain ⟨left, hleft⟩ := h.reaches
  refine ⟨h.text_ne, ⟨left, hleft.mono fun _ _ hn _ => hgrow.node?_some hn⟩, ?_⟩
  intro a target hp hlink
  exact h.linkless a target hp (hgrow.node?_of_some hlink (by simp))

theorem growsBelow_place (hp : root <+: a) (hne : a ≠ root) (hnone : t.node? a = none) :
    GrowsBelow root t (t.place a .folder) := by
  have hnil : a ≠ [] := by
    rintro rfl
    exact hne (List.prefix_nil.1 hp).symm
  by_cases hfolder : t.node? a.dropLast = some .folder
  · intro b
    rw [node?_place hnil hfolder (by simp [hnone])]
    split
    · rename_i hb
      subst hb
      exact .inr ⟨hp, hne, hnone, rfl⟩
    · exact .inl rfl
  · rw [place_of_no_folder .folder fun hplace => hfolder hplace.2]
    exact .refl root t

/-! ## One folder -/

theorem ofLast_eq_name {folder front : Address} {last : Option Step}
    (h : Ending.ofLast front last = .ok (.name folder w)) :
    last = some (.enter w) ∧ folder = front ∧ w.length ≤ 255 := by
  unfold Ending.ofLast at h
  split at h
  · cases h
  · cases h
  · cases h
  · split at h
    · cases h
    · rename_i hsize
      obtain ⟨rfl, rfl⟩ := Ending.name.inj (Except.ok.inj h)
      exact ⟨rfl, rfl, by omega⟩

theorem ofLast_ne_notFound (front : Address) (last : Option Step) :
    Ending.ofLast front last ≠ .error .notFound := by
  unfold Ending.ofLast
  split
  · simp
  · simp
  · simp
  · split <;> simp

/-- The way to the last name of a path. -/
theorem locate_eq_name {folder : Address} (h : t.locate cwd p = .ok (.name folder w)) :
    ∃ init n, p.steps = init ++ [.enter w] ∧ w.length ≤ 255 ∧
      walkLinks t true linkLimit (p.origin cwd) init true = .ok (.taken folder n) := by
  unfold locate at h
  split at h
  · cases h
  · split at h
    · -- dots do not end in a name
      rename_i hdots
      obtain ⟨hlast, -⟩ := ofLast_eq_name h
      exact absurd (List.all_eq_true.1 hdots _ (List.mem_of_getLast? hlast)) (by simp [Step.isDots])
    · split at h
      · cases h
      · cases h
      · rename_i front n hwalk
        obtain ⟨hlast, rfl, hsize⟩ := ofLast_eq_name h
        obtain ⟨init, hsteps⟩ := List.getLast?_eq_some_iff.1 hlast
        rw [hsteps, List.dropLast_concat] at hwalk
        exact ⟨init, n, hsteps, hsize, hwalk⟩

/-- Where the last name of a path is free, the path leads to no folder. The name may be looked up in a
    tree that holds more. -/
theorem not_leadsTo_of_locate {folder : Address} (hlocate : t'.locate cwd p = .ok (.name folder w))
    (hwithin : t.Within t') (hfree : t.node? (folder ++ [w]) = none) : ¬ t.LeadsTo cwd p a := by
  rintro ⟨left, h⟩
  obtain ⟨init, n, hsteps, hsize, hwalk⟩ := locate_eq_name hlocate
  rw [hsteps] at h
  rcases h.init with ⟨left', folder', hinit⟩ | hstays
  · -- the way in front of the name is the same in both trees
    rw [walkLinks_of_reaches (hinit.within hwithin) true] at hwalk
    obtain ⟨rfl, -⟩ := Place.taken.inj (Except.ok.inj hwalk)
    have hend := walkLinks_of_reaches h true
    rw [walkLinks_append hinit, walkLinks_none hsize hfree] at hend
    cases hend
  · exact absurd rfl (hstays (.enter w) (by simp) w)

/-- A path that leads to a folder is not missed. -/
theorem LeadsTo.locate_ne_notFound (h : t.LeadsTo cwd p a) (htext : p.bytes ≠ []) :
    t.locate cwd p ≠ .error .notFound := by
  obtain ⟨left, hleft⟩ := h
  rw [locate]
  split
  · rename_i fault husable
    intro hmissing
    exact htext (Path.text_of_unusable? (Except.error.inj hmissing ▸ husable))
  · split
    · exact ofLast_ne_notFound _ _
    · rename_i hdots
      have hne : p.steps ≠ [] := by
        intro hnil
        rw [hnil] at hdots
        exact hdots rfl
      have hsplit : p.steps = p.steps.dropLast ++ [p.steps.getLast hne] :=
        (List.dropLast_concat_getLast hne).symm
      rw [hsplit] at hleft
      rcases hleft.init with ⟨left', folder, hinit⟩ | hstays
      · rw [walkLinks_of_reaches hinit true]
        exact ofLast_ne_notFound _ _
      · rw [← hsplit] at hstays
        exact absurd (List.all_eq_true.2 fun s hs => Step.isDots_iff.2 (hstays s hs)) hdots

/-- A folder is made at the last name of a path, where nothing is, or nothing changes. -/
theorem makeFolder_cases (t : FileTree) (cwd : Address) (p : Path) :
    (∃ folder name, t.locate cwd p = .ok (.name folder name) ∧ t.node? (folder ++ [name]) = none ∧
      t.makeFolder cwd p = (.ok (), t.place (folder ++ [name]) .folder)) ∨
    ∃ fault, t.makeFolder cwd p = (.error fault, t) ∧
      (fault = .notFound → t.locate cwd p = .error .notFound) := by
  cases hlocate : t.locate cwd p with
  | error fault =>
    refine .inr ⟨fault, by rw [makeFolder, hlocate], ?_⟩
    rintro rfl
    rfl
  | ok ending =>
    cases ending with
    | name folder name =>
      cases hnode : t.node? (folder ++ [name]) with
      | none => exact .inl ⟨folder, name, rfl, hnode, by simp only [makeFolder, hlocate, hnode]⟩
      | some n =>
        refine .inr ⟨.fileExists, by simp only [makeFolder, hlocate, hnode], ?_⟩
        intro h
        cases h
    | here => exact .inr ⟨.fileExists, by rw [makeFolder, hlocate], fun h => by cases h⟩
    | up => exact .inr ⟨.fileExists, by rw [makeFolder, hlocate], fun h => by cases h⟩
    | root => exact .inr ⟨.fileExists, by rw [makeFolder, hlocate], fun h => by cases h⟩

theorem ensureFolder_snd (t : FileTree) (cwd : Address) (p : Path) :
    (t.ensureFolder cwd p).2 = (t.makeFolder cwd p).2 := by
  rw [ensureFolder]
  rcases makeFolder_cases t cwd p with ⟨folder, name, -, -, hmake⟩ | ⟨fault, hmake, -⟩
  · rw [hmake]
  · rw [hmake]
    show (if t.isFolder cwd p = true then _ else _ : Outcome Unit).2 = t
    split <;> rfl

/-! ## Paths on the way up -/

/-- Whether a path is one that leads to the folder `root`, with names behind it. -/
def Climbs (output p : Path) : Prop :=
  ∃ names, (∀ w ∈ names, Path.IsPlain w) ∧ p = (output.descend names).bare

theorem reaches_bare {left : Nat} (hp : p.bytes ≠ [])
    (h : Reaches t linkLimit (p.origin cwd) p.steps left a) :
    Reaches t linkLimit (p.bare.origin cwd) p.bare.steps left a := by
  obtain ⟨dots, hdots, hsteps⟩ := p.steps_bare
  rw [Path.origin, Path.isAbsolute_bare hp, ← Path.origin]
  rw [hsteps] at h
  generalize p.bare.steps = steps at h
  clear hsteps
  induction dots generalizing steps with
  | nil => rwa [List.append_nil] at h
  | cons s dots ih =>
    obtain ⟨rfl, hdots'⟩ := List.forall_mem_cons.1 hdots
    rw [List.append_cons] at h
    exact (ih hdots' (steps ++ [.here]) h).of_here

/-- Where a path leads to a folder, no folder is made. -/
theorem makeFolder_of_reaches {left : Nat}
    (h : Reaches t linkLimit (p.origin cwd) p.steps left a) : (t.makeFolder cwd p).2 = t := by
  rcases makeFolder_cases t cwd p with ⟨folder, name, hlocate, hnone, -⟩ | ⟨fault, hmake, -⟩
  · exact absurd ⟨left, h⟩ (not_leadsTo_of_locate hlocate (.refl t) hnone)
  · rw [hmake]

/-- Behind a path that leads to a folder, a name makes at most one folder, below that folder. -/
theorem makeFolder_grows (h : Opens t cwd output root) (hnames : ∀ v ∈ names, Path.IsPlain v)
    (hw : Path.IsPlain w) :
    GrowsBelow root t (t.makeFolder cwd (output.descend (names ++ [w]))).2 := by
  have hall : ∀ v ∈ names ++ [w], Path.IsPlain v := by
    simpa [or_imp, forall_and] using ⟨hnames, hw⟩
  rcases makeFolder_cases t cwd (output.descend (names ++ [w])) with
    ⟨folder, name, hlocate, hnone, hmake⟩ | ⟨fault, hmake, -⟩
  · obtain ⟨init, n, hsteps, -, hwalk⟩ := locate_eq_name hlocate
    obtain ⟨left, hleft⟩ := h.reaches
    rw [Path.steps_descend output hall, List.map_append, ← List.append_assoc] at hsteps
    obtain ⟨rfl, hlast⟩ := List.append_inj' hsteps rfl
    obtain rfl : w = name := Step.enter.inj (List.singleton_inj.1 hlast)
    rw [Path.origin_descend h.text_ne hall, walkLinks_append hleft] at hwalk
    have hled := walkLinks_names names left true h.linkless h.node?_root
    rw [hwalk] at hled
    obtain ⟨rfl, hnode⟩ := hled
    rw [hmake]
    rw [List.append_assoc] at hnone ⊢
    exact growsBelow_place (List.prefix_append _ _) (by simp) hnone
  · rw [hmake]
    exact .refl root t

theorem makeFolder_climbs (h : Opens t cwd output root) (hp : Climbs output p) :
    GrowsBelow root t (t.makeFolder cwd p).2 := by
  obtain ⟨names, hnames, rfl⟩ := hp
  by_cases hne : names = []
  · subst hne
    obtain ⟨left, hleft⟩ := h.reaches
    rw [Path.descend_nil, makeFolder_of_reaches (reaches_bare h.text_ne hleft)]
    exact .refl root t
  · rw [Path.bare_descend h.text_ne hnames hne]
    obtain ⟨front, w, rfl⟩ := Path.exists_concat hne
    exact makeFolder_grows h (fun v hv => hnames v (by simp [hv])) (hnames w (by simp))

/-- A path that is missing is looked for in front of it, never in front of the folder `root`. -/
theorem parent?_climbs {q : Path} (h : Opens t cwd output root) (hp : Climbs output p)
    (hmissing : t.locate cwd p = .error .notFound) (hq : p.parent? = some q) : Climbs output q := by
  obtain ⟨names, hnames, rfl⟩ := hp
  by_cases hne : names = []
  · subst hne
    obtain ⟨left, hleft⟩ := h.reaches
    have hleads : t.LeadsTo cwd output.bare root := ⟨left, reaches_bare h.text_ne hleft⟩
    exact absurd hmissing (hleads.locate_ne_notFound (Path.bare_ne_empty h.text_ne))
  · rw [Path.bare_descend h.text_ne hnames hne] at hq
    obtain ⟨front, w, rfl⟩ := Path.exists_concat hne
    have hfront : ∀ v ∈ front, Path.IsPlain v := fun v hv => hnames v (by simp [hv])
    rw [Path.parent?_descend h.text_ne hfront (hnames w (by simp))] at hq
    exact ⟨front, hfront, (Option.some.inj hq).symm⟩

/-! ## Many folders -/

/-- What can become of a tree when a folder is made with those in front of it: what one folder makes
    of it, or, where the path is missing, what is made in front of it, at most with that one folder
    more. -/
theorem makeFoldersUpTo_succ (t : FileTree) (cwd : Address) (n : Nat) (p : Path) :
    (t.makeFoldersUpTo cwd (n + 1) p).2 = t ∨
    (t.makeFoldersUpTo cwd (n + 1) p).2 = (t.makeFolder cwd p).2 ∨
    ∃ q, t.locate cwd p = .error .notFound ∧ p.parent? = some q ∧
      ((t.makeFoldersUpTo cwd (n + 1) p).2 = (t.makeFoldersUpTo cwd n q).2 ∨
      (t.makeFoldersUpTo cwd (n + 1) p).2 =
        ((t.makeFoldersUpTo cwd n q).2.makeFolder cwd p).2) := by
  rw [makeFoldersUpTo]
  split
  · exact .inl rfl
  · rcases makeFolder_cases t cwd p with ⟨folder, name, -, -, hmake⟩ | ⟨fault, hmake, hlocate⟩
    · right
      left
      rw [hmake]
    · rw [hmake]
      by_cases hmissing : fault = .notFound
      · subst hmissing
        cases hq : p.parent? with
        | none => exact .inl rfl
        | some q =>
          refine .inr (.inr ⟨q, hlocate rfl, rfl, ?_⟩)
          simp only
          generalize t.makeFoldersUpTo cwd n q = outcome
          obtain ⟨result, t'⟩ := outcome
          cases result with
          | error fault => exact .inl rfl
          | ok _ => exact .inr (ensureFolder_snd t' cwd p)
      · left
        simp only
        split <;> rfl

/-- Whatever folders are made on the way up, they are made below the folder `root`. -/
theorem makeFoldersUpTo_grows (n : Nat) (h : Opens t cwd output root) (hp : Climbs output p) :
    GrowsBelow root t (t.makeFoldersUpTo cwd n p).2 := by
  induction n generalizing t p with
  | zero =>
    rw [makeFoldersUpTo, ensureFolder_snd]
    exact makeFolder_climbs h hp
  | succ n ih =>
    rcases makeFoldersUpTo_succ t cwd n p with heq | heq | ⟨q, hmissing, hq, heq⟩
    · rw [heq]
      exact .refl root t
    · rw [heq]
      exact makeFolder_climbs h hp
    · have hgrow := ih h (parent?_climbs h hp hmissing hq)
      rcases heq with heq | heq
      · rw [heq]
        exact hgrow
      · rw [heq]
        exact hgrow.trans (makeFolder_climbs (h.grow hgrow) hp)

/-- The folders in front of a file are made below the folder `root`. -/
theorem makeFolders_grows (h : Opens t cwd output root) (hnames : ∀ v ∈ names, Path.IsPlain v)
    (hw : Path.IsPlain w) :
    GrowsBelow root t
      (t.makeFolders cwd ((output.descend (names ++ [w])).parent?.getD ⟨[]⟩)).2 := by
  rw [Path.parent?_descend h.text_ne hnames hw]
  exact makeFoldersUpTo_grows _ h ⟨names, hnames, rfl⟩

end SourceRecovery.FileTree
