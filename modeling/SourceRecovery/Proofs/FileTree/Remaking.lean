import SourceRecovery.Proofs.FileTree.Sparing

/-!
# Folders that are made again

Where folders have been taken away, those that are made for a path that led to a folder before are
the ones that were there.

* `FewerFolders`: a tree lacks some folders of another one, and nothing else.
* `Reaches.front`: on the way to a folder, every beginning of the way leads to one.
* `Settled`: a path leads to a folder, or holds nothing but dots.
* `makeFolder_remakes`, `makeFoldersUpTo_remakes`: what is made for such a path was there.
-/

namespace SourceRecovery

namespace FileTree

variable {s t : FileTree} {cwd a cur : Address} {p q : Path} {links left n : Nat}
  {steps more : List Step}

/-- Every beginning of a way to a folder leads to one too, if a name is entered in it. -/
theorem Reaches.front (h : Reaches t links cur (steps ++ more) left a) :
    (∃ left a, Reaches t links cur steps left a) ∨ ∀ s ∈ steps, s.Stays := by
  induction hlen : more.length generalizing more left a with
  | zero =>
    rw [List.length_eq_zero_iff.1 hlen, List.append_nil] at h
    exact .inl ⟨left, a, h⟩
  | succ k ih =>
    have hne : more ≠ [] := by
      rintro rfl
      cases hlen
    obtain ⟨init, last, rfl⟩ : ∃ init last, more = init ++ [last] :=
      ⟨_, _, (List.dropLast_concat_getLast hne).symm⟩
    rw [← List.append_assoc] at h
    rcases h.init with ⟨left', a', hinit⟩ | hstays
    · exact ih hinit (by simpa using hlen)
    · exact .inr fun s hs => hstays s (by simp [hs])

/-- Whether a tree lacks some folders of another one, and nothing else. -/
structure FewerFolders (s t : FileTree) : Prop where
  within : s.Within t
  lacking : ∀ b n, t.node? b = some n → s.node? b = some n ∨ n = .folder

/-- Whether a path leads to a folder or holds nothing but dots. -/
def Settled (t : FileTree) (cwd : Address) (p : Path) : Prop :=
  (∃ a, t.LeadsTo cwd p a) ∨ ∀ s ∈ p.steps, s.Stays

/-- A folder that is made for a path that leads to one where more stands, stands there. -/
theorem makeFolder_remakes (h : FewerFolders s t) (hp : t.Settled cwd p) :
    FewerFolders (s.makeFolder cwd p).2 t := by
  rcases makeFolder_cases s cwd p with ⟨folder, name, hlocate, hnone, hmake⟩ | ⟨fault, hmake, -⟩
  · obtain ⟨init, node, hsteps, hsize, hwalk⟩ := locate_eq_name hlocate
    have hnames : ¬ ∀ s ∈ init ++ [.enter name], Step.Stays s := fun hstays =>
      absurd rfl (hstays (.enter name) (by simp) name)
    obtain ⟨a, left, hleft⟩ : ∃ a, t.LeadsTo cwd p a := hp.resolve_right (hsteps ▸ hnames)
    rw [hsteps] at hleft
    obtain ⟨left', front, hinit⟩ := hleft.init.resolve_right hnames
    -- both trees walk the same way up to the last name
    have hsame := walkLinks_within hwalk h.within
    rw [walkLinks_of_reaches hinit] at hsame
    obtain ⟨rfl, rfl⟩ := Place.taken.inj (Except.ok.inj hsame)
    have hend := walkLinks_of_reaches hleft false
    rw [walkLinks_append hinit] at hend
    have hfolder : t.node? (front ++ [name]) = some .folder := by
      cases hnode : t.node? (front ++ [name]) with
      | none =>
        rw [walkLinks_none hsize hnode] at hend
        cases hend
      | some n =>
        rcases h.lacking _ n hnode with hthere | rfl
        · rw [hnone] at hthere
          cases hthere
        · rfl
    have hplace : ∀ b, (s.place (front ++ [name]) .folder).node? b =
        if b = front ++ [name] then some .folder else s.node? b := fun b =>
      node?_place (by simp) (by rw [List.dropLast_concat]; exact node?_of_walkLinks hwalk)
        (by simp [hnone])
    rw [hmake]
    constructor
    · intro b n hn
      rw [hplace b] at hn
      split at hn
      · rename_i hb
        rw [hb, hfolder, ← hn]
      · exact h.within b n hn
    · intro b n hn
      rw [hplace b]
      split
      · rename_i hb
        rw [hb, hfolder] at hn
        exact .inr (Option.some.inj hn).symm
      · exact h.lacking b n hn
  · rw [hmake]
    exact h

/-- What leads to a folder does so from its beginning on. -/
theorem Settled.parent (h : t.Settled cwd p) (hq : p.parent? = some q) (htext : q.bytes ≠ []) :
    t.Settled cwd q := by
  obtain ⟨more, hsteps⟩ := Path.steps_prefix_of_parent? hq htext
  have horigin : p.origin cwd = q.origin cwd := by
    rw [Path.origin, Path.origin, Path.isAbsolute_of_parent? hq htext]
  rcases h with ⟨a, left, hleft⟩ | hstays
  · rw [← hsteps, horigin] at hleft
    exact hleft.front.imp_left exists_comm.1
  · exact .inr fun s hs => hstays s (hsteps ▸ List.mem_append_left more hs)

/-- All the folders that are made for such a path stand there. -/
theorem makeFoldersUpTo_remakes (n : Nat) (h : FewerFolders s t) (hp : t.Settled cwd p) :
    FewerFolders (s.makeFoldersUpTo cwd n p).2 t := by
  induction n generalizing p with
  | zero =>
    rw [makeFoldersUpTo, ensureFolder_snd]
    exact makeFolder_remakes h hp
  | succ n ih =>
    rcases makeFoldersUpTo_succ s cwd n p with heq | heq | ⟨q, -, hq, heq⟩
    · rw [heq]
      exact h
    · rw [heq]
      exact makeFolder_remakes h hp
    · have hfront : FewerFolders (s.makeFoldersUpTo cwd n q).2 t := by
        by_cases htext : q.bytes = []
        · rw [makeFoldersUpTo_of_empty htext]
          exact h
        · exact ih (hp.parent hq htext)
      rcases heq with heq | heq
      · rw [heq]
        exact hfront
      · rw [heq]
        exact makeFolder_remakes hfront hp

end FileTree

end SourceRecovery
