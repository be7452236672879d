import SourceRecovery.FileTree.Resolve
import SourceRecovery.Proofs.FileTree.Nodes

/-!
# Ways to folders

Which steps lead from one address of a tree to a folder, and how many links are followed on the way.

* `walkLinks_append`: steps that lead to a folder can be walked first.
* `walkLinks_induction`: what holds of every walk, by the steps that are left and the links.
* `ends_of_walkLinks`, `Ends.walkLinks`: the walks that end at a node.
* `walkLinks_of_reaches`, `reaches_of_walkLinks`: the walk ends at a folder exactly if the steps lead
  there.
* `Reaches.mono`: a way stays where folders and links stay.
-/

namespace SourceRecovery

/-- Whether a step enters no name. -/
def Step.Stays (s : Step) : Prop :=
  ∀ name, s ≠ .enter name

theorem Step.isDots_iff {s : Step} : s.isDots = true ↔ s.Stays := by
  cases s <;> simp [isDots, Stays]

namespace FileTree

/-- The steps that lead from an address to a folder. The first number counts the links that may be
    followed, the second one those that are left at the end. -/
inductive Reaches (t : FileTree) : Nat → Address → List Step → Nat → Address → Prop
  | stop {links : Nat} {cur : Address} (h : t.node? cur = some .folder) :
    Reaches t links cur [] links cur
  | here {links left : Nat} {cur a : Address} {rest : List Step} (h : Reaches t links cur rest left a) :
    Reaches t links cur (.here :: rest) left a
  | up {links left : Nat} {cur a : Address} {rest : List Step}
    (h : Reaches t links cur.dropLast rest left a) : Reaches t links cur (.up :: rest) left a
  | folder {links left : Nat} {cur a : Address} {rest : List Step} {name : Name}
    (hsize : name.length ≤ 255) (hnode : t.node? (cur ++ [name]) = some .folder)
    (h : Reaches t links (cur ++ [name]) rest left a) : Reaches t links cur (.enter name :: rest) left a
  | link {links left : Nat} {cur a : Address} {rest : List Step} {name target : Name}
    (hsize : name.length ≤ 255) (hnode : t.node? (cur ++ [name]) = some (.link target))
    (h : Reaches t links ((Path.mk target).origin cur) ((Path.mk target).steps ++ rest) left a) :
    Reaches t (links + 1) cur (.enter name :: rest) left a

variable {t t' t'' : FileTree} {links left : Nat} {cwd cur a : Address} {p : Path}
  {steps more rest : List Step} {follow slash : Bool} {name target : Name} {n : Node}

/-! ## One step of a walk -/

theorem walkLinks_nil : walkLinks t follow links cur [] slash =
    match t.node? cur with
    | some n => .ok (.taken cur n)
    | none => .error .notFound := by
  cases links <;> rfl

theorem walkLinks_here :
    walkLinks t follow links cur (.here :: rest) slash = walkLinks t follow links cur rest slash := by
  cases links <;> rfl

theorem walkLinks_up : walkLinks t follow links cur (.up :: rest) slash =
    walkLinks t follow links cur.dropLast rest slash := by
  cases links <;> rfl

theorem walkLinks_tooLong (h : 255 < name.length) :
    walkLinks t follow links cur (.enter name :: rest) slash = .error .nameTooLong := by
  cases links <;> rw [walkLinks, walkSteps, if_pos h]

theorem walkLinks_none (hsize : name.length ≤ 255) (hnode : t.node? (cur ++ [name]) = none) :
    walkLinks t follow links cur (.enter name :: rest) slash =
      if rest.isEmpty then .ok (.vacant (cur ++ [name]) slash) else .error .notFound := by
  have hsize' : ¬ 255 < name.length := by omega
  cases links <;> rw [walkLinks, walkSteps, if_neg hsize', hnode]

theorem walkLinks_folder (hsize : name.length ≤ 255)
    (hnode : t.node? (cur ++ [name]) = some .folder) :
    walkLinks t follow links cur (.enter name :: rest) slash =
      walkLinks t follow links (cur ++ [name]) rest slash := by
  have hsize' : ¬ 255 < name.length := by omega
  cases links <;> rw [walkLinks, walkSteps, if_neg hsize', hnode] <;> rfl

theorem walkLinks_file {content : Bytes} (hsize : name.length ≤ 255)
    (hnode : t.node? (cur ++ [name]) = some (.file content)) :
    walkLinks t follow links cur (.enter name :: rest) slash =
      if rest.isEmpty && !slash then .ok (.taken (cur ++ [name]) (.file content))
      else .error .notFolder := by
  have hsize' : ¬ 255 < name.length := by omega
  cases links <;> rw [walkLinks, walkSteps, if_neg hsize', hnode]

/-- A link is the end of a way if its name is, no slash stands behind it and it is not to be
    followed. -/
theorem walkLinks_link_eq (hsize : name.length ≤ 255)
    (hnode : t.node? (cur ++ [name]) = some (.link target)) :
    walkLinks t follow (links + 1) cur (.enter name :: rest) slash =
      if rest.isEmpty && !slash && !follow then .ok (.taken (cur ++ [name]) (.link target))
      else walkLinks t follow links ((Path.mk target).origin cur) ((Path.mk target).steps ++ rest)
        (slash || rest.isEmpty && (Path.mk target).endsInSlash) := by
  have hsize' : ¬ 255 < name.length := by omega
  rw [walkLinks, walkSteps, if_neg hsize', hnode]

theorem walkLinks_link_zero_eq (hsize : name.length ≤ 255)
    (hnode : t.node? (cur ++ [name]) = some (.link target)) :
    walkLinks t follow 0 cur (.enter name :: rest) slash =
      if rest.isEmpty && !slash && !follow then .ok (.taken (cur ++ [name]) (.link target))
      else .error .tooManyLinks := by
  have hsize' : ¬ 255 < name.length := by omega
  rw [walkLinks, walkSteps, if_neg hsize', hnode]

theorem walkLinks_link (hsize : name.length ≤ 255)
    (hnode : t.node? (cur ++ [name]) = some (.link target)) :
    walkLinks t true (links + 1) cur (.enter name :: rest) slash =
      walkLinks t true links ((Path.mk target).origin cur) ((Path.mk target).steps ++ rest)
        (slash || rest.isEmpty && (Path.mk target).endsInSlash) := by
  rw [walkLinks_link_eq hsize hnode]
  simp

/-- What holds of every walk: it holds at the end of the steps, and each step carries it from the
    walk that is left to the one in front of it. -/
theorem walkLinks_induction {motive : Nat → Address → List Step → Bool → Prop}
    (nil : ∀ {links cur slash}, motive links cur [] slash)
    (here : ∀ {links cur rest slash}, motive links cur rest slash →
      motive links cur (.here :: rest) slash)
    (up : ∀ {links cur rest slash}, motive links cur.dropLast rest slash →
      motive links cur (.up :: rest) slash)
    (tooLong : ∀ {links cur name rest slash}, 255 < name.length →
      motive links cur (.enter name :: rest) slash)
    (missing : ∀ {links cur name rest slash}, name.length ≤ 255 →
      t.node? (cur ++ [name]) = none → motive links cur (.enter name :: rest) slash)
    (folder : ∀ {links cur name rest slash}, name.length ≤ 255 →
      t.node? (cur ++ [name]) = some .folder → motive links (cur ++ [name]) rest slash →
      motive links cur (.enter name :: rest) slash)
    (file : ∀ {links cur name rest slash content}, name.length ≤ 255 →
      t.node? (cur ++ [name]) = some (.file content) → motive links cur (.enter name :: rest) slash)
    (linkZero : ∀ {cur name rest slash target}, name.length ≤ 255 →
      t.node? (cur ++ [name]) = some (.link target) → motive 0 cur (.enter name :: rest) slash)
    (link : ∀ {links cur name rest slash target}, name.length ≤ 255 →
      t.node? (cur ++ [name]) = some (.link target) →
      motive links ((Path.mk target).origin cur) ((Path.mk target).steps ++ rest)
        (slash || rest.isEmpty && (Path.mk target).endsInSlash) →
      motive (links + 1) cur (.enter name :: rest) slash)
    (links : Nat) (cur : Address) (steps : List Step) (slash : Bool) :
    motive links cur steps slash := by
  -- a link costs one of `links`, every other step is taken off `steps`
  induction links generalizing cur steps slash with
  | zero =>
    induction steps generalizing cur with
    | nil => exact nil
    | cons step rest ih =>
      cases step with
      | here => exact here (ih cur)
      | up => exact up (ih cur.dropLast)
      | enter name =>
        by_cases hsize : name.length ≤ 255
        · cases hnode : t.node? (cur ++ [name]) with
          | none => exact missing hsize hnode
          | some n =>
            cases n with
            | folder => exact folder hsize hnode (ih _)
            | file content => exact file hsize hnode
            | link target => exact linkZero hsize hnode
        · exact tooLong (by omega)
  | succ links ihl =>
    induction steps generalizing cur with
    | nil => exact nil
    | cons step rest ih =>
      cases step with
      | here => exact here (ih cur)
      | up => exact up (ih cur.dropLast)
      | enter name =>
        by_cases hsize : name.length ≤ 255
        · cases hnode : t.node? (cur ++ [name]) with
          | none => exact missing hsize hnode
          | some n =>
            cases n with
            | folder => exact folder hsize hnode (ih _)
            | file content => exact file hsize hnode
            | link target => exact link hsize hnode (ihl _ _ _)
        · exact tooLong (by omega)

/-! ## Walks that end at a node -/

/-- The steps that lead from an address to a node. The number counts the links that may be followed,
    the flags tell of a link at the end that is to be followed and of a slash there. -/
inductive Ends (t : FileTree) (follow : Bool) :
    Nat → Address → List Step → Bool → Address → Node → Prop
  | stop {links : Nat} {cur : Address} {slash : Bool} {n : Node} (hnode : t.node? cur = some n) :
    Ends t follow links cur [] slash cur n
  | here {links : Nat} {cur a : Address} {rest : List Step} {slash : Bool} {n : Node}
    (h : Ends t follow links cur rest slash a n) : Ends t follow links cur (.here :: rest) slash a n
  | up {links : Nat} {cur a : Address} {rest : List Step} {slash : Bool} {n : Node}
    (h : Ends t follow links cur.dropLast rest slash a n) :
    Ends t follow links cur (.up :: rest) slash a n
  | folder {links : Nat} {cur a : Address} {rest : List Step} {slash : Bool} {n : Node}
    {name : Name} (hsize : name.length ≤ 255)
    (hnode : t.node? (cur ++ [name]) = some .folder)
    (h : Ends t follow links (cur ++ [name]) rest slash a n) :
    Ends t follow links cur (.enter name :: rest) slash a n
  | file {links : Nat} {cur : Address} {name : Name} {content : Bytes}
    (hsize : name.length ≤ 255) (hnode : t.node? (cur ++ [name]) = some (.file content)) :
    Ends t follow links cur [.enter name] false (cur ++ [name]) (.file content)
  | linkItself {links : Nat} {cur : Address} {name target : Name}
    (hsize : name.length ≤ 255) (hnode : t.node? (cur ++ [name]) = some (.link target))
    (hfollow : follow = false) :
    Ends t follow links cur [.enter name] false (cur ++ [name]) (.link target)
  | link {links : Nat} {cur a : Address} {rest : List Step} {slash : Bool} {n : Node}
    {name target : Name} (hsize : name.length ≤ 255)
    (hnode : t.node? (cur ++ [name]) = some (.link target))
    (hgoes : (rest.isEmpty && !slash && !follow) = false)
    (h : Ends t follow links ((Path.mk target).origin cur) ((Path.mk target).steps ++ rest)
      (slash || rest.isEmpty && (Path.mk target).endsInSlash) a n) :
    Ends t follow (links + 1) cur (.enter name :: rest) slash a n

theorem ends_of_walkLinks (h : walkLinks t follow links cur steps slash = .ok (.taken a n)) :
    Ends t follow links cur steps slash a n := by
  induction links, cur, steps, slash using walkLinks_induction (t := t) with
  | nil =>
    rw [walkLinks_nil] at h
    split at h
    · rename_i hnode
      obtain ⟨rfl, rfl⟩ := Place.taken.inj (Except.ok.inj h)
      exact .stop hnode
    · cases h
  | here ih =>
    rw [walkLinks_here] at h
    exact .here (ih h)
  | up ih =>
    rw [walkLinks_up] at h
    exact .up (ih h)
  | tooLong hsize =>
    rw [walkLinks_tooLong hsize] at h
    cases h
  | missing hsize hnode =>
    rw [walkLinks_none hsize hnode] at h
    split at h <;> cases h
  | folder hsize hnode ih =>
    rw [walkLinks_folder hsize hnode] at h
    exact .folder hsize hnode (ih h)
  | file hsize hnode =>
    rw [walkLinks_file hsize hnode] at h
    split at h
    · rename_i hend
      obtain ⟨rfl, rfl⟩ : _ = [] ∧ _ = false := by simpa using hend
      obtain ⟨rfl, rfl⟩ := Place.taken.inj (Except.ok.inj h)
      exact .file hsize hnode
    · cases h
  | linkZero hsize hnode =>
    rw [walkLinks_link_zero_eq hsize hnode] at h
    split at h
    · rename_i hend
      obtain ⟨⟨rfl, rfl⟩, hfollow⟩ : (_ = [] ∧ _ = false) ∧ follow = false := by simpa using hend
      obtain ⟨rfl, rfl⟩ := Place.taken.inj (Except.ok.inj h)
      exact .linkItself hsize hnode hfollow
    · cases h
  | link hsize hnode ih =>
    rw [walkLinks_link_eq hsize hnode] at h
    split at h
    · rename_i hend
      obtain ⟨⟨rfl, rfl⟩, hfollow⟩ : (_ = [] ∧ _ = false) ∧ follow = false := by simpa using hend
      obtain ⟨rfl, rfl⟩ := Place.taken.inj (Except.ok.inj h)
      exact .linkItself hsize hnode hfollow
    · rename_i hgoes
      exact .link hsize hnode (Bool.eq_false_iff.2 hgoes) (ih h)

theorem Ends.walkLinks (h : Ends t follow links cur steps slash a n) :
    walkLinks t follow links cur steps slash = .ok (.taken a n) := by
  induction h with
  | stop hnode => rw [walkLinks_nil, hnode]
  | here _ ih => rw [walkLinks_here, ih]
  | up _ ih => rw [walkLinks_up, ih]
  | folder hsize hnode _ ih => rw [walkLinks_folder hsize hnode, ih]
  | file hsize hnode =>
    rw [walkLinks_file hsize hnode]
    rfl
  | @linkItself links _ _ _ hsize hnode hfollow =>
    subst hfollow
    cases links with
    | zero =>
      rw [walkLinks_link_zero_eq hsize hnode]
      rfl
    | succ links =>
      rw [walkLinks_link_eq hsize hnode]
      rfl
  | link hsize hnode hgoes _ ih => rw [walkLinks_link_eq hsize hnode, hgoes, if_neg (by simp), ih]

/-- The node at the end of a walk is one of the tree. -/
theorem Ends.node?_end (h : Ends t follow links cur steps slash a n) : t.node? a = some n := by
  induction h with
  | stop hnode => exact hnode
  | here _ ih => exact ih
  | up _ ih => exact ih
  | folder _ _ _ ih => exact ih
  | file _ hnode => exact hnode
  | linkItself _ hnode _ => exact hnode
  | link _ _ _ _ ih => exact ih

/-! ## Ways and walks -/

/-- A way ends at a folder. -/
theorem Reaches.node?_end (h : Reaches t links cur steps left a) : t.node? a = some .folder := by
  induction h with
  | stop h => exact h
  | here _ ih => exact ih
  | up _ ih => exact ih
  | folder _ _ _ ih => exact ih
  | link _ _ _ ih => exact ih

/-- Steps that lead to a folder can be walked first. -/
theorem walkLinks_append (h : Reaches t links cur steps left a) (more : List Step) (slash : Bool) :
    walkLinks t true links cur (steps ++ more) slash = walkLinks t true left a more slash := by
  induction h generalizing slash with
  | stop h => rfl
  | here _ ih =>
    rw [List.cons_append, walkLinks_here]
    exact ih slash
  | up _ ih =>
    rw [List.cons_append, walkLinks_up]
    exact ih slash
  | folder hsize hnode _ ih =>
    rw [List.cons_append, walkLinks_folder hsize hnode]
    exact ih slash
  | @link links left cur a rest name target hsize hnode _ ih =>
    rw [List.cons_append, walkLinks_link hsize hnode, ← List.append_assoc, ih]
    -- a slash at the end of the target counts only if nothing follows, and then a folder is there
    cases more with
    | nil => rw [walkLinks_nil, walkLinks_nil]
    | cons x more =>
      have hnonempty : (rest ++ x :: more).isEmpty = false := by simp
      rw [hnonempty, Bool.false_and, Bool.or_false]

theorem walkLinks_of_reaches (h : Reaches t links cur steps left a) (slash : Bool) :
    walkLinks t true links cur steps slash = .ok (.taken a .folder) := by
  have hwalk := walkLinks_append h [] slash
  rw [List.append_nil, walkLinks_nil, h.node?_end] at hwalk
  exact hwalk

/-- A walk that ends at a folder has followed a way to it, also one that does not follow a link at its
    end. -/
theorem Ends.reaches (h : Ends t follow links cur steps slash a n) (hfolder : n = .folder) :
    ∃ left, Reaches t links cur steps left a := by
  induction h with
  | stop hnode => exact ⟨_, .stop (hfolder ▸ hnode)⟩
  | here _ ih =>
    obtain ⟨left, hleft⟩ := ih hfolder
    exact ⟨left, .here hleft⟩
  | up _ ih =>
    obtain ⟨left, hleft⟩ := ih hfolder
    exact ⟨left, .up hleft⟩
  | folder hsize hnode _ ih =>
    obtain ⟨left, hleft⟩ := ih hfolder
    exact ⟨left, .folder hsize hnode hleft⟩
  | link hsize hnode _ _ ih =>
    obtain ⟨left, hleft⟩ := ih hfolder
    exact ⟨left, .link hsize hnode hleft⟩
  | file _ _ | linkItself _ _ _ => cases hfolder

theorem reaches_of_walkLinks
    (h : walkLinks t follow links cur steps slash = .ok (.taken a .folder)) :
    ∃ left, Reaches t links cur steps left a :=
  (ends_of_walkLinks h).reaches rfl

/-- A way stays where folders and links stay. -/
theorem Reaches.mono (h : Reaches t links cur steps left a)
    (hle : ∀ b n, t.node? b = some n → (∀ content, n ≠ .file content) → t'.node? b = some n) :
    Reaches t' links cur steps left a := by
  induction h with
  | stop h => exact .stop (hle _ _ h (by simp))
  | here _ ih => exact .here ih
  | up _ ih => exact .up ih
  | folder hsize hnode _ ih => exact .folder hsize (hle _ _ hnode (by simp)) ih
  | link hsize hnode _ ih => exact .link hsize (hle _ _ hnode (by simp)) ih

/-! ## Trees that hold more -/

/-- Whether everything that stands in a tree stands in another one too. -/
def Within (t t' : FileTree) : Prop :=
  ∀ a n, t.node? a = some n → t'.node? a = some n

theorem Within.refl (t : FileTree) : t.Within t :=
  fun _ _ h => h

theorem Within.trans (h : t.Within t') (h' : t'.Within t'') : t.Within t'' :=
  fun a n hn => h' a n (h a n hn)

theorem Ends.within (h : Ends t follow links cur steps slash a n) (hwithin : t.Within t') :
    Ends t' follow links cur steps slash a n := by
  induction h with
  | stop hnode => exact .stop (hwithin _ _ hnode)
  | here _ ih => exact .here ih
  | up _ ih => exact .up ih
  | folder hsize hnode _ ih => exact .folder hsize (hwithin _ _ hnode) ih
  | file hsize hnode => exact .file hsize (hwithin _ _ hnode)
  | linkItself hsize hnode hfollow => exact .linkItself hsize (hwithin _ _ hnode) hfollow
  | link hsize hnode hgoes _ ih => exact .link hsize (hwithin _ _ hnode) hgoes ih

theorem Reaches.within (h : Reaches t links cur steps left a) (hwithin : t.Within t') :
    Reaches t' links cur steps left a :=
  h.mono fun b n hn _ => hwithin b n hn

/-! ## Paths that lead to a folder -/

/-- Whether a path leads to the folder at an address, links followed. -/
def LeadsTo (t : FileTree) (cwd : Address) (p : Path) (a : Address) : Prop :=
  ∃ left, Reaches t linkLimit (p.origin cwd) p.steps left a

/-- The node at the end of a path is the one that the walk along its steps ends at. -/
theorem stat_eq_ok : t.stat cwd follow p = .ok (a, n) ↔ p.unusable? = none ∧
    walkLinks t follow linkLimit (p.origin cwd) p.steps p.endsInSlash = .ok (.taken a n) := by
  rw [stat, resolve]
  cases p.unusable? with
  | some fault => simp
  | none =>
    cases walkLinks t follow linkLimit (p.origin cwd) p.steps p.endsInSlash with
    | error fault => simp
    | ok place => cases place <;> simp

/-! ## Parts of a way -/

/-- A dot at the end of a way leads nowhere. -/
theorem Reaches.of_here (h : Reaches t links cur (steps ++ [.here]) left a) :
    Reaches t links cur steps left a := by
  generalize hall : steps ++ [.here] = all at h
  induction h generalizing steps with
  | stop _ => simp at hall
  | here h ih =>
    cases steps with
    | nil =>
      obtain ⟨-, rfl⟩ := List.cons.inj hall
      exact h
    | cons step steps =>
      obtain ⟨rfl, hrest⟩ := List.cons.inj hall
      exact .here (ih hrest)
  | up _ ih =>
    cases steps with
    | nil => cases hall
    | cons step steps =>
      obtain ⟨rfl, hrest⟩ := List.cons.inj hall
      exact .up (ih hrest)
  | folder hsize hnode _ ih =>
    cases steps with
    | nil => cases hall
    | cons step steps =>
      obtain ⟨rfl, hrest⟩ := List.cons.inj hall
      exact .folder hsize hnode (ih hrest)
  | link hsize hnode _ ih =>
    cases steps with
    | nil => cases hall
    | cons step steps =>
      obtain ⟨rfl, hrest⟩ := List.cons.inj hall
      refine .link hsize hnode (ih ?_)
      rw [← hrest, List.append_assoc]
      rfl

theorem node?_origin (hcur : t.node? cur = some .folder) (p : Path) :
    t.node? (p.origin cur) = some .folder := by
  rw [Path.origin]
  split
  · exact node?_nil t
  · exact hcur

/-- From a folder, steps that enter nothing always lead to one. -/
theorem reaches_of_stays (hcur : t.node? cur = some .folder) (h : ∀ s ∈ steps, s.Stays) :
    ∃ a, Reaches t links cur steps links a := by
  induction steps generalizing cur with
  | nil => exact ⟨cur, .stop hcur⟩
  | cons step rest ih =>
    obtain ⟨hstep, hrest⟩ := List.forall_mem_cons.1 h
    cases step with
    | here =>
      obtain ⟨a, ha⟩ := ih hcur hrest
      exact ⟨a, .here ha⟩
    | up =>
      obtain ⟨a, ha⟩ := ih (node?_dropLast hcur) hrest
      exact ⟨a, .up ha⟩
    | enter name => exact absurd rfl (hstep name)

/-- The way without its last step leads to a folder too, if a name is entered anywhere: a folder that
    is missing in front of it can only be left upwards. -/
theorem Reaches.init {last : Step} (h : Reaches t links cur (steps ++ [last]) left a) :
    (∃ left a, Reaches t links cur steps left a) ∨ ∀ s ∈ steps ++ [last], s.Stays := by
  generalize hall : steps ++ [last] = all at h
  induction h generalizing steps with
  | stop _ => simp at hall
  | here _ ih =>
    cases steps with
    | nil =>
      obtain ⟨rfl, rfl⟩ := List.cons.inj hall
      exact .inr (by simp [Step.Stays])
    | cons step steps =>
      obtain ⟨rfl, rfl⟩ := List.cons.inj hall
      rcases ih rfl with ⟨left, a, ha⟩ | hstays
      · exact .inl ⟨left, a, .here ha⟩
      · exact .inr (List.forall_mem_cons.2 ⟨by simp [Step.Stays], hstays⟩)
  | up _ ih =>
    cases steps with
    | nil =>
      obtain ⟨rfl, rfl⟩ := List.cons.inj hall
      exact .inr (by simp [Step.Stays])
    | cons step steps =>
      obtain ⟨rfl, rfl⟩ := List.cons.inj hall
      rcases ih rfl with ⟨left, a, ha⟩ | hstays
      · exact .inl ⟨left, a, .up ha⟩
      · exact .inr (List.forall_mem_cons.2 ⟨by simp [Step.Stays], hstays⟩)
  | @folder links _ cur _ _ _ hsize hnode _ ih =>
    have hcur := node?_dropLast hnode
    rw [List.dropLast_concat] at hcur
    cases steps with
    | nil => exact .inl ⟨links, cur, .stop hcur⟩
    | cons step steps =>
      obtain ⟨rfl, rfl⟩ := List.cons.inj hall
      rcases ih rfl with ⟨left, a, ha⟩ | hstays
      · exact .inl ⟨left, a, .folder hsize hnode ha⟩
      · obtain ⟨a, ha⟩ := reaches_of_stays hnode fun s hs =>
          hstays s (List.mem_append_left [last] hs)
        exact .inl ⟨_, a, .folder hsize hnode ha⟩
  | @link links _ cur _ rest _ target hsize hnode _ ih =>
    have hcur := node?_dropLast hnode
    rw [List.dropLast_concat] at hcur
    cases steps with
    | nil => exact .inl ⟨links + 1, cur, .stop hcur⟩
    | cons step steps =>
      obtain ⟨rfl, rfl⟩ := List.cons.inj hall
      have hall' : (Path.mk target).steps ++ steps ++ [last] =
          (Path.mk target).steps ++ (steps ++ [last]) := List.append_assoc ..
      rcases ih hall' with ⟨left, a, ha⟩ | hstays
      · exact .inl ⟨left, a, .link hsize hnode ha⟩
      · have hstays' : ∀ s ∈ (Path.mk target).steps ++ steps, s.Stays := by
          intro s hs
          refine hstays s ?_
          show s ∈ (Path.mk target).steps ++ (steps ++ [last])
          rw [← hall']
          exact List.mem_append_left [last] hs
        obtain ⟨a, ha⟩ := reaches_of_stays (node?_origin hcur ⟨target⟩) hstays'
        exact .inl ⟨_, a, .link hsize hnode ha⟩

end FileTree

end SourceRecovery
