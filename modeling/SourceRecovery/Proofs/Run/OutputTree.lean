import SourceRecovery.Proofs.Run.Deposit
import SourceRecovery.Proofs.Run.Ledger
import SourceRecovery.Run.Basic

/-!
# The output folder and the ledger

A run writes the units of an engine into a folder that is empty at first. After every unit, also
after one that could not be written, the ledger lists what that folder holds.

* `Describes`: the files below the output folder, the ledger and the units that were written agree.
* `describes_onUnit`: a unit keeps them in agreement.
* `receive_describes`: so does a sequence of units, from an empty folder on.
-/

namespace SourceRecovery.Run

open FileTree (Opens GrowsBelow HasInstead Followed)

variable {cwd root : Address} {output : Path} {t₀ t t' : FileTree} {s : Account}
  {u : SourceUnit} {kept units : List SourceUnit} {names : List Name} {content : Bytes}

/-! ## Units in sequence -/

/-- The tree and the account after units that are handed over one after another, whatever the
    answers. -/
def receive (cwd : Address) (output : Path) : List SourceUnit → FileTree → Account →
    FileTree × Account
  | [], t, s => (t, s)
  | u :: units, t, s =>
    let (_, t, s) := (receiver cwd output).onUnit u t s
    receive cwd output units t s

/-- The units among them that were written. -/
def storedUnits (cwd : Address) (output : Path) : List SourceUnit → FileTree → List SourceUnit
  | [], _ => []
  | u :: units, t =>
    match deposit cwd output u t with
    | (.stored _, t) => u :: storedUnits cwd output units t
    | (_, t) => storedUnits cwd output units t

/-- The last unit whose destination these names lead to. -/
def lastInto (names : List Name) (units : List SourceUnit) : Option SourceUnit :=
  units.reverse.find? fun u => u.below? == some names

theorem lastInto_concat (names : List Name) (units : List SourceUnit) (u : SourceUnit) :
    lastInto names (units ++ [u]) =
      if u.below? = some names then some u else lastInto names units := by
  rw [lastInto, List.reverse_append, List.reverse_singleton, List.singleton_append,
    List.find?_cons]
  by_cases h : u.below? = some names
  · rw [if_pos h, beq_iff_eq.2 h]
  · rw [if_neg h, beq_eq_false_iff_ne.2 h]
    rfl

theorem below?_of_lastInto (h : lastInto names units = some u) : u.below? = some names := by
  have hfound := List.find?_some h
  exact beq_iff_eq.1 hfound

theorem mem_of_lastInto (h : lastInto names units = some u) : u ∈ units :=
  List.mem_reverse.1 (List.mem_of_find?_eq_some h)

theorem exists_lastInto (hu : u ∈ units) (hbelow : u.below? = some names) :
    ∃ v, lastInto names units = some v := by
  apply Option.isSome_iff_exists.1
  rw [lastInto, List.find?_isSome]
  exact ⟨u, List.mem_reverse.2 hu, beq_iff_eq.2 hbelow⟩

/-! ## Agreement -/

/-- Whether a tree, an account and the units that were written agree, where the output path led to
    `root` in the tree `t₀` of the start. -/
structure Describes (cwd : Address) (output : Path) (root : Address) (t₀ : FileTree)
    (kept : List SourceUnit) (t : FileTree) (s : Account) : Prop where
  /-- The output path leads to the folder, and nothing in it is a link. -/
  opens : t.Opens cwd output root
  /-- What is not below the folder is as it was. -/
  outside : ∀ a, ¬ (root <+: a ∧ a ≠ root) → t.node? a = t₀.node? a
  /-- The files below the folder are those of the units, and the last unit of a destination is the
      one that is found there. -/
  files : ∀ names content, t.node? (root ++ names) = some (.file content) ↔
    ∃ u, lastInto names kept = some u ∧ content = Text.encode u.content
  /-- The ledger lists these files, with the digests of their bytes. -/
  ledger : ∀ f, f ∈ s.written ↔ ∃ names content, t.node? (root ++ names) = some (.file content) ∧
    f = ⟨Path.shown names, Digest.Sha256.hex content⟩
  sorted : s.written.Sorted
  /-- The system follows the path of every unit that was written. -/
  followed : ∀ u ∈ kept, ∀ names, u.below? = some names → Followed output names

theorem Describes.plain (h : Describes cwd output root t₀ kept t s)
    (hfile : t.node? (root ++ names) = some (.file content)) :
    names ≠ [] ∧ ∀ w ∈ names, Path.IsPlain w := by
  obtain ⟨u, hlast, -⟩ := (h.files names content).1 hfile
  exact SourceUnit.plain_of_below? (below?_of_lastInto hlast)

theorem Describes.isText (h : Describes cwd output root t₀ kept t s)
    (hfile : t.node? (root ++ names) = some (.file content)) : ∀ w ∈ names, Text.IsText w := by
  obtain ⟨u, hlast, -⟩ := (h.files names content).1 hfile
  exact SourceUnit.isText_of_below? (below?_of_lastInto hlast)

/-- The file of a unit stands in the folder. -/
theorem Describes.exists_file (h : Describes cwd output root t₀ kept t s) (hu : u ∈ kept)
    (hbelow : u.below? = some names) : ∃ content, t.node? (root ++ names) = some (.file content) := by
  obtain ⟨v, hlast⟩ := exists_lastInto hu hbelow
  exact ⟨_, (h.files names _).2 ⟨v, hlast, rfl⟩⟩

/-- A file of the ledger stands in the folder, and the system follows its path. -/
theorem Describes.file_of_written (h : Describes cwd output root t₀ kept t s) {f : WrittenFile}
    (hf : f ∈ s.written) :
    ∃ names content, f = ⟨Path.shown names, Digest.Sha256.hex content⟩ ∧
      t.node? (root ++ names) = some (.file content) ∧ Followed output names := by
  obtain ⟨names, content, hfile, rfl⟩ := (h.ledger f).1 hf
  obtain ⟨u, hlast, -⟩ := (h.files names content).1 hfile
  exact ⟨names, content, rfl, hfile,
    h.followed u (mem_of_lastInto hlast) names (below?_of_lastInto hlast)⟩

/-- An empty folder agrees with an empty ledger. -/
theorem describes_start (h : t.Opens cwd output root)
    (hempty : ∀ a, root <+: a → a ≠ root → t.node? a = none) (events : List Event) :
    Describes cwd output root t [] t (.start events) := by
  have hnone : ∀ names content, t.node? (root ++ names) ≠ some (.file content) := by
    intro names content hfile
    by_cases hnil : names = []
    · rw [hnil, List.append_nil, h.node?_root] at hfile
      cases hfile
    · rw [hempty _ (List.prefix_append root names) (by simpa using hnil)] at hfile
      cases hfile
  refine ⟨h, fun _ _ => rfl, ?_, ?_, Ledger.sorted_nil, ?_⟩
  · intro names content
    refine ⟨fun hfile => absurd hfile (hnone names content), ?_⟩
    rintro ⟨u, hlast, -⟩
    cases hlast
  · intro f
    refine ⟨fun hf => absurd hf List.not_mem_nil, ?_⟩
    rintro ⟨names, content, hfile, -⟩
    exact absurd hfile (hnone names content)
  · intro u hu
    cases hu

/-- New folders, and whatever is told, leave the agreement as it is. -/
theorem Describes.grow (h : Describes cwd output root t₀ kept t s) (hgrow : t.GrowsBelow root t')
    {s' : Account} (hwritten : s'.written = s.written) :
    Describes cwd output root t₀ kept t' s' := by
  refine ⟨h.opens.grow hgrow, ?_, ?_, ?_, hwritten ▸ h.sorted, h.followed⟩
  · intro a ha
    rw [hgrow.node?_outside ha, h.outside a ha]
  · intro names content
    rw [hgrow.file_iff, h.files]
  · intro f
    simp only [hwritten, h.ledger, hgrow.file_iff]

theorem node?_other {names' : List Name} (h : HasInstead (root ++ names) content t t')
    (hdiff : names' ≠ names) : t'.node? (root ++ names') = t.node? (root ++ names') := by
  rw [h, if_neg (by simpa using hdiff)]

theorem Describes.files_store (h : Describes cwd output root t₀ kept t s)
    (hbelow : u.below? = some names)
    (hinstead : HasInstead (root ++ names) (Text.encode u.content) t t') (names' : List Name)
    (content : Bytes) :
    t'.node? (root ++ names') = some (.file content) ↔
      ∃ v, lastInto names' (kept ++ [u]) = some v ∧ content = Text.encode v.content := by
  rw [lastInto_concat, hbelow]
  by_cases hsame : names' = names
  · rw [hsame, hinstead, if_pos rfl, if_pos rfl]
    simp [eq_comm]
  · rw [node?_other hinstead hsame, if_neg (by simpa using Ne.symm hsame), h.files]

theorem Describes.ledger_store (h : Describes cwd output root t₀ kept t s)
    (hbelow : u.below? = some names)
    (hinstead : HasInstead (root ++ names) (Text.encode u.content) t t') (f : WrittenFile) :
    f ∈ s.written.enter ⟨Path.shown names, Digest.Sha256.hex (Text.encode u.content)⟩ ↔
      ∃ names' content, t'.node? (root ++ names') = some (.file content) ∧
        f = ⟨Path.shown names', Digest.Sha256.hex content⟩ := by
  have hthere : t'.node? (root ++ names) = some (.file (Text.encode u.content)) := by
    rw [hinstead, if_pos rfl]
  rw [Ledger.mem_enter h.sorted, h.ledger]
  constructor
  · rintro (rfl | ⟨⟨names', content, hfile, rfl⟩, hpath⟩)
    · exact ⟨names, _, hthere, rfl⟩
    · have hdiff : names' ≠ names := by
        rintro rfl
        exact hpath rfl
      exact ⟨names', content, by rw [node?_other hinstead hdiff, hfile], rfl⟩
  · rintro ⟨names', content, hfile, rfl⟩
    by_cases hsame : names' = names
    · rw [hsame, hthere] at hfile
      left
      rw [hsame, ← Node.file.inj (Option.some.inj hfile)]
    · -- two files of different names have different paths
      rw [node?_other hinstead hsame] at hfile
      obtain ⟨hne, hnames⟩ := SourceUnit.plain_of_below? hbelow
      obtain ⟨hne', hnames'⟩ := h.plain hfile
      refine .inr ⟨⟨names', content, hfile, rfl⟩, fun hpath => hsame ?_⟩
      exact Path.shown_inj hne' hne hnames' hnames (h.isText hfile)
        (SourceUnit.isText_of_below? hbelow) hpath

/-- A file that is written is entered in the ledger, both instead of the one of its path. -/
theorem Describes.store (h : Describes cwd output root t₀ kept t s) (hbelow : u.below? = some names)
    (hfollowed : Followed output names) (hfree : t.node? (root ++ names) ≠ some .folder)
    (hinstead : HasInstead (root ++ names) (Text.encode u.content) t t') :
    Describes cwd output root t₀ (kept ++ [u]) t' (s.enter u
      (.stored ⟨Path.shown names, Digest.Sha256.hex (Text.encode u.content)⟩)) := by
  refine ⟨h.opens.hasInstead hfree hinstead, ?_, h.files_store hbelow hinstead,
    h.ledger_store hbelow hinstead, Ledger.sorted_enter h.sorted, ?_⟩
  · intro a ha
    obtain ⟨hne, -⟩ := SourceUnit.plain_of_below? hbelow
    rw [hinstead, if_neg, h.outside a ha]
    rintro rfl
    exact ha ⟨List.prefix_append root names, by simpa using hne⟩
  · intro v hv names' hbelow'
    rcases List.mem_append.1 hv with hv | hv
    · exact h.followed v hv names' hbelow'
    · rw [List.mem_singleton.1 hv, hbelow] at hbelow'
      rw [← Option.some.inj hbelow']
      exact hfollowed

/-! ## One unit -/

theorem receive_cons (u : SourceUnit) (units : List SourceUnit) (t : FileTree) (s : Account) :
    receive cwd output (u :: units) t s =
      receive cwd output units (deposit cwd output u t).2 (s.enter u (deposit cwd output u t).1) :=
  rfl

/-- The units that were written once one more has been handed over. -/
def keptAfter (kept : List SourceUnit) (u : SourceUnit) : Deposit → List SourceUnit
  | .stored _ => kept ++ [u]
  | _ => kept

theorem storedUnits_cons (cwd : Address) (output : Path) (kept : List SourceUnit) (u : SourceUnit)
    (units : List SourceUnit) (t : FileTree) :
    kept ++ storedUnits cwd output (u :: units) t =
      keptAfter kept u (deposit cwd output u t).1 ++
        storedUnits cwd output units (deposit cwd output u t).2 := by
  rw [storedUnits]
  split
  · rename_i hdeposit
    rw [hdeposit, keptAfter, List.append_assoc, List.singleton_append]
  · rename_i d t' hother hdeposit
    rw [hdeposit]
    cases d with
    | stored file => exact absurd rfl (hother file)
    | blank => rfl
    | unusable => rfl
    | failed target cause => rfl

/-- A unit that is handed over keeps tree, ledger and written units in agreement. -/
theorem describes_onUnit (h : Describes cwd output root t₀ kept t s) (u : SourceUnit) :
    Describes cwd output root t₀ (keptAfter kept u (deposit cwd output u t).1)
      (deposit cwd output u t).2 (s.enter u (deposit cwd output u t).1) := by
  have hspec := deposit_spec h.opens u
  generalize (deposit cwd output u t).1 = d at hspec ⊢
  generalize (deposit cwd output u t).2 = t' at hspec ⊢
  cases hspec with
  | blank _ => exact h.grow (.refl root t) rfl
  | unusable _ _ => exact h.grow (.refl root t) rfl
  | failed _ _ hgrow => exact h.grow hgrow rfl
  | stored _ hbelow hfollowed hgrow hfree hinstead =>
    exact (h.grow hgrow rfl).store hbelow hfollowed hfree hinstead

/-! ## All units -/

theorem Describes.receive (h : Describes cwd output root t₀ kept t s) (units : List SourceUnit) :
    Describes cwd output root t₀ (kept ++ storedUnits cwd output units t)
      (receive cwd output units t s).1 (receive cwd output units t s).2 := by
  induction units generalizing kept t s with
  | nil =>
    rw [storedUnits, List.append_nil]
    exact h
  | cons u units ih =>
    rw [storedUnits_cons, receive_cons]
    exact ih (describes_onUnit h u)

/-- Whether a course of action changes no file itself, so that whoever receives its units has the
    tree alone. -/
inductive LeavesFiles {α : Type} : Work α → Prop
  | done (value : α) : LeavesFiles (.done value)
  | note (event : Event) {rest : Work α} (h : LeavesFiles rest) : LeavesFiles (.note event rest)
  | deliver (u : SourceUnit) {rest : Except Failure Unit → Work α}
    (h : ∀ answer, LeavesFiles (rest answer)) : LeavesFiles (.deliver u rest)

/-! ## Reading the folder -/

/-- The last unit of a destination. -/
def lastAt (output target : Path) (units : List SourceUnit) : Option SourceUnit :=
  units.reverse.find? fun u => u.destination? output == some target

theorem lastAt_descend (hp : output.bytes ≠ [])
    (hnames : ∀ w ∈ names, Path.IsPlain w) (units : List SourceUnit) :
    lastAt output (output.descend names) units = lastInto names units := by
  have hsame : ∀ u : SourceUnit, (u.destination? output == some (output.descend names)) =
      (u.below? == some names) := by
    intro u
    rw [Bool.eq_iff_iff, beq_iff_eq, beq_iff_eq, SourceUnit.destination?_eq]
    constructor
    · intro h
      obtain ⟨names', hbelow, hdescend⟩ := Option.map_eq_some_iff.1 h
      obtain ⟨-, hnames'⟩ := SourceUnit.plain_of_below? hbelow
      rw [hbelow, descend_inj hp hnames' hnames hdescend]
    · intro h
      rw [h, Option.map_some]
  rw [lastAt, lastInto]
  simp only [hsame]

/-- The destination of a unit that was written holds what the last such unit says. -/
theorem Describes.read (h : Describes cwd output root t₀ kept t s) {target : Path}
    (hlast : lastAt output target kept = some u) :
    t.read cwd target = .ok (Text.encode u.content) := by
  have hdestination : u.destination? output = some target := by
    have hfound := List.find?_some hlast
    exact beq_iff_eq.1 hfound
  rw [SourceUnit.destination?_eq] at hdestination
  obtain ⟨names, hbelow, rfl⟩ := Option.map_eq_some_iff.1 hdestination
  obtain ⟨hne, hnames⟩ := SourceUnit.plain_of_below? hbelow
  rw [lastAt_descend h.opens.text_ne hnames] at hlast
  have hfile := (h.files names _).2 ⟨u, hlast, rfl⟩
  obtain ⟨husable, hsizes⟩ := h.followed u (mem_of_lastInto hlast) names hbelow
  obtain ⟨left, hresolve⟩ := FileTree.resolve_descend h.opens hnames hne husable
  rw [FileTree.read, FileTree.stat, hresolve, FileTree.walkLinks_names_file hsizes hne hfile]

/-! ## What is dropped, and what fails -/

/-- Whether a run drops a unit: it is blank or has no destination. -/
def isDropped (output : Path) (u : SourceUnit) : Bool :=
  u.isBlank || (u.destination? output).isNone

/-- A unit that is dropped leaves the tree as it is. -/
theorem deposit_of_dropped (h : isDropped output u = true) (t : FileTree) :
    deposit cwd output u t = (.blank, t) ∨ deposit cwd output u t = (.unusable, t) := by
  rw [deposit]
  cases hblank : u.isBlank with
  | true => exact .inl rfl
  | false =>
    rw [isDropped, hblank, Bool.false_or, Option.isNone_iff_eq_none] at h
    rw [h]
    exact .inr rfl

/-- A unit that is not dropped is written, or it could not be. -/
theorem deposit_of_not_dropped (h : isDropped output u = false) (t : FileTree) :
    (∃ target cause, (deposit cwd output u t).1 = .failed target cause) ∨
      ∃ file, (deposit cwd output u t).1 = .stored file := by
  rw [isDropped, Bool.or_eq_false_iff, Option.isNone_eq_false_iff, Option.isSome_iff_exists] at h
  obtain ⟨hblank, target, htarget⟩ := h
  rw [deposit, hblank, htarget]
  simp only [Bool.false_eq_true, if_false]
  split
  · exact .inl ⟨_, _, rfl⟩
  · split
    · exact .inl ⟨_, _, rfl⟩
    · exact .inr ⟨_, rfl⟩

theorem onUnit_eq (u : SourceUnit) (t : FileTree) (s : Account) :
    (receiver cwd output).onUnit u t s =
      (answer (deposit cwd output u t).1, (deposit cwd output u t).2,
        s.enter u (deposit cwd output u t).1) :=
  rfl

/-- A unit that is dropped is counted and told of, and changes nothing else. -/
theorem onUnit_dropped (h : isDropped output u = true) (t : FileTree) (s : Account) :
    ∃ event, (receiver cwd output).onUnit u t s =
      (.ok (), t, { s.tell event with dropped := s.dropped + 1 }) := by
  rw [onUnit_eq]
  rcases deposit_of_dropped h t with hd | hd
  · rw [hd]
    exact ⟨.blankDropped u.entryName, rfl⟩
  · rw [hd]
    exact ⟨.unusableDropped u.entryName, rfl⟩

/-- A unit that could not be written changes no file, and nothing is entered for it. -/
theorem onUnit_failed (h : t.Opens cwd output root) {failure : Failure} {s' : Account}
    (hcall : (receiver cwd output).onUnit u t s = (.error failure, t', s')) :
    (∀ a content, t'.node? a = some (.file content) ↔ t.node? a = some (.file content)) ∧
      s'.written = s.written ∧ s'.dropped = s.dropped := by
  have hspec := deposit_spec h u
  rw [onUnit_eq, Prod.mk.injEq, Prod.mk.injEq] at hcall
  obtain ⟨hanswer, rfl, rfl⟩ := hcall
  generalize (deposit cwd output u t).1 = d at hspec hanswer ⊢
  generalize (deposit cwd output u t).2 = t' at hspec ⊢
  cases hspec with
  | blank _ => cases hanswer
  | unusable _ _ => cases hanswer
  | stored _ _ _ _ _ _ => cases hanswer
  | failed _ _ hgrow => exact ⟨fun a content => hgrow.file_iff, rfl, rfl⟩

/-- Every unit that is dropped is counted, and no other. -/
theorem dropped_receive (units : List SourceUnit) (t : FileTree) (s : Account) :
    (receive cwd output units t s).2.dropped = s.dropped + units.countP (isDropped output) := by
  induction units generalizing t s with
  | nil => rfl
  | cons u units ih =>
    rw [receive_cons, ih, List.countP_cons]
    cases hdropped : isDropped output u with
    | true =>
      have hcount : (s.enter u (deposit cwd output u t).1).dropped = s.dropped + 1 := by
        rcases deposit_of_dropped hdropped t with hd | hd <;> rw [hd] <;> rfl
      rw [hcount, if_pos rfl]
      omega
    | false =>
      have hcount : (s.enter u (deposit cwd output u t).1).dropped = s.dropped := by
        rcases deposit_of_not_dropped hdropped t with ⟨target, cause, hd⟩ | ⟨file, hd⟩ <;>
          rw [hd] <;> rfl
      rw [hcount, if_neg Bool.false_ne_true, Nat.add_zero]

/-- Where no unit failed to be written, all are written but the dropped ones. -/
theorem storedUnits_of_fault (units : List SourceUnit) (t : FileTree) (s : Account)
    (h : (receive cwd output units t s).2.fault = none) :
    s.fault = none ∧ storedUnits cwd output units t = units.filter fun u => !isDropped output u := by
  induction units generalizing t s with
  | nil => exact ⟨h, rfl⟩
  | cons u units ih =>
    rw [receive_cons] at h
    obtain ⟨hfault, hrest⟩ := ih _ _ h
    have hstored := storedUnits_cons cwd output [] u units t
    rw [List.nil_append] at hstored
    rw [hstored, hrest]
    cases hdropped : isDropped output u with
    | true =>
      rw [List.filter_cons_of_neg (by simp [hdropped])]
      rcases deposit_of_dropped hdropped t with hd | hd <;> rw [hd] at hfault ⊢ <;>
        exact ⟨hfault, rfl⟩
    | false =>
      rw [List.filter_cons_of_pos (by simp [hdropped])]
      rcases deposit_of_not_dropped hdropped t with ⟨target, cause, hd⟩ | ⟨file, hd⟩
      · rw [hd] at hfault
        cases hfault
      · rw [hd] at hfault ⊢
        exact ⟨hfault, rfl⟩

/-! ## From an empty folder on -/

/-- A run has an outcome if every unit was written or dropped and the engine has succeeded. -/
theorem settle_eq_ok {outcome o : Outcome} {ended : Except Failure Unit} :
    settle outcome ended s = .ok o ↔ s.fault = none ∧ ended = .ok () ∧
      { outcome with written := s.written, dropped := s.dropped } = o := by
  unfold settle
  split <;> simp_all

theorem settle_ok {outcome o : Outcome} {ended : Except Failure Unit}
    (h : settle outcome ended s = .ok o) :
    s.fault = none ∧ o.written = s.written ∧ o.dropped = s.dropped := by
  obtain ⟨hfault, -, rfl⟩ := settle_eq_ok.1 h
  exact ⟨hfault, rfl, rfl⟩

/-- After every sequence of units that is written to an empty folder, the ledger lists the files of
    the folder, and each of them is the last unit of its destination that was written. -/
theorem receive_describes (hroot : t.stat cwd true output = .ok (root, .folder))
    (hempty : ∀ a, root <+: a → a ≠ root → t.node? a = none) (events : List Event)
    (units : List SourceUnit) :
    let kept := storedUnits cwd output units t
    let t' := (receive cwd output units t (.start events)).1
    let s' := (receive cwd output units t (.start events)).2
    Describes cwd output root t kept t' s' ∧
    (∀ target u, lastAt output target kept = some u →
      t'.read cwd target = .ok (Text.encode u.content)) ∧
    s'.dropped = units.countP (isDropped output) ∧
    (∀ u, isDropped output u = true → ∃ event, (receiver cwd output).onUnit u t' s' =
      (.ok (), t', { s'.tell event with dropped := s'.dropped + 1 })) ∧
    (∀ u failure t'' s'', (receiver cwd output).onUnit u t' s' = (.error failure, t'', s'') →
      (∀ a content, t''.node? a = some (.file content) ↔ t'.node? a = some (.file content)) ∧
      s''.written = s'.written ∧ s''.dropped = s'.dropped) ∧
    ∀ outcome ended o, settle outcome ended s' = .ok o →
      kept = units.filter (fun u => !isDropped output u) ∧ o.written = s'.written ∧
        o.dropped = s'.dropped := by
  intro kept t' s'
  have hopens : t.Opens cwd output root := FileTree.opens_of_empty hroot hempty
  have hdescribes : Describes cwd output root t kept t' s' :=
    (describes_start hopens hempty events).receive units
  refine ⟨hdescribes, fun target u hlast => hdescribes.read hlast, ?_, ?_, ?_, ?_⟩
  · show (receive cwd output units t (.start events)).2.dropped = _
    rw [dropped_receive]
    exact Nat.zero_add _
  · intro u hdropped
    exact onUnit_dropped hdropped t' s'
  · intro u failure t'' s'' hcall
    exact onUnit_failed hdescribes.opens hcall
  · intro outcome ended o hsettle
    obtain ⟨hfault, hwritten, hcount⟩ := settle_ok hsettle
    obtain ⟨-, hstored⟩ := storedUnits_of_fault units t (.start events) hfault
    exact ⟨hstored, hwritten, hcount⟩

/-- A tree that holds nothing but one empty folder. -/
def oneFolder : FileTree where
  entries := [(["out"], .folder)]
  nodup := by simp
  rooted := by simp [FileTree.FolderIn]

/-- Two units of one destination, and a blank one. -/
def threeUnits : List SourceUnit :=
  [⟨"a", none, "B.kt", "old"⟩, ⟨"", none, "C.kt", " "⟩, ⟨"", some "a.B", "B.kt", "new"⟩]

theorem receive_describes_threeUnits :
    oneFolder.stat [] true ⟨"out"⟩ = .ok (["out"], .folder) ∧
    (∀ a, (["out"] : Address) <+: a → a ≠ (["out"] : Address) → oneFolder.node? a = none) ∧
    (receive [] ⟨"out"⟩ threeUnits oneFolder (.start [])).1.read [] ⟨"out/a/B.kt"⟩ =
      .ok (Text.encode "new") ∧
    (receive [] ⟨"out"⟩ threeUnits oneFolder (.start [])).2.dropped = 1 := by
  have hroot : oneFolder.stat [] true ⟨"out"⟩ = .ok (["out"], .folder) := by rfl
  have hempty : ∀ a, (["out"] : Address) <+: a → a ≠ (["out"] : Address) → oneFolder.node? a = none := by
    intro a hp hne
    have hnil : a ≠ [] := fun h => by simp [h] at hp
    simp [FileTree.node?, hnil, oneFolder, Ne.symm hne]
  have hlast : lastAt ⟨"out"⟩ ⟨"out/a/B.kt"⟩ (storedUnits [] ⟨"out"⟩ threeUnits oneFolder) =
      some ⟨"", some "a.B", "B.kt", "new"⟩ := by decide
  obtain ⟨-, hread, hdropped, -⟩ := receive_describes hroot hempty [] threeUnits
  exact ⟨hroot, hempty, hread _ _ hlast, hdropped.trans (by decide)⟩

end SourceRecovery.Run
