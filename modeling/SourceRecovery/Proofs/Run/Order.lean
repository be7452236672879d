import SourceRecovery.Proofs.FileTree.Alike
import SourceRecovery.Proofs.FileTree.Making
import SourceRecovery.Proofs.Run.Accounts

/-!
# The order of the units

An engine hands over its units in an order of its own choosing. Whether all of them can be written
does not depend on that order, and where no two have one destination, neither does what is left.

* `Compatible`: the files of some units can stand in one folder. The order of the units has no say.
* `Tidy`: a folder holds the files of some units, and no folder but those on the way to them.
* `Tidy.onUnit`: one more unit is written exactly if it is compatible with those.
* `Tidy.perform`: so an engine that hands over some units gets them all written exactly if they are
  compatible.
* `Tidy.within`, `Tidy.written_eq`: two tidy folders of the same units hold the same.
* `perform_perm`: whole runs that differ in the order of the units only.
-/

namespace SourceRecovery

namespace Ledger

/-- A sorted ledger is told by its files. -/
theorem eq_of_same_files {l l' : Ledger} (h : l.Sorted) (h' : l'.Sorted)
    (hsame : ∀ f, f ∈ l ↔ f ∈ l') : l = l' := by
  have hnodup : ∀ {l : Ledger}, l.Sorted → l.Nodup := fun hl =>
    hl.imp fun hlt heq => Text.ne_of_encode_lt hlt (congrArg WrittenFile.path heq)
  have hperm : l.Perm l' := (List.perm_ext_iff_of_nodup (hnodup h) (hnodup h')).2 hsame
  refine hperm.eq_of_pairwise (fun f g _ _ hlt hgt => ?_) h h'
  exact absurd (List.lt_trans hlt hgt) (List.lt_irrefl _)

end Ledger

namespace FileTree

variable {t t' : FileTree}

/-- Trees of which each holds everything that the other one does are alike. -/
theorem alike_of_within (h : t.Within t') (h' : t'.Within t) : t.Alike t' := fun a =>
  Option.ext fun n => ⟨h a n, h' a n⟩

end FileTree

namespace Run

open FileTree (Followed Opens PassableBelow Adds)

variable {cwd root : Address} {output : Path} {t₀ t t' : FileTree} {s s' : Account}
  {u v : SourceUnit} {kept kept' units units' : List SourceUnit} {names : List Name}
  {file : WrittenFile} {marker : String} {settings : Settings}

/-! ## One unit -/

/-- A unit is written if only folders stand on its way and none in its place. -/
theorem deposit_adds (h : t.Opens cwd output root) (hblank : u.isBlank = false)
    {front : List Name} {w : Name} (hbelow : u.below? = some (front ++ [w]))
    (hfollowed : Followed output (front ++ [w])) (hway : PassableBelow t root front)
    (hfree : t.node? (root ++ (front ++ [w])) ≠ some .folder) :
    ∃ file t', deposit cwd output u t = (.stored file, t') ∧
      Adds root [(front ++ [w], Text.encode u.content)] t t' := by
  obtain ⟨-, hnames⟩ := SourceUnit.plain_of_below? hbelow
  obtain ⟨t₁, t', hmade, -, hwrite, hadds⟩ :=
    FileTree.makeFile_adds h hnames hfollowed hway hfree (Text.encode u.content)
  refine ⟨⟨pathBelow output (output.descend (front ++ [w])), Digest.Sha256.ofText u.content⟩, t', ?_,
    hadds⟩
  rw [deposit, if_neg (by simp [hblank]), SourceUnit.destination?_eq, hbelow]
  simp only [Option.map_some, hmade, hwrite]

/-- A unit that was written has found no file on its way and no folder in its place. -/
theorem way_of_stored (h : t.Opens cwd output root)
    (hstored : (deposit cwd output u t).1 = .stored file) :
    ∃ names, u.below? = some names ∧ Followed output names ∧
      (∀ front content, front <+: names → front ≠ names →
        t.node? (root ++ front) ≠ some (.file content)) ∧
      t.node? (root ++ names) ≠ some .folder := by
  have hspec := deposit_spec h u
  rw [hstored] at hspec
  generalize (deposit cwd output u t).2 = t' at hspec
  cases hspec with
  | @stored names t₁ _ _ hbelow hfollowed hgrow hfree hinstead =>
    refine ⟨names, hbelow, hfollowed, ?_, fun hfolder => hfree (hgrow.node?_some hfolder)⟩
    intro front content hp hne hfile
    -- the file of the unit stands below it afterwards
    have hthere : t'.node? (root ++ names) = some (.file (Text.encode u.content)) := by
      rw [hinstead, if_pos rfl]
    have hfolder : t'.node? (root ++ front) = some .folder :=
      FileTree.node?_above hthere ((List.prefix_append_right_inj root).2 hp) (by simpa using hne)
    rw [node?_other hinstead hne, hgrow.node?_some hfile] at hfolder
    cases hfolder

/-! ## Units that are compatible -/

/-- Whether the files of some units can stand in one folder: the system follows their paths, and none
    of them stands on the way to another one. -/
def Compatible (output : Path) (units : List SourceUnit) : Prop :=
  ∀ u ∈ units, ∀ names, u.below? = some names → Followed output names ∧
    ∀ v ∈ units, ∀ names', v.below? = some names' → names <+: names' → names = names'

theorem Compatible.of_subset (h : Compatible output units) (hsub : units' ⊆ units) :
    Compatible output units' := by
  intro u hu names hbelow
  obtain ⟨hfollowed, happart⟩ := h u (hsub hu) names hbelow
  exact ⟨hfollowed, fun v hv => happart v (hsub hv)⟩

/-- Whether the folder that the output path leads to holds the files of some compatible units, and no
    folder but those on the way to them. -/
structure Tidy (cwd : Address) (output : Path) (root : Address) (t₀ : FileTree)
    (kept : List SourceUnit) (t : FileTree) (s : Account) : Prop where
  describes : Describes cwd output root t₀ kept t s
  compatible : Compatible output kept
  folders : ∀ names, t.node? (root ++ names) = some .folder →
    names = [] ∨ ∃ u ∈ kept, ∃ names', u.below? = some names' ∧ names <+: names'

theorem tidy_start (h : t.Opens cwd output root)
    (hempty : ∀ a, root <+: a → a ≠ root → t.node? a = none) (events : List Event) :
    Tidy cwd output root t [] t (.start events) := by
  refine ⟨describes_start h hempty events, by simp [Compatible], fun names hfolder => ?_⟩
  by_cases hnil : names = []
  · exact .inl hnil
  · rw [hempty _ (List.prefix_append root names) (by simpa using hnil)] at hfolder
    cases hfolder

namespace Tidy

/-- A unit that is written is compatible with those that were written before. -/
theorem compatible_of_stored (h : Tidy cwd output root t₀ kept t s)
    (hstored : (deposit cwd output u t).1 = .stored file) : Compatible output (kept ++ [u]) := by
  obtain ⟨names, hbelow, hfollowed, hway, hfree⟩ := way_of_stored h.describes.opens hstored
  intro v hv names' hbelow'
  rcases List.mem_append.1 hv with hv | hv
  · obtain ⟨hfollowed', happart⟩ := h.compatible v hv names' hbelow'
    refine ⟨hfollowed', fun x hx names'' hbelow'' hp => ?_⟩
    rcases List.mem_append.1 hx with hx | hx
    · exact happart x hx names'' hbelow'' hp
    · rw [List.mem_singleton.1 hx, hbelow] at hbelow''
      rw [← Option.some.inj hbelow''] at hp ⊢
      obtain ⟨content, hfile⟩ := h.describes.exists_file hv hbelow'
      exact Classical.byContradiction fun hne => hway names' content hp hne hfile
  · rw [List.mem_singleton.1 hv, hbelow] at hbelow'
    rw [← Option.some.inj hbelow']
    refine ⟨hfollowed, fun x hx names'' hbelow'' hp => ?_⟩
    rcases List.mem_append.1 hx with hx | hx
    · obtain ⟨content, hfile⟩ := h.describes.exists_file hx hbelow''
      refine Classical.byContradiction fun hne => hfree ?_
      exact FileTree.node?_above hfile ((List.prefix_append_right_inj root).2 hp)
        (by simpa using hne)
    · rw [List.mem_singleton.1 hx, hbelow] at hbelow''
      exact Option.some.inj hbelow''

/-- On the way to a compatible unit there are only folders. -/
theorem passable (h : Tidy cwd output root t₀ kept t s) {front : List Name} {w : Name}
    (hbelow : u.below? = some (front ++ [w])) (hfits : Compatible output (kept ++ [u])) :
    PassableBelow t root front := by
  intro before hp hne
  cases hnode : t.node? (root ++ before) with
  | none => exact .inl rfl
  | some n =>
    cases n with
    | folder => exact .inr rfl
    | link target => exact absurd hnode (h.describes.opens.linkless _ target (List.prefix_append _ _))
    | file content =>
      obtain ⟨v, hlast, -⟩ := (h.describes.files before content).1 hnode
      obtain ⟨-, happart⟩ := hfits v (List.mem_append_left [u] (mem_of_lastInto hlast)) before
        (below?_of_lastInto hlast)
      have heq := happart u (by simp) _ hbelow (hp.trans (List.prefix_append front [w]))
      have hlen := hp.length_le
      rw [heq, List.length_append, List.length_singleton] at hlen
      omega

/-- In the place of a compatible unit there is no folder. -/
theorem not_folder (h : Tidy cwd output root t₀ kept t s) (hbelow : u.below? = some names)
    (hfits : Compatible output (kept ++ [u])) : t.node? (root ++ names) ≠ some .folder := by
  intro hfolder
  rcases h.folders names hfolder with hnil | ⟨v, hv, names', hbelow', hp⟩
  · exact (SourceUnit.plain_of_below? hbelow).1 hnil
  · obtain rfl := (hfits u (by simp) names hbelow).2 v (List.mem_append_left [u] hv) names' hbelow' hp
    obtain ⟨content, hfile⟩ := h.describes.exists_file hv hbelow'
    rw [hfile] at hfolder
    cases hfolder

/-- A compatible unit is written, and the folder is tidy still. -/
theorem store (h : Tidy cwd output root t₀ kept t s) (hkept : isDropped output u = false)
    (hfits : Compatible output (kept ++ [u])) :
    ∃ file, (deposit cwd output u t).1 = .stored file ∧
      Tidy cwd output root t₀ (kept ++ [u]) (deposit cwd output u t).2 (s.enter u (.stored file)) := by
  obtain ⟨names, hbelow⟩ := below?_of_kept hkept
  obtain ⟨hfollowed, -⟩ := hfits u (by simp) names hbelow
  obtain ⟨front, w, rfl⟩ := Path.exists_concat (SourceUnit.plain_of_below? hbelow).1
  have hblank : u.isBlank = false := (Bool.or_eq_false_iff.1 hkept).1
  obtain ⟨file, t', hdeposit, hadds⟩ := deposit_adds h.describes.opens hblank hbelow hfollowed
    (h.passable hbelow hfits) (h.not_folder hbelow hfits)
  have hdescribes := describes_onUnit h.describes u
  rw [hdeposit] at hdescribes ⊢
  refine ⟨file, rfl, hdescribes, hfits, fun names' hfolder => ?_⟩
  by_cases hp : names' <+: front ++ [w]
  · exact .inr ⟨u, by simp, front ++ [w], hbelow, hp⟩
  · rw [hadds.elsewhere] at hfolder
    · refine (h.folders names' hfolder).imp_right ?_
      rintro ⟨v, hv, hway⟩
      exact ⟨v, List.mem_append_left [u] hv, hway⟩
    · intro e he hpe
      rw [List.mem_singleton.1 he] at hpe
      exact hp ((List.prefix_append_right_inj root).1 hpe)

/-- What becomes of one more unit: it is dropped, or it is written and was compatible, or it was not
    compatible and could not be written. -/
theorem onUnit (h : Tidy cwd output root t₀ kept t s) (u : SourceUnit) :
    let d := (deposit cwd output u t).1
    let t' := (deposit cwd output u t).2
    isDropped output u = true ∧ answer d = .ok () ∧ Tidy cwd output root t₀ kept t' (s.enter u d) ∧
        (s.enter u d).fault = s.fault ∧ (s.enter u d).dropped = s.dropped + 1 ∨
      isDropped output u = false ∧ Compatible output (kept ++ [u]) ∧ answer d = .ok () ∧
        Tidy cwd output root t₀ (kept ++ [u]) t' (s.enter u d) ∧
        (s.enter u d).fault = s.fault ∧ (s.enter u d).dropped = s.dropped ∨
      isDropped output u = false ∧ ¬ Compatible output (kept ++ [u]) ∧
        (∃ failure, answer d = .error failure) ∧ (s.enter u d).fault ≠ none := by
  cases hdropped : isDropped output u with
  | true =>
    have htidy : ∀ s' : Account, s'.written = s.written → Tidy cwd output root t₀ kept t s' :=
      fun s' hwritten => ⟨h.describes.grow (.refl root t) hwritten, h.compatible, h.folders⟩
    rcases deposit_of_dropped hdropped t with hd | hd <;> rw [hd] <;>
      exact .inl ⟨rfl, rfl, htidy _ rfl, rfl, rfl⟩
  | false =>
    right
    by_cases hfits : Compatible output (kept ++ [u])
    · obtain ⟨file, hstored, htidy⟩ := h.store hdropped hfits
      rw [hstored]
      exact .inl ⟨rfl, hfits, rfl, htidy, rfl, rfl⟩
    · rcases deposit_of_not_dropped hdropped t with ⟨target, cause, hd⟩ | ⟨file, hstored⟩
      · rw [hd]
        exact .inr ⟨rfl, hfits, ⟨_, rfl⟩, by simp [Account.enter]⟩
      · exact absurd (h.compatible_of_stored hstored) hfits

end Tidy

/-! ## Units in a row -/

/-- Whether a course of action hands over some units in a row, ends at the first of them that is
    refused, and else succeeds. -/
inductive HandsOver : List SourceUnit → Work (Except Failure Unit) → Prop
  | done : HandsOver [] (.done (.ok ()))
  | note (event : Event) {units : List SourceUnit} {rest : Work (Except Failure Unit)}
    (h : HandsOver units rest) : HandsOver units (.note event rest)
  | deliver (u : SourceUnit) {units : List SourceUnit}
    {rest : Except Failure Unit → Work (Except Failure Unit)}
    (hrefused : ∀ failure, ∃ ended, rest (.error failure) = .done ended)
    (h : HandsOver units (rest (.ok ()))) : HandsOver (u :: units) (.deliver u rest)

theorem handsOver_handOver (units : List SourceUnit) : HandsOver units (handOver units) := by
  induction units with
  | nil => exact .done
  | cons u units ih => exact .deliver u (fun failure => ⟨.error failure, rfl⟩) ih

/-- The units that are not dropped. -/
def keptOf (output : Path) (units : List SourceUnit) : List SourceUnit :=
  units.filter fun u => !isDropped output u

theorem keptOf_cons_of_dropped (h : isDropped output u = true) :
    keptOf output (u :: units) = keptOf output units :=
  List.filter_cons_of_neg (by simp [h])

theorem keptOf_cons_of_kept (h : isDropped output u = false) :
    keptOf output (u :: units) = u :: keptOf output units :=
  List.filter_cons_of_pos (by simp [h])

/-- An engine gets its units written exactly if they are compatible, and then it succeeds and the
    folder is tidy. -/
theorem Tidy.perform {course : Work (Except Failure Unit)} (hcourse : HandsOver units course)
    (h : Tidy cwd output root t₀ kept t s) (hfault : s.fault = none) :
    let ended := course.perform (receiver cwd output) t s
    (ended.2.2.fault = none ↔ Compatible output (kept ++ keptOf output units)) ∧
      (ended.2.2.fault = none → ended.1 = .ok () ∧
        Tidy cwd output root t₀ (kept ++ keptOf output units) ended.2.1 ended.2.2 ∧
        ended.2.2.dropped = s.dropped + units.countP (isDropped output)) := by
  induction hcourse generalizing kept t s with
  | done =>
    have hnil : kept ++ keptOf output [] = kept := List.append_nil kept
    rw [hnil]
    exact ⟨iff_of_true hfault h.compatible, fun _ => ⟨rfl, h, rfl⟩⟩
  | note event _ ih =>
    exact ih (s := s.tell event) ⟨h.describes.grow (.refl root t) rfl, h.compatible, h.folders⟩ hfault
  | @deliver u units rest hrefused _ ih =>
    have hstep : (Work.deliver u rest).perform (receiver cwd output) t s =
        (rest (answer (deposit cwd output u t).1)).perform (receiver cwd output)
          (deposit cwd output u t).2 (s.enter u (deposit cwd output u t).1) :=
      rfl
    rw [hstep, List.countP_cons]
    rcases h.onUnit u with ⟨hdropped, hanswer, htidy, hsame, hcount⟩ |
      ⟨hkept, -, hanswer, htidy, hsame, hcount⟩ | ⟨hkept, hfits, ⟨failure, hanswer⟩, hsome⟩
    · have hrest := ih htidy (hsame.trans hfault)
      rw [hcount, Nat.add_right_comm, Nat.add_assoc] at hrest
      rw [hanswer, keptOf_cons_of_dropped hdropped, if_pos hdropped]
      exact hrest
    · have hrest := ih htidy (hsame.trans hfault)
      rw [List.append_assoc, List.singleton_append, hcount] at hrest
      rw [hanswer, keptOf_cons_of_kept hkept, if_neg (by simp [hkept]), Nat.add_zero]
      exact hrest
    · obtain ⟨ended, hended⟩ := hrefused failure
      rw [hanswer, hended]
      refine ⟨iff_of_false hsome fun hall => hfits (hall.of_subset ?_), fun hnone => absurd hnone hsome⟩
      rw [keptOf_cons_of_kept hkept]
      exact List.append_subset.2 ⟨List.subset_append_left _ _, by simp⟩

/-! ## The same units in another order -/

/-- A unit is the last into its destination if no other unit has that one. -/
theorem lastInto_of_nodup (hp : output.bytes ≠ [])
    (hnodup : (kept.map fun u => u.destination? output).Nodup) (hu : u ∈ kept)
    (hbelow : u.below? = some names) : lastInto names kept = some u := by
  obtain ⟨hne, hnames⟩ := SourceUnit.plain_of_below? hbelow
  rw [← lastAt_descend hp hnames]
  apply lastAt_of_nodup hnodup hu
  rw [SourceUnit.destination?_eq, hbelow, Option.map_some]

namespace Tidy

/-- What stands in a tidy folder stands in every tidy folder of the same units, if no two of them have
    one destination. -/
theorem within (h : Tidy cwd output root t₀ kept t s) (h' : Tidy cwd output root t₀ kept' t' s')
    (hperm : kept.Perm kept') (hnodup : (kept'.map fun u => u.destination? output).Nodup) :
    t.Within t' := by
  have hfile : ∀ names content, t.node? (root ++ names) = some (.file content) →
      t'.node? (root ++ names) = some (.file content) := by
    intro names content hnode
    obtain ⟨u, hlast, rfl⟩ := (h.describes.files names content).1 hnode
    refine (h'.describes.files names _).2 ⟨u, ?_, rfl⟩
    exact lastInto_of_nodup h.describes.opens.text_ne hnodup
      (hperm.mem_iff.1 (mem_of_lastInto hlast)) (below?_of_lastInto hlast)
  intro a n hnode
  by_cases hbelow : root <+: a ∧ a ≠ root
  · obtain ⟨⟨names, rfl⟩, hne⟩ := hbelow
    cases n with
    | file content => exact hfile names content hnode
    | link target =>
      exact absurd hnode (h.describes.opens.linkless _ target (List.prefix_append root names))
    | folder =>
      rcases h.folders names hnode with rfl | ⟨u, hu, names', hbelow, hp⟩
      · exact absurd (List.append_nil root) hne
      · obtain ⟨content, hthere⟩ := h.describes.exists_file hu hbelow
        refine FileTree.node?_above (hfile names' content hthere)
          ((List.prefix_append_right_inj root).2 hp) ?_
        intro heq
        rw [heq, hthere] at hnode
        cases hnode
  · rw [h'.describes.outside a hbelow, ← h.describes.outside a hbelow]
    exact hnode

/-- Ledgers of trees that are alike are the same. -/
theorem written_eq (h : Tidy cwd output root t₀ kept t s) (h' : Tidy cwd output root t₀ kept' t' s')
    (halike : t.Alike t') : s.written = s'.written := by
  apply Ledger.eq_of_same_files h.describes.sorted h'.describes.sorted
  intro f
  rw [h.describes.ledger, h'.describes.ledger]
  simp only [halike _]

end Tidy

/-- Where a run succeeds, it succeeds with the units in every order, and with the same end if no two of
    those that are kept have one destination. -/
theorem ok_of_perm {engine engine' : Engine} {o : Outcome} (hperm : units.Perm units')
    (hengine : ∀ request, HandsOver units (engine request))
    (hengine' : ∀ request, HandsOver units' (engine' request))
    (hempty : ∀ t₁, resetOutput t cwd settings.output = (.ok (), t₁) →
      t₁.LeadsToEmpty cwd settings.output)
    (h : (perform cwd marker engine settings t).result = .ok o) :
    ∃ o', (perform cwd marker engine' settings t).result = .ok o' ∧
      (((keptOf settings.output units).map fun u => u.destination? settings.output).Nodup →
        o' = o ∧ (perform cwd marker engine settings t).tree.Alike
          (perform cwd marker engine' settings t).tree) := by
  obtain ⟨t₁, files, selected, hpast, hselected⟩ := pastReset_of_ok h
  by_cases hnil : selected = []
  · -- nothing is selected, and no engine is called
    subst hnil
    have hsame := (hpast.perform_of_nil hselected engine).2.2 engine'
    rw [hsame]
    exact ⟨o, h, fun _ => ⟨rfl, fun _ => rfl⟩⟩
  · obtain ⟨root, hroot, hbelow⟩ := hempty t₁ hpast.reset
    obtain ⟨events, hend⟩ := hpast.perform_engages hselected hnil
    obtain ⟨hresult, htree⟩ := hend engine
    obtain ⟨hresult', htree'⟩ := hend engine'
    have hstart := tidy_start (FileTree.opens_of_empty hroot hbelow) hbelow events
    obtain ⟨hiff, hall⟩ := hstart.perform (hengine (requestFor settings selected)) rfl
    obtain ⟨hiff', hall'⟩ := hstart.perform (hengine' (requestFor settings selected)) rfl
    have hkept : (keptOf settings.output units).Perm (keptOf settings.output units') :=
      hperm.filter _
    rw [hresult] at h
    obtain ⟨hfault, -, rfl⟩ := settle_eq_ok.1 h
    obtain ⟨-, htidy, hcount⟩ := hall hfault
    have hfault' := hiff'.2 ((hiff.1 hfault).of_subset hkept.symm.subset)
    obtain ⟨hended', htidy', hcount'⟩ := hall' hfault'
    refine ⟨_, hresult'.trans (settle_eq_ok.2 ⟨hfault', hended', rfl⟩), fun hnodup => ?_⟩
    have hnodup' := (hkept.map _).nodup_iff.1 hnodup
    have halike := FileTree.alike_of_within (htidy.within htidy' hkept hnodup')
      (htidy'.within htidy hkept.symm hnodup)
    rw [htidy.written_eq htidy' halike, hcount, hcount', hperm.countP_eq, htree, htree']
    exact ⟨rfl, halike⟩

/-- The order in which an engine hands over its units does not matter, if it ends at the first of them
    that is refused and else succeeds, and the output folder is empty at first. A run succeeds in
    every order of the units or in none; and if no two of those that are kept have one destination,
    it has the same outcome in every order, and trees that hold the same are left. -/
theorem perform_perm {engine engine' : Engine} (hperm : units.Perm units')
    (hengine : ∀ request, HandsOver units (engine request))
    (hengine' : ∀ request, HandsOver units' (engine' request))
    (hempty : ∀ t₁, resetOutput t cwd settings.output = (.ok (), t₁) →
      t₁.LeadsToEmpty cwd settings.output) :
    let e := perform cwd marker engine settings t
    let e' := perform cwd marker engine' settings t
    let kept := units.filter fun u => !isDropped settings.output u
    ((∃ o, e.result = .ok o) ↔ ∃ o, e'.result = .ok o) ∧
    ((kept.map fun u => u.destination? settings.output).Nodup → ∀ o, e.result = .ok o →
      e'.result = .ok o ∧ e.tree.Alike e'.tree) := by
  intro e e' kept
  refine ⟨⟨?_, ?_⟩, fun hnodup o ho => ?_⟩
  · rintro ⟨o, ho⟩
    obtain ⟨o', ho', -⟩ := ok_of_perm hperm hengine hengine' hempty ho
    exact ⟨o', ho'⟩
  · rintro ⟨o, ho⟩
    obtain ⟨o', ho', -⟩ := ok_of_perm hperm.symm hengine' hengine hempty ho
    exact ⟨o', ho'⟩
  · obtain ⟨o', ho', hsame⟩ := ok_of_perm hperm hengine hengine' hempty ho
    obtain ⟨rfl, halike⟩ := hsame hnodup
    exact ⟨ho', halike⟩

theorem perform_perm_unitsApart :
    let e := perform [] "T" (fun _ => handOver unitsApart) ⟨⟨"in"⟩, ⟨"out"⟩, [], false⟩ oneClass
    let e' := perform [] "T" (fun _ => handOver unitsApart.reverse) ⟨⟨"in"⟩, ⟨"out"⟩, [], false⟩
      oneClass
    ∃ o, e.result = .ok o ∧ e'.result = .ok o ∧ e.tree.Alike e'.tree := by
  intro e e'
  obtain ⟨o, ho⟩ := perform_ok_of_oneClassReset (fun _ => handOver unitsApart) pastReset_oneClass
    (by decide +kernel)
  have hempty : ∀ t₁, resetOutput oneClass [] ⟨"out"⟩ = (.ok (), t₁) → t₁.LeadsToEmpty [] ⟨"out"⟩ := by
    intro t₁ hreset
    rw [pastReset_oneClass.reset] at hreset
    rw [← (Prod.mk.inj hreset).2]
    exact leadsToEmpty_oneClassReset
  exact ⟨o, ho, (perform_perm (List.reverse_perm unitsApart).symm
    (fun _ => handsOver_handOver unitsApart) (fun _ => handsOver_handOver unitsApart.reverse)
    hempty).2 (by decide +kernel) o ho⟩

end Run

end SourceRecovery
