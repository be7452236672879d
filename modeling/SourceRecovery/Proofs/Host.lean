import SourceRecovery.Host
import SourceRecovery.Proofs.FileTree.SingleFile
import SourceRecovery.Proofs.Path.Join

/-!
# The working folder of a host

* `leadsTo_absolute`: told from the root, a path leads where it leads from the working folder.
* `followed_of_absolute`: what the system follows from the root, it follows from there.
* `tryNames_cases`: of the draws for a temporary name one is taken, or nothing changes.
* `start_of_error`, `start_of_ok`: a program that is started is one of those that there are, and one
  that is not changes nothing.
-/

namespace SourceRecovery.Host

variable {host : Host} {t t' : FileTree} {p : Path} {a : Address} {w w' : Name}

/-! ## Absolute paths -/

/-- Whether the working folder is one, under names that the system follows. -/
structure AtHome (host : Host) (t : FileTree) : Prop where
  there : t.node? host.folder = some .folder
  names : ∀ w ∈ host.folder, Path.IsPlain w ∧ w.length ≤ 255

theorem AtHome.within (h : host.AtHome t) (hwithin : t.Within t') : host.AtHome t' :=
  ⟨hwithin _ _ h.there, h.names⟩

theorem folderPath_eq (hnames : ∀ w ∈ host.folder, Path.IsPlain w) :
    host.folderPath = (Path.mk "/").descend host.folder := by
  by_cases hnil : host.folder = []
  · rw [folderPath, hnil]
    rfl
  · obtain ⟨v, vs, hcons⟩ := List.exists_cons_of_ne_nil hnil
    rw [← Path.join_ofPieces ⟨"/"⟩ hnames hnil, Path.mk.injEq, Path.bytes_join, folderPath]
    · rfl
    · rw [hcons] at hnames ⊢
      exact Path.not_isAbsolute_ofPieces (hnames v List.mem_cons_self) vs

/-- The path of the working folder leads there from anywhere. -/
theorem AtHome.reaches (h : host.AtHome t) : FileTree.Reaches t FileTree.linkLimit []
    host.folderPath.steps FileTree.linkLimit host.folder := by
  rw [folderPath_eq fun w hw => (h.names w hw).1,
    Path.steps_descend _ fun w hw => (h.names w hw).1]
  exact FileTree.reaches_names (fun w hw => (h.names w hw).2) h.there FileTree.linkLimit

theorem isAbsolute_folderPath (host : Host) : host.folderPath.isAbsolute = true := by
  simp [folderPath, Path.isAbsolute]

/-- Told from the root, a path leads where it leads from the working folder. -/
theorem leadsTo_absolute (hhome : host.AtHome t) (h : t.LeadsTo host.folder p a) :
    t.LeadsTo host.folder (host.absolute p) a := by
  rw [absolute]
  split
  · exact h
  · rename_i hrelative
    have hp : p.isAbsolute = false := Bool.eq_false_iff.2 hrelative
    obtain ⟨left, hleft⟩ := h
    rw [Path.origin, hp, if_neg (by simp)] at hleft
    have hwalk := FileTree.walkLinks_append hhome.reaches p.steps false
    rw [FileTree.walkLinks_of_reaches hleft, ← Path.steps_join hp] at hwalk
    rw [FileTree.LeadsTo, Path.origin_join hp, Path.origin, isAbsolute_folderPath, if_pos rfl]
    exact FileTree.reaches_of_walkLinks hwalk

theorem absolute_ne_empty (hp : p.bytes ≠ []) : (host.absolute p).bytes ≠ [] := by
  rw [absolute]
  split
  · exact hp
  · rename_i hrelative
    rw [Path.bytes_join _ (Bool.eq_false_iff.2 hrelative)]
    simp [hp]

/-- A path ends the one told from the root. -/
theorem suffix_absolute (host : Host) (p : Path) : p.bytes <:+ (host.absolute p).bytes := by
  rw [absolute]
  split
  · exact List.suffix_refl _
  · rename_i hrelative
    exact ⟨_, (Path.bytes_join _ (Bool.eq_false_iff.2 hrelative)).symm⟩

/-- Where the system follows a name behind a path told from the root, it follows a shorter one behind
    the path itself. -/
theorem followed_of_absolute (hp : p.bytes ≠ []) (hw : Path.IsPlain w) (hw' : Path.IsPlain w')
    (hsize : w'.length < w.length) (hnul : 0 ∉ w')
    (h : FileTree.Followed (host.absolute p) [w]) : FileTree.Followed p [w'] := by
  obtain ⟨front, hfront⟩ := suffix_absolute host p
  obtain ⟨husable, hsizes⟩ := h
  have hbytes : ((host.absolute p).descend [w]).bytes =
      front ++ p.bytes ++ (host.absolute p).separator ++ w := by
    rw [hfront]
    exact Path.bytes_join _ hw.not_isAbsolute
  have hbytes' : (p.descend [w']).bytes = p.bytes ++ p.separator ++ w' :=
    Path.bytes_join _ hw'.not_isAbsolute
  have hseparator : p.separator.length ≤ 1 := by
    rw [Path.separator]
    split <;> decide
  obtain ⟨hno, -, hshort⟩ := Path.unusable?_eq_none.1 husable
  rw [hbytes] at hno hshort
  have hpnul : 0 ∉ p.bytes := by
    intro hmem
    simp [hmem] at hno
  have hplain : ∀ v ∈ [w'], Path.IsPlain v := by simpa using hw'
  have hwsize := hsizes w List.mem_cons_self
  refine ⟨Path.unusable?_eq_none.2 ⟨?_, Path.bytes_descend_ne_nil hp hplain, ?_⟩, ?_⟩
  · exact Path.not_mem_descend (by decide) hpnul hplain (by simpa using hnul)
  · simp only [hbytes', List.length_append] at hshort ⊢
    omega
  · simp only [List.mem_singleton, forall_eq]
    omega

/-! ## Temporary names -/

/-- One of the draws gives a name that could be made, or nothing changes. -/
theorem tryNames_cases {folder : Path} {front back : String}
    {make : FileTree → Path → FileTree.Outcome Unit} {draws : List String}
    (hmake : ∀ p, (∃ fault, make t p = (.error fault, t)) ∨ ∃ t', make t p = (.ok (), t')) :
    (∃ cause, tryNames folder front back make t draws = (.error cause, t)) ∨
      ∃ draw ∈ draws, ∃ t', make t (folder.join (.ofText (front ++ draw ++ back))) = (.ok (), t') ∧
        tryNames folder front back make t draws =
          (.ok (folder.join (.ofText (front ++ draw ++ back))), t') := by
  induction draws with
  | nil => exact .inl ⟨_, rfl⟩
  | cons draw draws ih =>
    rw [tryNames]
    rcases hmake (folder.join (.ofText (front ++ draw ++ back))) with ⟨fault, hfault⟩ | ⟨t', hmade⟩
    · simp only [hfault]
      split
      · rename_i heq
        cases (Prod.mk.inj heq).1
      · rcases ih with hnone | ⟨draw', hdraw', hmade⟩
        · exact .inl hnone
        · exact .inr ⟨draw', List.mem_cons_of_mem _ hdraw', hmade⟩
      · rename_i heq
        obtain ⟨-, rfl⟩ := Prod.mk.inj heq
        exact .inl ⟨_, rfl⟩
    · simp only [hmade]
      exact .inr ⟨draw, List.mem_cons_self, t', hmade, rfl⟩

theorem makeScratchFile_cases (host : Host) (folder : Path) (front back : String) (t : FileTree) :
    (∃ cause, host.makeScratchFile folder front back t = (.error cause, t)) ∨
      ∃ draw ∈ host.suffixes, ∃ t',
        t.createNew host.folder ((host.absolute folder).join (.ofText (front ++ draw ++ back))) =
          (.ok (), t') ∧
        host.makeScratchFile folder front back t =
          (.ok ((host.absolute folder).join (.ofText (front ++ draw ++ back))), t') :=
  tryNames_cases fun p => FileTree.createNew_cases t host.folder p

theorem makeScratch_cases (host : Host) (front : String) (t : FileTree) :
    (∃ cause, host.makeScratch front t = (.error cause, t)) ∨
      ∃ draw ∈ host.suffixes, ∃ t',
        t.makeFolder host.folder (host.temporaryFolder.join (.ofText (front ++ draw ++ ""))) =
          (.ok (), t') ∧
        host.makeScratch front t =
          (.ok (host.temporaryFolder.join (.ofText (front ++ draw ++ ""))), t') := by
  refine tryNames_cases fun p => ?_
  rcases FileTree.makeFolder_cases t host.folder p with ⟨_, _, -, -, hmake⟩ | ⟨fault, hmake, -⟩
  · exact .inr ⟨_, hmake⟩
  · exact .inl ⟨fault, hmake⟩

/-! ## Programs -/

/-- A program that is not started changes nothing. -/
theorem start_of_error {name : Bytes} {arguments : List Bytes} {cause : IoFault}
    (h : host.start name arguments t = (.error cause, t')) : t' = t := by
  unfold start at h
  split at h
  · exact (Prod.mk.inj h).2.symm
  · split at h
    · exact (Prod.mk.inj h).2.symm
    · cases (Prod.mk.inj h).1

/-- A program that is found is one of those that there are. -/
theorem programAt_mem {program : Program} (h : host.programAt t p = .ok program) :
    ∃ a, (a, program) ∈ host.programs := by
  have hinstalled : ∀ a, (host.programs.find? fun e => e.1 == a).map Prod.snd = some program →
      ∃ a, (a, program) ∈ host.programs := by
    intro a hfound
    obtain ⟨e, hfind, rfl⟩ := Option.map_eq_some_iff.1 hfound
    exact ⟨e.1, List.mem_of_find?_eq_some hfind⟩
  unfold programAt at h
  simp only at h
  split at h
  · cases h
  all_goals
    split at h
    · rename_i hfound
      obtain rfl := Except.ok.inj h
      exact hinstalled _ hfound
    · cases h

theorem searchFolders_mem {name : Bytes} {program : Program} {denied : Bool}
    {folders : List Bytes} (h : host.searchFolders t name denied folders = .ok program) :
    ∃ a, (a, program) ∈ host.programs := by
  induction folders generalizing denied with
  | nil => cases h
  | cons folder rest ih =>
    unfold searchFolders at h
    split at h
    · rename_i hfound
      obtain rfl := Except.ok.inj h
      exact programAt_mem hfound
    · exact ih h
    · exact ih h
    · exact ih h
    · cases h

/-- A program that is started is one of those that there are. -/
theorem start_of_ok {name : Bytes} {arguments : List Bytes} {finished : Finished}
    (h : host.start name arguments t = (.ok finished, t')) :
    ∃ a program, (a, program) ∈ host.programs ∧ program arguments t = (finished, t') := by
  unfold start at h
  split at h
  · cases (Prod.mk.inj h).1
  · split at h
    · cases (Prod.mk.inj h).1
    · rename_i program hfound
      have hmem : ∃ a, (a, program) ∈ host.programs := by
        unfold program? at hfound
        split at hfound
        · cases hfound
        · split at hfound
          · exact programAt_mem hfound
          · exact searchFolders_mem hfound
      obtain ⟨a, ha⟩ := hmem
      obtain ⟨hfinished, rfl⟩ := Prod.mk.inj h
      exact ⟨a, program, ha, by rw [← Except.ok.inj hfinished]⟩

end SourceRecovery.Host
