import SourceRecovery.Proofs.Engine.Places
import SourceRecovery.Proofs.Engine.Work
import SourceRecovery.Proofs.Run.OutputTree

/-!
# Harvested sources

* `CanHarvest`: what the harvest of some sources needs.
* `Harvested`: the output folder and the account of the run hold these sources.
* `CanHarvest.deposit`, `CanHarvest.deliverFiles`: one source is written at its place, and so are all.
* `CanHarvest.harvest`: so is a whole folder of them.
-/

namespace SourceRecovery.Run

open FileTree (Adds Opens FreeBelow Followed)
open RecoveredSource (Suits fileAt writtenAt)

variable {t t₀ : FileTree} {cwd root : Address} {output folder : Path} {s : Account}
  {classes done rest : List ClassPlace} {c : ClassPlace} {source : ClassPlace → RecoveredSource}

/-- What the harvest of some sources needs: an output folder in which nothing stands in their way, and
    sources of different places that can be read below `folder`. -/
structure CanHarvest (t : FileTree) (cwd : Address) (output : Path) (root : Address) (folder : Path)
    (source : ClassPlace → RecoveredSource) (classes : List ClassPlace) : Prop where
  opens : Opens t cwd output root
  nodup : classes.Nodup
  neat : ∀ c ∈ classes, c.IsNeat
  suits : ∀ c ∈ classes, (source c).Suits c
  followed : ∀ c ∈ classes, Followed output (c.sourceNames (source c).kotlin)
  free : ∀ c ∈ classes, FreeBelow t root (c.sourceNames (source c).kotlin)
  read : ∀ c ∈ classes, ∃ a, t.stat cwd true (folder.descend (c.sourceNames (source c).kotlin)) =
    .ok (a, .file (Text.encode (source c).text))

/-- Whether a tree and an account hold these sources, and nothing else was written or dropped. -/
structure Harvested (root : Address) (source : ClassPlace → RecoveredSource) (t₀ : FileTree)
    (done : List ClassPlace) (t : FileTree) (s : Account) : Prop where
  adds : Adds root (done.map fun c => (source c).fileAt c) t₀ t
  ledger : ∀ f, f ∈ s.written ↔ ∃ c ∈ done, f = (source c).writtenAt c
  sorted : s.written.Sorted
  length : s.written.length = done.length
  dropped : s.dropped = 0
  fault : s.fault = none

theorem harvested_start (root : Address) (source : ClassPlace → RecoveredSource) (t : FileTree)
    (events : List Event) : Harvested root source t [] t (.start events) :=
  ⟨.nil root t, by simp [Account.start], Ledger.sorted_nil, rfl, rfl, rfl⟩

/-- The unit in the file of a source. -/
def unitAt (source : ClassPlace → RecoveredSource) (c : ClassPlace) : SourceUnit :=
  Engine.unitOfFile (c.sourceNames (source c).kotlin) (source c).text

/-- A source is written at its place, after those that are `done`. -/
theorem CanHarvest.deposit (h : CanHarvest t₀ cwd output root folder source classes)
    (hsplit : classes = done ++ c :: rest)
    (hadds : Adds root (done.map fun d => (source d).fileAt d) t₀ t) :
    ∃ t', SourceRecovery.deposit cwd output (unitAt source c) t =
        (.stored ((source c).writtenAt c), t') ∧
      Adds root ((done ++ [c]).map fun d => (source d).fileAt d) t₀ t' := by
  have hmem : ∀ d ∈ done, d ∈ classes := fun d hd => by simp [hsplit, hd]
  have hc : c ∈ classes := by simp [hsplit]
  have hnames := (h.neat c hc).plain_sourceNames (source c).kotlin
  have hbelow : (unitAt source c).below? = some (c.sourceNames (source c).kotlin) :=
    SourceUnit.below?_unitOfFile (h.neat c hc).folders (h.neat c hc).stem (h.suits c hc).package
  have hblank : (unitAt source c).isBlank = false :=
    SourceUnit.isBlank_unitOfFile (h.suits c hc).not_blank
  have hfiles : ∀ e ∈ done.map fun d => (source d).fileAt d, FreeBelow t₀ root e.1 := by
    intro e he
    obtain ⟨d, hd, rfl⟩ := List.mem_map.1 he
    exact h.free d (hmem d hd)
  have hapart : ∀ e ∈ done.map fun d => (source d).fileAt d,
      ¬ e.1 <+: c.sourceNames (source c).kotlin ∧ ¬ c.sourceNames (source c).kotlin <+: e.1 := by
    intro e he
    obtain ⟨d, hd, rfl⟩ := List.mem_map.1 he
    exact ClassPlace.apart_of_nodup (fun d => SourceUnit.extension (source d).kotlin)
      (fun d => isEnding_extension (source d).kotlin) (hsplit ▸ h.nodup) (hsplit ▸ h.neat) hd
  obtain ⟨t₁, t', hmade, -, hwrite, hadds'⟩ := hadds.store h.opens hfiles hnames (h.followed c hc)
    (h.free c hc) hapart (Text.encode (source c).text)
  refine ⟨t', ?_, by rw [List.map_append]; exact hadds'⟩
  have hpath := pathBelow_descend h.opens.text_ne hnames (c.sourceNames_ne_nil (source c).kotlin)
  have hcontent : (unitAt source c).content = (source c).text := rfl
  simp only [SourceRecovery.deposit, hblank, SourceUnit.destination?_eq, hbelow, Option.map_some,
    hmade, hcontent, hwrite, hpath]
  rfl

/-- The paths of different places are different texts. -/
theorem CanHarvest.path_ne (h : CanHarvest t₀ cwd output root folder source classes)
    (hsplit : classes = done ++ c :: rest) {d : ClassPlace} (hd : d ∈ done) :
    ((source d).writtenAt d).path ≠ ((source c).writtenAt c).path := by
  have hplain : ∀ e ∈ classes, ∀ w ∈ e.sourceNames (source e).kotlin, Path.IsPlain w :=
    fun e he => (h.neat e he).plain_sourceNames _
  have hapart := ClassPlace.apart_of_nodup (fun d => SourceUnit.extension (source d).kotlin)
    (fun d => isEnding_extension (source d).kotlin) (hsplit ▸ h.nodup) (hsplit ▸ h.neat) hd
  intro hpath
  have hsame := Path.shown_inj (d.sourceNames_ne_nil _) (c.sourceNames_ne_nil _)
    (hplain d (by simp [hsplit, hd])) (hplain c (by simp [hsplit])) (d.isText_file _)
    (c.isText_file _) hpath
  have hp : d.sourceNames (source d).kotlin <+: c.sourceNames (source c).kotlin :=
    hsame ▸ List.prefix_refl _
  exact hapart.1 hp

/-- A source that is handed over is written and entered, after those that are `done`. -/
theorem CanHarvest.onUnit (h : CanHarvest t₀ cwd output root folder source classes)
    (hsplit : classes = done ++ c :: rest) (hdone : Harvested root source t₀ done t s) :
    ∃ t' s', (receiver cwd output).onUnit (unitAt source c) t s = (.ok (), t', s') ∧
      Harvested root source t₀ (done ++ [c]) t' s' := by
  obtain ⟨t', hdeposit, hadds⟩ := h.deposit hsplit hdone.adds
  have hother : ∀ f ∈ s.written, f.path ≠ ((source c).writtenAt c).path := by
    intro f hf
    obtain ⟨d, hd, rfl⟩ := (hdone.ledger f).1 hf
    exact h.path_ne hsplit hd
  refine ⟨t', s.enter (unitAt source c) (.stored ((source c).writtenAt c)),
    by rw [onUnit_eq, hdeposit]; rfl, hadds, fun f => ?_, Ledger.sorted_enter hdone.sorted, ?_,
    hdone.dropped, hdone.fault⟩
  · show f ∈ s.written.enter ((source c).writtenAt c) ↔ _
    rw [Ledger.mem_enter hdone.sorted, hdone.ledger]
    constructor
    · rintro (rfl | ⟨⟨d, hd, rfl⟩, -⟩)
      · exact ⟨c, by simp, rfl⟩
      · exact ⟨d, by simp [hd], rfl⟩
    · rintro ⟨d, hd, rfl⟩
      rcases List.mem_append.1 hd with hd | hd
      · exact .inr ⟨⟨d, hd, rfl⟩, h.path_ne hsplit hd⟩
      · rw [List.mem_singleton.1 hd]
        exact .inl rfl
  · show (s.written.enter ((source c).writtenAt c)).length = _
    rw [Ledger.length_enter hother, hdone.length, List.length_append, List.length_singleton]

theorem readText_eq {p : Path} {a : Address} {text : String}
    (h : t.stat cwd true p = .ok (a, .file (Text.encode text))) :
    Engine.readText t cwd p = .ok text := by
  simp only [Engine.readText, FileTree.read, h, Text.decode?_encode]

/-- The sources are handed over one after another, and each is written at its place. -/
theorem CanHarvest.deliverFiles (h : CanHarvest t₀ cwd output root folder source classes)
    (hsplit : classes = done ++ rest) (hdone : Harvested root source t₀ done t s) :
    ∃ t' s', (Engine.deliverFiles cwd folder
        (rest.map fun c => c.sourceNames (source c).kotlin)).perform (receiver cwd output) t s =
          (.ok (), t', s') ∧
      Harvested root source t₀ classes t' s' := by
  induction rest generalizing done t s with
  | nil =>
    rw [List.append_nil] at hsplit
    exact ⟨t, s, rfl, hsplit ▸ hdone⟩
  | cons c rest ih =>
    have hmem : ∀ d ∈ done, d ∈ classes := fun d hd => by simp [hsplit, hd]
    have hextends : t₀.Extends t := by
      refine hdone.adds.extends h.opens.node?_root fun e he => ?_
      obtain ⟨d, hd, rfl⟩ := List.mem_map.1 he
      exact h.free d (hmem d hd)
    obtain ⟨a, hread⟩ := h.read c (by simp [hsplit])
    have htext := readText_eq (FileTree.stat_within hread hextends.within)
    obtain ⟨t', s', hunit, hdone'⟩ := h.onUnit hsplit hdone
    obtain ⟨t'', s'', hrest, hall⟩ := ih (by simp [hsplit]) hdone'
    refine ⟨t'', s'', ?_, hall⟩
    rw [List.map_cons, Engine.deliverFiles, Work.perform_files]
    simp only [id, htext, Engine.namesOfFile_of_ne_nil (c.sourceNames_ne_nil _)]
    show (Work.deliver (unitAt source c) _).perform _ t s = _
    rw [Work.perform_deliver, hunit]
    exact hrest

theorem CanHarvest.perm {order : List ClassPlace}
    (h : CanHarvest t cwd output root folder source classes) (hperm : order.Perm classes) :
    CanHarvest t cwd output root folder source order :=
  ⟨h.opens, hperm.nodup_iff.2 h.nodup, fun c hc => h.neat c (hperm.mem_iff.1 hc),
    fun c hc => h.suits c (hperm.mem_iff.1 hc), fun c hc => h.followed c (hperm.mem_iff.1 hc),
    fun c hc => h.free c (hperm.mem_iff.1 hc), fun c hc => h.read c (hperm.mem_iff.1 hc)⟩

theorem Harvested.perm {order : List ClassPlace} (h : Harvested root source t₀ order t s)
    (hperm : order.Perm classes) : Harvested root source t₀ classes t s := by
  have hfiles : ∀ e, e ∈ classes.map (fun c => (source c).fileAt c) ↔
      e ∈ order.map fun c => (source c).fileAt c := fun e => (hperm.map _).mem_iff.symm
  refine ⟨⟨fun e he => h.adds.file e ((hfiles e).1 he), fun a ha => ?_⟩, fun f => ?_, h.sorted, ?_,
    h.dropped, h.fault⟩
  · exact h.adds.elsewhere a fun e he => ha e ((hfiles e).2 he)
  · rw [h.ledger]
    exact exists_congr fun c => and_congr_left' hperm.mem_iff
  · rw [h.length, hperm.length_eq]

/-- The sources in a folder that holds nothing else are found in some order, each once. -/
theorem CanHarvest.exists_order (h : CanHarvest t cwd output root folder source classes)
    {files : List Address} (hnodup : files.Nodup)
    (hfiles : ∀ names, names ∈ files ↔ ∃ c ∈ classes, c.sourceNames (source c).kotlin = names) :
    ∃ order : List ClassPlace, order.Perm classes ∧
      order.map (fun c => c.sourceNames (source c).kotlin) = files := by
  have hplace : ∀ names ∈ files, ∃ c : ClassPlace, c.sourceNames (source c).kotlin = names ∧
      c ∈ classes := fun names hnames => by
    obtain ⟨c, hc, hsame⟩ := (hfiles names).1 hnames
    exact ⟨c, hsame, hc⟩
  obtain ⟨order, rfl, horder⟩ := exists_map_eq hplace
  refine ⟨order, ?_, rfl⟩
  have horderNodup : order.Nodup :=
    List.Pairwise.of_map _ (fun c d hne heq => hne (by rw [heq])) hnodup
  refine (List.perm_ext_iff_of_nodup horderNodup h.nodup).2 fun c => ⟨horder c, fun hc => ?_⟩
  obtain ⟨d, hd, heq⟩ := List.mem_map.1 ((hfiles _).2 ⟨c, hc, rfl⟩)
  have hsame : d = c := by
    have hp : d.sourceNames (source d).kotlin <+: c.sourceNames (source c).kotlin :=
      heq ▸ List.prefix_refl _
    exact ClassPlace.apart (h.neat d (horder d hd)) (h.neat c hc)
      (isEnding_extension (source d).kotlin) (isEnding_extension (source c).kotlin) hp
  exact hsame ▸ hd

/-- A folder of sources is harvested: each is written at its place, and nothing else. -/
theorem CanHarvest.harvest (h : CanHarvest t cwd output root folder source classes) {place : Address}
    (hfolder : t.stat cwd true folder = .ok (place, .folder))
    (hbase : FileTree.isStandardInput folder = false)
    (hfiles : ∀ names content, t.node? (place ++ names) = some (.file content) ↔
      ∃ c ∈ classes, (source c).fileAt c = (names, content)) (events : List Event) :
    ∃ t' s', (Engine.harvest cwd folder).perform (receiver cwd output) t (.start events) =
        (.ok (), t', s') ∧
      Harvested root source t classes t' s' := by
  obtain ⟨files, hwalk, hnodup, hmem⟩ := FileTree.walkFiles_of_folder hfolder hbase
  have hsources : ∀ names, names ∈ files ↔
      ∃ c ∈ classes, c.sourceNames (source c).kotlin = names := by
    intro names
    rw [hmem]
    constructor
    · rintro ⟨-, content, hfile⟩
      obtain ⟨c, hc, heq⟩ := (hfiles names content).1 hfile
      exact ⟨c, hc, (Prod.mk.inj heq).1⟩
    · rintro ⟨c, hc, rfl⟩
      exact ⟨c.sourceNames_ne_nil _, _, (hfiles _ _).2 ⟨c, hc, rfl⟩⟩
  obtain ⟨order, hperm, rfl⟩ := h.exists_order hnodup hsources
  obtain ⟨t', s', hdeliver, hall⟩ := (h.perm hperm).deliverFiles (List.nil_append order).symm
    (harvested_start root source t events)
  refine ⟨t', s', ?_, hall.perm hperm⟩
  rw [Engine.harvest, Work.perform_files]
  simp only [id, hwalk]
  exact hdeliver

end SourceRecovery.Run
