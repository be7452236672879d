import SourceRecovery.Engine.Decompiler
import SourceRecovery.Proofs.Engine.Staging
import SourceRecovery.Proofs.Engine.Work
import SourceRecovery.Proofs.Engine.WorkingFolder

/-!
# The decompiler at work

What becomes of a working folder, if the program that is started there does what it is for.

* `Staged`, `Recovers`: the program puts the sources of the staged class files into the other half of
  the folder, and does nothing else.
* `CanRecover`: what else is needed.
* `CanRecover.stage`, `CanRecover.decompileInto`: the class files are staged, and then their sources
  are there.
* `perform_ofJar`: these are harvested, and the folder is removed.
-/

namespace SourceRecovery.Engine

open FileTree (Adds Opens Followed SameOutside)

variable {t t' t₂ t₃ t₄ u : FileTree} {host : Host} {jar input scratch : Path} {request : Request}
  {place : Address} {staged sources : List (Address × Bytes)} {content : ClassPlace → Bytes}
  {source : ClassPlace → RecoveredSource} {classes : List ClassPlace}

/-! ## What the program is for -/

/-- Whether these files, and no others, are in one half of a working folder, the other half is empty,
    and everything outside of the folder is as it was. -/
structure Staged (place : Address) (staged : List (Address × Bytes)) (t u : FileTree) : Prop where
  outside : SameOutside place t u
  files : ∀ names content,
    u.node? (place ++ (["classes"] : Address) ++ names) = some (.file content) ↔
    (names, content) ∈ staged
  out : u.node? (place ++ (["out"] : Address)) = some .folder
  empty : ∀ b, place ++ (["out"] : Address) <+: b → b ≠ place ++ (["out"] : Address) →
    u.node? b = none

/-- Whether the program, wherever these files are staged, can be started, ends well, and has put these
    sources into the other half of the working folder and done nothing else. -/
def Recovers (host : Host) (jar : Path) (request : Request) (scratch : Path) (place : Address)
    (t : FileTree) (staged sources : List (Address × Bytes)) : Prop :=
  ∀ u, Staged place staged t u → ∃ finished u',
    host.start (javaName host)
        (arguments jar request (scratch.join ⟨"classes"⟩) (scratch.join ⟨"out"⟩)) u =
      (.ok finished, u') ∧
    finished.status = 0 ∧ Adds (place ++ (["out"] : Address)) sources u u'

/-! ## What else is needed -/

/-- What is needed to recover the sources of class files: a working folder that was made just now,
    files of different places that can be read, and no path that is too long. -/
structure CanRecover (host : Host) (t t₂ : FileTree) (input scratch : Path) (place : Address)
    (content : ClassPlace → Bytes) (source : ClassPlace → RecoveredSource)
    (classes : List ClassPlace) : Prop where
  made : t.makeFolder host.folder scratch = (.ok (), t₂)
  stat : t₂.stat host.folder true scratch = .ok (place, .folder)
  input_ne : input.bytes ≠ []
  ne_nil : classes ≠ []
  nodup : classes.Nodup
  neat : ∀ c ∈ classes, c.IsNeat
  read : ∀ c ∈ classes,
    ∃ a, t.stat host.folder true (input.descend c.names) = .ok (a, .file (content c))
  staged : ∀ c ∈ classes, Followed scratch ("classes" :: c.names)
  recovered : ∀ c ∈ classes, Followed scratch ("out" :: c.sourceNames (source c).kotlin)

theorem CanRecover.scratch_ne (h : CanRecover host t t₂ input scratch place content source classes) :
    scratch.bytes ≠ [] :=
  (FileTree.reaches_of_stat h.stat).1

theorem CanRecover.followed (h : CanRecover host t t₂ input scratch place content source classes) :
    Followed scratch ["classes"] ∧ Followed scratch ["out"] := by
  obtain ⟨c, hc⟩ := List.exists_mem_of_ne_nil _ h.ne_nil
  have hnames := (h.neat c hc).plain_names
  have hsources := (h.neat c hc).plain_sourceNames (source c).kotlin
  have hstaged : Followed scratch ((["classes"] : Address) ++ c.names) := h.staged c hc
  have hrecovered : Followed scratch ((["out"] : Address) ++ c.sourceNames (source c).kotlin) :=
    h.recovered c hc
  exact ⟨hstaged.of_append h.scratch_ne (List.forall_mem_cons.2 ⟨isPlain_classes, hnames⟩),
    hrecovered.of_append h.scratch_ne (List.forall_mem_cons.2 ⟨isPlain_out, hsources⟩)⟩

/-! ## One half is filled -/

/-- The class files can be staged in the half of the working folder that is made for them. -/
theorem CanRecover.canStage (h : CanRecover host t t₂ input scratch place content source classes)
    (hfurnished : Furnished place t t₄) (hopens : Opens t₄ host.folder scratch place) :
    CanStage t₄ host.folder input (scratch.descend ["classes"]) (place ++ (["classes"] : Address))
      content
      classes := by
  have hopensHalf : Opens t₄ host.folder (scratch.descend ["classes"])
      (place ++ (["classes"] : Address)) :=
    hopens.descend (by simpa using isPlain_classes) h.followed.1.2 (hfurnished.half (by simp))
  refine ⟨hopensHalf, fun b => hfurnished.empty "classes", h.input_ne, h.nodup, h.neat,
    fun c hc => ?_, fun c hc => ?_⟩
  · have hfollowed := h.staged c hc
    exact ⟨hfollowed.1, (List.forall_mem_cons.1 hfollowed.2).2⟩
  · obtain ⟨a, hread⟩ := h.read c hc
    exact ⟨a, FileTree.stat_within hread hfurnished.extends.within⟩

/-- The class files are staged in one half of the working folder, and the other half stays empty. -/
theorem CanRecover.stage (h : CanRecover host t t₂ input scratch place content source classes)
    (hfurnished : Furnished place t t₄) (hopens : Opens t₄ host.folder scratch place) :
    ∃ t₅, stageInputs host.folder input (scratch.join ⟨"classes"⟩)
        (classes.map fun c => input.descend c.names) t₄ = (.ok (), t₅) ∧
      Staged place (classes.map fun c => (c.names, content c)) t t₅ ∧ t.Extends t₅ ∧
      Opens t₅ host.folder scratch place := by
  have hcan := h.canStage hfurnished hopens
  have hroot := hcan.opens.node?_root
  obtain ⟨t₅, hstage, hadds⟩ := hcan.stageInputs
  have hne : ∀ e ∈ classes.map fun c => (c.names, content c), e.1 ≠ [] := by
    intro e he
    obtain ⟨c, -, rfl⟩ := List.mem_map.1 he
    exact c.names_ne_nil
  have hextends := hadds.extends hroot fun e he =>
    FileTree.freeBelow_of_empty hcan.empty (hne e he)
  have hother : ∀ b, place ++ (["out"] : Address) <+: b → t₅.node? b = t₄.node? b := by
    intro b hb
    refine hadds.elsewhere b fun e _ hp => ?_
    -- the halves are different folders
    have hboth := List.prefix_of_prefix_length_le (hb.trans hp) (List.prefix_append _ e.1) (by simp)
    simp at hboth
  refine ⟨t₅, hstage, ⟨?_, fun names bytes => ?_, ?_, fun b hp hne => ?_⟩,
    hfurnished.extends.trans hextends, hopens.extend hextends⟩
  · exact hfurnished.sameOutside.trans (hadds.sameOutside hroot)
  · exact hadds.file_iff_of_empty hroot hcan.empty hne
  · rw [hother _ (List.prefix_refl _)]
    exact hfurnished.half (by simp)
  · rw [hother b hp]
    exact hfurnished.empty "out" hp hne

/-! ## And the other one -/

/-- Whether recovered sources are in a working folder, and nothing outside of it has changed. -/
structure Recovered (cwd : Address) (scratch : Path) (place : Address)
    (sources : List (Address × Bytes)) (t t' : FileTree) : Prop where
  outside : SameOutside place t t'
  kept : t.Extends t'
  opens : Opens t' cwd scratch place
  out : t'.node? (place ++ (["out"] : Address)) = some .folder
  files : ∀ names content, t'.node? (place ++ (["out"] : Address) ++ names) = some (.file content) ↔
    (names, content) ∈ sources

/-- A program that recovers the staged class files does so in their working folder. -/
theorem Staged.recovered {cwd : Address} (h : Staged place staged t u) (hkept : t.Extends u)
    (hopens : Opens u cwd scratch place) (hadds : Adds (place ++ (["out"] : Address)) sources u t')
    (hne : ∀ e ∈ sources, e.1 ≠ []) : Recovered cwd scratch place sources t t' := by
  have hextends := hadds.extends h.out fun e he => FileTree.freeBelow_of_empty h.empty (hne e he)
  exact ⟨h.outside.trans (hadds.sameOutside h.out), hkept.trans hextends, hopens.extend hextends,
    hextends.within _ _ h.out, fun names bytes => hadds.file_iff_of_empty h.out h.empty hne⟩

/-- The class files are decompiled if the program does what it is for. -/
theorem CanRecover.decompileInto (request : Request)
    (h : CanRecover host t t₂ request.inputRoot scratch place content source classes)
    (hinputs : request.inputs = classes.map fun c => request.inputRoot.descend c.names)
    (hrecovers : Recovers host jar request scratch place t
      (classes.map fun c => (c.names, content c)) (classes.map fun c => (source c).fileAt c)) :
    ∃ t', Engine.decompileInto host jar request (scratch.join ⟨"classes"⟩) (scratch.join ⟨"out"⟩) t₂ =
        (.ok (), t') ∧
      Recovered host.folder scratch place (classes.map fun c => (source c).fileAt c) t t' := by
  obtain ⟨t₃, t₄, hmake₃, hmake₄, hfurnished, hopens₄⟩ :=
    furnish h.made h.stat h.followed.1 h.followed.2
  obtain ⟨t₅, hstage, hstaged, hkept, hopens₅⟩ := h.stage hfurnished hopens₄
  obtain ⟨finished, t', hstart, hstatus, hadds⟩ := hrecovers t₅ hstaged
  refine ⟨t', ?_, hstaged.recovered hkept hopens₅ hadds fun e he => ?_⟩
  · simp only [Engine.decompileInto, hmake₃, hmake₄, hinputs, hstage, hstart, hstatus]
    rfl
  · obtain ⟨c, -, rfl⟩ := List.mem_map.1 he
    exact c.sourceNames_ne_nil (source c).kotlin

/-! ## The engine -/

/-- What the engine does once it has a working folder in which the decompiler succeeds: it harvests
    what it finds there, and removes the folder. -/
theorem perform_ofJar {σ : Type} {receiver : Work.Receiver σ} {s s' : σ}
    {ended : Except Failure Unit}
    (hscratch : host.makeScratch "compose-decompiler-" t = (.ok scratch, t₂))
    (hinto : decompileInto host jar request (scratch.join ⟨"classes"⟩) (scratch.join ⟨"out"⟩) t₂ =
      (.ok (), t₃))
    (hharvest : (harvest host.folder (scratch.join ⟨"out"⟩)).perform receiver t₃ s =
      (ended, t₄, s')) :
    (ofJar host jar request).perform receiver t s =
      (ended, (t₄.removeFolders host.folder scratch).2, s') := by
  rw [ofJar, Work.perform_bind, Work.perform_attempt, hscratch]
  simp only [Work.perform_bind, Work.perform_attempt, hinto, hharvest, Work.perform_pure]

end SourceRecovery.Engine
