import SourceRecovery.Proofs.Engine.Decompiler
import SourceRecovery.Proofs.Engine.Download
import SourceRecovery.Proofs.FileTree.StayingBelow

/-!
# The engine up to its first source

What the engine does before it hands anything over: it gets its jar, makes a folder of its own, stages
the inputs in one half of it and lets the decompiler write into the other half. Any of this may fail,
and then nothing of it is left.

* `stageInputs_below`: whatever becomes of the inputs, staging stays in its half.
* `WritesBelow`: what is assumed of the decompiler.
* `decompileInto_below`: whether it succeeds or not, nothing outside of the working folder changes.
* `launch`: all that is done up to then; `perform_onDemand` puts the rest behind it.
* `launch_cases`: what each of its two ends leaves.
-/

namespace SourceRecovery

open FileTree (Followed Opens OnlyBelow HasNew)

variable {t t' t₄ u v w : FileTree} {cwd root place : Address} {host : Host} {jar : Path}
  {inputRoot input source staged scratch : Path} {request : Request} {option : Option Path}

namespace Engine

/-! ## Staging -/

/-- A name is all that there is to its path. -/
theorem components_name {name : Name} (h : input.fileName? = some name) :
    (Path.mk name).components = [.name name] := by
  have hlast : input.components.getLast? = some (.name name) := by
    rw [Path.fileName?] at h
    split at h
    · rename_i heq
      rw [heq, Option.some.inj h]
    · cases h
  have hmem := List.mem_of_getLast? hlast
  rw [Path.components, List.mem_append] at hmem
  rcases hmem with hlead | hpiece
  · rw [Path.lead] at hlead
    split at hlead
    · cases List.mem_singleton.1 hlead
    · split at hlead
      · cases List.mem_singleton.1 hlead
      · cases hlead
  · obtain ⟨piece, hpiece, hsome⟩ := List.mem_filterMap.1 hpiece
    have hslash := Path.not_mem_of_mem_slashPieces hpiece
    have hplain : Path.IsPlain name := by
      rw [Path.componentOf?] at hsome
      split at hsome
      · cases hsome
      · rename_i hidle
        split at hsome
        · cases hsome
        · rename_i hup
          obtain rfl : piece = name := Path.Component.name.inj (Option.some.inj hsome)
          simp only [Path.isIdle, Bool.or_eq_true, beq_iff_eq, not_or] at hidle hup
          exact ⟨hidle.1, hidle.2, hup, hslash⟩
    have hnames : ∀ v ∈ ([name] : List Name), Path.IsPlain v := by simpa using hplain
    have hall := Path.components_ofPieces hnames (by simp)
    rwa [Path.ofPieces, List.intercalate_singleton] at hall

/-- What an input is staged at is made of names alone. -/
theorem stagedPath?_names (h : stagedPath? inputRoot input = some staged) :
    ∀ c ∈ staged.components, ∃ w, c = .name w := by
  have hall : staged.components.all isName = true := by
    obtain ⟨hsome, -⟩ := Option.filter_eq_some_iff.1 h
    have hname : input.fileName?.map Path.mk = some staged →
        staged.components.all isName = true := by
      intro hname
      obtain ⟨name, hfile, rfl⟩ := Option.map_eq_some_iff.1 hname
      rw [components_name hfile]
      rfl
    split at hsome
    · split at hsome
      · rename_i hrest
        rwa [← Option.some.inj hsome]
      · exact hname hsome
    · exact hname hsome
  intro c hc
  have hisName := List.all_eq_true.1 hall c hc
  cases c with
  | name w => exact ⟨w, rfl⟩
  | root | here | up => cases hisName

/-- What an input is staged at begins in the folder and goes nowhere up. -/
theorem stagedPath?_stays (h : stagedPath? inputRoot input = some staged) :
    staged.isAbsolute = false ∧ .up ∉ staged.steps := by
  refine ⟨Bool.eq_false_iff.2 fun habsolute => ?_, fun hup => ?_⟩
  · obtain ⟨w, hw⟩ := stagedPath?_names h .root (by simp [Path.components, Path.lead, habsolute])
    cases hw
  · obtain ⟨w, hw⟩ := stagedPath?_names h .up (Path.up_mem_components_of_steps hup)
    cases hw

/-- An input that is staged, or is not, changes nothing outside of the folder for the inputs. -/
theorem stageInput_below (h : Opens t cwd source root) (inputRoot input : Path) :
    OnlyBelow root t (stageInput cwd inputRoot source input t).2 ∧
      Opens (stageInput cwd inputRoot source input t).2 cwd source root := by
  rw [stageInput]
  cases hstaged : stagedPath? inputRoot input with
  | none => exact ⟨.refl root t, h⟩
  | some staged =>
    obtain ⟨hrelative, hup⟩ := stagedPath?_stays hstaged
    simp only
    split
    · exact ⟨.refl root t, h⟩
    · have hgrow := FileTree.makeFolders_below h hrelative hup
      generalize t.makeFolders cwd ((source.join staged).parent?.getD ⟨[]⟩) = made at hgrow ⊢
      obtain ⟨cause | ⟨⟩, t₁⟩ := made
      · exact ⟨hgrow.onlyBelow, h.grow hgrow⟩
      · have hmade : OnlyBelow root t t₁ := hgrow.onlyBelow
        have hcopy := FileTree.copy_below (h.grow hgrow) hrelative hup input
        simp only
        generalize FileTree.copy _ cwd input (source.join staged) = copied at hcopy ⊢
        obtain ⟨cause | ⟨⟩, t₂⟩ := copied <;> exact ⟨hmade.trans hcopy.1, hcopy.2⟩

/-- Inputs that are staged, up to the first that is not, change nothing outside of the folder for
    them. -/
theorem stageInputs_below (h : Opens t cwd source root) (inputRoot : Path) (inputs : List Path) :
    OnlyBelow root t (stageInputs cwd inputRoot source inputs t).2 := by
  induction inputs generalizing t with
  | nil => exact .refl root t
  | cons input inputs ih =>
    obtain ⟨hbelow, hopens⟩ := stageInput_below h inputRoot input
    rw [stageInputs]
    generalize stageInput cwd inputRoot source input t = outcome at hbelow hopens
    obtain ⟨fault | _, t₁⟩ := outcome
    · exact hbelow
    · exact hbelow.trans (ih hopens)

/-! ## The decompiler -/

/-- Whether the decompiler, started with an empty folder to write into and however it ends, changes
    nothing but what is below that folder, where all that it leaves has proper names. -/
def WritesBelow (host : Host) : Prop :=
  ∀ jar request source destination t finished t' a,
    t.stat host.folder true destination = .ok (a, .folder) →
    (∀ b, a <+: b → b ≠ a → t.node? b = none) →
    host.start (javaName host) (arguments jar request source destination) t = (.ok finished, t') →
    OnlyBelow a t t' ∧ ∀ names, t'.node? (a ++ names) ≠ none → ∀ w ∈ names, Path.IsPlain w

/-- Whether the decompiler has ended well with this tree, and its sources are below a half of the
    working folder. -/
structure Finishes (host : Host) (jar : Path) (request : Request) (scratch : Path) (place : Address)
    (w : FileTree) : Prop where
  started : ∃ u finished, host.start (javaName host)
      (arguments jar request (scratch.join ⟨"classes"⟩) (scratch.join ⟨"out"⟩)) u =
    (.ok finished, w) ∧ finished.status = 0
  stat : w.stat host.folder true (scratch.join ⟨"out"⟩) = .ok (place ++ (["out"] : Address), .folder)
  plain : ∀ names, w.node? (place ++ (["out"] : Address) ++ names) ≠ none →
    ∀ n ∈ names, Path.IsPlain n

/-- A folder that the system does not follow is not made. -/
theorem makeFolders_unfollowed {name : Name} (hname : Path.IsPlain name)
    (hsize : name.length ≤ 255) (hnot : ¬ Followed scratch [name]) (t : FileTree)
    (cwd : Address) :
    ∃ cause, t.makeFolders cwd (scratch.join ⟨name⟩) = (.error cause, t) := by
  have htext : (scratch.join ⟨name⟩).bytes ≠ [] := Path.join_ne_empty scratch hname
  cases husable : (scratch.join ⟨name⟩).unusable? with
  | none => exact absurd ⟨husable, by simpa using hsize⟩ hnot
  | some fault =>
    have hmake : t.makeFolder cwd (scratch.join ⟨name⟩) = (.error fault, t) := by
      rw [FileTree.makeFolder, FileTree.locate, husable]
    have hfolder : t.isFolder cwd (scratch.join ⟨name⟩) = false := by
      rw [FileTree.isFolder, FileTree.stat, FileTree.resolve, husable]
    have hfault : fault ≠ .notFound := by
      rintro rfl
      exact htext (Path.text_of_unusable? husable)
    refine ⟨fault, ?_⟩
    rw [FileTree.makeFolders, FileTree.makeFoldersUpTo, if_neg (by simpa using htext), hmake]
    simp only [hfolder]
    rfl

/-- While inputs are staged in one half, the other half is found and stays empty. -/
theorem out_of_staged (hfurnished : Furnished place u t₄)
    (hopens : Opens t₄ host.folder scratch place) (hfollowed : Followed scratch ["out"])
    (hstage : OnlyBelow (place ++ (["classes"] : Address)) t₄ t) :
    t.stat host.folder true (scratch.join ⟨"out"⟩) = .ok (place ++ (["out"] : Address), .folder) ∧
      ∀ b, place ++ (["out"] : Address) <+: b → b ≠ place ++ (["out"] : Address) →
        t.node? b = none := by
  have hother : ∀ b, place ++ (["out"] : Address) <+: b → t.node? b = t₄.node? b := by
    refine fun b hb => hstage b fun hboth => ?_
    have hhalves := List.prefix_of_prefix_length_le hb hboth.1 (by simp)
    simp at hhalves
  have hout : t.node? (place ++ (["out"] : Address)) = some .folder := by
    rw [hother _ (List.prefix_refl _), hfurnished.half (by simp)]
  have hwithin : t₄.Within t := hstage.within fun b => hfurnished.empty "classes"
  obtain ⟨left, hleft⟩ := hopens.reaches
  have hleads : t.LeadsTo host.folder (scratch.join ⟨"out"⟩) (place ++ (["out"] : Address)) :=
    FileTree.LeadsTo.join ⟨left, hleft.within hwithin⟩ isPlain_out (hfollowed.2 "out" (by simp)) hout
  exact ⟨FileTree.stat_of_leadsTo hfollowed.1 hleads,
    fun b hp hne => (hother b hp).trans (hfurnished.empty "out" hp hne)⟩

/-- With both halves made, the decompiler may fail, or it leaves its sources; nothing outside of the
    working folder changes. -/
theorem decompileInto_of_furnished (request : Request) (jar : Path) (hjava : WritesBelow host)
    (hfurnished : Furnished place u t₄) (hopens : Opens t₄ host.folder scratch place)
    (hfollowed : Followed scratch ["classes"] ∧ Followed scratch ["out"])
    (hmake : v.makeFolders host.folder (scratch.join ⟨"classes"⟩) = (.ok (), t))
    (hmake' : t.makeFolders host.folder (scratch.join ⟨"out"⟩) = (.ok (), t₄)) :
    let e := decompileInto host jar request (scratch.join ⟨"classes"⟩) (scratch.join ⟨"out"⟩) v
    OnlyBelow place t₄ e.2 ∧ (e.1 = .ok () → Finishes host jar request scratch place e.2) := by
  intro e
  have hsource : Opens t₄ host.folder (scratch.descend ["classes"])
      (place ++ (["classes"] : Address)) :=
    hopens.descend (by simpa using isPlain_classes) hfollowed.1.2 (hfurnished.half (by simp))
  have hstage : OnlyBelow (place ++ (["classes"] : Address)) t₄ (stageInputs host.folder request.inputRoot
      (scratch.join ⟨"classes"⟩) request.inputs t₄).2 :=
    stageInputs_below hsource request.inputRoot request.inputs
  have he : e = decompileInto host jar request (scratch.join ⟨"classes"⟩) (scratch.join ⟨"out"⟩) v :=
    rfl
  simp only [decompileInto, hmake, hmake'] at he
  generalize stageInputs host.folder request.inputRoot (scratch.join ⟨"classes"⟩) request.inputs t₄ =
    stagedInputs at hstage he
  obtain ⟨fault | ⟨⟩, t₅⟩ := stagedInputs
  · rw [he]
    exact ⟨hstage.of_append, fun hok => by cases hok⟩
  · simp only at he
    obtain ⟨hstat, hempty⟩ := out_of_staged hfurnished hopens hfollowed.2 hstage
    cases hstart : host.start (javaName host)
      (arguments jar request (scratch.join ⟨"classes"⟩) (scratch.join ⟨"out"⟩)) t₅ with
    | mk answer t₆ =>
      rw [hstart] at he
      cases answer with
      | error cause =>
        obtain rfl := Host.start_of_error hstart
        rw [he]
        exact ⟨hstage.of_append, fun hok => by cases hok⟩
      | ok finished =>
        obtain ⟨hbelow, hplain⟩ := hjava _ _ _ _ _ _ _ _ hstat hempty hstart
        have hall : OnlyBelow place t₄ t₆ := hstage.of_append.trans hbelow.of_append
        by_cases hstatus : finished.status = 0
        · have he' : e = (.ok (), t₆) := he.trans (if_neg fun hne => hne hstatus)
          rw [he']
          exact ⟨hall, fun _ => ⟨⟨t₅, finished, hstart, hstatus⟩,
            FileTree.stat_within hstat (hbelow.within hempty), hplain⟩⟩
        · have he' : e = (.error (DecompilerFault.ended finished.errors).failure, t₆) :=
            he.trans (if_pos hstatus)
          rw [he']
          exact ⟨hall, fun hok => by cases hok⟩

/-- In a folder that was made just now, the decompiler may fail, or it leaves its sources; nothing
    outside of that folder changes. -/
theorem decompileInto_below (request : Request) (jar : Path) (hjava : WritesBelow host)
    (hmade : u.makeFolder host.folder scratch = (.ok (), v))
    (hstat : v.stat host.folder true scratch = .ok (place, .folder)) :
    let e := decompileInto host jar request (scratch.join ⟨"classes"⟩) (scratch.join ⟨"out"⟩) v
    OnlyBelow place v e.2 ∧ (e.1 = .ok () → Finishes host jar request scratch place e.2) := by
  have hnode := (FileTree.node?_of_makeFolder hmade hstat).2
  have hbelow : ∀ b, place <+: b → b ≠ place → v.node? b = none := fun b =>
    empty_of_made hmade hstat
  have hopens := FileTree.opens_of_empty hstat hbelow
  intro e
  by_cases hclasses : Followed scratch ["classes"]
  · by_cases hout : Followed scratch ["out"]
    · obtain ⟨t₃, t₄, hmake₃, hmake₄, hfurnished, hopens₄⟩ := furnish hmade hstat hclasses hout
      obtain ⟨honly, hfinishes⟩ := decompileInto_of_furnished request jar hjava hfurnished hopens₄
        ⟨hclasses, hout⟩ hmake₃ hmake₄
      refine ⟨OnlyBelow.trans (fun b hb => ?_) honly, hfinishes⟩
      by_cases hplace : b = place
      · rw [hplace, hnode, if_pos rfl, hfurnished.node, if_pos (by simp)]
      · have houtside : ¬ place <+: b := fun hp => hb ⟨hp, hplace⟩
        rw [hnode, if_neg hplace, hfurnished.sameOutside b houtside]
    · have hmake := FileTree.makeFolders_name hopens isPlain_classes hclasses
        (hbelow _ (List.prefix_append _ _) (by simp))
      obtain ⟨cause, hfails⟩ := makeFolders_unfollowed isPlain_out (by decide) hout
        (v.place (place ++ (["classes"] : Address)) .folder) host.folder
      have he : e = (.error (StagingFault.noFolder (scratch.join ⟨"out"⟩) cause).failure,
          v.place (place ++ (["classes"] : Address)) .folder) := by
        simp only [e, decompileInto, show v.makeFolders host.folder (scratch.join ⟨"classes"⟩) = _
          from hmake, hfails]
      rw [he]
      refine ⟨?_, fun hok => by cases hok⟩
      exact (FileTree.growsBelow_place (List.prefix_append _ _) (by simp)
        (hbelow _ (List.prefix_append _ _) (by simp))).onlyBelow
  · obtain ⟨cause, hfails⟩ := makeFolders_unfollowed isPlain_classes (by decide) hclasses v
      host.folder
    have he : e = (.error (StagingFault.noFolder (scratch.join ⟨"classes"⟩) cause).failure, v) := by
      simp only [e, decompileInto, hfails]
    rw [he]
    exact ⟨.refl place v, fun hok => by cases hok⟩

/-! ## All of it -/

/-- All that the engine does before it hands anything over: it gets its jar, makes a working folder and
    lets the decompiler work there. It ends with the folder, which is removed if something fails. -/
def launch (host : Host) (option : Option Path) (request : Request) (t : FileTree) :
    Except Failure Path × FileTree :=
  match ask host option t with
  | (.error failure, t) => (.error failure, t)
  | (.ok jar, t) =>
    match host.makeScratch "compose-decompiler-" t with
    | (.error cause, t) => (.error (DecompilerFault.noScratch cause).failure, t)
    | (.ok scratch, t) =>
      match decompileInto host jar request (scratch.join ⟨"classes"⟩) (scratch.join ⟨"out"⟩) t with
      | (.error failure, t) => (.error failure, (t.removeFolders host.folder scratch).2)
      | (.ok (), t) => (.ok scratch, t)

/-- Behind the launch, what the decompiler has left is harvested and the folder is removed. Before
    that, the receiver is told of one event at most. -/
theorem perform_onDemand {σ : Type} (receiver : Work.Receiver σ) (host : Host) (option : Option Path)
    (request : Request) (t : FileTree) (s : σ) :
    ∃ s', (s' = s ∨ ∃ event, s' = receiver.onEvent event s) ∧
      (onDemand host option request).perform receiver t s =
        match launch host option request t with
        | (.error failure, w) => (.error failure, w, s')
        | (.ok scratch, w) =>
          let e := (harvest host.folder (scratch.join ⟨"out"⟩)).perform receiver w s'
          (e.1, (e.2.1.removeFolders host.folder scratch).2, e.2.2) := by
  obtain ⟨s', hask, hs'⟩ : ∃ s', (obtainJar host option).perform receiver t s = _ ∧ _ :=
    perform_obtainJar option t
  refine ⟨s', hs', ?_⟩
  unfold onDemand launch
  rw [Work.perform_bind, hask]
  rcases ask host option t with ⟨failure | jar, t₁⟩
  · rfl
  · simp only [ofJar, Work.perform_bind, Work.perform_attempt]
    rcases host.makeScratch "compose-decompiler-" t₁ with ⟨cause | scratch, t₂⟩
    · rfl
    · simp only [Work.perform_bind, Work.perform_attempt]
      rcases decompileInto host jar request (scratch.join ⟨"classes"⟩) (scratch.join ⟨"out"⟩) t₂ with
        ⟨failure | ⟨⟩, w⟩
      · rfl
      · simp only [Work.perform_bind, Work.perform_attempt, Work.perform_pure]

/-- The working folder is still there after asking for the jar. -/
theorem atHome_ask (hhome : host.AtHome t) (hfills : FillsOnly host)
    (hdraws : ∀ draw ∈ host.suffixes, '/' ∉ draw.toList) (option : Option Path) :
    host.AtHome (ask host option t).2 := by
  obtain ⟨u, hgrow, hsame | ⟨cache, root, content, jar, -, hjar⟩⟩ :=
    ask_leaves hhome hfills hdraws option
  · exact ⟨(hsame _).trans (hgrow.node?_some hhome.there), hhome.names⟩
  · refine ⟨?_, hhome.names⟩
    have hthere := hgrow.node?_some hhome.there
    rw [hjar.instead, if_neg, hthere]
    intro heq
    exact hjar.no_folder (heq ▸ hthere)

/-- Whether a working folder was made in the tree `t`, and nothing else has changed since. -/
structure Housed (host : Host) (scratch : Path) (place : Address) (t v w : FileTree) : Prop where
  made : t.makeFolder host.folder scratch = (.ok (), v)
  stat : v.stat host.folder true scratch = .ok (place, .folder)
  only : OnlyBelow place v w

namespace Housed

variable {b : Address} (h : Housed host scratch place t v w)

include h

/-- Nothing stood in the folder at first. -/
theorem empty (hp : place <+: b) (hne : b ≠ place) : v.node? b = none :=
  empty_of_made h.made h.stat hp hne

/-- Nothing stood where the folder was made. -/
theorem free (hp : place <+: b) : t.node? b = none :=
  FileTree.node?_eq_none_of_free (FileTree.node?_of_makeFolder h.made h.stat).1 hp

theorem node?_outside (hb : ¬ place <+: b) : w.node? b = t.node? b := by
  have hne : b ≠ place := fun heq => hb (heq ▸ List.prefix_refl b)
  rw [h.only b fun hboth => hb hboth.1, (FileTree.node?_of_makeFolder h.made h.stat).2, if_neg hne]

/-- What stood in the tree has stayed. -/
theorem within : t.Within w := by
  intro b n hn
  by_cases hb : place <+: b
  · rw [h.free hb] at hn
    cases hn
  · rw [h.node?_outside hb, hn]

/-- The folder is found where it was made. -/
theorem stat_end : w.stat host.folder true scratch = .ok (place, .folder) :=
  FileTree.stat_within h.stat (h.only.within fun _ => h.empty)

/-- The folder can be removed with all that is in it, also if files have changed elsewhere. -/
theorem node?_removed {u : FileTree} (hhome : host.AtHome t)
    (hways : ∀ b n, w.node? b = some n → (∀ content, n ≠ .file content) → u.node? b = some n)
    (b : Address) :
    (u.removeFolders host.folder scratch).2.node? b = if place <+: b then none else u.node? b :=
  node?_of_removeNew (FileTree.unblocked_of_folder hhome.there) h.made h.stat
    (fun b n hn hfile => hways b n (h.only.within (fun _ => h.empty) b n hn) hfile) b

end Housed

/-- Whether a working folder was made in the tree `t`, the decompiler has ended well there, and
    nothing else has changed. -/
structure Launched (host : Host) (request : Request) (scratch : Path) (place : Address)
    (t v w : FileTree) : Prop where
  housed : Housed host scratch place t v w
  finishes : ∃ jar, Finishes host jar request scratch place w

/-- Where a folder was made just now, it is found. -/
theorem stat_of_makeScratch (hhome : host.AtHome t) {front : String}
    (h : host.makeScratch front t = (.ok scratch, v)) :
    ∃ place, t.makeFolder host.folder scratch = (.ok (), v) ∧
      v.stat host.folder true scratch = .ok (place, .folder) := by
  have hmade := Host.makeScratch_eq_ok h
  obtain ⟨folder, name, hnew⟩ :=
    FileTree.hasNew_of_makeFolder (FileTree.unblocked_of_folder hhome.there) hmade
  exact ⟨_, hmade, FileTree.stat_of_leadsTo hnew.usable hnew.leadsTo⟩

/-- A launch that fails leaves what asking for the jar has left, and nothing else. One that succeeds
    leaves a working folder besides, in which the decompiler has ended well. -/
theorem launch_cases (hhome : host.AtHome (ask host option t).2) (hjava : WritesBelow host)
    (request : Request) :
    (∃ failure w, launch host option request t = (.error failure, w) ∧
        ∀ b, w.node? b = (ask host option t).2.node? b) ∨
      ∃ scratch place v w, launch host option request t = (.ok scratch, w) ∧
        Launched host request scratch place (ask host option t).2 v w := by
  unfold launch
  generalize ask host option t = asked at hhome ⊢
  obtain ⟨failure | jar, t₁⟩ := asked
  · exact .inl ⟨failure, t₁, rfl, fun _ => rfl⟩
  · simp only at hhome ⊢
    rcases host.makeScratch_cases "compose-decompiler-" t₁ with
      ⟨cause, hnone⟩ | ⟨draw, -, v, -, hscratch⟩
    · rw [hnone]
      exact .inl ⟨_, t₁, rfl, fun _ => rfl⟩
    · obtain ⟨place, hmade, hstat⟩ := stat_of_makeScratch hhome hscratch
      obtain ⟨hbelow, hfinishes⟩ := decompileInto_below request jar hjava hmade hstat
      rw [hscratch]
      generalize host.temporaryFolder.join _ = scratch at *
      simp only at hbelow hfinishes ⊢
      generalize decompileInto host jar request _ _ v = outcome at hbelow hfinishes ⊢
      obtain ⟨failure | ⟨⟩, w⟩ := outcome
      · have hhoused : Housed host scratch place t₁ v w := ⟨hmade, hstat, hbelow⟩
        refine .inl ⟨failure, _, rfl, fun b => ?_⟩
        rw [hhoused.node?_removed hhome fun _ _ hn _ => hn]
        by_cases hp : place <+: b
        · rw [if_pos hp, hhoused.free hp]
        · rw [if_neg hp, hhoused.node?_outside hp]
      · exact .inr ⟨scratch, place, v, w, rfl, ⟨hmade, hstat, hbelow⟩, jar, hfinishes rfl⟩

theorem launch_eq_error (hhome : host.AtHome (ask host option t).2) (hjava : WritesBelow host)
    {failure : Failure} (h : launch host option request t = (.error failure, w)) (b : Address) :
    w.node? b = (ask host option t).2.node? b := by
  rcases launch_cases hhome hjava request with ⟨failure', w', hfails, hsame⟩ | ⟨_, _, _, _, hok, -⟩
  · rw [← (Prod.mk.inj (hfails.symm.trans h)).2, hsame]
  · cases (Prod.mk.inj (hok.symm.trans h)).1

theorem launch_eq_ok (hhome : host.AtHome (ask host option t).2) (hjava : WritesBelow host)
    (h : launch host option request t = (.ok scratch, w)) :
    ∃ place v, Launched host request scratch place (ask host option t).2 v w := by
  rcases launch_cases hhome hjava request with
    ⟨_, _, hfails, -⟩ | ⟨scratch', place, v, w', hok, hlaunched⟩
  · cases (Prod.mk.inj (hfails.symm.trans h)).1
  · obtain ⟨hpath, rfl⟩ := Prod.mk.inj (hok.symm.trans h)
    exact ⟨place, v, Except.ok.inj hpath ▸ hlaunched⟩

end Engine

end SourceRecovery
