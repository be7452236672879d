import SourceRecovery.Proofs.Engine.Handover
import SourceRecovery.Proofs.Run.Deposit
import SourceRecovery.Proofs.Run.Verdict

/-!
# How the engine ends

However the engine that gets its jar itself comes to its end, its working folder is gone then. If it
has not come so far that the decompiler has done its work, it has handed over nothing.

* `spares_receiver`: a run leaves alone all that is outside of its output folder.
* `Failed`, `Delivered`: the two ways for the engine to end.
* `failed_of_launch`, `delivered_of_launch`: which of them it is depends on its launch.
* `PastReset.perform_of_launch`: a run whose engine fails so has written nothing.
* `onDemand_tidies`: all of this together.
-/

namespace SourceRecovery

open FileTree (Before Keeps Opens)

variable {σ : Type} {receiver : Work.Receiver σ} {s : σ} {t w : FileTree} {cwd root : Address}
  {host : Host} {option : Option Path} {request : Request} {scratch output : Path}
  {kept : Address → Prop} {failure : Failure}

/-! ## The receiver of a run -/

namespace Run

/-- A unit that a run takes changes no file outside of the output folder, and takes away neither a
    folder nor a link. -/
theorem keeps_deposit (h : t.Opens cwd output root) (u : SourceUnit) :
    Keeps (fun b => ¬ root <+: b) t (deposit cwd output u t).2 ∧
      (deposit cwd output u t).2.Opens cwd output root := by
  have hspec := deposit_spec h u
  generalize (deposit cwd output u t).1 = d at hspec
  generalize (deposit cwd output u t).2 = t' at hspec ⊢
  cases hspec with
  | blank _ => exact ⟨.refl _ t, h⟩
  | unusable _ _ => exact ⟨.refl _ t, h⟩
  | failed _ _ hgrow =>
    exact ⟨⟨fun _ _ hn _ => hgrow.node?_some hn, fun _ _ _ => hgrow.node?_some⟩, h.grow hgrow⟩
  | @stored names t₁ _ _ _ _ hgrow hfree hinstead =>
    have h₁ := h.grow hgrow
    refine ⟨⟨fun b n hn hfile => ?_, fun b content hb hn => ?_⟩, h₁.hasInstead hfree hinstead⟩
    · have hn₁ := hgrow.node?_some hn
      rw [hinstead, if_neg, hn₁]
      -- where the file is written, there was a file or nothing
      rintro rfl
      cases n with
      | folder => exact hfree hn₁
      | file content => exact hfile content rfl
      | link target => exact h₁.linkless _ target (List.prefix_append root names) hn₁
    · rw [hinstead, if_neg, hgrow.node?_some hn]
      rintro rfl
      exact hb (List.prefix_append root names)

/-- A run leaves alone all that is outside of its output folder. -/
theorem spares_receiver (h : w.Opens cwd output root) :
    (Run.receiver cwd output).Spares (fun b => ¬ root <+: b) w := by
  have hall : ∀ t, (Run.receiver cwd output).Makes w t →
      Keeps (fun b => ¬ root <+: b) w t ∧ t.Opens cwd output root := by
    intro t ht
    induction ht with
    | nothing => exact ⟨.refl _ w, h⟩
    | taken u s _ ih =>
      obtain ⟨hkeeps, hopens⟩ := keeps_deposit ih.2 u
      exact ⟨ih.1.trans hkeeps, hopens⟩
  exact fun t ht => (hall t ht).1

end Run

namespace Engine

/-- So a run leaves the working folder of the engine alone, unless that is in the output folder. -/
theorem Housed.spares_receiver {place : Address} {v : FileTree}
    (h : Housed host scratch place t v w) (hopens : t.Opens host.folder output root)
    (hapart : ¬ root <+: place) :
    (Run.receiver host.folder output).Spares (fun b => place <+: b ∨ ¬ root <+: b) w := by
  have hroot : ¬ place <+: root := by
    intro hp
    have hnode := hopens.node?_root
    rw [h.free hp] at hnode
    cases hnode
  have hplace : ∀ b, place <+: b → ¬ root <+: b := fun b hp hp' =>
    (List.prefix_or_prefix_of_prefix hp hp').elim hroot hapart
  obtain ⟨left, hleft⟩ := hopens.reaches
  have hopens' : w.Opens host.folder output root := by
    refine ⟨hopens.text_ne, ⟨left, hleft.within h.within⟩, fun a target hp hlink => ?_⟩
    rw [h.node?_outside fun hp' => hplace a hp' hp] at hlink
    exact hopens.linkless a target hp hlink
  exact fun u hu => (Run.spares_receiver hopens' u hu).of_imp fun b hb => hb.elim (hplace b) id

/-! ## The engine -/

/-- Whether the engine has ended with a failure, without having handed over anything, and with nothing
    left of it but what asking for the jar leaves. -/
structure Failed (receiver : Work.Receiver σ) (host : Host) (option : Option Path) (t : FileTree)
    (s : σ) (failure : Failure) (e : Except Failure Unit × FileTree × σ) : Prop where
  ended : e.1 = .error failure
  /-- The receiver was told of one event at most. -/
  received : e.2.2 = s ∨ ∃ event, e.2.2 = receiver.onEvent event s
  tree : ∀ b, e.2.1.node? b = (ask host option t).2.node? b

/-- What comes of offering the units in some files of the working folder. -/
def offered (receiver : Work.Receiver σ) (host : Host) (scratch : Path) (w : FileTree)
    (files : List Address) (s : σ) : Except Failure Unit × FileTree × σ :=
  let read := readUnits w host.folder (scratch.join ⟨"out"⟩) files
  (offer read.1 read.2).perform receiver w s

/-- Whether the engine has ended after the decompiler has done its work in the working folder
    `scratch` and left the tree `w`: the units in the files there have been offered to a receiver in
    the state `s'`, as far as these can be read, and the folder is gone. -/
structure Delivered (receiver : Work.Receiver σ) (host : Host) (option : Option Path)
    (request : Request) (kept : Address → Prop) (t : FileTree) (s : σ) (scratch : Path) (w : FileTree)
    (place : Address) (files : List Address) (s' : σ) (e : Except Failure Unit × FileTree × σ) :
    Prop where
  finishes : ∃ jar, Finishes host jar request scratch place w
  stat : w.stat host.folder true scratch = .ok (place, .folder)
  /-- The receiver was told of one event at most before. -/
  told : s' = s ∨ ∃ event, s' = receiver.onEvent event s
  ordered : files.Pairwise Before
  all : ∀ names, names ∈ files ↔
    ∃ content, w.node? (place ++ (["out"] : Address) ++ names) = some (.file content)
  ended : e.1 = (offered receiver host scratch w files s').1
  received : e.2.2 = (offered receiver host scratch w files s').2.2
  tree : ∀ b, e.2.1.node? b =
    if place <+: b then none else (offered receiver host scratch w files s').2.1.node? b
  /-- The files that the receiver leaves alone are as asking for the jar has left them. -/
  spared : ∀ b content, kept b → (ask host option t).2.node? b = some (.file content) →
    e.2.1.node? b = some (.file content)

/-- If the launch of the engine fails, nothing has been handed over, and nothing is left. -/
theorem failed_of_launch (receiver : Work.Receiver σ) (s : σ)
    (hhome : host.AtHome (ask host option t).2) (hjava : WritesBelow host)
    (h : launch host option request t = (.error failure, w)) :
    Failed receiver host option t s failure
      ((onDemand host option request).perform receiver t s) := by
  obtain ⟨s', hs', hperform⟩ := perform_onDemand receiver host option request t s
  rw [h] at hperform
  rw [hperform]
  exact ⟨rfl, hs', launch_eq_error hhome hjava h⟩

/-- If the launch of the engine succeeds, what the decompiler has left is offered. -/
theorem delivered_of_launch (receiver : Work.Receiver σ) (s : σ)
    (hhome : host.AtHome (ask host option t).2) (hjava : WritesBelow host)
    (h : launch host option request t = (.ok scratch, w))
    (hspares : ∀ place, w.stat host.folder true scratch = .ok (place, .folder) →
      receiver.Spares (fun b => place <+: b ∨ kept b) w) :
    ∃ place files s', Delivered receiver host option request kept t s scratch w place files s'
      ((onDemand host option request).perform receiver t s) := by
  obtain ⟨s', hs', hperform⟩ := perform_onDemand receiver host option request t s
  obtain ⟨place, v, hhoused, jar, hfinishes⟩ := launch_eq_ok hhome hjava h
  have hspared := hspares place hhoused.stat_end
  have hbase : FileTree.isStandardInput (scratch.descend ["out"]) = false :=
    FileTree.isStandardInput_descend (FileTree.reaches_of_stat hhoused.stat).1 isPlain_out
      (by decide)
  obtain ⟨files, hordered, hall, hharvest⟩ := perform_harvest hfinishes.stat hbase hfinishes.plain
    hspared (fun b hp => .inl ((List.prefix_append place ["out"]).trans hp)) s'
  rw [h] at hperform
  simp only [hharvest] at hperform
  have hkeeps : Keeps (fun b => place <+: b ∨ kept b) w
      (offered receiver host scratch w files s').2.1 := hspared _ (makes_offer .nothing _ _ s')
  have htree := hhoused.node?_removed hhome hkeeps.ways
  rw [hperform]
  refine ⟨place, files, s', ⟨jar, hfinishes⟩, hhoused.stat_end, hs', hordered, hall, rfl, rfl, htree,
    fun b content hb hfile => ?_⟩
  have hout : ¬ place <+: b := by
    intro hp
    rw [hhoused.free hp] at hfile
    cases hfile
  exact (htree b).trans ((if_neg hout).trans
    (hkeeps.files b content (.inr hb) (hhoused.within b _ hfile)))

end Engine

namespace Run

open Engine (ask launch onDemand WritesBelow)

variable {marker : String} {settings : Settings} {t₀ : FileTree} {files selected : List Path}

/-- A run whose engine cannot be launched fails with the engine's failure, and has written nothing
    since the reset. -/
theorem PastReset.perform_of_launch (hpast : PastReset host.folder settings t₀ t files)
    (hkept : (Selection.keepMarked t host.folder marker files).1 = .ok selected)
    (hne : selected ≠ []) (hhome : host.AtHome (ask host option t).2)
    (hjava : WritesBelow host)
    (h : launch host option (requestFor settings selected) t = (.error failure, w)) :
    (perform host.folder marker (onDemand host option) settings t₀).result =
        .error (.engine failure) ∧
      ∀ b, (perform host.folder marker (onDemand host option) settings t₀).tree.node? b =
        (ask host option t).2.node? b := by
  obtain ⟨events, hend⟩ := hpast.perform_engages hkept hne
  obtain ⟨hresult, htree⟩ := hend (onDemand host option)
  have hfailed := Engine.failed_of_launch (Run.receiver host.folder settings.output) (.start events)
    hhome hjava h
  rw [hresult, htree]
  generalize (onDemand host option (requestFor settings selected)).perform _ t _ = e at hfailed ⊢
  obtain ⟨ended, t', s'⟩ := e
  obtain ⟨rfl, hreceiver, hsame⟩ := hfailed
  refine ⟨?_, hsame⟩
  have hfault : s'.fault = none := by
    rcases hreceiver with rfl | ⟨event, rfl⟩ <;> rfl
  simp only [settle, hfault]

end Run

namespace Engine

/-- The engine with `java` writing below its destination only. If there is no jar for it, an input
    cannot be staged, or `java` is not started or ends badly, the engine ends with this failure: it
    has handed over nothing and has left nothing but what asking for the jar leaves, and a run ends
    with the failure and has written nothing. Else the units in the files that `java` has written are
    offered in their order, up to the first that cannot be read or is refused, whose failure is the
    engine's, and the working folder is gone. In each case the files stay that the receiver leaves
    alone, unless `curl` changes them; if it changes only what it is asked to fill, asking for the jar
    makes a difference to no file but a jar. -/
theorem onDemand_tidies (receiver : Work.Receiver σ) (s : σ)
    (hhome : host.AtHome (ask host option t).2) (hjava : WritesBelow host)
    (hspares : ∀ scratch w place, launch host option request t = (.ok scratch, w) →
      w.stat host.folder true scratch = .ok (place, .folder) →
      receiver.Spares (fun b => place <+: b ∨ kept b) w) :
    let e := (onDemand host option request).perform receiver t s
    (∀ failure w, launch host option request t = (.error failure, w) →
      Failed receiver host option t s failure e ∧
        ∀ marker settings t₀ files selected, request = Run.requestFor settings selected →
          Run.PastReset host.folder settings t₀ t files →
          (Selection.keepMarked t host.folder marker files).1 = .ok selected → selected ≠ [] →
          let r := Run.perform host.folder marker (onDemand host option) settings t₀
          r.result = .error (.engine failure) ∧
            ∀ b, r.tree.node? b = (ask host option t).2.node? b) ∧
      (∀ scratch w, launch host option request t = (.ok scratch, w) →
        ∃ place files s', Delivered receiver host option request kept t s scratch w place files s' e) ∧
      (host.AtHome t → (∀ draw ∈ host.suffixes, '/' ∉ draw.toList) → FillsOnly host →
        ∀ b content, b.getLast? ≠ some (Text.encode "vineflower.jar") →
          ((ask host option t).2.node? b = some (.file content) ↔
            t.node? b = some (.file content))) := by
  refine ⟨fun failure w h => ⟨?_, ?_⟩, fun scratch w h => ?_, ?_⟩
  · exact failed_of_launch receiver s hhome hjava h
  · rintro marker settings t₀ files selected rfl hpast hkept hne
    exact hpast.perform_of_launch hkept hne hhome hjava h
  · exact delivered_of_launch receiver s hhome hjava h fun place => hspares scratch w place h
  · exact fun hthere hdraws hfills b content hb => ask_files hthere hfills hdraws option hb content

/-- A decompiler that writes one source, whatever the class files are. -/
def oneSource : Program := fun arguments t =>
  if arguments.head? = some (Text.encode "-jar") then
    let target := (Path.mk (arguments.getLast?.getD [])).join ⟨"A.java"⟩
    (⟨0, []⟩, (t.write [] target (Text.encode "class A")).2)
  else (⟨1, []⟩, t)

/-- A host on which every program is that one. -/
def oneSourceHost : Host :=
  ⟨[], some ⟨"/"⟩, [], ["a1"], [(["bin", "java"], oneSource)]⟩

/-- A tree with a class file, and with a folder where its source should be written. -/
def blockedOutput : FileTree where
  entries := [(["bin"], .folder), (["tmp"], .folder), (["in"], .folder),
    (["in", "A.class"], .file [1]), (["out"], .folder), (["out", "A.java"], .folder)]
  nodup := by decide
  rooted := by simp [FileTree.FolderIn]

def oneClass : Request :=
  ⟨⟨"/in"⟩, [⟨"/in/A.class"⟩], [], false⟩

theorem start_oneSourceHost {name : Bytes} {arguments : List Bytes} {finished : Finished}
    (h : oneSourceHost.start name arguments t = (.ok finished, w)) :
    oneSource arguments t = (finished, w) := by
  obtain ⟨a, program, hmem, heq⟩ := Host.start_of_ok h
  obtain ⟨-, rfl⟩ := Prod.mk.inj (List.mem_singleton.1 hmem)
  exact heq

theorem fillsOnly_oneSourceHost : FillsOnly oneSourceHost :=
  fun _ _ _ _ h => .inl (Prod.mk.inj (start_oneSourceHost h)).2.symm

theorem writesBelow_oneSourceHost : WritesBelow oneSourceHost := by
  intro jar request source destination t finished w a hstat hempty hstart
  have hopens : t.Opens [] destination a := FileTree.opens_of_empty hstat hempty
  have hnames : ∀ n ∈ (["A.java"] : Address), Path.IsPlain n := by decide
  have hhead : (arguments jar request source destination).head? = some (Text.encode "-jar") := rfl
  have hlast : (arguments jar request source destination).getLast? = some destination.bytes := by
    rw [arguments, List.getLast?_append]
    rfl
  have hrun := start_oneSourceHost hstart
  rw [oneSource, if_pos hhead, hlast] at hrun
  have hw : (t.write [] (destination.descend ["A.java"]) (Text.encode "class A")).2 = w :=
    (Prod.mk.inj hrun).2
  have hnone : ∀ names, t.node? (a ++ names) ≠ none → names = [] := by
    intro names hthere
    by_contra hne
    exact hthere (hempty _ (List.prefix_append a names) (by simpa using hne))
  rcases FileTree.write_descend hopens hnames (by simp) (Text.encode "class A") with
    ⟨fault, hwrite⟩ | ⟨u, hwrite, -, -, hinstead⟩
  · rw [hwrite] at hw
    rw [← hw]
    refine ⟨.refl a t, fun names hthere n hn => ?_⟩
    rw [hnone names hthere] at hn
    cases hn
  · rw [hwrite] at hw
    rw [← hw]
    refine ⟨hinstead.onlyBelow (by simp), fun names hthere n hn => ?_⟩
    rw [hinstead] at hthere
    split at hthere
    · rename_i heq
      rw [List.append_cancel_left heq] at hn
      exact hnames n hn
    · rw [hnone names hthere] at hn
      cases hn

theorem launch_oneSourceHost :
    ∃ w, launch oneSourceHost (some ⟨"/v.jar"⟩) oneClass blockedOutput =
        (.ok ⟨"/tmp/compose-decompiler-a1"⟩, w) ∧
      w.stat [] true ⟨"/tmp/compose-decompiler-a1"⟩ =
        .ok (["tmp", "compose-decompiler-a1"], .folder) := by
  have hlaunched :
      ((launch oneSourceHost (some ⟨"/v.jar"⟩) oneClass blockedOutput).1.toOption,
        ((launch oneSourceHost (some ⟨"/v.jar"⟩) oneClass blockedOutput).2.stat [] true
          ⟨"/tmp/compose-decompiler-a1"⟩).toOption) =
        (some ⟨"/tmp/compose-decompiler-a1"⟩,
          some ((["tmp", "compose-decompiler-a1"], .folder) : Address × Node)) := by
    decide +kernel
  generalize launch oneSourceHost (some ⟨"/v.jar"⟩) oneClass blockedOutput = launched at hlaunched
  obtain ⟨failure | scratch, w⟩ := launched
  · cases (Prod.mk.inj hlaunched).1
  · obtain ⟨hok, hstat⟩ := Prod.mk.inj hlaunched
    obtain rfl := Option.some.inj hok
    refine ⟨w, rfl, ?_⟩
    generalize w.stat [] true ⟨"/tmp/compose-decompiler-a1"⟩ = found at hstat
    obtain fault | found := found
    · cases hstat
    · exact congrArg Except.ok (Option.some.inj hstat)

theorem opens_blockedOutput : blockedOutput.Opens [] ⟨"/out"⟩ ["out"] := by
  have hstat : blockedOutput.stat [] true ⟨"/out"⟩ = .ok (["out"], .folder) := by rfl
  have hlinkless : ∀ e ∈ blockedOutput.entries, ∀ target, e.2 ≠ .link target := by
    simp [blockedOutput]
  refine ⟨by simp, (FileTree.reaches_of_stat hstat).2, fun a target hp hlink => ?_⟩
  have hne : a ≠ [] := by
    rintro rfl
    exact absurd hp.length_le (by simp)
  exact hlinkless _ (FileTree.mem_of_node? hne hlink) target rfl

theorem atHome_blockedOutput : oneSourceHost.AtHome blockedOutput :=
  ⟨by rfl, by simp [oneSourceHost]⟩

theorem noSlash_oneSourceHost : ∀ draw ∈ oneSourceHost.suffixes, '/' ∉ draw.toList := by
  simp [oneSourceHost]

theorem atHome_ask_blockedOutput :
    oneSourceHost.AtHome (ask oneSourceHost (some ⟨"/v.jar"⟩) blockedOutput).2 :=
  atHome_ask atHome_blockedOutput fillsOnly_oneSourceHost noSlash_oneSourceHost _

/-- The receiver of a run into `out` leaves the working folder alone, and all else but `out`. -/
theorem spares_blockedOutput (scratch : Path) (w : FileTree) (place : Address)
    (h : launch oneSourceHost (some ⟨"/v.jar"⟩) oneClass blockedOutput = (.ok scratch, w))
    (hplace : w.stat [] true scratch = .ok (place, .folder)) :
    (Run.receiver [] ⟨"/out"⟩).Spares (fun b => place <+: b ∨ ¬ (["out"] : Address) <+: b) w := by
  have hasked : (ask oneSourceHost (some ⟨"/v.jar"⟩) blockedOutput).2 = blockedOutput := by rfl
  obtain ⟨u, hlaunch, hstat⟩ := launch_oneSourceHost
  obtain ⟨hpath, rfl⟩ := Prod.mk.inj (hlaunch.symm.trans h)
  obtain rfl := Except.ok.inj hpath
  obtain ⟨rfl, -⟩ := Prod.mk.inj (Except.ok.inj (hstat.symm.trans hplace))
  obtain ⟨place, v, hhoused, -⟩ := launch_eq_ok atHome_ask_blockedOutput writesBelow_oneSourceHost
    hlaunch
  obtain ⟨rfl, -⟩ := Prod.mk.inj (Except.ok.inj (hstat.symm.trans hhoused.stat_end))
  rw [hasked] at hhoused
  exact hhoused.spares_receiver opens_blockedOutput (by simp)

/-- A run refuses the source, as it cannot write it; the working folder is gone nevertheless, and the
    class file is as it was. -/
theorem onDemand_tidies_blockedOutput :
    let e := (onDemand oneSourceHost (some ⟨"/v.jar"⟩) oneClass).perform (Run.receiver [] ⟨"/out"⟩)
      blockedOutput (.start [])
    e.1.toOption = none ∧
      (∀ b, (["tmp", "compose-decompiler-a1"] : Address) <+: b → e.2.1.node? b = none) ∧
      e.2.1.node? ["in", "A.class"] = some (.file [1]) := by
  intro e
  obtain ⟨w, hlaunch, hstat⟩ := launch_oneSourceHost
  have hrefused : e.1.toOption = none := by decide +kernel
  have hclass : blockedOutput.node? ["in", "A.class"] = some (.file [1]) := by rfl
  obtain ⟨-, hdelivers, hfiles⟩ := onDemand_tidies (Run.receiver [] ⟨"/out"⟩) (.start [])
    atHome_ask_blockedOutput writesBelow_oneSourceHost spares_blockedOutput
  obtain ⟨place, files, s', hdelivered⟩ : ∃ place files s', Delivered (Run.receiver [] ⟨"/out"⟩)
      oneSourceHost (some ⟨"/v.jar"⟩) oneClass (fun b => ¬ (["out"] : Address) <+: b) blockedOutput
      (.start [])
      ⟨"/tmp/compose-decompiler-a1"⟩ w place files s' e := hdelivers _ _ hlaunch
  have hasked := (hfiles atHome_blockedOutput noSlash_oneSourceHost fillsOnly_oneSourceHost
    ["in", "A.class"] [1] (by simp)).2 hclass
  clear_value e
  obtain ⟨rfl, -⟩ := Prod.mk.inj (Except.ok.inj (hstat.symm.trans hdelivered.stat))
  refine ⟨hrefused, fun b hp => ?_, hdelivered.spared _ _ (by simp) hasked⟩
  rw [hdelivered.tree, if_pos hp]

end Engine

end SourceRecovery
