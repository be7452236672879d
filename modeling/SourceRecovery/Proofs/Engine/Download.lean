import SourceRecovery.Engine.Jar
import SourceRecovery.Proofs.Engine.Work
import SourceRecovery.Proofs.FileTree.SingleFile
import SourceRecovery.Proofs.Host

/-!
# Downloads

What asking for the jar makes of a tree, whatever `curl` does to the file that it is asked to fill.

* `perform_obtainJar`: it is the same whoever listens.
* `ask_missing` says what it comes to if the jar has to be fetched.
* `Open.makePart`, `HasPart.conclude`: the file that is fetched into, from its beginning to its end.
* `ask_leaves`: new folders are all that is left, but for the jar.
* `ask_files`: so there are the same files as before, but for the jar.
-/

namespace SourceRecovery.Engine

open FileTree (GrowsBelow HasInstead Followed)

variable {t u v : FileTree} {host : Host} {cwd root : Address} {cache part : Path} {content : Bytes}

/-! ## Asking for the jar -/

/-- Receives everything and keeps nothing. -/
def unheard : Work.Receiver Unit where
  onEvent _ s := s
  onUnit _ t s := (.ok (), t, s)

/-- Asks for the jar. -/
def ask (host : Host) (option : Option Path) (t : FileTree) : Except Failure Path × FileTree :=
  let e := (obtainJar host option).perform unheard t ()
  (e.1, e.2.1)

/-- The folder of a cache that the jar belongs in. -/
def toolFolder (cache : Path) : Path :=
  cache.join ⟨"tools"⟩

/-- How a call ends once `curl` has answered. -/
def conclude (cwd : Address) (jar part : Path) :
    Except IoFault Finished × FileTree → Except Failure Path × FileTree
  | (.error cause, t) => (.error (JarFault.notStarted cause).failure, (t.unlink cwd part).2)
  | (.ok finished, t) =>
    if finished.status ≠ 0 then (.error JarFault.notFetched.failure, (t.unlink cwd part).2)
    else
      match t.rename cwd part jar with
      | (.error cause, t) =>
        (.error (JarFault.notInstalled jar cause).failure, (t.unlink cwd part).2)
      | (.ok (), t) => (.ok jar, t)

theorem parent?_cachedJar (hcache : cache.bytes ≠ []) :
    (cachedJar cache).parent? = some (toolFolder cache) := by
  have hjar : Path.IsPlain "vineflower.jar" := by decide
  have hplain : ∀ w ∈ (["tools"] : Address), Path.IsPlain w := by decide
  have hparent := Path.parent?_descend hcache hplain hjar
  rwa [Path.bare_descend hcache hplain (by simp)] at hparent

section

variable {σ : Type} {receiver : Work.Receiver σ} {s : σ}

/-- What a download makes of a tree, and what is told of it. -/
theorem perform_download {folder target : Path} (hparent : target.parent? = some folder)
    (t : FileTree) : (download host target).perform receiver t s =
      match t.makeFolders host.folder folder with
      | (.error cause, u) => (.error (JarFault.noFolder folder cause).failure, u, s)
      | (.ok (), u) =>
        ((fetch host folder target u).1.mapError JarFault.failure, (fetch host folder target u).2,
          receiver.onEvent (.downloading target) s) := by
  unfold download
  rw [hparent]
  simp only [Work.perform_bind, Work.perform_attempt]
  rcases t.makeFolders host.folder folder with ⟨fault | _, u⟩
  · rfl
  · show (Work.note (.downloading target) _).perform receiver u s = _
    rw [Work.perform_note]
    simp only [Work.perform_bind, Work.perform_attempt]
    rcases fetch host folder target u with ⟨fault | _, v⟩ <;> rfl

/-- Whoever listens, asking for the jar goes the same way, and at most one event is told of it. -/
theorem perform_obtainJar (option : Option Path) (t : FileTree) :
    ∃ s', (obtainJar host option).perform receiver t s =
        ((ask host option t).1, (ask host option t).2, s') ∧
      (s' = s ∨ ∃ event, s' = receiver.onEvent event s) := by
  unfold ask obtainJar
  cases cacheRoot? host with
  | none => exact ⟨s, rfl, .inl rfl⟩
  | some cache =>
    simp only [Work.perform_bind, Work.perform_attempt]
    cases findJar t host.folder option (host.valueOf? "VINEFLOWER_JAR") cache with
    | given jar => exact ⟨s, rfl, .inl rfl⟩
    | cached jar => exact ⟨s, rfl, .inl rfl⟩
    | missing jar =>
      simp only [Work.perform_bind]
      cases hparent : jar.parent? with
      | none =>
        unfold download
        rw [hparent]
        exact ⟨s, rfl, .inl rfl⟩
      | some folder =>
        rw [perform_download hparent, perform_download hparent]
        rcases t.makeFolders host.folder folder with ⟨fault | ⟨⟩, u⟩
        · exact ⟨s, rfl, .inl rfl⟩
        · refine ⟨receiver.onEvent (.downloading jar) s, ?_, .inr ⟨_, rfl⟩⟩
          simp only
          rcases fetch host folder jar u with ⟨fault | _, v⟩ <;> rfl

end

/-- What becomes of a call that has to fetch the jar, with `curl` answering if it is started. -/
theorem ask_missing {option : Option Path} (hcache : cacheRoot? host = some cache)
    (htext : cache.bytes ≠ [])
    (hfind : findJar t host.folder option (host.valueOf? "VINEFLOWER_JAR") cache =
      .missing (cachedJar cache)) :
    ask host option t =
      match t.makeFolders host.folder (toolFolder cache) with
      | (.error cause, u) => (.error (JarFault.noFolder (toolFolder cache) cause).failure, u)
      | (.ok (), u) =>
        match host.makeScratchFile (toolFolder cache) "vineflower-" ".part" u with
        | (.error cause, v) => (.error (JarFault.noScratch (toolFolder cache) cause).failure, v)
        | (.ok part, v) =>
          conclude host.folder (cachedJar cache) part
            (host.start "curl" (fetchArguments part) v) := by
  unfold ask obtainJar
  rw [hcache]
  simp only [Work.perform_bind, Work.perform_attempt]
  rw [hfind]
  simp only [Work.perform_bind, perform_download (parent?_cachedJar htext)]
  rcases t.makeFolders host.folder (toolFolder cache) with ⟨fault | ⟨⟩, u⟩
  · rfl
  · simp only
    unfold fetch
    rcases host.makeScratchFile (toolFolder cache) "vineflower-" ".part" u with ⟨fault | part, v⟩
    · rfl
    · simp only
      unfold fetchInto
      rcases host.start "curl" (fetchArguments part) v with ⟨fault | finished, w⟩
      · rfl
      · unfold conclude
        simp only
        by_cases hstatus : finished.status ≠ 0
        · rw [if_pos hstatus, if_pos hstatus]
          rfl
        · rw [if_neg hstatus, if_neg hstatus]
          rcases w.rename host.folder part (cachedJar cache) with ⟨fault | ⟨⟩, w⟩ <;> rfl

/-- A call that need not fetch the jar changes nothing. -/
theorem ask_cases (host : Host) (option : Option Path) (t : FileTree) :
    (∃ answer, ask host option t = (answer, t)) ∨ ∃ cache, cacheRoot? host = some cache ∧
      findJar t host.folder option (host.valueOf? "VINEFLOWER_JAR") cache =
        .missing (cachedJar cache) := by
  unfold ask obtainJar
  cases cacheRoot? host with
  | none => exact .inl ⟨_, rfl⟩
  | some cache =>
    simp only [Work.perform_bind, Work.perform_attempt]
    cases hfind : findJar t host.folder option (host.valueOf? "VINEFLOWER_JAR") cache with
    | given jar => exact .inl ⟨_, rfl⟩
    | cached jar => exact .inl ⟨_, rfl⟩
    | missing jar =>
      obtain rfl : jar = cachedJar cache := by
        unfold findJar at hfind
        split at hfind
        · cases hfind
        · cases hfind
        · split at hfind
          · cases hfind
          · exact (JarSource.missing.inj hfind).symm
      exact .inr ⟨cache, rfl, hfind⟩

/-! ## The file that is fetched -/

theorem isPlain_jar : Path.IsPlain "vineflower.jar" := by
  decide

theorem toolFolder_ne_empty (cache : Path) : (toolFolder cache).bytes ≠ [] :=
  Path.join_ne_empty cache (by decide)

/-- Whether `curl`, however it ends, changes nothing but the file that it is asked to fill. -/
def FillsOnly (host : Host) : Prop :=
  ∀ part t finished t', host.start "curl" (fetchArguments part) t = (.ok finished, t') →
    t' = t ∨ ∃ content, t' = (t.write host.folder part content).2

/-- The name of a file that is fetched. -/
def partName (draw : String) : Name :=
  Text.encode ("vineflower-" ++ draw ++ ".part")

theorem isPlain_partName {draw : String} (hdraw : '/' ∉ draw.toList) :
    Path.IsPlain (partName draw) := by
  have hlong : 16 ≤ ("vineflower-" ++ draw ++ ".part").toList.length := by
    simp
  have hne : ∀ w : String, w.toList.length < 16 → "vineflower-" ++ draw ++ ".part" ≠ w := by
    rintro w hshort rfl
    omega
  exact Path.isPlain_encode.2
    ⟨hne _ (by decide), hne _ (by decide), hne _ (by decide), by simp [hdraw]⟩

theorem size_partName (draw : String) :
    (Text.encode "vineflower.jar").length < (partName draw).length := by
  have hjar : (Text.encode "vineflower.jar").length = 14 := by decide
  have hfront : (Text.encode "vineflower-").length = 11 := by decide
  have hback : (Text.encode ".part").length = 5 := by decide
  rw [partName, Text.encode_append, Text.encode_append, List.length_append, List.length_append]
  omega

theorem partName_ne_jar (draw : String) : partName draw ≠ Text.encode "vineflower.jar" := by
  intro heq
  have hsize := size_partName draw
  rw [heq] at hsize
  exact Nat.lt_irrefl _ hsize

/-- The path of that file. -/
def partPath (host : Host) (cache : Path) (draw : String) : Path :=
  (host.absolute (toolFolder cache)).join ⟨partName draw⟩

theorem absolute_toolFolder_ne_empty (host : Host) (cache : Path) :
    (host.absolute (toolFolder cache)).bytes ≠ [] :=
  Host.absolute_ne_empty (toolFolder_ne_empty cache)

/-- Whether the folder that the jar belongs in is there. -/
structure Open (host : Host) (cache : Path) (root : Address) (u : FileTree) : Prop where
  home : host.AtHome u
  leads : u.LeadsTo host.folder (toolFolder cache) root

/-- Whether a file to fetch into stands in that folder, and else nothing has changed. -/
structure HasPart (host : Host) (cache : Path) (draw : String) (root : Address) (content : Bytes)
    (u v : FileTree) : Prop where
  opened : Open host cache root u
  plain : Path.IsPlain (partName draw)
  followed : Followed (host.absolute (toolFolder cache)) [partName draw]
  free : u.node? (root ++ [partName draw]) = none
  instead : HasInstead (root ++ [partName draw]) content u v

/-- Whether the jar stands in that folder, instead of what had its name, and else nothing has
    changed. -/
structure HasJar (cache : Path) (root : Address) (content : Bytes) (u v : FileTree) : Prop where
  followed : Followed (toolFolder cache) ["vineflower.jar"]
  instead : HasInstead (root ++ (["vineflower.jar"] : Address)) content u v
  no_folder : u.node? (root ++ (["vineflower.jar"] : Address)) ≠ some .folder

/-- Such a file is made, or nothing changes. -/
theorem Open.makePart (h : Open host cache root u)
    (hdraws : ∀ draw ∈ host.suffixes, '/' ∉ draw.toList) :
    (∃ cause, host.makeScratchFile (toolFolder cache) "vineflower-" ".part" u = (.error cause, u)) ∨
      ∃ draw v, host.makeScratchFile (toolFolder cache) "vineflower-" ".part" u =
          (.ok (partPath host cache draw), v) ∧ HasPart host cache draw root [] u v := by
  rcases host.makeScratchFile_cases (toolFolder cache) "vineflower-" ".part" u with
    hnone | ⟨draw, hdraw, v, hnew, hmade⟩
  · exact .inl hnone
  · have hplain := isPlain_partName (hdraws draw hdraw)
    refine .inr ⟨draw, v, hmade, ?_⟩
    rcases FileTree.createNew_name (Host.leadsTo_absolute h.home h.leads)
        (absolute_toolFolder_ne_empty host cache) hplain with
      ⟨fault, hfault⟩ | ⟨hfollowed, hfree, v', hok, hinstead⟩
    · cases (Prod.mk.inj (hnew.symm.trans hfault)).1
    · obtain ⟨-, rfl⟩ := Prod.mk.inj (hnew.symm.trans hok)
      exact ⟨h, hplain, hfollowed, hfree, hinstead⟩

namespace HasPart

variable {draw : String}

theorem vacant (h : HasPart host cache draw root content u v) (b : Address)
    (hp : root ++ [partName draw] <+: b) : u.node? b = none :=
  FileTree.node?_eq_none_of_free h.free hp

theorem leadsTo (h : HasPart host cache draw root content u v) :
    v.LeadsTo host.folder (host.absolute (toolFolder cache)) root ∧
      v.LeadsTo host.folder (toolFolder cache) root :=
  ⟨h.instead.leadsTo h.free (Host.leadsTo_absolute h.opened.home h.opened.leads),
    h.instead.leadsTo h.free h.opened.leads⟩

theorem read (h : HasPart host cache draw root content u v) :
    v.read host.folder (partPath host cache draw) = .ok content := by
  rw [partPath, FileTree.read, FileTree.stat_only h.leadsTo.1 (absolute_toolFolder_ne_empty host cache)
    h.plain h.followed h.instead]

/-- However `curl` ends, the file is there. -/
theorem start (h : HasPart host cache draw root content u v) {finished : Finished} {v' : FileTree}
    (hfills : FillsOnly host)
    (hstart : host.start "curl" (fetchArguments (partPath host cache draw)) v = (.ok finished, v')) :
    ∃ content', HasPart host cache draw root content' u v' := by
  rcases hfills _ _ _ _ hstart with rfl | ⟨content', rfl⟩
  · exact ⟨content, h⟩
  · obtain ⟨v'', hwrite, hinstead⟩ := FileTree.write_only h.leadsTo.1
      (absolute_toolFolder_ne_empty host cache) h.plain h.followed h.instead content'
    refine ⟨content', h.opened, h.plain, h.followed, h.free, ?_⟩
    rw [partPath, hwrite]
    exact hinstead

/-- Taken away, it leaves the tree as it was. -/
theorem unlink (h : HasPart host cache draw root content u v) (b : Address) :
    (v.unlink host.folder (partPath host cache draw)).2.node? b = u.node? b :=
  FileTree.unlink_only h.leadsTo.1 (absolute_toolFolder_ne_empty host cache) h.plain h.followed
    h.instead h.vacant b

/-- Moved to its target, it is the jar, unless a folder stands in its way. -/
theorem rename (h : HasPart host cache draw root content u v) :
    (u.node? (root ++ (["vineflower.jar"] : Address)) = some .folder ∧
      ∃ fault, v.rename host.folder (partPath host cache draw) (cachedJar cache) =
        (.error fault, v)) ∨
    ∃ t', v.rename host.folder (partPath host cache draw) (cachedJar cache) = (.ok (), t') ∧
      HasJar cache root content u t' := by
  have htext := toolFolder_ne_empty cache
  have hfollowed : Followed (toolFolder cache) ["vineflower.jar"] :=
    Host.followed_of_absolute htext h.plain isPlain_jar (size_partName draw) (by decide) h.followed
  rcases FileTree.rename_only h.leadsTo.1 (absolute_toolFolder_ne_empty host cache) h.plain
      h.followed h.instead h.leadsTo.2 htext isPlain_jar hfollowed h.vacant (partName_ne_jar draw)
    with hfolder | ⟨hfolder, t', hrename, hinstead⟩
  · exact .inl hfolder
  · exact .inr ⟨t', hrename, hfollowed, hinstead, hfolder⟩

/-- Once `curl` has answered, the jar is there if it was fetched and could be moved to its place, and
    else the tree is as it was. -/
theorem conclude (h : HasPart host cache draw root content u v) (hfills : FillsOnly host)
    {answer : Except IoFault Finished × FileTree}
    (hanswer : host.start "curl" (fetchArguments (partPath host cache draw)) v = answer) :
    (∃ finished content' t', answer.1 = .ok finished ∧ finished.status = 0 ∧
      answer.2.read host.folder (partPath host cache draw) = .ok content' ∧
      Engine.conclude host.folder (cachedJar cache) (partPath host cache draw) answer =
        (.ok (cachedJar cache), t') ∧ HasJar cache root content' u t') ∨
    (((∀ finished, answer.1 = .ok finished → finished.status ≠ 0) ∨
        u.node? (root ++ (["vineflower.jar"] : Address)) = some .folder) ∧
      ∃ failure t', Engine.conclude host.folder (cachedJar cache) (partPath host cache draw) answer =
        (.error failure, t') ∧ ∀ b, t'.node? b = u.node? b) := by
  obtain ⟨cause | finished, v'⟩ := answer
  · obtain rfl := Host.start_of_error hanswer
    exact .inr ⟨.inl nofun, _, _, rfl, h.unlink⟩
  · obtain ⟨content', h'⟩ := h.start hfills hanswer
    by_cases hstatus : finished.status = 0
    · rcases h'.rename with ⟨hfolder, fault, hrename⟩ | ⟨t', hrename, hjar⟩
      · refine .inr ⟨.inr hfolder, (JarFault.notInstalled (cachedJar cache) fault).failure,
          (v'.unlink host.folder (partPath host cache draw)).2, ?_, h'.unlink⟩
        simp only [Engine.conclude, hstatus, hrename]
        rfl
      · refine .inl ⟨finished, content', t', rfl, hstatus, h'.read, ?_, hjar⟩
        simp only [Engine.conclude, hstatus, hrename]
        rfl
    · refine .inr ⟨.inl fun _ heq => Except.ok.inj heq ▸ hstatus, _, _, if_pos hstatus, h'.unlink⟩

end HasPart

/-! ## What is left -/

theorem cacheRoot_ne_empty (h : cacheRoot? host = some cache) : cache.bytes ≠ [] := by
  obtain ⟨base, -, rfl⟩ := Option.map_eq_some_iff.1 h
  exact Path.join_ne_empty base (by decide)

/-- Whoever asks for the jar leaves new folders at most, but for the jar. -/
theorem ask_leaves (hhome : host.AtHome t) (hfills : FillsOnly host)
    (hdraws : ∀ draw ∈ host.suffixes, '/' ∉ draw.toList) (option : Option Path) :
    ∃ u, GrowsBelow [] t u ∧ ((∀ b, (ask host option t).2.node? b = u.node? b) ∨
      ∃ cache root content jar, (ask host option t).1 = .ok jar ∧
        HasJar cache root content u (ask host option t).2) := by
  rcases ask_cases host option t with ⟨answer, hask⟩ | ⟨cache, hroot, hfind⟩
  · rw [hask]
    exact ⟨t, .refl [] t, .inl fun _ => rfl⟩
  · have hcache := cacheRoot_ne_empty hroot
    rw [ask_missing hroot hcache hfind]
    obtain ⟨answer, u, hmade⟩ : ∃ answer u,
        t.makeFolders host.folder (toolFolder cache) = (answer, u) := ⟨_, _, rfl⟩
    have hgrow : GrowsBelow [] t u := by
      have hadds := FileTree.makeFoldersUpTo_adds t host.folder
        ((toolFolder cache).slashPieces.length + 1) (toolFolder cache)
      rwa [show t.makeFoldersUpTo host.folder _ _ = _ from hmade] at hadds
    refine ⟨u, hgrow, ?_⟩
    rw [hmade]
    cases answer with
    | error cause => exact .inl fun _ => rfl
    | ok _ =>
      have hthere := FileTree.isFolder_of_makeFoldersUpTo _
        (FileTree.unblocked_of_folder hhome.there) (toolFolder_ne_empty cache) hmade
      obtain ⟨-, root, hleads⟩ := FileTree.isFolder_iff.1 hthere
      have hopen : Open host cache root u := ⟨hhome.within hgrow.within, hleads⟩
      rcases hopen.makePart hdraws with ⟨cause, hnone⟩ | ⟨draw, v, hmake, hpart⟩
      · simp only [hnone]
        exact .inl fun _ => trivial
      · simp only [hmake]
        rcases hpart.conclude hfills rfl with
          ⟨finished, content, t', -, -, -, hconclude, hjar⟩ | ⟨-, failure, t', hconclude, hsame⟩
        · rw [hconclude]
          exact .inr ⟨cache, root, content, _, rfl, hjar⟩
        · rw [hconclude]
          exact .inl hsame

/-- Whoever asks for the jar leaves every file as it is that is not called as the jar, and makes no
    other one. -/
theorem ask_files (hhome : host.AtHome t) (hfills : FillsOnly host)
    (hdraws : ∀ draw ∈ host.suffixes, '/' ∉ draw.toList) (option : Option Path) {b : Address}
    (hb : b.getLast? ≠ some (Text.encode "vineflower.jar")) (content : Bytes) :
    (ask host option t).2.node? b = some (.file content) ↔ t.node? b = some (.file content) := by
  obtain ⟨u, hgrow, hleaves⟩ := ask_leaves hhome hfills hdraws option
  have hsame : (ask host option t).2.node? b = u.node? b := by
    rcases hleaves with hsame | ⟨cache, root, jar, path, -, hjar⟩
    · exact hsame b
    · rw [hjar.instead, if_neg]
      rintro rfl
      exact hb List.getLast?_concat
  rw [hsame]
  exact ⟨fun h => hgrow.node?_of_some h (by simp), hgrow.node?_some⟩

end SourceRecovery.Engine
