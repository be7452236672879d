import SourceRecovery.Proofs.Engine.Download
import SourceRecovery.Proofs.FileTree.Ensuring

/-!
# The cache of the jar

What one call after another makes of the cache, whatever `curl` does in each: every call asks for the
jar with nothing named, so the cache decides.

* `Unfilled` and `Filled` are the two states of the cache.
* `Unfilled.ask`, `Filled.ask`: what one call does in each of them.
* `holds_afterCalls`: what all calls have done.
* `ask_fills_once`: the first download that ends with success fills the cache, and nothing else
  does.
-/

namespace SourceRecovery.Engine

open FileTree (GrowsBelow HasInstead Followed)

variable {t t₀ t' u v : FileTree} {host : Host} {cwd root : Address} {base cache part : Path}
  {content : Bytes} {calls : List Host}

/-! ## One call -/

/-- What `curl` is asked to fill, and the tree that it finds, if it is started. -/
def request? (host : Host) (cache : Path) (t : FileTree) : Option (Path × FileTree) :=
  if t.isFile host.folder (cachedJar cache) then none
  else
    match t.makeFolders host.folder (toolFolder cache) with
    | (.error _, _) => none
    | (.ok (), u) =>
      match host.makeScratchFile (toolFolder cache) "vineflower-" ".part" u with
      | (.error _, _) => none
      | (.ok part, v) => some (part, v)

/-- What `curl` has left in its file, if it is started and ends with success. -/
def fetched? (host : Host) (cache : Path) (t : FileTree) : Option (Except IoFault Bytes) :=
  (request? host cache t).bind fun (part, u) =>
    let e := host.start "curl" (fetchArguments part) u
    match e.1 with
    | .error _ => none
    | .ok finished => if finished.status = 0 then some (e.2.read host.folder part) else none

/-- Whether a host asks for the jar of a cache, from a working folder. -/
structure Asks (cwd : Address) (cache : Path) (host : Host) : Prop where
  folder : host.folder = cwd
  cache : cacheRoot? host = some cache
  setting : (host.valueOf? "VINEFLOWER_JAR").filter (· != []) = none

/-- With nothing named, the cache decides. -/
theorem findJar_unnamed {setting : Option Bytes} (h : setting.filter (· != []) = none)
    (t : FileTree) (cwd : Address) (cache : Path) : findJar t cwd none setting cache =
      if t.isFile cwd (cachedJar cache) then .cached (cachedJar cache)
      else .missing (cachedJar cache) := by
  unfold findJar
  rw [h]

/-- What becomes of a call, with `curl` answering if it is started. -/
theorem ask_eq (h : Asks cwd cache host) (hcache : cache.bytes ≠ []) (t : FileTree) :
    ask host none t =
      if t.isFile cwd (cachedJar cache) then (.ok (cachedJar cache), t)
      else
        match t.makeFolders cwd (toolFolder cache) with
        | (.error cause, u) => (.error (JarFault.noFolder (toolFolder cache) cause).failure, u)
        | (.ok (), u) =>
          match host.makeScratchFile (toolFolder cache) "vineflower-" ".part" u with
          | (.error cause, v) => (.error (JarFault.noScratch (toolFolder cache) cause).failure, v)
          | (.ok part, v) =>
            conclude cwd (cachedJar cache) part (host.start "curl" (fetchArguments part) v) := by
  obtain ⟨rfl, hroot, hsetting⟩ := h
  have hfind := findJar_unnamed hsetting t host.folder cache
  by_cases hfile : t.isFile host.folder (cachedJar cache) = true
  · rw [if_pos hfile] at hfind ⊢
    unfold ask obtainJar
    rw [hroot]
    simp only [Work.perform_bind, Work.perform_attempt]
    rw [hfind]
    rfl
  · rw [if_neg hfile] at hfind ⊢
    exact ask_missing hroot hcache hfind

/-! ## A cache without the jar, and with it -/

/-- Whether nothing is in the folder that the jar belongs in, if that folder is there at all. -/
structure Unfilled (cwd : Address) (cache : Path) (t : FileTree) : Prop where
  folder : t.node? cwd = some .folder
  straight : t.Straight cwd (toolFolder cache)
  empty : t.EmptyAt cwd (toolFolder cache)

/-- Whether a tree is one without the jar, but for the jar. -/
structure Filled (cwd : Address) (cache : Path) (root : Address) (content : Bytes)
    (v t : FileTree) : Prop where
  unfilled : Unfilled cwd cache v
  leads : v.LeadsTo cwd (toolFolder cache) root
  followed : Followed (toolFolder cache) ["vineflower.jar"]
  instead : HasInstead (root ++ (["vineflower.jar"] : Address)) content v t

theorem Unfilled.congr (h : Unfilled cwd cache t) (hsame : ∀ b, t'.node? b = t.node? b) :
    Unfilled cwd cache t' := by
  have hwithin : t.Within t' := fun b n hn => (hsame b).trans hn
  have hwithin' : t'.Within t := fun b n hn => (hsame b).symm.trans hn
  refine ⟨(hsame cwd).trans h.folder, h.straight.within hwithin, ?_⟩
  rintro a ⟨left, hleft⟩ b hp hne
  rw [hsame]
  exact h.empty a ⟨left, hleft.within hwithin'⟩ b hp hne

/-- Making the folder of the jar leaves the cache without the jar, whether it succeeds or not. -/
theorem Unfilled.makeFolders (h : Unfilled cwd cache t) :
    Unfilled cwd cache (t.makeFolders cwd (toolFolder cache)).2 := by
  have hgrow := FileTree.makeFoldersUpTo_adds t cwd ((toolFolder cache).slashPieces.length + 1)
    (toolFolder cache)
  exact ⟨hgrow.node?_some h.folder, h.straight.within hgrow.within,
    FileTree.makeFoldersUpTo_emptyAt _ h.folder (toolFolder_ne_empty cache) h.straight h.empty⟩

theorem Unfilled.no_jar (h : Unfilled cwd cache t) (hleads : t.LeadsTo cwd (toolFolder cache) root) :
    t.node? (root ++ (["vineflower.jar"] : Address)) = none :=
  h.empty root hleads _ (List.prefix_append _ _) (by simp)

/-- Without the jar, its path leads nowhere. -/
theorem Unfilled.stat_jar (h : Unfilled cwd cache t) :
    ∃ fault, t.stat cwd true (cachedJar cache) = .error fault :=
  h.empty.stat_join h.folder isPlain_jar

theorem Filled.stat_jar (h : Filled cwd cache root content v t) :
    t.stat cwd true (cachedJar cache) =
      .ok (root ++ (["vineflower.jar"] : Address), .file content) := by
  have hfree := h.unfilled.no_jar h.leads
  exact FileTree.stat_only (h.instead.leadsTo hfree h.leads) (toolFolder_ne_empty cache) isPlain_jar
    h.followed h.instead true

/-! ## One call after another -/

/-- Whether a call finds the cache in this folder, `curl` fills its file only, and the draws can be
    parts of names. -/
structure Calls (cwd : Address) (cache : Path) (host : Host) : Prop where
  asks : Asks cwd cache host
  fills : FillsOnly host
  draws : ∀ draw ∈ host.suffixes, '/' ∉ draw.toList

/-- A call that does not get as far as `curl` fails. -/
theorem ask_unstarted (hasks : Asks host.folder cache host) (hcache : cache.bytes ≠ [])
    (hfile : t.isFile host.folder (cachedJar cache) = false)
    (h : (∃ cause, t.makeFolders host.folder (toolFolder cache) = (.error cause, v)) ∨
      ∃ cause, t.makeFolders host.folder (toolFolder cache) = (.ok (), u) ∧
        host.makeScratchFile (toolFolder cache) "vineflower-" ".part" u = (.error cause, v)) :
    fetched? host cache t = none ∧ ∃ failure, ask host none t = (.error failure, v) := by
  rw [ask_eq hasks hcache, fetched?, request?, if_neg (by simp [hfile]), if_neg (by simp [hfile])]
  rcases h with ⟨cause, hmade⟩ | ⟨cause, hmade, hpart⟩
  · simp only [hmade]
    exact ⟨rfl, _, rfl⟩
  · simp only [hmade, hpart]
    exact ⟨rfl, _, rfl⟩

/-- A call that starts `curl` ends with its answer. -/
theorem ask_started (hasks : Asks host.folder cache host) (hcache : cache.bytes ≠ [])
    (hfile : t.isFile host.folder (cachedJar cache) = false)
    (hmade : t.makeFolders host.folder (toolFolder cache) = (.ok (), u))
    (hpart : host.makeScratchFile (toolFolder cache) "vineflower-" ".part" u = (.ok part, v)) :
    request? host cache t = some (part, v) ∧ ask host none t =
      conclude host.folder (cachedJar cache) part (host.start "curl" (fetchArguments part) v) := by
  rw [ask_eq hasks hcache, request?, if_neg (by simp [hfile]), if_neg (by simp [hfile])]
  simp only [hmade, hpart]
  exact ⟨trivial, trivial⟩

/-- Once there is a file to fetch into, a call fetches the jar, or it fails and leaves the tree as
    it was before that file. -/
theorem HasPart.ask {draw : String} (h : HasPart host cache draw root content u v)
    (hunfilled : Unfilled host.folder cache u) (hfills : FillsOnly host)
    (hrequest : request? host cache t = some (partPath host cache draw, v))
    (hask : Engine.ask host none t = Engine.conclude host.folder (cachedJar cache)
      (partPath host cache draw)
      (host.start "curl" (fetchArguments (partPath host cache draw)) v)) :
    (fetched? host cache t = none ∧ (∃ failure, (Engine.ask host none t).1 = .error failure) ∧
      ∀ b, (Engine.ask host none t).2.node? b = u.node? b) ∨
    ∃ content', fetched? host cache t = some (.ok content') ∧
      (Engine.ask host none t).1 = .ok (cachedJar cache) ∧
      Filled host.folder cache root content' u (Engine.ask host none t).2 := by
  rw [hask, fetched?, hrequest, Option.bind_some]
  generalize hanswer : host.start "curl" (fetchArguments (partPath host cache draw)) v = answer
  rcases h.conclude hfills hanswer with
    ⟨finished, content', t', hended, hstatus, hread, hconclude, hjar⟩ |
      ⟨hstatus, failure, t', hconclude, hsame⟩
  · refine .inr ⟨content', ?_, by rw [hconclude], ?_⟩
    · simp only [hanswer, hended, hread]
      exact if_pos hstatus
    · rw [hconclude]
      exact ⟨hunfilled, h.opened.leads, hjar.followed, hjar.instead⟩
  · left
    rw [hconclude]
    refine ⟨?_, ⟨failure, rfl⟩, hsame⟩
    replace hstatus := hstatus.resolve_right (by simp [hunfilled.no_jar h.opened.leads])
    simp only [hanswer]
    cases hended : answer.1 with
    | error cause => rfl
    | ok finished => exact if_neg (hstatus finished hended)

/-- While the cache is without the jar, a call fails and leaves it so, or it fetches the jar. -/
theorem Unfilled.ask (h : Unfilled cwd cache t) (hcalls : Calls cwd cache host)
    (hcache : cache.bytes ≠ []) (hhome : host.AtHome t) :
    (fetched? host cache t = none ∧ (∃ failure, (Engine.ask host none t).1 = .error failure) ∧
      GrowsBelow [] t (Engine.ask host none t).2 ∧ Unfilled cwd cache (Engine.ask host none t).2) ∨
    ∃ root content v, fetched? host cache t = some (.ok content) ∧
      (Engine.ask host none t).1 = .ok (cachedJar cache) ∧ GrowsBelow [] t v ∧
      Filled cwd cache root content v (Engine.ask host none t).2 := by
  obtain ⟨fault, hstat⟩ := h.stat_jar
  have hfile : t.isFile cwd (cachedJar cache) = false := by rw [FileTree.isFile, hstat]
  obtain rfl := hcalls.asks.folder
  obtain ⟨answer, u, hmade⟩ : ∃ answer u,
      t.makeFolders host.folder (toolFolder cache) = (answer, u) := ⟨_, _, rfl⟩
  have hunfilled : Unfilled host.folder cache u := by
    have h' := h.makeFolders
    rwa [hmade] at h'
  have hgrow : GrowsBelow [] t u := by
    have hadds := FileTree.makeFoldersUpTo_adds t host.folder
      ((toolFolder cache).slashPieces.length + 1) (toolFolder cache)
    rwa [show t.makeFoldersUpTo host.folder _ _ = _ from hmade] at hadds
  cases answer with
  | error cause =>
    obtain ⟨hnone, failure, hask⟩ :=
      ask_unstarted (u := u) hcalls.asks hcache hfile (.inl ⟨cause, hmade⟩)
    rw [hask]
    exact .inl ⟨hnone, ⟨failure, rfl⟩, hgrow, hunfilled⟩
  | ok _ =>
    have hthere := FileTree.isFolder_of_makeFoldersUpTo _ (FileTree.unblocked_of_folder h.folder)
      (toolFolder_ne_empty cache) hmade
    obtain ⟨-, root, hleads⟩ := FileTree.isFolder_iff.1 hthere
    have hopen : Open host cache root u := ⟨hhome.within hgrow.within, hleads⟩
    rcases hopen.makePart hcalls.draws with ⟨cause, hnone⟩ | ⟨draw, v, hmake, hpart⟩
    · obtain ⟨hnone, failure, hask⟩ :=
        ask_unstarted hcalls.asks hcache hfile (.inr ⟨cause, hmade, hnone⟩)
      rw [hask]
      exact .inl ⟨hnone, ⟨failure, rfl⟩, hgrow, hunfilled⟩
    · obtain ⟨hrequest, hask⟩ := ask_started hcalls.asks hcache hfile hmade hmake
      rcases hpart.ask hunfilled hcalls.fills hrequest hask with
        ⟨hnone, hfails, hsame⟩ | ⟨content, hsome, hok, hfilled⟩
      · exact .inl ⟨hnone, hfails, fun b => hsame b ▸ hgrow b, hunfilled.congr hsame⟩
      · exact .inr ⟨root, content, u, hsome, hok, hgrow, hfilled⟩

/-- With the jar there, a call starts nothing and changes nothing. -/
theorem Filled.ask (h : Filled cwd cache root content v t) (hasks : Asks cwd cache host)
    (hcache : cache.bytes ≠ []) : request? host cache t = none ∧
      Engine.ask host none t = (.ok (cachedJar cache), t) := by
  have hfile : t.isFile cwd (cachedJar cache) = true := by rw [FileTree.isFile, h.stat_jar]
  obtain rfl := hasks.folder
  rw [ask_eq hasks hcache, request?, hfile]
  exact ⟨rfl, rfl⟩

/-- The tree after some calls. -/
def afterCalls : List Host → FileTree → FileTree
  | [], t => t
  | host :: calls, t => afterCalls calls (ask host none t).2

/-- What `curl` left in its file when it first ended with success, if it did so in some calls. -/
def firstFetched (cache : Path) : List Host → FileTree → Option (Except IoFault Bytes)
  | [], _ => none
  | host :: calls, t => (fetched? host cache t).or (firstFetched cache calls (ask host none t).2)

/-- What the cache is, from what has been fetched first. -/
def Holds (cwd : Address) (cache : Path) (t₀ t : FileTree) : Option (Except IoFault Bytes) → Prop
  | none => GrowsBelow [] t₀ t ∧ Unfilled cwd cache t
  | some left => ∃ root content v, left = .ok content ∧ GrowsBelow [] t₀ v ∧
      Filled cwd cache root content v t

theorem Filled.afterCalls (h : Filled cwd cache root content v t)
    (hcalls : ∀ host ∈ calls, Calls cwd cache host) (hcache : cache.bytes ≠ []) :
    Engine.afterCalls calls t = t := by
  induction calls with
  | nil => rfl
  | cons host calls ih =>
    obtain ⟨hhost, hrest⟩ := List.forall_mem_cons.1 hcalls
    rw [Engine.afterCalls, (h.ask hhost.asks hcache).2]
    exact ih hrest

theorem holds_afterCalls (hunfilled : Unfilled cwd cache t) (hgrow : GrowsBelow [] t₀ t)
    (hnames : ∀ w ∈ cwd, Path.IsPlain w ∧ w.length ≤ 255) (hcache : cache.bytes ≠ [])
    (hcalls : ∀ host ∈ calls, Calls cwd cache host) :
    Holds cwd cache t₀ (afterCalls calls t) (firstFetched cache calls t) := by
  induction calls generalizing t with
  | nil => exact ⟨hgrow, hunfilled⟩
  | cons host calls ih =>
    obtain ⟨hhost, hrest⟩ := List.forall_mem_cons.1 hcalls
    have hhome : host.AtHome t := by
      obtain rfl := hhost.asks.folder
      exact ⟨hunfilled.folder, hnames⟩
    rw [afterCalls, firstFetched]
    rcases hunfilled.ask hhost hcache hhome with
      ⟨hnone, -, hgrow', hunfilled'⟩ | ⟨root, content, v, hsome, -, hgrow', hfilled⟩
    · rw [hnone, Option.none_or]
      exact ih hunfilled' (hgrow.trans hgrow') hrest
    · rw [hsome, Option.some_or, hfilled.afterCalls hrest hcache]
      exact ⟨root, content, v, rfl, hgrow.trans hgrow', hfilled⟩

/-- Whether a call starts `curl` once at most: what it comes to is told by what one start answers or,
    where `curl` is not asked for anything, by nothing that a program does. -/
def StartsOnce (host : Host) (cache : Path) (t : FileTree) : Prop :=
  ∃ (alone : Except Failure Path × FileTree)
    (finish : Except IoFault Finished × FileTree → Except Failure Path × FileTree), ∀ programs,
    ask { host with programs := programs } none t =
      match request? host cache t with
      | none => alone
      | some (part, u) =>
        finish (({ host with programs := programs } : Host).start "curl" (fetchArguments part) u)

theorem Asks.startsOnce (h : Asks cwd cache host) (hcache : cache.bytes ≠ []) (t : FileTree) :
    StartsOnce host cache t := by
  obtain rfl := h.folder
  have hasks : ∀ programs, Asks host.folder cache { host with programs := programs } :=
    fun _ => ⟨rfl, h.cache, h.setting⟩
  have hmake : ∀ programs, ({ host with programs := programs } : Host).makeScratchFile =
      host.makeScratchFile := fun _ => rfl
  simp only [StartsOnce, fun programs => ask_eq (hasks programs) hcache t, request?, hmake]
  split
  · exact ⟨_, fun _ => (.ok cache, t), fun _ => rfl⟩
  · rcases t.makeFolders host.folder (toolFolder cache) with ⟨cause | ⟨⟩, u⟩
    · exact ⟨_, fun _ => (.ok cache, t), fun _ => rfl⟩
    · simp only
      rcases host.makeScratchFile (toolFolder cache) "vineflower-" ".part" u with ⟨cause | part, v⟩
      · exact ⟨_, fun _ => (.ok cache, t), fun _ => rfl⟩
      · exact ⟨(.ok cache, t), _, fun _ => rfl⟩

/-- The cache in a data folder. -/
def cacheIn (base : Path) : Path :=
  base.join ⟨"compose-decompiler"⟩

/-- Whether a data folder holds no tools: where they belong is no folder, or an empty one. Without the
    data folder, that is said of a path without `..` only. -/
structure HoldsNoTools (cwd : Address) (base : Path) (t : FileTree) : Prop where
  folder : t.node? cwd = some .folder
  names : ∀ w ∈ cwd, Path.IsPlain w ∧ w.length ≤ 255
  way : .up ∉ base.steps ∨ t.isFolder cwd base = true
  empty : t.EmptyAt cwd (toolFolder (cacheIn base))

theorem HoldsNoTools.unfilled (h : HoldsNoTools cwd base t) :
    Unfilled cwd (cacheIn base) t := by
  have hplain : ∀ w ∈ (["compose-decompiler", "tools"] : Address), Path.IsPlain w := by decide
  have hdescend : toolFolder (cacheIn base) =
      base.descend ["compose-decompiler", "tools"] := rfl
  have hsteps := Path.steps_descend base hplain
  refine ⟨h.folder, ?_, h.empty⟩
  rw [hdescend]
  rcases h.way with hup | hfolder
  · refine FileTree.straight_of_no_up h.folder ?_
    rw [hsteps]
    simpa using hup
  · obtain ⟨husable, a, left, hleft⟩ := FileTree.isFolder_iff.1 hfolder
    refine ⟨base.steps, _, hsteps, by simp, left, a, ?_⟩
    rw [Path.origin_descend (Path.unusable?_eq_none.1 husable).2.1 hplain]
    exact hleft

/-- The cache is filled once, by a download that is complete. Whatever `curl` does in one call after
    another, the jar is there as soon as it has ended with success for the first time, and never
    before, with what it left then; no other file is new. Until then each call starts it once at most
    and fails unless it succeeds, and from then on no call starts it. -/
theorem ask_fills_once (hbare : HoldsNoTools cwd base t)
    (hcalls : ∀ host ∈ calls, Calls cwd (cacheIn base) host)
    (hhost : Calls cwd (cacheIn base) host) :
    StartsOnce host (cacheIn base) (afterCalls calls t) ∧
    (firstFetched (cacheIn base) calls t = none →
      (afterCalls calls t).pathExists cwd (cachedJar (cacheIn base)) = false ∧
      (∀ a content, (afterCalls calls t).node? a = some (.file content) ↔
        t.node? a = some (.file content)) ∧
      (fetched? host (cacheIn base) (afterCalls calls t) = none →
        ∃ failure, (ask host none (afterCalls calls t)).1 = .error failure) ∧
      (fetched? host (cacheIn base) (afterCalls calls t) ≠ none →
        (ask host none (afterCalls calls t)).1 = .ok (cachedJar (cacheIn base)))) ∧
    ∀ left, firstFetched (cacheIn base) calls t = some left → ∃ a content, left = .ok content ∧
      (afterCalls calls t).stat cwd true (cachedJar (cacheIn base)) = .ok (a, .file content) ∧
      (∀ b content, b ≠ a → ((afterCalls calls t).node? b = some (.file content) ↔
        t.node? b = some (.file content))) ∧
      request? host (cacheIn base) (afterCalls calls t) = none ∧
      ask host none (afterCalls calls t) = (.ok (cachedJar (cacheIn base)), afterCalls calls t) := by
  have hcache : (cacheIn base).bytes ≠ [] :=
    Path.join_ne_empty base (by decide)
  have hholds := holds_afterCalls hbare.unfilled (.refl [] t) hbare.names hcache hcalls
  refine ⟨hhost.asks.startsOnce hcache _, fun hnever => ?_, fun left hfirst => ?_⟩
  · rw [hnever] at hholds
    obtain ⟨hgrow, hunfilled⟩ := hholds
    have hhome : host.AtHome (afterCalls calls t) := by
      obtain rfl := hhost.asks.folder
      exact ⟨hunfilled.folder, hbare.names⟩
    obtain ⟨fault, hstat⟩ := hunfilled.stat_jar
    refine ⟨by rw [FileTree.pathExists, hstat], fun a content => hgrow.file_iff, ?_⟩
    rcases hunfilled.ask hhost hcache hhome with
      ⟨hnone, hfails, -, -⟩ | ⟨root, content, v, hsome, hok, -, -⟩
    · exact ⟨fun _ => hfails, fun hne => absurd hnone hne⟩
    · exact ⟨fun hnone => absurd (hnone.symm.trans hsome) (by simp), fun _ => hok⟩
  · rw [hfirst] at hholds
    obtain ⟨root, content, v, hleft, hgrow, hfilled⟩ := hholds
    refine ⟨_, content, hleft, hfilled.stat_jar, fun b content' hb => ?_,
      hfilled.ask hhost.asks hcache⟩
    rw [hfilled.instead b, if_neg hb]
    exact hgrow.file_iff

/-! ## Two calls -/

/-- A `curl` that writes something and ends with a status. -/
def curlThat (status : UInt8) (content : Bytes) : Program := fun arguments t =>
  match arguments with
  | [_, _, _, _, _, part, _] => (⟨status, []⟩, (t.write [] ⟨part⟩ content).2)
  | _ => (⟨2, []⟩, t)

/-- A host with a data folder and some programs. -/
def dataHost (programs : List (Address × Program)) : Host :=
  ⟨[], none, [("XDG_DATA_HOME", "/data")], ["a1"], programs⟩

/-- A tree with a data folder in which nothing is. -/
def bareData : FileTree where
  entries := [(["bin"], .folder), (["data"], .folder)]
  nodup := by decide
  rooted := by simp [FileTree.FolderIn]

theorem holdsNoTools_bareData : HoldsNoTools [] ⟨"/data"⟩ bareData := by
  refine ⟨rfl, by simp, .inl (by decide), fun a ha => ?_⟩
  have hno : bareData.isFolder [] (toolFolder (cacheIn ⟨"/data"⟩)) = false := by decide +kernel
  have husable : (toolFolder (cacheIn ⟨"/data"⟩)).unusable? = none := by decide +kernel
  rw [FileTree.isFolder_iff.2 ⟨husable, a, ha⟩] at hno
  cases hno

theorem asks_dataHost (programs : List (Address × Program)) :
    Asks [] (cacheIn ⟨"/data"⟩) (dataHost programs) := by
  have hroot : cacheRoot? (dataHost []) = some (cacheIn ⟨"/data"⟩) := by decide +kernel
  have hsetting : ((dataHost []).valueOf? "VINEFLOWER_JAR").filter (· != []) = none := by
    decide +kernel
  exact ⟨rfl, hroot, hsetting⟩

theorem calls_dataHost {programs : List (Address × Program)}
    (h : ∀ e ∈ programs, ∃ status content, e.2 = curlThat status content) :
    Calls [] (cacheIn ⟨"/data"⟩) (dataHost programs) := by
  refine ⟨asks_dataHost programs, ?_, by simp [dataHost]⟩
  intro part t finished t' hstart
  obtain ⟨a, program, hmem, hrun⟩ := Host.start_of_ok hstart
  obtain ⟨status, content, rfl⟩ := h _ hmem
  exact .inr ⟨content, (Prod.mk.inj hrun).2.symm⟩

/-- A host on which `curl` writes something and fails, and one on which it writes something and
    succeeds. -/
def twoHosts : List Host :=
  [dataHost [(["bin", "curl"], curlThat 22 [1])], dataHost [(["bin", "curl"], curlThat 0 [2, 3])]]

theorem calls_twoHosts : ∀ host ∈ twoHosts, Calls [] (cacheIn ⟨"/data"⟩) host := by
  refine List.forall_mem_cons.2 ⟨calls_dataHost ?_, List.forall_mem_singleton.2 (calls_dataHost ?_)⟩
  · exact List.forall_mem_singleton.2 ⟨22, [1], rfl⟩
  · exact List.forall_mem_singleton.2 ⟨0, [2, 3], rfl⟩

theorem firstFetched_twoHosts :
    firstFetched (cacheIn ⟨"/data"⟩) twoHosts bareData = some (.ok [2, 3]) := by
  have hfirst : (firstFetched (cacheIn ⟨"/data"⟩) twoHosts bareData).bind Except.toOption =
      some [2, 3] := by
    decide +kernel
  generalize firstFetched (cacheIn ⟨"/data"⟩) twoHosts bareData = fetched at hfirst
  rcases fetched with _ | _ | content
  · cases hfirst
  · cases hfirst
  · exact congrArg (some ∘ Except.ok) (Option.some.inj hfirst)

/-- The jar is what the second call fetched, and a call without `curl` finds it there. -/
theorem ask_fills_once_twoHosts :
    ∃ a content, (Except.ok [2, 3] : Except IoFault Bytes) = .ok content ∧
      (afterCalls twoHosts bareData).stat [] true (cachedJar (cacheIn ⟨"/data"⟩)) =
        .ok (a, .file content) ∧
      (∀ b content, b ≠ a → ((afterCalls twoHosts bareData).node? b = some (.file content) ↔
        bareData.node? b = some (.file content))) ∧
      request? (dataHost []) (cacheIn ⟨"/data"⟩) (afterCalls twoHosts bareData) = none ∧
      ask (dataHost []) none (afterCalls twoHosts bareData) =
        (.ok (cachedJar (cacheIn ⟨"/data"⟩)), afterCalls twoHosts bareData) :=
  (ask_fills_once holdsNoTools_bareData calls_twoHosts
    (calls_dataHost (List.forall_mem_nil _))).2.2 (.ok [2, 3]) firstFetched_twoHosts

end SourceRecovery.Engine
