import SourceRecovery.Engine.Work
import SourceRecovery.Host

/-!
# The engine's jar

Where the decompiler comes from: a jar that the caller names, the one in the cache, or else one that
is fetched into the cache now. A download goes to a file with a name of its own beside its target
and is moved there only when it is complete, so the cache holds a whole jar or none.
-/

namespace SourceRecovery.Engine

/-- Where the jar comes from (`EngineJar`). -/
inductive JarSource where
  /-- Named by the caller, and used as it is. -/
  | given (jar : Path)
  /-- In the cache since an earlier run. -/
  | cached (jar : Path)
  /-- Not there yet; this is where it belongs. -/
  | missing (jar : Path)
  deriving DecidableEq, Repr

def JarSource.path : JarSource → Path
  | .given jar | .cached jar | .missing jar => jar

/-- Where the jar belongs in a cache; its name there is `VINEFLOWER_JAR_NAME`. -/
def cachedJar (cache : Path) : Path :=
  (cache.join ⟨"tools"⟩).join ⟨"vineflower.jar"⟩

/-- Finds the jar: the caller's option comes first, then the environment's variable unless it is
    empty, then the cache (`locate_engine_jar`). -/
def findJar (t : FileTree) (cwd : Address) (option : Option Path) (setting : Option Bytes)
    (cache : Path) : JarSource :=
  match option, setting.filter (· != []) with
  | some jar, _ => .given jar
  | none, some jar => .given ⟨jar⟩
  | none, none =>
    if t.isFile cwd (cachedJar cache) then .cached (cachedJar cache)
    else .missing (cachedJar cache)

/-! ## The cache -/

/-- A variable that holds an absolute path. -/
def absolutePath? (host : Host) (name : String) : Option Path :=
  ((host.valueOf? name).map Path.mk).filter Path.isAbsolute

/-- The folder that holds what the program keeps between runs (`tool_cache_root`). -/
def cacheRoot? (host : Host) : Option Path :=
  let home := (((host.valueOf? "HOME").filter (· != [])).map Path.mk).or host.userHome
  let base :=
    (absolutePath? host "XDG_DATA_HOME").or <|
      (home.map fun h => h.join ⟨".local/share"⟩).or <|
        absolutePath? host "XDG_CACHE_HOME"
  base.map fun b => b.join ⟨"compose-decompiler"⟩

/-! ## The download -/

/-- The release that is fetched (`VINEFLOWER_URL`). -/
def releaseUrl : String :=
  "https://github.com/Vineflower/vineflower/releases/download/1.10.1/vineflower-1.10.1.jar"

/-- Why there is no jar: the failures of `tool_cache_root` and `download_vineflower`. -/
inductive JarFault where
  | noCache
  | noParent (target : Path)
  | noFolder (folder : Path) (cause : IoFault)
  | noScratch (folder : Path) (cause : ScratchFault)
  | notStarted (cause : IoFault)
  | notFetched
  | notInstalled (target : Path) (cause : IoFault)
  deriving DecidableEq, Repr

/-- The wording of a fault. -/
def JarFault.failure : JarFault → Failure
  | .noCache => .of "Failed to resolve data directory"
  | .noParent target => .of ("No parent directory for " ++ target.text)
  | .noFolder folder cause =>
    .because ("Failed to create directory: " ++ folder.text) cause.message
  | .noScratch folder cause =>
    .because ("Failed to create temporary file in " ++ folder.text) cause.message
  | .notStarted cause =>
    .because ("Failed to execute curl (ensure curl is installed, or use --engine to specify " ++
      "vineflower.jar)") cause.message
  | .notFetched =>
    .of ("Failed to download Vineflower from " ++ releaseUrl ++
      ". You can use --engine to specify a local vineflower.jar")
  | .notInstalled target cause =>
    ⟨["Failed to install " ++ target.text,
      "failed to persist temporary file: " ++ cause.message, cause.message]⟩

/-- The arguments of the program that fetches the release into the file `part`. -/
def fetchArguments (part : Path) : List Bytes :=
  ["-L", "--fail", "--silent", "--show-error", "-o", part.bytes, releaseUrl]

/-- Fetches the release into the file `part` and moves that to `target`. -/
def fetchInto (host : Host) (part target : Path) (t : FileTree) :
    Except JarFault Unit × FileTree :=
  match host.start "curl" (fetchArguments part) t with
  | (.error cause, t) => (.error (.notStarted cause), t)
  | (.ok finished, t) =>
    if finished.status ≠ 0 then (.error .notFetched, t)
    else
      match t.rename host.folder part target with
      | (.error cause, t) => (.error (.notInstalled target cause), t)
      | (.ok (), t) => (.ok (), t)

/-- Fetches the release to `target` by way of a file of its own in `folder`, which is gone
    afterwards. -/
def fetch (host : Host) (folder target : Path) (t : FileTree) : Except JarFault Unit × FileTree :=
  match host.makeScratchFile folder "vineflower-" ".part" t with
  | (.error cause, t) => (.error (.noScratch folder cause), t)
  | (.ok part, t) =>
    match fetchInto host part target t with
    | (.ok (), t) => (.ok (), t)
    | (.error fault, t) => (.error fault, (t.unlink host.folder part).2)

/-- Brings the release to `target` (`download_vineflower`). -/
def download (host : Host) (target : Path) : Work (Except Failure Unit) :=
  match target.parent? with
  | none => .done (.error (JarFault.noParent target).failure)
  | some folder => do
    match ← Work.attempt fun t => t.makeFolders host.folder folder with
    | .error cause => pure (.error (JarFault.noFolder folder cause).failure)
    | .ok () =>
      .note (.downloading target) do
        match ← Work.attempt (fetch host folder target) with
        | .error fault => pure (.error fault.failure)
        | .ok () => pure (.ok ())

/-- The jar to start, brought into the cache if it is nowhere else (`resolve_engine_path`). -/
def obtainJar (host : Host) (option : Option Path) : Work (Except Failure Path) :=
  match cacheRoot? host with
  | none => .done (.error JarFault.noCache.failure)
  | some cache => do
    match ← Work.attempt fun t =>
      (findJar t host.folder option (host.valueOf? "VINEFLOWER_JAR") cache, t) with
    | .missing jar =>
      match ← download host jar with
      | .error failure => pure (.error failure)
      | .ok () => pure (.ok jar)
    | source => pure (.ok source.path)

end SourceRecovery.Engine
