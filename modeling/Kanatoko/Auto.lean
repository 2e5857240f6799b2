import Kanatoko.Capture.Files
import Kanatoko.Capture.Http
import Kanatoko.Capture.Replay
import Mathlib.Data.List.DropRight

/-!
# The automatic runner

One scenario through automatic capture, strict replay and a bundle file as cache
(`src/auto.rs`). The request rate limit only delays requests and is left out.
-/

namespace Kanatoko

open Fallible

structure AutoRunner where
  rpcUrl : String
  networkPassphrase : String
  protocolPolicy : ProtocolPolicy
  cache : Option Disk.Path
  offline : Bool
  refresh : Bool

inductive CacheStatus where
  | disabled
  | hit
  | created
  | refreshed
  deriving DecidableEq, Repr

structure AutoRun where
  fixture : CapturedFixture
  cacheStatus : CacheStatus

inductive AutoRunError where
  | capture (error : CaptureError)
  | offlineCacheMissing (path : Disk.Path)
  deriving DecidableEq, Repr

/-- How a run stops: with an error, or by a panic of the program itself. -/
inductive AutoHalt where
  | error (e : AutoRunError)
  | panicked
  deriving DecidableEq, Repr

def Halt.toAuto : Halt → AutoHalt
  | .error e => .error (.capture e)
  | .panicked => .panicked

/-! ## The default cache -/

def defaultCacheDomain : Bytes := asBytes "kanatoko.default-cache.v2"
def defaultCacheNameMax : Nat := 80
def defaultCacheHashHex : Nat := 12

/-- `char::is_ascii_alphanumeric`, or an underscore. -/
def isCacheNameChar (ch : Char) : Bool := ch.isAlphanum || ch = '_'

/-- `String::len` of the characters: their length in UTF-8. -/
def utf8Len (text : List Char) : Nat := (text.map Char.utf8Size).sum

/-- The loop of `sanitize_cache_name` over the characters that are left. -/
def sanitizeChars (sanitized : List Char) (separatorPending : Bool) : List Char → List Char
  | [] => sanitized
  | ch :: rest =>
    if isCacheNameChar ch then
      let sanitized :=
        if separatorPending && !sanitized.isEmpty && utf8Len sanitized < defaultCacheNameMax then
          sanitized ++ ['-']
        else sanitized
      if utf8Len sanitized = defaultCacheNameMax then sanitized
      else sanitizeChars (sanitized ++ [ch]) false rest
    else sanitizeChars sanitized true rest

def sanitizeCacheName (raw : String) : String :=
  let sanitized := (sanitizeChars [] false raw.toList).rdropWhile fun ch => ch = '-'
  if sanitized.isEmpty then "scenario" else String.ofList sanitized

section DefaultCache

variable [Crates]

/-- The digits of the digest in the name of a default cache. -/
def defaultCacheHash (networkPassphrase threadName callerFile : String)
    (callerLine callerColumn : UInt32) : String :=
  let digest := sha256 (defaultCacheDomain
    ++ toBeBytes 8 (asBytes networkPassphrase).length ++ asBytes networkPassphrase
    ++ toBeBytes 8 (asBytes threadName).length ++ asBytes threadName
    ++ toBeBytes 8 (asBytes callerFile).length ++ asBytes callerFile
    ++ toBeBytes 4 callerLine.toNat ++ toBeBytes 4 callerColumn.toNat)
  hex (digest.toList.take (defaultCacheHashHex / 2))

def defaultCachePath (networkPassphrase threadName callerFile : String)
    (callerLine callerColumn : UInt32) : Disk.Path :=
  Disk.join [".kanatoko"] (sanitizeCacheName threadName ++ "-"
    ++ defaultCacheHash networkPassphrase threadName callerFile callerLine callerColumn ++ ".json")

/-- `network_runner`, for the name of the current thread and the place of its caller. -/
def networkRunner (rpcUrl networkPassphrase : String) (thread : Option String)
    (callerFile : String) (callerLine callerColumn : UInt32) : AutoRunner where
  rpcUrl := rpcUrl
  networkPassphrase := networkPassphrase
  protocolPolicy := .exact
  cache := some (defaultCachePath networkPassphrase (thread.getD "scenario") callerFile callerLine
    callerColumn)
  offline := false
  refresh := false

end DefaultCache

/-! ## Runs -/

structure RunState (σ : Type) where
  world : World σ
  files : FileState

abbrev AutoM (σ : Type) := EStateM AutoHalt (RunState σ)

variable {σ : Type}

namespace RunState

def withWorld (w : World σ) (s : RunState σ) : RunState σ := { s with world := w }

def withFiles (files : FileState) (s : RunState σ) : RunState σ := { s with files := files }

end RunState

/-- A step of the capture builder or of a replay. -/
def inWorld {α : Type} (x : CaptureM σ α) : AutoM σ α :=
  focus RunState.world RunState.withWorld Halt.toAuto x

/-- A step on files. -/
def inFiles {α : Type} (x : FilesM α) : AutoM σ α :=
  focus RunState.files RunState.withFiles (fun e => .error (.capture e)) x

/-- A step whose error the caller looks at. A panic of the program is not caught. -/
def attempted {α : Type} (x : CaptureM σ α) : CaptureM σ (Except CaptureError α) := fun w =>
  match x w with
  | .ok a w => .ok (.ok a) w
  | .error (.error e) w => .ok (.error e) w
  | .error .panicked w => .error .panicked w

/-- `Path::exists` of the program; it never stops a run. -/
def pathExists (path : Disk.Path) : AutoM σ Bool :=
  focus (fun s => s.files.disk) (fun disk s => s.withFiles (s.files.withDisk disk))
    (fun _ => .panicked) (Disk.pathExists path)

/-- What a run has in hand before anything is written: a cached fixture that has replayed,
or one that was captured just now. -/
inductive Obtained where
  | cached (f : CapturedFixture)
  | captured (f : CapturedFixture)

namespace AutoRunner

variable [Crates] [BundleCrates]

/-- `cache_existed`. -/
def cacheExisted (r : AutoRunner) : AutoM σ Bool :=
  match r.cache with
  | none => pure false
  | some path => pathExists path

/-- A cold capture. -/
def captureCold (b : CaptureBuilder σ) (scenario : Scenario Unit) : AutoM σ Obtained := do
  let f ← inWorld (b.captureRef scenario)
  pure (.captured f)

/-- A capture seeded with the keys of a cached fixture. -/
def captureWarm (b : CaptureBuilder σ) (cached : CapturedFixture) (scenario : Scenario Unit) :
    AutoM σ Obtained := do
  let f ← inWorld (b.captureWithInventory cached scenario)
  pure (.captured f)

/-- The branch of a cache file that was found. -/
def useCache (r : AutoRunner) (b : CaptureBuilder σ) (scenario : Scenario Unit)
    (path : Disk.Path) : AutoM σ Obtained := do
  let cached ← inFiles
    (CapturedFixture.fromFileWithPolicy path r.networkPassphrase r.protocolPolicy)
  let current ← inWorld (b.cachedAnchorIsCurrent cached)
  if current then do
    let replayed ← inWorld (attempted (cached.replayWithLocal scenario))
    match replayed with
    | .ok () => pure (.cached cached)
    -- the cached inventory does not suffice
    | .error (.unknownLedgerKeys _) => captureWarm b cached scenario
    | .error e => throw (.error (.capture e))
  else captureWarm b cached scenario

/-- `run_online` up to the fixture. -/
def obtain (r : AutoRunner) (b : CaptureBuilder σ) (scenario : Scenario Unit) :
    AutoM σ Obtained :=
  match r.cache.filter fun _ => !r.refresh with
  | none => captureCold b scenario
  | some path => do
    let found ← pathExists path
    if found then r.useCache b scenario path else captureCold b scenario

/-- Makes the directory of a cache file, unless that is the directory the process runs in. -/
def createCacheDirectory (path : Disk.Path) : AutoM σ Unit :=
  if Disk.parent path = [] then pure ()
  else inFiles (onDisk "create-cache-directory" (Disk.createDirAll (Disk.parent path)))

/-- `run_online` behind the strict replay of a captured fixture. -/
def publish (r : AutoRunner) (captured : CapturedFixture) (cacheExisted : Bool) :
    AutoM σ AutoRun :=
  match r.cache with
  | none => pure ⟨captured, .disabled⟩
  | some path => do
    createCacheDirectory path
    inFiles (captured.writeFile path)
    pure ⟨captured, if cacheExisted then .refreshed else .created⟩

/-- `run_online` up to the point where it writes: whether the cache existed, and the fixture. -/
def prepare (r : AutoRunner) (b : CaptureBuilder σ) (scenario : Scenario Unit) :
    AutoM σ (Bool × Obtained) := do
  let cacheExisted ← r.cacheExisted
  let obtained ← r.obtain b scenario
  match obtained with
  | .cached f => pure (cacheExisted, .cached f)
  | .captured f => do
    inWorld (f.replayWithLocal scenario)
    pure (cacheExisted, .captured f)

def runOnline (r : AutoRunner) (b : CaptureBuilder σ) (scenario : Scenario Unit) :
    AutoM σ AutoRun := do
  let (cacheExisted, obtained) ← r.prepare b scenario
  match obtained with
  | .cached f => pure ⟨f, .hit⟩
  | .captured f => r.publish f cacheExisted

def runOffline (r : AutoRunner) (scenario : Scenario Unit) : AutoM σ AutoRun :=
  match r.cache.filter fun _ => !r.refresh with
  | none => throw (.error (.offlineCacheMissing (r.cache.getD [])))
  | some path => do
    let found ← pathExists path
    if found then do
      let cached ← inFiles
        (CapturedFixture.fromFileWithPolicy path r.networkPassphrase r.protocolPolicy)
      inWorld (cached.replayWithLocal scenario)
      pure ⟨cached, .hit⟩
    else throw (.error (.offlineCacheMissing path))

variable [WireCrates]

/-- The builder of an online run, over the server behind the runner's URL. -/
def captureBuilder (r : AutoRunner) (connect : String → RpcServer σ) :
    Except CaptureError (CaptureBuilder σ) := do
  let builder ← CaptureBuilder.rpc r.rpcUrl r.networkPassphrase (httpTransport (connect r.rpcUrl))
  pure (if r.protocolPolicy = .allowNewer then builder.allowNewerProtocol else builder)

def run (r : AutoRunner) (connect : String → RpcServer σ) (scenario : Scenario Unit) :
    AutoM σ AutoRun :=
  if r.offline then r.runOffline scenario
  else do
    let builder ← inWorld (liftCapture (r.captureBuilder connect))
    r.runOnline builder scenario

end AutoRunner

end Kanatoko
