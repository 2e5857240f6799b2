import Kanatoko.Capture.Origin
import Kanatoko.Capture.Source
import Kanatoko.Lib.Chunks

/-!
# The capture builder

Three nested loops: `materialize` retries until every batch of one attempt comes from one
ledger, `expandCodeClosure` re-materializes until the executable chains add no key, and
`captureRounds` runs the scenario until it touches no new key.

Each loop of the source is a recursion on the turns it has left.
-/

namespace Kanatoko

open Fallible

def maxCoherenceAttempts : Nat := 8
def maxDiscoveryRounds : Nat := 16
def maxExecutableClosureRounds : Nat := 16
def maxKeysPerBatch : Nat := 200

structure Materialized where
  anchor : Anchor
  ledgerInfo : LedgerInfo
  coverage : Coverage

/-- A count as a `usize` of the 64-bit targets. -/
def usize (n : Nat) : UInt64 := UInt64.ofNat n

structure CaptureReport where
  discoveryRounds : Nat
  presentEntries : UInt64
  absentEntries : UInt64
  inventoryDigest : Bytes32
  finalReplayRpcReads : UInt64
  deriving DecidableEq, Repr

structure CaptureProvenance where
  rpcOrigin : String
  networkPassphrase : String
  ledgerSequence : UInt32
  ledgerHash : String
  protocolVersion : UInt32
  deriving DecidableEq, Repr

/-- A coherent starting state plus strict Present/Absent coverage. -/
structure CapturedFixture where
  fixture : FrozenFixture
  coverage : Coverage
  report : CaptureReport
  provenance : CaptureProvenance

/--
The builder. Its constructors store a redacted origin and never raise the round limit, and
the fields are private; both facts travel with the value.
-/
structure CaptureBuilder (σ : Type) where
  networkPassphrase : String
  rpcOrigin : String
  transport : Transport σ
  protocolPolicy : ProtocolPolicy
  coherenceAttempts : Nat
  discoveryRounds : Nat
  origin_redacted : redactRpcOrigin rpcOrigin = .ok rpcOrigin
  discoveryRounds_le : discoveryRounds ≤ maxDiscoveryRounds

variable {σ : Type}

/-- `CaptureBuilder::rpc`, over the transport made for the URL. -/
def CaptureBuilder.rpc (rpcUrl networkPassphrase : String) (transport : Transport σ) :
    Except CaptureError (CaptureBuilder σ) :=
  match h : redactRpcOrigin rpcUrl with
  | .error e => .error e
  | .ok origin => .ok
    { networkPassphrase := networkPassphrase
      rpcOrigin := origin
      transport := transport
      protocolPolicy := .exact
      coherenceAttempts := maxCoherenceAttempts
      discoveryRounds := maxDiscoveryRounds
      origin_redacted := redactRpcOrigin_idem h
      discoveryRounds_le := Nat.le_refl _ }

def CaptureBuilder.allowNewerProtocol (b : CaptureBuilder σ) : CaptureBuilder σ :=
  { b with protocolPolicy := .allowNewer }

variable [Crates]

/-! ## From a materialization to an environment -/

/-- The loop of `snapshot_from_materialized`. -/
def snapshotEntries : List (KeyId × LookupState) → Except CaptureError (List SnapshotEntry)
  | [] => pure []
  | (_, .absent) :: rest => snapshotEntries rest
  | (id, .present entry liveUntil) :: rest => do
    let key := entry.toKey
    ensure (isStateArchivalKey key = false) .internalInvariant
    let derived ← keyId key
    ensure (id = derived) .internalInvariant
    let entries ← snapshotEntries rest
    pure ((key, (entry, liveUntil)) :: entries)

def snapshotFromMaterialized (m : Materialized) : Except CaptureError LedgerSnapshot := do
  let entries ← snapshotEntries m.coverage.toList
  pure { m.ledgerInfo with ledgerEntries := entries }

/-- `env_from_materialized`; its `expect` is the `panicked` branch. -/
def envFromMaterialized (m : Materialized) : Except Halt Env :=
  match snapshotFromMaterialized m with
  | .ok snapshot => .ok (forkEnv m.ledgerInfo snapshot)
  | .error _ => .error .panicked

/-! ## Materialization -/

def headerOf (networkPassphrase : String) (anchor : Anchor)
    (archival : StateArchivalSettings) : LedgerInfo where
  protocolVersion := anchor.protocolVersion
  sequenceNumber := anchor.sequence
  timestamp := anchor.timestamp
  networkId := sha256 (asBytes networkPassphrase)
  baseReserve := anchor.baseReserve
  minPersistentEntryTtl := archival.minPersistentTtl
  minTempEntryTtl := archival.minTemporaryTtl
  maxEntryTtl := archival.maxEntryTtl

/-- What the batches of one attempt have yielded so far. -/
structure Fetched where
  coverage : Coverage
  archival : Option StateArchivalSettings

/-- Files the answers for the keys of one batch. -/
def fileChunk (configId : KeyId) (returned : Std.ExtTreeMap KeyId FetchedEntry) :
    List (KeyId × LedgerKey) → Fetched → Except CaptureError Fetched
  | [], fetched => pure fetched
  | (id, _) :: rest, fetched =>
    if id = configId then do
      let settings ← extractArchival returned[id]?
      fileChunk configId returned rest { fetched with archival := some settings }
    else
      fileChunk configId returned rest
        { fetched with coverage := fetched.coverage.insert id (stateOf returned[id]?) }

namespace CaptureBuilder

/-- The batches of one attempt; `none` when one of them is not of the ledger `sequence`. -/
def fetchChunks (b : CaptureBuilder σ) (configId : KeyId) (sequence : UInt32) :
    List (List (KeyId × LedgerKey)) → Fetched → CaptureM σ (Option Fetched)
  | [], fetched => pure (some fetched)
  | chunk :: rest, fetched => do
    let batchKeys := chunk.map Prod.snd
    let batch ← call (·.ledgerEntries b.transport batchKeys)
    if batch.latestLedger ≠ sequence then pure none
    else do
      let returned ← liftCapture (validateBatch batchKeys batch.entries)
      let fetched ← liftCapture (fileChunk configId returned chunk fetched)
      b.fetchChunks configId sequence rest fetched

/-- The end of an attempt whose batches and anchors agree. -/
def settle (b : CaptureBuilder σ) (anchor : Anchor) (fetched : Fetched) :
    Except CaptureError Materialized := do
  let archival ← orError .missingStateArchival fetched.archival
  validateCoverage fetched.coverage anchor.sequence archival.maxEntryTtl
  pure ⟨anchor, headerOf b.networkPassphrase anchor archival, fetched.coverage⟩

def checkProtocol (b : CaptureBuilder σ) (found : UInt32) : Except CaptureError Unit :=
  (b.protocolPolicy.check found).mapError UnsupportedProtocol.toCaptureError

/-- The coherence attempts that are left. -/
def materializeAttempts (b : CaptureBuilder σ) (configId : KeyId)
    (requested : List (KeyId × LedgerKey)) : Nat → CaptureM σ Materialized
  | 0 => stop (.incoherentLedger b.coherenceAttempts)
  | attempts + 1 => do
    let before ← call (·.latestLedger b.transport)
    liftCapture (b.checkProtocol before.protocolVersion)
    let fetched ← b.fetchChunks configId before.sequence
      (Chunks.chunks maxKeysPerBatch requested) ⟨∅, none⟩
    let after ← call (·.latestLedger b.transport)
    match fetched with
    | none => b.materializeAttempts configId requested attempts
    | some fetched =>
      if before ≠ after then b.materializeAttempts configId requested attempts
      else liftCapture (b.settle before fetched)

def materialize (b : CaptureBuilder σ) (keys : KeyMap) : CaptureM σ Materialized := do
  let configId ← liftCapture (keyId stateArchivalKey)
  let requested := (keys.map.insert configId stateArchivalKey).toList
  b.materializeAttempts configId requested b.coherenceAttempts

end CaptureBuilder

/-! ## Executable closure -/

/-- Inserts keys under their ids and counts those that are new. -/
def insertKeys : List LedgerKey → KeyMap × Nat → Except CaptureError (KeyMap × Nat)
  | [], acc => pure acc
  | key :: rest, (keys, added) =>
    match h : ledgerKeyToXdr key with
    | none => throw .xdr
    | some id =>
      insertKeys rest (keys.insert id key h, if id ∈ keys.map then added else added + 1)

def requiredKeys (coverage : Coverage) : Except CaptureError (List LedgerKey) := do
  let required ← coverage.toList.mapM (requiredOf coverage)
  pure required.flatten

namespace CaptureBuilder

/-- One turn of the closure loop and those that are left. -/
def expandRounds (b : CaptureBuilder σ) : Nat → KeyMap → Materialized →
    CaptureM σ (KeyMap × Materialized)
  | rounds, keys, m => do
    let required ← liftCapture (requiredKeys m.coverage)
    let (keys, added) ← liftCapture (insertKeys required (keys, 0))
    if added = 0 then do
      liftCapture (ensureExecutableClosurePresent m.coverage)
      pure (keys, m)
    else
      match rounds with
      | 0 => stop (.executableClosureLimit maxExecutableClosureRounds)
      | rounds + 1 => do
        let m ← b.materialize keys
        b.expandRounds rounds keys m

/-- `expand_code_closure`, with the keys it adds handed back. -/
def expandCodeClosure (b : CaptureBuilder σ) (keys : KeyMap) (m : Materialized) :
    CaptureM σ (KeyMap × Materialized) :=
  b.expandRounds maxExecutableClosureRounds keys m

/-- Materializes a key set and closes it under executable chains. -/
def materializeClosed (b : CaptureBuilder σ) (keys : KeyMap) :
    CaptureM σ (KeyMap × Materialized) := do
  let m ← b.materialize keys
  b.expandCodeClosure keys m

/-! ## Capture -/

def validateNetwork (b : CaptureBuilder σ) : CaptureM σ Unit := do
  let network ← call (·.network b.transport)
  liftCapture (ensure (network.passphrase = b.networkPassphrase) .networkMismatch)
  liftCapture (b.checkProtocol network.protocolVersion)

def currentAnchor (b : CaptureBuilder σ) : CaptureM σ Anchor := do
  let anchor ← call (·.latestLedger b.transport)
  liftCapture (b.checkProtocol anchor.protocolVersion)
  pure anchor

end CaptureBuilder

/-- Adds the stored keys that are not locally owned to the requested ones. -/
def addStored (localLedger : LocalLedger) : List LedgerKey → KeyMap → Except CaptureError KeyMap
  | [], requested => pure requested
  | key :: rest, requested =>
    if localLedger.owns key then addStored localLedger rest requested
    else
      match h : ledgerKeyToXdr key with
      | none => throw .xdr
      | some id => addStored localLedger rest (requested.insert id key h)

/-- What a pass asks to capture on top of `keys`: the new key set and how many are new. -/
def collectKeys (source : TrackingSource) (stored : List LedgerKey) (keys : KeyMap) :
    Except CaptureError (KeyMap × Nat) := do
  let requested ← addStored source.localLedger stored source.requested
  insertKeys ((requested.map.toList.map Prod.snd).filter fun key => !isStateArchivalKey key)
    (keys, 0)

/--
One pass over a materialization, in a fresh environment and over a fresh source that holds
its coverage. Discovery has a transport behind the source, replay has none.
-/
def passOver {R : Type} (transport : Option (Transport σ)) (scenario : Scenario R)
    (m : Materialized) : CaptureM σ (PassEnd R × TrackingSource) := do
  let env ← lift (envFromMaterialized m)
  let source := TrackingSource.new m.coverage m.ledgerInfo.protocolVersion
  fun w =>
    let (passEnd, source, w) := runPass transport scenario env source w
    .ok (passEnd, source) w

namespace CaptureBuilder

/-- The fixture of a pass that added no key. -/
def sealFixture (b : CaptureBuilder σ) (round : Nat) (m : Materialized) :
    Except CaptureError CapturedFixture := do
  let snapshot ← snapshotFromMaterialized m
  let fixture ← (FrozenFixture.fromSnapshotWithPolicy snapshot b.networkPassphrase
    b.protocolPolicy).mapError .fixture
  let digest ← inventoryDigest m.coverage
  pure
    { fixture := fixture
      coverage := m.coverage
      report :=
        { discoveryRounds := round
          presentEntries := usize (presentCount m.coverage)
          absentEntries := usize (absentCount m.coverage)
          inventoryDigest := digest
          finalReplayRpcReads := 0 }
      provenance :=
        { rpcOrigin := b.rpcOrigin
          networkPassphrase := b.networkPassphrase
          ledgerSequence := m.anchor.sequence
          ledgerHash := m.anchor.hash
          protocolVersion := m.anchor.protocolVersion } }

/-- The checks between a pass that added no key and its fixture. -/
def concludePass (b : CaptureBuilder σ) (round : Nat) (m : Materialized)
    (passEnd : PassEnd Unit) (source : TrackingSource) : Except CaptureError CapturedFixture := do
  ensure (passEnd.outcome.isSome = true) .scenarioPanicked
  ensure (source.rpcReads = 0) .internalInvariant
  b.sealFixture round m

/-- The discovery rounds that are left; `round` is the number of the next one. -/
def captureRounds (b : CaptureBuilder σ) (scenario : Scenario Unit) :
    Nat → Nat → KeyMap → Materialized → CaptureM σ CapturedFixture
  | 0, _, _, _ => stop (.fixedPointLimit b.discoveryRounds)
  | rounds + 1, round, keys, m => do
    let (passEnd, source) ← passOver (some b.transport) scenario m
    liftCapture (match source.failure with
      | some operation => throw (.transport operation)
      | none => pure ())
    let stored ← liftCapture (orError .hostInspection passEnd.storedEntries)
    let (keys, added) ← liftCapture (collectKeys source stored keys)
    if added ≠ 0 then do
      let (keys, m) ← b.materializeClosed keys
      b.captureRounds scenario rounds (round + 1) keys m
    else liftCapture (b.concludePass round m passEnd source)

def captureRefFromKeys (b : CaptureBuilder σ) (scenario : Scenario Unit) (keys : KeyMap) :
    CaptureM σ CapturedFixture := do
  b.validateNetwork
  let (keys, m) ← b.materializeClosed keys
  b.captureRounds scenario b.discoveryRounds 1 keys m

/-- `capture`, `capture_with_local` and `capture_ref`: a capture from no keys at all. -/
def captureRef (b : CaptureBuilder σ) (scenario : Scenario Unit) : CaptureM σ CapturedFixture :=
  b.captureRefFromKeys scenario .empty

end CaptureBuilder

end Kanatoko
