import Kanatoko.Capture.Builder
import Kanatoko.Lib.Machine
import Kanatoko.Strict.Source

/-!
# Strict forks

`StrictFork` and its operations. An operation acts on the fork and keeps, when it stops with
an error, whatever it had done to the fork by then.
-/

namespace Kanatoko

open Fallible Adaptive

variable [Crates] [SnapshotCrate]

structure StrictCheckpoint where
  forkId : UInt64
  snapshot : LedgerSnapshot
  coverage : Coverage
  localContracts : Finset ScAddress
  localCodeHashes : Finset Bytes32

structure StrictFork where
  id : UInt64
  env : Env
  networkProtocolVersion : UInt32
  coverage : Coverage
  localContracts : Finset ScAddress
  localCodeHashes : Finset Bytes32
  receipts : List Receipt

/-- `NEXT_STRICT_FORK_ID.fetch_add(1)`: the id and the counter after it; `none` on the panic. -/
def nextStrictForkId (counter : UInt64) : Option (UInt64 × UInt64) :=
  if counter = 0 then none else some (counter, counter + 1)

/-- The ids of forks created one after the other; the panic ends them. -/
def strictForkIds : Nat → UInt64 → List UInt64
  | 0, _ => []
  | count + 1, counter =>
    match nextStrictForkId counter with
    | some (id, counter) => id :: strictForkIds count counter
    | none => []

abbrev StrictM := EStateM StrictForkError StrictFork

/-- A pure step of an operation. -/
def liftStrict {α : Type} (x : Except StrictForkError α) : StrictM α := lift x

/-- `canonical_ledger_digest`, its error converted. -/
def strictDigest (snapshot : LedgerSnapshot) : Except StrictForkError Bytes32 :=
  (canonicalLedgerDigest snapshot).mapError .fixture

namespace StrictFork

/-- `StrictFork::from_captured`, with the id it is given. -/
def fromCaptured (id : UInt64) (snapshot : LedgerSnapshot) (coverage : Coverage) : StrictFork where
  id := id
  env := strictEnv snapshot
  networkProtocolVersion := snapshot.protocolVersion
  coverage := coverage
  localContracts := ∅
  localCodeHashes := ∅
  receipts := []

def ledgerSnapshot (fork : StrictFork) : LedgerSnapshot :=
  networkLedgerSnapshot fork.env fork.networkProtocolVersion

def ledgerDigest (fork : StrictFork) : Except FixtureError Bytes32 :=
  canonicalLedgerDigest fork.ledgerSnapshot

def checkpoint (fork : StrictFork) : StrictCheckpoint where
  forkId := fork.id
  snapshot := fork.ledgerSnapshot
  coverage := fork.coverage
  localContracts := fork.localContracts
  localCodeHashes := fork.localCodeHashes

def revert (checkpoint : StrictCheckpoint) : StrictM Unit := do
  let fork ← get
  liftStrict (ensure (checkpoint.forkId = fork.id) .checkpointMismatch)
  set { fork with
    env := strictEnv checkpoint.snapshot
    coverage := checkpoint.coverage
    localContracts := checkpoint.localContracts
    localCodeHashes := checkpoint.localCodeHashes
    receipts := [] }

/-- `update_coverage`; what it has inserted before an error stays inserted. -/
def updateCoverage : List StateChange → EStateM StrictForkError Coverage Unit
  | [] => pure ()
  | change :: rest => do
    let id ← lift (strictKeyId change.key)
    modify fun coverage => coverage.insert id change.state
    updateCoverage rest

/-- `update_coverage` on the fork's own coverage. -/
def updateCoverageInPlace (changes : List StateChange) : StrictM Unit := fun fork =>
  match updateCoverage changes fork.coverage with
  | .ok _ coverage => .ok () { fork with coverage := coverage }
  | .error e coverage => .error e { fork with coverage := coverage }

/-- `update_coverage` on a clone of a coverage. -/
def updateCoverageClone (changes : List StateChange) (coverage : Coverage) :
    Except StrictForkError Coverage :=
  match updateCoverage changes coverage with
  | .ok _ coverage => .ok coverage
  | .error e _ => .error e

/-- The child `Env` of a call, read back after it. -/
def childSnapshot {α : Type} (fork : StrictFork) (before : LedgerSnapshot) (childEnd : ChildEnd α)
    (stored : StoredEntries) : LedgerSnapshot :=
  networkLedgerSnapshot
    { strictEnv before with ledgerInfo := childEnd.ledgerInfo, storedEntries := stored }
    fork.networkProtocolVersion

end StrictFork

/-! ## Registration -/

/-- The coverage has a Present contract instance at the address. -/
def occupied (coverage : Coverage) (id : KeyId) : Bool :=
  coverage[id]?.any LookupState.isPresent

namespace StrictFork

/-- The source of the child that registers a candidate. -/
def registerSource (fork : StrictFork) (address : ScAddress) (wasm : Bytes) : StrictSource :=
  strictSource fork.coverage (insert address fork.localContracts)
    (insert (sha256 wasm) fork.localCodeHashes) false

/-- The child that registers a candidate, and the source it leaves. -/
def registerChild (host : Host) (fork : StrictFork) (address : ScAddress) (wasm : Bytes)
    (args : List ScVal) : ChildEnd (Option ScAddress) × StrictSource :=
  (host.register (strictEnv fork.ledgerSnapshot).ledgerInfo address wasm args).run
    StrictSource.get (fork.registerSource address wasm)

def isContractAddress : ScAddress → Bool
  | .contract _ => true
  | _ => false

/-- What `register_candidate` checks before it runs anything. -/
def checkCandidate (fork : StrictFork) (address : ScAddress) (wasm : Bytes)
    (expectedSha256 : Bytes32) : Except StrictForkError Unit := do
  ensure (isContractAddress address = true) .candidateAddressNotContract
  ensure (sha256 wasm = expectedSha256) (.wasmHashMismatch expectedSha256 (sha256 wasm))
  let instanceId ← strictKeyId (contractInstanceKey address)
  ensure (occupied fork.coverage instanceId = false) .candidateAddressOccupied

def registerCandidate (host : Host) (address : ScAddress) (wasm : Bytes)
    (expectedSha256 : Bytes32) (constructorArgs : List ScVal) : StrictM CandidateRegistration := do
  let fork ← get
  liftStrict (fork.checkCandidate address wasm expectedSha256)
  let before := fork.ledgerSnapshot
  let beforeDigest ← liftStrict (strictDigest before)
  liftStrict (ensure (host.validRegistration (strictEnv before).ledgerInfo address
    constructorArgs = true) .invalidInvocationXdr)
  let (childEnd, source) := fork.registerChild host address wasm constructorArgs
  let stored ← liftStrict (gateUnknown source childEnd)
  let installed ← liftStrict (orError .candidateRegistrationFailed childEnd.result)
  liftStrict (ensure (installed = address) .candidateRegistrationFailed)
  let after := fork.childSnapshot before childEnd stored
  let afterDigest ← liftStrict (strictDigest after)
  let stateChanges ← liftStrict (stateDiff before after)
  updateCoverageInPlace stateChanges
  modify fun updated => { updated with
    localContracts := insert address fork.localContracts
    localCodeHashes := insert (sha256 wasm) fork.localCodeHashes
    env := { strictEnv before with ledgerInfo := childEnd.ledgerInfo, storedEntries := stored } }
  pure
    { address := address
      wasmSha256 := sha256 wasm
      mode := .localInjection
      stateChanges := stateChanges
      beforeDigest := beforeDigest
      afterDigest := afterDigest
      upstreamReads := 0 }

/-! ## Invocation -/

/-- The authorization set up in the child, the mode it is reported as, and what it must equal. -/
structure AuthSetup where
  child : ChildAuth
  applied : AppliedAuthMode
  expected : Option (List AuthorizationTree)

def authSetup (host : Host) (info : LedgerInfo) : AuthMode → Except StrictForkError AuthSetup
  | .record => pure ⟨.mockAllAuths, .recordMockSatisfied, none⟩
  | .mockExact expected => pure ⟨.mockAllAuths, .mockExact, some expected⟩
  | .enforce entries => do
    ensure (host.validAuthorization info entries = true) .invalidAuthorizationEntries
    pure ⟨.entries entries, .enforce, none⟩

def allowMockNonces : AuthMode → Bool
  | .record | .mockExact _ => true
  | .enforce _ => false

/-- The source of the child of an invocation. -/
def invokeSource (fork : StrictFork) (auth : AuthMode) : StrictSource :=
  strictSource fork.coverage fork.localContracts fork.localCodeHashes (allowMockNonces auth)

/-- The child of an invocation, and the source it leaves. -/
def invokeChild (host : Host) (fork : StrictFork) (childAuth : ChildAuth) (auth : AuthMode)
    (request : InvokeRequest) : ChildEnd RawCall × StrictSource :=
  (host.invoke (strictEnv fork.ledgerSnapshot).ledgerInfo childAuth request).run
    StrictSource.get (fork.invokeSource auth)

/-- The trees of the last call, from `detached_snapshot_evidence`. -/
def detachedAuthorization {α : Type} (childEnd : ChildEnd α) : List AuthorizationTree :=
  childEnd.auth.getLast?.getD []

def detachedDiagnostics {α : Type} (childEnd : ChildEnd α) :
    Except StrictForkError (List DetachedEvent) := do
  let events ← orError .hostInspection childEnd.diagnostics
  pure (events.filter fun event => event.event.type = .diagnostic)

/-- The ledger after the child, without the nonces that only a mock consumed. -/
def invokeAfter (fork : StrictFork) (auth : AuthMode) (childEnd : ChildEnd RawCall)
    (stored : StoredEntries) : Except StrictForkError LedgerSnapshot :=
  let after := fork.childSnapshot fork.ledgerSnapshot childEnd stored
  if allowMockNonces auth then stripNewMockNonces fork.ledgerSnapshot after else pure after

/-- Only a successful `Apply` is committed. -/
def commits (execution : ExecutionMode) (outcome : InvokeOutcome) : Bool :=
  decide (execution = .apply) && outcome.isSuccess

def dispositionOf (execution : ExecutionMode) (commit : Bool) : ReceiptDisposition :=
  match execution, commit with
  | .preview, _ => .previewed
  | .apply, true => .committed
  | .apply, false => .rejected

/-- Everything `invoke` does before it decides to commit: the receipt and the ledger after it. -/
def prepare (host : Host) (fork : StrictFork) (request : InvokeRequest)
    (execution : ExecutionMode) (auth : AuthMode) :
    Except StrictForkError (Receipt × LedgerSnapshot) := do
  let before := fork.ledgerSnapshot
  let beforeDigest ← strictDigest before
  ensure (host.validInvocation (strictEnv before).ledgerInfo request = true) .invalidInvocationXdr
  let setup ← authSetup host (strictEnv before).ledgerInfo auth
  let (childEnd, source) := fork.invokeChild host setup.child auth request
  let outcome := invokeOutcome childEnd.result
  let stored ← gateUnknown source childEnd
  let authorization := detachedAuthorization childEnd
  ensure (∀ expected ∈ setup.expected, expected = authorization) .authTreeMismatch
  let after ← fork.invokeAfter auth childEnd stored
  let afterDigest ← strictDigest after
  let stateChanges ← stateDiff before after
  let diagnostics ← detachedDiagnostics childEnd
  pure
    ({ request := request
       outcome := outcome
       authMode := setup.applied
       authorization := authorization
       events := childEnd.events
       diagnostics := diagnostics
       stateChanges := stateChanges
       beforeDigest := beforeDigest
       afterDigest := afterDigest
       disposition := dispositionOf execution (commits execution outcome)
       upstreamReads := 0 }, after)

/-- Replaces coverage and environment by those of the ledger after a call. -/
def promote (stateChanges : List StateChange) (after : LedgerSnapshot) : StrictM Unit := do
  let fork ← get
  let coverage ← liftStrict (updateCoverageClone stateChanges fork.coverage)
  set { fork with coverage := coverage, env := strictEnv after }

def promoteIf (commit : Bool) (stateChanges : List StateChange) (after : LedgerSnapshot) :
    StrictM Unit :=
  if commit then promote stateChanges after else pure ()

def pushReceipt (receipt : Receipt) : StrictM Unit :=
  modify fun fork => { fork with receipts := fork.receipts ++ [receipt] }

def invoke (host : Host) (request : InvokeRequest) (execution : ExecutionMode) (auth : AuthMode) :
    StrictM Receipt := do
  let fork ← get
  let (receipt, after) ← liftStrict (fork.prepare host request execution auth)
  promoteIf (commits execution receipt.outcome) receipt.stateChanges after
  pushReceipt receipt
  pure receipt

end StrictFork

/-! ## Runs -/

inductive StrictOp where
  | registerCandidate (address : ScAddress) (wasm : Bytes) (expectedSha256 : Bytes32)
      (constructorArgs : List ScVal)
  | invoke (request : InvokeRequest) (execution : ExecutionMode) (auth : AuthMode)
  | checkpoint
  | revert (checkpoint : StrictCheckpoint)

inductive StrictAnswer where
  | registered (result : Except StrictForkError CandidateRegistration)
  | invoked (result : Except StrictForkError Receipt)
  | checkpointed (checkpoint : StrictCheckpoint)
  | reverted (result : Except StrictForkError Unit)

/-- The result of an operation and the fork it leaves, whether or not it succeeded. -/
def resultOf {α : Type} (x : StrictM α) (fork : StrictFork) :
    Except StrictForkError α × StrictFork :=
  match x fork with
  | .ok a fork' => (.ok a, fork')
  | .error e fork' => (.error e, fork')

/-- One operation on a fork. -/
def strictStep (host : Host) : StrictOp → StrictFork → StrictAnswer × StrictFork
  | .registerCandidate address wasm expected args, fork =>
    let (result, fork) := resultOf (StrictFork.registerCandidate host address wasm expected args) fork
    (.registered result, fork)
  | .invoke request execution auth, fork =>
    let (result, fork) := resultOf (StrictFork.invoke host request execution auth) fork
    (.invoked result, fork)
  | .checkpoint, fork => (.checkpointed fork.checkpoint, fork)
  | .revert checkpoint, fork =>
    let (result, fork) := resultOf (StrictFork.revert checkpoint) fork
    (.reverted result, fork)

/--
The forks reachable from `CapturedFixture::fork`, with the checkpoints taken on the way. A
checkpoint that is reverted to was taken on this fork, or belongs to another one.
-/
inductive Reachable (host : Host) (f : CapturedFixture) (id : UInt64) :
    StrictFork → List StrictCheckpoint → Prop
  | fork : Reachable host f id (.fromCaptured id f.fixture.snapshot f.coverage) []
  | registerCandidate {fork : StrictFork} {taken : List StrictCheckpoint} (address : ScAddress)
      (wasm : Bytes) (expected : Bytes32) (args : List ScVal) : Reachable host f id fork taken →
      Reachable host f id
        (strictStep host (.registerCandidate address wasm expected args) fork).2 taken
  | invoke {fork : StrictFork} {taken : List StrictCheckpoint} (request : InvokeRequest)
      (execution : ExecutionMode) (auth : AuthMode) : Reachable host f id fork taken →
      Reachable host f id (strictStep host (.invoke request execution auth) fork).2 taken
  | checkpoint {fork : StrictFork} {taken : List StrictCheckpoint} :
      Reachable host f id fork taken → Reachable host f id fork (fork.checkpoint :: taken)
  | revert {fork : StrictFork} {taken : List StrictCheckpoint} (checkpoint : StrictCheckpoint) :
      checkpoint ∈ taken ∨ checkpoint.forkId ≠ fork.id → Reachable host f id fork taken →
      Reachable host f id (strictStep host (.revert checkpoint) fork).2 taken

end Kanatoko
