import Kanatoko.Runtime

/-!
# Forks

`Fork` of `src/runtime.rs`: one environment with the SDK generators, its checkpoints and its
reverts. Client code works on the environment directly, so a call may leave any stored entries
and any generators.
-/

namespace Kanatoko

open Fallible

/-! ## SDK snapshots -/

/-- The SDK counters behind generated addresses and nonces. -/
structure Generators where
  address : UInt64
  nonce : UInt64
  deriving DecidableEq, Repr

def Generators.fresh : Generators := ⟨0, 0⟩

/-- The SDK `Snapshot`, as far as an environment is rebuilt from it. -/
structure Snapshot where
  generators : Generators
  ledger : LedgerSnapshot
  deriving DecidableEq, Repr

/-- An `Env` with its generators. -/
structure SdkEnv extends Env where
  generators : Generators

/-- What a fork `Env` is created from. -/
inductive ForkEnvSeed where
  | ledger (ledgerInfo : LedgerInfo) (snapshot : LedgerSnapshot)
  | snapshot (snapshot : Snapshot)

/-- `fork_env`: `Env::from_snapshot` takes the header from the ledger it is given. -/
def forkEnvOf : ForkEnvSeed → SdkEnv
  | .ledger ledgerInfo snapshot => { forkEnv ledgerInfo snapshot with generators := .fresh }
  | .snapshot s =>
    let ledger := { s.ledger with
      protocolVersion := executedProtocolVersion s.ledger.protocolVersion }
    { ledgerInfo := ledger.toLedgerInfo
      snapshot := ledger
      storedEntries := .empty
      generators := s.generators }

variable [SnapshotCrate]

/-- `Env::to_snapshot`. -/
def SdkEnv.toSnapshot (env : SdkEnv) : Snapshot := ⟨env.generators, env.toLedgerSnapshot⟩

/-- The SDK snapshot of an environment, in the protocol of the network. -/
def SdkEnv.networkSnapshot (env : SdkEnv) (networkProtocolVersion : UInt32) : Snapshot :=
  let snapshot := env.toSnapshot
  { snapshot with ledger := { snapshot.ledger with
      protocolVersion :=
        restoreNetworkProtocol snapshot.ledger.protocolVersion networkProtocolVersion } }

/-! ## The fork -/

structure Checkpoint where
  forkId : UInt64
  snapshot : Snapshot
  deriving DecidableEq, Repr

structure Fork where
  id : UInt64
  env : SdkEnv
  networkProtocolVersion : UInt32

inductive RuntimeError where
  | wasmHashMismatch (expected actual : Bytes32)
  | checkpointMismatch
  deriving DecidableEq, Repr

namespace Fork

/-- `Fork::from_fixture`, with the id it is given. -/
def fromFixture (id : UInt64) (fixture : FrozenFixture) : Fork where
  id := id
  env := forkEnvOf (.ledger fixture.snapshot.toLedgerInfo fixture.snapshot)
  networkProtocolVersion := fixture.snapshot.protocolVersion

def executedProtocolVersion (fork : Fork) : UInt32 :=
  Kanatoko.executedProtocolVersion fork.networkProtocolVersion

/-- What client code leaves behind in the environment. The header stays as it is. -/
def touch (fork : Fork) (stored : StoredEntries) (generators : Generators) : Fork :=
  { fork with env := { fork.env with storedEntries := stored, generators := generators } }

/-- `register_wasm`; the registration leaves stored entries and generators as any call does. -/
def registerWasm [Crates] (fork : Fork) (wasm : Bytes) (expectedSha256 : Bytes32)
    (stored : StoredEntries) (generators : Generators) : Except RuntimeError Fork := do
  ensure (sha256 wasm = expectedSha256) (.wasmHashMismatch expectedSha256 (sha256 wasm))
  pure (fork.touch stored generators)

def checkpoint (fork : Fork) : Checkpoint where
  forkId := fork.id
  snapshot := fork.env.networkSnapshot fork.networkProtocolVersion

def revert (fork : Fork) (checkpoint : Checkpoint) : Except RuntimeError Fork := do
  ensure (checkpoint.forkId = fork.id) .checkpointMismatch
  pure { fork with env := forkEnvOf (.snapshot checkpoint.snapshot) }

/-- The ledger that `ledger_digest` digests. -/
def ledgerSnapshot (fork : Fork) : LedgerSnapshot :=
  networkLedgerSnapshot fork.env.toEnv fork.networkProtocolVersion

def ledgerDigest [Crates] (fork : Fork) : Except FixtureError Bytes32 :=
  canonicalLedgerDigest fork.ledgerSnapshot

end Fork

/-! ## Runs -/

/--
The forks reachable from a fixture, with the checkpoints taken on the way. An operation that
fails leaves the fork as it was, and is no step. A checkpoint that is reverted to was taken on
this fork, since the checkpoint of another one is refused.
-/
inductive ReachableFork [Crates] (fixture : FrozenFixture) (id : UInt64) :
    Fork → List Checkpoint → Prop
  | fork : ReachableFork fixture id (.fromFixture id fixture) []
  | call {fork : Fork} {taken : List Checkpoint} (stored : StoredEntries)
      (generators : Generators) : ReachableFork fixture id fork taken →
      ReachableFork fixture id (fork.touch stored generators) taken
  | registerWasm {fork fork' : Fork} {taken : List Checkpoint} (wasm : Bytes)
      (expected : Bytes32) (stored : StoredEntries) (generators : Generators) :
      fork.registerWasm wasm expected stored generators = .ok fork' →
      ReachableFork fixture id fork taken → ReachableFork fixture id fork' taken
  | checkpoint {fork : Fork} {taken : List Checkpoint} : ReachableFork fixture id fork taken →
      ReachableFork fixture id fork (fork.checkpoint :: taken)
  | revert {fork fork' : Fork} {taken : List Checkpoint} (checkpoint : Checkpoint) :
      checkpoint ∈ taken ∨ checkpoint.forkId ≠ id → fork.revert checkpoint = .ok fork' →
      ReachableFork fixture id fork taken → ReachableFork fixture id fork' taken

end Kanatoko
