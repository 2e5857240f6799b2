import Kanatoko.Lib.Draws
import Kanatoko.Scenario
import Kanatoko.Strict.Fork

/-!
# Calls of a scenario fork

`deploy`, `invoke`, `try_invoke` and `preview` of a `ScenarioFork` under `mock_all_auths`. The
Host records the authorization a call asks for: it draws a nonce for the address, and writes
its temporary entry. The nonces come from one sequence, which every fresh environment draws
from the start.

A call runs in a frame, which it opens behind its first lookups. A frame that fails takes the
storage map back to what it was when the frame was opened, so a failed call forgets what it has
looked up inside and keeps what it has looked up before. What it has drawn stays drawn.

Contract code is a parameter: what it does depends on the ledger header, on its arguments, and
on what it reads.
-/

namespace Kanatoko

open Fallible Adaptive

/-! ## The storage map -/

namespace StoredEntries

/-- The storage map, key by key. -/
def storage (stored : StoredEntries) : Storage := fun key =>
  (stored.entries.find? fun x => x.1 = key).map Prod.snd

/-- The storage map with one key set. -/
def set (stored : StoredEntries) (key : LedgerKey) (value : Option PresentEntry) :
    StoredEntries where
  entries := (key, value) :: stored.entries.filter fun x => x.1 ≠ key
  nodup := by
    rw [List.map_cons, List.nodup_cons]
    refine ⟨fun hmem => ?_, ?_⟩
    · obtain ⟨x, hx, rfl⟩ := List.mem_map.mp hmem
      simp at hx
    · exact stored.nodup.sublist (List.filter_sublist.map _)

/-- Takes over what another storage map has under one key. -/
def takeOver (stored : StoredEntries) (storage : Storage) (key : LedgerKey) : StoredEntries :=
  match storage key with
  | some value => stored.set key value
  | none => stored

end StoredEntries

/-! ## The Host -/

/-- A key that contract code can read and write. Nonces are the Host's own. -/
abbrev ContractKey := { key : LedgerKey // isNonceKey key = false }

/-- Contract code on its Host: it reads and writes entries, has addresses authorize it, and calls
other code in frames. -/
abbrev HostProgram (α : Type) := Draws.Program ContractKey PresentEntry ScAddress α

/-- What the Host looks up ahead of a frame. -/
abbrev Lookups (α : Type) := Client ContractKey (fun _ => Option PresentEntry) α

/-- What stops a program before its end: a read that fails, or a nonce that exists. -/
inductive HostTrap where
  | storage
  | nonceExists
  deriving DecidableEq, Repr

/-- How a call ends, as far as a report shows it. -/
structure CallEnd where
  raw : RawCall
  /-- `to_snapshot().auth`, call by call. -/
  auth : List (List AuthorizationTree)
  events : List DetachedEvent
  /-- `get_diagnostic_events`, which the Host may refuse. -/
  diagnostics : Option (List DetachedEvent)
  deriving DecidableEq, Repr

/-- The Host call has succeeded, whether or not its value converts. -/
def RawCall.commits : RawCall → Bool
  | .value _ | .conversionFailed => true
  | _ => false

/-- The function of a request fits an `ScSymbol`. -/
def InvokeRequest.fitsSymbol (request : InvokeRequest) : Bool :=
  decide (request.function.length ≤ 32)

/-- The Host under `mock_all_auths`. -/
structure MockHost where
  /-- The nonces a fresh environment draws. -/
  nonces : Nat → Int64
  nonceEntry : LedgerInfo → ScAddress → Int64 → PresentEntry
  /-- `Address::generate`. -/
  generate : Generators → ScAddress × Generators
  /-- The arguments of a call convert to XDR values. -/
  detaches : LedgerInfo → List ScVal → Bool
  /-- The address, function and arguments of a request convert to Host values. -/
  validInvocation : LedgerInfo → InvokeRequest → Bool
  /-- A call looks its instance and its code up, and goes on in a frame. -/
  invoke : LedgerInfo → InvokeRequest → Lookups (HostProgram CallEnd)
  /-- `register_at`; `none` when it panics. Only the constructor has a frame. -/
  register : LedgerInfo → ScAddress → Bytes → List ScVal → HostProgram (Option ScAddress)
  /-- How a call ends that was stopped. It fails. -/
  trapped : HostTrap → CallEnd
  trapped_fails : ∀ trap, (trapped trap).raw.commits = false

/-- The key of the entry of a nonce. -/
def nonceKey (address : ScAddress) (nonce : Int64) : LedgerKey :=
  .contractData ⟨address, .ledgerKeyNonce nonce, .temporary⟩

/-- The storage map of a Host, how many nonces it has drawn, and the storage maps that its open
frames have saved, innermost first. -/
structure HostState where
  stored : StoredEntries
  drawn : Nat
  frames : List StoredEntries

/-- A program on its Host: a client of the snapshot source. -/
abbrev HostClient (α : Type) := Client LedgerKey (fun _ => LookupAnswer) (α × HostState)

namespace HostState

def set (s : HostState) (key : LedgerKey) (value : Option PresentEntry) : HostState :=
  { s with stored := s.stored.set key value }

def push (s : HostState) : HostState := { s with frames := s.stored :: s.frames }

def pop (s : HostState) (succeeded : Bool) : HostState :=
  { s with
    stored := Draws.close succeeded s.stored s.frames
    frames := s.frames.tail }

/-- Fails all frames that are open. -/
def unwind (s : HostState) : HostState :=
  { s with
    stored := s.frames.getLast?.getD s.stored
    frames := [] }

/-- Looks a key up, in the source when the Host has not touched it. -/
def lookup {α : Type} (s : HostState) (key : LedgerKey)
    (next : Option PresentEntry → HostState → HostClient (Except HostTrap α)) :
    HostClient (Except HostTrap α) :=
  match s.stored.storage key with
  | some value => next value s
  | none => .ask key fun
    | .ok value => next value (s.set key value)
    | .error _ => .done (.error .storage, s)

/-- Looks up one key after the other. -/
def load {α β : Type} : Lookups β → HostState →
    (β → HostState → HostClient (Except HostTrap α)) → HostClient (Except HostTrap α)
  | .done b, s, next => next b s
  | .ask key rest, s, next => s.lookup key.1 fun value s => load (rest value) s next

end HostState

namespace MockHost

variable (host : MockHost) (info : LedgerInfo)

/-- Runs contract code on the storage map of its Host. -/
def on {α : Type} : HostProgram α → HostState → HostClient (Except HostTrap α)
  | .done a, s => .done (.ok a, s)
  | .ask (.get key) next, s => s.lookup key.1 fun value s => on (next value) s
  | .ask (.put key value) next, s => on (next ⟨⟩) (s.set key.1 value)
  | .ask (.draw address) next, s =>
    let nonce := host.nonces s.drawn
    { s with drawn := s.drawn + 1 }.lookup (nonceKey address nonce) fun
      | some _, s => .done (.error .nonceExists, s)
      | none, s =>
        on (next ⟨⟩) (s.set (nonceKey address nonce) (some (host.nonceEntry info address nonce)))
  | .ask .push next, s => on (next ⟨⟩) s.push
  | .ask (.pop succeeded) next, s => on (next ⟨⟩) (s.pop succeeded)

/-- How a call has ended, when it was stopped or not. -/
def callEnd : Except HostTrap CallEnd → CallEnd
  | .ok ended => ended
  | .error trap => host.trapped trap

/-- The state behind the frame of a call. One that fails leaves the storage map as it was before
the frame; what it has drawn stays drawn. -/
def settle (before after : HostState) (succeeded : Bool) : HostState :=
  if succeeded then after else { after with stored := before.stored }

/-- Runs a call in its frame. -/
def inFrame (body : HostProgram CallEnd) (s : HostState) :
    HostClient (Except HostTrap CallEnd) :=
  (host.on info body ⟨s.stored, s.drawn, []⟩).andThen id (fun _ answer => answer) fun r =>
    .done (r.1, settle s r.2 (host.callEnd r.1).raw.commits)

/-- A call of `try_invoke_contract`. It keeps what it has looked up before its frame. -/
def call (request : InvokeRequest) (s : HostState) : HostClient CallEnd :=
  (HostState.load (host.invoke info request) s (host.inFrame info)).andThen id
    (fun _ answer => answer) fun r => .done (host.callEnd r.1, r.2)

/-- A registration. It has no result when it panics, which fails the frames that are open, and
keeps all that it has stored outside of them. -/
def install (address : ScAddress) (wasm : Bytes) (args : List ScVal) (s : HostState) :
    HostClient (Option ScAddress) :=
  (host.on info (host.register info address wasm args) s).andThen id (fun _ answer => answer)
    fun
      | (.ok (some installed), after) => .done (some installed, after)
      | (_, after) => .done (none, after.unwind)

end MockHost

/-! ## The fork -/

/-- A `ScenarioFork` under `mock_all_auths`, with its environment and what the Host has drawn. -/
structure MockFork where
  env : SdkEnv
  networkProtocolVersion : UInt32
  localAccounts : Finset Bytes32
  drawn : Nat

/-- A method of the fork. Its result is `none` when it panics. -/
abbrev MockProgram (α : Type) := Client SourceOp SourceOp.Answer (Option α × MockFork)

/-- Goes on after a step on the Host. -/
def onSource {α β : Type} (c : HostClient α)
    (next : α × HostState → Client SourceOp SourceOp.Answer β) :
    Client SourceOp SourceOp.Answer β :=
  c.andThen SourceOp.get (fun _ answer => answer) next

inductive PreviewAuth where
  | record
  | exact (expected : List AuthorizationTree)
  deriving DecidableEq, Repr

def PreviewAuth.applied : PreviewAuth → AppliedAuthMode
  | .record => .recordMockSatisfied
  | .exact _ => .mockExact

def PreviewAuth.expected : PreviewAuth → Option (List AuthorizationTree)
  | .record => none
  | .exact expected => some expected

structure InvocationReport where
  receipt : Receipt
  networkProtocolVersion : UInt32
  deriving DecidableEq, Repr

/-- `LedgerSnapshot` as a snapshot source. -/
def LedgerSnapshot.get (snapshot : LedgerSnapshot) (key : LedgerKey) : Option PresentEntry :=
  (snapshot.ledgerEntries.find? fun x => x.1 = key).map Prod.snd

/-- How a snapshot serves the Host of an environment that was made from it. -/
def serveSnapshot (snapshot : LedgerSnapshot) : Server LedgerKey (fun _ => LookupAnswer) Unit :=
  fun key _ => (.ok (snapshot.get key), ())

namespace MockFork

def new (env : SdkEnv) (networkProtocolVersion : UInt32) : MockFork where
  env := env
  networkProtocolVersion := networkProtocolVersion
  localAccounts := ∅
  drawn := 0

def host (fork : MockFork) : HostState := ⟨fork.env.storedEntries, fork.drawn, []⟩

/-- The fork after a step on its Host. -/
def withHost (fork : MockFork) (s : HostState) : MockFork :=
  { fork with env := { fork.env with storedEntries := s.stored }, drawn := s.drawn }

/-- A method that neither calls nor draws, and touches one key only. -/
def lifted {α : Type} (fork : MockFork) (key : LedgerKey) (method : ScenarioFork → PassProgram α) :
    MockProgram α :=
  (method ⟨fork.env.ledgerInfo, fork.env.storedEntries.storage, fork.localAccounts⟩).andThen id
    (fun _ answer => answer) fun r => .done (r.1,
      { fork with
        env := { fork.env with
          storedEntries := fork.env.storedEntries.takeOver r.2.storage key }
        localAccounts := r.2.localAccounts })

/-- The account key of an address. Only accounts are funded. -/
def accountKey : ScAddress → LedgerKey
  | .account accountId => .account accountId
  | address => contractInstanceKey address

def localAccount [Crates] (fork : MockFork) (label : String) : MockProgram ScAddress :=
  fork.lifted (.account (localAccountKey fork.env.ledgerInfo.networkId label))
    fun scenario => scenario.localAccount label

def fundLocalAccount (fork : MockFork) (account : ScAddress) (amount : Int64) :
    MockProgram Unit :=
  fork.lifted (accountKey account) fun scenario => scenario.fundLocalAccount account amount

variable (host : MockHost)

def deploy [Crates] (fork : MockFork) (wasm : Bytes) (constructorArgs : List ScVal) :
    MockProgram ScAddress :=
  let (address, generators) := host.generate fork.env.generators
  let fork := { fork with env := { fork.env with generators := generators } }
  if StrictFork.isContractAddress address then
    onSource (fork.host.lookup (contractInstanceKey address) fun existing s =>
        .done (.ok existing, s)) fun
      | (.ok none, s) => .ask (.markAddress address) fun _ => .ask (.markCode (sha256 wasm)) fun _ =>
          onSource (host.install fork.env.ledgerInfo address wasm constructorArgs s) fun r =>
            .done (r.1, fork.withHost r.2)
      -- a collision with captured network state, or a Host that cannot tell
      | (_, s) => .done (none, fork.withHost s)
  else .done (none, fork)

def tryInvoke (fork : MockFork) (request : InvokeRequest) :
    Client SourceOp SourceOp.Answer (InvokeOutcome × MockFork) :=
  if request.fitsSymbol && host.validInvocation fork.env.ledgerInfo request then
    onSource (host.call fork.env.ledgerInfo request fork.host) fun r =>
      .done (invokeOutcome r.1.raw, fork.withHost r.2)
  else .done (.failure none .abort, fork)

/-- `invoke` panics where `try_invoke` fails. -/
def invoke (fork : MockFork) (request : InvokeRequest) : MockProgram ScVal :=
  (fork.tryInvoke host request).andThen id (fun _ answer => answer) fun
    | (.success value, fork) => .done (some value, fork)
    | (.failure _ _, fork) => .done (none, fork)

/-! ## Previews -/

section Preview

variable [SnapshotCrate]

/-- The ledger that a preview starts from. -/
def ledgerSnapshot (fork : MockFork) : LedgerSnapshot :=
  networkLedgerSnapshot fork.env.toEnv fork.networkProtocolVersion

/-- The child of a preview. -/
def child (fork : MockFork) : SdkEnv := previewChild fork.env fork.networkProtocolVersion

/-- The call in the child: a fresh environment, which draws its nonces from the start. -/
def childCall (fork : MockFork) (request : InvokeRequest) : CallEnd × HostState :=
  ((host.call fork.child.ledgerInfo request ⟨fork.child.storedEntries, 0, []⟩).run
    (serveSnapshot fork.child.snapshot) ()).1

/-- The ledger of the child after the call. -/
def childAfter (fork : MockFork) (stored : StoredEntries) : LedgerSnapshot :=
  networkLedgerSnapshot { fork.child.toEnv with storedEntries := stored }
    fork.networkProtocolVersion

variable [Crates]

/-- Everything `preview` does behind `forward_preview_reads`. -/
def report (fork : MockFork) (request : InvokeRequest) (auth : PreviewAuth)
    (beforeDigest : Bytes32) (upstreamReads : Nat) : Except StrictForkError InvocationReport := do
  let (ended, s) := fork.childCall host request
  let childEnd : ChildEnd RawCall :=
    { result := ended.raw
      ledgerInfo := fork.child.ledgerInfo
      storedEntries := some s.stored
      auth := ended.auth
      events := ended.events
      diagnostics := ended.diagnostics }
  let authorization := StrictFork.detachedAuthorization childEnd
  ensure (∀ expected ∈ auth.expected, expected = authorization) .authTreeMismatch
  let after ← stripNewMockNonces fork.ledgerSnapshot (fork.childAfter s.stored)
  let afterDigest ← strictDigest after
  let stateChanges ← stateDiff fork.ledgerSnapshot after
  let diagnostics ← StrictFork.detachedDiagnostics childEnd
  pure
    { receipt :=
        { request := request
          outcome := invokeOutcome ended.raw
          authMode := auth.applied
          authorization := authorization
          events := ended.events
          diagnostics := diagnostics
          stateChanges := stateChanges
          beforeDigest := beforeDigest
          afterDigest := afterDigest
          disposition := .previewed
          upstreamReads := UInt64.ofNat upstreamReads }
      networkProtocolVersion := fork.networkProtocolVersion }

/-- `ScenarioFork::preview`. The fork itself stays as it is. -/
def preview (fork : MockFork) (request : InvokeRequest) (auth : PreviewAuth) :
    Client SourceOp SourceOp.Answer (Except StrictForkError InvocationReport) :=
  if request.fitsSymbol && host.detaches fork.env.ledgerInfo request.args then
    match strictDigest fork.ledgerSnapshot with
    | .error e => .done (.error e)
    | .ok beforeDigest =>
      if host.validInvocation fork.child.ledgerInfo request then
        .ask (.preview (some (fork.childCall host request).2.stored.keys)) fun
          | .error e => .done (.error e)
          | .ok upstreamReads => .done (fork.report host request auth beforeDigest upstreamReads)
      else .done (.error .invalidInvocationXdr)
  else .done (.error .invalidInvocationXdr)

end Preview

end MockFork

/-! ## Runs -/

inductive MockOp where
  | localAccount (label : String)
  | fundLocalAccount (account : ScAddress) (amount : Int64)
  | deploy (wasm : Bytes) (constructorArgs : List ScVal)
  | invoke (request : InvokeRequest)
  | tryInvoke (request : InvokeRequest)
  | preview (request : InvokeRequest) (auth : PreviewAuth)

variable [Crates] [SnapshotCrate]

/-- The fork that an operation leaves, whether or not it panics. -/
def mockStep (host : MockHost) (fork : MockFork) :
    MockOp → Client SourceOp SourceOp.Answer MockFork
  | .localAccount label => forget (fork.localAccount label)
  | .fundLocalAccount account amount => forget (fork.fundLocalAccount account amount)
  | .deploy wasm args => forget (fork.deploy host wasm args)
  | .invoke request => forget (fork.invoke host request)
  | .tryInvoke request => forget (fork.tryInvoke host request)
  | .preview request auth => forget ((fork.preview host request auth).andThen id
      (fun _ answer => answer) fun result => .done (result, fork))
where
  forget {α : Type} (c : Client SourceOp SourceOp.Answer (α × MockFork)) :
      Client SourceOp SourceOp.Answer MockFork :=
    c.andThen id (fun _ answer => answer) fun r => .done r.2

/--
The forks that a pass over a materialization reaches, and the sources and worlds they leave.
The pass starts in a fresh environment over a fresh source.
-/
inductive MockReachable {σ : Type} (host : MockHost) (transport : Option (Transport σ))
    (m : Materialized) (snapshot : LedgerSnapshot) (w : World σ) : MockFork → PassState σ → Prop
  | start : MockReachable host transport m snapshot w
      (.new (forkEnvOf (.ledger m.ledgerInfo snapshot)) m.ledgerInfo.protocolVersion)
      (.new m.coverage m.ledgerInfo.protocolVersion, w)
  | step {fork : MockFork} {st : PassState σ} (op : MockOp) :
      MockReachable host transport m snapshot w fork st →
      MockReachable host transport m snapshot w
        ((mockStep host fork op).run (serve transport) st).1
        ((mockStep host fork op).run (serve transport) st).2

end Kanatoko
