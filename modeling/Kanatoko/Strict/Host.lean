import Kanatoko.Errors
import Kanatoko.Lib.Adaptive
import Kanatoko.Ledger.Snapshot
import Kanatoko.Capture.Transport

/-!
# Invocations and the Host

The detached values of `src/strict.rs`, and the Host behind them. The Host is a parameter:
a call or a registration is an adaptive client of the snapshot source, and a function of the
ledger header. What it ends with is what the program reads from the child `Env` afterwards.
-/

namespace Kanatoko

open Adaptive

/-! ## Detached values -/

/-- An authorization tree; the invocation is kept as its XDR. -/
structure AuthorizationTree where
  address : ScAddress
  invocation : Bytes
  deriving DecidableEq, Repr

/-- `SorobanAuthorizationEntry`, as its XDR. -/
structure SorobanAuthorizationEntry where
  xdr : Bytes
  deriving DecidableEq, Repr

inductive AuthMode where
  | record
  | mockExact (expected : List AuthorizationTree)
  | enforce (entries : List SorobanAuthorizationEntry)
  deriving DecidableEq, Repr

inductive AppliedAuthMode where
  | recordMockSatisfied
  | mockExact
  | enforce
  deriving DecidableEq, Repr

inductive ExecutionMode where
  | preview
  | apply
  deriving DecidableEq, Repr

structure InvokeRequest where
  contract : ScAddress
  function : Bytes
  args : List ScVal
  deriving DecidableEq, Repr

inductive InvokeErrorKind where
  | abort
  | contract (code : UInt32)
  | resultConversion
  deriving DecidableEq, Repr

inductive ScError where
  | contract (code : UInt32)
  /-- Any other error, as its XDR. -/
  | other (xdr : Bytes)
  deriving DecidableEq, Repr

inductive InvokeOutcome where
  | success (value : ScVal)
  | failure (error : Option ScError) (kind : InvokeErrorKind)
  deriving DecidableEq, Repr

def InvokeOutcome.isSuccess : InvokeOutcome → Bool
  | success _ => true
  | failure _ _ => false

inductive ContractEventType where
  | system
  | contract
  | diagnostic
  deriving DecidableEq, Repr

structure ContractEvent where
  type : ContractEventType
  xdr : Bytes
  deriving DecidableEq, Repr

/-- A detached event, and an event as the Host lists it. -/
structure DetachedEvent where
  event : ContractEvent
  failedCall : Bool
  deriving DecidableEq, Repr

structure LedgerValue where
  entry : LedgerEntry
  liveUntilLedger : Option UInt32
  deriving DecidableEq, Repr

structure StateChange where
  key : LedgerKey
  before : Option LedgerValue
  after : Option LedgerValue
  deriving DecidableEq, Repr

inductive CandidateInstallMode where
  | localInjection
  deriving DecidableEq, Repr

structure CandidateRegistration where
  address : ScAddress
  wasmSha256 : Bytes32
  mode : CandidateInstallMode
  stateChanges : List StateChange
  beforeDigest : Bytes32
  afterDigest : Bytes32
  upstreamReads : UInt64
  deriving DecidableEq, Repr

inductive ReceiptDisposition where
  | previewed
  | committed
  | rejected
  deriving DecidableEq, Repr

structure Receipt where
  request : InvokeRequest
  outcome : InvokeOutcome
  authMode : AppliedAuthMode
  authorization : List AuthorizationTree
  events : List DetachedEvent
  diagnostics : List DetachedEvent
  stateChanges : List StateChange
  beforeDigest : Bytes32
  afterDigest : Bytes32
  disposition : ReceiptDisposition
  upstreamReads : UInt64
  deriving DecidableEq, Repr

/-! ## The Host -/

/-- A Host `Error` value, as far as `invoke_once` looks into it. -/
structure SdkError where
  isContract : Bool
  code : UInt32
  scError : Option ScError
  deriving DecidableEq, Repr

/-- What `catch_unwind` around `try_invoke_contract` yields. -/
inductive RawCall where
  | panicked
  | value (value : ScVal)
  | conversionFailed
  | error (error : SdkError)
  | abort
  | contract (code : UInt32)
  deriving DecidableEq, Repr

/-- `invoke_outcome` of the call, through the cases of `invoke_once`. -/
def invokeOutcome : RawCall → InvokeOutcome
  | .panicked => .failure none .abort
  | .abort => .failure none .abort
  | .value value => .success value
  | .conversionFailed => .failure none .resultConversion
  | .error error =>
    .failure error.scError (if error.isContract then .contract error.code else .abort)
  | .contract code => .failure (some (.contract code)) (.contract code)

/-- How authorization is set up in the child. -/
inductive ChildAuth where
  | mockAllAuths
  | entries (entries : List SorobanAuthorizationEntry)
  deriving DecidableEq, Repr

/-- What a child `Env` holds when its call has ended. -/
structure ChildEnd (α : Type) where
  result : α
  ledgerInfo : LedgerInfo
  /-- `get_stored_entries`, which the Host may refuse. -/
  storedEntries : Option StoredEntries
  /-- `to_snapshot().auth`, call by call. -/
  auth : List (List AuthorizationTree)
  events : List DetachedEvent
  /-- `get_diagnostic_events`, which the Host may refuse. -/
  diagnostics : Option (List DetachedEvent)

/-- A child on its Host: a client of the snapshot source. -/
abbrev ChildClient (α : Type) := Client LedgerKey (fun _ => LookupAnswer) (ChildEnd α)

structure Host where
  /-- The address, function and arguments of a request convert to Host values. -/
  validInvocation : LedgerInfo → InvokeRequest → Bool
  validAuthorization : LedgerInfo → List SorobanAuthorizationEntry → Bool
  invoke : LedgerInfo → ChildAuth → InvokeRequest → ChildClient RawCall
  validRegistration : LedgerInfo → ScAddress → List ScVal → Bool
  /-- `register_at`; `none` when it panics. -/
  register : LedgerInfo → ScAddress → Bytes → List ScVal → ChildClient (Option ScAddress)

/-- A call does not change the ledger header. -/
structure Host.KeepsHeader (host : Host) : Prop where
  invoke : ∀ info auth request,
    (host.invoke info auth request).AllResults fun childEnd => childEnd.ledgerInfo = info
  register : ∀ info address wasm args,
    (host.register info address wasm args).AllResults fun childEnd => childEnd.ledgerInfo = info

end Kanatoko
