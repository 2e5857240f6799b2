import Kanatoko.Capture.Files
import Kanatoko.Strict.Fork

/-!
# The strict workflow

`run` of `tools/kanatoko.rs`: a candidate is registered on a fork of a captured pool, a swap is
rehearsed on it, and the fork is put back. The printed report is kept as a structure; what it is
printed as is left out.
-/

namespace Kanatoko

open Fallible StrictFork

/-- The kinds of `ScVal` that the workflow builds or takes apart. -/
class ScValCrate where
  vec? : ScVal → Option (List ScVal)
  address? : ScVal → Option ScAddress
  /-- The high and the low half of a `U128`. -/
  u128? : ScVal → Option (UInt64 × UInt64)
  ofAddress : ScAddress → ScVal
  ofU32 : UInt32 → ScVal
  ofU128 : UInt64 × UInt64 → ScVal
  ofI128 : Int64 × UInt64 → ScVal

namespace Workflow

/-- `u128`, and the bits of an `i128`. -/
abbrev U128 := BitVec 128

inductive Error where
  | message (text : String)
  | capture (error : CaptureError)
  /-- The `io::Error` of `fs::read`. -/
  | read
  | strict (error : StrictForkError)
  | fixture (error : FixtureError)
  /-- "contract invocation failed", with the outcome. -/
  | invocationFailed (outcome : InvokeOutcome)
  /-- `i128::try_from`. -/
  | tryFromInt
  /-- `Address::from_str` of the SDK. -/
  | panicked
  deriving DecidableEq

abbrev RunM := EStateM Error StrictFork

/-- An operation of the fork, followed by `?`. -/
def onFork {α : Type} (x : StrictM α) : RunM α :=
  focus (fun fork => fork) (fun fork _ => fork) .strict x

/-! ## Values -/

section Values

variable [ScValCrate]

open ScValCrate

def scVec (value : ScVal) : List ScVal := (vec? value).getD []

def scU128Value (value : ScVal) : Except Error U128 := do
  let (hi, lo) ← orError (.message "result is not u128") (u128? value)
  pure (hi.toBitVec.setWidth 128 <<< 64 ||| lo.toBitVec.setWidth 128)

def scU128Vec (value : ScVal) : Except Error (List U128) := (scVec value).mapM scU128Value

def scU128 (value : U128) : ScVal :=
  ofU128 (.ofBitVec (value.extractLsb' 64 64), .ofBitVec (value.extractLsb' 0 64))

def scI128 (value : U128) : ScVal :=
  ofI128 (.ofBitVec (value.extractLsb' 64 64), .ofBitVec (value.extractLsb' 0 64))

/-- `i128::try_from`, of which the bits are kept. -/
def i128TryFrom (value : U128) : Except Error U128 := do
  ensure (value.toNat < 2 ^ 127) .tryFromInt
  pure value

end Values

/-- `result` of a receipt. -/
def receiptResult (receipt : Receipt) : Except Error ScVal :=
  match receipt.outcome with
  | .success value => pure value
  | .failure _ _ => throw (.message "receipt has no successful result")

/-! ## The candidate -/

def wrapperSha256 : Bytes32 := ⟨#[
  0xe4, 0xd6, 0x26, 0xc4, 0x96, 0x0b, 0xc8, 0x79, 0xdd, 0x44, 0xc8, 0x24, 0x3c, 0x04, 0xb8, 0x90,
  0xa9, 0xbb, 0x0d, 0xdb, 0x7e, 0x13, 0x92, 0xd8, 0x4a, 0x5b, 0x65, 0x1c, 0x15, 0xaa, 0xab, 0x4f],
  rfl⟩

inductive CandidateArtifact where
  | bundled
  | file (path : String) (sha256 : Bytes32)
  deriving DecidableEq

namespace CandidateArtifact

/-- `bytes`, with the module that the program includes. -/
def bytes (wrapperWasm : Bytes) : CandidateArtifact → EStateM Error FileState Bytes
  | bundled => pure wrapperWasm
  | file path _ =>
    focus FileState.disk FileState.withDisk (fun _ => .read) (Disk.read (Disk.join [] path))

def sha256 : CandidateArtifact → Bytes32
  | bundled => wrapperSha256
  | file _ sha256 => sha256

end CandidateArtifact

/-! ## Requests -/

def defaultPool : String := "CA6PUJLBYKZKUEKLZJMKBZLEKP2OTHANDEOWSFF44FTSYLKQPIICCJBE"

def mainnetPassphrase : String := "Public Global Stellar Network ; September 2015"

def oneToken : U128 := 10000000

/-- `ScAddress::Contract(ContractId(Hash([byte; 32])))`. -/
def repeatedContract (byte : UInt8) : ScAddress := .contract (.replicate 32 byte)

def candidateAddress : ScAddress := repeatedContract 0x6c

def userAddress : ScAddress := repeatedContract 0x4b

/-- `symbol`, of a name that is valid. -/
def symbol (value : String) : Bytes := asBytes value

def call (contract : ScAddress) (function : String) (args : List ScVal) : InvokeRequest :=
  ⟨contract, symbol function, args⟩

def missingRequest : InvokeRequest := call (repeatedContract 0xee) "missing" []

section Requests

variable [ScValCrate]

open ScValCrate

def quoteRequest (candidate : ScAddress) : InvokeRequest :=
  call candidate "estimate_swap" [ofU32 1, ofU32 0, scU128 oneToken]

def mintRequest (usdc user : ScAddress) (minted : U128) : InvokeRequest :=
  call usdc "mint" [ofAddress user, scI128 minted]

def swapRequest (candidate user : ScAddress) (minted : U128) : InvokeRequest :=
  call candidate "swap" [ofAddress user, ofU32 1, ofU32 0, scU128 minted, scU128 0]

end Requests

/-! ## Steps -/

variable [Crates] [SnapshotCrate]

def invokeSuccess (host : Host) (request : InvokeRequest) (execution : ExecutionMode)
    (auth : AuthMode) : RunM Receipt := do
  let receipt ← onFork (invoke host request execution auth)
  lift (ensure (receipt.outcome.isSuccess = true) (.invocationFailed receipt.outcome))
  pure receipt

def isUnknownLedgerKeys : Except StrictForkError Receipt → Bool
  | .error (.unknownLedgerKeys _ _) => true
  | _ => false

def unknownFailsClosed (host : Host) : RunM Bool := do
  let fork ← get
  let before ← lift (fork.ledgerDigest.mapError .fixture)
  let (outcome, fork) := resultOf (invoke host missingRequest .apply (.enforce [])) fork
  set fork
  if isUnknownLedgerKeys outcome = true then do
    let digest ← lift (fork.ledgerDigest.mapError .fixture)
    pure (decide (digest = before))
  else pure false

structure Protocols where
  network : UInt32
  executed : UInt32
  deriving DecidableEq, Repr

def Protocols.of (fork : StrictFork) : Protocols :=
  ⟨fork.networkProtocolVersion, executedProtocolVersion fork.networkProtocolVersion⟩

/-- The fields of the printed report that are not constant. -/
structure Report where
  ledger : UInt32
  candidateRegistration : CandidateRegistration
  mintedUsdc : U128
  receivedXlm : U128
  quoteBefore : U128
  quoteAfter : U128
  restoredQuote : U128
  unknownFailClosed : Bool
  upstreamReads : UInt64
  receipts : List Receipt
  protocols : Option Protocols
  deriving DecidableEq

/-! ## The workflow -/

variable [ScValCrate]

open ScValCrate

def quoteReceipt (host : Host) (candidate : ScAddress) : RunM Receipt :=
  invokeSuccess host (quoteRequest candidate) .preview (.enforce [])

/-- A quote, with its receipt. -/
def quote (host : Host) (candidate : ScAddress) : RunM (Receipt × U128) := do
  let receipt ← quoteReceipt host candidate
  let value ← lift (receiptResult receipt)
  let quote ← lift (scU128Value value)
  pure (receipt, quote)

/-- What the workflow reads from the candidate before it moves anything. -/
structure Inspection where
  tokensReceipt : Receipt
  usdc : ScAddress
  quoteReceipt : Receipt
  quote : U128
  reservesReceipt : Receipt
  minted : U128

/-- A tenth of the second reserve, which has to be more than one token. -/
def mintedOf (reserves : List U128) : Except Error U128 := do
  let reserve ← orError (.message "candidate get_reserves did not return two reserves")
    reserves[1]?
  ensure (oneToken < reserve / 10)
    (.message "10% of captured USDC reserve is not greater than one token")
  i128TryFrom (reserve / 10)

def inspect (host : Host) (candidate : ScAddress) : RunM Inspection := do
  let tokensReceipt ← invokeSuccess host (call candidate "get_tokens" []) .preview (.enforce [])
  let tokens ← lift (receiptResult tokensReceipt)
  let usdc ← lift (orError (.message "candidate get_tokens did not return a second address")
    ((scVec tokens)[1]?.bind address?))
  let (quoteReceipt, quote) ← quote host candidate
  let reservesReceipt ← invokeSuccess host (call candidate "get_reserves" []) .preview
    (.enforce [])
  let reservesResult ← lift (receiptResult reservesReceipt)
  let reserves ← lift (scU128Vec reservesResult)
  let minted ← lift (mintedOf reserves)
  pure ⟨tokensReceipt, usdc, quoteReceipt, quote, reservesReceipt, minted⟩

/-- What the workflow does to the pool. -/
structure Trade where
  mint : Receipt
  preview : Receipt
  swap : Receipt
  received : U128

def trade (host : Host) (candidate : ScAddress) (inspection : Inspection) : RunM Trade := do
  let mint ← invokeSuccess host (mintRequest inspection.usdc userAddress inspection.minted)
    .apply .record
  let swapRequest := swapRequest candidate userAddress inspection.minted
  let preview ← invokeSuccess host swapRequest .preview .record
  let exactAuth := preview.authorization
  let swap ← invokeSuccess host swapRequest .apply (.mockExact exactAuth)
  let swapResult ← lift (receiptResult swap)
  let received ← lift (scU128Value swapResult)
  pure ⟨mint, preview, swap, received⟩

/-- `run` on the fork, from the registration to the report. -/
def workflow (host : Host) (ledger : UInt32) (pool : ScAddress) (wasm : Bytes) (sha256 : Bytes32)
    (allowNewerProtocol : Bool) : RunM Report := do
  let registration ← onFork (registerCandidate host candidateAddress wasm sha256 [ofAddress pool])
  let registered ← get
  let checkpoint := registered.checkpoint
  let inspection ← inspect host candidateAddress
  let trade ← trade host candidateAddress inspection
  let (quoteAfterReceipt, quoteAfter) ← quote host candidateAddress
  lift (ensure (quoteAfter < inspection.quote)
    (.message "post-swap 1 USDC -> XLM quote did not decrease"))
  onFork (revert checkpoint)
  let (restoredReceipt, restoredQuote) ← quote host candidateAddress
  lift (ensure (restoredQuote = inspection.quote)
    (.message "checkpoint revert did not restore the initial quote"))
  let unknownFailClosed ← unknownFailsClosed host
  let receipts := [inspection.tokensReceipt, inspection.quoteReceipt, inspection.reservesReceipt,
    trade.mint, trade.preview, trade.swap, quoteAfterReceipt, restoredReceipt]
  lift (ensure (∀ receipt ∈ receipts, receipt.upstreamReads = 0)
    (.message "strict offline run reported an upstream read"))
  let fork ← get
  pure
    { ledger := ledger
      candidateRegistration := registration
      mintedUsdc := inspection.minted
      receivedXlm := trade.received
      quoteBefore := inspection.quote
      quoteAfter := quoteAfter
      restoredQuote := restoredQuote
      unknownFailClosed := unknownFailClosed
      upstreamReads := 0
      receipts := receipts
      protocols := if allowNewerProtocol then some (.of fork) else none }

variable [BundleCrates]

/-- `run`, up to the printing. The fork is the first of its process. -/
def run (host : Host) (wrapperWasm : Bytes) (fixturePath : Disk.Path) (candidate : CandidateArtifact) (allowNewerProtocol : Bool) :
    EStateM Error FileState Report := do
  let captured ← focus (fun files => files) (fun files _ => files) .capture
    (CapturedFixture.fromFileWithPolicy fixturePath mainnetPassphrase
      (if allowNewerProtocol then .allowNewer else .exact))
  let pool ← lift (orError .panicked (addressFromStr defaultPool))
  let wasm ← candidate.bytes wrapperWasm
  match workflow host captured.provenance.ledgerSequence pool wasm candidate.sha256
      allowNewerProtocol (.fromCaptured 1 captured.fixture.snapshot captured.coverage) with
  | .ok report _ => pure report
  | .error e _ => throw e

end Workflow

end Kanatoko
