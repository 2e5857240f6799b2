import Kanatoko.Fixture

/-!
# The errors of capture and of strict forks

`CaptureError` and `StrictForkError` as the program declares them. The `io::Error` behind a
bundle I/O error is left out: nothing branches on it.
-/

namespace Kanatoko

abbrev KeyId := Bytes

inductive CaptureError where
  | invalidRpcUrl
  | networkMismatch
  | unsupportedProtocol (found supported : UInt32)
  | transport (operation : String)
  | malformedRpc (operation : String)
  | incoherentLedger (attempts : Nat)
  | missingStateArchival
  | missingExecutableReference
  | malformedExecutableReference
  | missingReferencedCode
  | executableClosureLimit (rounds : Nat)
  | scenarioPanicked
  | fixedPointLimit (rounds : Nat)
  | unknownLedgerKeys (count : Nat)
  | captureBundleIo (operation : String)
  | unsupportedCaptureBundleSchema (found supported : UInt32)
  | malformedCaptureBundle
  | captureBundleIntegrity
  | hostInspection
  | internalInvariant
  | fixture (error : FixtureError)
  | xdr
  deriving DecidableEq, Repr

def UnsupportedProtocol.toCaptureError (e : UnsupportedProtocol) : CaptureError :=
  .unsupportedProtocol e.found e.supported

inductive StrictForkError where
  | unknownLedgerKeys (count : Nat) (keys : List KeyId)
  | authTreeMismatch
  | checkpointMismatch
  | candidateAddressNotContract
  | candidateAddressOccupied
  | wasmHashMismatch (expected actual : Bytes32)
  | candidateRegistrationFailed
  | invalidInvocationXdr
  | invalidAuthorizationEntries
  | hostInspection
  | xdr
  | fixture (error : FixtureError)
  deriving DecidableEq, Repr

end Kanatoko
