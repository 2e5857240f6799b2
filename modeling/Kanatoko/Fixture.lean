import Kanatoko.Ledger.Snapshot
import Kanatoko.Lib.Ordered

/-!
# Frozen fixtures

The protocol policy, the canonical ledger digest, and the validation of a ledger snapshot
before any environment exists (`src/fixture.rs`).
-/

namespace Kanatoko

open Fallible Ordered

/-! ## Protocol policy -/

/-- `soroban_env_host::VERSION.interface.protocol` of the pinned Host 29.0.0. -/
def supportedProtocolVersion : UInt32 := 29

def newerProtocolVersion : UInt32 := supportedProtocolVersion + 1

inductive ProtocolPolicy where
  | exact
  | allowNewer
  deriving DecidableEq, Repr

structure UnsupportedProtocol where
  found : UInt32
  supported : UInt32
  deriving DecidableEq, Repr

def ProtocolPolicy.check (policy : ProtocolPolicy) (found : UInt32) :
    Except UnsupportedProtocol Unit :=
  ensure (found = supportedProtocolVersion ∨ policy = .allowNewer ∧ found = newerProtocolVersion)
    ⟨found, supportedProtocolVersion⟩

/-- The ledger protocol handed to the Host for a network ledger protocol. -/
def executedProtocolVersion (networkProtocolVersion : UInt32) : UInt32 :=
  if networkProtocolVersion = newerProtocolVersion then supportedProtocolVersion
  else networkProtocolVersion

/-! ## The canonical ledger digest -/

inductive FixtureError where
  | unsupportedProtocol (found supported : UInt32)
  | networkMismatch (expected found : Bytes32)
  | ledgerKeyMismatch (index : Nat)
  | duplicateLedgerKey (keyXdr : Bytes)
  | xdr
  deriving DecidableEq, Repr

def UnsupportedProtocol.toFixtureError (e : UnsupportedProtocol) : FixtureError :=
  .unsupportedProtocol e.found e.supported

def ledgerDigestDomainV1 : Bytes := asBytes "KANATOKO\x00LEDGER-SNAPSHOT\x00V1\x00"

structure EncodedEntry where
  keyXdr : Bytes
  entryXdr : Bytes
  liveUntil : Option UInt32
  deriving DecidableEq, Repr

variable [Crates]

/-- One turn of the encoding loop, at position `index`. -/
def encodeEntry (index : Nat) : SnapshotEntry → Except FixtureError EncodedEntry
  | (key, (entry, liveUntil)) => do
    ensure (key = entry.toKey) (.ledgerKeyMismatch index)
    let keyXdr ← orError .xdr (ledgerKeyToXdr key)
    let entryXdr ← orError .xdr (ledgerEntryToXdr entry)
    pure ⟨keyXdr, entryXdr, liveUntil⟩

def encodeEntries : Nat → List SnapshotEntry → Except FixtureError (List EncodedEntry)
  | _, [] => pure []
  | index, entry :: rest => do
    let encoded ← encodeEntry index entry
    let encodedRest ← encodeEntries (index + 1) rest
    pure (encoded :: encodedRest)

/-- A value behind its length, as every digest writes it. -/
def lengthPrefixed (value : Bytes) : Bytes := toBeBytes 8 value.length ++ value

/-- An optional live-until ledger behind a tag. -/
def taggedLiveUntil : Option UInt32 → Bytes
  | some sequence => 1 :: toBeBytes 4 sequence.toNat
  | none => [0]

def EncodedEntry.digestBytes (e : EncodedEntry) : Bytes :=
  lengthPrefixed e.keyXdr ++ lengthPrefixed e.entryXdr ++ taggedLiveUntil e.liveUntil

/-- The bytes the ledger digest is taken of. -/
def ledgerDigestBytes (info : LedgerInfo) (encoded : List EncodedEntry) : Bytes :=
  ledgerDigestDomainV1 ++ toBeBytes 4 info.protocolVersion.toNat
    ++ toBeBytes 4 info.sequenceNumber.toNat ++ toBeBytes 8 info.timestamp.toNat
    ++ info.networkId.toList ++ toBeBytes 4 info.baseReserve.toNat
    ++ toBeBytes 4 info.minPersistentEntryTtl.toNat ++ toBeBytes 4 info.minTempEntryTtl.toNat
    ++ toBeBytes 4 info.maxEntryTtl.toNat ++ toBeBytes 8 encoded.length
    ++ encoded.flatMap EncodedEntry.digestBytes

/-- The entries of a snapshot, encoded and in the order of their keys. -/
def canonicalEntries (snapshot : LedgerSnapshot) : Except FixtureError (List EncodedEntry) := do
  let encoded ← encodeEntries 0 snapshot.ledgerEntries
  let sorted := sortByKey EncodedEntry.keyXdr encoded
  match firstDuplicate EncodedEntry.keyXdr sorted with
  | some keyXdr => throw (.duplicateLedgerKey keyXdr)
  | none => pure sorted

def canonicalLedgerDigest (snapshot : LedgerSnapshot) : Except FixtureError Bytes32 := do
  let encoded ← canonicalEntries snapshot
  pure (sha256 (ledgerDigestBytes snapshot.toLedgerInfo encoded))

/-! ## Frozen fixtures -/

structure FrozenFixture where
  snapshot : LedgerSnapshot
  ledgerDigest : Bytes32
  deriving DecidableEq, Repr

def FrozenFixture.fromSnapshotWithPolicy (snapshot : LedgerSnapshot)
    (expectedNetworkPassphrase : String) (policy : ProtocolPolicy) :
    Except FixtureError FrozenFixture := do
  (policy.check snapshot.protocolVersion).mapError UnsupportedProtocol.toFixtureError
  let expectedNetworkId := sha256 (asBytes expectedNetworkPassphrase)
  ensure (snapshot.networkId = expectedNetworkId)
    (.networkMismatch expectedNetworkId snapshot.networkId)
  let ledgerDigest ← canonicalLedgerDigest snapshot
  pure ⟨snapshot, ledgerDigest⟩

end Kanatoko
