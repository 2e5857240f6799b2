import Kanatoko.Capture.Builder

/-!
# Capture bundles

The file format of a captured fixture: the schema-2 bundle it is written as, the schema-1
bundle it may still be read from, and every check a reader makes.
-/

namespace Kanatoko

open Fallible

def captureBundleSchemaVersion : UInt32 := 2

structure BundleReport where
  discoveryRounds : UInt32
  presentEntries : UInt64
  absentEntries : UInt64
  finalReplayRpcReads : UInt64
  deriving DecidableEq, Repr

structure BundleProvenance where
  rpcOrigin : String
  networkPassphrase : String
  ledgerSequence : UInt32
  ledgerHash : String
  protocolVersion : UInt32
  deriving DecidableEq, Repr

structure CaptureBundleV2 where
  schemaVersion : UInt32
  ledgerSnapshot : LedgerSnapshot
  knownAbsent : List String
  report : BundleReport
  provenance : BundleProvenance
  ledgerDigest : String
  inventoryDigest : String
  canonicalDigest : String
  deriving DecidableEq, Repr

structure LegacyCaptureBundleV1 where
  schemaVersion : UInt32
  rootContract : String
  ledgerSnapshot : LedgerSnapshot
  knownAbsent : List String
  report : BundleReport
  provenance : BundleProvenance
  ledgerDigest : String
  inventoryDigest : String
  canonicalDigest : String
  deriving DecidableEq, Repr

structure BundleDigests where
  ledger : Bytes32
  inventory : Bytes32
  deriving DecidableEq, Repr

/-- `serde_json` on the bundle types, and `Address::from_str` of the SDK. -/
class BundleCrates where
  toVecPretty : CaptureBundleV2 → Option Bytes
  bundleVersionFromSlice : Bytes → Option UInt32
  captureBundleFromSlice : Bytes → Option CaptureBundleV2
  legacyBundleFromSlice : Bytes → Option LegacyCaptureBundleV1
  /-- `none` when the SDK panics. -/
  addressFromStr : String → Option ScAddress

export BundleCrates (toVecPretty bundleVersionFromSlice captureBundleFromSlice
  legacyBundleFromSlice addressFromStr)

/-- What is written can be read back, with the schema version it was written with. -/
class LawfulBundleCrates [BundleCrates] : Prop where
  captureBundleFromSlice_toVecPretty : ∀ {bundle : CaptureBundleV2} {bytes : Bytes},
    toVecPretty bundle = some bytes → captureBundleFromSlice bytes = some bundle
  bundleVersionFromSlice_toVecPretty : ∀ {bundle : CaptureBundleV2} {bytes : Bytes},
    toVecPretty bundle = some bytes → bundleVersionFromSlice bytes = some bundle.schemaVersion

/-! ## Hexadecimal digests -/

/-- `decode_hex_nibble`, of an ASCII character. -/
def decodeHexNibble (value : Char) : Except CaptureError UInt8 :=
  if '0' ≤ value ∧ value ≤ '9' then pure (UInt8.ofNat (value.toNat - '0'.toNat))
  else if 'a' ≤ value ∧ value ≤ 'f' then pure (UInt8.ofNat (value.toNat - 'a'.toNat + 10))
  else throw .malformedCaptureBundle

def decodeHexPairs : List Char → Except CaptureError Bytes
  | high :: low :: rest => do
    let high ← decodeHexNibble high
    let low ← decodeHexNibble low
    let bytes ← decodeHexPairs rest
    pure ((high <<< 4 ||| low) :: bytes)
  | _ => pure []

/-- `str::len`: the length in UTF-8 bytes. -/
def strLen (value : String) : Nat := (value.toList.map Char.utf8Size).sum

def decodeHexDigest (value : String) : Except CaptureError Bytes32 := do
  ensure (strLen value = 64 ∧ ∀ c ∈ value.toList, c.toNat < 128) .malformedCaptureBundle
  let bytes ← decodeHexPairs value.toList
  let decoded ← orError .malformedCaptureBundle (bytes32? bytes)
  ensure (hex decoded.toList = value) .malformedCaptureBundle
  pure decoded

variable [Crates]

/-! ## Canonical digests -/

def bundleDigestDomainV2 : Bytes := asBytes "KANATOKO\x00CAPTURE-BUNDLE\x00V2\x00"
def legacyBundleDigestDomainV1 : Bytes := asBytes "KANATOKO\x00CAPTURE-BUNDLE\x00V1\x00"

/-- One known-absent key as the bundle digest takes it. -/
def absentKeyBytes (encoded : String) : Except CaptureError Bytes := do
  let key ← orError .malformedCaptureBundle (base64Decode encoded)
  pure (lengthPrefixed key)

/-- What `update_bundle_digest` feeds to the digest. -/
def bundleDigestBytes (knownAbsent : List String) (report : BundleReport)
    (provenance : BundleProvenance) (ledgerDigest inventoryDigest : Bytes32) :
    Except CaptureError Bytes := do
  let absent ← knownAbsent.mapM absentKeyBytes
  pure (toBeBytes 8 knownAbsent.length ++ absent.flatten
    ++ toBeBytes 4 report.discoveryRounds.toNat ++ toBeBytes 8 report.presentEntries.toNat
    ++ toBeBytes 8 report.absentEntries.toNat ++ toBeBytes 8 report.finalReplayRpcReads.toNat
    ++ lengthPrefixed (asBytes provenance.rpcOrigin)
    ++ lengthPrefixed (asBytes provenance.networkPassphrase)
    ++ toBeBytes 4 provenance.ledgerSequence.toNat
    ++ lengthPrefixed (asBytes provenance.ledgerHash)
    ++ toBeBytes 4 provenance.protocolVersion.toNat
    ++ ledgerDigest.toList ++ inventoryDigest.toList)

def canonicalBundleDigest (knownAbsent : List String) (report : BundleReport)
    (provenance : BundleProvenance) (ledgerDigest inventoryDigest : Bytes32) :
    Except CaptureError Bytes32 := do
  let bytes ← bundleDigestBytes knownAbsent report provenance ledgerDigest inventoryDigest
  pure (sha256 (bundleDigestDomainV2 ++ toBeBytes 4 captureBundleSchemaVersion.toNat ++ bytes))

def legacyCanonicalBundleDigest (rootContract : String) (knownAbsent : List String)
    (report : BundleReport) (provenance : BundleProvenance)
    (ledgerDigest inventoryDigest : Bytes32) : Except CaptureError Bytes32 := do
  let bytes ← bundleDigestBytes knownAbsent report provenance ledgerDigest inventoryDigest
  pure (sha256 (legacyBundleDigestDomainV1 ++ toBeBytes 4 1
    ++ lengthPrefixed (asBytes rootContract) ++ bytes))

/-! ## Validation -/

def validateBundleMetadata (ledgerSnapshot : LedgerSnapshot) (report : BundleReport)
    (provenance : BundleProvenance) (expectedNetworkPassphrase : String) :
    Except CaptureError Unit := do
  ensure (provenance.networkPassphrase = expectedNetworkPassphrase) .networkMismatch
  let origin ← redactRpcOrigin provenance.rpcOrigin
  ensure (origin = provenance.rpcOrigin) .malformedCaptureBundle
  ensure (provenance.ledgerSequence = ledgerSnapshot.sequenceNumber
      ∧ provenance.protocolVersion = ledgerSnapshot.protocolVersion
      ∧ provenance.ledgerHash ≠ ""
      ∧ report.discoveryRounds.toNat ≠ 0
      ∧ report.discoveryRounds.toNat ≤ maxDiscoveryRounds
      ∧ report.finalReplayRpcReads = 0)
    .captureBundleIntegrity

def validateBundleEnvelope (bundle : CaptureBundleV2) (expectedNetworkPassphrase : String) :
    Except CaptureError BundleDigests := do
  ensure (bundle.schemaVersion = captureBundleSchemaVersion)
    (.unsupportedCaptureBundleSchema bundle.schemaVersion captureBundleSchemaVersion)
  validateBundleMetadata bundle.ledgerSnapshot bundle.report bundle.provenance
    expectedNetworkPassphrase
  let ledger ← decodeHexDigest bundle.ledgerDigest
  let inventory ← decodeHexDigest bundle.inventoryDigest
  let actualCanonical ← decodeHexDigest bundle.canonicalDigest
  let expectedCanonical ← canonicalBundleDigest bundle.knownAbsent bundle.report
    bundle.provenance ledger inventory
  ensure (actualCanonical = expectedCanonical) .captureBundleIntegrity
  pure ⟨ledger, inventory⟩

def validateLegacyBundleEnvelope (bundle : LegacyCaptureBundleV1)
    (expectedNetworkPassphrase : String) : Except CaptureError BundleDigests := do
  ensure (bundle.schemaVersion = 1)
    (.unsupportedCaptureBundleSchema bundle.schemaVersion captureBundleSchemaVersion)
  validateBundleMetadata bundle.ledgerSnapshot bundle.report bundle.provenance
    expectedNetworkPassphrase
  let ledger ← decodeHexDigest bundle.ledgerDigest
  let inventory ← decodeHexDigest bundle.inventoryDigest
  let actualCanonical ← decodeHexDigest bundle.canonicalDigest
  let expectedCanonical ← legacyCanonicalBundleDigest bundle.rootContract bundle.knownAbsent
    bundle.report bundle.provenance ledger inventory
  ensure (actualCanonical = expectedCanonical) .captureBundleIntegrity
  pure ⟨ledger, inventory⟩

/-- The loop over the snapshot entries. -/
def presentCoverage : List SnapshotEntry → Coverage → Except CaptureError Coverage
  | [], coverage => pure coverage
  | (_, (entry, liveUntil)) :: rest, coverage => do
    let key := entry.toKey
    ensure (isStateArchivalKey key = false) .malformedCaptureBundle
    let id ← keyId key
    ensure (id ∉ coverage) .captureBundleIntegrity
    presentCoverage rest (coverage.insert id (.present entry liveUntil))

/-- One known-absent key: canonical base64 of the canonical XDR of a key. -/
def decodeAbsent (encoded : String) : Except CaptureError KeyId := do
  let bytes ← orError .malformedCaptureBundle (base64Decode encoded)
  ensure (base64Encode bytes = encoded) .malformedCaptureBundle
  let key ← orError .malformedCaptureBundle (ledgerKeyFromXdr bytes)
  let id ← keyId key
  ensure (id = bytes ∧ isStateArchivalKey key = false) .malformedCaptureBundle
  pure bytes

/-- The loop over the known-absent keys, which stand in strictly ascending order. -/
def absentCoverage : List String → Option KeyId → Coverage → Except CaptureError Coverage
  | [], _, coverage => pure coverage
  | encoded :: rest, previous, coverage => do
    let bytes ← decodeAbsent encoded
    ensure (∀ p ∈ previous, compare p bytes = .lt) .malformedCaptureBundle
    ensure (bytes ∉ coverage) .captureBundleIntegrity
    absentCoverage rest (some bytes) (coverage.insert bytes .absent)

def bundleCoverage (snapshot : LedgerSnapshot) (knownAbsent : List String) :
    Except CaptureError Coverage := do
  let coverage ← presentCoverage snapshot.ledgerEntries ∅
  absentCoverage knownAbsent none coverage

/-- Replaces whatever error a check raised. -/
def orIntegrity (check : Except CaptureError Unit) : Except CaptureError Unit :=
  check.mapError fun _ => .captureBundleIntegrity

def validateBundleCoverage (coverage : Coverage) (report : BundleReport)
    (expectedInventoryDigest : Bytes32) (ledgerSequence maxEntryTtl : UInt32) :
    Except CaptureError (UInt64 × UInt64) := do
  orIntegrity (validateCoverage coverage ledgerSequence maxEntryTtl)
  orIntegrity (ensureExecutableClosurePresent coverage)
  let presentEntries := usize (presentCount coverage)
  let absentEntries := usize (absentCount coverage)
  let digest ← inventoryDigest coverage
  ensure (digest = expectedInventoryDigest ∧ presentEntries = report.presentEntries
      ∧ absentEntries = report.absentEntries)
    .captureBundleIntegrity
  pure (presentEntries, absentEntries)

def ensureLegacyRootPresent (root : ScAddress) (coverage : Coverage) :
    Except CaptureError Unit := do
  let id ← keyId (contractInstanceKey root)
  ensure (((coverage[id]?.bind LookupState.executable?).isSome) = true) .captureBundleIntegrity

/-! ## Reading and writing -/

def BundleProvenance.toCapture (p : BundleProvenance) : CaptureProvenance :=
  ⟨p.rpcOrigin, p.networkPassphrase, p.ledgerSequence, p.ledgerHash, p.protocolVersion⟩

def CaptureProvenance.toBundle (p : CaptureProvenance) : BundleProvenance :=
  ⟨p.rpcOrigin, p.networkPassphrase, p.ledgerSequence, p.ledgerHash, p.protocolVersion⟩

namespace CapturedFixture

def knownAbsentKeys (f : CapturedFixture) : List KeyId :=
  f.coverage.toList.filterMap fun item =>
    match item.2 with
    | .absent => some item.1
    | .present _ _ => none

def toBundle (f : CapturedFixture) : Except CaptureError CaptureBundleV2 := do
  let knownAbsent := f.knownAbsentKeys.map base64Encode
  let ledgerDigest := f.fixture.ledgerDigest
  let inventoryDigest ← inventoryDigest f.coverage
  ensure (inventoryDigest = f.report.inventoryDigest) .internalInvariant
  -- the conversions of the counts cannot fail: a `usize` has 64 bits
  ensure (f.report.discoveryRounds < 2 ^ 32) .internalInvariant
  let report : BundleReport :=
    { discoveryRounds := UInt32.ofNat f.report.discoveryRounds
      presentEntries := f.report.presentEntries
      absentEntries := f.report.absentEntries
      finalReplayRpcReads := f.report.finalReplayRpcReads }
  let provenance := f.provenance.toBundle
  let canonicalDigest ← canonicalBundleDigest knownAbsent report provenance ledgerDigest
    inventoryDigest
  pure
    { schemaVersion := captureBundleSchemaVersion
      ledgerSnapshot := f.fixture.snapshot
      knownAbsent := knownAbsent
      report := report
      provenance := provenance
      ledgerDigest := hex ledgerDigest.toList
      inventoryDigest := hex inventoryDigest.toList
      canonicalDigest := hex canonicalDigest.toList }

/-- The report and provenance of a fixture that was read from a bundle. -/
def ofParts (fixture : FrozenFixture) (coverage : Coverage) (report : BundleReport)
    (provenance : BundleProvenance) (inventory : Bytes32) (counts : UInt64 × UInt64) :
    CapturedFixture where
  fixture := fixture
  coverage := coverage
  report :=
    { discoveryRounds := report.discoveryRounds.toNat
      presentEntries := counts.1
      absentEntries := counts.2
      inventoryDigest := inventory
      finalReplayRpcReads := 0 }
  provenance := provenance.toCapture

def fromBundle (bundle : CaptureBundleV2) (expectedNetworkPassphrase : String)
    (policy : ProtocolPolicy) : Except CaptureError CapturedFixture := do
  let digests ← validateBundleEnvelope bundle expectedNetworkPassphrase
  let fixture ← (FrozenFixture.fromSnapshotWithPolicy bundle.ledgerSnapshot
    expectedNetworkPassphrase policy).mapError .fixture
  ensure (fixture.ledgerDigest = digests.ledger) .captureBundleIntegrity
  let coverage ← bundleCoverage fixture.snapshot bundle.knownAbsent
  let counts ← validateBundleCoverage coverage bundle.report digests.inventory
    fixture.snapshot.sequenceNumber fixture.snapshot.maxEntryTtl
  pure (ofParts fixture coverage bundle.report bundle.provenance digests.inventory counts)

variable [BundleCrates]

def parseLegacyContractAddress (value : String) : Except CaptureError ScAddress := do
  let address ← orError .malformedCaptureBundle (addressFromStr value)
  match address with
  | .contract _ => pure address
  | _ => throw .malformedCaptureBundle

def fromLegacyBundle (bundle : LegacyCaptureBundleV1) (expectedNetworkPassphrase : String)
    (policy : ProtocolPolicy) : Except CaptureError CapturedFixture := do
  let digests ← validateLegacyBundleEnvelope bundle expectedNetworkPassphrase
  let fixture ← (FrozenFixture.fromSnapshotWithPolicy bundle.ledgerSnapshot
    expectedNetworkPassphrase policy).mapError .fixture
  ensure (fixture.ledgerDigest = digests.ledger) .captureBundleIntegrity
  let root ← parseLegacyContractAddress bundle.rootContract
  let coverage ← bundleCoverage fixture.snapshot bundle.knownAbsent
  orIntegrity (ensureLegacyRootPresent root coverage)
  let counts ← validateBundleCoverage coverage bundle.report digests.inventory
    fixture.snapshot.sequenceNumber fixture.snapshot.maxEntryTtl
  pure (ofParts fixture coverage bundle.report bundle.provenance digests.inventory counts)

def fromBundleBytes (bytes : Bytes) (expectedNetworkPassphrase : String)
    (policy : ProtocolPolicy) : Except CaptureError CapturedFixture := do
  let version ← orError .malformedCaptureBundle (bundleVersionFromSlice bytes)
  if version = captureBundleSchemaVersion then do
    let bundle ← orError .malformedCaptureBundle (captureBundleFromSlice bytes)
    fromBundle bundle expectedNetworkPassphrase policy
  else if version = 1 then do
    let bundle ← orError .malformedCaptureBundle (legacyBundleFromSlice bytes)
    fromLegacyBundle bundle expectedNetworkPassphrase policy
  else throw (.unsupportedCaptureBundleSchema version captureBundleSchemaVersion)

/-- The bytes `write_file` hands to `atomic_write`. -/
def toBytes (f : CapturedFixture) : Except CaptureError Bytes := do
  let bundle ← f.toBundle
  orError .malformedCaptureBundle (toVecPretty bundle)

end CapturedFixture

end Kanatoko
