import Kanatoko.Properties.RoundTrip

/-!
# Legacy bundles migrate

A schema-1 bundle and the schema-2 bundle with the same fields pass the same checks, but for
their digest domains and for the root contract that only schema 1 names. What a schema-1
bundle loads as is written as a schema-2 bundle that loads as the same fixture.
-/

namespace Kanatoko

open Fallible

variable [Crates]

/-! ## Bundles that differ in their schema only -/

/-- The fields a schema-1 and a schema-2 bundle have in common are equal. -/
structure SharedFields (bundle : LegacyCaptureBundleV1) (bundle' : CaptureBundleV2) : Prop where
  ledgerSnapshot : bundle.ledgerSnapshot = bundle'.ledgerSnapshot
  knownAbsent : bundle.knownAbsent = bundle'.knownAbsent
  report : bundle.report = bundle'.report
  provenance : bundle.provenance = bundle'.provenance
  ledgerDigest : bundle.ledgerDigest = bundle'.ledgerDigest
  inventoryDigest : bundle.inventoryDigest = bundle'.inventoryDigest

/-- The schema-2 bundle with the fields of a schema-1 bundle. -/
def LegacyCaptureBundleV1.counterpart (bundle : LegacyCaptureBundleV1) (digest : Bytes32) :
    CaptureBundleV2 where
  schemaVersion := captureBundleSchemaVersion
  ledgerSnapshot := bundle.ledgerSnapshot
  knownAbsent := bundle.knownAbsent
  report := bundle.report
  provenance := bundle.provenance
  ledgerDigest := bundle.ledgerDigest
  inventoryDigest := bundle.inventoryDigest
  canonicalDigest := hex digest.toList

omit [Crates] in
theorem sharedFields_counterpart (bundle : LegacyCaptureBundleV1) (digest : Bytes32) :
    SharedFields bundle (bundle.counterpart digest) :=
  ⟨rfl, rfl, rfl, rfl, rfl, rfl⟩

/-- The canonical digest is the schema-1 digest of the fields, whenever they have one. -/
def LegacyCaptureBundleV1.DigestCorrect (bundle : LegacyCaptureBundleV1) : Prop :=
  ∀ ledger inventory digest, decodeHexDigest bundle.ledgerDigest = .ok ledger →
    decodeHexDigest bundle.inventoryDigest = .ok inventory →
    legacyCanonicalBundleDigest bundle.rootContract bundle.knownAbsent bundle.report
      bundle.provenance ledger inventory = .ok digest →
    bundle.canonicalDigest = hex digest.toList

/-- The canonical digest is the schema-2 digest of the fields, whenever they have one. -/
def CaptureBundleV2.DigestCorrect (bundle : CaptureBundleV2) : Prop :=
  ∀ ledger inventory digest, decodeHexDigest bundle.ledgerDigest = .ok ledger →
    decodeHexDigest bundle.inventoryDigest = .ok inventory →
    canonicalBundleDigest bundle.knownAbsent bundle.report bundle.provenance ledger inventory
      = .ok digest →
    bundle.canonicalDigest = hex digest.toList

/-- The fields have a schema-1 digest exactly when they have a schema-2 digest. -/
theorem legacyDigest_ok_iff {rootContract : String} {knownAbsent : List String}
    {report : BundleReport} {provenance : BundleProvenance} {ledger inventory : Bytes32} :
    (∃ digest, legacyCanonicalBundleDigest rootContract knownAbsent report provenance ledger
      inventory = .ok digest) ↔
      ∃ digest, canonicalBundleDigest knownAbsent report provenance ledger inventory
        = .ok digest := by
  constructor
  · rintro ⟨digest, h⟩
    obtain ⟨bytes, hbytes, _⟩ := bind_eq_ok.mp h
    exact ⟨_, bind_eq_ok.mpr ⟨bytes, hbytes, rfl⟩⟩
  · rintro ⟨digest, h⟩
    obtain ⟨bytes, hbytes, _⟩ := bind_eq_ok.mp h
    exact ⟨_, bind_eq_ok.mpr ⟨bytes, hbytes, rfl⟩⟩

/-- An accepted schema-2 bundle has a correct digest. -/
theorem digestCorrect_of_fromBundle {bundle : CaptureBundleV2} {passphrase : String}
    {policy : ProtocolPolicy} {f : CapturedFixture}
    (h : CapturedFixture.fromBundle bundle passphrase policy = .ok f) : bundle.DigestCorrect := by
  obtain ⟨digests, henvelope, _⟩ := fromBundle_eq_ok.mp h
  obtain ⟨_, _, hledger, hinventory, canonical, hcanonical, hdigest⟩ :=
    validateBundleEnvelope_eq_ok.mp henvelope
  intro ledger inventory digest hledger' hinventory' hdigest'
  cases hledger.symm.trans hledger'
  cases hinventory.symm.trans hinventory'
  cases hdigest.symm.trans hdigest'
  exact (hex_of_decodeHexDigest hcanonical).symm

/-- **With correct digests both envelopes are accepted, or neither.** -/
theorem envelopes_agree {bundle : LegacyCaptureBundleV1} {bundle' : CaptureBundleV2}
    {passphrase : String} {digests : BundleDigests} (hshared : SharedFields bundle bundle')
    (hlegacy : bundle.schemaVersion = 1) (hv2 : bundle'.schemaVersion = captureBundleSchemaVersion)
    (hcorrect : bundle.DigestCorrect) (hcorrect' : bundle'.DigestCorrect) :
    validateLegacyBundleEnvelope bundle passphrase = .ok digests ↔
      validateBundleEnvelope bundle' passphrase = .ok digests := by
  rw [validateLegacyBundleEnvelope_eq_ok, validateBundleEnvelope_eq_ok, hshared.ledgerSnapshot,
    hshared.report, hshared.provenance, hshared.ledgerDigest, hshared.inventoryDigest,
    hshared.knownAbsent]
  constructor
  · rintro ⟨_, hmeta, hledger, hinventory, canonical, _, hdigest⟩
    obtain ⟨digest, hdigest'⟩ := legacyDigest_ok_iff.mp ⟨canonical, hdigest⟩
    refine ⟨hv2, hmeta, hledger, hinventory, digest, ?_, hdigest'⟩
    rw [hcorrect' _ _ _ hledger hinventory hdigest']
    exact decodeHexDigest_hex digest
  · rintro ⟨_, hmeta, hledger, hinventory, canonical, _, hdigest⟩
    obtain ⟨digest, hdigest'⟩ := legacyDigest_ok_iff.mpr ⟨canonical, hdigest⟩
    refine ⟨hlegacy, hmeta, hledger, hinventory, digest, ?_, hdigest'⟩
    rw [hcorrect _ _ digest (hshared.ledgerDigest ▸ hledger) (hshared.inventoryDigest ▸ hinventory)
      (by rw [hshared.knownAbsent, hshared.report, hshared.provenance]; exact hdigest')]
    exact decodeHexDigest_hex digest

/-! ## The root contract -/

/-- The instance of a contract is Present, with a contract-instance value. -/
def RootPresent (coverage : Coverage) (root : ScAddress) : Prop :=
  ∃ id entry liveUntil data inst, ledgerKeyToXdr (contractInstanceKey root) = some id ∧
    coverage[id]? = some (.present entry liveUntil) ∧ entry.data = .contractData data ∧
    data.val = .contractInstance inst

omit [Crates] in
theorem executable?_isSome_iff {state : LookupState} :
    state.executable?.isSome = true ↔ ∃ entry liveUntil data inst,
      state = .present entry liveUntil ∧ entry.data = .contractData data ∧
        data.val = .contractInstance inst := by
  constructor
  · intro h
    cases state with
    | absent => cases h
    | present entry liveUntil =>
      simp only [LookupState.executable?] at h
      cases hdata : entry.data with
      | contractData data =>
        cases hval : data.val with
        | contractInstance inst => exact ⟨entry, liveUntil, data, inst, rfl, hdata, hval⟩
        | _ => simp [hdata, hval] at h
      | _ => simp [hdata] at h
  · rintro ⟨entry, liveUntil, data, inst, rfl, hdata, hval⟩
    unfold LookupState.executable?
    simp only [hdata, hval, Option.isSome_some]

theorem ensureLegacyRootPresent_eq_ok {root : ScAddress} {coverage : Coverage} :
    ensureLegacyRootPresent root coverage = .ok () ↔ RootPresent coverage root := by
  unfold ensureLegacyRootPresent
  rw [bind_eq_ok]
  constructor
  · rintro ⟨id, hid, h⟩
    rw [ensure_eq_ok, Option.isSome_iff_exists] at h
    obtain ⟨executable, h⟩ := h
    obtain ⟨state, hstate, hexecutable⟩ := Option.bind_eq_some_iff.mp h
    obtain ⟨entry, liveUntil, data, inst, rfl, hdata, hval⟩ :=
      executable?_isSome_iff.mp (by rw [hexecutable]; rfl)
    exact ⟨id, entry, liveUntil, data, inst, keyId_eq_ok.mp hid, hstate, hdata, hval⟩
  · rintro ⟨id, entry, liveUntil, data, inst, hid, hstate, hdata, hval⟩
    refine ⟨id, keyId_eq_ok.mpr hid, ensure_eq_ok.mpr ?_⟩
    rw [hstate]
    exact executable?_isSome_iff.mpr ⟨entry, liveUntil, data, inst, rfl, hdata, hval⟩

/-! ## Both directions -/

section Legacy

variable [BundleCrates]

/-- **A schema-1 bundle is accepted exactly when its schema-2 counterpart is and its root
contract is there.** -/
theorem fromLegacyBundle_iff_fromBundle {bundle : LegacyCaptureBundleV1}
    {bundle' : CaptureBundleV2} {passphrase : String} {policy : ProtocolPolicy}
    {f : CapturedFixture} (hshared : SharedFields bundle bundle')
    (hlegacy : bundle.schemaVersion = 1) (hv2 : bundle'.schemaVersion = captureBundleSchemaVersion)
    (hcorrect : bundle.DigestCorrect) (hcorrect' : bundle'.DigestCorrect) :
    CapturedFixture.fromLegacyBundle bundle passphrase policy = .ok f ↔
      CapturedFixture.fromBundle bundle' passphrase policy = .ok f ∧
        ∃ hash, addressFromStr bundle.rootContract = some (.contract hash) ∧
          RootPresent f.coverage (.contract hash) := by
  rw [fromLegacyBundle_eq_ok, fromBundle_eq_ok, hshared.ledgerSnapshot, hshared.knownAbsent,
    hshared.report, hshared.provenance]
  constructor
  · rintro ⟨digests, henvelope, hdecoded, root, hroot, hpresent⟩
    obtain ⟨hparsed, hash, rfl⟩ := parseLegacyContractAddress_eq_ok.mp hroot
    exact ⟨⟨digests, (envelopes_agree hshared hlegacy hv2 hcorrect hcorrect').mp henvelope, hdecoded⟩,
      hash, hparsed, ensureLegacyRootPresent_eq_ok.mp hpresent⟩
  · rintro ⟨⟨digests, henvelope, hdecoded⟩, hash, hparsed, hpresent⟩
    exact ⟨digests, (envelopes_agree hshared hlegacy hv2 hcorrect hcorrect').mpr henvelope, hdecoded,
      _, parseLegacyContractAddress_eq_ok.mpr ⟨hparsed, hash, rfl⟩,
      ensureLegacyRootPresent_eq_ok.mpr hpresent⟩

/-- An accepted schema-1 bundle is written as the schema-2 bundle with its fields. -/
theorem toBundle_of_legacy [LawfulCrates] {bundle : LegacyCaptureBundleV1} {passphrase : String}
    {policy : ProtocolPolicy} {f : CapturedFixture}
    (h : CapturedFixture.fromLegacyBundle bundle passphrase policy = .ok f) :
    ∃ bundle', f.toBundle = .ok bundle' ∧ bundle'.schemaVersion = captureBundleSchemaVersion ∧
      SharedFields bundle bundle' ∧
      CapturedFixture.fromBundle bundle' passphrase policy = .ok f := by
  obtain ⟨digests, henvelope, hdecoded, _⟩ := fromLegacyBundle_eq_ok.mp h
  obtain ⟨_, hmeta, hledger, hinventory, canonical, _, hdigest⟩ :=
    validateLegacyBundleEnvelope_eq_ok.mp henvelope
  obtain ⟨digest, hdigest'⟩ := legacyDigest_ok_iff.mp ⟨canonical, hdigest⟩
  have henvelope' : validateBundleEnvelope (bundle.counterpart digest) passphrase = .ok digests :=
    validateBundleEnvelope_eq_ok.mpr ⟨rfl, hmeta, hledger, hinventory, digest,
      decodeHexDigest_hex digest, hdigest'⟩
  have hfrom : CapturedFixture.fromBundle (bundle.counterpart digest) passphrase policy = .ok f :=
    fromBundle_eq_ok.mpr ⟨digests, henvelope', hdecoded⟩
  exact ⟨_, toBundle_fromBundle hfrom, rfl, sharedFields_counterpart bundle digest, hfrom⟩

/--
**Legacy bundles migrate without change of meaning.**

The fixture a schema-1 bundle loads as is written as the schema-2 bundle with the same fields,
which loads as the fixture itself under the same passphrase and policy, as do the bytes of its
file. Conversely a schema-1 bundle with a correct digest loads as a fixture exactly when the
schema-2 bundle with the same fields and a correct digest does and the root contract is there.
-/
theorem legacy_bundle_migrates [LawfulCrates] [LawfulBundleCrates] :
    (∀ bundle passphrase policy f,
      CapturedFixture.fromLegacyBundle bundle passphrase policy = .ok f →
      ∃ bundle', f.toBundle = .ok bundle' ∧ bundle'.schemaVersion = captureBundleSchemaVersion ∧
        SharedFields bundle bundle' ∧
        CapturedFixture.fromBundle bundle' passphrase policy = .ok f ∧
        ∀ bytes, f.toBytes = .ok bytes →
          CapturedFixture.fromBundleBytes bytes passphrase policy = .ok f) ∧
    ∀ bundle bundle' passphrase policy f, SharedFields bundle bundle' →
      bundle.schemaVersion = 1 → bundle'.schemaVersion = captureBundleSchemaVersion →
      bundle.DigestCorrect → bundle'.DigestCorrect →
      (CapturedFixture.fromLegacyBundle bundle passphrase policy = .ok f ↔
        CapturedFixture.fromBundle bundle' passphrase policy = .ok f ∧
          ∃ hash, addressFromStr bundle.rootContract = some (.contract hash) ∧
            RootPresent f.coverage (.contract hash)) := by
  refine ⟨fun bundle passphrase policy f h => ?_, fun _ _ _ _ _ => fromLegacyBundle_iff_fromBundle⟩
  obtain ⟨bundle', hbundle', hversion, hshared, hfrom⟩ := toBundle_of_legacy h
  refine ⟨bundle', hbundle', hversion, hshared, hfrom, fun bytes hbytes => ?_⟩
  obtain ⟨written, hwritten, hencoded⟩ := bind_eq_ok.mp hbytes
  cases hbundle'.symm.trans hwritten
  exact fromBundleBytes_toVecPretty hversion hfrom (orError_eq_ok.mp hencoded)

end Legacy

end Kanatoko

namespace Kanatoko.Legacy

open Fallible Testnet

/-! ## The native asset as a schema-1 bundle -/

def nativeRoot : String := "CDLZFC3SYJYDZT7K67VZ75HPJVIEUVNIXF47ZG2FB2RMQQVU2HHGCYSC"

/-- The crates of the native bundle, with the one contract address that is parsed. -/
scoped instance (priority := high) bundleCrates : BundleCrates where
  toVecPretty := Testnet.bundleCrates.toVecPretty
  bundleVersionFromSlice := Testnet.bundleCrates.bundleVersionFromSlice
  captureBundleFromSlice := Testnet.bundleCrates.captureBundleFromSlice
  legacyBundleFromSlice _ := none
  addressFromStr value := if value = nativeRoot then some nativeAsset else none

scoped instance (priority := high) lawfulBundleCrates : LawfulBundleCrates where
  captureBundleFromSlice_toVecPretty :=
    Testnet.lawfulBundleCrates.captureBundleFromSlice_toVecPretty
  bundleVersionFromSlice_toVecPretty :=
    Testnet.lawfulBundleCrates.bundleVersionFromSlice_toVecPretty

/-- The canonical digest a schema-1 bundle must state. -/
def legacySeal (bundle : LegacyCaptureBundleV1) : Except CaptureError String := do
  let ledger ← decodeHexDigest bundle.ledgerDigest
  let inventory ← decodeHexDigest bundle.inventoryDigest
  let digest ← legacyCanonicalBundleDigest bundle.rootContract bundle.knownAbsent bundle.report
    bundle.provenance ledger inventory
  pure (hex digest.toList)

def unsealedNative : LegacyCaptureBundleV1 where
  schemaVersion := 1
  rootContract := nativeRoot
  ledgerSnapshot := nativeBundle.ledgerSnapshot
  knownAbsent := nativeBundle.knownAbsent
  report := nativeBundle.report
  provenance := nativeBundle.provenance
  ledgerDigest := nativeBundle.ledgerDigest
  inventoryDigest := nativeBundle.inventoryDigest
  canonicalDigest := ""

def legacyNative : LegacyCaptureBundleV1 :=
  { unsealedNative with canonicalDigest := (legacySeal unsealedNative).toOption.getD "" }

theorem legacyNative_digestCorrect : legacyNative.DigestCorrect := by
  intro ledger inventory digest hledger hinventory hdigest
  have hseal : legacySeal unsealedNative = .ok (hex digest.toList) :=
    bind_eq_ok.mpr ⟨ledger, hledger, bind_eq_ok.mpr ⟨inventory, hinventory,
      bind_eq_ok.mpr ⟨digest, hdigest, rfl⟩⟩⟩
  unfold legacyNative
  rw [hseal]
  simp only [Except.toOption, Option.getD_some]

/-- The native asset is read from schema 1, and again from the schema-2 bundle it is written as. -/
theorem native_migrates : ∃ passphrase f,
    CapturedFixture.fromLegacyBundle legacyNative passphrase .exact = .ok f ∧
      ∃ written, f.toBundle = .ok written ∧
        CapturedFixture.fromBundle written passphrase .exact = .ok f := by
  obtain ⟨hforward, hiff⟩ := legacy_bundle_migrates
  obtain ⟨f, w', hcapture, hbundle⟩ := native_captured
  have hsound : Sound .exact f := (Captured.capture _ _ _ _ _ rfl hcapture).sound
  obtain ⟨canonical, report, hwritten, _⟩ := hsound.toBundle_ok
  have hfields := Except.ok.inj (hwritten.symm.trans hbundle)
  have hsnapshot : f.fixture.snapshot = nativeBundle.ledgerSnapshot :=
    congrArg CaptureBundleV2.ledgerSnapshot hfields
  have hhash : f.provenance.ledgerHash ≠ "" := by
    rw [show f.provenance.ledgerHash = nativeBundle.provenance.ledgerHash from
      congrArg (fun bundle => bundle.provenance.ledgerHash) hfields]
    decide
  obtain ⟨bundle', hbundle', _, hfrom⟩ := hsound.fromBundle_toBundle hhash
  cases hbundle'.symm.trans hbundle
  have hroot : RootPresent f.coverage nativeAsset := by
    have hmem : (nativeEntry.toKey, (nativeEntry, some 7561567)) ∈
        f.fixture.snapshot.ledgerEntries := by
      rw [hsnapshot]
      decide +kernel
    obtain ⟨_, id, hstate⟩ := (hsound.entries _ _ _).mp hmem
    exact ⟨id, nativeEntry, _, _, _, (hsound.present id _ _ hstate).2, hstate, rfl, rfl⟩
  have hshared : SharedFields legacyNative nativeBundle := ⟨rfl, rfl, rfl, rfl, rfl, rfl⟩
  have hlegacy : CapturedFixture.fromLegacyBundle legacyNative _ .exact = .ok f :=
    (hiff legacyNative nativeBundle _ .exact f hshared rfl rfl legacyNative_digestCorrect
      (digestCorrect_of_fromBundle hfrom)).mpr ⟨hfrom, _, if_pos rfl, hroot⟩
  obtain ⟨written, hwritten', _, _, hfrom', _⟩ := hforward _ _ _ _ hlegacy
  exact ⟨_, f, hlegacy, written, hwritten', hfrom'⟩

end Kanatoko.Legacy
