import Kanatoko.Capture.Bundle
import Kanatoko.Properties.Canonical
import Kanatoko.Properties.Rounds

/-!
# One representation invariant for every captured fixture

A capture, a schema-2 bundle and a schema-1 bundle are checked in different orders. `Sound`
is what all three establish, in the terms of the checks themselves.
-/

namespace Kanatoko

open Fallible Ordered

variable [Crates] {σ : Type}

/-! ## Decoding a coverage -/

/-- The first loop covers the entries of the snapshot as Present, under their own ids. -/
theorem presentCoverage_spec : ∀ {entries : List SnapshotEntry} {coverage coverage' : Coverage},
    presentCoverage entries coverage = .ok coverage' →
    (∀ id state, coverage'[id]? = some state ↔ coverage[id]? = some state ∨
      ∃ x ∈ entries, state = .present x.2.1 x.2.2 ∧ ledgerKeyToXdr x.2.1.toKey = some id) ∧
      ∀ x ∈ entries, isStateArchivalKey x.2.1.toKey = false ∧
        ∃ id, ledgerKeyToXdr x.2.1.toKey = some id ∧ id ∉ coverage
  | [], coverage, coverage', h => by
    rw [presentCoverage, pure_eq_ok] at h
    subst h
    simp
  | (key, (entry, liveUntil)) :: rest, coverage, coverage', h => by
    rw [presentCoverage] at h
    obtain ⟨_, hna, h₁⟩ := bind_eq_ok.mp h
    obtain ⟨id₀, hid, h₂⟩ := bind_eq_ok.mp h₁
    obtain ⟨_, hnew, h₃⟩ := bind_eq_ok.mp h₂
    rw [ensure_eq_ok] at hna hnew
    rw [keyId_eq_ok] at hid
    obtain ⟨hget, hall⟩ := presentCoverage_spec h₃
    refine ⟨fun id state => ?_, fun x hx => ?_⟩
    · rw [hget, Std.ExtTreeMap.getElem?_insert, List.exists_mem_cons_iff]
      by_cases he : id₀ = id
      · subst he
        rw [if_pos Std.ReflCmp.compare_self]
        have hnone : coverage[id₀]? = none := by simpa using hnew
        rw [hnone]
        constructor
        · rintro (hs | hr)
          · exact Or.inr (Or.inl ⟨(Option.some.inj hs).symm, hid⟩)
          · exact Or.inr (Or.inr hr)
        · rintro (hs | ⟨rfl, _⟩ | hr)
          · cases hs
          · exact Or.inl rfl
          · exact Or.inr hr
      · rw [if_neg fun hc => he (Std.LawfulEqCmp.eq_of_compare hc)]
        constructor
        · rintro (hs | hr)
          · exact Or.inl hs
          · exact Or.inr (Or.inr hr)
        · rintro (hs | ⟨_, hid'⟩ | hr)
          · exact Or.inl hs
          · exact absurd (Option.some.inj (hid.symm.trans hid')) he
          · exact Or.inr hr
    · rcases List.mem_cons.mp hx with rfl | hx
      · exact ⟨hna, id₀, hid, hnew⟩
      · obtain ⟨hna', id, hid', hnot⟩ := hall x hx
        exact ⟨hna', id, hid', fun hmem => hnot (Std.ExtTreeMap.mem_insert.mpr (Or.inr hmem))⟩

theorem decodeAbsent_eq_ok {encoded : String} {id : KeyId} :
    decodeAbsent encoded = .ok id ↔ base64Decode encoded = some id ∧ base64Encode id = encoded ∧
      ∃ key, ledgerKeyFromXdr id = some key ∧ ledgerKeyToXdr key = some id ∧
        isStateArchivalKey key = false := by
  unfold decodeAbsent
  rw [bind_eq_ok]
  constructor
  · rintro ⟨bytes, hbytes, h⟩
    obtain ⟨_, henc, h⟩ := bind_eq_ok.mp h
    obtain ⟨key, hkey, h⟩ := bind_eq_ok.mp h
    obtain ⟨derived, hderived, h⟩ := bind_eq_ok.mp h
    obtain ⟨_, hcan, h⟩ := bind_eq_ok.mp h
    cases pure_eq_ok.mp h
    obtain ⟨hd, hna⟩ := ensure_eq_ok.mp hcan
    rw [keyId_eq_ok, hd] at hderived
    exact ⟨orError_eq_ok.mp hbytes, ensure_eq_ok.mp henc, key, orError_eq_ok.mp hkey, hderived, hna⟩
  · rintro ⟨hbytes, henc, key, hkey, hid, hna⟩
    exact ⟨id, orError_eq_ok.mpr hbytes, bind_eq_ok.mpr ⟨⟨⟩, ensure_eq_ok.mpr henc,
      bind_eq_ok.mpr ⟨key, orError_eq_ok.mpr hkey, bind_eq_ok.mpr ⟨id, keyId_eq_ok.mpr hid,
        bind_eq_ok.mpr ⟨⟨⟩, ensure_eq_ok.mpr ⟨rfl, hna⟩, rfl⟩⟩⟩⟩⟩

/-- The bytes of a key id are ordered as the keys of a `BTreeMap` are. -/
abbrev IdLt (a b : KeyId) : Prop := compare a b = .lt

/-- The second loop covers its ids, in strictly ascending order, as Absent. -/
theorem absentCoverage_spec : ∀ {l : List String} {previous : Option KeyId}
    {coverage coverage' : Coverage}, absentCoverage l previous coverage = .ok coverage' →
    ∃ ids : List KeyId, List.Forall₂ (fun encoded id => decodeAbsent encoded = .ok id) l ids ∧
      ids.Pairwise IdLt ∧ (∀ p ∈ previous, ∀ id ∈ ids, IdLt p id) ∧
      (∀ id ∈ ids, id ∉ coverage) ∧
      ∀ id, coverage'[id]? = if id ∈ ids then some .absent else coverage[id]?
  | [], _, coverage, coverage', h => by
    rw [absentCoverage, pure_eq_ok] at h
    subst h
    exact ⟨[], .nil, .nil, by simp, by simp, by simp⟩
  | encoded :: rest, previous, coverage, coverage', h => by
    rw [absentCoverage] at h
    obtain ⟨bytes, hbytes, h₁⟩ := bind_eq_ok.mp h
    obtain ⟨_, hprev, h₂⟩ := bind_eq_ok.mp h₁
    obtain ⟨_, hnew, h₃⟩ := bind_eq_ok.mp h₂
    rw [ensure_eq_ok] at hprev hnew
    obtain ⟨ids, hall, hsorted, hfirst, hnot, hget⟩ := absentCoverage_spec h₃
    refine ⟨bytes :: ids, .cons hbytes hall, .cons (hfirst bytes rfl) hsorted, ?_, ?_, ?_⟩
    · intro p hp id hid
      rcases List.mem_cons.mp hid with rfl | hid
      · exact hprev p hp
      · exact Std.TransCmp.lt_trans (hprev p hp) (hfirst bytes rfl id hid)
    · intro id hid
      rcases List.mem_cons.mp hid with rfl | hid
      · exact hnew
      · exact fun hmem => hnot id hid (Std.ExtTreeMap.mem_insert.mpr (Or.inr hmem))
    · intro id
      rw [hget, Std.ExtTreeMap.getElem?_insert]
      by_cases he : bytes = id
      · subst he
        simp [Std.ReflCmp.compare_self]
      · have hcmp : ¬ compare bytes id = .eq := fun hc => he (Std.LawfulEqCmp.eq_of_compare hc)
        have hne : ¬ id = bytes := fun hc => he hc.symm
        simp only [hcmp, if_false, List.mem_cons, hne, false_or]

/-- What a decoded coverage holds: a Present state is that of a snapshot entry, and an Absent
one has a key of its own. -/
structure DecodedCoverage (snapshot : LedgerSnapshot) (coverage : Coverage) : Prop where
  present : ∀ id entry liveUntil, coverage[id]? = some (.present entry liveUntil) ↔
    ∃ x ∈ snapshot.ledgerEntries, LookupState.present entry liveUntil = .present x.2.1 x.2.2 ∧
      ledgerKeyToXdr x.2.1.toKey = some id
  entries : ∀ x ∈ snapshot.ledgerEntries, isStateArchivalKey x.2.1.toKey = false ∧
    ∃ id, ledgerKeyToXdr x.2.1.toKey = some id
  absent : ∀ id, coverage[id]? = some .absent → ∃ key, ledgerKeyFromXdr id = some key ∧
    ledgerKeyToXdr key = some id ∧ isStateArchivalKey key = false

theorem bundleCoverage_spec {snapshot : LedgerSnapshot} {knownAbsent : List String}
    {coverage : Coverage} (h : bundleCoverage snapshot knownAbsent = .ok coverage) :
    DecodedCoverage snapshot coverage := by
  obtain ⟨present, hpresent, habsent⟩ := bind_eq_ok.mp h
  obtain ⟨hget, hall⟩ := presentCoverage_spec hpresent
  obtain ⟨ids, hids, _, _, hnot, hcov⟩ := absentCoverage_spec habsent
  refine ⟨fun id entry liveUntil => ?_, fun x hx => ?_, fun id hs => ?_⟩
  · rw [hcov]
    split
    · next hid =>
      -- no absent id is covered before
      have hnone : present[id]? = none := by simpa using hnot id hid
      refine ⟨fun hc => by simp at hc, fun hx => ?_⟩
      have hsome := (hget id (.present entry liveUntil)).mpr (Or.inr hx)
      rw [hnone] at hsome
      cases hsome
    · rw [hget]
      simp
  · obtain ⟨hna, id, hid, _⟩ := hall x hx
    exact ⟨hna, id, hid⟩
  · rw [hcov] at hs
    split at hs
    · next hid =>
      obtain ⟨encoded, _, hdec⟩ := exists_of_mem_mapM (mapM_eq_ok.mpr hids) hid
      exact (decodeAbsent_eq_ok.mp hdec).2.2
    · obtain hs | ⟨x, _, hx, _⟩ := (hget id .absent).mp hs
      · simp at hs
      · cases hx

/-! ## The invariant -/

/-- What every way to obtain a fixture under `policy` establishes. -/
structure Sound (policy : ProtocolPolicy) (f : CapturedFixture) : Prop where
  frozen : FrozenFixture.fromSnapshotWithPolicy f.fixture.snapshot f.provenance.networkPassphrase
    policy = .ok f.fixture
  entries : ∀ key entry liveUntil, (key, (entry, liveUntil)) ∈ f.fixture.snapshot.ledgerEntries ↔
    key = entry.toKey ∧
      ∃ id : KeyId, f.coverage[id]? = some (LookupState.present entry liveUntil)
  present : ∀ id entry liveUntil, f.coverage[id]? = some (.present entry liveUntil) →
    isStateArchivalKey entry.toKey = false ∧ ledgerKeyToXdr entry.toKey = some id
  absent : ∀ id, f.coverage[id]? = some .absent → ∃ key, ledgerKeyFromXdr id = some key ∧
    ledgerKeyToXdr key = some id ∧ isStateArchivalKey key = false
  validated : validateCoverage f.coverage f.fixture.snapshot.sequenceNumber
    f.fixture.snapshot.maxEntryTtl = .ok ()
  closed : ensureExecutableClosurePresent f.coverage = .ok ()
  counts : f.report.presentEntries = usize (presentCount f.coverage) ∧
    f.report.absentEntries = usize (absentCount f.coverage)
  inventory : inventoryDigest f.coverage = .ok f.report.inventoryDigest
  rounds : 1 ≤ f.report.discoveryRounds ∧ f.report.discoveryRounds ≤ maxDiscoveryRounds
  noReads : f.report.finalReplayRpcReads = 0
  origin : redactRpcOrigin f.provenance.rpcOrigin = .ok f.provenance.rpcOrigin
  sequence : f.provenance.ledgerSequence = f.fixture.snapshot.sequenceNumber
  protocol : f.provenance.protocolVersion = f.fixture.snapshot.protocolVersion

/-- **A capture is sound.** -/
theorem captured_sound [LawfulCrates] {b : CaptureBuilder σ} {scenario : Scenario Unit}
    {keys : KeyMap} {w w' : World σ} {f : CapturedFixture}
    (h : b.captureRefFromKeys scenario keys w = .ok f w') : Sound b.protocolPolicy f := by
  obtain ⟨r, hr⟩ := captureRefFromKeys_spec h
  obtain ⟨_, _, hsealed⟩ := concludePass_spec hr.concluded
  obtain ⟨hinfo, hentries⟩ := snapshotFromMaterialized_eq_ok.mp hsealed.snapshot
  obtain ⟨hlist, hpresent⟩ := snapshotEntries_eq_ok.mp hentries
  have hprov := hsealed.provenance_eq
  have hanchor : r.m.anchor = r.attempt.anchor := hr.gives.anchor_eq
  have hheader := hinfo.trans hr.gives.header
  have hseq : f.fixture.snapshot.sequenceNumber = r.attempt.anchor.sequence :=
    congrArg LedgerInfo.sequenceNumber hheader
  exact
    { frozen := by rw [hprov]; exact hsealed.frozen
      entries := fun key entry liveUntil => by
        rw [hlist, mem_presentEntries, hsealed.coverage_eq]
        simp only [Std.ExtTreeMap.mem_toList_iff_getElem?_eq_some]
      present := fun id entry liveUntil hget => by
        rw [hsealed.coverage_eq] at hget
        exact hpresent id entry liveUntil (Std.ExtTreeMap.mem_toList_iff_getElem?_eq_some.mpr hget)
      absent := fun id hget => by
        rw [hsealed.coverage_eq] at hget
        have hmem : id ∈ r.m.coverage := by
          rw [Std.ExtTreeMap.mem_iff_isSome_getElem?, hget]; rfl
        obtain ⟨hkeys, hcfg⟩ := (hr.gives.covered id).mp hmem
        obtain ⟨key, hkey⟩ := Option.isSome_iff_exists.mp
          (Std.ExtTreeMap.mem_iff_isSome_getElem?.mp hkeys)
        have hid := r.keys.canonical hkey
        refine ⟨key, LawfulCrates.ledgerKeyFromXdr_toXdr hid, hid, ?_⟩
        rw [Bool.eq_false_iff, ne_eq, isStateArchivalKey_iff]
        rintro rfl
        exact hcfg hid
      validated := by
        rw [hsealed.coverage_eq, hseq,
          show f.fixture.snapshot.maxEntryTtl = r.settings.maxEntryTtl from
            congrArg LedgerInfo.maxEntryTtl hheader]
        exact hr.gives.validated
      closed := by rw [hsealed.coverage_eq]; exact hr.closed
      counts := by rw [hsealed.report_eq]; exact ⟨rfl, rfl⟩
      inventory := hsealed.digest
      rounds := by
        rw [hsealed.report_eq]
        exact ⟨hr.round_pos, hr.round_le.trans b.discoveryRounds_le⟩
      noReads := by rw [hsealed.report_eq]
      origin := by rw [hprov]; exact b.origin_redacted
      sequence := by rw [hprov, hseq, hanchor]
      protocol := by
        rw [hprov, hanchor]
        exact (congrArg LedgerInfo.protocolVersion hheader).symm }

/-! ## Bundles -/

omit [Crates] in
theorem orIntegrity_eq_ok {check : Except CaptureError Unit} {x : Unit} :
    orIntegrity check = .ok x ↔ check = .ok x := mapError_eq_ok

/-- What both envelopes check of the metadata. -/
structure MetadataValid (snapshot : LedgerSnapshot) (report : BundleReport)
    (provenance : BundleProvenance) (passphrase : String) : Prop where
  passphrase_eq : provenance.networkPassphrase = passphrase
  origin : redactRpcOrigin provenance.rpcOrigin = .ok provenance.rpcOrigin
  sequence : provenance.ledgerSequence = snapshot.sequenceNumber
  protocol : provenance.protocolVersion = snapshot.protocolVersion
  hash_ne : provenance.ledgerHash ≠ ""
  rounds_ne : report.discoveryRounds.toNat ≠ 0
  rounds_le : report.discoveryRounds.toNat ≤ maxDiscoveryRounds
  noReads : report.finalReplayRpcReads = 0

omit [Crates] in
theorem validateBundleMetadata_eq_ok {snapshot : LedgerSnapshot} {report : BundleReport}
    {provenance : BundleProvenance} {passphrase : String} :
    validateBundleMetadata snapshot report provenance passphrase = .ok () ↔
      MetadataValid snapshot report provenance passphrase := by
  unfold validateBundleMetadata
  rw [bind_eq_ok]
  constructor
  · rintro ⟨_, hpass, h⟩
    obtain ⟨origin, horigin, h⟩ := bind_eq_ok.mp h
    obtain ⟨_, heq, h⟩ := bind_eq_ok.mp h
    rw [ensure_eq_ok] at hpass heq h
    obtain ⟨hseq, hproto, hhash, hne, hle, hreads⟩ := h
    rw [heq] at horigin
    exact ⟨hpass, horigin, hseq, hproto, hhash, hne, hle, hreads⟩
  · intro h
    exact ⟨⟨⟩, ensure_eq_ok.mpr h.passphrase_eq, bind_eq_ok.mpr ⟨_, h.origin,
      bind_eq_ok.mpr ⟨⟨⟩, ensure_eq_ok.mpr rfl, ensure_eq_ok.mpr
        ⟨h.sequence, h.protocol, h.hash_ne, h.rounds_ne, h.rounds_le, h.noReads⟩⟩⟩⟩

theorem validateBundleCoverage_eq_ok {coverage : Coverage} {report : BundleReport}
    {digest : Bytes32} {sequence maxTtl : UInt32} {counts : UInt64 × UInt64} :
    validateBundleCoverage coverage report digest sequence maxTtl = .ok counts ↔
      validateCoverage coverage sequence maxTtl = .ok () ∧
        ensureExecutableClosurePresent coverage = .ok () ∧
        inventoryDigest coverage = .ok digest ∧
        usize (presentCount coverage) = report.presentEntries ∧
        usize (absentCount coverage) = report.absentEntries ∧
        counts = (usize (presentCount coverage), usize (absentCount coverage)) := by
  unfold validateBundleCoverage
  rw [bind_eq_ok]
  constructor
  · rintro ⟨_, hvalid, h⟩
    obtain ⟨_, hclosed, h₁⟩ := bind_eq_ok.mp h
    obtain ⟨digest', hdigest, h₂⟩ := bind_eq_ok.mp h₁
    obtain ⟨_, hcounts, h₃⟩ := bind_eq_ok.mp h₂
    obtain ⟨heq, hp, ha⟩ := ensure_eq_ok.mp hcounts
    exact ⟨orIntegrity_eq_ok.mp hvalid, orIntegrity_eq_ok.mp hclosed, heq ▸ hdigest, hp, ha,
      (pure_eq_ok.mp h₃).symm⟩
  · rintro ⟨hvalid, hclosed, hdigest, hp, ha, rfl⟩
    exact ⟨⟨⟩, orIntegrity_eq_ok.mpr hvalid, bind_eq_ok.mpr ⟨⟨⟩, orIntegrity_eq_ok.mpr hclosed,
      bind_eq_ok.mpr ⟨digest, hdigest, bind_eq_ok.mpr ⟨⟨⟩, ensure_eq_ok.mpr ⟨rfl, hp, ha⟩, rfl⟩⟩⟩⟩

/-- What both readers do once the envelope is accepted. -/
structure Decoded (snapshot : LedgerSnapshot) (knownAbsent : List String) (report : BundleReport)
    (provenance : BundleProvenance) (passphrase : String) (policy : ProtocolPolicy)
    (digests : BundleDigests) (f : CapturedFixture) : Prop where
  metadata : MetadataValid snapshot report provenance passphrase
  frozen : FrozenFixture.fromSnapshotWithPolicy snapshot passphrase policy = .ok f.fixture
  ledger : f.fixture.ledgerDigest = digests.ledger
  coverage : bundleCoverage f.fixture.snapshot knownAbsent = .ok f.coverage
  validated : validateBundleCoverage f.coverage report digests.inventory
    f.fixture.snapshot.sequenceNumber f.fixture.snapshot.maxEntryTtl
      = .ok (f.report.presentEntries, f.report.absentEntries)
  made : f = .ofParts f.fixture f.coverage report provenance digests.inventory
    (f.report.presentEntries, f.report.absentEntries)

/-- **What either reader decodes is sound.** -/
theorem Decoded.sound {snapshot : LedgerSnapshot} {knownAbsent : List String}
    {report : BundleReport} {provenance : BundleProvenance} {passphrase : String}
    {policy : ProtocolPolicy} {digests : BundleDigests} {f : CapturedFixture}
    (h : Decoded snapshot knownAbsent report provenance passphrase policy digests f) :
    Sound policy f := by
  obtain ⟨_, _, hsnapshot, hdigest⟩ := fromSnapshotWithPolicy_eq_ok.mp h.frozen
  have hkeys := (canonical_of_digest hdigest).own_key
  have hdecoded := bundleCoverage_spec h.coverage
  rw [hsnapshot] at hdecoded
  obtain ⟨hvalid, hclosed, hinventory, hp, ha, hcounts⟩ :=
    validateBundleCoverage_eq_ok.mp h.validated
  have hprovenance : f.provenance = provenance.toCapture := by rw [h.made]; rfl
  have hreport : f.report.discoveryRounds = report.discoveryRounds.toNat ∧
      f.report.inventoryDigest = digests.inventory ∧ f.report.finalReplayRpcReads = 0 := by
    rw [h.made]; exact ⟨rfl, rfl, rfl⟩
  exact
    { frozen := by
        rw [hsnapshot, hprovenance, show provenance.toCapture.networkPassphrase = passphrase from
          h.metadata.passphrase_eq]
        exact h.frozen
      entries := fun key entry liveUntil => by
        rw [hsnapshot]
        simp only [hdecoded.present]
        constructor
        · intro hx
          obtain ⟨_, id, hid⟩ := hdecoded.entries _ hx
          exact ⟨hkeys _ hx, id, _, hx, rfl, hid⟩
        · rintro ⟨hkey, id, ⟨key', entry', liveUntil'⟩, hx, heq, _⟩
          cases heq
          have hkey' : key' = _ := hkeys _ hx
          rw [hkey, ← hkey']
          exact hx
      present := fun id entry liveUntil hs => by
        obtain ⟨x, hx, heq, hid⟩ := (hdecoded.present id entry liveUntil).mp hs
        cases heq
        exact ⟨(hdecoded.entries x hx).1, hid⟩
      absent := hdecoded.absent
      validated := hvalid
      closed := hclosed
      counts := by
        rw [Prod.mk.injEq] at hcounts
        exact hcounts
      inventory := by rw [hreport.2.1]; exact hinventory
      rounds := by
        rw [hreport.1]
        exact ⟨Nat.one_le_iff_ne_zero.mpr h.metadata.rounds_ne, h.metadata.rounds_le⟩
      noReads := hreport.2.2
      origin := by rw [hprovenance]; exact h.metadata.origin
      sequence := by rw [hprovenance, hsnapshot]; exact h.metadata.sequence
      protocol := by rw [hprovenance, hsnapshot]; exact h.metadata.protocol }

theorem validateBundleEnvelope_eq_ok {bundle : CaptureBundleV2} {passphrase : String}
    {digests : BundleDigests} :
    validateBundleEnvelope bundle passphrase = .ok digests ↔
      bundle.schemaVersion = captureBundleSchemaVersion ∧
        MetadataValid bundle.ledgerSnapshot bundle.report bundle.provenance passphrase ∧
        decodeHexDigest bundle.ledgerDigest = .ok digests.ledger ∧
        decodeHexDigest bundle.inventoryDigest = .ok digests.inventory ∧
        ∃ canonical, decodeHexDigest bundle.canonicalDigest = .ok canonical ∧
          canonicalBundleDigest bundle.knownAbsent bundle.report bundle.provenance digests.ledger
            digests.inventory = .ok canonical := by
  unfold validateBundleEnvelope
  rw [bind_eq_ok]
  constructor
  · rintro ⟨_, hversion, h⟩
    obtain ⟨_, hmeta, h₁⟩ := bind_eq_ok.mp h
    obtain ⟨ledger, hledger, h₂⟩ := bind_eq_ok.mp h₁
    obtain ⟨inventory, hinventory, h₃⟩ := bind_eq_ok.mp h₂
    obtain ⟨actual, hactual, h₄⟩ := bind_eq_ok.mp h₃
    obtain ⟨expected, hexpected, h₅⟩ := bind_eq_ok.mp h₄
    obtain ⟨_, heq, h₆⟩ := bind_eq_ok.mp h₅
    rw [ensure_eq_ok] at heq
    cases pure_eq_ok.mp h₆
    exact ⟨ensure_eq_ok.mp hversion, validateBundleMetadata_eq_ok.mp hmeta, hledger, hinventory,
      actual, hactual, heq ▸ hexpected⟩
  · rintro ⟨hversion, hmeta, hledger, hinventory, canonical, hactual, hexpected⟩
    exact ⟨⟨⟩, ensure_eq_ok.mpr hversion, bind_eq_ok.mpr ⟨⟨⟩, validateBundleMetadata_eq_ok.mpr hmeta,
      bind_eq_ok.mpr ⟨_, hledger, bind_eq_ok.mpr ⟨_, hinventory, bind_eq_ok.mpr ⟨_, hactual,
        bind_eq_ok.mpr ⟨_, hexpected, bind_eq_ok.mpr ⟨⟨⟩, ensure_eq_ok.mpr rfl, rfl⟩⟩⟩⟩⟩⟩⟩

theorem fromBundle_eq_ok {bundle : CaptureBundleV2} {passphrase : String}
    {policy : ProtocolPolicy} {f : CapturedFixture} :
    CapturedFixture.fromBundle bundle passphrase policy = .ok f ↔
      ∃ digests, validateBundleEnvelope bundle passphrase = .ok digests ∧
        Decoded bundle.ledgerSnapshot bundle.knownAbsent bundle.report bundle.provenance
          passphrase policy digests f := by
  unfold CapturedFixture.fromBundle
  rw [bind_eq_ok]
  refine exists_congr fun digests => and_congr_right fun henvelope => ?_
  have hmeta := (validateBundleEnvelope_eq_ok.mp henvelope).2.1
  rw [bind_eq_ok]
  constructor
  · rintro ⟨fixture, hfixture, h⟩
    obtain ⟨_, hledger, h₁⟩ := bind_eq_ok.mp h
    obtain ⟨coverage, hcoverage, h₂⟩ := bind_eq_ok.mp h₁
    obtain ⟨counts, hcounts, h₃⟩ := bind_eq_ok.mp h₂
    cases pure_eq_ok.mp h₃
    exact ⟨hmeta, mapError_eq_ok.mp hfixture, ensure_eq_ok.mp hledger, hcoverage, hcounts, rfl⟩
  · intro h
    exact ⟨f.fixture, mapError_eq_ok.mpr h.frozen, bind_eq_ok.mpr ⟨⟨⟩, ensure_eq_ok.mpr h.ledger,
      bind_eq_ok.mpr ⟨f.coverage, h.coverage, bind_eq_ok.mpr ⟨_, h.validated,
        pure_eq_ok.mpr h.made.symm⟩⟩⟩⟩

theorem validateLegacyBundleEnvelope_eq_ok {bundle : LegacyCaptureBundleV1} {passphrase : String}
    {digests : BundleDigests} :
    validateLegacyBundleEnvelope bundle passphrase = .ok digests ↔
      bundle.schemaVersion = 1 ∧
        MetadataValid bundle.ledgerSnapshot bundle.report bundle.provenance passphrase ∧
        decodeHexDigest bundle.ledgerDigest = .ok digests.ledger ∧
        decodeHexDigest bundle.inventoryDigest = .ok digests.inventory ∧
        ∃ canonical, decodeHexDigest bundle.canonicalDigest = .ok canonical ∧
          legacyCanonicalBundleDigest bundle.rootContract bundle.knownAbsent bundle.report
            bundle.provenance digests.ledger digests.inventory = .ok canonical := by
  unfold validateLegacyBundleEnvelope
  rw [bind_eq_ok]
  constructor
  · rintro ⟨_, hversion, h⟩
    obtain ⟨_, hmeta, h₁⟩ := bind_eq_ok.mp h
    obtain ⟨ledger, hledger, h₂⟩ := bind_eq_ok.mp h₁
    obtain ⟨inventory, hinventory, h₃⟩ := bind_eq_ok.mp h₂
    obtain ⟨actual, hactual, h₄⟩ := bind_eq_ok.mp h₃
    obtain ⟨expected, hexpected, h₅⟩ := bind_eq_ok.mp h₄
    obtain ⟨_, heq, h₆⟩ := bind_eq_ok.mp h₅
    rw [ensure_eq_ok] at heq
    cases pure_eq_ok.mp h₆
    exact ⟨ensure_eq_ok.mp hversion, validateBundleMetadata_eq_ok.mp hmeta, hledger, hinventory,
      actual, hactual, heq ▸ hexpected⟩
  · rintro ⟨hversion, hmeta, hledger, hinventory, canonical, hactual, hexpected⟩
    exact ⟨⟨⟩, ensure_eq_ok.mpr hversion, bind_eq_ok.mpr ⟨⟨⟩, validateBundleMetadata_eq_ok.mpr hmeta,
      bind_eq_ok.mpr ⟨_, hledger, bind_eq_ok.mpr ⟨_, hinventory, bind_eq_ok.mpr ⟨_, hactual,
        bind_eq_ok.mpr ⟨_, hexpected, bind_eq_ok.mpr ⟨⟨⟩, ensure_eq_ok.mpr rfl, rfl⟩⟩⟩⟩⟩⟩⟩

omit [Crates] in
theorem parseLegacyContractAddress_eq_ok [BundleCrates] {value : String} {address : ScAddress} :
    CapturedFixture.parseLegacyContractAddress value = .ok address ↔
      addressFromStr value = some address ∧ ∃ hash, address = .contract hash := by
  unfold CapturedFixture.parseLegacyContractAddress
  rw [bind_eq_ok]
  constructor
  · rintro ⟨parsed, hparsed, h⟩
    split at h
    · next hash =>
      cases pure_eq_ok.mp h
      exact ⟨orError_eq_ok.mp hparsed, hash, rfl⟩
    · cases h
  · rintro ⟨hparsed, hash, rfl⟩
    exact ⟨_, orError_eq_ok.mpr hparsed, rfl⟩

theorem fromLegacyBundle_eq_ok [BundleCrates] {bundle : LegacyCaptureBundleV1}
    {passphrase : String} {policy : ProtocolPolicy} {f : CapturedFixture} :
    CapturedFixture.fromLegacyBundle bundle passphrase policy = .ok f ↔
      ∃ digests, validateLegacyBundleEnvelope bundle passphrase = .ok digests ∧
        Decoded bundle.ledgerSnapshot bundle.knownAbsent bundle.report bundle.provenance
          passphrase policy digests f ∧
        ∃ root, CapturedFixture.parseLegacyContractAddress bundle.rootContract = .ok root ∧
          ensureLegacyRootPresent root f.coverage = .ok () := by
  unfold CapturedFixture.fromLegacyBundle
  rw [bind_eq_ok]
  refine exists_congr fun digests => and_congr_right fun henvelope => ?_
  have hmeta := (validateLegacyBundleEnvelope_eq_ok.mp henvelope).2.1
  rw [bind_eq_ok]
  constructor
  · rintro ⟨fixture, hfixture, h⟩
    obtain ⟨_, hledger, h₁⟩ := bind_eq_ok.mp h
    obtain ⟨root, hroot, h₂⟩ := bind_eq_ok.mp h₁
    obtain ⟨coverage, hcoverage, h₃⟩ := bind_eq_ok.mp h₂
    obtain ⟨_, hpresent, h₄⟩ := bind_eq_ok.mp h₃
    obtain ⟨counts, hcounts, h₅⟩ := bind_eq_ok.mp h₄
    cases pure_eq_ok.mp h₅
    exact ⟨⟨hmeta, mapError_eq_ok.mp hfixture, ensure_eq_ok.mp hledger, hcoverage, hcounts, rfl⟩,
      root, hroot, orIntegrity_eq_ok.mp hpresent⟩
  · rintro ⟨h, root, hroot, hpresent⟩
    exact ⟨f.fixture, mapError_eq_ok.mpr h.frozen, bind_eq_ok.mpr ⟨⟨⟩, ensure_eq_ok.mpr h.ledger,
      bind_eq_ok.mpr ⟨root, hroot, bind_eq_ok.mpr ⟨f.coverage, h.coverage,
        bind_eq_ok.mpr ⟨⟨⟩, orIntegrity_eq_ok.mpr hpresent, bind_eq_ok.mpr ⟨_, h.validated,
          pure_eq_ok.mpr h.made.symm⟩⟩⟩⟩⟩⟩

/-! ## All ways to obtain a fixture -/

/-- A fixture read from a bundle of either schema. -/
inductive Loaded [BundleCrates] (policy : ProtocolPolicy) (f : CapturedFixture) : Prop
  | bundle (bundle : CaptureBundleV2) (passphrase : String) :
      CapturedFixture.fromBundle bundle passphrase policy = .ok f → Loaded policy f
  | legacy (bundle : LegacyCaptureBundleV1) (passphrase : String) :
      CapturedFixture.fromLegacyBundle bundle passphrase policy = .ok f → Loaded policy f

/-- A fixture captured through any transport, from any initial inventory. -/
inductive Captured (policy : ProtocolPolicy) (f : CapturedFixture) : Prop
  | capture {σ : Type} (b : CaptureBuilder σ) (scenario : Scenario Unit) (keys : KeyMap)
      (w w' : World σ) : b.protocolPolicy = policy →
      b.captureRefFromKeys scenario keys w = .ok f w' → Captured policy f

theorem Loaded.decoded [BundleCrates] {policy : ProtocolPolicy} {f : CapturedFixture}
    (h : Loaded policy f) : ∃ snapshot knownAbsent report provenance passphrase digests,
      Decoded snapshot knownAbsent report provenance passphrase policy digests f := by
  cases h with
  | bundle bundle passphrase h =>
    obtain ⟨digests, _, hdecoded⟩ := fromBundle_eq_ok.mp h
    exact ⟨_, _, _, _, _, _, hdecoded⟩
  | legacy bundle passphrase h =>
    obtain ⟨digests, _, hdecoded, _⟩ := fromLegacyBundle_eq_ok.mp h
    exact ⟨_, _, _, _, _, _, hdecoded⟩

theorem Loaded.sound [BundleCrates] {policy : ProtocolPolicy} {f : CapturedFixture}
    (h : Loaded policy f) : Sound policy f := by
  obtain ⟨_, _, _, _, _, _, hdecoded⟩ := h.decoded
  exact hdecoded.sound

theorem Captured.sound [LawfulCrates] {policy : ProtocolPolicy} {f : CapturedFixture}
    (h : Captured policy f) : Sound policy f := by
  cases h with
  | capture b scenario keys w w' hpolicy h => exact hpolicy ▸ captured_sound h

end Kanatoko
