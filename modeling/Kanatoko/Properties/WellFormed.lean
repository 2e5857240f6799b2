import Kanatoko.Capture.Replay
import Kanatoko.Properties.Metadata
import Kanatoko.Properties.Representation
import Kanatoko.Testnet.Native

/-!
# Well-formed fixtures

What the representation invariant says without the words of the checks, and what it makes
unreachable: the panic of `env_from_materialized`, the errors of `inventory_keys`, and the
internal error of `to_bundle`.
-/

namespace Kanatoko

open Fallible

variable [Crates] {σ : Type}

/-! ## Entry metadata -/

/-- A live-until ledger that the network can have set by `sequence`. -/
def LiveAt (sequence maxEntryTtl ttl : UInt32) : Prop :=
  sequence ≤ ttl ∧ ttl.toNat < sequence.toNat + maxEntryTtl.toNat

/-- A supported family, with the last-modified and live-until ledgers it can have. -/
structure ValidMetadata (entry : LedgerEntry) (liveUntil : Option UInt32)
    (sequence maxEntryTtl : UInt32) : Prop where
  lastModified : entry.lastModifiedLedgerSeq ≤ sequence
  ttl : match entry.data with
    | .contractCode _ => ∃ ttl, liveUntil = some ttl ∧ (ttl = 0 ∨ LiveAt sequence maxEntryTtl ttl)
    | .contractData data => ∃ ttl, liveUntil = some ttl ∧
        (data.durability = .persistent ∧ ttl = 0 ∨ LiveAt sequence maxEntryTtl ttl)
    | .account _ | .trustline _ => liveUntil = none
    | _ => False

omit [Crates] in
theorem liveAt_of_liveIn {sequence maxEntryTtl ttl : UInt32} (h : LiveIn sequence maxEntryTtl ttl) :
    LiveAt sequence maxEntryTtl ttl := by
  obtain ⟨hlow, hhigh⟩ := h
  rw [LiveAt, UInt32.le_iff_toNat_le]
  omega

omit [Crates] in
theorem validMetadata_of_check {entry : LedgerEntry} {liveUntil : Option UInt32}
    {sequence maxEntryTtl : UInt32}
    (h : validateEntryMetadata entry liveUntil sequence maxEntryTtl = true) :
    ValidMetadata entry liveUntil sequence maxEntryTtl := by
  obtain ⟨_, hmodified, _, hlive⟩ := validateEntryMetadata_iff.mp h
  refine ⟨UInt32.le_iff_toNat_le.mpr (by omega), ?_⟩
  unfold LiveUntilSpec at hlive
  cases hd : entry.data with
  | contractCode code =>
    rw [hd] at hlive
    obtain ⟨ttl, hsome, hz | hin⟩ := hlive
    · exact ⟨ttl, hsome, Or.inl hz⟩
    · exact ⟨ttl, hsome, Or.inr (liveAt_of_liveIn hin)⟩
  | contractData data =>
    rw [hd] at hlive
    cases hdur : data.durability with
    | persistent =>
      simp only [hdur] at hlive
      obtain ⟨ttl, hsome, hz | hin⟩ := hlive
      · exact ⟨ttl, hsome, Or.inl ⟨hdur, hz⟩⟩
      · exact ⟨ttl, hsome, Or.inr (liveAt_of_liveIn hin)⟩
    | temporary =>
      simp only [hdur] at hlive
      obtain ⟨ttl, hsome, hin⟩ := hlive
      exact ⟨ttl, hsome, Or.inr (liveAt_of_liveIn hin)⟩
  | account account =>
    rw [hd] at hlive
    exact hlive
  | trustline trustline =>
    rw [hd] at hlive
    exact hlive
  | offer _ _ _ | data _ _ _ | claimableBalance _ _ | liquidityPool _ _
  | configSetting _ | ttl _ _ =>
    rw [hd] at hlive
    exact hlive

/-! ## Executable chains -/

/-- The code of a hash is Present. -/
def CodePresent (coverage : Coverage) (hash : Hash) : Prop :=
  ∃ id entry liveUntil, ledgerKeyToXdr (.contractCode hash) = some id ∧
    coverage[id]? = some (.present entry liveUntil)

/-- Everything an executable needs is Present, down to its code. -/
def ChainPresent (coverage : Coverage) : ContractExecutable → Prop
  | .wasm hash => CodePresent coverage hash
  | .stellarAsset => True
  | .externalRef externalRef => ∃ id entry liveUntil data bytes hash,
      ledgerKeyToXdr (executableRefKey externalRef) = some id ∧
      coverage[id]? = some (.present entry liveUntil) ∧ entry.data = .contractData data ∧
      data.val = .bytes bytes ∧ bytes32? bytes = some hash ∧ CodePresent coverage hash

theorem codePresent_of_ensure {coverage : Coverage} {hash : Hash}
    (h : ensureCodePresent coverage hash = .ok ()) : CodePresent coverage hash := by
  unfold ensureCodePresent at h
  obtain ⟨id, hid, h⟩ := bind_eq_ok.mp h
  rw [keyId_eq_ok] at hid
  obtain ⟨state, hstate, hp⟩ := (Option.any_eq_true _ _).mp (ensure_eq_ok.mp h)
  cases state with
  | absent => cases hp
  | present entry liveUntil => exact ⟨id, entry, liveUntil, hid, hstate⟩

/-- A reference that resolves to code is Present, and its value is the hash of the code. -/
theorem externalRefCodeKey_some {coverage : Coverage}
    {externalRef : ContractExecutableExternalRef} {key : LedgerKey}
    (h : externalRefCodeKey coverage externalRef = .ok (some key)) :
    ∃ id entry liveUntil data bytes hash,
      ledgerKeyToXdr (executableRefKey externalRef) = some id ∧
      coverage[id]? = some (.present entry liveUntil) ∧ entry.data = .contractData data ∧
      data.val = .bytes bytes ∧ bytes32? bytes = some hash ∧ key = .contractCode hash := by
  unfold externalRefCodeKey at h
  obtain ⟨id, hid, h⟩ := bind_eq_ok.mp h
  rw [keyId_eq_ok] at hid
  split at h
  · cases pure_eq_ok.mp h
  · exact absurd h throw_ne_ok
  · next entry liveUntil hstate =>
    split at h
    · next data hdata =>
      split at h
      · next bytes hval =>
        obtain ⟨hash, hhash, h⟩ := bind_eq_ok.mp h
        rw [orError_eq_ok] at hhash
        cases pure_eq_ok.mp h
        exact ⟨id, entry, liveUntil, data, bytes, hash, hid, hstate, hdata, hval, hhash, rfl⟩
      · exact absurd h throw_ne_ok
    · exact absurd h throw_ne_ok

/-- The closure check makes every chain complete. -/
theorem chainPresent_of_closed {coverage : Coverage}
    (h : ensureExecutableClosurePresent coverage = .ok ()) {id : KeyId} {state : LookupState}
    {executable : ContractExecutable} (hstate : coverage[id]? = some state)
    (hexec : state.executable? = some executable) : ChainPresent coverage executable := by
  have hone := forM_eq_ok.mp h (id, state) (Std.ExtTreeMap.mem_toList_iff_getElem?_eq_some.mpr hstate)
  unfold ensureExecutablePresent at hone
  simp only [hexec] at hone
  cases executable with
  | wasm hash => exact codePresent_of_ensure hone
  | stellarAsset => trivial
  | externalRef externalRef =>
    obtain ⟨codeKey, hcode, hone⟩ := bind_eq_ok.mp hone
    cases codeKey with
    | none => exact absurd hone throw_ne_ok
    | some key =>
      obtain ⟨id, entry, liveUntil, data, bytes, hash, hid, hs, hd, hv, hb, rfl⟩ :=
        externalRefCodeKey_some hcode
      exact ⟨id, entry, liveUntil, data, bytes, hash, hid, hs, hd, hv, hb,
        codePresent_of_ensure hone⟩

/-! ## Well-formed fixtures -/

/-- The representation invariant of captured fixtures. -/
structure WellFormed (f : CapturedFixture) : Prop where
  /-- The Present part of the coverage is exactly the snapshot's entries. -/
  entries : ∀ key entry liveUntil, (key, (entry, liveUntil)) ∈ f.fixture.snapshot.ledgerEntries ↔
    key = entry.toKey ∧ ∃ id : KeyId, ledgerKeyToXdr key = some id ∧
      f.coverage[id]? = some (LookupState.present entry liveUntil)
  present : ∀ (id : KeyId) entry liveUntil,
    f.coverage[id]? = some (LookupState.present entry liveUntil) →
    ledgerKeyToXdr entry.toKey = some id
  keys_nodup : (f.fixture.snapshot.ledgerEntries.map Prod.fst).Nodup
  absent_canonical : ∀ id : KeyId, f.coverage[id]? = some LookupState.absent →
    ∃ key, ledgerKeyFromXdr id = some key ∧ ledgerKeyToXdr key = some id
  absent_disjoint : ∀ id : KeyId, f.coverage[id]? = some LookupState.absent →
    ∀ x ∈ f.fixture.snapshot.ledgerEntries, ledgerKeyToXdr x.1 ≠ some id
  not_archival : ∀ id ∈ f.coverage, ledgerKeyToXdr stateArchivalKey ≠ some id
  metadata : ∀ (id : KeyId) entry liveUntil,
    f.coverage[id]? = some (LookupState.present entry liveUntil) →
    ValidMetadata entry liveUntil f.fixture.snapshot.sequenceNumber
      f.fixture.snapshot.maxEntryTtl
  code_hash : ∀ (id : KeyId) entry liveUntil code,
    f.coverage[id]? = some (LookupState.present entry liveUntil) →
    entry.data = .contractCode code → code.hash = sha256 code.code
  chains : ∀ (id : KeyId) entry liveUntil data inst,
    f.coverage[id]? = some (LookupState.present entry liveUntil) →
    entry.data = .contractData data → data.val = .contractInstance inst →
    ChainPresent f.coverage inst.executable
  counts : f.report.presentEntries = usize (presentCount f.coverage) ∧
    f.report.absentEntries = usize (absentCount f.coverage)
  inventory : inventoryDigest f.coverage = .ok f.report.inventoryDigest
  networkId : f.fixture.snapshot.networkId = sha256 (asBytes f.provenance.networkPassphrase)
  sequence : f.provenance.ledgerSequence = f.fixture.snapshot.sequenceNumber
  protocol : f.provenance.protocolVersion = f.fixture.snapshot.protocolVersion

theorem validateState_present {sequence maxTtl : UInt32} {id : KeyId} {entry : LedgerEntry}
    {liveUntil : Option UInt32}
    (h : validateState sequence maxTtl (id, .present entry liveUntil) = .ok ()) :
    codeHashMatches entry = true ∧
      validateEntryMetadata entry liveUntil sequence maxTtl = true := by
  unfold validateState at h
  obtain ⟨_, _, h₁⟩ := bind_eq_ok.mp h
  obtain ⟨_, _, h₂⟩ := bind_eq_ok.mp h₁
  obtain ⟨_, hcode, h₃⟩ := bind_eq_ok.mp h₂
  exact ⟨ensure_eq_ok.mp hcode, ensure_eq_ok.mp h₃⟩

theorem Sound.covered_key [LawfulCrates] {policy : ProtocolPolicy} {f : CapturedFixture}
    (h : Sound policy f) {id : KeyId} (hid : id ∈ f.coverage) :
    ∃ key, ledgerKeyToXdr key = some id ∧ isStateArchivalKey key = false := by
  obtain ⟨state, hstate⟩ := Option.isSome_iff_exists.mp
    (Std.ExtTreeMap.mem_iff_isSome_getElem?.mp hid)
  cases state with
  | absent =>
    obtain ⟨key, _, hkey, hna⟩ := h.absent id hstate
    exact ⟨key, hkey, hna⟩
  | present entry liveUntil =>
    obtain ⟨hna, hkey⟩ := h.present id entry liveUntil hstate
    exact ⟨entry.toKey, hkey, hna⟩

/-- **Sound fixtures are well formed.** -/
theorem Sound.wellFormed [LawfulCrates] {policy : ProtocolPolicy} {f : CapturedFixture}
    (h : Sound policy f) : WellFormed f := by
  obtain ⟨_, hnetwork, _, hdigest⟩ := fromSnapshotWithPolicy_eq_ok.mp h.frozen
  have hstate : ∀ (id : KeyId) entry liveUntil,
      f.coverage[id]? = some (LookupState.present entry liveUntil) →
      codeHashMatches entry = true ∧ validateEntryMetadata entry liveUntil
        f.fixture.snapshot.sequenceNumber f.fixture.snapshot.maxEntryTtl = true :=
    fun id entry liveUntil hs => validateState_present (forM_eq_ok.mp h.validated _
      (Std.ExtTreeMap.mem_toList_iff_getElem?_eq_some.mpr hs))
  exact
    { entries := fun key entry liveUntil => by
        rw [h.entries]
        constructor
        · rintro ⟨rfl, id, hs⟩
          exact ⟨rfl, id, (h.present id entry liveUntil hs).2, hs⟩
        · rintro ⟨hkey, id, _, hs⟩
          exact ⟨hkey, id, hs⟩
      present := fun id entry liveUntil hs => (h.present id entry liveUntil hs).2
      keys_nodup := (canonical_of_digest hdigest).nodup_keys
      absent_canonical := fun id hs => by
        obtain ⟨key, hfrom, hto, _⟩ := h.absent id hs
        exact ⟨key, hfrom, hto⟩
      absent_disjoint := fun id hs => by
        rintro ⟨key, entry, liveUntil⟩ hx hid
        obtain ⟨hkey, id', hs'⟩ := (h.entries key entry liveUntil).mp hx
        have hid' := (h.present id' entry liveUntil hs').2
        rw [← hkey, hid] at hid'
        cases hid'
        rw [hs] at hs'
        cases hs'
      not_archival := fun id hid hcfg => by
        obtain ⟨key, hkey, hna⟩ := h.covered_key hid
        have heq : key = stateArchivalKey := ledgerKeyToXdr_inj hkey hcfg
        rw [isStateArchivalKey_iff.mpr heq] at hna
        cases hna
      metadata := fun id entry liveUntil hs =>
        validMetadata_of_check (hstate id entry liveUntil hs).2
      code_hash := fun id entry liveUntil code hs hdata => by
        have hcode := (hstate id entry liveUntil hs).1
        rw [codeHashMatches, hdata] at hcode
        exact of_decide_eq_true hcode
      chains := fun id entry liveUntil data inst hs hdata hval =>
        chainPresent_of_closed h.closed hs (by simp only [LookupState.executable?, hdata, hval])
      counts := h.counts
      inventory := h.inventory
      networkId := hnetwork
      sequence := h.sequence
      protocol := h.protocol }

/-! ## What cannot fail -/

/-- A coverage whose Present states are canonical and not the archival key has a snapshot. -/
theorem envFromMaterialized_ok {m : Materialized}
    (h : ∀ (id : KeyId) entry liveUntil,
      m.coverage[id]? = some (LookupState.present entry liveUntil) →
      isStateArchivalKey entry.toKey = false ∧ ledgerKeyToXdr entry.toKey = some id) :
    ∃ env, envFromMaterialized m = .ok env := by
  have hentries : snapshotEntries m.coverage.toList = .ok (presentEntries m.coverage.toList) :=
    snapshotEntries_eq_ok.mpr ⟨rfl, fun id entry liveUntil hmem =>
      h id entry liveUntil (Std.ExtTreeMap.mem_toList_iff_getElem?_eq_some.mp hmem)⟩
  have hsnapshot : snapshotFromMaterialized m
      = .ok { m.ledgerInfo with ledgerEntries := presentEntries m.coverage.toList } :=
    snapshotFromMaterialized_eq_ok.mpr ⟨rfl, hentries⟩
  exact ⟨_, by rw [envFromMaterialized, hsnapshot]⟩

theorem decodeKeys_ok : ∀ {ids : List KeyId} (keys : KeyMap),
    (∀ id ∈ ids, ∃ key, ledgerKeyFromXdr id = some key ∧ ledgerKeyToXdr key = some id ∧
      isStateArchivalKey key = false) →
    ∃ keys', decodeKeys ids keys = .ok keys' ∧
      ∀ id, id ∈ keys'.map ↔ id ∈ keys.map ∨ id ∈ ids
  | [], keys, _ => ⟨keys, rfl, by simp⟩
  | id :: rest, keys, h => by
    obtain ⟨key, hfrom, hto, hna⟩ := h id List.mem_cons_self
    obtain ⟨keys', hkeys', hids⟩ := decodeKeys_ok (keys.insert id key hto)
      fun id' hid' => h id' (List.mem_cons_of_mem _ hid')
    refine ⟨keys', ?_, fun id' => ?_⟩
    · rw [decodeKeys, hfrom]
      dsimp only
      split
      · next hnone => rw [hto] at hnone; cases hnone
      · next derived hderived =>
        obtain rfl : id = derived := Option.some.inj (hto.symm.trans hderived)
        rw [if_neg (by simp [hna])]
        exact hkeys'
    · rw [hids, KeyMap.insert, Std.ExtTreeMap.mem_insert, Std.LawfulEqCmp.compare_eq_iff_eq,
        List.mem_cons, eq_comm]
      tauto

/-- The key inventory of a sound fixture decodes to its covered ids. -/
theorem Sound.inventoryKeys_ok [LawfulCrates] {policy : ProtocolPolicy} {f : CapturedFixture}
    (h : Sound policy f) :
    ∃ keys, f.inventoryKeys = .ok keys ∧ ∀ id, id ∈ keys.map ↔ id ∈ f.coverage := by
  have hcovered : ∀ id ∈ f.coverage.keys, ∃ key, ledgerKeyFromXdr id = some key ∧
      ledgerKeyToXdr key = some id ∧ isStateArchivalKey key = false := by
    intro id hid
    obtain ⟨key, hkey, hna⟩ := h.covered_key (Std.ExtTreeMap.mem_keys.mp hid)
    exact ⟨key, LawfulCrates.ledgerKeyFromXdr_toXdr hkey, hkey, hna⟩
  obtain ⟨keys, hkeys, hids⟩ := decodeKeys_ok .empty hcovered
  refine ⟨keys, hkeys, fun id => ?_⟩
  rw [hids, Std.ExtTreeMap.mem_keys]
  simp [KeyMap.empty]

/-- The bundle digest of encoded ids exists. -/
theorem bundleDigestBytes_ok [LawfulCrates] (ids : List KeyId) (report : BundleReport)
    (provenance : BundleProvenance) (ledger inventory : Bytes32) :
    ∃ digest, canonicalBundleDigest (ids.map base64Encode) report provenance ledger inventory
      = .ok digest := by
  have habsent : (ids.map base64Encode).mapM absentKeyBytes = .ok (ids.map lengthPrefixed) := by
    rw [mapM_eq_ok, List.forall₂_map_left_iff, List.forall₂_map_right_iff, List.forall₂_same]
    intro id _
    exact bind_eq_ok.mpr ⟨id, orError_eq_ok.mpr (LawfulCrates.base64Decode_encode id), rfl⟩
  exact ⟨_, bind_eq_ok.mpr ⟨_, bind_eq_ok.mpr ⟨_, habsent, rfl⟩, rfl⟩⟩

/-- The bundle a sound fixture is written as. -/
theorem Sound.toBundle_ok [LawfulCrates] {policy : ProtocolPolicy} {f : CapturedFixture}
    (h : Sound policy f) :
    ∃ canonical report, f.toBundle = .ok
        { schemaVersion := captureBundleSchemaVersion
          ledgerSnapshot := f.fixture.snapshot
          knownAbsent := f.knownAbsentKeys.map base64Encode
          report := report
          provenance := f.provenance.toBundle
          ledgerDigest := hex f.fixture.ledgerDigest.toList
          inventoryDigest := hex f.report.inventoryDigest.toList
          canonicalDigest := hex canonical.toList } ∧
      report = ⟨UInt32.ofNat f.report.discoveryRounds, f.report.presentEntries,
        f.report.absentEntries, f.report.finalReplayRpcReads⟩ ∧
      canonicalBundleDigest (f.knownAbsentKeys.map base64Encode) report f.provenance.toBundle
        f.fixture.ledgerDigest f.report.inventoryDigest = .ok canonical := by
  obtain ⟨canonical, hcanonical⟩ := bundleDigestBytes_ok f.knownAbsentKeys
    ⟨UInt32.ofNat f.report.discoveryRounds, f.report.presentEntries, f.report.absentEntries,
      f.report.finalReplayRpcReads⟩ f.provenance.toBundle f.fixture.ledgerDigest
    f.report.inventoryDigest
  have hrounds : f.report.discoveryRounds < 2 ^ 32 :=
    Nat.lt_of_le_of_lt h.rounds.2 (by decide)
  exact ⟨canonical, _, bind_eq_ok.mpr ⟨_, h.inventory, bind_eq_ok.mpr ⟨⟨⟩, ensure_eq_ok.mpr rfl,
    bind_eq_ok.mpr ⟨⟨⟩, ensure_eq_ok.mpr hrounds, bind_eq_ok.mpr ⟨canonical, hcanonical, rfl⟩⟩⟩⟩,
    rfl, hcanonical⟩

/-! ## No capture panics -/

/-- What an attempt gives has a snapshot. -/
theorem Attempt.Gives.presentable {a : Attempt} {settings : StateArchivalSettings}
    {b : CaptureBuilder σ} {keys : KeyMap} {m : Materialized} (h : a.Gives settings b keys m)
    (id : KeyId) (entry : LedgerEntry) (liveUntil : Option UInt32)
    (hs : m.coverage[id]? = some (.present entry liveUntil)) :
    isStateArchivalKey entry.toKey = false ∧ ledgerKeyToXdr entry.toKey = some id := by
  obtain ⟨hmem, _, hid⟩ := (h.yields.present id entry liveUntil).mp hs
  refine ⟨?_, hid⟩
  rw [Bool.eq_false_iff, ne_eq, isStateArchivalKey_iff]
  intro heq
  rw [heq] at hid
  exact ((h.covered id).mp hmem).2 hid

theorem passOver_no_panic {R : Type} {transport : Option (Transport σ)} {scenario : Scenario R}
    {m : Materialized} (henv : ∃ env, envFromMaterialized m = .ok env) {w w' : World σ} :
    passOver transport scenario m w ≠ .error .panicked w' := by
  intro h
  obtain ⟨env, henv⟩ := henv
  rcases run_bind_eq_error.mp h with h | ⟨env', w₁, _, h⟩
  · rw [run_lift_eq_error, henv] at h
    exact absurd h.1 (by simp)
  · cases h

theorem captureRounds_no_panic {b : CaptureBuilder σ} {scenario : Scenario Unit} :
    ∀ {rounds round : Nat} {keys : KeyMap} {m : Materialized} {w w' : World σ} {a : Attempt}
      {settings : StateArchivalSettings}, a.Gives settings b keys m →
    b.captureRounds scenario rounds round keys m w ≠ .error .panicked w'
  | 0, _, _, _, _, _, _, _, _, h => (Orderly.stop _).no_panic h
  | rounds + 1, round, keys, m, w, w', a, settings, hgives, h => by
    rw [CaptureBuilder.captureRounds] at h
    rcases run_bind_eq_error.mp h with h | ⟨⟨passEnd, source⟩, w₁, hpass, h⟩
    · exact passOver_no_panic (envFromMaterialized_ok hgives.presentable) h
    rcases run_bind_eq_error.mp h with h | ⟨_, w₂, _, h⟩
    · exact (Orderly.lift _).no_panic h
    rcases run_bind_eq_error.mp h with h | ⟨stored, w₃, _, h⟩
    · exact (Orderly.lift _).no_panic h
    rcases run_bind_eq_error.mp h with h | ⟨⟨keys₁, added⟩, w₄, _, h⟩
    · exact (Orderly.lift _).no_panic h
    dsimp only at h
    split at h
    · rcases run_bind_eq_error.mp h with h | ⟨⟨keys₂, m₂⟩, w₅, hm, h⟩
      · exact (materializeClosed_orderly b _).no_panic h
      · obtain ⟨a', settings', hclosed⟩ := materializeClosed_spec List.prefix_rfl hm
        exact captureRounds_no_panic hclosed.gives h
    · exact (Orderly.lift _).no_panic h

/-- The `expect` of an environment is never reached with a materialization it cannot hold. -/
theorem captureRefFromKeys_no_panic {b : CaptureBuilder σ} {scenario : Scenario Unit}
    {keys : KeyMap} {w w' : World σ} :
    b.captureRefFromKeys scenario keys w ≠ .error .panicked w' := by
  intro h
  unfold CaptureBuilder.captureRefFromKeys at h
  rcases run_bind_eq_error.mp h with h | ⟨_, w₁, _, h⟩
  · exact (validateNetwork_orderly b).no_panic h
  rcases run_bind_eq_error.mp h with h | ⟨⟨keys₁, m⟩, w₂, hm, h⟩
  · exact (materializeClosed_orderly b _).no_panic h
  · obtain ⟨a, settings, hclosed⟩ := materializeClosed_spec List.prefix_rfl hm
    exact captureRounds_no_panic hclosed.gives h

/-! ## The representation invariant -/

/-- What the invariant makes unreachable. -/
structure Unreachable (f : CapturedFixture) : Prop where
  /-- The `expect` of `env_from_materialized`. -/
  env : ∃ env, envFromMaterialized f.materialized = .ok env
  /-- The errors of `inventory_keys`. -/
  inventory : ∃ keys, f.inventoryKeys = .ok keys ∧ ∀ id, id ∈ keys.map ↔ id ∈ f.coverage
  /-- The internal error of `to_bundle`. -/
  bundle : f.toBundle ≠ .error .internalInvariant

theorem Sound.unreachable [LawfulCrates] {policy : ProtocolPolicy} {f : CapturedFixture}
    (h : Sound policy f) : Unreachable f where
  env := envFromMaterialized_ok h.present
  inventory := h.inventoryKeys_ok
  bundle := by
    obtain ⟨canonical, report, hbundle, _⟩ := h.toBundle_ok
    rw [hbundle]
    simp

/--
**All ways to obtain a captured fixture establish one representation invariant.**

Neither the panic of an environment nor an error that blames the invariant is reachable,
from a fixture or while it is captured.
-/
theorem obtained_wellFormed [LawfulCrates] [BundleCrates] :
    (∀ policy f, Captured policy f ∨ Loaded policy f → WellFormed f ∧ Unreachable f) ∧
      ∀ {σ : Type} (b : CaptureBuilder σ) (scenario : Scenario Unit) (keys : KeyMap)
        (w w' : World σ), b.captureRefFromKeys scenario keys w ≠ .error .panicked w' := by
  refine ⟨fun policy f h => ?_, fun b scenario keys w w' => captureRefFromKeys_no_panic⟩
  have hsound : Sound policy f := h.elim Captured.sound Loaded.sound
  exact ⟨hsound.wellFormed, hsound.unreachable⟩

end Kanatoko

namespace Kanatoko.Testnet

open Fallible

/-- The captured fixture of the native asset is well formed. -/
theorem native_obtained_wellFormed : ∃ f, f.toBundle = .ok nativeBundle ∧
    WellFormed f ∧ Unreachable f := by
  obtain ⟨f, w', hcapture, hbundle⟩ := native_captured
  exact ⟨f, hbundle, obtained_wellFormed.1 .exact f (Or.inl (.capture _ _ _ _ _ rfl hcapture))⟩

end Kanatoko.Testnet
