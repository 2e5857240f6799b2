import Kanatoko.Properties.WellFormed

/-!
# Bundles round trip

A sound fixture is written as a bundle that reads back as the fixture, and a bundle that is
accepted is written back as it was. The coverage is not in the bundle: it is rebuilt from
the snapshot entries and the known-absent keys.
-/

namespace Kanatoko

open Fallible

/-! ## Hexadecimal digests -/

/-- The digit of a nibble is one ASCII byte and decodes to the nibble. -/
theorem decodeHexNibble_digitChar : ∀ n : Fin 16,
    decodeHexNibble (Nat.digitChar n) = .ok (UInt8.ofNat n) ∧
      (Nat.digitChar n).utf8Size = 1 ∧ (Nat.digitChar n).toNat < 128 := by
  decide

theorem joinNibbles : ∀ n : Fin 256,
    UInt8.ofNat (n / 16) <<< 4 ||| UInt8.ofNat (n % 16) = UInt8.ofNat n := by
  decide +kernel

theorem decodeHexPairs_hexByte (bytes : Bytes) :
    decodeHexPairs (bytes.flatMap hexByte) = .ok bytes := by
  induction bytes with
  | nil => rfl
  | cons byte bytes ih =>
    have hlt : byte.toNat < 256 := byte.toNat_lt
    have hhigh := (decodeHexNibble_digitChar ⟨byte.toNat / 16, by omega⟩).1
    have hlow := (decodeHexNibble_digitChar ⟨byte.toNat % 16, by omega⟩).1
    have hjoin := joinNibbles ⟨byte.toNat, hlt⟩
    rw [List.flatMap_cons, hexByte, List.cons_append, List.cons_append, List.nil_append,
      decodeHexPairs]
    refine bind_eq_ok.mpr ⟨_, hhigh, bind_eq_ok.mpr ⟨_, hlow, bind_eq_ok.mpr ⟨_, ih, ?_⟩⟩⟩
    rw [pure_eq_ok]
    dsimp only at hjoin ⊢
    rw [hjoin, UInt8.ofNat_toNat]

/-- Every character of a hexadecimal string is one ASCII byte. -/
theorem hexByte_ascii {bytes : Bytes} {c : Char} (hc : c ∈ bytes.flatMap hexByte) :
    c.utf8Size = 1 ∧ c.toNat < 128 := by
  obtain ⟨byte, _, hc⟩ := List.mem_flatMap.mp hc
  have hlt : byte.toNat < 256 := byte.toNat_lt
  rw [hexByte, List.mem_cons, List.mem_singleton] at hc
  rcases hc with rfl | rfl
  · exact (decodeHexNibble_digitChar ⟨byte.toNat / 16, by omega⟩).2
  · exact (decodeHexNibble_digitChar ⟨byte.toNat % 16, by omega⟩).2

/-- A digest reads back from its hexadecimal string. -/
theorem decodeHexDigest_hex (digest : Bytes32) :
    decodeHexDigest (hex digest.toList) = .ok digest := by
  have hlen : strLen (hex digest.toList) = 64 := by
    rw [strLen, hex, String.toList_ofList, List.sum_eq_card_nsmul _ 1]
    · rw [List.length_map, length_flatMap_hexByte]
      simp
    · intro n hn
      obtain ⟨c, hc, rfl⟩ := List.mem_map.mp hn
      exact (hexByte_ascii hc).1
  have hascii : ∀ c ∈ (hex digest.toList).toList, c.toNat < 128 := by
    rw [hex, String.toList_ofList]
    exact fun c hc => (hexByte_ascii hc).2
  have hbytes : bytes32? digest.toList = some digest := by
    have hl : digest.toList.length = 32 := by simp
    rw [bytes32?, dif_pos hl, Option.some.injEq]
    apply Vector.toArray_inj.mp
    exact Array.toArray_toList
  refine bind_eq_ok.mpr ⟨⟨⟩, ensure_eq_ok.mpr ⟨hlen, hascii⟩, bind_eq_ok.mpr ⟨digest.toList, ?_,
    bind_eq_ok.mpr ⟨digest, orError_eq_ok.mpr hbytes, bind_eq_ok.mpr ⟨⟨⟩, ensure_eq_ok.mpr rfl, rfl⟩⟩⟩⟩
  rw [hex, String.toList_ofList]
  exact decodeHexPairs_hexByte _

/-- What was decoded is written back as it was. -/
theorem hex_of_decodeHexDigest {value : String} {digest : Bytes32}
    (h : decodeHexDigest value = .ok digest) : hex digest.toList = value := by
  unfold decodeHexDigest at h
  obtain ⟨_, _, h₁⟩ := bind_eq_ok.mp h
  obtain ⟨bytes, _, h₂⟩ := bind_eq_ok.mp h₁
  obtain ⟨decoded, _, h₃⟩ := bind_eq_ok.mp h₂
  obtain ⟨_, heq, h₄⟩ := bind_eq_ok.mp h₃
  cases pure_eq_ok.mp h₄
  exact ensure_eq_ok.mp heq

variable [Crates]

/-! ## The known-absent keys -/

omit [Crates] in
theorem mem_knownAbsentKeys {f : CapturedFixture} {id : KeyId} :
    id ∈ f.knownAbsentKeys ↔ f.coverage[id]? = some .absent := by
  unfold CapturedFixture.knownAbsentKeys
  rw [List.mem_filterMap, ← Std.ExtTreeMap.mem_toList_iff_getElem?_eq_some]
  constructor
  · rintro ⟨⟨id', state⟩, hmem, heq⟩
    cases state with
    | absent => simp only [Option.some.injEq] at heq; rw [← heq]; exact hmem
    | present _ _ => simp at heq
  · intro hmem
    exact ⟨_, hmem, rfl⟩

omit [Crates] in
theorem knownAbsentKeys_ascending (f : CapturedFixture) : f.knownAbsentKeys.Pairwise IdLt := by
  refine List.Pairwise.filterMap _ ?_ Std.ExtTreeMap.ordered_keys_toList
  rintro ⟨id, state⟩ ⟨id', state'⟩ hlt a ha a' ha'
  cases state <;> cases state' <;> simp_all [IdLt]

/-! ## Rebuilding the coverage -/

/-- Entries with distinct ids cover without a collision. -/
theorem presentCoverage_ok : ∀ {entries : List SnapshotEntry} {coverage : Coverage},
    (∀ x ∈ entries, isStateArchivalKey x.2.1.toKey = false ∧
      ∃ id, ledgerKeyToXdr x.2.1.toKey = some id ∧ id ∉ coverage) →
    (entries.map fun x => ledgerKeyToXdr x.2.1.toKey).Nodup →
    ∃ coverage', presentCoverage entries coverage = .ok coverage'
  | [], coverage, _, _ => ⟨coverage, rfl⟩
  | (key, (entry, liveUntil)) :: rest, coverage, h, hnd => by
    rw [List.map_cons, List.nodup_cons] at hnd
    obtain ⟨hna, id, hid, hnew⟩ := h _ List.mem_cons_self
    have hstill : ∀ x ∈ rest, isStateArchivalKey x.2.1.toKey = false ∧
        ∃ id', ledgerKeyToXdr x.2.1.toKey = some id' ∧
          id' ∉ coverage.insert id (.present entry liveUntil) := by
      intro x hx
      obtain ⟨hna', id', hid', hnew'⟩ := h x (List.mem_cons_of_mem _ hx)
      refine ⟨hna', id', hid', fun hmem => ?_⟩
      rw [Std.ExtTreeMap.mem_insert, Std.LawfulEqCmp.compare_eq_iff_eq] at hmem
      rcases hmem with rfl | hmem
      · exact hnd.1 (List.mem_map.mpr ⟨x, hx, by rw [hid', hid]⟩)
      · exact hnew' hmem
    obtain ⟨coverage', hrest⟩ := presentCoverage_ok hstill hnd.2
    exact ⟨coverage', bind_eq_ok.mpr ⟨⟨⟩, ensure_eq_ok.mpr hna, bind_eq_ok.mpr ⟨id,
      keyId_eq_ok.mpr hid, bind_eq_ok.mpr ⟨⟨⟩, ensure_eq_ok.mpr hnew, hrest⟩⟩⟩⟩

/-- Ascending ids of absent keys cover without a collision. -/
theorem absentCoverage_ok [LawfulCrates] : ∀ {ids : List KeyId} {previous : Option KeyId}
    {coverage : Coverage}, ids.Pairwise IdLt → (∀ p ∈ previous, ∀ id ∈ ids, IdLt p id) →
    (∀ id ∈ ids, id ∉ coverage ∧ ∃ key, ledgerKeyFromXdr id = some key ∧
      ledgerKeyToXdr key = some id ∧ isStateArchivalKey key = false) →
    ∃ coverage', absentCoverage (ids.map base64Encode) previous coverage = .ok coverage'
  | [], _, coverage, _, _, _ => ⟨coverage, rfl⟩
  | id :: rest, previous, coverage, hsorted, hprev, h => by
    rw [List.pairwise_cons] at hsorted
    obtain ⟨hnew, hkey⟩ := h id List.mem_cons_self
    have hfirst : ∀ p ∈ some id, ∀ id' ∈ rest, IdLt p id' := by
      intro p hp id' hid'
      cases hp
      exact hsorted.1 id' hid'
    have hstill : ∀ id' ∈ rest, id' ∉ coverage.insert id .absent ∧
        ∃ key, ledgerKeyFromXdr id' = some key ∧ ledgerKeyToXdr key = some id' ∧
          isStateArchivalKey key = false := by
      intro id' hid'
      obtain ⟨hnew', hkey'⟩ := h id' (List.mem_cons_of_mem _ hid')
      refine ⟨fun hmem => ?_, hkey'⟩
      rw [Std.ExtTreeMap.mem_insert, Std.LawfulEqCmp.compare_eq_iff_eq] at hmem
      rcases hmem with rfl | hmem
      · exact Ordered.not_lt_self _ (hsorted.1 _ hid')
      · exact hnew' hmem
    obtain ⟨coverage', hrest⟩ := absentCoverage_ok hsorted.2 hfirst hstill
    exact ⟨coverage', bind_eq_ok.mpr ⟨id, decodeAbsent_eq_ok.mpr
      ⟨LawfulCrates.base64Decode_encode id, rfl, hkey⟩, bind_eq_ok.mpr ⟨⟨⟩,
        ensure_eq_ok.mpr (fun p hp => hprev p hp id List.mem_cons_self), bind_eq_ok.mpr ⟨⟨⟩,
          ensure_eq_ok.mpr hnew, hrest⟩⟩⟩⟩

/-- Encoded ids decode to themselves. -/
theorem decodeAbsent_encoded [LawfulCrates] {l ids : List KeyId}
    (h : List.Forall₂ (fun encoded id => decodeAbsent encoded = .ok id) (l.map base64Encode) ids) :
    ids = l := by
  have heq : List.Forall₂ (· = ·) l ids := by
    refine (List.forall₂_map_left_iff.mp h).imp ?_
    intro id id' hdec
    obtain ⟨hbytes, _⟩ := decodeAbsent_eq_ok.mp hdec
    rw [LawfulCrates.base64Decode_encode] at hbytes
    exact Option.some.inj hbytes
  rw [List.forall₂_eq_eq_eq] at heq
  exact heq.symm

/-- The coverage of a sound fixture is rebuilt from its snapshot and its known-absent keys. -/
theorem Sound.bundleCoverage_ok [LawfulCrates] {policy : ProtocolPolicy} {f : CapturedFixture}
    (h : Sound policy f) :
    bundleCoverage f.fixture.snapshot (f.knownAbsentKeys.map base64Encode) = .ok f.coverage := by
  obtain ⟨_, _, _, hdigest⟩ := fromSnapshotWithPolicy_eq_ok.mp h.frozen
  obtain ⟨hkeys, _, hnodup⟩ := canonical_of_digest hdigest
  have hmap : (f.fixture.snapshot.ledgerEntries.map fun x => ledgerKeyToXdr x.1)
      = f.fixture.snapshot.ledgerEntries.map fun x => ledgerKeyToXdr x.2.1.toKey :=
    List.map_congr_left fun x hx => by rw [hkeys x hx]
  rw [hmap] at hnodup
  have hentry : ∀ x ∈ f.fixture.snapshot.ledgerEntries, ∃ id : KeyId,
      f.coverage[id]? = some (LookupState.present x.2.1 x.2.2) ∧
        isStateArchivalKey x.2.1.toKey = false ∧ ledgerKeyToXdr x.2.1.toKey = some id := by
    rintro ⟨key, entry, liveUntil⟩ hx
    obtain ⟨_, id, hs⟩ := (h.entries key entry liveUntil).mp hx
    exact ⟨id, hs, h.present id entry liveUntil hs⟩
  have hfresh : ∀ x ∈ f.fixture.snapshot.ledgerEntries, isStateArchivalKey x.2.1.toKey = false ∧
      ∃ id, ledgerKeyToXdr x.2.1.toKey = some id ∧ id ∉ (∅ : Coverage) := by
    intro x hx
    obtain ⟨id, _, hna, hid⟩ := hentry x hx
    exact ⟨hna, id, hid, by simp⟩
  obtain ⟨present, hpresent⟩ := presentCoverage_ok hfresh hnodup
  obtain ⟨hget, _⟩ := presentCoverage_spec hpresent
  have hpresentState : ∀ (id : KeyId) state, present[id]? = some state →
      f.coverage[id]? = some state := by
    intro id state hs
    rcases (hget id state).mp hs with hs | ⟨x, hx, rfl, hid⟩
    · simp at hs
    · obtain ⟨id', hs', _, hid'⟩ := hentry x hx
      rw [hid] at hid'
      cases hid'
      exact hs'
  have hnone : ∀ p ∈ (none : Option KeyId), ∀ id ∈ f.knownAbsentKeys, IdLt p id := by simp
  have habsent : ∀ id ∈ f.knownAbsentKeys, id ∉ present ∧
      ∃ key, ledgerKeyFromXdr id = some key ∧ ledgerKeyToXdr key = some id ∧
        isStateArchivalKey key = false := by
    intro id hid
    rw [mem_knownAbsentKeys] at hid
    refine ⟨fun hmem => ?_, h.absent id hid⟩
    obtain ⟨state, hstate⟩ := Option.isSome_iff_exists.mp
      (Std.ExtTreeMap.mem_iff_isSome_getElem?.mp hmem)
    rcases (hget id state).mp hstate with hs | ⟨x, _, rfl, _⟩
    · simp at hs
    · rw [hpresentState id _ hstate] at hid
      cases hid
  obtain ⟨coverage, hcoverage⟩ := absentCoverage_ok (knownAbsentKeys_ascending f) hnone habsent
  have heq : coverage = f.coverage := by
    obtain ⟨ids, hall, hasc, _, _, hcov⟩ := absentCoverage_spec hcoverage
    have hids : ids = f.knownAbsentKeys := decodeAbsent_encoded hall
    refine Std.ExtTreeMap.ext_getElem? fun {id} => ?_
    by_cases habsent : id ∈ f.knownAbsentKeys
    · rw [hcov, hids, if_pos habsent, mem_knownAbsentKeys.mp habsent]
    · rw [hcov, hids, if_neg habsent]
      cases hs : f.coverage[id]? with
      | none =>
        cases hp : present[id]? with
        | none => rfl
        | some state => rw [hpresentState id state hp] at hs; cases hs
      | some state =>
        cases state with
        | absent => exact absurd (mem_knownAbsentKeys.mpr hs) habsent
        | present entry liveUntil =>
          refine (hget id _).mpr (Or.inr ⟨(entry.toKey, (entry, liveUntil)), ?_, rfl,
            (h.present id entry liveUntil hs).2⟩)
          exact (h.entries _ entry liveUntil).mpr ⟨rfl, id, hs⟩
  rw [← heq]
  exact bind_eq_ok.mpr ⟨present, hpresent, hcoverage⟩

/-! ## From a fixture and back -/

/-- A sound fixture with a ledger hash reads back from the bundle it is written as. -/
theorem Sound.fromBundle_toBundle [LawfulCrates] {policy : ProtocolPolicy} {f : CapturedFixture}
    (h : Sound policy f) (hhash : f.provenance.ledgerHash ≠ "") :
    ∃ bundle, f.toBundle = .ok bundle ∧ bundle.schemaVersion = captureBundleSchemaVersion ∧
      CapturedFixture.fromBundle bundle f.provenance.networkPassphrase policy = .ok f := by
  obtain ⟨canonical, report, hbundle, hreport, hcanonical⟩ := h.toBundle_ok
  have hrounds : report.discoveryRounds.toNat = f.report.discoveryRounds := by
    rw [hreport]
    exact UInt32.toNat_ofNat_of_lt' (Nat.lt_of_le_of_lt h.rounds.2 (by decide))
  have hmeta : MetadataValid f.fixture.snapshot report f.provenance.toBundle
      f.provenance.networkPassphrase :=
    { passphrase_eq := rfl
      origin := h.origin
      sequence := h.sequence
      protocol := h.protocol
      hash_ne := hhash
      rounds_ne := by rw [hrounds]; exact Nat.one_le_iff_ne_zero.mp h.rounds.1
      rounds_le := by rw [hrounds]; exact h.rounds.2
      noReads := by rw [hreport]; exact h.noReads }
  refine ⟨_, hbundle, rfl, fromBundle_eq_ok.mpr
    ⟨⟨f.fixture.ledgerDigest, f.report.inventoryDigest⟩, ?_, ?_⟩⟩
  · exact validateBundleEnvelope_eq_ok.mpr ⟨rfl, hmeta, decodeHexDigest_hex _,
      decodeHexDigest_hex _, canonical, decodeHexDigest_hex _, hcanonical⟩
  · refine ⟨hmeta, h.frozen, rfl, h.bundleCoverage_ok, ?_, ?_⟩
    · exact validateBundleCoverage_eq_ok.mpr ⟨h.validated, h.closed, h.inventory,
        by rw [hreport]; exact h.counts.1.symm, by rw [hreport]; exact h.counts.2.symm,
        Prod.ext h.counts.1 h.counts.2⟩
    · have hreads := h.noReads
      obtain ⟨fixture, coverage, ⟨rounds, presents, absents, digest, reads⟩, provenance⟩ := f
      simp only [CapturedFixture.ofParts, hrounds, BundleProvenance.toCapture,
        CaptureProvenance.toBundle] at hreads ⊢
      rw [hreads]

/-! ## From a bundle and back -/

/-- Decoded strings encode to themselves. -/
theorem encoded_decodeAbsent {l : List String} {ids : List KeyId}
    (h : List.Forall₂ (fun encoded id => decodeAbsent encoded = .ok id) l ids) :
    ids.map base64Encode = l := by
  induction h with
  | nil => rfl
  | cons hfirst _ ih => rw [List.map_cons, ih, (decodeAbsent_eq_ok.mp hfirst).2.1]

/-- The known-absent strings of a decoded coverage are those of the bundle. -/
theorem bundleCoverage_knownAbsent {snapshot : LedgerSnapshot} {knownAbsent : List String}
    {f : CapturedFixture} (h : bundleCoverage snapshot knownAbsent = .ok f.coverage) :
    f.knownAbsentKeys.map base64Encode = knownAbsent := by
  obtain ⟨present, hpresent, habsent⟩ := bind_eq_ok.mp h
  obtain ⟨hget, _⟩ := presentCoverage_spec hpresent
  obtain ⟨ids, hall, hasc, _, _, hcov⟩ := absentCoverage_spec habsent
  have hids : f.knownAbsentKeys = ids := by
    refine Ordered.eq_of_ascending (knownAbsentKeys_ascending f) hasc fun id => ?_
    rw [mem_knownAbsentKeys, hcov]
    split
    · next hid => exact iff_of_true rfl hid
    · next hid =>
      refine iff_of_false (fun hs => ?_) hid
      rcases (hget id .absent).mp hs with hs | ⟨_, _, hx, _⟩
      · simp at hs
      · cases hx
  rw [hids]
  exact encoded_decodeAbsent hall

/-- An accepted schema-2 bundle is what its fixture is written as. -/
theorem toBundle_fromBundle [LawfulCrates] {bundle : CaptureBundleV2} {passphrase : String}
    {policy : ProtocolPolicy} {f : CapturedFixture}
    (h : CapturedFixture.fromBundle bundle passphrase policy = .ok f) :
    f.toBundle = .ok bundle := by
  obtain ⟨digests, henvelope, hdecoded⟩ := fromBundle_eq_ok.mp h
  obtain ⟨hversion, hmeta, hledger, hinventory, canonical, hcanonical, hdigest⟩ :=
    validateBundleEnvelope_eq_ok.mp henvelope
  obtain ⟨_, _, hsnapshot, _⟩ := fromSnapshotWithPolicy_eq_ok.mp hdecoded.frozen
  obtain ⟨canonical', report, hbundle, hreport, hcanonical'⟩ := hdecoded.sound.toBundle_ok
  obtain ⟨_, _, _, hp, ha, hcounts⟩ := validateBundleCoverage_eq_ok.mp hdecoded.validated
  rw [Prod.mk.injEq] at hcounts
  have habsent := bundleCoverage_knownAbsent hdecoded.coverage
  have hprovenance : f.provenance.toBundle = bundle.provenance := by rw [hdecoded.made]; rfl
  have hinv : f.report.inventoryDigest = digests.inventory := by rw [hdecoded.made]; rfl
  have hreport' : report = bundle.report := by
    have hrounds : f.report.discoveryRounds = bundle.report.discoveryRounds.toNat := by
      rw [hdecoded.made]; rfl
    rw [hreport, hrounds, hcounts.1, hcounts.2, hp, ha, hdecoded.sound.noReads, UInt32.ofNat_toNat,
      ← hmeta.noReads]
  rw [habsent, hprovenance, hreport', hdecoded.ledger, hinv, hdigest] at hcanonical'
  cases hcanonical'
  rw [hbundle, habsent, hprovenance, hreport', hdecoded.ledger, hinv, hsnapshot,
    hex_of_decodeHexDigest hledger, hex_of_decodeHexDigest hinventory,
    hex_of_decodeHexDigest hcanonical, ← hversion]

/-- The bytes of a bundle read back as what the bundle reads back as. -/
theorem fromBundleBytes_toVecPretty [BundleCrates] [LawfulBundleCrates] {bundle : CaptureBundleV2}
    {bytes : Bytes} {passphrase : String} {policy : ProtocolPolicy} {f : CapturedFixture}
    (hversion : bundle.schemaVersion = captureBundleSchemaVersion)
    (hfrom : CapturedFixture.fromBundle bundle passphrase policy = .ok f)
    (hbytes : toVecPretty bundle = some bytes) :
    CapturedFixture.fromBundleBytes bytes passphrase policy = .ok f := by
  have hv := LawfulBundleCrates.bundleVersionFromSlice_toVecPretty hbytes
  have hb := LawfulBundleCrates.captureBundleFromSlice_toVecPretty hbytes
  refine bind_eq_ok.mpr ⟨_, orError_eq_ok.mpr hv, ?_⟩
  rw [if_pos hversion]
  exact bind_eq_ok.mpr ⟨bundle, orError_eq_ok.mpr hb, hfrom⟩

/-- What `write_file` writes reads back as the fixture. -/
theorem Sound.fromBundleBytes_toBytes [LawfulCrates] [BundleCrates] [LawfulBundleCrates]
    {policy : ProtocolPolicy} {f : CapturedFixture} (h : Sound policy f)
    (hhash : f.provenance.ledgerHash ≠ "") {bytes : Bytes} (hbytes : f.toBytes = .ok bytes) :
    CapturedFixture.fromBundleBytes bytes f.provenance.networkPassphrase policy = .ok f := by
  obtain ⟨bundle, hbundle, hversion, hfrom⟩ := h.fromBundle_toBundle hhash
  obtain ⟨bundle', hbundle', hencoded⟩ := bind_eq_ok.mp hbytes
  cases hbundle.symm.trans hbundle'
  exact fromBundleBytes_toVecPretty hversion hfrom (orError_eq_ok.mp hencoded)

/--
**Bundles round trip in both directions.**

Forward, the bytes of the file read back too, whatever JSON they are.
-/
theorem bundle_round_trip [LawfulCrates] [BundleCrates] [LawfulBundleCrates]
    (policy : ProtocolPolicy) :
    (∀ f, Loaded policy f ∨ Captured policy f ∧ f.provenance.ledgerHash ≠ "" →
      ∃ bundle, f.toBundle = .ok bundle ∧
        CapturedFixture.fromBundle bundle f.provenance.networkPassphrase policy = .ok f ∧
        ∀ bytes, toVecPretty bundle = some bytes →
          CapturedFixture.fromBundleBytes bytes f.provenance.networkPassphrase policy = .ok f) ∧
      ∀ bundle passphrase f, CapturedFixture.fromBundle bundle passphrase policy = .ok f →
        f.toBundle = .ok bundle := by
  refine ⟨fun f hf => ?_, fun bundle passphrase f h => toBundle_fromBundle h⟩
  have hsound : Sound policy f ∧ f.provenance.ledgerHash ≠ "" := by
    rcases hf with hf | ⟨hf, hhash⟩
    · obtain ⟨_, _, _, _, _, _, hdecoded⟩ := hf.decoded
      refine ⟨hf.sound, ?_⟩
      rw [hdecoded.made]
      exact hdecoded.metadata.hash_ne
    · exact ⟨hf.sound, hhash⟩
  obtain ⟨bundle, hbundle, hversion, hfrom⟩ := hsound.1.fromBundle_toBundle hsound.2
  exact ⟨bundle, hbundle, hfrom, fun bytes => fromBundleBytes_toVecPretty hversion hfrom⟩

end Kanatoko

namespace Kanatoko.Testnet

open Fallible

/-- The bundle file of the native asset reads back as the captured fixture. -/
theorem native_bundle_round_trip : ∃ f, f.toBundle = .ok nativeBundle ∧
    CapturedFixture.fromBundleBytes nativeFile f.provenance.networkPassphrase .exact = .ok f ∧
    ∀ f', CapturedFixture.fromBundle nativeBundle testnetPassphrase .exact = .ok f' →
      f'.toBundle = .ok nativeBundle := by
  obtain ⟨f, w', hcapture, hbundle⟩ := native_captured
  have hf : Captured .exact f := .capture _ _ _ _ _ rfl hcapture
  have hround := bundle_round_trip .exact
  have hhash : f.provenance.ledgerHash ≠ "" := by
    obtain ⟨canonical, report, hwritten, _⟩ := hf.sound.toBundle_ok
    have hprovenance := congrArg CaptureBundleV2.provenance
      (Except.ok.inj (hwritten.symm.trans hbundle))
    rw [show f.provenance.ledgerHash = nativeBundle.provenance.ledgerHash from
      congrArg BundleProvenance.ledgerHash hprovenance]
    decide
  obtain ⟨bundle, hbundle', _, hbytes⟩ := hround.1 f (Or.inr ⟨hf, hhash⟩)
  cases hbundle.symm.trans hbundle'
  exact ⟨f, hbundle, hbytes nativeFile (if_pos rfl),
    fun f' => hround.2 nativeBundle testnetPassphrase f'⟩

end Kanatoko.Testnet
