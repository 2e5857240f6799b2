import Kanatoko.Lib.Delimited
import Kanatoko.Properties.RoundTrip

/-!
# The bundle digest binds the fixture

Each of the three digests is taken of a concatenation of delimited pieces behind a domain of
its own. So without a collision among the hashed messages, bundles of one canonical digest
are of one schema, and hold one inventory digest and one ledger digest; an inventory digest
determines the coverage, and a ledger digest the header.
-/

namespace Kanatoko

open Fallible

/-! ## Pieces -/

/-- SHA-256 takes messages of less than 2^64 bits. -/
def maxMessageLength : Nat := 2 ^ 61

/-- The digests of these messages are defined, and no two of them collide. -/
structure NoCollision [Crates] (messages : Set Bytes) : Prop where
  length_lt : ∀ m ∈ messages, m.length < maxMessageLength
  injOn : Set.InjOn sha256 messages

theorem toBeBytes_length : ∀ width n, (toBeBytes width n).length = width
  | 0, _ => rfl
  | width + 1, n => by rw [toBeBytes, List.length_cons, toBeBytes_length]

/-- The lowest bytes determine the number up to what they cannot hold. -/
theorem mod_of_toBeBytes : ∀ {width m n : Nat}, toBeBytes width m = toBeBytes width n →
    m % 256 ^ width = n % 256 ^ width
  | 0, m, n, _ => by rw [Nat.pow_zero, Nat.mod_one, Nat.mod_one]
  | width + 1, m, n, h => by
    obtain ⟨hhead, hrest⟩ := List.cons.inj h
    have hlow := mod_of_toBeBytes hrest
    have hhigh : m / 256 ^ width % 256 = n / 256 ^ width % 256 := by
      have hnat := congrArg UInt8.toNat hhead
      rwa [UInt8.toNat_ofNat', UInt8.toNat_ofNat'] at hnat
    rw [Nat.pow_succ, Nat.mod_mul, Nat.mod_mul, hlow, hhigh]

theorem toBeBytes_injective {width m n : Nat} (hm : m < 256 ^ width) (hn : n < 256 ^ width)
    (h : toBeBytes width m = toBeBytes width n) : m = n := by
  have hmod := mod_of_toBeBytes h
  rwa [Nat.mod_eq_of_lt hm, Nat.mod_eq_of_lt hn] at hmod

section Pieces

variable {bound : Nat}

theorem delimited_u32 : Delimited bound fun n : UInt32 => toBeBytes 4 n.toNat :=
  .of_length (fun _ _ => by rw [toBeBytes_length, toBeBytes_length]) fun a b h =>
    UInt32.toNat_inj.mp (toBeBytes_injective a.toNat_lt b.toNat_lt h)

theorem delimited_u64 : Delimited bound fun n : UInt64 => toBeBytes 8 n.toNat :=
  .of_length (fun _ _ => by rw [toBeBytes_length, toBeBytes_length]) fun a b h =>
    UInt64.toNat_inj.mp (toBeBytes_injective a.toNat_lt b.toNat_lt h)

theorem delimited_bytes32 : Delimited bound fun b : Bytes32 => b.toList :=
  .of_length (fun a b => by rw [Vector.length_toList, Vector.length_toList]) fun _ _ h =>
    Vector.toList_inj.mp h

theorem asBytes_injective : Function.Injective asBytes := by
  intro s t h
  exact String.toByteArray_inj.mp (ByteArray.ext (Array.toList_inj.mp h))

end Pieces

theorem fixedWidth_u64 {bound : Nat} (h : bound ≤ 2 ^ 64) : FixedWidth bound (toBeBytes 8) where
  width _ _ := by rw [toBeBytes_length, toBeBytes_length]
  injective m n hm hn heq := toBeBytes_injective (by omega) (by omega) heq

theorem fixedWidth_length : FixedWidth maxMessageLength (toBeBytes 8) := fixedWidth_u64 (by decide)

theorem delimited_field : Delimited maxMessageLength lengthPrefixed := .prefixed fixedWidth_length

theorem delimited_string : Delimited maxMessageLength fun s : String => lengthPrefixed (asBytes s) :=
  delimited_field.comap asBytes_injective

theorem delimited_liveUntil {bound : Nat} : Delimited bound taggedLiveUntil := by
  have h : taggedLiveUntil = fun o : Option UInt32 => o.elim [0] fun n => 1 :: toBeBytes 4 n.toNat := by
    funext o
    cases o <;> rfl
  rw [h]
  exact delimited_u32.option (by decide)

/-! ## The inventory digest -/

variable [Crates]

/-- The bytes the inventory digest is taken of. -/
def inventoryMessage (coverage : Coverage) : Except CaptureError Bytes := do
  let parts ← coverage.toList.mapM inventoryEntryBytes
  pure (inventoryDigestDomainV1 ++ toBeBytes 8 coverage.size ++ parts.flatten)

theorem inventoryDigest_eq_ok {coverage : Coverage} {digest : Bytes32} :
    inventoryDigest coverage = .ok digest ↔
      ∃ m, inventoryMessage coverage = .ok m ∧ sha256 m = digest := by
  unfold inventoryDigest inventoryMessage
  rw [bind_eq_ok]
  constructor
  · rintro ⟨parts, hparts, h⟩
    exact ⟨_, bind_eq_ok.mpr ⟨parts, hparts, rfl⟩, pure_eq_ok.mp h⟩
  · rintro ⟨m, hm, rfl⟩
    obtain ⟨parts, hparts, h⟩ := bind_eq_ok.mp hm
    cases pure_eq_ok.mp h
    exact ⟨parts, hparts, rfl⟩

/-- A covered key with what the digest takes of its state. -/
abbrev InventoryItem := KeyId × Option (Bytes × Option UInt32)

def InventoryItem.bytes (item : InventoryItem) : Bytes :=
  lengthPrefixed item.1
    ++ item.2.elim [0] fun entry => 1 :: (lengthPrefixed entry.1 ++ taggedLiveUntil entry.2)

omit [Crates] in
theorem delimited_item : Delimited maxMessageLength InventoryItem.bytes :=
  delimited_field.append ((delimited_field.append delimited_liveUntil).option (by decide))

omit [Crates] in
theorem InventoryItem.bytes_ne_nil (item : InventoryItem) : item.bytes ≠ [] := by
  rw [InventoryItem.bytes, lengthPrefixed, toBeBytes]
  simp

def inventoryItem : KeyId × LookupState → Option InventoryItem
  | (id, .present entry liveUntil) =>
    (ledgerEntryToXdr entry).map fun xdr => (id, some (xdr, liveUntil))
  | (id, .absent) => some (id, none)

theorem inventoryEntryBytes_eq_ok {x : KeyId × LookupState} {bytes : Bytes} :
    inventoryEntryBytes x = .ok bytes ↔ ∃ item, inventoryItem x = some item ∧ bytes = item.bytes := by
  obtain ⟨id, state⟩ := x
  cases state with
  | absent =>
    rw [inventoryEntryBytes, pure_eq_ok]
    simp [inventoryItem, InventoryItem.bytes, eq_comm]
  | present entry liveUntil =>
    rw [inventoryEntryBytes, bind_eq_ok]
    simp only [orError_eq_ok, pure_eq_ok, inventoryItem, Option.map_eq_some_iff]
    constructor
    · rintro ⟨xdr, hxdr, rfl⟩
      exact ⟨_, ⟨xdr, hxdr, rfl⟩, by simp [InventoryItem.bytes]⟩
    · rintro ⟨_, ⟨xdr, hxdr, rfl⟩, rfl⟩
      exact ⟨xdr, hxdr, by simp [InventoryItem.bytes]⟩

/-- The message lists what every covered key contributes, behind their number. -/
theorem inventoryMessage_spec {coverage : Coverage} {m : Bytes}
    (h : inventoryMessage coverage = .ok m) :
    ∃ items : List InventoryItem,
      List.Forall₂ (fun x item => inventoryItem x = some item) coverage.toList items ∧
      m = inventoryDigestDomainV1
        ++ (toBeBytes 8 items.length ++ items.flatMap InventoryItem.bytes) := by
  obtain ⟨parts, hparts, h⟩ := bind_eq_ok.mp h
  have hall := mapM_eq_ok.mp hparts
  have hitems : ∀ {l : List (KeyId × LookupState)} {parts : List Bytes},
      List.Forall₂ (fun x bytes => inventoryEntryBytes x = .ok bytes) l parts →
      ∃ items : List InventoryItem,
        List.Forall₂ (fun x item => inventoryItem x = some item) l items ∧
          parts = items.map InventoryItem.bytes := by
    intro l parts hall
    induction hall with
    | nil => exact ⟨[], .nil, rfl⟩
    | cons hfirst _ ih =>
      obtain ⟨item, hitem, rfl⟩ := inventoryEntryBytes_eq_ok.mp hfirst
      obtain ⟨items, hitems, rfl⟩ := ih
      exact ⟨item :: items, .cons hitem hitems, rfl⟩
  obtain ⟨items, hforall, rfl⟩ := hitems hall
  refine ⟨items, hforall, ?_⟩
  rw [← pure_eq_ok.mp h, ← hforall.length_eq, Std.ExtTreeMap.length_toList, List.append_assoc,
    List.flatMap_def]

/-- The XDR of an entry names the entry: it can be read back. -/
class LawfulEntryXdr : Prop where
  ledgerEntryToXdr_inj : ∀ {a b : LedgerEntry} {xdr : Bytes},
    ledgerEntryToXdr a = some xdr → ledgerEntryToXdr b = some xdr → a = b

variable [LawfulEntryXdr]

theorem inventoryItem_inj {x y : KeyId × LookupState} {item : InventoryItem}
    (hx : inventoryItem x = some item) (hy : inventoryItem y = some item) : x = y := by
  obtain ⟨id, state⟩ := x
  obtain ⟨id', state'⟩ := y
  cases state with
  | absent =>
    cases hx
    cases state' with
    | absent => cases hy; rfl
    | present entry' liveUntil' =>
      obtain ⟨_, _, heq⟩ := Option.map_eq_some_iff.mp hy
      cases heq
  | present entry liveUntil =>
    obtain ⟨xdr, hxdr, rfl⟩ := Option.map_eq_some_iff.mp hx
    cases state' with
    | absent => cases hy
    | present entry' liveUntil' =>
      obtain ⟨xdr', hxdr', heq⟩ := Option.map_eq_some_iff.mp hy
      cases heq
      rw [LawfulEntryXdr.ledgerEntryToXdr_inj hxdr hxdr']

/-- **The inventory message determines the coverage.** -/
theorem coverage_of_inventoryMessage {c c' : Coverage} {m : Bytes}
    (hlength : m.length < maxMessageLength) (h : inventoryMessage c = .ok m)
    (h' : inventoryMessage c' = .ok m) : c = c' := by
  obtain ⟨items, hitems, rfl⟩ := inventoryMessage_spec h
  obtain ⟨items', hitems', heq⟩ := inventoryMessage_spec h'
  have hsame : items = items' := by
    rw [List.length_append] at hlength
    exact (delimited_item.counted fixedWidth_length InventoryItem.bytes_ne_nil).injective
      (by omega) (List.append_cancel_left heq)
  subst hsame
  have hlist : ∀ {l l' : List (KeyId × LookupState)} {items : List InventoryItem},
      List.Forall₂ (fun x item => inventoryItem x = some item) l items →
      List.Forall₂ (fun x item => inventoryItem x = some item) l' items → l = l' := by
    intro l l' items hl hl'
    induction hl generalizing l' with
    | nil => cases hl'; rfl
    | cons hx _ ih =>
      cases hl' with
      | cons hy hrest => rw [inventoryItem_inj hx hy, ih hrest]
  exact Std.ExtTreeMap.toList_inj.mp (hlist hitems hitems')

omit [LawfulEntryXdr]

/-! ## The ledger digest -/

/-- The bytes the ledger digest is taken of. -/
def ledgerMessage (snapshot : LedgerSnapshot) : Except FixtureError Bytes := do
  let encoded ← canonicalEntries snapshot
  pure (ledgerDigestBytes snapshot.toLedgerInfo encoded)

theorem canonicalLedgerDigest_eq_ok {snapshot : LedgerSnapshot} {digest : Bytes32} :
    canonicalLedgerDigest snapshot = .ok digest ↔
      ∃ m, ledgerMessage snapshot = .ok m ∧ sha256 m = digest := by
  unfold canonicalLedgerDigest ledgerMessage
  rw [bind_eq_ok]
  constructor
  · rintro ⟨encoded, hencoded, h⟩
    exact ⟨_, bind_eq_ok.mpr ⟨encoded, hencoded, rfl⟩, pure_eq_ok.mp h⟩
  · rintro ⟨m, hm, rfl⟩
    obtain ⟨encoded, hencoded, h⟩ := bind_eq_ok.mp hm
    cases pure_eq_ok.mp h
    exact ⟨encoded, hencoded, rfl⟩

/-- A header as the ledger digest takes it. -/
def LedgerInfo.bytes (info : LedgerInfo) : Bytes :=
  toBeBytes 4 info.protocolVersion.toNat ++ (toBeBytes 4 info.sequenceNumber.toNat
    ++ (toBeBytes 8 info.timestamp.toNat ++ (info.networkId.toList
    ++ (toBeBytes 4 info.baseReserve.toNat ++ (toBeBytes 4 info.minPersistentEntryTtl.toNat
    ++ (toBeBytes 4 info.minTempEntryTtl.toNat ++ toBeBytes 4 info.maxEntryTtl.toNat))))))

omit [Crates] in
theorem delimited_info {bound : Nat} : Delimited bound LedgerInfo.bytes := by
  refine (delimited_u32.append (delimited_u32.append (delimited_u64.append
    (delimited_bytes32.append (delimited_u32.append (delimited_u32.append
      (delimited_u32.append delimited_u32))))))).comap (f := fun info : LedgerInfo =>
    (info.protocolVersion, info.sequenceNumber, info.timestamp, info.networkId,
      info.baseReserve, info.minPersistentEntryTtl, info.minTempEntryTtl, info.maxEntryTtl)) ?_
  intro a b h
  cases a
  cases b
  simp_all

omit [Crates] in
theorem ledgerDigestBytes_eq (info : LedgerInfo) (encoded : List EncodedEntry) :
    ledgerDigestBytes info encoded = ledgerDigestDomainV1 ++ (info.bytes
      ++ (toBeBytes 8 encoded.length ++ encoded.flatMap EncodedEntry.digestBytes)) := by
  simp only [ledgerDigestBytes, LedgerInfo.bytes, List.append_assoc]

/-- **The ledger message determines the header.** -/
theorem header_of_ledgerMessage {a b : LedgerSnapshot} {m : Bytes} (ha : ledgerMessage a = .ok m)
    (hb : ledgerMessage b = .ok m) : a.toLedgerInfo = b.toLedgerInfo := by
  obtain ⟨encoded, _, h⟩ := bind_eq_ok.mp ha
  obtain ⟨encoded', _, h'⟩ := bind_eq_ok.mp hb
  have heq := (pure_eq_ok.mp h).trans (pure_eq_ok.mp h').symm
  rw [ledgerDigestBytes_eq, ledgerDigestBytes_eq] at heq
  have hwidth : ∀ info : LedgerInfo, info.bytes.length = 64 := by
    intro info
    simp only [LedgerInfo.bytes, List.length_append, toBeBytes_length, Vector.length_toList]
  have hbound : ∀ info : LedgerInfo, info.bytes.length < maxMessageLength := by
    intro info
    rw [hwidth, maxMessageLength]
    omega
  exact (delimited_info (hbound _) (hbound _) (List.append_cancel_left heq)).1

/-! ## The bundle digest -/

/-- A bundle of either schema. -/
inductive CaptureBundle where
  | v2 (bundle : CaptureBundleV2)
  | legacy (bundle : LegacyCaptureBundleV1)
  deriving DecidableEq, Repr

namespace CaptureBundle

def schemaVersion : CaptureBundle → UInt32
  | v2 bundle => bundle.schemaVersion
  | legacy bundle => bundle.schemaVersion

def rootContract? : CaptureBundle → Option String
  | v2 _ => none
  | legacy bundle => some bundle.rootContract

def knownAbsent : CaptureBundle → List String
  | v2 bundle => bundle.knownAbsent
  | legacy bundle => bundle.knownAbsent

def report : CaptureBundle → BundleReport
  | v2 bundle => bundle.report
  | legacy bundle => bundle.report

def provenance : CaptureBundle → BundleProvenance
  | v2 bundle => bundle.provenance
  | legacy bundle => bundle.provenance

def canonicalDigest : CaptureBundle → String
  | v2 bundle => bundle.canonicalDigest
  | legacy bundle => bundle.canonicalDigest

def ledgerSnapshot : CaptureBundle → LedgerSnapshot
  | v2 bundle => bundle.ledgerSnapshot
  | legacy bundle => bundle.ledgerSnapshot

/-- The reader of the schema. -/
def load [BundleCrates] : CaptureBundle → String → ProtocolPolicy →
    Except CaptureError CapturedFixture
  | v2 bundle => CapturedFixture.fromBundle bundle
  | legacy bundle => CapturedFixture.fromLegacyBundle bundle

/-- What the digest of a schema has in front: domain, version and root contract. -/
def heading : CaptureBundle → Bytes
  | v2 _ => bundleDigestDomainV2 ++ toBeBytes 4 captureBundleSchemaVersion.toNat
  | legacy bundle =>
    legacyBundleDigestDomainV1 ++ toBeBytes 4 1 ++ lengthPrefixed (asBytes bundle.rootContract)

/-- The bytes the canonical digest is taken of, for a bundle that is read as `f`. -/
def message (x : CaptureBundle) (f : CapturedFixture) : Except CaptureError Bytes := do
  let bytes ← bundleDigestBytes x.knownAbsent x.report x.provenance f.fixture.ledgerDigest
    f.report.inventoryDigest
  pure (x.heading ++ bytes)

/-- All that is hashed for a bundle that is read as `f`. -/
def messages (x : CaptureBundle) (f : CapturedFixture) : Set Bytes :=
  {m | x.message f = .ok m ∨ inventoryMessage f.coverage = .ok m
    ∨ ledgerMessage f.fixture.snapshot = .ok m}

end CaptureBundle

/-- What an accepted bundle says of its fixture. -/
structure AcceptedBundle (x : CaptureBundle) (passphrase : String) (policy : ProtocolPolicy)
    (f : CapturedFixture) : Prop where
  schema : x.schemaVersion = if x.rootContract?.isNone then captureBundleSchemaVersion else 1
  canonical : ∃ m, x.message f = .ok m ∧ decodeHexDigest x.canonicalDigest = .ok (sha256 m)
  decoded : Decoded x.ledgerSnapshot x.knownAbsent x.report x.provenance passphrase policy
    ⟨f.fixture.ledgerDigest, f.report.inventoryDigest⟩ f

/-- The digests the envelope was checked with are those of the fixture. -/
theorem Decoded.digests_eq {snapshot : LedgerSnapshot} {knownAbsent : List String}
    {report : BundleReport} {provenance : BundleProvenance} {passphrase : String}
    {policy : ProtocolPolicy} {digests : BundleDigests} {f : CapturedFixture}
    (h : Decoded snapshot knownAbsent report provenance passphrase policy digests f) :
    digests = ⟨f.fixture.ledgerDigest, f.report.inventoryDigest⟩ := by
  have hinventory : f.report.inventoryDigest = digests.inventory := by rw [h.made]; rfl
  rw [h.ledger, hinventory]

theorem CaptureBundle.load_eq_ok [BundleCrates] {x : CaptureBundle} {passphrase : String}
    {policy : ProtocolPolicy} {f : CapturedFixture} (h : x.load passphrase policy = .ok f) :
    AcceptedBundle x passphrase policy f := by
  cases x with
  | v2 bundle =>
    obtain ⟨digests, henvelope, hdecoded⟩ := fromBundle_eq_ok.mp h
    cases hdecoded.digests_eq
    obtain ⟨hversion, _, _, _, canonical, hcanonical, hdigest⟩ :=
      validateBundleEnvelope_eq_ok.mp henvelope
    obtain ⟨bytes, hbytes, heq⟩ := bind_eq_ok.mp hdigest
    cases pure_eq_ok.mp heq
    exact ⟨hversion, ⟨_, bind_eq_ok.mpr ⟨bytes, hbytes, rfl⟩, hcanonical⟩, hdecoded⟩
  | legacy bundle =>
    obtain ⟨digests, henvelope, hdecoded, _⟩ := fromLegacyBundle_eq_ok.mp h
    cases hdecoded.digests_eq
    obtain ⟨hversion, _, _, _, canonical, hcanonical, hdigest⟩ :=
      validateLegacyBundleEnvelope_eq_ok.mp henvelope
    obtain ⟨bytes, hbytes, heq⟩ := bind_eq_ok.mp hdigest
    cases pure_eq_ok.mp heq
    exact ⟨hversion, ⟨_, bind_eq_ok.mpr ⟨bytes, hbytes, rfl⟩, hcanonical⟩, hdecoded⟩

section Record

def BundleReport.bytes (report : BundleReport) : Bytes :=
  toBeBytes 4 report.discoveryRounds.toNat ++ (toBeBytes 8 report.presentEntries.toNat
    ++ (toBeBytes 8 report.absentEntries.toNat ++ toBeBytes 8 report.finalReplayRpcReads.toNat))

omit [Crates] in
theorem delimited_report {bound : Nat} : Delimited bound BundleReport.bytes := by
  refine (delimited_u32.append (delimited_u64.append (delimited_u64.append delimited_u64))).comap
    (f := fun report : BundleReport => (report.discoveryRounds, report.presentEntries,
      report.absentEntries, report.finalReplayRpcReads)) ?_
  intro a b h
  cases a
  cases b
  simp_all

def BundleProvenance.bytes (provenance : BundleProvenance) : Bytes :=
  lengthPrefixed (asBytes provenance.rpcOrigin)
    ++ (lengthPrefixed (asBytes provenance.networkPassphrase)
    ++ (toBeBytes 4 provenance.ledgerSequence.toNat
    ++ (lengthPrefixed (asBytes provenance.ledgerHash)
    ++ toBeBytes 4 provenance.protocolVersion.toNat)))

omit [Crates] in
theorem delimited_provenance : Delimited maxMessageLength BundleProvenance.bytes := by
  refine (delimited_string.append (delimited_string.append (delimited_u32.append
    (delimited_string.append delimited_u32)))).comap (f := fun provenance : BundleProvenance =>
      (provenance.rpcOrigin, provenance.networkPassphrase, provenance.ledgerSequence,
        provenance.ledgerHash, provenance.protocolVersion)) ?_
  intro a b h
  cases a
  cases b
  simp_all

/-- What both schemas digest behind their headings. -/
abbrev BundleRecord := List Bytes × BundleReport × BundleProvenance × Bytes32 × Bytes32

def BundleRecord.bytes (record : BundleRecord) : Bytes :=
  (toBeBytes 8 record.1.length ++ record.1.flatMap lengthPrefixed)
    ++ (record.2.1.bytes ++ (record.2.2.1.bytes
    ++ (record.2.2.2.1.toList ++ record.2.2.2.2.toList)))

omit [Crates] in
theorem delimited_record : Delimited maxMessageLength BundleRecord.bytes :=
  (delimited_field.counted fixedWidth_length fun key => by rw [lengthPrefixed, toBeBytes]; simp).append
    (delimited_report.append (delimited_provenance.append
      (delimited_bytes32.append delimited_bytes32)))

/-- A bundle record is what was read, with the absent keys as they decode. -/
theorem bundleDigestBytes_spec {knownAbsent : List String} {report : BundleReport}
    {provenance : BundleProvenance} {ledger inventory : Bytes32} {bytes : Bytes}
    (h : bundleDigestBytes knownAbsent report provenance ledger inventory = .ok bytes) :
    ∃ keys, bytes = BundleRecord.bytes (keys, report, provenance, ledger, inventory) := by
  obtain ⟨absent, habsent, h⟩ := bind_eq_ok.mp h
  have hkeys : ∀ {l : List String} {absent : List Bytes},
      List.Forall₂ (fun encoded bytes => absentKeyBytes encoded = .ok bytes) l absent →
      ∃ keys : List Bytes, keys.length = l.length ∧ absent = keys.map lengthPrefixed := by
    intro l absent hall
    induction hall with
    | nil => exact ⟨[], rfl, rfl⟩
    | cons hfirst _ ih =>
      obtain ⟨key, _, hkey⟩ := bind_eq_ok.mp hfirst
      obtain ⟨keys, hlength, rfl⟩ := ih
      exact ⟨key :: keys, congrArg Nat.succ hlength, by rw [List.map_cons, pure_eq_ok.mp hkey]⟩
  obtain ⟨keys, hlength, rfl⟩ := hkeys (mapM_eq_ok.mp habsent)
  refine ⟨keys, ?_⟩
  rw [← pure_eq_ok.mp h, ← hlength, ← List.flatMap_def]
  simp only [BundleRecord.bytes, BundleReport.bytes, BundleProvenance.bytes, List.append_assoc]

end Record

omit [Crates] in
/-- The two domains differ in their version. -/
theorem domains_ne {s t : Bytes} :
    bundleDigestDomainV2 ++ s ≠ legacyBundleDigestDomainV1 ++ t := by
  intro h
  exact absurd (List.append_inj h (by decide)).1 (by decide)

/-- **The bundle message determines the schema, the root contract and the record.** -/
theorem CaptureBundle.record_of_message {x y : CaptureBundle} {f g : CapturedFixture} {m : Bytes}
    (hlength : m.length < maxMessageLength) (hx : x.message f = .ok m) (hy : y.message g = .ok m) :
    x.rootContract? = y.rootContract? ∧ x.report = y.report ∧ x.provenance = y.provenance ∧
      f.fixture.ledgerDigest = g.fixture.ledgerDigest ∧
      f.report.inventoryDigest = g.report.inventoryDigest := by
  obtain ⟨bytes, hbytes, hm⟩ := bind_eq_ok.mp hx
  obtain ⟨bytes', hbytes', hm'⟩ := bind_eq_ok.mp hy
  obtain ⟨keys, rfl⟩ := bundleDigestBytes_spec hbytes
  obtain ⟨keys', rfl⟩ := bundleDigestBytes_spec hbytes'
  rw [pure_eq_ok] at hm hm'
  cases hm
  -- equal records behind equal headings
  have hrecord : x.heading = y.heading →
      x.report = y.report ∧ x.provenance = y.provenance ∧
        f.fixture.ledgerDigest = g.fixture.ledgerDigest ∧
        f.report.inventoryDigest = g.report.inventoryDigest := by
    intro hheading
    rw [hheading] at hm' hlength
    rw [List.length_append] at hlength
    have heq := delimited_record.injective (by omega) (List.append_cancel_left hm'.symm)
    simp only [Prod.mk.injEq] at heq
    exact heq.2
  cases x with
  | v2 b =>
    cases y with
    | v2 b' => exact ⟨rfl, hrecord rfl⟩
    | legacy b' =>
      simp only [heading, List.append_assoc] at hm'
      exact absurd hm'.symm domains_ne
  | legacy b =>
    cases y with
    | v2 b' =>
      simp only [heading, List.append_assoc] at hm'
      exact absurd hm' domains_ne
    | legacy b' =>
      have hroot : b.rootContract = b'.rootContract := by
        have hlengths := congrArg List.length hm'
        simp only [heading, List.append_assoc, List.length_append] at hm' hlength hlengths
        have hlt : (lengthPrefixed (asBytes b.rootContract)).length < maxMessageLength := by omega
        have hlt' : (lengthPrefixed (asBytes b'.rootContract)).length < maxMessageLength := by omega
        exact (delimited_string hlt hlt'
          (List.append_cancel_left (List.append_cancel_left hm'.symm))).1
      exact ⟨congrArg some hroot, hrecord (by rw [heading, heading, hroot])⟩

/-! ## Binding -/

theorem NoCollision.eq {messages : Set Bytes} (h : NoCollision messages) {m m' : Bytes}
    (hm : m ∈ messages) (hm' : m' ∈ messages) (hsha : sha256 m = sha256 m') : m = m' :=
  h.injOn hm hm' hsha

/-- Equal inventory digests are of equal coverages. -/
theorem coverage_of_inventoryDigest [LawfulEntryXdr] {c c' : Coverage} {digest : Bytes32}
    {messages : Set Bytes} (hcollision : NoCollision messages)
    (hsub : ∀ m, inventoryMessage c = .ok m ∨ inventoryMessage c' = .ok m → m ∈ messages)
    (h : inventoryDigest c = .ok digest) (h' : inventoryDigest c' = .ok digest) : c = c' := by
  obtain ⟨m, hm, hsha⟩ := inventoryDigest_eq_ok.mp h
  obtain ⟨m', hm', hsha'⟩ := inventoryDigest_eq_ok.mp h'
  have hmem := hsub m (Or.inl hm)
  cases hcollision.eq hmem (hsub m' (Or.inr hm')) (hsha.trans hsha'.symm)
  exact coverage_of_inventoryMessage (hcollision.length_lt m hmem) hm hm'

/-- The report of a loaded fixture is that of its bundle, with the digest of its coverage. -/
theorem Decoded.report_eq {snapshot : LedgerSnapshot} {knownAbsent : List String}
    {report : BundleReport} {provenance : BundleProvenance} {passphrase : String}
    {policy : ProtocolPolicy} {digests : BundleDigests} {f : CapturedFixture}
    (h : Decoded snapshot knownAbsent report provenance passphrase policy digests f) :
    f.report = ⟨report.discoveryRounds.toNat, usize (presentCount f.coverage),
      usize (absentCount f.coverage), digests.inventory, 0⟩ := by
  obtain ⟨_, _, _, _, _, hcounts⟩ := validateBundleCoverage_eq_ok.mp h.validated
  rw [Prod.mk.injEq] at hcounts
  have hmade := congrArg CapturedFixture.report h.made
  rw [hcounts.1, hcounts.2] at hmade
  exact hmade

/--
**The canonical digest binds the whole fixture, and the inventory digest the coverage.**

The schemas may differ, and so may the passphrases and the policies the two bundles are read
with. SHA-256 is assumed free of collisions on the messages that are hashed.
-/
theorem bundle_digest_binds [LawfulEntryXdr] [BundleCrates] :
    (∀ (x y : CaptureBundle) (xPassphrase yPassphrase : String) (xPolicy yPolicy : ProtocolPolicy)
      (f g : CapturedFixture), x.load xPassphrase xPolicy = .ok f →
      y.load yPassphrase yPolicy = .ok g → NoCollision (x.messages f ∪ y.messages g) →
      x.canonicalDigest = y.canonicalDigest →
        x.schemaVersion = y.schemaVersion ∧ x.rootContract? = y.rootContract? ∧
        f.coverage = g.coverage ∧
        f.fixture.snapshot.toLedgerInfo = g.fixture.snapshot.toLedgerInfo ∧
        f.report = g.report ∧ f.provenance = g.provenance) ∧
      ∀ (c c' : Coverage) (digest : Bytes32), inventoryDigest c = .ok digest →
        inventoryDigest c' = .ok digest →
        NoCollision {m | inventoryMessage c = .ok m ∨ inventoryMessage c' = .ok m} → c = c' := by
  refine ⟨?_, fun c c' digest h h' hcollision =>
    coverage_of_inventoryDigest hcollision (fun _ hm => hm) h h'⟩
  intro x y xPassphrase yPassphrase xPolicy yPolicy f g hx hy hcollision hdigest
  have hax := CaptureBundle.load_eq_ok hx
  have hay := CaptureBundle.load_eq_ok hy
  -- the bundle message: schema, root contract, report, provenance and the two inner digests
  obtain ⟨m, hm, hcanonical⟩ := hax.canonical
  obtain ⟨m', hm', hcanonical'⟩ := hay.canonical
  rw [hdigest, hcanonical'] at hcanonical
  have hmem : m ∈ x.messages f ∪ y.messages g := Or.inl (Or.inl hm)
  cases hcollision.eq hmem (Or.inr (Or.inl hm')) (Except.ok.inj hcanonical).symm
  obtain ⟨hroot, hreport, hprovenance, hledger, hinventory⟩ :=
    CaptureBundle.record_of_message (hcollision.length_lt m hmem) hm hm'
  -- the inventory message: the coverage
  have hcoverage : f.coverage = g.coverage := by
    refine coverage_of_inventoryDigest hcollision (fun m hm => ?_) hax.decoded.sound.inventory
      (hinventory ▸ hay.decoded.sound.inventory)
    exact hm.imp (fun hm => Or.inr (Or.inl hm)) fun hm => Or.inr (Or.inl hm)
  -- the ledger message: the header
  have hheader : f.fixture.snapshot.toLedgerInfo = g.fixture.snapshot.toLedgerInfo := by
    obtain ⟨_, _, hsnapshot, hfd⟩ := fromSnapshotWithPolicy_eq_ok.mp hax.decoded.frozen
    obtain ⟨_, _, hsnapshot', hgd⟩ := fromSnapshotWithPolicy_eq_ok.mp hay.decoded.frozen
    rw [← hsnapshot] at hfd
    rw [← hsnapshot'] at hgd
    obtain ⟨l, hl, hsha⟩ := canonicalLedgerDigest_eq_ok.mp hfd
    obtain ⟨l', hl', hsha'⟩ := canonicalLedgerDigest_eq_ok.mp hgd
    cases hcollision.eq (Or.inl (Or.inr (Or.inr hl))) (Or.inr (Or.inr (Or.inr hl')))
      (hsha.trans (hledger.trans hsha'.symm))
    exact header_of_ledgerMessage hl hl'
  refine ⟨by rw [hax.schema, hay.schema, hroot], hroot, hcoverage, hheader, ?_, ?_⟩
  · rw [hax.decoded.report_eq, hay.decoded.report_eq, hreport, hcoverage, hinventory]
  · rw [hax.decoded.made, hay.decoded.made, CapturedFixture.ofParts, CapturedFixture.ofParts,
      hprovenance]

end Kanatoko

namespace Kanatoko.Sealed

open Fallible Testnet

/-- The crates of the small ledger, with the XDR of the one entry that is captured. -/
scoped instance (priority := high) crates : Crates where
  ledgerKeyToXdr := ledgerKey.encode
  ledgerKeyFromXdr := ledgerKey.decodeAll
  ledgerEntryToXdr entry := if entry = nativeEntry then Testnet.ledgerEntryToXdr entry else none
  sha256 := Sha256.digest
  base64Encode := Base64.encode
  base64Decode := Base64.decode

theorem ledgerEntryToXdr_eq_some {entry : LedgerEntry} {xdr : Bytes}
    (h : Kanatoko.ledgerEntryToXdr entry = some xdr) : entry = nativeEntry := by
  by_contra hne
  change (if entry = nativeEntry then Testnet.ledgerEntryToXdr entry else none) = some xdr at h
  rw [if_neg hne] at h
  cases h

scoped instance lawfulEntryXdr : LawfulEntryXdr where
  ledgerEntryToXdr_inj ha hb := (ledgerEntryToXdr_eq_some ha).trans (ledgerEntryToXdr_eq_some hb).symm

scoped instance lawfulCrates : LawfulCrates where
  ledgerKeyFromXdr_toXdr := ledgerKey.decodeAll_encode
  base64Decode_encode := Base64.decode_encode

/-- The bundle of the native asset is read, and what is hashed for it is short. -/
theorem native_loads : ∃ passphrase f,
    (CaptureBundle.v2 nativeBundle).load passphrase .exact = .ok f ∧
      ∀ m ∈ (CaptureBundle.v2 nativeBundle).messages f, m.length < maxMessageLength := by
  have h : (match nativeBuilder.captureRefFromKeys nativeScenario .empty nativeWorld with
    | .ok f _ => decide (f.toBundle.toOption = some nativeBundle) &&
      [((CaptureBundle.v2 nativeBundle).message f).toOption, (inventoryMessage f.coverage).toOption,
        (ledgerMessage f.fixture.snapshot).toOption].all fun hashed =>
          hashed.all fun m => (m.drop 4096).isEmpty
    | .error _ _ => false) = true := by decide +kernel
  split at h
  · next f w' hcapture =>
    obtain ⟨hwritten, hshort⟩ := Bool.and_eq_true_iff.mp h
    have hf : Captured .exact f := .capture _ _ _ _ _ rfl hcapture
    obtain ⟨canonical, report, hbundle, _⟩ := hf.sound.toBundle_ok
    rw [hbundle] at hwritten
    have heq := Option.some.inj (of_decide_eq_true hwritten)
    have hhash : f.provenance.ledgerHash ≠ "" := by
      rw [show f.provenance.ledgerHash = nativeBundle.provenance.ledgerHash from
        congrArg (fun bundle => bundle.provenance.ledgerHash) heq]
      decide
    obtain ⟨bundle, hbundle', _, hfrom⟩ := hf.sound.fromBundle_toBundle hhash
    cases hbundle.symm.trans hbundle'
    rw [heq] at hfrom
    refine ⟨_, f, hfrom, fun m hm => ?_⟩
    have hdrop : (m.drop 4096).isEmpty = true := by
      simp only [List.all_cons, List.all_nil, Bool.and_true, Bool.and_eq_true] at hshort
      rcases hm with hm | hm | hm
      · simpa [hm, Except.toOption] using hshort.1
      · simpa [hm, Except.toOption] using hshort.2.1
      · simpa [hm, Except.toOption] using hshort.2.2
    rw [List.isEmpty_iff, List.drop_eq_nil_iff] at hdrop
    exact Nat.lt_of_le_of_lt hdrop (by decide)
  · cases h

/-- The three digests in the bundle tell its messages apart. -/
theorem native_noCollision {passphrase : String} {f : CapturedFixture}
    (h : (CaptureBundle.v2 nativeBundle).load passphrase .exact = .ok f)
    (hshort : ∀ m ∈ (CaptureBundle.v2 nativeBundle).messages f, m.length < maxMessageLength) :
    NoCollision ((CaptureBundle.v2 nativeBundle).messages f
      ∪ (CaptureBundle.v2 nativeBundle).messages f) := by
  rw [Set.union_self]
  refine ⟨hshort, ?_⟩
  have haccepted := CaptureBundle.load_eq_ok h
  obtain ⟨digests, henvelope, hdecoded⟩ := fromBundle_eq_ok.mp h
  cases hdecoded.digests_eq
  obtain ⟨_, _, hledger, hinventory, _⟩ := validateBundleEnvelope_eq_ok.mp henvelope
  obtain ⟨_, _, hsnapshot, hdigest⟩ := fromSnapshotWithPolicy_eq_ok.mp hdecoded.frozen
  rw [← hsnapshot] at hdigest
  -- every message has the digest of its kind
  have hkind : ∀ m ∈ (CaptureBundle.v2 nativeBundle).messages f,
      ((CaptureBundle.v2 nativeBundle).message f = .ok m ∧
        hex (sha256 m).toList = nativeBundle.canonicalDigest) ∨
      (inventoryMessage f.coverage = .ok m ∧
        hex (sha256 m).toList = nativeBundle.inventoryDigest) ∨
      (ledgerMessage f.fixture.snapshot = .ok m ∧
        hex (sha256 m).toList = nativeBundle.ledgerDigest) := by
    rintro m (hm | hm | hm)
    · obtain ⟨m', hm', hcanonical⟩ := haccepted.canonical
      cases hm.symm.trans hm'
      exact Or.inl ⟨hm, hex_of_decodeHexDigest hcanonical⟩
    · obtain ⟨m', hm', hsha⟩ := inventoryDigest_eq_ok.mp hdecoded.sound.inventory
      cases hm.symm.trans hm'
      exact Or.inr (Or.inl ⟨hm, hsha ▸ hex_of_decodeHexDigest hinventory⟩)
    · obtain ⟨m', hm', hsha⟩ := canonicalLedgerDigest_eq_ok.mp hdigest
      cases hm.symm.trans hm'
      exact Or.inr (Or.inr ⟨hm, hsha ▸ hex_of_decodeHexDigest hledger⟩)
  have hdistinct : nativeBundle.canonicalDigest ≠ nativeBundle.inventoryDigest ∧
      nativeBundle.canonicalDigest ≠ nativeBundle.ledgerDigest ∧
      nativeBundle.inventoryDigest ≠ nativeBundle.ledgerDigest := by
    decide
  intro m hm m' hm' hsha
  rcases hkind m hm with ⟨hm, hhex⟩ | ⟨hm, hhex⟩ | ⟨hm, hhex⟩ <;>
    rcases hkind m' hm' with ⟨hm', hhex'⟩ | ⟨hm', hhex'⟩ | ⟨hm', hhex'⟩ <;>
    rw [hsha, hhex'] at hhex
  · exact Except.ok.inj (hm.symm.trans hm')
  · exact absurd hhex.symm hdistinct.1
  · exact absurd hhex.symm hdistinct.2.1
  · exact absurd hhex hdistinct.1
  · exact Except.ok.inj (hm.symm.trans hm')
  · exact absurd hhex.symm hdistinct.2.2
  · exact absurd hhex hdistinct.2.1
  · exact absurd hhex hdistinct.2.2
  · exact Except.ok.inj (hm.symm.trans hm')

/-- The bundle of the native asset binds its fixture, whenever it is read. -/
theorem native_digest_binds : ∃ passphrase f,
    (CaptureBundle.v2 nativeBundle).load passphrase .exact = .ok f ∧
      (∀ g, (CaptureBundle.v2 nativeBundle).load passphrase .exact = .ok g →
        f.coverage = g.coverage ∧
        f.fixture.snapshot.toLedgerInfo = g.fixture.snapshot.toLedgerInfo ∧
        f.report = g.report ∧ f.provenance = g.provenance) ∧
      ∀ c, inventoryDigest c = .ok f.report.inventoryDigest →
        NoCollision {m | inventoryMessage c = .ok m ∨ inventoryMessage f.coverage = .ok m} →
        c = f.coverage := by
  obtain ⟨passphrase, f, hf, hshort⟩ := native_loads
  have hcollision := native_noCollision hf hshort
  refine ⟨passphrase, f, hf, fun g hg => ?_, fun c hc hc' => ?_⟩
  · have hfg : f = g := Except.ok.inj (hf.symm.trans hg)
    obtain ⟨_, _, hbound⟩ := bundle_digest_binds.1 _ _ _ _ _ _ f g hf hg (hfg ▸ hcollision) rfl
    exact hbound
  · exact bundle_digest_binds.2 c f.coverage _ hc
      (CaptureBundle.load_eq_ok hf).decoded.sound.inventory hc'

end Kanatoko.Sealed
