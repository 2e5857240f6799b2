import Kanatoko.Properties.Binding
import Kanatoko.Properties.Canonical

/-!
# The ledger digest is canonical

The bytes the ledger digest is taken of determine the header and the set of the entries, and
are determined by them. Whether there is a digest is a matter of the entries, one by one and
two by two, and not of their order.
-/

namespace Kanatoko

open Fallible Ordered

variable [Crates]

/-- An encoding is a `Vec<u8>`, which holds less than 2^63 bytes. -/
class SizedXdr : Prop where
  ledgerKeyToXdr_length : ∀ {key : LedgerKey} {xdr : Bytes},
    ledgerKeyToXdr key = some xdr → xdr.length < 2 ^ 63
  ledgerEntryToXdr_length : ∀ {entry : LedgerEntry} {xdr : Bytes},
    ledgerEntryToXdr entry = some xdr → xdr.length < 2 ^ 63

/-! ## Encoded entries -/

/-- The encodings can be held in memory. -/
structure EncodedEntry.Sized (e : EncodedEntry) : Prop where
  key : e.keyXdr.length < 2 ^ 63
  entry : e.entryXdr.length < 2 ^ 63

omit [Crates] in
theorem lengthPrefixed_length (value : Bytes) : (lengthPrefixed value).length = 8 + value.length := by
  rw [lengthPrefixed, List.length_append, toBeBytes_length]

omit [Crates] in
/-- An encoded entry is cut off the front of the message in one way only. -/
theorem EncodedEntry.digestBytes_cut ⦃a b : EncodedEntry⦄ ⦃s t : Bytes⦄ (ha : a.Sized)
    (hb : b.Sized) (h : a.digestBytes ++ s = b.digestBytes ++ t) : a = b ∧ s = t := by
  have hfield : Delimited (2 ^ 64) lengthPrefixed := .prefixed (fixedWidth_u64 (Nat.le_refl _))
  have hshort : ∀ {value : Bytes}, value.length < 2 ^ 63 →
      (lengthPrefixed value).length < 2 ^ 64 := by
    intro value hvalue
    rw [lengthPrefixed_length]
    omega
  have htag : ∀ o, (taggedLiveUntil o).length < 2 ^ 64 := by
    rintro (_ | n)
    · simp [taggedLiveUntil]
    · simp [taggedLiveUntil, toBeBytes_length]
  obtain ⟨aKey, aEntry, aLive⟩ := a
  obtain ⟨bKey, bEntry, bLive⟩ := b
  simp only [digestBytes, List.append_assoc] at h
  obtain ⟨rfl, hentry⟩ := hfield (hshort ha.key) (hshort hb.key) h
  obtain ⟨rfl, hlive⟩ := hfield (hshort ha.entry) (hshort hb.entry) hentry
  obtain ⟨rfl, hrest⟩ := delimited_liveUntil (htag aLive) (htag bLive) hlive
  exact ⟨rfl, hrest⟩

omit [Crates] in
theorem EncodedEntry.digestBytes_ne_nil (e : EncodedEntry) : e.digestBytes ≠ [] := by
  rw [digestBytes, lengthPrefixed, toBeBytes]
  simp

theorem sized_of_encoding [SizedXdr] {x : SnapshotEntry} {e : EncodedEntry}
    (h : encoding x = some e) : e.Sized := by
  obtain ⟨keyXdr, hkeyXdr, h₁⟩ := Option.bind_eq_some_iff.mp h
  obtain ⟨entryXdr, hentryXdr, h₂⟩ := Option.bind_eq_some_iff.mp h₁
  cases h₂
  exact ⟨SizedXdr.ledgerKeyToXdr_length hkeyXdr, SizedXdr.ledgerEntryToXdr_length hentryXdr⟩

/-- An encoding names its entry. -/
theorem encoding_inj [LawfulCrates] [LawfulEntryXdr] {x y : SnapshotEntry} {e : EncodedEntry}
    (hx : encoding x = some e) (hy : encoding y = some e) : x = y := by
  obtain ⟨xKey, xEntry, xLive⟩ := x
  obtain ⟨yKey, yEntry, yLive⟩ := y
  obtain ⟨keyXdr, hxKey, h₁⟩ := Option.bind_eq_some_iff.mp hx
  obtain ⟨entryXdr, hxEntry, h₂⟩ := Option.bind_eq_some_iff.mp h₁
  cases h₂
  obtain ⟨keyXdr', hyKey, h₃⟩ := Option.bind_eq_some_iff.mp hy
  obtain ⟨entryXdr', hyEntry, h₄⟩ := Option.bind_eq_some_iff.mp h₃
  cases h₄
  have hkey : xKey = yKey := ledgerKeyToXdr_inj hxKey hyKey
  have hentry : xEntry = yEntry := LawfulEntryXdr.ledgerEntryToXdr_inj hxEntry hyEntry
  rw [hkey, hentry]

/-! ## The message -/

/-- A message is the header and the sorted encodings of the entries. -/
theorem ledgerMessage_eq_ok {snapshot : LedgerSnapshot} {m : Bytes} :
    ledgerMessage snapshot = .ok m ↔ ∃ encoded : List EncodedEntry,
      (∀ x ∈ snapshot.ledgerEntries, x.1 = x.2.1.toKey) ∧
      snapshot.ledgerEntries.map encoding = encoded.map some ∧
      (encoded.map EncodedEntry.keyXdr).Nodup ∧
      m = ledgerDigestBytes snapshot.toLedgerInfo (sortByKey EncodedEntry.keyXdr encoded) := by
  unfold ledgerMessage
  rw [bind_eq_ok]
  constructor
  · rintro ⟨sorted, hsorted, h⟩
    obtain ⟨encoded, hencoded, hnodup, rfl⟩ := canonicalEntries_eq_ok.mp hsorted
    obtain ⟨hkeys, henc⟩ := encodeEntries_eq_ok.mp hencoded
    exact ⟨encoded, hkeys, henc, hnodup, (pure_eq_ok.mp h).symm⟩
  · rintro ⟨encoded, hkeys, henc, hnodup, rfl⟩
    exact ⟨_, canonicalEntries_eq_ok.mpr
      ⟨encoded, encodeEntries_eq_ok.mpr ⟨hkeys, henc⟩, hnodup, rfl⟩, rfl⟩

/-- The entries of one message are the entries of the other. -/
theorem entries_of_ledgerMessage [LawfulCrates] [LawfulEntryXdr] [SizedXdr]
    {a b : LedgerSnapshot} {m : Bytes} (ha : ledgerMessage a = .ok m)
    (hb : ledgerMessage b = .ok m) {x : SnapshotEntry} (hx : x ∈ a.ledgerEntries) :
    x ∈ b.ledgerEntries := by
  have hheader := header_of_ledgerMessage ha hb
  obtain ⟨encoded, _, henc, hnodup, rfl⟩ := ledgerMessage_eq_ok.mp ha
  obtain ⟨encoded', _, henc', hnodup', heq⟩ := ledgerMessage_eq_ok.mp hb
  -- behind equal headers stand equal counts and equal lists of encodings
  rw [hheader, ledgerDigestBytes_eq, ledgerDigestBytes_eq] at heq
  have hbody := (List.append_inj (List.append_cancel_left (List.append_cancel_left heq))
    (by rw [toBeBytes_length, toBeBytes_length])).2
  have hperm := sortByKey_perm EncodedEntry.keyXdr encoded
  have hperm' := sortByKey_perm EncodedEntry.keyXdr encoded'
  have hsized : ∀ {entries : List SnapshotEntry} {encoded : List EncodedEntry},
      entries.map encoding = encoded.map some → ∀ e ∈ encoded, e.Sized := by
    intro entries encoded henc e he
    have hmem : some e ∈ entries.map encoding := by
      rw [henc]
      exact List.mem_map_of_mem he
    obtain ⟨y, _, hy⟩ := List.mem_map.mp hmem
    exact sized_of_encoding hy
  have hsorted := flatMap_injective_of_cut EncodedEntry.digestBytes_cut
    EncodedEntry.digestBytes_ne_nil (fun e he => hsized henc e (hperm.mem_iff.mp he))
    (fun e he => hsized henc' e (hperm'.mem_iff.mp he)) hbody
  have hmem : encoding x ∈ encoded.map some := by
    rw [← henc]
    exact List.mem_map_of_mem hx
  obtain ⟨e, he, hxe⟩ := List.mem_map.mp hmem
  have he' : e ∈ encoded' := by
    rw [← hperm'.mem_iff, ← hsorted, hperm.mem_iff]
    exact he
  have hmem' : some e ∈ b.ledgerEntries.map encoding := by
    rw [henc']
    exact List.mem_map_of_mem he'
  obtain ⟨y, hy, hye⟩ := List.mem_map.mp hmem'
  rw [encoding_inj hxe.symm hye]
  exact hy

/-- Snapshots with one header and the same entries have one message. -/
theorem ledgerMessage_congr {a b : LedgerSnapshot} {m m' : Bytes}
    (hheader : a.toLedgerInfo = b.toLedgerInfo)
    (hentries : ∀ x, x ∈ a.ledgerEntries ↔ x ∈ b.ledgerEntries) (ha : ledgerMessage a = .ok m)
    (hb : ledgerMessage b = .ok m') : m = m' := by
  have hca := canonical_of_digest (canonicalLedgerDigest_eq_ok.mpr ⟨m, ha, rfl⟩)
  have hcb := canonical_of_digest (canonicalLedgerDigest_eq_ok.mpr ⟨m', hb, rfl⟩)
  obtain ⟨encoded, _, henc, hnodup, rfl⟩ := ledgerMessage_eq_ok.mp ha
  obtain ⟨encoded', _, henc', _, rfl⟩ := ledgerMessage_eq_ok.mp hb
  have hperm := (List.perm_ext_iff_of_nodup hca.nodup hcb.nodup).mpr hentries
  have hencoded : encoded.Perm encoded' := by
    have hmap := hperm.map encoding
    rw [henc, henc'] at hmap
    exact (List.map_perm_map_iff (Option.some_injective _)).mp hmap
  rw [hheader, sortByKey_congr hencoded hnodup]

/-! ## Whether there is a digest -/

/-- What a snapshot must be to have a digest. -/
structure Digestible (snapshot : LedgerSnapshot) : Prop where
  own_key : ∀ x ∈ snapshot.ledgerEntries, x.1 = x.2.1.toKey
  encoded : ∀ x ∈ snapshot.ledgerEntries,
    (ledgerKeyToXdr x.1).isSome ∧ (ledgerEntryToXdr x.2.1).isSome
  distinct : (snapshot.ledgerEntries.map fun x => ledgerKeyToXdr x.1).Nodup

/-- Entries that encode, one by one. -/
theorem exists_encoded : ∀ {entries : List SnapshotEntry},
    (∀ x ∈ entries, (ledgerKeyToXdr x.1).isSome ∧ (ledgerEntryToXdr x.2.1).isSome) →
    ∃ encoded : List EncodedEntry, entries.map encoding = encoded.map some
  | [], _ => ⟨[], rfl⟩
  | x :: rest, h => by
    rw [List.forall_mem_cons] at h
    obtain ⟨⟨hkey, hentry⟩, hrest⟩ := h
    obtain ⟨keyXdr, hkeyXdr⟩ := Option.isSome_iff_exists.mp hkey
    obtain ⟨entryXdr, hentryXdr⟩ := Option.isSome_iff_exists.mp hentry
    obtain ⟨encoded, hencoded⟩ := exists_encoded hrest
    refine ⟨⟨keyXdr, entryXdr, x.2.2⟩ :: encoded, ?_⟩
    rw [List.map_cons, hencoded, encoding, hkeyXdr, hentryXdr]
    rfl

/-- **There is a digest exactly when the entries stand under their own keys, encode, and no
canonical key occurs twice.** -/
theorem digest_iff_digestible {snapshot : LedgerSnapshot} :
    (∃ digest, canonicalLedgerDigest snapshot = .ok digest) ↔ Digestible snapshot := by
  constructor
  · rintro ⟨digest, h⟩
    have hcanonical := canonical_of_digest h
    obtain ⟨m, hm, _⟩ := canonicalLedgerDigest_eq_ok.mp h
    obtain ⟨encoded, _, henc, _, _⟩ := ledgerMessage_eq_ok.mp hm
    refine ⟨hcanonical.own_key, fun x hx => ?_, hcanonical.distinct⟩
    have hmem : encoding x ∈ encoded.map some := by
      rw [← henc]
      exact List.mem_map_of_mem hx
    obtain ⟨e, _, hxe⟩ := List.mem_map.mp hmem
    obtain ⟨keyXdr, hkeyXdr, h₁⟩ := Option.bind_eq_some_iff.mp hxe.symm
    obtain ⟨entryXdr, hentryXdr, _⟩ := Option.bind_eq_some_iff.mp h₁
    exact ⟨by rw [hkeyXdr]; rfl, by rw [hentryXdr]; rfl⟩
  · intro h
    obtain ⟨encoded, henc⟩ := exists_encoded h.encoded
    have hnodup : (encoded.map EncodedEntry.keyXdr).Nodup := by
      have hdistinct := h.distinct
      rw [map_keyXdr_of_encoding henc] at hdistinct
      exact List.Nodup.of_map some hdistinct
    exact ⟨_, canonicalLedgerDigest_eq_ok.mpr ⟨_, ledgerMessage_eq_ok.mpr
      ⟨encoded, h.own_key, henc, hnodup, rfl⟩, rfl⟩⟩

theorem Digestible.perm {a b : LedgerSnapshot} (h : Digestible a)
    (hperm : a.ledgerEntries.Perm b.ledgerEntries) : Digestible b where
  own_key x hx := h.own_key x (hperm.mem_iff.mpr hx)
  encoded x hx := h.encoded x (hperm.mem_iff.mpr hx)
  distinct := (hperm.map _).nodup_iff.mp h.distinct

/--
**The ledger digest is canonical and complete.**

The digest is taken of a message. Two messages are equal exactly when the headers are and the
snapshots hold the same entries, in whatever order. There is a message exactly when the
entries allow one, in whatever order they stand.
-/
theorem ledger_digest_canonical [LawfulCrates] [LawfulEntryXdr] [SizedXdr] :
    (∀ snapshot digest, canonicalLedgerDigest snapshot = .ok digest ↔
      ∃ m, ledgerMessage snapshot = .ok m ∧ sha256 m = digest) ∧
    (∀ a b m m', ledgerMessage a = .ok m → ledgerMessage b = .ok m' →
      (m = m' ↔ a.toLedgerInfo = b.toLedgerInfo ∧
        ∀ x, x ∈ a.ledgerEntries ↔ x ∈ b.ledgerEntries)) ∧
    (∀ snapshot, (∃ digest, canonicalLedgerDigest snapshot = .ok digest) ↔ Digestible snapshot) ∧
    ∀ a b : LedgerSnapshot, a.ledgerEntries.Perm b.ledgerEntries →
      ((∃ digest, canonicalLedgerDigest a = .ok digest) ↔
        ∃ digest, canonicalLedgerDigest b = .ok digest) := by
  refine ⟨fun _ _ => canonicalLedgerDigest_eq_ok, fun a b m m' ha hb => ⟨?_, ?_⟩,
    fun _ => digest_iff_digestible, fun a b hperm => ?_⟩
  · rintro rfl
    exact ⟨header_of_ledgerMessage ha hb, fun x =>
      ⟨entries_of_ledgerMessage ha hb, entries_of_ledgerMessage hb ha⟩⟩
  · rintro ⟨hheader, hentries⟩
    exact ledgerMessage_congr hheader hentries ha hb
  · rw [digest_iff_digestible, digest_iff_digestible]
    exact ⟨fun h => h.perm hperm, fun h => h.perm hperm.symm⟩

end Kanatoko

namespace Kanatoko.Pair

open Fallible Testnet

/-! ## Two entries in either order -/

def accountEntry : LedgerEntry where
  lastModifiedLedgerSeq := 4983000
  data := .account
    { accountId := firstAccount
      balance := 10000000
      seqNum := 1
      numSubEntries := 0
      inflationDest := none
      flags := 0
      homeDomain := []
      thresholds := [1, 0, 0, 0]
      signers := []
      ext := [0, 0, 0, 0] }
  ext := .v0

/-- The crates of the small ledger, with the XDR of two entries and their keys. -/
scoped instance (priority := high) crates : Crates where
  ledgerKeyToXdr key :=
    if key = nativeEntry.toKey ∨ key = accountEntry.toKey then ledgerKey.encode key else none
  ledgerKeyFromXdr := ledgerKey.decodeAll
  ledgerEntryToXdr entry :=
    if entry = nativeEntry ∨ entry = accountEntry then Testnet.ledgerEntryToXdr entry else none
  sha256 := Sha256.digest
  base64Encode := Base64.encode
  base64Decode := Base64.decode

theorem ledgerKeyToXdr_eq_some {key : LedgerKey} {xdr : Bytes}
    (h : Kanatoko.ledgerKeyToXdr key = some xdr) :
    (key = nativeEntry.toKey ∨ key = accountEntry.toKey) ∧ ledgerKey.encode key = some xdr := by
  change (if key = nativeEntry.toKey ∨ key = accountEntry.toKey then ledgerKey.encode key
    else none) = some xdr at h
  split at h
  · next hkey => exact ⟨hkey, h⟩
  · cases h

theorem ledgerEntryToXdr_eq_some {entry : LedgerEntry} {xdr : Bytes}
    (h : Kanatoko.ledgerEntryToXdr entry = some xdr) :
    (entry = nativeEntry ∨ entry = accountEntry) ∧ Testnet.ledgerEntryToXdr entry = some xdr := by
  change (if entry = nativeEntry ∨ entry = accountEntry then Testnet.ledgerEntryToXdr entry
    else none) = some xdr at h
  split at h
  · next hentry => exact ⟨hentry, h⟩
  · cases h

scoped instance lawfulCrates : LawfulCrates where
  ledgerKeyFromXdr_toXdr h := ledgerKey.decodeAll_encode (ledgerKeyToXdr_eq_some h).2
  base64Decode_encode := Base64.decode_encode

scoped instance lawfulEntryXdr : LawfulEntryXdr where
  ledgerEntryToXdr_inj := by
    intro a b xdr ha hb
    obtain ⟨ha, hxa⟩ := ledgerEntryToXdr_eq_some ha
    obtain ⟨hb, hxb⟩ := ledgerEntryToXdr_eq_some hb
    have hne : Testnet.ledgerEntryToXdr nativeEntry ≠ Testnet.ledgerEntryToXdr accountEntry := by
      decide +kernel
    rcases ha with rfl | rfl
    · rcases hb with rfl | rfl
      · rfl
      · exact absurd (hxa.trans hxb.symm) hne
    · rcases hb with rfl | rfl
      · exact absurd (hxb.trans hxa.symm) hne
      · rfl

scoped instance sizedXdr : SizedXdr where
  ledgerKeyToXdr_length := by
    intro key xdr h
    obtain ⟨hkey, hxdr⟩ := ledgerKeyToXdr_eq_some h
    have hshort : ∀ key ∈ [nativeEntry.toKey, accountEntry.toKey],
        (ledgerKey.encode key).all (fun xdr => (xdr.drop 256).isEmpty) = true := by
      decide +kernel
    have hdrop := hshort key (by simpa using hkey)
    rw [hxdr, Option.all_some, List.isEmpty_iff, List.drop_eq_nil_iff] at hdrop
    omega
  ledgerEntryToXdr_length := by
    intro entry xdr h
    obtain ⟨hentry, hxdr⟩ := ledgerEntryToXdr_eq_some h
    have hshort : ∀ entry ∈ [nativeEntry, accountEntry],
        (Testnet.ledgerEntryToXdr entry).all (fun xdr => (xdr.drop 1024).isEmpty) = true := by
      decide +kernel
    have hdrop := hshort entry (by simpa using hentry)
    rw [hxdr, Option.all_some, List.isEmpty_iff, List.drop_eq_nil_iff] at hdrop
    omega

def nativeItem : SnapshotEntry := (nativeEntry.toKey, (nativeEntry, some 7561567))
def accountItem : SnapshotEntry := (accountEntry.toKey, (accountEntry, none))

/-- Both orders of the two entries have one message, so one digest. -/
theorem either_order : ∃ m,
    ledgerMessage { nativeInfo with ledgerEntries := [nativeItem, accountItem] } = .ok m ∧
    ledgerMessage { nativeInfo with ledgerEntries := [accountItem, nativeItem] } = .ok m := by
  obtain ⟨hdigest, hmessages, hdigestible, horder⟩ := ledger_digest_canonical
  have hfirst : Digestible { nativeInfo with ledgerEntries := [nativeItem, accountItem] } :=
    { own_key := by simp [nativeItem, accountItem]
      encoded := by
        show ∀ x ∈ [nativeItem, accountItem],
          (Kanatoko.ledgerKeyToXdr x.1).isSome ∧ (Kanatoko.ledgerEntryToXdr x.2.1).isSome
        decide +kernel
      distinct := by
        show ([nativeItem, accountItem].map fun x => Kanatoko.ledgerKeyToXdr x.1).Nodup
        decide +kernel }
  have hswap : [nativeItem, accountItem].Perm [accountItem, nativeItem] := List.Perm.swap _ _ _
  obtain ⟨d, hd⟩ := (hdigestible _).mpr hfirst
  obtain ⟨d', hd'⟩ := (horder _ { nativeInfo with ledgerEntries := [accountItem, nativeItem] }
    hswap).mp ⟨d, hd⟩
  obtain ⟨m, hm, _⟩ := (hdigest _ d).mp hd
  obtain ⟨m', hm', _⟩ := (hdigest _ d').mp hd'
  have heq : m = m' := (hmessages _ _ m m' hm hm').mpr ⟨rfl, fun x => hswap.mem_iff⟩
  exact ⟨m, hm, heq ▸ hm'⟩

end Kanatoko.Pair
