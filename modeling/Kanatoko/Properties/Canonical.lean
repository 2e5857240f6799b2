import Kanatoko.Errors

/-!
# Canonical snapshots

A snapshot that has a ledger digest is canonical: each entry stands under its own key, every
key has an encoding, and no encoding occurs twice. Such a snapshot is a map from key ids to
values.
-/

namespace Kanatoko

open Fallible Ordered

variable [Crates]

structure Canonical (entries : List SnapshotEntry) : Prop where
  own_key : ∀ x ∈ entries, x.1 = x.2.1.toKey
  encoded : ∀ x ∈ entries, (ledgerKeyToXdr x.1).isSome
  distinct : (entries.map fun x => ledgerKeyToXdr x.1).Nodup

/-- Entries that form a map from key ids, be they under their own keys or not. -/
structure Keyed (entries : List SnapshotEntry) : Prop where
  encoded : ∀ x ∈ entries, (ledgerKeyToXdr x.1).isSome
  distinct : (entries.map fun x => ledgerKeyToXdr x.1).Nodup

theorem Canonical.keyed {entries : List SnapshotEntry} (h : Canonical entries) : Keyed entries :=
  ⟨h.encoded, h.distinct⟩

theorem Keyed.nodup_keys {entries : List SnapshotEntry} (h : Keyed entries) :
    (entries.map Prod.fst).Nodup := by
  refine List.Nodup.of_map ledgerKeyToXdr ?_
  rw [List.map_map]
  exact h.distinct

theorem Canonical.nodup_keys {entries : List SnapshotEntry} (h : Canonical entries) :
    (entries.map Prod.fst).Nodup :=
  h.keyed.nodup_keys

theorem Canonical.nodup {entries : List SnapshotEntry} (h : Canonical entries) : entries.Nodup :=
  List.Nodup.of_map _ h.distinct

/-! ## What the ledger digest checks -/

/-- The encoding of a snapshot entry, without the check of its key. -/
def encoding (x : SnapshotEntry) : Option EncodedEntry := do
  let keyXdr ← ledgerKeyToXdr x.1
  let entryXdr ← ledgerEntryToXdr x.2.1
  pure ⟨keyXdr, entryXdr, x.2.2⟩

theorem encodeEntries_eq_ok : ∀ {entries : List SnapshotEntry} {index : Nat}
    {encoded : List EncodedEntry}, encodeEntries index entries = .ok encoded ↔
    (∀ x ∈ entries, x.1 = x.2.1.toKey) ∧ entries.map encoding = encoded.map some
  | [], _, encoded => by
    rw [encodeEntries, pure_eq_ok, List.map_nil, eq_comm (a := ([] : List (Option EncodedEntry))),
      List.map_eq_nil_iff]
    exact ⟨fun h => ⟨by simp, h.symm⟩, fun h => h.2.symm⟩
  | (key, (entry, liveUntil)) :: rest, index, encoded => by
    rw [encodeEntries, bind_eq_ok, List.forall_mem_cons, List.map_cons]
    constructor
    · rintro ⟨first, hfirst, h⟩
      obtain ⟨others, hothers, h⟩ := bind_eq_ok.mp h
      cases pure_eq_ok.mp h
      obtain ⟨hkeys, henc⟩ := encodeEntries_eq_ok.mp hothers
      obtain ⟨_, hkey, h₁⟩ := bind_eq_ok.mp hfirst
      obtain ⟨keyXdr, hkeyXdr, h₂⟩ := bind_eq_ok.mp h₁
      obtain ⟨entryXdr, hentryXdr, h₃⟩ := bind_eq_ok.mp h₂
      cases pure_eq_ok.mp h₃
      rw [ensure_eq_ok] at hkey
      rw [orError_eq_ok] at hkeyXdr hentryXdr
      refine ⟨⟨hkey, hkeys⟩, ?_⟩
      rw [henc, List.map_cons, encoding, hkeyXdr, hentryXdr]
      rfl
    · rintro ⟨⟨hkey, hkeys⟩, henc⟩
      cases encoded with
      | nil => simp at henc
      | cons first others =>
        rw [List.map_cons, List.cons.injEq] at henc
        refine ⟨first, ?_, bind_eq_ok.mpr
          ⟨others, encodeEntries_eq_ok.mpr ⟨hkeys, henc.2⟩, rfl⟩⟩
        obtain ⟨keyXdr, hkeyXdr, h₁⟩ := Option.bind_eq_some_iff.mp henc.1
        obtain ⟨entryXdr, hentryXdr, h₂⟩ := Option.bind_eq_some_iff.mp h₁
        cases h₂
        exact bind_eq_ok.mpr ⟨⟨⟩, ensure_eq_ok.mpr hkey, bind_eq_ok.mpr ⟨keyXdr,
          orError_eq_ok.mpr hkeyXdr, bind_eq_ok.mpr ⟨entryXdr, orError_eq_ok.mpr hentryXdr, rfl⟩⟩⟩

/-- The key of an encoding is the encoding of the key. -/
theorem encoding_keyXdr {x : SnapshotEntry} {e : EncodedEntry} (h : encoding x = some e) :
    ledgerKeyToXdr x.1 = some e.keyXdr := by
  obtain ⟨keyXdr, hkeyXdr, h₁⟩ := Option.bind_eq_some_iff.mp h
  obtain ⟨entryXdr, _, h₂⟩ := Option.bind_eq_some_iff.mp h₁
  cases h₂
  exact hkeyXdr

theorem map_keyXdr_of_encoding : ∀ {entries : List SnapshotEntry} {encoded : List EncodedEntry},
    entries.map encoding = encoded.map some →
    (entries.map fun x => ledgerKeyToXdr x.1) = (encoded.map EncodedEntry.keyXdr).map some
  | [], [], _ => rfl
  | [], _ :: _, h => by simp at h
  | _ :: _, [], h => by simp at h
  | x :: rest, e :: others, h => by
    rw [List.map_cons, List.map_cons, List.cons.injEq] at h
    rw [List.map_cons, List.map_cons, List.map_cons, encoding_keyXdr h.1,
      map_keyXdr_of_encoding h.2]

theorem canonicalEntries_eq_ok {snapshot : LedgerSnapshot} {sorted : List EncodedEntry} :
    canonicalEntries snapshot = .ok sorted ↔
      ∃ encoded, encodeEntries 0 snapshot.ledgerEntries = .ok encoded ∧
        (encoded.map EncodedEntry.keyXdr).Nodup ∧ sorted = sortByKey EncodedEntry.keyXdr encoded := by
  unfold canonicalEntries
  rw [bind_eq_ok]
  refine exists_congr fun encoded => and_congr_right fun _ => ?_
  dsimp only
  rw [← firstDuplicate_sortByKey]
  split
  · next hdup => simp [hdup]
  · next hdup =>
    rw [pure_eq_ok]
    exact ⟨fun h => ⟨hdup, h.symm⟩, fun h => h.2.symm⟩

/-- **A snapshot with a ledger digest is canonical.** -/
theorem canonical_of_digest {snapshot : LedgerSnapshot} {digest : Bytes32}
    (h : canonicalLedgerDigest snapshot = .ok digest) : Canonical snapshot.ledgerEntries := by
  obtain ⟨sorted, hsorted, _⟩ := bind_eq_ok.mp h
  obtain ⟨encoded, hencoded, hnodup, _⟩ := canonicalEntries_eq_ok.mp hsorted
  obtain ⟨hkeys, henc⟩ := encodeEntries_eq_ok.mp hencoded
  have hids := map_keyXdr_of_encoding henc
  refine ⟨hkeys, fun x hx => ?_, hids ▸ hnodup.map (Option.some_injective _)⟩
  have hmem : ledgerKeyToXdr x.1 ∈ (encoded.map EncodedEntry.keyXdr).map some := by
    rw [← hids]
    exact List.mem_map.mpr ⟨x, hx, rfl⟩
  obtain ⟨id, _, hid⟩ := List.mem_map.mp hmem
  rw [← hid]
  rfl

/-! ## The map a snapshot holds -/

/-- The entry of a snapshot under a key id. -/
def entryAt (entries : List SnapshotEntry) (id : KeyId) : Option SnapshotEntry :=
  entries.find? fun x => decide (ledgerKeyToXdr x.1 = some id)

/-- The value a snapshot holds under a key id. -/
def held (entries : List SnapshotEntry) (id : KeyId) : Option PresentEntry :=
  (entryAt entries id).map Prod.snd

theorem keyXdr_of_entryAt {entries : List SnapshotEntry} {id : KeyId} {x : SnapshotEntry}
    (h : entryAt entries id = some x) : ledgerKeyToXdr x.1 = some id := by
  have hid := List.find?_some h
  exact of_decide_eq_true hid

theorem Keyed.entryAt_eq_some_iff {entries : List SnapshotEntry} (h : Keyed entries) {id : KeyId}
    {x : SnapshotEntry} :
    entryAt entries id = some x ↔ ledgerKeyToXdr x.1 = some id ∧ x ∈ entries := by
  constructor
  · exact fun hfind => ⟨keyXdr_of_entryAt hfind, List.mem_of_find?_eq_some hfind⟩
  · rintro ⟨hid, hmem⟩
    cases hfind : entryAt entries id with
    | none =>
      have hnone := List.find?_eq_none.mp hfind _ hmem
      exact absurd hid (by simpa using hnone)
    | some y =>
      -- one encoding, one entry
      have heq : y = x := List.inj_on_of_nodup_map h.distinct (List.mem_of_find?_eq_some hfind)
        hmem (by rw [keyXdr_of_entryAt hfind, hid])
      rw [heq]

theorem Keyed.held_eq_some_iff {entries : List SnapshotEntry} (h : Keyed entries) {id : KeyId}
    {value : PresentEntry} :
    held entries id = some value ↔ ∃ key, ledgerKeyToXdr key = some id ∧ (key, value) ∈ entries := by
  unfold held
  rw [Option.map_eq_some_iff]
  constructor
  · rintro ⟨⟨key, value'⟩, hfind, rfl⟩
    exact ⟨key, h.entryAt_eq_some_iff.mp hfind⟩
  · rintro ⟨key, hkey⟩
    exact ⟨(key, value), h.entryAt_eq_some_iff.mpr hkey, rfl⟩

/-- Two ledgers with one header that hold one map. -/
structure SameLedger (a b : LedgerSnapshot) : Prop where
  header : a.toLedgerInfo = b.toLedgerInfo
  held_eq : held a.ledgerEntries = held b.ledgerEntries

end Kanatoko
