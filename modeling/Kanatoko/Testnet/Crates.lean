import Kanatoko.Ledger.Snapshot
import Kanatoko.Lib.Base64
import Kanatoko.Lib.Codec
import Kanatoko.Lib.Sha256

/-!
# Crates for a small ledger

The third-party functions for accounts, contract instances, nonces and code: keys and entries
of these shapes have the XDR the network gives them, and no other key or entry encodes. The
instances are scoped, so they take part only where this namespace is open.
-/

namespace Kanatoko.Testnet

/-! ## Keys -/

def address32 (f : Bytes32 → ScAddress) (g : ScAddress → Option Bytes32)
    (h : ∀ {b a}, g b = some a → f a = b) : Codec ScAddress :=
  (Codec.fixed 32).map f g h

def scAddress : Codec ScAddress :=
  .union (fun | .account _ => 0 | .contract _ => 1 | _ => 255) fun
    | 0 => .behind [0, 0, 0, 0] (address32 .account (fun | .account id => some id | _ => none)
        (by intro b a h; split at h <;> simp_all))
    | 1 => address32 .contract (fun | .contract id => some id | _ => none)
        (by intro b a h; split at h <;> simp_all)
    | _ => .never

def nonceOf (bytes : Vector UInt8 8) : Int64 :=
  Int64.ofUInt64 (UInt64.ofNat (bytes.toList.foldl (fun n byte => 256 * n + byte.toNat) 0))

def nonceBytes (nonce : Int64) : Vector UInt8 8 := .ofFn fun i =>
  UInt8.ofNat (nonce.toUInt64.toNat / 256 ^ (7 - i.val))

/-- The keys a contract data entry may have here. -/
def dataKey : Codec ScVal :=
  .union (fun | .ledgerKeyContractInstance => 20 | .ledgerKeyNonce _ => 21 | _ => 255) fun
    | 20 => Codec.unit.map (fun _ => .ledgerKeyContractInstance)
        (fun | .ledgerKeyContractInstance => some () | _ => none)
        (by intro b a h; split at h <;> simp_all)
    | 21 => (Codec.fixed 8).map (fun bytes => .ledgerKeyNonce (nonceOf bytes))
        (fun
          | .ledgerKeyNonce nonce =>
            if nonceOf (nonceBytes nonce) = nonce then some (nonceBytes nonce) else none
          | _ => none)
        (by
          intro b a h
          split at h
          · split at h
            · next heq => cases h; rw [heq]
            · cases h
          · cases h)
    | _ => .never

def durability : Codec ContractDataDurability :=
  .union (fun | .temporary => 0 | .persistent => 1) fun
    | 0 => Codec.unit.map (fun _ => .temporary) (fun | .temporary => some () | _ => none)
        (by intro b a h; split at h <;> simp_all)
    | 1 => Codec.unit.map (fun _ => .persistent) (fun | .persistent => some () | _ => none)
        (by intro b a h; split at h <;> simp_all)
    | _ => .never

def ledgerKey : Codec LedgerKey :=
  .union (fun
    | .account _ => 0 | .contractData _ => 6 | .contractCode _ => 7 | .configSetting _ => 8
    | _ => 255) fun
    | 0 => .behind [0, 0, 0, 0] ((Codec.fixed 32).map .account
        (fun | .account id => some id | _ => none) (by intro b a h; split at h <;> simp_all))
    | 6 => (scAddress.pair (dataKey.pair durability)).map
        (fun parts => .contractData ⟨parts.1, parts.2.1, parts.2.2⟩)
        (fun | .contractData d => some (d.contract, d.key, d.durability) | _ => none)
        (by intro b a h; split at h <;> cases h; rfl)
    | 7 => (Codec.fixed 32).map .contractCode (fun | .contractCode hash => some hash | _ => none)
        (by intro b a h; split at h <;> simp_all)
    | 8 => .behind [0, 0, 0, 10] (Codec.unit.map (fun _ => stateArchivalKey)
        (fun key => if key = stateArchivalKey then some () else none)
        (by intro b a h; split at h <;> simp_all))
    | _ => .never

/-! ## Entries -/

def int32 (n : Nat) : Bytes := toBeBytes 4 n

/-- A variable-length byte string: its length, the bytes, and zeros up to a multiple of four. -/
def opaqueBytes (bytes : Bytes) : Bytes :=
  int32 bytes.length ++ bytes ++ List.replicate ((4 - bytes.length % 4) % 4) 0

def accountEntryToXdr (a : AccountEntry) : Bytes :=
  int32 0 ++ a.accountId.toList ++ toBeBytes 8 a.balance.toUInt64.toNat
    ++ toBeBytes 8 a.seqNum.toUInt64.toNat ++ int32 a.numSubEntries.toNat
    ++ (match a.inflationDest with
      | none => int32 0
      | some destination => int32 1 ++ int32 0 ++ destination.toList)
    ++ int32 a.flags.toNat ++ opaqueBytes a.homeDomain ++ a.thresholds
    ++ int32 a.signers.length ++ a.signers.flatten ++ a.ext

def executableToXdr : ContractExecutable → Option Bytes
  | .wasm hash => some (int32 0 ++ hash.toList)
  | .stellarAsset => some (int32 1)
  | .externalRef _ => none

def dataValueToXdr : ScVal → Option Bytes
  | .contractInstance inst => (executableToXdr inst.executable).map fun executable =>
    int32 19 ++ executable ++ (match inst.storage with
      | none => int32 0
      | some map => int32 1 ++ map)
  | .bytes bytes => some (int32 13 ++ opaqueBytes bytes)
  | .other xdr => some xdr
  | _ => none

def entryDataToXdr : LedgerEntryData → Option Bytes
  | .account a => some (int32 0 ++ accountEntryToXdr a)
  | .contractData d => do
    let contract ← scAddress.encode d.contract
    let key ← dataKey.encode d.key
    let durable ← durability.encode d.durability
    let val ← dataValueToXdr d.val
    pure (int32 6 ++ int32 0 ++ contract ++ key ++ durable ++ val)
  | .contractCode c => some (int32 7 ++ c.ext ++ c.hash.toList ++ opaqueBytes c.code)
  | _ => none

def ledgerEntryToXdr (entry : LedgerEntry) : Option Bytes :=
  (entryDataToXdr entry.data).map fun data =>
    int32 entry.lastModifiedLedgerSeq.toNat ++ data ++ (match entry.ext with
      | .v0 => int32 0
      | .v1 xdr => int32 1 ++ xdr)

scoped instance crates : Crates where
  ledgerKeyToXdr := ledgerKey.encode
  ledgerKeyFromXdr := ledgerKey.decodeAll
  ledgerEntryToXdr := Testnet.ledgerEntryToXdr
  sha256 := Sha256.digest
  base64Encode := Base64.encode
  base64Decode := Base64.decode

scoped instance lawfulCrates : LawfulCrates where
  ledgerKeyFromXdr_toXdr := ledgerKey.decodeAll_encode
  base64Decode_encode := Base64.decode_encode

/-! ## Snapshots -/

/-- One stored entry over the base: replaced in place, appended, or removed. -/
def updateEntry (base : List SnapshotEntry) (stored : LedgerKey × Option PresentEntry) :
    List SnapshotEntry :=
  match stored.2 with
  | some value =>
    if stored.1 ∈ base.map Prod.fst then
      base.map fun item => if item.1 = stored.1 then (stored.1, value) else item
    else base ++ [(stored.1, value)]
  | none => base.filter fun item => item.1 ≠ stored.1

scoped instance snapshotCrate : SnapshotCrate where
  updateEntries base stored := stored.entries.foldl updateEntry base

theorem mem_updateEntry (base : List SnapshotEntry) (stored : LedgerKey × Option PresentEntry)
    (key : LedgerKey) (value : PresentEntry) : (key, value) ∈ updateEntry base stored ↔
      stored = (key, some value) ∨ (key, value) ∈ base ∧ key ≠ stored.1 := by
  obtain ⟨k, v⟩ := stored
  unfold updateEntry
  cases v with
  | none => simp
  | some v =>
    dsimp only
    split
    · next hmem =>
      rw [List.mem_map]
      constructor
      · rintro ⟨⟨k', v'⟩, hitem, heq⟩
        by_cases hk : k' = k
        · rw [if_pos hk] at heq
          cases heq
          exact Or.inl rfl
        · rw [if_neg hk] at heq
          cases heq
          exact Or.inr ⟨hitem, hk⟩
      · rintro (heq | ⟨hitem, hne⟩)
        · cases heq
          obtain ⟨⟨k', v'⟩, hitem, rfl⟩ := List.mem_map.mp hmem
          exact ⟨_, hitem, if_pos rfl⟩
        · exact ⟨_, hitem, if_neg hne⟩
    · next hmem =>
      rw [List.mem_append, List.mem_singleton]
      constructor
      · rintro (hitem | heq)
        · refine Or.inr ⟨hitem, ?_⟩
          rintro rfl
          exact hmem (List.mem_map.mpr ⟨_, hitem, rfl⟩)
        · cases heq
          exact Or.inl rfl
      · rintro (heq | ⟨hitem, _⟩)
        · cases heq
          exact Or.inr rfl
        · exact Or.inl hitem

theorem mem_updateAll : ∀ {entries : List (LedgerKey × Option PresentEntry)}
    {base : List SnapshotEntry}, (entries.map Prod.fst).Nodup →
    ∀ (key : LedgerKey) (value : PresentEntry), (key, value) ∈ entries.foldl updateEntry base ↔
      (key, some value) ∈ entries ∨ (key, value) ∈ base ∧ key ∉ entries.map Prod.fst
  | [], _, _, key, value => by simp
  | stored :: rest, base, hentries, key, value => by
    rw [List.map_cons, List.nodup_cons] at hentries
    rw [List.foldl_cons, mem_updateAll hentries.2, mem_updateEntry, List.mem_cons, List.map_cons,
      List.mem_cons, not_or]
    constructor
    · rintro (hrest | ⟨heq | ⟨hmem, hne⟩, hno⟩)
      · exact Or.inl (Or.inr hrest)
      · exact Or.inl (Or.inl heq.symm)
      · exact Or.inr ⟨hmem, hne, hno⟩
    · rintro ((heq | hrest) | ⟨hmem, hne, hno⟩)
      · refine Or.inr ⟨Or.inl heq.symm, ?_⟩
        rw [← heq] at hentries
        exact hentries.1
      · exact Or.inl hrest
      · exact Or.inr ⟨Or.inr ⟨hmem, hne⟩, hno⟩

scoped instance lawfulSnapshotCrate : LawfulSnapshotCrate where
  updateEntries_empty _ := rfl
  mem_updateEntries _ stored := mem_updateAll stored.nodup

end Kanatoko.Testnet
