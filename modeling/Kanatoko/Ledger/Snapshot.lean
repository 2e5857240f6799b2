import Kanatoko.Ledger.Crates

/-!
# Ledger snapshots

`LedgerInfo` is the header the Host is given, `LedgerSnapshot` the header with the entries
of the ledger. `ledger_info()` and `set_ledger_info()` of the crate are the projection
`toLedgerInfo` and an update of it.
-/

namespace Kanatoko

/-- An entry as a snapshot source hands it over: the entry and its live-until ledger. -/
abbrev PresentEntry := LedgerEntry × Option UInt32

structure LedgerInfo where
  protocolVersion : UInt32
  sequenceNumber : UInt32
  timestamp : UInt64
  networkId : Bytes32
  baseReserve : UInt32
  minPersistentEntryTtl : UInt32
  minTempEntryTtl : UInt32
  maxEntryTtl : UInt32
  deriving DecidableEq, Repr

/-- A supplied key, its entry, and the live-until ledger. -/
abbrev SnapshotEntry := LedgerKey × PresentEntry

structure LedgerSnapshot extends LedgerInfo where
  ledgerEntries : List SnapshotEntry
  deriving DecidableEq, Repr

/-- What the Host's storage map holds: each touched key once, with its entry or `none`. -/
structure StoredEntries where
  entries : List (LedgerKey × Option PresentEntry)
  nodup : (entries.map Prod.fst).Nodup

namespace StoredEntries

def empty : StoredEntries := ⟨[], List.nodup_nil⟩

def keys (stored : StoredEntries) : List LedgerKey := stored.entries.map Prod.fst

end StoredEntries

/-- `LedgerSnapshot::update_entries` of the snapshot crate. -/
class SnapshotCrate where
  updateEntries : List SnapshotEntry → StoredEntries → List SnapshotEntry

export SnapshotCrate (updateEntries)

/-- The stored entries overlay the base: they replace, add and remove, key by key. -/
class LawfulSnapshotCrate [SnapshotCrate] : Prop where
  updateEntries_empty : ∀ base : List SnapshotEntry, updateEntries base .empty = base
  mem_updateEntries : ∀ {base : List SnapshotEntry}, (base.map Prod.fst).Nodup →
    ∀ (stored : StoredEntries) (key : LedgerKey) (value : PresentEntry),
      (key, value) ∈ updateEntries base stored ↔
        (key, some value) ∈ stored.entries ∨ (key, value) ∈ base ∧ key ∉ stored.keys

end Kanatoko
