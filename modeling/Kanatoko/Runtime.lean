import Kanatoko.Errors

/-!
# Environments

What an SDK `Env` holds of the ledger, how every environment is created from ledger state,
and how its state is read back (`src/runtime.rs`).
-/

namespace Kanatoko

/--
The ledger side of an SDK `Env`: the header the Host is given, the base snapshot behind
`to_ledger_snapshot`, and the Host's stored entries.
-/
structure Env where
  ledgerInfo : LedgerInfo
  snapshot : LedgerSnapshot
  storedEntries : StoredEntries

/-- `fork_env` of a ledger seed: the one place where the executed protocol is chosen. -/
def forkEnv (ledgerInfo : LedgerInfo) (snapshot : LedgerSnapshot) : Env where
  ledgerInfo :=
    { ledgerInfo with protocolVersion := executedProtocolVersion ledgerInfo.protocolVersion }
  snapshot := snapshot
  storedEntries := .empty

/-- Undoes exactly the downgrade made by `forkEnv`. -/
def restoreNetworkProtocol (protocolVersion networkProtocolVersion : UInt32) : UInt32 :=
  if protocolVersion = executedProtocolVersion networkProtocolVersion then networkProtocolVersion
  else protocolVersion

/-- Downgrading and restoring one network protocol changes nothing. -/
@[simp] theorem restoreNetworkProtocol_executed (networkProtocolVersion : UInt32) :
    restoreNetworkProtocol (executedProtocolVersion networkProtocolVersion)
      networkProtocolVersion = networkProtocolVersion :=
  if_pos rfl

variable [SnapshotCrate]

/-- `Env::to_ledger_snapshot`. -/
def Env.toLedgerSnapshot (env : Env) : LedgerSnapshot where
  toLedgerInfo := env.ledgerInfo
  ledgerEntries := updateEntries env.snapshot.ledgerEntries env.storedEntries

def networkLedgerSnapshot (env : Env) (networkProtocolVersion : UInt32) : LedgerSnapshot :=
  let snapshot := env.toLedgerSnapshot
  { snapshot with
    protocolVersion := restoreNetworkProtocol snapshot.protocolVersion networkProtocolVersion }

/-- A fresh environment shows the snapshot it was created from. -/
theorem networkLedgerSnapshot_forkEnv [LawfulSnapshotCrate] (snapshot : LedgerSnapshot) :
    networkLedgerSnapshot (forkEnv snapshot.toLedgerInfo snapshot) snapshot.protocolVersion
      = snapshot := by
  simp [networkLedgerSnapshot, Env.toLedgerSnapshot, forkEnv,
    LawfulSnapshotCrate.updateEntries_empty]

end Kanatoko
