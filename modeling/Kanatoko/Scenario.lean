import Kanatoko.Capture.Replay
import Kanatoko.Fork

/-!
# Scenario forks

`ScenarioFork` of `src/auto.rs`: the Host of one scenario pass as client code works with it.
What a method does is a program that asks the snapshot source; a panic ends it early, and what
it has done before stays done.
-/

namespace Kanatoko

open Adaptive

/-! ## Previews -/

section Previews

variable [SnapshotCrate]

/-- The child environment of `ScenarioFork::preview`. -/
def previewChild (env : SdkEnv) (networkProtocolVersion : UInt32) : SdkEnv :=
  forkEnvOf (.snapshot (env.networkSnapshot networkProtocolVersion))

end Previews

/-! ## The Host -/

/-- The Host's storage map: nothing for a key it has not touched, else the entry or its absence. -/
abbrev Storage := LedgerKey → Option (Option PresentEntry)

/-- The storage map with one key set. -/
def Storage.set (storage : Storage) (key : LedgerKey) (value : Option PresentEntry) : Storage :=
  fun k => if k = key then some value else storage k

theorem Storage.set_self (storage : Storage) (key : LedgerKey) (value : Option PresentEntry) :
    storage.set key value key = some value :=
  if_pos rfl

theorem Storage.set_of_ne (storage : Storage) {key k : LedgerKey} (h : k ≠ key)
    (value : Option PresentEntry) : storage.set key value k = storage k :=
  if_neg h

structure ScenarioFork where
  ledgerInfo : LedgerInfo
  storage : Storage
  localAccounts : Finset Bytes32

/-- A method of the fork. Its result is `none` when it panics. -/
abbrev PassProgram (α : Type) := Client SourceOp SourceOp.Answer (Option α × ScenarioFork)

namespace ScenarioFork

def new (env : Env) : ScenarioFork where
  ledgerInfo := env.ledgerInfo
  storage := fun _ => none
  localAccounts := ∅

/-- `get_ledger_entry` of the Host, which asks the source for a key it has not touched. The
callers expect an answer. -/
def getLedgerEntry {α : Type} (fork : ScenarioFork) (key : LedgerKey)
    (next : Option PresentEntry → ScenarioFork → PassProgram α) : PassProgram α :=
  match fork.storage key with
  | some value => next value fork
  | none => .ask (.get key) fun
    | .ok value => next value { fork with storage := fork.storage.set key value }
    | .error _ => .done (none, fork)

/-- `add_ledger_entry` of the Host, without a live-until ledger. -/
def addLedgerEntry (fork : ScenarioFork) (key : LedgerKey) (entry : LedgerEntry) : ScenarioFork :=
  { fork with storage := fork.storage.set key (some (entry, none)) }

end ScenarioFork

/-! ## Local accounts -/

def localAccountDomain : Bytes := asBytes "kanatoko.local-account.v2"

/-- The public key of the local account with a label. -/
def localAccountKey [Crates] (networkId : Bytes32) (label : String) : Bytes32 :=
  sha256 (localAccountDomain ++ networkId.toList ++ toBeBytes 8 (asBytes label).length
    ++ asBytes label)

/-- The value of a checked `i64` operation, when it fits. -/
def checkedI64 (n : Int) : Option Int64 :=
  if -2 ^ 63 ≤ n ∧ n < 2 ^ 63 then some (Int64.ofInt n) else none

def checkedAddI64 (a b : Int64) : Option Int64 := checkedI64 (a.toInt + b.toInt)

def checkedMulI64 (a b : Int64) : Option Int64 := checkedI64 (a.toInt * b.toInt)

/-- `i64::from` of a `u32`. -/
def i64From (n : UInt32) : Int64 := Int64.ofInt n.toNat

/-- The entry of an account at its first funding. -/
def createdEntry (ledgerInfo : LedgerInfo) (accountId : AccountId) (balance sequence : Int64) :
    LedgerEntry where
  lastModifiedLedgerSeq := ledgerInfo.sequenceNumber
  data := .account
    { accountId := accountId
      balance := balance
      seqNum := sequence
      numSubEntries := 0
      inflationDest := none
      flags := 0
      homeDomain := []
      thresholds := [1, 0, 0, 0]
      signers := []
      -- the XDR of `AccountEntryExt::V0`
      ext := [0, 0, 0, 0] }
  ext := .v0

/-- The entry that `fund_local_account` adds, unless one of its checks panics. -/
def fundedEntry (ledgerInfo : LedgerInfo) (accountId : AccountId) (amount : Int64) :
    Option PresentEntry → Option LedgerEntry
  | some (entry, liveUntil) =>
    if liveUntil.isSome then none
    else
      match entry.data with
      | .account account =>
        if account.accountId = accountId then do
          let balance ← checkedAddI64 account.balance amount
          some { entry with
            lastModifiedLedgerSeq := ledgerInfo.sequenceNumber
            data := .account { account with balance := balance } }
        else none
      | _ => none
  | none => do
    let minimum ← checkedMulI64 (i64From ledgerInfo.baseReserve) 2
    if amount < minimum then none
    else
      let sequence ← checkedMulI64 (i64From ledgerInfo.sequenceNumber) (Int64.ofInt (2 ^ 32))
      some (createdEntry ledgerInfo accountId amount sequence)

namespace ScenarioFork

variable [Crates]

def localAccount (fork : ScenarioFork) (label : String) : PassProgram ScAddress :=
  let publicKey := localAccountKey fork.ledgerInfo.networkId label
  let address := ScAddress.account publicKey
  if publicKey ∈ fork.localAccounts then .done (some address, fork)
  else
    fork.getLedgerEntry (.account publicKey) fun existing fork =>
      -- a collision with captured network state
      if existing.isSome then .done (none, fork)
      else .ask (.markAddress address) fun _ =>
        .done (some address, { fork with localAccounts := insert publicKey fork.localAccounts })

omit [Crates] in
def fundLocalAccount (fork : ScenarioFork) (account : ScAddress) (amount : Int64) :
    PassProgram Unit :=
  if amount ≤ 0 then .done (none, fork)
  else
    match account with
    | .account accountId =>
      if accountId ∈ fork.localAccounts then
        fork.getLedgerEntry (.account accountId) fun existing fork =>
          match fundedEntry fork.ledgerInfo accountId amount existing with
          | none => .done (none, fork)
          | some entry => .done (some (), fork.addLedgerEntry (.account accountId) entry)
      -- the account was not created by this pass
      else .done (none, fork)
    | _ => .done (none, fork)

end ScenarioFork

end Kanatoko
