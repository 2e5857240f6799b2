import Mathlib

/-!
# Ledger keys and entries

The XDR types of the `stellar-xdr` crate, as far as the program looks into them. What it
only stores, compares and hands on (the body of an offer, the storage map of a contract
instance, a value of a kind it does not match on) is kept as its XDR bytes.
-/

namespace Kanatoko

abbrev Bytes := List UInt8

instance : LawfulBEq Bytes := inferInstance

/-- `[u8; 32]`, and the newtypes over it: `Hash`, `ContractId`, `AccountId`. -/
abbrev Bytes32 := Vector UInt8 32

abbrev Hash := Bytes32
abbrev AccountId := Bytes32
abbrev ContractId := Bytes32

/-! ## Addresses and values -/

inductive ScAddress where
  | account (id : AccountId)
  | contract (id : ContractId)
  | muxedAccount (id : UInt64) (ed25519 : Bytes32)
  | claimableBalance (id : Hash)
  | liquidityPool (id : Hash)
  deriving DecidableEq, Repr

/-- `ContractExecutableExternalRef`: the code hash is the value of a tagged entry of the owner. -/
structure ContractExecutableExternalRef where
  executableOwner : ScAddress
  tag : Bytes
  deriving DecidableEq, Repr

inductive ContractExecutable where
  | wasm (hash : Hash)
  | stellarAsset
  | externalRef (externalRef : ContractExecutableExternalRef)
  deriving DecidableEq, Repr

structure ScContractInstance where
  executable : ContractExecutable
  storage : Option Bytes
  deriving DecidableEq, Repr

inductive ScVal where
  | bytes (bytes : Bytes)
  | contractInstance (inst : ScContractInstance)
  | ledgerKeyContractInstance
  | ledgerKeyNonce (nonce : Int64)
  | executableTag (tag : Bytes)
  /-- Any other value, as its XDR. -/
  | other (xdr : Bytes)
  deriving DecidableEq, Repr

inductive ContractDataDurability where
  | temporary
  | persistent
  deriving DecidableEq, Repr

inductive TrustLineAsset where
  | native
  | creditAlphanum4 (code : Bytes) (issuer : AccountId)
  | creditAlphanum12 (code : Bytes) (issuer : AccountId)
  | poolShare (pool : Hash)
  deriving DecidableEq, Repr

/-- Config settings. Only `StateArchival`, number 10, is looked into. -/
inductive ConfigSettingId where
  | stateArchival
  | other (id : UInt32) (ne : id ≠ 10)
  deriving DecidableEq, Repr

/-! ## Keys -/

structure LedgerKeyContractData where
  contract : ScAddress
  key : ScVal
  durability : ContractDataDurability
  deriving DecidableEq, Repr

inductive LedgerKey where
  | account (accountId : AccountId)
  | trustline (accountId : AccountId) (asset : TrustLineAsset)
  | offer (sellerId : AccountId) (offerId : Int64)
  | data (accountId : AccountId) (dataName : Bytes)
  | claimableBalance (balanceId : Hash)
  | liquidityPool (liquidityPoolId : Hash)
  | contractData (data : LedgerKeyContractData)
  | contractCode (hash : Hash)
  | configSetting (configSettingId : ConfigSettingId)
  | ttl (keyHash : Hash)
  deriving DecidableEq, Repr

/-! ## Entries -/

structure AccountEntry where
  accountId : AccountId
  balance : Int64
  seqNum : Int64
  numSubEntries : UInt32
  inflationDest : Option AccountId
  flags : UInt32
  homeDomain : Bytes
  thresholds : Bytes
  signers : List Bytes
  ext : Bytes
  deriving DecidableEq, Repr

structure TrustLineEntry where
  accountId : AccountId
  asset : TrustLineAsset
  body : Bytes
  deriving DecidableEq, Repr

structure ContractDataEntry where
  contract : ScAddress
  key : ScVal
  durability : ContractDataDurability
  val : ScVal
  deriving DecidableEq, Repr

structure ContractCodeEntry where
  ext : Bytes
  hash : Hash
  code : Bytes
  deriving DecidableEq, Repr

/-- The settings a ledger header takes from the `StateArchival` entry. -/
structure StateArchivalSettings where
  maxEntryTtl : UInt32
  minTemporaryTtl : UInt32
  minPersistentTtl : UInt32
  deriving DecidableEq, Repr

inductive ConfigSettingEntry where
  | stateArchival (settings : StateArchivalSettings)
  | other (id : UInt32) (ne : id ≠ 10) (body : Bytes)
  deriving DecidableEq, Repr

inductive LedgerEntryData where
  | account (account : AccountEntry)
  | trustline (trustline : TrustLineEntry)
  | offer (sellerId : AccountId) (offerId : Int64) (body : Bytes)
  | data (accountId : AccountId) (dataName : Bytes) (body : Bytes)
  | claimableBalance (balanceId : Hash) (body : Bytes)
  | liquidityPool (liquidityPoolId : Hash) (body : Bytes)
  | contractData (data : ContractDataEntry)
  | contractCode (code : ContractCodeEntry)
  | configSetting (setting : ConfigSettingEntry)
  | ttl (keyHash : Hash) (liveUntilLedgerSeq : UInt32)
  deriving DecidableEq, Repr

inductive LedgerEntryExt where
  | v0
  /-- `LedgerEntryExtensionV1`, as its XDR. -/
  | v1 (xdr : Bytes)
  deriving DecidableEq, Repr

structure LedgerEntry where
  lastModifiedLedgerSeq : UInt32
  data : LedgerEntryData
  ext : LedgerEntryExt
  deriving DecidableEq, Repr

def ConfigSettingEntry.discriminant : ConfigSettingEntry → ConfigSettingId
  | .stateArchival _ => .stateArchival
  | .other id ne _ => .other id ne

/-- The key an entry is stored under. -/
def LedgerEntry.toKey (entry : LedgerEntry) : LedgerKey :=
  match entry.data with
  | .account a => .account a.accountId
  | .trustline t => .trustline t.accountId t.asset
  | .offer sellerId offerId _ => .offer sellerId offerId
  | .data accountId dataName _ => .data accountId dataName
  | .claimableBalance balanceId _ => .claimableBalance balanceId
  | .liquidityPool id _ => .liquidityPool id
  | .contractData d => .contractData ⟨d.contract, d.key, d.durability⟩
  | .contractCode c => .contractCode c.hash
  | .configSetting s => .configSetting s.discriminant
  | .ttl keyHash _ => .ttl keyHash

/-! ## The keys the program builds itself -/

def contractInstanceKey (contract : ScAddress) : LedgerKey :=
  .contractData ⟨contract, .ledgerKeyContractInstance, .persistent⟩

def stateArchivalKey : LedgerKey := .configSetting .stateArchival

def isStateArchivalKey : LedgerKey → Bool
  | .configSetting .stateArchival => true
  | _ => false

theorem isStateArchivalKey_iff {key : LedgerKey} :
    isStateArchivalKey key = true ↔ key = stateArchivalKey := by
  unfold isStateArchivalKey stateArchivalKey
  split <;> simp_all

/-- A temporary nonce entry, as authorization consumes it. -/
def isNonceData (data : LedgerKeyContractData) : Bool :=
  decide (data.durability = .temporary) &&
    match data.key with
    | .ledgerKeyNonce _ => true
    | _ => false

def isNonceKey : LedgerKey → Bool
  | .contractData data => isNonceData data
  | _ => false

def executableRefKey (externalRef : ContractExecutableExternalRef) : LedgerKey :=
  .contractData ⟨externalRef.executableOwner, .executableTag externalRef.tag, .persistent⟩

end Kanatoko
