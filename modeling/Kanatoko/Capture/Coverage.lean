import Kanatoko.Errors

/-!
# Coverage

The Present/Absent answers of one coherent ledger, and every check the program makes of
them: batches, entry metadata, executable chains, and the inventory digest.

`BTreeMap` is `Std.ExtTreeMap`: iteration is in the order of the keys.
-/

namespace Kanatoko

open Fallible

inductive LookupState where
  | present (entry : LedgerEntry) (liveUntil : Option UInt32)
  | absent
  deriving DecidableEq, Repr

namespace LookupState

def isPresent : LookupState → Bool
  | present _ _ => true
  | absent => false

/-- What a snapshot source answers for a known state. -/
def answer : LookupState → Option PresentEntry
  | present entry liveUntil => some (entry, liveUntil)
  | absent => none

end LookupState

abbrev Coverage := Std.ExtTreeMap KeyId LookupState

structure FetchedEntry where
  entry : LedgerEntry
  liveUntil : Option UInt32
  deriving DecidableEq, Repr

/-- A returned entry is Present, and a key that nothing was returned for is Absent. -/
def stateOf : Option FetchedEntry → LookupState
  | some fetched => .present fetched.entry fetched.liveUntil
  | none => .absent

variable [Crates]

def keyId (key : LedgerKey) : Except CaptureError KeyId := orError .xdr (ledgerKeyToXdr key)

theorem keyId_eq_ok {key : LedgerKey} {id : KeyId} :
    keyId key = .ok id ↔ ledgerKeyToXdr key = some id := orError_eq_ok

/--
`BTreeMap<KeyId, LedgerKey>`. Every key stands under its own id, which is what the
`debug_assert_eq!` of `materialize` states.
-/
structure KeyMap where
  map : Std.ExtTreeMap KeyId LedgerKey
  canonical : ∀ {id : KeyId} {key : LedgerKey},
    map[id]? = some key → ledgerKeyToXdr key = some id

namespace KeyMap

def empty : KeyMap := ⟨∅, by simp⟩

def insert (keys : KeyMap) (id : KeyId) (key : LedgerKey) (h : ledgerKeyToXdr key = some id) :
    KeyMap where
  map := keys.map.insert id key
  canonical := by
    intro id' key' h'
    rw [Std.ExtTreeMap.getElem?_insert] at h'
    split at h'
    · next heq =>
      cases h'
      rw [← Std.LawfulEqCmp.eq_of_compare heq]
      exact h
    · exact keys.canonical h'

end KeyMap

/-! ## Batches -/

/-- The loop over the returned entries. -/
def collectReturned (requested : List KeyId) :
    List FetchedEntry → Std.ExtTreeMap KeyId FetchedEntry →
      Except CaptureError (Std.ExtTreeMap KeyId FetchedEntry)
  | [], returned => pure returned
  | fetched :: rest, returned => do
    let id ← keyId fetched.entry.toKey
    ensure (id ∈ requested ∧ id ∉ returned) (.malformedRpc "getLedgerEntries")
    collectReturned requested rest (returned.insert id fetched)

def validateBatch (requested : List LedgerKey) (entries : List FetchedEntry) :
    Except CaptureError (Std.ExtTreeMap KeyId FetchedEntry) := do
  let ids ← requested.mapM keyId
  collectReturned ids entries ∅

def extractArchival : Option FetchedEntry → Except CaptureError StateArchivalSettings
  | none => throw .missingStateArchival
  | some fetched =>
    match fetched.entry.data with
    | .configSetting (.stateArchival settings) => pure settings
    | _ => throw (.malformedRpc "getLedgerEntries")

/-! ## Entry metadata -/

/-- `u32::checked_add`. -/
def checkedAdd (a b : UInt32) : Option UInt32 :=
  if a.toNat + b.toNat < 2 ^ 32 then some (a + b) else none

/-- `u32::saturating_sub`. -/
def saturatingSub (a b : UInt32) : UInt32 := if b ≤ a then a - b else 0

def validateEntryMetadata (entry : LedgerEntry) (liveUntil : Option UInt32)
    (ledgerSequence maxEntryTtl : UInt32) : Bool :=
  if entry.lastModifiedLedgerSeq > ledgerSequence || maxEntryTtl == 0 then false
  else
    match checkedAdd ledgerSequence (saturatingSub maxEntryTtl 1) with
    | none => false
    | some maxLiveUntil =>
      let liveContractTtl := fun ttl : UInt32 =>
        decide (ledgerSequence ≤ ttl) && decide (ttl ≤ maxLiveUntil)
      match entry.data with
      | .contractCode _ => liveUntil.any fun ttl => ttl == 0 || liveContractTtl ttl
      | .contractData data =>
        match data.durability with
        | .persistent => liveUntil.any fun ttl => ttl == 0 || liveContractTtl ttl
        | .temporary => liveUntil.any liveContractTtl
      | .account _ => liveUntil.isNone
      | .trustline _ => liveUntil.isNone
      | _ => false

/-- The code of a contract-code entry hashes to the hash it is stored under. -/
def codeHashMatches (entry : LedgerEntry) : Bool :=
  match entry.data with
  | .contractCode code => decide (code.hash = sha256 code.code)
  | _ => true

/-- One turn of the validation loop. -/
def validateState (ledgerSequence maxEntryTtl : UInt32) :
    KeyId × LookupState → Except CaptureError Unit
  | (_, .absent) => pure ()
  | (id, .present entry liveUntil) => do
    let derived ← keyId entry.toKey
    ensure (id = derived) (.malformedRpc "getLedgerEntries")
    ensure (codeHashMatches entry = true) (.malformedRpc "getLedgerEntries")
    ensure (validateEntryMetadata entry liveUntil ledgerSequence maxEntryTtl = true)
      (.malformedRpc "getLedgerEntries")

def validateCoverage (coverage : Coverage) (ledgerSequence maxEntryTtl : UInt32) :
    Except CaptureError Unit :=
  forM coverage.toList (validateState ledgerSequence maxEntryTtl)

/-! ## Executable chains -/

/-- The executable of a Present contract instance. -/
def LookupState.executable? : LookupState → Option ContractExecutable
  | .present entry _ =>
    match entry.data with
    | .contractData data =>
      match data.val with
      | .contractInstance inst => some inst.executable
      | _ => none
    | _ => none
  | .absent => none

/-- `<[u8; 32]>::try_from`. -/
def bytes32? (bytes : Bytes) : Option Bytes32 :=
  if h : bytes.length = 32 then some ⟨bytes.toArray, by simpa using h⟩ else none

def externalRefCodeKey (coverage : Coverage) (externalRef : ContractExecutableExternalRef) :
    Except CaptureError (Option LedgerKey) := do
  let referenceId ← keyId (executableRefKey externalRef)
  match coverage[referenceId]? with
  | none => pure none
  | some .absent => throw .missingExecutableReference
  | some (.present entry _) =>
    match entry.data with
    | .contractData data =>
      match data.val with
      | .bytes bytes => do
        let hash ← orError .malformedExecutableReference (bytes32? bytes)
        pure (some (.contractCode hash))
      | _ => throw .malformedExecutableReference
    | _ => throw .malformedExecutableReference

def ensureCodePresent (coverage : Coverage) (hash : Hash) : Except CaptureError Unit := do
  let id ← keyId (.contractCode hash)
  ensure ((coverage[id]?.any LookupState.isPresent) = true) .missingReferencedCode

/-- One turn of the closure check. -/
def ensureExecutablePresent (coverage : Coverage) : KeyId × LookupState → Except CaptureError Unit
  | (_, state) =>
    match state.executable? with
    | none => pure ()
    | some (.wasm hash) => ensureCodePresent coverage hash
    | some (.externalRef externalRef) => do
      let codeKey ← externalRefCodeKey coverage externalRef
      match codeKey with
      | none => throw .missingExecutableReference
      | some (.contractCode hash) => ensureCodePresent coverage hash
      | some _ => throw .internalInvariant
    | some .stellarAsset => pure ()

def ensureExecutableClosurePresent (coverage : Coverage) : Except CaptureError Unit :=
  forM coverage.toList (ensureExecutablePresent coverage)

/-- The keys one state requires of its executable chain, as far as it is covered. -/
def requiredOf (coverage : Coverage) : KeyId × LookupState → Except CaptureError (List LedgerKey)
  | (_, state) =>
    match state.executable? with
    | none => pure []
    | some (.wasm hash) => pure [.contractCode hash]
    | some (.externalRef externalRef) => do
      let codeKey ← externalRefCodeKey coverage externalRef
      pure (executableRefKey externalRef :: codeKey.toList)
    | some .stellarAsset => pure []

/-! ## The inventory digest -/

def inventoryDigestDomainV1 : Bytes := asBytes "KANATOKO\x00CAPTURE-INVENTORY\x00V1\x00"

/-- What one covered key adds to the inventory digest. -/
def inventoryEntryBytes : KeyId × LookupState → Except CaptureError Bytes
  | (id, .present entry liveUntil) => do
    let xdr ← orError .xdr (ledgerEntryToXdr entry)
    pure (lengthPrefixed id ++ [1] ++ lengthPrefixed xdr ++ taggedLiveUntil liveUntil)
  | (id, .absent) => pure (lengthPrefixed id ++ [0])

def inventoryDigest (coverage : Coverage) : Except CaptureError Bytes32 := do
  let parts ← coverage.toList.mapM inventoryEntryBytes
  pure (sha256 (inventoryDigestDomainV1 ++ toBeBytes 8 coverage.size ++ parts.flatten))

def presentCount (coverage : Coverage) : Nat :=
  (coverage.toList.filter fun item => item.2.isPresent).length

def absentCount (coverage : Coverage) : Nat := coverage.size - presentCount coverage

end Kanatoko
