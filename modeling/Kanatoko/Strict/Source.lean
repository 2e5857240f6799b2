import Kanatoko.Capture.Coverage
import Kanatoko.Runtime
import Kanatoko.Strict.Host

/-!
# The strict source, gates and diffs

The snapshot source of an isolated child, the unknown-key gate behind it, the stripping of
mock nonces, and the state diff that a promoted child adds to the coverage.
-/

namespace Kanatoko

open Fallible

variable [Crates]

/-- `key_id` of `src/strict.rs`. -/
def strictKeyId (key : LedgerKey) : Except StrictForkError KeyId := orError .xdr (ledgerKeyToXdr key)

def isLocalKey (key : LedgerKey) (localContracts : Finset ScAddress)
    (localCodeHashes : Finset Bytes32) (allowMockNonces : Bool) : Bool :=
  match key with
  | .contractData data =>
    decide (data.contract ∈ localContracts) || (allowMockNonces && isNonceData data)
  | .contractCode hash => decide (hash ∈ localCodeHashes)
  | _ => false

structure StrictSource where
  coverage : Coverage
  localContracts : Finset ScAddress
  localCodeHashes : Finset Bytes32
  allowMockNonces : Bool
  unknown : Std.ExtTreeSet KeyId

/-- `StrictSource::get`. A child goes on with an unknown key as if it were absent. -/
def StrictSource.get (key : LedgerKey) (source : StrictSource) : LookupAnswer × StrictSource :=
  match ledgerKeyToXdr key with
  | none => (.error .storageInternalError, source)
  | some id =>
    match source.coverage[id]? with
    | some state => (.ok state.answer, source)
    | none =>
      if isLocalKey key source.localContracts source.localCodeHashes source.allowMockNonces then
        (.ok none, source)
      else (.ok none, { source with unknown := source.unknown.insert id })

/-- The `Env` half of `strict_env`. -/
def strictEnv (snapshot : LedgerSnapshot) : Env := forkEnv snapshot.toLedgerInfo snapshot

/-- The source half of `strict_env`. -/
def strictSource (coverage : Coverage) (localContracts : Finset ScAddress)
    (localCodeHashes : Finset Bytes32) (allowMockNonces : Bool) : StrictSource :=
  ⟨coverage, localContracts, localCodeHashes, allowMockNonces, ∅⟩

/-- The loop of `unknown_keys` over the stored entries. -/
def storedUnknown (source : StrictSource) :
    List LedgerKey → Std.ExtTreeSet KeyId → Except StrictForkError (Std.ExtTreeSet KeyId)
  | [], unknown => pure unknown
  | key :: rest, unknown => do
    let id ← strictKeyId key
    storedUnknown source rest
      (if id ∉ source.coverage ∧ isLocalKey key source.localContracts source.localCodeHashes
          source.allowMockNonces = false
        then unknown.insert id else unknown)

/-- `unknown_keys`, with the stored entries it has inspected. -/
def unknownKeys {α : Type} (source : StrictSource) (childEnd : ChildEnd α) :
    Except StrictForkError (Std.ExtTreeSet KeyId × StoredEntries) := do
  let stored ← orError .hostInspection childEnd.storedEntries
  let unknown ← storedUnknown source stored.keys source.unknown
  pure (unknown, stored)

/-- The gate behind every child: nothing unknown may have been read or stored. -/
def gateUnknown {α : Type} (source : StrictSource) (childEnd : ChildEnd α) :
    Except StrictForkError StoredEntries := do
  let (unknown, stored) ← unknownKeys source childEnd
  ensure (unknown = ∅) (.unknownLedgerKeys unknown.size unknown.toList)
  pure stored

/-! ## Mock nonces -/

/-- The nonces of the ledger before the call. -/
def beforeNonces (before : LedgerSnapshot) : Except StrictForkError (List KeyId) :=
  (before.ledgerEntries.filter fun x => isNonceKey x.1).mapM fun x => strictKeyId x.1

/-- The loop that keeps everything but new nonces. -/
def keepOldNonces (nonces : List KeyId) :
    List SnapshotEntry → Except StrictForkError (List SnapshotEntry)
  | [] => pure []
  | x :: rest =>
    if isNonceKey x.1 then do
      let id ← strictKeyId x.1
      let kept ← keepOldNonces nonces rest
      pure (if id ∈ nonces then x :: kept else kept)
    else do
      let kept ← keepOldNonces nonces rest
      pure (x :: kept)

def stripNewMockNonces (before after : LedgerSnapshot) : Except StrictForkError LedgerSnapshot := do
  let nonces ← beforeNonces before
  let entries ← keepOldNonces nonces after.ledgerEntries
  pure { after with ledgerEntries := entries }

/-! ## State diffs -/

abbrev SnapshotMap := Std.ExtTreeMap KeyId (LedgerKey × LedgerValue)

/-- Collects the entries of a snapshot by key id. -/
def collectSnapshot : List SnapshotEntry → SnapshotMap → Except StrictForkError SnapshotMap
  | [], map => pure map
  | (key, (entry, liveUntil)) :: rest, map => do
    let id ← strictKeyId key
    collectSnapshot rest (map.insert id (key, ⟨entry, liveUntil⟩))

def snapshotMap (snapshot : LedgerSnapshot) : Except StrictForkError SnapshotMap :=
  collectSnapshot snapshot.ledgerEntries ∅

/-- The change of one key id, if its value changed. -/
def changeOf (before after : SnapshotMap) (id : KeyId) : Except StrictForkError (List StateChange) :=
  let beforeValue := before[id]?
  let afterValue := after[id]?
  if beforeValue.map Prod.snd = afterValue.map Prod.snd then pure []
  else do
    let key ← orError .hostInspection
      ((beforeValue.map Prod.fst).or (afterValue.map Prod.fst))
    pure [⟨key, beforeValue.map Prod.snd, afterValue.map Prod.snd⟩]

/-- The ids of both maps, each once and in order. -/
def allIds (before after : SnapshotMap) : List KeyId :=
  (before.keys ++ after.keys).foldl (fun ids id => ids.insert id) (∅ : Std.ExtTreeSet KeyId) |>.toList

def stateDiff (before after : LedgerSnapshot) : Except StrictForkError (List StateChange) := do
  let beforeMap ← snapshotMap before
  let afterMap ← snapshotMap after
  let changes ← (allIds beforeMap afterMap).mapM (changeOf beforeMap afterMap)
  pure changes.flatten

/-- The state a change leaves its key in. -/
def StateChange.state (change : StateChange) : LookupState :=
  match change.after with
  | some value => .present value.entry value.liveUntilLedger
  | none => .absent

end Kanatoko
