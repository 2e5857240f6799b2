import Kanatoko.Capture.Transport
import Kanatoko.Lib.Adaptive
import Kanatoko.Runtime

/-!
# The tracking source and scenario passes

`TrackingSource` answers the ledger lookups of a pass from a cache, and from the transport
when it has one. A scenario together with the Host it runs on is an adaptive client of the
source: what it looks up next depends on the header and base snapshot of its environment and
on every answer so far. It may mark addresses and code hashes local, run preview children,
catch errors, and panic.
-/

namespace Kanatoko

open Fallible Adaptive

/-! ## Locally owned keys -/

structure LocalLedger where
  addresses : Finset ScAddress
  codeHashes : Finset Hash

namespace LocalLedger

def empty : LocalLedger := ⟨∅, ∅⟩

def markAddress (l : LocalLedger) (address : ScAddress) : LocalLedger :=
  { l with addresses := insert address l.addresses }

def markCode (l : LocalLedger) (hash : Hash) : LocalLedger :=
  { l with codeHashes := insert hash l.codeHashes }

def owns (l : LocalLedger) : LedgerKey → Bool
  | .contractCode hash => decide (hash ∈ l.codeHashes)
  | .contractData data => decide (data.contract ∈ l.addresses)
  | .account accountId => decide (ScAddress.account accountId ∈ l.addresses)
  | .trustline accountId _ => decide (ScAddress.account accountId ∈ l.addresses)
  | _ => false

end LocalLedger

/-! ## The source -/

structure TrackingSource [Crates] where
  cache : Coverage
  requested : KeyMap
  unknown : Std.ExtTreeSet KeyId
  localLedger : LocalLedger
  networkProtocolVersion : UInt32
  rpcReads : Nat
  failure : Option String

variable [Crates] {σ : Type}

/-- `TrackingSource::new`: the transport is handed to each lookup instead. -/
def TrackingSource.new (cache : Coverage) (networkProtocolVersion : UInt32) : TrackingSource where
  cache := cache
  requested := .empty
  unknown := ∅
  localLedger := .empty
  networkProtocolVersion := networkProtocolVersion
  rpcReads := 0
  failure := none

/-- The source a pass runs on, and the world around it. -/
abbrev PassState (σ : Type) := TrackingSource × World σ

/-- One single-key read through the transport, on a cache miss. -/
def fetchOne (transport : Transport σ) (key : LedgerKey) (id : KeyId) (source : TrackingSource)
    (w : World σ) : LookupAnswer × PassState σ :=
  let source := { source with rpcReads := source.rpcReads + 1 }
  match w.ledgerEntries transport [key] with
  | (.error failure, w) =>
    (.error .storageInternalError, { source with failure := some failure.operation }, w)
  | (.ok batch, w) =>
    match validateBatch [key] batch.entries with
    | .error _ =>
      (.error .storageInternalError, { source with failure := some "getLedgerEntries" }, w)
    | .ok returned =>
      let state := stateOf returned[id]?
      (.ok state.answer, { source with cache := source.cache.insert id state }, w)

/-- The body of `TrackingSource::get`; `none` for the transport is the strict source. -/
def TrackingSource.read (transport : Option (Transport σ)) (key : LedgerKey)
    (source : TrackingSource) (w : World σ) : LookupAnswer × PassState σ :=
  if source.failure.isSome then (.error .storageInternalError, source, w)
  else
    match h : ledgerKeyToXdr key with
    | none =>
      (.error .storageInternalError, { source with failure := some "ledger-key-encode" }, w)
    | some id =>
      if source.localLedger.owns key then (.ok none, source, w)
      else
        let source := { source with requested := source.requested.insert id key h }
        match source.cache[id]? with
        | some state => (.ok state.answer, source, w)
        | none =>
          match transport with
          | none =>
            (.error .storageInternalError, { source with unknown := source.unknown.insert id }, w)
          | some transport => fetchOne transport key id source w

/-- `TrackingSource::get`, with the lookup written to the log. -/
def TrackingSource.get (transport : Option (Transport σ)) (key : LedgerKey) (st : PassState σ) :
    LookupAnswer × PassState σ :=
  let (answer, source, w) := st.1.read transport key st.2
  (answer, source, w.record (.lookup key (st.1.localLedger.owns key) answer))

/-! ## Preview children -/

/-- The loop of `forward_preview_reads`: whether any observation failed. -/
def observeAll (transport : Option (Transport σ)) :
    List LedgerKey → Bool → PassState σ → Bool × PassState σ
  | [], failed, st => (failed, st)
  | key :: rest, failed, st =>
    if isNonceKey key then observeAll transport rest failed st
    else
      match TrackingSource.get transport key st with
      | (.error _, st) => observeAll transport rest true st
      | (.ok _, st) => observeAll transport rest failed st

/-- `forward_preview_reads`, for the keys stored by a preview child. -/
def forwardPreviewReads (transport : Option (Transport σ)) (stored : Option (List LedgerKey))
    (st : PassState σ) : Except StrictForkError Nat × PassState σ :=
  let st := (st.1, st.2.record (.preview stored))
  match stored with
  | none => (.error .hostInspection, st)
  | some keys =>
    let readsBefore := st.1.rpcReads
    let (inspectionFailed, st) := observeAll transport keys false st
    if st.1.unknown ≠ ∅ then
      (.error (.unknownLedgerKeys st.1.unknown.size st.1.unknown.toList), st)
    else if inspectionFailed then (.error .hostInspection, st)
    else (.ok (st.1.rpcReads - readsBefore), st)

/-! ## Scenario passes -/

inductive SourceOp where
  | get (key : LedgerKey)
  | markAddress (address : ScAddress)
  | markCode (hash : Hash)
  /-- A preview child has run and left these stored keys. -/
  | preview (stored : Option (List LedgerKey))

abbrev SourceOp.Answer : SourceOp → Type
  | get _ => LookupAnswer
  | markAddress _ => Unit
  | markCode _ => Unit
  | preview _ => Except StrictForkError Nat

/--
How a pass ends. `outcome` is `none` when the scenario panicked, and `storedEntries` lists
the keys of the Host's stored entries, or is `none` when the Host refuses inspection.
-/
structure PassEnd (R : Type) where
  outcome : Option R
  storedEntries : Option (List LedgerKey)

abbrev PassClient (R : Type) := Client SourceOp SourceOp.Answer (PassEnd R)

/-- A scenario on its Host: deterministic in its environment and network protocol. -/
abbrev Scenario (R : Type) := Env → UInt32 → PassClient R

def mapLocal (f : LocalLedger → LocalLedger) (st : PassState σ) : PassState σ :=
  ({ st.1 with localLedger := f st.1.localLedger }, st.2)

/-- How the source serves a pass. -/
def serve (transport : Option (Transport σ)) : Server SourceOp SourceOp.Answer (PassState σ)
  | .get key, st => TrackingSource.get transport key st
  | .markAddress address, st => ((), mapLocal (·.markAddress address) st)
  | .markCode hash, st => ((), mapLocal (·.markCode hash) st)
  | .preview stored, st => forwardPreviewReads transport stored st

/-- Runs one pass of a scenario in a fresh environment over a fresh source. -/
def runPass {R : Type} (transport : Option (Transport σ)) (scenario : Scenario R) (env : Env)
    (source : TrackingSource) (w : World σ) : PassEnd R × PassState σ :=
  (scenario env source.networkProtocolVersion).run (serve transport) (source, w.record .pass)

/-- Every pass of the scenario stores only accounts, trustlines, contract data and code. -/
def StoresSupported {R : Type} (scenario : Scenario R) : Prop :=
  ∀ env protocol, (scenario env protocol).AllResults fun passEnd =>
    ∀ stored, passEnd.storedEntries = some stored → ∀ key ∈ stored,
      match key with
      | .account _ | .trustline _ _ | .contractData _ | .contractCode _ => True
      | _ => False

end Kanatoko
