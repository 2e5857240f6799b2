import Kanatoko.Capture.Builder

/-!
# Captured fixtures: strict replay and reuse

A fixture replays a scenario over a source without transport, and hands its key inventory
to a later capture.
-/

namespace Kanatoko

open Fallible

variable [Crates] {σ : Type}

/-- The stored keys that are neither locally owned nor covered. -/
def collectUnknown (localLedger : LocalLedger) (coverage : Coverage) :
    List LedgerKey → Std.ExtTreeSet KeyId → Except CaptureError (Std.ExtTreeSet KeyId)
  | [], unknown => pure unknown
  | key :: rest, unknown =>
    if localLedger.owns key then collectUnknown localLedger coverage rest unknown
    else do
      let id ← keyId key
      collectUnknown localLedger coverage rest
        (if id ∈ coverage then unknown else unknown.insert id)

/-- The loop of `inventory_keys`: decodes the covered ids. -/
def decodeKeys : List KeyId → KeyMap → Except CaptureError KeyMap
  | [], keys => pure keys
  | id :: rest, keys =>
    match ledgerKeyFromXdr id with
    | none => throw .malformedCaptureBundle
    | some key =>
      match h : ledgerKeyToXdr key with
      | none => throw .xdr
      | some derived =>
        if derived ≠ id ∨ isStateArchivalKey key = true then throw .malformedCaptureBundle
        else decodeKeys rest (keys.insert derived key h)

namespace CapturedFixture

def anchor (f : CapturedFixture) : Anchor where
  sequence := f.fixture.snapshot.sequenceNumber
  hash := f.provenance.ledgerHash
  protocolVersion := f.fixture.snapshot.protocolVersion
  timestamp := f.fixture.snapshot.timestamp
  baseReserve := f.fixture.snapshot.baseReserve

/-- The materialization a replay starts from. -/
def materialized (f : CapturedFixture) : Materialized where
  anchor := f.anchor
  ledgerInfo := f.fixture.snapshot.toLedgerInfo
  coverage := f.coverage

/-- The verdict of a replay whose pass has ended. -/
def concludeReplay {R : Type} (f : CapturedFixture) (passEnd : PassEnd R)
    (source : TrackingSource) : Except CaptureError R := do
  let stored ← orError .hostInspection passEnd.storedEntries
  let unknown ← collectUnknown source.localLedger f.coverage stored source.unknown
  ensure (unknown = ∅) (.unknownLedgerKeys unknown.size)
  orError .scenarioPanicked passEnd.outcome

def replayWithLocal {R : Type} (f : CapturedFixture) (scenario : Scenario R) :
    CaptureM σ R := do
  let (passEnd, source) ← passOver none scenario f.materialized
  liftCapture (f.concludeReplay passEnd source)

def inventoryKeys (f : CapturedFixture) : Except CaptureError KeyMap :=
  decodeKeys f.coverage.keys .empty

end CapturedFixture

namespace CaptureBuilder

def captureWithInventory (b : CaptureBuilder σ) (f : CapturedFixture)
    (scenario : Scenario Unit) : CaptureM σ CapturedFixture := do
  let keys ← liftCapture f.inventoryKeys
  b.captureRefFromKeys scenario keys

def cachedAnchorIsCurrent (b : CaptureBuilder σ) (f : CapturedFixture) : CaptureM σ Bool := do
  b.validateNetwork
  let anchor ← b.currentAnchor
  pure (decide (anchor = f.anchor))

end CaptureBuilder

end Kanatoko
