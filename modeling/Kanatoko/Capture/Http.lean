import Kanatoko.Capture.Transport

/-!
# The HTTP transport

What `HttpTransport` makes of a server's answers. The server may answer anything, and its
answers may change from call to call.
-/

namespace Kanatoko

open Fallible

/-! ## The wire -/

structure NetworkWire where
  passphrase : String
  protocolVersion : UInt32
  deriving DecidableEq, Repr

structure LatestWire where
  id : String
  protocolVersion : UInt32
  sequence : UInt32
  closeTime : String
  headerXdr : String
  deriving DecidableEq, Repr

structure EntryWire where
  key : String
  xdr : String
  lastModifiedLedgerSeq : UInt32
  liveUntilLedgerSeq : Option UInt32
  extXdr : Option String
  deriving DecidableEq, Repr

structure EntriesWire where
  entries : Option (List EntryWire)
  latestLedger : UInt32
  deriving DecidableEq, Repr

/--
The server behind an RPC URL. An answer is what `HttpTransport::rpc` returns: `none` when the
request failed after its retries, or the body is no result of the expected form.
-/
structure RpcServer (σ : Type) where
  getNetwork : σ → Option NetworkWire × σ
  getLatestLedger : σ → Option LatestWire × σ
  getLedgerEntries : List String → σ → Option EntriesWire × σ

/-- The `LedgerHeader` fields an anchor is made of or checked against. -/
structure LedgerHeader where
  ledgerVersion : UInt32
  ledgerSeq : UInt32
  closeTime : UInt64
  baseReserve : UInt32
  deriving DecidableEq, Repr

/-- `from_xdr` of the types that only the wire carries. -/
class WireCrates where
  ledgerHeaderFromXdr : Bytes → Option LedgerHeader
  ledgerEntryDataFromXdr : Bytes → Option LedgerEntryData
  ledgerEntryExtFromXdr : Bytes → Option LedgerEntryExt

export WireCrates (ledgerHeaderFromXdr ledgerEntryDataFromXdr ledgerEntryExtFromXdr)

/-! ## Decoding an answer -/

/-- The value of a string of decimal digits. -/
def decimalValue (digits : List Char) : Nat :=
  digits.foldl (fun n c => 10 * n + (c.toNat - '0'.toNat)) 0

/-- `str::parse::<u64>`: digits behind at most one plus sign. -/
def parseU64 (value : String) : Option UInt64 :=
  let digits := match value.toList with
    | '+' :: digits => digits
    | digits => digits
  if digits ≠ [] ∧ digits.all Char.isDigit ∧ decimalValue digits < 2 ^ 64 then
    some (UInt64.ofNat (decimalValue digits))
  else none

variable [Crates] [WireCrates] {σ : Type}

/-- `latest_ledger` behind the request. -/
def decodeLatestLedger (wire : LatestWire) : Except TransportFailure Anchor := do
  let failure : TransportFailure := ⟨"getLatestLedger"⟩
  let bytes ← orError failure (base64Decode wire.headerXdr)
  let header ← orError failure (ledgerHeaderFromXdr bytes)
  let timestamp ← orError failure (parseU64 wire.closeTime)
  ensure (header.ledgerSeq = wire.sequence ∧ header.closeTime = timestamp
    ∧ hex (sha256 bytes).toList = wire.id) failure
  pure
    { sequence := wire.sequence
      hash := wire.id
      protocolVersion := wire.protocolVersion
      timestamp := timestamp
      baseReserve := header.baseReserve }

def decodeWireEntry (wire : EntryWire) (operation : String) :
    Except TransportFailure FetchedEntry := do
  let failure : TransportFailure := ⟨operation⟩
  let keyBytes ← orError failure (base64Decode wire.key)
  let key ← orError failure (ledgerKeyFromXdr keyBytes)
  let entryBytes ← orError failure (base64Decode wire.xdr)
  let data ← orError failure (ledgerEntryDataFromXdr entryBytes)
  let ext ← orError failure (wire.extXdr.bind fun encoded =>
    (base64Decode encoded).bind ledgerEntryExtFromXdr)
  let entry : LedgerEntry := ⟨wire.lastModifiedLedgerSeq, data, ext⟩
  ensure (entry.toKey = key) failure
  pure ⟨entry, wire.liveUntilLedgerSeq⟩

/-- The answer of a request, decoded. -/
def decodeAnswer {α β : Type} (operation : String) (decode : α → Except TransportFailure β)
    (answer : Option α) : Except TransportFailure β := do
  let wire ← orError ⟨operation⟩ answer
  decode wire

/-! ## The transport -/

/-- `ledger_entries`: no request is made when a key does not encode. -/
def httpLedgerEntries (server : RpcServer σ) (keys : List LedgerKey) (s : σ) :
    Except TransportFailure EntryBatch × σ :=
  let operation := "getLedgerEntries"
  match keys.mapM ledgerKeyToXdr with
  | none => (.error ⟨operation⟩, s)
  | some encoded =>
    let (answer, s) := server.getLedgerEntries (encoded.map base64Encode) s
    (decodeAnswer operation (fun wire => do
      let entries ← (wire.entries.getD []).mapM (decodeWireEntry · operation)
      pure ⟨wire.latestLedger, entries⟩) answer, s)

def httpTransport (server : RpcServer σ) : Transport σ where
  network s :=
    let (answer, s) := server.getNetwork s
    (decodeAnswer "getNetwork" (fun wire => pure ⟨wire.passphrase, wire.protocolVersion⟩) answer, s)
  latestLedger s :=
    let (answer, s) := server.getLatestLedger s
    (decodeAnswer "getLatestLedger" decodeLatestLedger answer, s)
  ledgerEntries := httpLedgerEntries server

/-! ## An accepted anchor -/

/-- The hash of an accepted anchor is the hexadecimal digest of a header. -/
theorem decodeLatestLedger_hash {wire : LatestWire} {anchor : Anchor}
    (h : decodeLatestLedger wire = .ok anchor) :
    ∃ header : Bytes, anchor.hash = hex (sha256 header).toList := by
  unfold decodeLatestLedger at h
  obtain ⟨header, _, h₁⟩ := bind_eq_ok.mp h
  obtain ⟨_, _, h₂⟩ := bind_eq_ok.mp h₁
  obtain ⟨_, _, h₃⟩ := bind_eq_ok.mp h₂
  obtain ⟨_, hchecked, h₄⟩ := bind_eq_ok.mp h₃
  cases pure_eq_ok.mp h₄
  exact ⟨header, (ensure_eq_ok.mp hchecked).2.2.symm⟩

theorem httpTransport_hash_ne {server : RpcServer σ} {s : σ} {anchor : Anchor}
    (h : ((httpTransport server).latestLedger s).1 = .ok anchor) : anchor.hash ≠ "" := by
  obtain ⟨wire, _, hdecoded⟩ := bind_eq_ok.mp h
  obtain ⟨header, hhash⟩ := decodeLatestLedger_hash hdecoded
  intro hempty
  have hlen := congrArg String.length (hhash.symm.trans hempty)
  rw [hex, String.length_ofList, length_flatMap_hexByte, Vector.length_toList] at hlen
  exact absurd hlen (by decide)

end Kanatoko
