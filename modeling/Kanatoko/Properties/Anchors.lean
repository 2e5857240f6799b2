import Kanatoko.Properties.RoundTrip
import Kanatoko.Testnet.Server

/-!
# What the hash of an anchor certifies

An accepted response repeats fields of the header it carries, and its id is the digest of
that header. Sequence, close time and base reserve of the anchor are those of the header; the
protocol version is taken from the response and compared with nothing.
-/

namespace Kanatoko

open Fallible

variable [Crates] [WireCrates]

/-! ## The header of a response -/

/-- The header bytes of two responses. -/
def headerMessages (w₁ w₂ : LatestWire) : Set Bytes :=
  {bytes | base64Decode w₁.headerXdr = some bytes ∨ base64Decode w₂.headerXdr = some bytes}

/-- The header a response carries. -/
def LatestWire.header? (wire : LatestWire) : Option LedgerHeader :=
  (base64Decode wire.headerXdr).bind ledgerHeaderFromXdr

/-- The anchor of a header, with the protocol version that the header names. -/
def LedgerHeader.anchor (header : LedgerHeader) (id : String) : Anchor where
  sequence := header.ledgerSeq
  hash := id
  protocolVersion := header.ledgerVersion
  timestamp := header.closeTime
  baseReserve := header.baseReserve

omit [Crates] [WireCrates] in
/-- Digests with one hexadecimal string are one digest. -/
theorem hex_inj {a b : Hash} (h : hex a.toList = hex b.toList) : a = b := by
  have ha := decodeHexDigest_hex a
  rw [h, decodeHexDigest_hex b, Except.ok.injEq] at ha
  exact ha.symm

/-- An accepted anchor is that of the header, up to the protocol version of the response. -/
theorem decodeLatestLedger_spec {wire : LatestWire} {anchor : Anchor}
    (h : decodeLatestLedger wire = .ok anchor) :
    ∃ bytes header, base64Decode wire.headerXdr = some bytes ∧
      ledgerHeaderFromXdr bytes = some header ∧ hex (sha256 bytes).toList = wire.id ∧
      anchor = { header.anchor wire.id with protocolVersion := wire.protocolVersion } := by
  unfold decodeLatestLedger at h
  obtain ⟨bytes, hbytes, h₁⟩ := bind_eq_ok.mp h
  obtain ⟨header, hheader, h₂⟩ := bind_eq_ok.mp h₁
  obtain ⟨timestamp, _, h₃⟩ := bind_eq_ok.mp h₂
  obtain ⟨_, hchecked, h₄⟩ := bind_eq_ok.mp h₃
  cases pure_eq_ok.mp h₄
  obtain ⟨hseq, htime, hid⟩ := ensure_eq_ok.mp hchecked
  refine ⟨bytes, header, orError_eq_ok.mp hbytes, orError_eq_ok.mp hheader, hid, ?_⟩
  rw [LedgerHeader.anchor, hseq, htime]

/-- A response that repeats the header it carries is accepted. -/
theorem decodeLatestLedger_of_header (wire : LatestWire) {bytes : Bytes} {header : LedgerHeader}
    (hbytes : base64Decode wire.headerXdr = some bytes)
    (hheader : ledgerHeaderFromXdr bytes = some header)
    (htime : parseU64 wire.closeTime = some header.closeTime)
    (hseq : header.ledgerSeq = wire.sequence) (hid : hex (sha256 bytes).toList = wire.id) :
    decodeLatestLedger wire =
      .ok { header.anchor wire.id with protocolVersion := wire.protocolVersion } := by
  refine bind_eq_ok.mpr ⟨bytes, orError_eq_ok.mpr hbytes, bind_eq_ok.mpr ⟨header,
    orError_eq_ok.mpr hheader, bind_eq_ok.mpr ⟨_, orError_eq_ok.mpr htime,
      bind_eq_ok.mpr ⟨⟨⟩, ensure_eq_ok.mpr ⟨hseq, rfl, hid⟩, ?_⟩⟩⟩⟩
  rw [LedgerHeader.anchor, hseq]
  rfl

theorem latestLedger_eq_ok {σ : Type} {server : RpcServer σ} {s : σ} {wire : LatestWire}
    {anchor : Anchor} (hwire : (server.getLatestLedger s).1 = some wire)
    (h : ((httpTransport server).latestLedger s).1 = .ok anchor) :
    decodeLatestLedger wire = .ok anchor := by
  obtain ⟨wire', hanswer, hdecoded⟩ := bind_eq_ok.mp h
  rw [orError_eq_ok, hwire] at hanswer
  cases hanswer
  exact hdecoded

/-- Without collisions, accepted responses of one id carry the same header. -/
theorem header_unique {w₁ w₂ : LatestWire} {a₁ a₂ : Anchor}
    (h₁ : decodeLatestLedger w₁ = .ok a₁) (h₂ : decodeLatestLedger w₂ = .ok a₂)
    (hid : w₁.id = w₂.id) (hfree : Set.InjOn sha256 (headerMessages w₁ w₂)) :
    ∃ header, w₁.header? = some header ∧ w₂.header? = some header ∧
      a₁ = { header.anchor w₁.id with protocolVersion := w₁.protocolVersion } ∧
      a₂ = { header.anchor w₁.id with protocolVersion := w₂.protocolVersion } := by
  obtain ⟨bytes, header, hbytes, hheader, hhash, rfl⟩ := decodeLatestLedger_spec h₁
  obtain ⟨bytes', header', hbytes', hheader', hhash', rfl⟩ := decodeLatestLedger_spec h₂
  have hdigest : sha256 bytes = sha256 bytes' := by
    apply hex_inj
    rw [hhash, hhash', hid]
  have hsame : bytes = bytes' := hfree (Or.inl hbytes) (Or.inr hbytes') hdigest
  subst hsame
  rw [hheader] at hheader'
  cases hheader'
  refine ⟨header, ?_, ?_, rfl, ?_⟩
  · rw [LatestWire.header?, hbytes, Option.bind_some, hheader]
  · rw [LatestWire.header?, hbytes', Option.bind_some, hheader]
  · rw [hid]

/-! ## The result -/

/--
**An anchor is certified by its hash exactly when the response names the header's protocol.**

Two responses of one id are accepted, by any servers in any states. Both anchors are the one
that the hashed header determines if and only if both responses repeat the header's ledger
version; the anchors are equal if and only if the responses name the same protocol version.
-/
theorem accepted_anchor_certified {σ₁ σ₂ : Type} {server₁ : RpcServer σ₁} {server₂ : RpcServer σ₂}
    {s₁ : σ₁} {s₂ : σ₂} {w₁ w₂ : LatestWire} {a₁ a₂ : Anchor}
    (hw₁ : (server₁.getLatestLedger s₁).1 = some w₁)
    (hw₂ : (server₂.getLatestLedger s₂).1 = some w₂)
    (h₁ : ((httpTransport server₁).latestLedger s₁).1 = .ok a₁)
    (h₂ : ((httpTransport server₂).latestLedger s₂).1 = .ok a₂)
    (hid : w₁.id = w₂.id) (hfree : Set.InjOn sha256 (headerMessages w₁ w₂)) :
    ∃ header, w₁.header? = some header ∧ w₂.header? = some header ∧
      ((a₁ = header.anchor w₁.id ∧ a₂ = header.anchor w₁.id) ↔
        w₁.protocolVersion = header.ledgerVersion ∧ w₂.protocolVersion = header.ledgerVersion) ∧
      (a₁ = a₂ ↔ w₁.protocolVersion = w₂.protocolVersion) := by
  obtain ⟨header, hheader₁, hheader₂, rfl, rfl⟩ :=
    header_unique (latestLedger_eq_ok hw₁ h₁) (latestLedger_eq_ok hw₂ h₂) hid hfree
  refine ⟨header, hheader₁, hheader₂, ?_, ?_⟩ <;> simp [LedgerHeader.anchor]

end Kanatoko

namespace Kanatoko.Testnet

open Fallible

/-! ## A relabelled ledger -/

/-- The native ledger, closed under protocol 29 and reported as one of protocol 30. -/
def relabelledLatest : LatestWire := { nativeLatest with protocolVersion := 30 }

def relabelledServer : RpcServer Unit :=
  { nativeServer with getLatestLedger := fun s => (some relabelledLatest, s) }

def nativeLatestAnchor : Anchor where
  sequence := 4983918
  hash := nativeLatest.id
  protocolVersion := 29
  timestamp := 1790943177
  baseReserve := 5000000

theorem nativeHeader_read :
    ledgerHeaderFromXdr nativeHeader = some ⟨29, 4983918, 1790943177, 5000000⟩ := by
  decide +kernel

theorem nativeLatest_closeTime : parseU64 nativeLatest.closeTime = some 1790943177 := by
  decide +kernel

theorem nativeServer_latestLedger :
    ((httpTransport nativeServer).latestLedger ()).1 = .ok nativeLatestAnchor := by
  have hbytes : base64Decode nativeLatest.headerXdr = some nativeHeader :=
    LawfulCrates.base64Decode_encode nativeHeader
  have hdecoded := decodeLatestLedger_of_header nativeLatest hbytes nativeHeader_read
    nativeLatest_closeTime rfl rfl
  exact bind_eq_ok.mpr ⟨nativeLatest, rfl, hdecoded⟩

theorem relabelledServer_latestLedger : ((httpTransport relabelledServer).latestLedger ()).1 =
    .ok { nativeLatestAnchor with protocolVersion := 30 } := by
  have hbytes : base64Decode relabelledLatest.headerXdr = some nativeHeader :=
    LawfulCrates.base64Decode_encode nativeHeader
  have hdecoded := decodeLatestLedger_of_header relabelledLatest hbytes nativeHeader_read
    nativeLatest_closeTime rfl rfl
  exact bind_eq_ok.mpr ⟨relabelledLatest, rfl, hdecoded⟩

/-- The two responses carry one header, so there is no collision between their headers. -/
theorem relabelled_collisionFree :
    Set.InjOn sha256 (headerMessages nativeLatest relabelledLatest) := by
  rintro a ha b hb -
  have hone : ∀ bytes ∈ headerMessages nativeLatest relabelledLatest,
      base64Decode nativeLatest.headerXdr = some bytes := fun bytes hbytes => hbytes.elim id id
  exact Option.some.inj ((hone a ha).symm.trans (hone b hb))

/-- The header names protocol 29, and a response that names protocol 30 is accepted with it. -/
theorem relabelled_anchor_accepted :
    nativeLatest.id = relabelledLatest.id ∧ nativeLatest.headerXdr = relabelledLatest.headerXdr ∧
      Set.InjOn sha256 (headerMessages nativeLatest relabelledLatest) ∧
      ∃ a₁ a₂, ((httpTransport nativeServer).latestLedger ()).1 = .ok a₁ ∧
        ((httpTransport relabelledServer).latestLedger ()).1 = .ok a₂ ∧
        a₁ ≠ a₂ ∧ a₁.protocolVersion = 29 ∧ a₂.protocolVersion = 30 :=
  ⟨rfl, rfl, relabelled_collisionFree, _, _, nativeServer_latestLedger,
    relabelledServer_latestLedger, by simp [nativeLatestAnchor], rfl, rfl⟩

theorem relabelled_anchor_not_certified : ∃ header, relabelledLatest.header? = some header ∧
    ¬(relabelledLatest.protocolVersion = header.ledgerVersion ∧
      nativeLatest.protocolVersion = header.ledgerVersion) := by
  have hnative : (nativeServer.getLatestLedger ()).1 = some nativeLatest := rfl
  have hrelabelled : (relabelledServer.getLatestLedger ()).1 = some relabelledLatest := rfl
  obtain ⟨header, _, hheader, _⟩ := accepted_anchor_certified hnative hrelabelled
    nativeServer_latestLedger relabelledServer_latestLedger rfl relabelled_collisionFree
  refine ⟨header, hheader, ?_⟩
  rintro ⟨h30, h29⟩
  exact absurd (h30.trans h29.symm) (by decide)

end Kanatoko.Testnet
