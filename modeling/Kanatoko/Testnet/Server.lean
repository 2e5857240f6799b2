import Kanatoko.Auto
import Kanatoko.Testnet.Native

/-!
# A server for the native asset

The wire side of the native ledger: a server that closes one ledger, whose header has the
XDR layout of the network, and a disk without a cache file.
-/

namespace Kanatoko.Testnet

/-! ## Ledger headers -/

/-- The number in `width` bytes from `start` on. -/
def numberAt (bytes : Bytes) (start width : Nat) : Nat :=
  ((bytes.drop start).take width).foldl (fun n byte => 256 * n + byte.toNat) 0

/-- A header without upgrades and extensions has 324 bytes, with its fields at fixed places. -/
def readHeader (bytes : Bytes) : Option LedgerHeader :=
  if bytes.length = 324 ∧ numberAt bytes 76 8 = 0 ∧ numberAt bytes 320 4 = 0 then
    some
      { ledgerVersion := UInt32.ofNat (numberAt bytes 0 4)
        ledgerSeq := UInt32.ofNat (numberAt bytes 148 4)
        closeTime := UInt64.ofNat (numberAt bytes 68 8)
        baseReserve := UInt32.ofNat (numberAt bytes 184 4) }
  else none

/-- A header of the given fields, with zeros everywhere else. -/
def writeHeader (header : LedgerHeader) : Bytes :=
  toBeBytes 4 header.ledgerVersion.toNat ++ List.replicate 64 0
    ++ toBeBytes 8 header.closeTime.toNat ++ List.replicate 72 0
    ++ toBeBytes 4 header.ledgerSeq.toNat ++ List.replicate 32 0
    ++ toBeBytes 4 header.baseReserve.toNat ++ List.replicate 136 0

scoped instance wireCrates : WireCrates where
  ledgerHeaderFromXdr := readHeader
  ledgerEntryDataFromXdr _ := none
  ledgerEntryExtFromXdr _ := none

def nativeHeader : Bytes := writeHeader ⟨29, 4983918, 1790943177, 5000000⟩

def nativeLatest : LatestWire where
  id := hex (sha256 nativeHeader).toList
  protocolVersion := 29
  sequence := 4983918
  closeTime := "1790943177"
  headerXdr := base64Encode nativeHeader

/-- The server knows its network and its ledger, and refuses to hand out entries. -/
def nativeServer : RpcServer Unit where
  getNetwork s := (some ⟨testnetPassphrase, 29⟩, s)
  getLatestLedger s := (some nativeLatest, s)
  getLedgerEntries _ s := (none, s)

def nativeRunner : AutoRunner where
  rpcUrl := "https://soroban-testnet.stellar.org"
  networkPassphrase := testnetPassphrase
  protocolPolicy := .exact
  cache := some [".kanatoko", "native.json"]
  offline := false
  refresh := false

def emptyDisk : Disk where
  contents _ := none
  directories _ := false
  verdicts _ := .done
  past := []

def nativeState : RunState Unit := ⟨⟨(), []⟩, ⟨emptyDisk, 1, 0⟩⟩

theorem nativeRunner_captureBuilder :
    ∃ b, nativeRunner.captureBuilder (fun _ => nativeServer) = .ok b := by
  have h : (nativeRunner.captureBuilder fun _ => nativeServer).toOption.isSome = true := by
    decide +kernel
  cases hb : nativeRunner.captureBuilder fun _ => nativeServer with
  | ok b => exact ⟨b, rfl⟩
  | error e => rw [hb] at h; cases h

end Kanatoko.Testnet
