import Kanatoko.Strict.Fork
import Kanatoko.Testnet.Native

/-!
# A host for the native asset

Every invocation funds the first account, after it has read it; where authorization is mocked
it also leaves a nonce. Every registration installs what it is given.
-/

namespace Kanatoko.Testnet

open Adaptive

def fundedAccount : LedgerEntry where
  lastModifiedLedgerSeq := 4983918
  data := .account
    { accountId := firstAccount
      balance := 10000000
      seqNum := 0
      numSubEntries := 0
      inflationDest := none
      flags := 0
      homeDomain := []
      thresholds := [1, 0, 0, 0]
      signers := []
      ext := [0, 0, 0, 0] }
  ext := .v0

def nonceData : LedgerKeyContractData :=
  ⟨.account firstAccount, .ledgerKeyNonce 801925984706572462, .temporary⟩

def nonceEntry : LedgerEntry where
  lastModifiedLedgerSeq := 4983918
  data := .contractData
    { contract := nonceData.contract
      key := nonceData.key
      durability := nonceData.durability
      val := .other [0, 0, 0, 1] }
  ext := .v0

def fundedEntries : StoredEntries where
  entries := [(.account firstAccount, some (fundedAccount, none))]
  nodup := by decide

def mockedEntries : StoredEntries where
  entries := [(.account firstAccount, some (fundedAccount, none)),
    (.contractData nonceData, some (nonceEntry, some 4990117))]
  nodup := by decide

def invokeStored : ChildAuth → StoredEntries
  | .mockAllAuths => mockedEntries
  | .entries _ => fundedEntries

def installedEntries (address : ScAddress) (wasm : Bytes) : StoredEntries where
  entries :=
    [(contractInstanceKey address, some (⟨4983918, .contractData
        ⟨address, .ledgerKeyContractInstance, .persistent,
          .contractInstance ⟨.wasm (sha256 wasm), none⟩⟩, .v0⟩, some 5104877)),
      (.contractCode (sha256 wasm), some (⟨4983918, .contractCode
        ⟨[0, 0, 0, 0], sha256 wasm, wasm⟩, .v0⟩, some 5104877))]
  nodup := by simp [contractInstanceKey]

def nativeHost : Host where
  validInvocation _ _ := true
  validAuthorization _ _ := true
  invoke info auth _ := .ask (.account firstAccount) fun _ => .done
    { result := .value (.other [0, 0, 0, 1])
      ledgerInfo := info
      storedEntries := some (invokeStored auth)
      auth := [[⟨.account firstAccount, []⟩]]
      events := []
      diagnostics := some [] }
  validRegistration _ _ _ := true
  register info address wasm _ := .done
    { result := some address
      ledgerInfo := info
      storedEntries := some (installedEntries address wasm)
      auth := []
      events := []
      diagnostics := some [] }

theorem nativeHost_keepsHeader : nativeHost.KeepsHeader where
  invoke _ _ _ := fun _ => rfl
  register _ _ _ _ := rfl

/-- The header of an empty WASM module. -/
def emptyWasm : Bytes := [0, 97, 115, 109, 1, 0, 0, 0]

def fundingRequest : InvokeRequest := ⟨nativeAsset, [], []⟩

/-- A fork of a native fixture behind one committed funding and a checkpoint. -/
theorem nativeHost_reachable (f : CapturedFixture) : ∃ fork taken,
    Reachable nativeHost f 1 fork taken ∧ taken ≠ [] :=
  ⟨_, _, .checkpoint (.invoke fundingRequest .apply .record .fork), by simp⟩

end Kanatoko.Testnet
