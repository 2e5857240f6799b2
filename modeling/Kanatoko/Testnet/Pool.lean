import Kanatoko.Testnet.Host
import Kanatoko.Testnet.Server
import Kanatoko.Tools.Workflow

/-!
# A scripted pool

A Host on which every contract is a pool with two fixed reserves. A swap leaves a mark in the
instance storage of the pool, and the quote is worse where the mark is. The bundle it is
rehearsed on holds the native asset, under the passphrase that the workflow expects.
-/

namespace Kanatoko.Testnet

open Adaptive

/-! ## Values -/

/-- The values at the front of a vector: numbers of 20 bytes and contract addresses of 40. -/
def splitValues : Nat → Bytes → List ScVal
  | 0, _ => []
  | count + 1, bytes =>
    let width := if bytes.take 4 = int32 9 then 20 else 40
    .other (bytes.take width) :: splitValues count (bytes.drop width)

def valueBytes : ScVal → Bytes
  | .other xdr => xdr
  | _ => []

def vecOf (values : List ScVal) : ScVal :=
  .other (int32 16 ++ int32 1 ++ int32 values.length ++ values.flatMap valueBytes)

scoped instance scValCrate : ScValCrate where
  vec? value :=
    let xdr := valueBytes value
    if numberAt xdr 0 8 = 16 * 2 ^ 32 + 1 then some (splitValues (numberAt xdr 8 4) (xdr.drop 12))
    else none
  address? value :=
    let xdr := valueBytes value
    if numberAt xdr 0 4 = 18 then scAddress.decodeAll (xdr.drop 4) else none
  u128? value :=
    let xdr := valueBytes value
    if xdr.length = 20 ∧ numberAt xdr 0 4 = 9 then
      some (UInt64.ofNat (numberAt xdr 4 8), UInt64.ofNat (numberAt xdr 12 8))
    else none
  ofAddress address := .other (int32 18 ++ (scAddress.encode address).getD [])
  ofU32 value := .other (int32 3 ++ int32 value.toNat)
  ofU128 parts := .other (int32 9 ++ toBeBytes 8 parts.1.toNat ++ toBeBytes 8 parts.2.toNat)
  ofI128 parts :=
    .other (int32 10 ++ toBeBytes 8 parts.1.toUInt64.toNat ++ toBeBytes 8 parts.2.toNat)

/-! ## The pool -/

/-- The pool has seen a swap. -/
def swapped : LookupAnswer → Bool
  | .ok (some (⟨_, .contractData ⟨_, _, _, .contractInstance inst⟩, _⟩, _)) => inst.storage.isSome
  | _ => false

def swappedEntries (pool : ScAddress) : StoredEntries where
  entries := [(contractInstanceKey pool, some (⟨4983918, .contractData
    ⟨pool, .ledgerKeyContractInstance, .persistent,
      .contractInstance ⟨.wasm (sha256 emptyWasm), some (int32 0)⟩⟩, .v0⟩, some 5104877))]
  nodup := by simp

def poolResult (request : InvokeRequest) (answer : LookupAnswer) : RawCall :=
  if request.function = Workflow.symbol "get_tokens" then
    .value (vecOf [ScValCrate.ofAddress nativeAsset, ScValCrate.ofAddress nativeAsset])
  else if request.function = Workflow.symbol "get_reserves" then
    .value (vecOf [Workflow.scU128 1000000000, Workflow.scU128 5000000000])
  else if request.function = Workflow.symbol "estimate_swap" then
    .value (Workflow.scU128 (if swapped answer then 36888783 else 44629339))
  else .value (Workflow.scU128 1852777048)

def poolEntries (request : InvokeRequest) : StoredEntries :=
  if request.function = Workflow.symbol "swap" then swappedEntries request.contract else .empty

def poolHost : Host where
  validInvocation _ _ := true
  validAuthorization _ _ := true
  invoke info _ request := .ask (contractInstanceKey request.contract) fun answer => .done
    { result := poolResult request answer
      ledgerInfo := info
      storedEntries := some (poolEntries request)
      auth := [[⟨Workflow.userAddress, []⟩]]
      events := []
      diagnostics := some [] }
  validRegistration _ _ _ := true
  register := nativeHost.register

theorem poolHost_keepsHeader : poolHost.KeepsHeader where
  invoke _ _ _ := fun _ => rfl
  register := nativeHost_keepsHeader.register

/-! ## Its files -/

def poolBundle : CaptureBundleV2 :=
  { nativeBundle with
    ledgerSnapshot := { nativeBundle.ledgerSnapshot with
      networkId := bytes32Of [
        122, 195, 57, 151, 84, 78, 49, 117, 210, 102, 189, 2, 36, 57, 178, 44, 219, 22, 80, 140, 1,
        22, 63, 38, 229, 203, 42, 62, 16, 69, 169, 121] }
    provenance := { nativeBundle.provenance with
      networkPassphrase := "Public Global Stellar Network ; September 2015" }
    ledgerDigest := "fb15d7f232e3f42e75f6fe801c082e415df53fe02dd67aef3463f092479ffdee"
    canonicalDigest := "0fb71f092fe92da291986c620376cadae2b0c23aed4f7eb88129e0606946dc94" }

def poolBuilder : CaptureBuilder Unit :=
  { nativeBuilder with
    networkPassphrase := Workflow.mainnetPassphrase
    transport := { nativeTransport with
      network := fun s => (.ok ⟨Workflow.mainnetPassphrase, 29⟩, s) } }

def poolFiles : FileState where
  disk :=
    { emptyDisk with
      contents := fun path =>
        if path = ["pool.json"] then some [1]
        else if path = ["pool.wasm"] then some emptyWasm else none }
  processId := 1
  temporaryCounter := 0

def poolCandidate : Workflow.CandidateArtifact := .file "pool.wasm" (sha256 emptyWasm)

/-- A report of the rehearsal on a fork of `f` in which the probe was closed. -/
def rehearsedClosed (f : CapturedFixture) : Bool :=
  match Workflow.workflow poolHost f.provenance.ledgerSequence nativeAsset emptyWasm
    poolCandidate.sha256 false (.fromCaptured 1 f.fixture.snapshot f.coverage) with
  | .ok report _ => report.unknownFailClosed
  | .error _ _ => false

/-- The capture gives the bundle, and the rehearsal on it ends well. -/
def capturedRehearsed : Bool :=
  match poolBuilder.captureRefFromKeys nativeScenario .empty nativeWorld with
  | .ok f _ => decide (f.toBundle.toOption = some poolBundle) && rehearsedClosed f
  | .error _ _ => false

/-- The capture of the bundle, and the rehearsal on it. -/
theorem pool_captured : ∃ f w' report s,
    poolBuilder.captureRefFromKeys nativeScenario .empty nativeWorld = .ok f w' ∧
    f.toBundle = .ok poolBundle ∧
    Workflow.workflow poolHost f.provenance.ledgerSequence nativeAsset emptyWasm
      poolCandidate.sha256 false (.fromCaptured 1 f.fixture.snapshot f.coverage) = .ok report s ∧
    report.unknownFailClosed = true := by
  have h : capturedRehearsed = true := by
    unfold capturedRehearsed rehearsedClosed
    decide +kernel
  unfold capturedRehearsed at h
  split at h
  · next f w' hcapture =>
    obtain ⟨hbundle, hworkflow⟩ := Bool.and_eq_true_iff.mp h
    rw [rehearsedClosed] at hworkflow
    split at hworkflow
    · next report s hreport =>
      refine ⟨f, w', report, s, hcapture, ?_, hreport, hworkflow⟩
      have htaken := of_decide_eq_true hbundle
      cases hf : f.toBundle with
      | ok bundle => rw [hf] at htaken; cases htaken; rfl
      | error e => rw [hf] at htaken; cases htaken
    · cases hworkflow
  · cases h

namespace Pool

/-- Knows one bundle, as a file of one byte. -/
scoped instance (priority := high) bundleCrates : BundleCrates where
  toVecPretty bundle := if bundle = poolBundle then some [1] else none
  bundleVersionFromSlice bytes := if bytes = [1] then some 2 else none
  captureBundleFromSlice bytes := if bytes = [1] then some poolBundle else none
  legacyBundleFromSlice _ := none
  addressFromStr _ := some nativeAsset

end Pool

end Kanatoko.Testnet
