import Kanatoko.Properties.Mirror
import Kanatoko.Testnet.Host

/-!
# Atomicity and the digest chain

An operation that fails changes nothing. One that succeeds reports the digests of the ledger
before and after it, so that along a run without a revert the reported digests form a chain.
-/

namespace Kanatoko

open Fallible Adaptive StrictFork

variable [Crates] [SnapshotCrate]

/-! ## The ledger behind a receipt -/

/-- What an invocation leaves of the ledger is the ledger of its receipt. -/
theorem invoke_ledger [LawfulSnapshotCrate] {host : Host} (hhost : host.KeepsHeader)
    {fork fork' : StrictFork} (hprotocol : InNetworkProtocol fork) {request : InvokeRequest}
    {execution : ExecutionMode} {auth : AuthMode} {receipt : Receipt}
    (h : invoke host request execution auth fork = .ok receipt fork') :
    ∃ after, fork.prepare host request execution auth = .ok (receipt, after) ∧
      Transition fork.ledgerSnapshot after receipt.beforeDigest receipt.afterDigest
        receipt.stateChanges ∧
      after.toLedgerInfo = fork.ledgerSnapshot.toLedgerInfo ∧
      (receipt.disposition = .committed ↔ execution = .apply ∧ receipt.outcome.isSuccess = true) ∧
      (receipt.disposition = .committed → fork'.ledgerSnapshot = after) ∧
      (receipt.disposition ≠ .committed → fork'.ledgerSnapshot = fork.ledgerSnapshot) ∧
      fork'.receipts = fork.receipts ++ [receipt] := by
  obtain ⟨after, hprepare, hcase⟩ := invoke_eq_ok h
  obtain ⟨setup, stored, hprepares⟩ := prepare_eq_ok hprepare
  obtain ⟨hheader, _⟩ := invokeAfter_spec hhost hprotocol hprepares
  have hcommitted : receipt.disposition = .committed ↔
      execution = .apply ∧ receipt.outcome.isSuccess = true := by
    rw [hprepares.disposition, dispositionOf_eq_committed]
  have hcommits := hcommitted.trans commits_eq_true.symm
  refine ⟨after, hprepare, hprepares.transition, hheader, hcommitted, ?_⟩
  rcases hcase with ⟨hc, rfl⟩ | ⟨hc, coverage, _, rfl⟩
  · refine ⟨fun hc' => ?_, fun _ => rfl, rfl⟩
    rw [hcommits, hc] at hc'
    cases hc'
  · exact ⟨fun _ => promoted_ledgerSnapshot receipt coverage hprotocol hheader,
      fun hc' => absurd (hcommits.mpr hc) hc', rfl⟩

omit [SnapshotCrate] in
/-- A diff between two ledgers with one header is empty exactly when they are the same. -/
theorem Transition.stateChanges_eq_nil {before after : LedgerSnapshot}
    {beforeDigest afterDigest : Bytes32} {changes : List StateChange}
    (h : Transition before after beforeDigest afterDigest changes)
    (hheader : after.toLedgerInfo = before.toLedgerInfo) :
    changes = [] ↔ SameLedger before after := by
  rw [h.describes.eq_nil_iff]
  exact ⟨fun hheld => ⟨hheader.symm, hheld⟩, fun hsame => hsame.held_eq⟩

/-! ## The chain -/

/-- The digests an answer reports of a ledger it has moved. -/
def digestLink : StrictAnswer → Option (Bytes32 × Bytes32)
  | .registered (.ok registration) => some (registration.beforeDigest, registration.afterDigest)
  | .invoked (.ok receipt) =>
    if receipt.disposition = .committed then some (receipt.beforeDigest, receipt.afterDigest)
    else none
  | _ => none

theorem strictStep_linked [LawfulSnapshotCrate] {host : Host} (hhost : host.KeepsHeader)
    {op : StrictOp} (hop : ∀ checkpoint, op ≠ .revert checkpoint) {fork : StrictFork}
    {digest : Bytes32} (hprotocol : InNetworkProtocol fork)
    (hdigest : fork.ledgerDigest = .ok digest) :
    ∃ digest', (strictStep host op fork).2.ledgerDigest = .ok digest' ∧
      Machine.Linked digest (digestLink (strictStep host op fork).1).toList digest' := by
  have hcase := strictStep_cases host op fork
  generalize strictStep host op fork = result at hcase
  cases hcase with
  | registered h =>
    obtain ⟨_, _, hinstalls, _, rfl⟩ := registerCandidate_eq_ok h
    obtain rfl := Except.ok.inj (hdigest.symm.trans hinstalls.transition.digestBefore)
    exact ⟨_, hinstalls.transition.digestAfter, rfl, rfl⟩
  | @invoked request execution auth receipt fork' h =>
    obtain ⟨after, _, htransition, _, _, hmoved, hkept, _⟩ := invoke_ledger hhost hprotocol h
    obtain rfl := Except.ok.inj (hdigest.symm.trans htransition.digestBefore)
    by_cases hc : receipt.disposition = .committed
    · refine ⟨receipt.afterDigest, ?_, ?_⟩
      · show canonicalLedgerDigest fork'.ledgerSnapshot = _
        rw [hmoved hc]
        exact htransition.digestAfter
      · rw [digestLink, if_pos hc]
        exact ⟨rfl, rfl⟩
    · refine ⟨receipt.beforeDigest, ?_, ?_⟩
      · show canonicalLedgerDigest fork'.ledgerSnapshot = _
        rw [hkept hc]
        exact hdigest
      · rw [digestLink, if_neg hc]
        rfl
  | registerFailed | invokeFailed | checkpointed | foreign => exact ⟨digest, hdigest, rfl⟩
  | reverted => exact absurd rfl (hop _)

theorem strictStep_inNetworkProtocol [LawfulSnapshotCrate] {host : Host}
    (hhost : host.KeepsHeader) {op : StrictOp} (hop : ∀ checkpoint, op ≠ .revert checkpoint)
    {fork : StrictFork} (hprotocol : InNetworkProtocol fork) :
    InNetworkProtocol (strictStep host op fork).2 := by
  have hversion := (strictStep_fixed host op fork).2
  unfold InNetworkProtocol
  rw [hversion, ← hprotocol]
  rcases strictStep_advances hhost hop hprotocol with heq | hadv
  · exact congrArg (fun s : StrictCheckpoint => s.snapshot.protocolVersion) heq
  · exact congrArg LedgerInfo.protocolVersion hadv.header

/-- **The reported digests of a run without a revert form a chain.** -/
theorem run_linked [LawfulSnapshotCrate] {host : Host} (hhost : host.KeepsHeader)
    {ops : List StrictOp} (hops : ∀ op ∈ ops, ∀ checkpoint, op ≠ .revert checkpoint)
    {fork : StrictFork} {digest : Bytes32} (hprotocol : InNetworkProtocol fork)
    (hdigest : fork.ledgerDigest = .ok digest) :
    ∃ digest', (Machine.run (strictStep host) ops fork).2.ledgerDigest = .ok digest' ∧
      Machine.Linked digest ((Machine.run (strictStep host) ops fork).1.filterMap digestLink)
        digest' :=
  Machine.run_chain (fun fork digest => fork.ledgerDigest = .ok digest)
    (fun _ hop _ => strictStep_inNetworkProtocol hhost (hops _ hop))
    (fun _ hop _ _ => strictStep_linked hhost (hops _ hop)) fork digest hprotocol hdigest

/--
**Operations on a fork are atomic, and their digests form a chain.**

An operation that fails leaves the whole fork as it was. A receipt and a registration report
the digests of the fork before and after them, and a receipt is committed exactly when a
successful call was applied. Without a revert, what is committed and registered is linked end
to end, from the digest of the fixture on.
-/
theorem strict_fork_atomic [LawfulCrates] [LawfulSnapshotCrate] [BundleCrates]
    {policy : ProtocolPolicy} {f : CapturedFixture} (hf : Captured policy f ∨ Loaded policy f)
    {host : Host} (hhost : host.KeepsHeader) {id : UInt64} {fork : StrictFork}
    {taken : List StrictCheckpoint} (h : Reachable host f id fork taken) :
    (∀ request execution auth e fork',
      invoke host request execution auth fork = .error e fork' → fork' = fork) ∧
    (∀ address wasm expected args e fork',
      registerCandidate host address wasm expected args fork = .error e fork' → fork' = fork) ∧
    (∀ request execution auth receipt fork',
      invoke host request execution auth fork = .ok receipt fork' →
      fork.ledgerDigest = .ok receipt.beforeDigest ∧
      fork'.receipts = fork.receipts ++ [receipt] ∧
      (receipt.disposition = .committed ↔
        execution = .apply ∧ receipt.outcome.isSuccess = true) ∧
      (receipt.disposition = .committed → fork'.ledgerDigest = .ok receipt.afterDigest) ∧
      (receipt.disposition ≠ .committed → fork'.ledgerDigest = fork.ledgerDigest) ∧
      ∃ after, fork.prepare host request execution auth = .ok (receipt, after) ∧
        canonicalLedgerDigest after = .ok receipt.afterDigest ∧
        (receipt.stateChanges = [] ↔ SameLedger fork.ledgerSnapshot after)) ∧
    (∀ address wasm expected args registration fork',
      registerCandidate host address wasm expected args fork = .ok registration fork' →
      fork.ledgerDigest = .ok registration.beforeDigest ∧
      fork'.ledgerDigest = .ok registration.afterDigest) ∧
    (fromCaptured id f.fixture.snapshot f.coverage).ledgerDigest = .ok f.fixture.ledgerDigest ∧
    ∀ ops : List StrictOp, (∀ op ∈ ops, ∀ checkpoint, op ≠ .revert checkpoint) →
      ∃ first last, fork.ledgerDigest = .ok first ∧
        (Machine.run (strictStep host) ops fork).2.ledgerDigest = .ok last ∧
        Machine.Linked first ((Machine.run (strictStep host) ops fork).1.filterMap digestLink)
          last := by
  have hsound : Sound policy f := hf.elim Captured.sound Loaded.sound
  obtain ⟨_, _, _, hfixture⟩ := fromSnapshotWithPolicy_eq_ok.mp hsound.frozen
  have hprotocol := h.inNetworkProtocol hhost
  refine ⟨fun _ _ _ _ _ => invoke_eq_error, fun _ _ _ _ _ _ => registerCandidate_eq_error,
    ?_, ?_, ?_, ?_⟩
  · intro request execution auth receipt fork' hinvoke
    obtain ⟨after, hprepare, htransition, hheader, hcommitted, hmoved, hkept, hreceipts⟩ :=
      invoke_ledger hhost hprotocol hinvoke
    refine ⟨htransition.digestBefore, hreceipts, hcommitted, fun hc => ?_, fun hc => ?_,
      after, hprepare, htransition.digestAfter, htransition.stateChanges_eq_nil hheader⟩
    · unfold StrictFork.ledgerDigest
      rw [hmoved hc]
      exact htransition.digestAfter
    · unfold StrictFork.ledgerDigest
      rw [hkept hc]
  · intro address wasm expected args registration fork' hregister
    obtain ⟨_, _, hinstalls, _, rfl⟩ := registerCandidate_eq_ok hregister
    exact ⟨hinstalls.transition.digestBefore, hinstalls.transition.digestAfter⟩
  · have hshown : (fromCaptured id f.fixture.snapshot f.coverage).ledgerSnapshot
        = f.fixture.snapshot := networkLedgerSnapshot_forkEnv f.fixture.snapshot
    unfold StrictFork.ledgerDigest
    rw [hshown]
    exact hfixture
  · intro ops hops
    obtain ⟨first, hfirst⟩ := (h.mirrors hsound hhost).digest
    obtain ⟨last, hlast, hlinked⟩ := run_linked hhost hops hprotocol hfirst
    exact ⟨first, last, hfirst, hlast, hlinked⟩

end Kanatoko

namespace Kanatoko.Testnet

open Fallible Adaptive StrictFork

/-- What fails on a funded fork of the native asset leaves the fork as it was. -/
theorem native_strict_fork_atomic : ∃ f fork taken, Captured .exact f ∧
    Reachable nativeHost f 1 fork taken ∧ taken ≠ [] ∧
    (∀ request execution auth e fork',
      invoke nativeHost request execution auth fork = .error e fork' → fork' = fork) ∧
    ∀ address wasm expected args e fork',
      registerCandidate nativeHost address wasm expected args fork = .error e fork' →
        fork' = fork := by
  obtain ⟨f, w', hcapture, _⟩ := native_captured
  obtain ⟨fork, taken, hreach, htaken⟩ := nativeHost_reachable f
  have hf : Captured .exact f := .capture _ _ _ _ _ rfl hcapture
  have hatomic := strict_fork_atomic (Or.inl hf) nativeHost_keepsHeader hreach
  exact ⟨f, fork, taken, hf, hreach, htaken, hatomic.1, hatomic.2.1⟩

end Kanatoko.Testnet
