import Kanatoko.Properties.ForkRuns
import Kanatoko.Testnet.Host

/-!
# Checkpoints restore

Every operation depends on nothing of a fork but what a checkpoint keeps of it and the network
protocol. So a fork that was put back to a checkpoint answers for ever as the fork did that
the checkpoint was taken of, however its environment has come about.
-/

namespace Kanatoko

open Fallible StrictFork

variable [Crates] [SnapshotCrate]

/-! ## What operations depend on -/

/-- Two forks that show the same. Their environments and receipts may differ. -/
structure SameView (s t : StrictFork) : Prop where
  checkpoint : s.checkpoint = t.checkpoint
  networkProtocolVersion : s.networkProtocolVersion = t.networkProtocolVersion

namespace SameView

variable {s t : StrictFork}

omit [Crates] in
theorem id_eq (h : SameView s t) : s.id = t.id := congrArg StrictCheckpoint.forkId h.checkpoint

omit [Crates] in
theorem ledgerSnapshot (h : SameView s t) : s.ledgerSnapshot = t.ledgerSnapshot :=
  congrArg StrictCheckpoint.snapshot h.checkpoint

omit [Crates] in
theorem coverage (h : SameView s t) : s.coverage = t.coverage :=
  congrArg StrictCheckpoint.coverage h.checkpoint

omit [Crates] in
theorem localContracts (h : SameView s t) : s.localContracts = t.localContracts :=
  congrArg StrictCheckpoint.localContracts h.checkpoint

omit [Crates] in
theorem localCodeHashes (h : SameView s t) : s.localCodeHashes = t.localCodeHashes :=
  congrArg StrictCheckpoint.localCodeHashes h.checkpoint

theorem checkCandidate_eq (h : SameView s t) (address : ScAddress) (wasm : Bytes)
    (expected : Bytes32) :
    s.checkCandidate address wasm expected = t.checkCandidate address wasm expected := by
  unfold checkCandidate
  rw [h.coverage]

theorem registerSource_eq (h : SameView s t) (address : ScAddress) (wasm : Bytes) :
    s.registerSource address wasm = t.registerSource address wasm := by
  unfold registerSource
  rw [h.coverage, h.localContracts, h.localCodeHashes]

theorem invokeChild_eq (h : SameView s t) (host : Host) (childAuth : ChildAuth) (auth : AuthMode)
    (request : InvokeRequest) :
    s.invokeChild host childAuth auth request = t.invokeChild host childAuth auth request := by
  unfold invokeChild invokeSource
  rw [h.ledgerSnapshot, h.coverage, h.localContracts, h.localCodeHashes]

omit [Crates] in
theorem childSnapshot_eq (h : SameView s t) {α : Type} (before : LedgerSnapshot)
    (childEnd : ChildEnd α) (stored : StoredEntries) :
    s.childSnapshot before childEnd stored = t.childSnapshot before childEnd stored := by
  unfold childSnapshot
  rw [h.networkProtocolVersion]

theorem prepare_eq (h : SameView s t) (host : Host) (request : InvokeRequest)
    (execution : ExecutionMode) (auth : AuthMode) :
    s.prepare host request execution auth = t.prepare host request execution auth := by
  unfold prepare invokeAfter
  simp only [h.ledgerSnapshot, h.invokeChild_eq, h.childSnapshot_eq]

omit [Crates] in
theorem withCoverage (h : SameView s t) (coverage : Coverage) :
    SameView { s with coverage := coverage } { t with coverage := coverage } := by
  refine ⟨?_, h.networkProtocolVersion⟩
  show StrictCheckpoint.mk s.id s.ledgerSnapshot coverage s.localContracts s.localCodeHashes
    = .mk t.id t.ledgerSnapshot coverage t.localContracts t.localCodeHashes
  rw [h.id_eq, h.ledgerSnapshot, h.localContracts, h.localCodeHashes]

end SameView

/-! ## Operations agree -/

theorem updateCoverageInPlace_agree {s t : StrictFork} (h : SameView s t)
    (changes : List StateChange) :
    Agree SameView (updateCoverageInPlace changes s) (updateCoverageInPlace changes t) := by
  unfold updateCoverageInPlace
  rw [h.coverage]
  cases updateCoverage changes t.coverage with
  | ok _ coverage => exact .ok (h.withCoverage coverage)
  | error e coverage => exact .error (h.withCoverage coverage)

theorem registerCandidate_agree {s t : StrictFork} (h : SameView s t) (host : Host)
    (address : ScAddress) (wasm : Bytes) (expected : Bytes32) (args : List ScVal) :
    Agree SameView (registerCandidate host address wasm expected args s)
      (registerCandidate host address wasm expected args t) := by
  have hledger := h.ledgerSnapshot
  have hsource := h.registerSource_eq address wasm
  refine Agree.lift_bind h (h.checkCandidate_eq address wasm expected) fun _ _ => ?_
  refine Agree.lift_bind h (by rw [hledger]) fun beforeDigest _ => ?_
  refine Agree.lift_bind h (by rw [hledger]) fun _ _ => ?_
  refine Agree.lift_bind h (by rw [hledger, hsource]) fun stored _ => ?_
  refine Agree.lift_bind h (by rw [hledger, hsource]) fun _ _ => ?_
  refine Agree.lift_bind h rfl fun _ _ => ?_
  refine Agree.lift_bind h (by rw [hledger, hsource, h.childSnapshot_eq]) fun afterDigest _ => ?_
  refine Agree.lift_bind h (by rw [hledger, hsource, h.childSnapshot_eq]) fun changes _ => ?_
  refine Agree.bind (updateCoverageInPlace_agree h changes) fun _ s₁ t₁ h₁ => ?_
  -- both environments are made of the same child
  have henv : ({ strictEnv s.ledgerSnapshot with
      ledgerInfo := (registerChild host s address wasm args).1.ledgerInfo
      storedEntries := stored } : Env) = { strictEnv t.ledgerSnapshot with
      ledgerInfo := (registerChild host t address wasm args).1.ledgerInfo
      storedEntries := stored } := by
    unfold registerChild
    rw [hledger, hsource]
  refine .ok ⟨?_, h₁.networkProtocolVersion⟩
  show StrictCheckpoint.mk s₁.id (networkLedgerSnapshot { strictEnv s.ledgerSnapshot with
      ledgerInfo := (registerChild host s address wasm args).1.ledgerInfo
      storedEntries := stored } s₁.networkProtocolVersion) s₁.coverage
      (insert address s.localContracts) (insert (sha256 wasm) s.localCodeHashes)
    = .mk t₁.id (networkLedgerSnapshot { strictEnv t.ledgerSnapshot with
      ledgerInfo := (registerChild host t address wasm args).1.ledgerInfo
      storedEntries := stored } t₁.networkProtocolVersion) t₁.coverage
      (insert address t.localContracts) (insert (sha256 wasm) t.localCodeHashes)
  rw [henv, h₁.id_eq, h₁.networkProtocolVersion, h₁.coverage, h.localContracts,
    h.localCodeHashes]

theorem promoteIf_agree {s t : StrictFork} (h : SameView s t) (commit : Bool)
    (changes : List StateChange) (after : LedgerSnapshot) :
    Agree SameView (promoteIf commit changes after s) (promoteIf commit changes after t) := by
  unfold promoteIf
  split
  · refine Agree.lift_bind h (by rw [h.coverage]) fun coverage _ => ?_
    refine .ok ⟨?_, h.networkProtocolVersion⟩
    show StrictCheckpoint.mk s.id (networkLedgerSnapshot (strictEnv after) s.networkProtocolVersion)
      coverage s.localContracts s.localCodeHashes
      = .mk t.id (networkLedgerSnapshot (strictEnv after) t.networkProtocolVersion)
        coverage t.localContracts t.localCodeHashes
    rw [h.id_eq, h.networkProtocolVersion, h.localContracts, h.localCodeHashes]
  · exact .ok h

theorem invoke_agree {s t : StrictFork} (h : SameView s t) (host : Host) (request : InvokeRequest)
    (execution : ExecutionMode) (auth : AuthMode) :
    Agree SameView (invoke host request execution auth s)
      (invoke host request execution auth t) := by
  refine Agree.lift_bind h (h.prepare_eq host request execution auth) fun prepared _ => ?_
  obtain ⟨receipt, after⟩ := prepared
  refine Agree.bind (promoteIf_agree h _ _ after) fun _ s₁ t₁ h₁ => ?_
  exact .ok ⟨h₁.checkpoint, h₁.networkProtocolVersion⟩

omit [Crates] [SnapshotCrate] in
theorem resultOf_agree {R : StrictFork → StrictFork → Prop} {α : Type} {x y : StrictM α}
    {s t : StrictFork} (h : Agree R (x s) (y t)) :
    (resultOf x s).1 = (resultOf y t).1 ∧ R (resultOf x s).2 (resultOf y t).2 := by
  unfold resultOf
  generalize x s = r₁ at h
  generalize y t = r₂ at h
  cases h with
  | ok hr => exact ⟨rfl, hr⟩
  | error hr => exact ⟨rfl, hr⟩

omit [Crates] in
theorem reverted_sameView {s t : StrictFork} (h : SameView s t) (checkpoint : StrictCheckpoint) :
    SameView (reverted s checkpoint) (reverted t checkpoint) := by
  refine ⟨?_, h.networkProtocolVersion⟩
  show StrictCheckpoint.mk s.id
      (networkLedgerSnapshot (strictEnv checkpoint.snapshot) s.networkProtocolVersion)
      checkpoint.coverage checkpoint.localContracts checkpoint.localCodeHashes
    = .mk t.id (networkLedgerSnapshot (strictEnv checkpoint.snapshot) t.networkProtocolVersion)
      checkpoint.coverage checkpoint.localContracts checkpoint.localCodeHashes
  rw [h.id_eq, h.networkProtocolVersion]

omit [Crates] in
theorem revert_agree {s t : StrictFork} (h : SameView s t) (checkpoint : StrictCheckpoint) :
    Agree SameView (revert checkpoint s) (revert checkpoint t) := by
  by_cases hid : checkpoint.forkId = s.id
  · rw [revert_own hid, revert_own (hid.trans h.id_eq)]
    exact .ok (reverted_sameView h checkpoint)
  · rw [revert_foreign hid, revert_foreign fun hc => hid (hc.trans h.id_eq.symm)]
    exact .error h

/-- **Forks that show the same answer an operation alike, and show the same after it.** -/
theorem strictStep_agree (host : Host) (op : StrictOp) (s t : StrictFork) (h : SameView s t) :
    (strictStep host op s).1 = (strictStep host op t).1 ∧
      SameView (strictStep host op s).2 (strictStep host op t).2 := by
  cases op with
  | registerCandidate address wasm expected args =>
    obtain ⟨hresult, hview⟩ :=
      resultOf_agree (registerCandidate_agree h host address wasm expected args)
    exact ⟨congrArg StrictAnswer.registered hresult, hview⟩
  | invoke request execution auth =>
    obtain ⟨hresult, hview⟩ := resultOf_agree (invoke_agree h host request execution auth)
    exact ⟨congrArg StrictAnswer.invoked hresult, hview⟩
  | checkpoint => exact ⟨congrArg StrictAnswer.checkpointed h.checkpoint, h⟩
  | revert checkpoint =>
    obtain ⟨hresult, hview⟩ := resultOf_agree (revert_agree h checkpoint)
    exact ⟨congrArg StrictAnswer.reverted hresult, hview⟩

/-! ## Whole runs -/

/-- No run changes the id of a fork or its network protocol. -/
theorem run_fixed (host : Host) (ops : List StrictOp) (fork : StrictFork) :
    (Machine.run (strictStep host) ops fork).2.id = fork.id ∧
      (Machine.run (strictStep host) ops fork).2.networkProtocolVersion
        = fork.networkProtocolVersion := by
  have hstep : ∀ op ∈ ops, ∀ s : StrictFork,
      s.id = fork.id ∧ s.networkProtocolVersion = fork.networkProtocolVersion →
      (strictStep host op s).2.id = fork.id ∧
        (strictStep host op s).2.networkProtocolVersion = fork.networkProtocolVersion := by
    rintro op _ s ⟨hid, hversion⟩
    obtain ⟨hid', hversion'⟩ := strictStep_fixed host op s
    exact ⟨hid'.trans hid, hversion'.trans hversion⟩
  exact Machine.run_invariant hstep fork ⟨rfl, rfl⟩

theorem Reachable.forkId {host : Host} {f : CapturedFixture} {id : UInt64} {fork : StrictFork}
    {taken : List StrictCheckpoint} (h : Reachable host f id fork taken) :
    fork.id = id ∧ ∀ s ∈ taken, s.forkId = id := by
  induction h with
  | fork => exact ⟨rfl, fun _ hs => by simp at hs⟩
  | registerCandidate address wasm expected args _ ih =>
    exact ⟨(strictStep_fixed host _ _).1.trans ih.1, ih.2⟩
  | invoke request execution auth _ ih => exact ⟨(strictStep_fixed host _ _).1.trans ih.1, ih.2⟩
  | checkpoint _ ih => exact ⟨ih.1, List.forall_mem_cons.mpr ih⟩
  | revert checkpoint _ _ ih => exact ⟨(strictStep_fixed host _ _).1.trans ih.1, ih.2⟩

omit [Crates] [SnapshotCrate] in
/-- A counter that does not wrap grows. -/
theorem toNat_lt_succ {counter : UInt64} (h : counter + 1 ≠ 0) :
    counter.toNat < (counter + 1).toNat := by
  have hne : (counter + 1).toNat ≠ 0 := fun hc => h (UInt64.toNat_inj.mp hc)
  rw [UInt64.toNat_add] at hne ⊢
  have hlt := counter.toNat_lt
  simp only [UInt64.toNat_one] at hne ⊢
  omega

omit [Crates] [SnapshotCrate] in
/-- No id is given out that is below the counter, and none once the counter has wrapped. -/
theorem le_of_mem_strictForkIds : ∀ {count : Nat} {counter forkId : UInt64},
    forkId ∈ strictForkIds count counter → counter ≠ 0 ∧ counter.toNat ≤ forkId.toNat
  | 0, _, _, h => by simp [strictForkIds] at h
  | count + 1, counter, forkId, h => by
    unfold strictForkIds nextStrictForkId at h
    by_cases hzero : counter = 0
    · rw [if_pos hzero] at h
      simp at h
    · rw [if_neg hzero] at h
      refine ⟨hzero, ?_⟩
      rcases List.mem_cons.mp h with rfl | h
      · exact Nat.le_refl _
      · obtain ⟨hnext, hle⟩ := le_of_mem_strictForkIds h
        exact (Nat.le_of_lt (toNat_lt_succ hnext)).trans hle

omit [Crates] [SnapshotCrate] in
/-- **No two forks have the same id.** -/
theorem strictForkIds_nodup : ∀ (count : Nat) (counter : UInt64),
    (strictForkIds count counter).Nodup
  | 0, _ => List.nodup_nil
  | count + 1, counter => by
    unfold strictForkIds nextStrictForkId
    by_cases hzero : counter = 0
    · rw [if_pos hzero]
      exact List.nodup_nil
    · rw [if_neg hzero]
      refine List.nodup_cons.mpr ⟨fun hmem => ?_, strictForkIds_nodup count _⟩
      obtain ⟨hnext, hle⟩ := le_of_mem_strictForkIds hmem
      exact absurd hle (Nat.not_le.mpr (toNat_lt_succ hnext))

/--
**A checkpoint restores everything but the receipts.**

Whatever is done after a checkpoint was taken, reverting to it succeeds, and the fork then
shows what it showed at the checkpoint and answers every further sequence of operations as it
would have answered it there. A checkpoint of another fork is refused and changes nothing.
-/
theorem checkpoint_restores [LawfulSnapshotCrate] {f : CapturedFixture} {host : Host}
    (hhost : host.KeepsHeader) {id : UInt64} {fork : StrictFork} {taken : List StrictCheckpoint}
    (h : Reachable host f id fork taken) :
    (∀ ops : List StrictOp, ∃ restored,
      revert fork.checkpoint (Machine.run (strictStep host) ops fork).2 = .ok () restored ∧
      restored.ledgerDigest = fork.ledgerDigest ∧
      restored.ledgerSnapshot = fork.ledgerSnapshot ∧
      restored.networkProtocolVersion = fork.networkProtocolVersion ∧
      restored.coverage = fork.coverage ∧
      restored.localContracts = fork.localContracts ∧
      restored.localCodeHashes = fork.localCodeHashes ∧
      restored.receipts = [] ∧
      ∀ later : List StrictOp, (Machine.run (strictStep host) later restored).1
        = (Machine.run (strictStep host) later fork).1) ∧
    (∀ checkpoint : StrictCheckpoint, checkpoint.forkId ≠ fork.id →
      revert checkpoint fork = .error .checkpointMismatch fork) ∧
    (∀ {f' : CapturedFixture} {host' : Host} {id' : UInt64} {fork' : StrictFork}
      {taken' : List StrictCheckpoint}, Reachable host' f' id' fork' taken' → id' ≠ id →
      ∀ checkpoint ∈ fork'.checkpoint :: taken',
        revert checkpoint fork = .error .checkpointMismatch fork) ∧
    ∀ count : Nat, (strictForkIds count 1).Nodup := by
  refine ⟨fun ops => ?_, fun checkpoint => revert_foreign, ?_, fun count => strictForkIds_nodup _ _⟩
  · obtain ⟨hid, hversion⟩ := run_fixed host ops fork
    generalize (Machine.run (strictStep host) ops fork).2 = now at hid hversion
    have hview : SameView (reverted now fork.checkpoint) fork :=
      ⟨reverted_checkpoint hid.symm ((h.inNetworkProtocol hhost).trans hversion.symm), hversion⟩
    refine ⟨reverted now fork.checkpoint, revert_own hid.symm, ?_, hview.ledgerSnapshot,
      hversion, rfl, rfl, rfl, rfl, fun later => ?_⟩
    · exact congrArg canonicalLedgerDigest hview.ledgerSnapshot
    · exact (Machine.run_bisim (strictStep_agree host) later _ _ hview).1
  · intro f' host' id' fork' taken' h' hne checkpoint hmem
    obtain ⟨hforkId, htaken⟩ := h'.forkId
    have hall : ∀ s ∈ fork'.checkpoint :: taken', s.forkId = id' :=
      List.forall_mem_cons.mpr ⟨hforkId, htaken⟩
    refine revert_foreign ?_
    rw [hall checkpoint hmem, h.forkId.1]
    exact hne

end Kanatoko

namespace Kanatoko.Testnet

open Fallible StrictFork

/-- A funded fork of the native asset refuses the checkpoints of other forks. -/
theorem native_checkpoint_restores : ∃ f fork taken, Reachable nativeHost f 1 fork taken ∧
    taken ≠ [] ∧ (∀ ops : List StrictOp, ∃ restored,
      revert fork.checkpoint (Machine.run (strictStep nativeHost) ops fork).2 = .ok () restored ∧
        restored.ledgerSnapshot = fork.ledgerSnapshot) ∧
    ∀ checkpoint : StrictCheckpoint, checkpoint.forkId ≠ fork.id →
      revert checkpoint fork = .error .checkpointMismatch fork := by
  obtain ⟨f, _, _, _⟩ := native_captured
  obtain ⟨fork, taken, hreach, htaken⟩ := nativeHost_reachable f
  obtain ⟨hrestores, hforeign, _⟩ := checkpoint_restores nativeHost_keepsHeader hreach
  refine ⟨f, fork, taken, hreach, htaken, fun ops => ?_, hforeign⟩
  obtain ⟨restored, hrevert, _, hsnapshot, _⟩ := hrestores ops
  exact ⟨restored, hrevert, hsnapshot⟩

end Kanatoko.Testnet
