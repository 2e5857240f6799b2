import Kanatoko.Properties.Operations

/-!
# Runs of a strict fork

What a fork shows of itself is what a checkpoint keeps of it. A run moves that along
transitions, or puts back a checkpoint that was taken on the way, and nothing else. So what
every transition preserves holds of each reachable fork and of each checkpoint taken of it.
-/

namespace Kanatoko

open Fallible Adaptive Knowledge StrictFork

variable [Crates]

/-! ## The source of a child -/

/-- A run of a child changes nothing in its source but the unknown keys. -/
theorem strictSource_run {α : Type} (c : ChildClient α) (source : StrictSource) :
    ∃ unknown, (c.run StrictSource.get source).2 = { source with unknown := unknown } := by
  have hstep : ∀ key (s : StrictSource), (∃ unknown, s = { source with unknown := unknown }) →
      ∃ unknown, (StrictSource.get key s).2 = { source with unknown := unknown } := by
    rintro key _ ⟨unknown, rfl⟩
    unfold StrictSource.get
    split
    · exact ⟨unknown, rfl⟩
    · split
      · exact ⟨unknown, rfl⟩
      · split
        · exact ⟨unknown, rfl⟩
        · exact ⟨_, rfl⟩
  exact Client.run_invariant hstep c source ⟨source.unknown, rfl⟩

/-- What a source knows does not depend on what its child has asked. -/
theorem strictSource_run_knows {α : Type} (c : ChildClient α) (source : StrictSource)
    (key : LedgerKey) (id : KeyId) :
    (c.run StrictSource.get source).2.knows key id ↔ source.knows key id := by
  obtain ⟨unknown, h⟩ := strictSource_run c source
  rw [h]
  rfl

/-! ## Stripping -/

omit [Crates] in
/-- A mock nonce is the only key that allowing mock nonces makes local. -/
theorem isLocalKey_of_not_nonce {key : LedgerKey} {contracts : Finset ScAddress}
    {codeHashes : Finset Bytes32} {allow : Bool} (hnonce : allow = true → isNonceKey key = false)
    (h : isLocalKey key contracts codeHashes allow = true) :
    isLocalKey key contracts codeHashes false = true := by
  cases key with
  | contractData data =>
    cases allow with
    | false => exact h
    | true =>
      have hdata : isNonceData data = false := hnonce rfl
      rw [isLocalKey, hdata] at h
      exact h
  | contractCode hash => exact h
  | _ => exact h

theorem keepOldNonces_spec {nonces : List KeyId} : ∀ {entries kept : List SnapshotEntry},
    keepOldNonces nonces entries = .ok kept → ∀ x ∈ kept, x ∈ entries ∧
      (isNonceKey x.1 = true → ∃ id ∈ nonces, ledgerKeyToXdr x.1 = some id)
  | [], kept, h => by
    rw [keepOldNonces, pure_eq_ok] at h
    subst h
    simp
  | x :: rest, kept, h => by
    rw [keepOldNonces] at h
    split at h
    · next hnonce =>
      obtain ⟨id, hid, h₁⟩ := bind_eq_ok.mp h
      obtain ⟨keptRest, hrest, h₂⟩ := bind_eq_ok.mp h₁
      cases pure_eq_ok.mp h₂
      intro y hy
      by_cases hold : id ∈ nonces
      · rw [if_pos hold] at hy
        rcases List.mem_cons.mp hy with rfl | hy
        · exact ⟨List.mem_cons_self, fun _ => ⟨id, hold, orError_eq_ok.mp hid⟩⟩
        · obtain ⟨hmem, hn⟩ := keepOldNonces_spec hrest y hy
          exact ⟨List.mem_cons_of_mem _ hmem, hn⟩
      · rw [if_neg hold] at hy
        obtain ⟨hmem, hn⟩ := keepOldNonces_spec hrest y hy
        exact ⟨List.mem_cons_of_mem _ hmem, hn⟩
    · next hnonce =>
      obtain ⟨keptRest, hrest, h₁⟩ := bind_eq_ok.mp h
      cases pure_eq_ok.mp h₁
      intro y hy
      rcases List.mem_cons.mp hy with rfl | hy
      · exact ⟨List.mem_cons_self, fun hn => absurd hn hnonce⟩
      · obtain ⟨hmem, hn⟩ := keepOldNonces_spec hrest y hy
        exact ⟨List.mem_cons_of_mem _ hmem, hn⟩

/-- Stripping keeps the header, and a nonce only when the ledger had it before. -/
theorem stripNewMockNonces_spec {before after stripped : LedgerSnapshot}
    (hbefore : Canonical before.ledgerEntries)
    (h : stripNewMockNonces before after = .ok stripped) :
    stripped.toLedgerInfo = after.toLedgerInfo ∧ ∀ x ∈ stripped.ledgerEntries,
      x ∈ after.ledgerEntries ∧ (isNonceKey x.1 = true →
        ∃ id, ledgerKeyToXdr x.1 = some id ∧ held before.ledgerEntries id ≠ none) := by
  obtain ⟨nonces, hnonces, h₁⟩ := bind_eq_ok.mp h
  obtain ⟨entries, hkeep, h₂⟩ := bind_eq_ok.mp h₁
  cases pure_eq_ok.mp h₂
  refine ⟨rfl, fun x hx => ?_⟩
  obtain ⟨hmem, hn⟩ := keepOldNonces_spec hkeep x hx
  refine ⟨hmem, fun hnonce => ?_⟩
  obtain ⟨id, hid, hxdr⟩ := hn hnonce
  obtain ⟨y, hy, hyid⟩ := exists_of_mem_mapM hnonces hid
  refine ⟨id, hxdr, ?_⟩
  have hheld : held before.ledgerEntries id = some y.2 :=
    hbefore.keyed.held_eq_some_iff.mpr ⟨y.1, orError_eq_ok.mp hyid, (List.mem_filter.mp hy).1⟩
  rw [hheld]
  exact Option.some_ne_none _

/-! ## One step -/

variable [SnapshotCrate]

/-- The ledger a fork shows is in the protocol of its network. -/
def InNetworkProtocol (fork : StrictFork) : Prop :=
  fork.ledgerSnapshot.protocolVersion = fork.networkProtocolVersion

omit [Crates] in
theorem childSnapshot_header {α : Type} {fork : StrictFork} (hprotocol : InNetworkProtocol fork)
    {childEnd : ChildEnd α} {stored : StoredEntries}
    (hinfo : childEnd.ledgerInfo = (strictEnv fork.ledgerSnapshot).ledgerInfo) :
    (fork.childSnapshot fork.ledgerSnapshot childEnd stored).toLedgerInfo
      = fork.ledgerSnapshot.toLedgerInfo := by
  unfold InNetworkProtocol at hprotocol
  show ({ childEnd.ledgerInfo with
    protocolVersion := (restoreNetworkProtocol childEnd.ledgerInfo.protocolVersion
      fork.networkProtocolVersion) } : LedgerInfo) = _
  rw [hinfo]
  show ({ fork.ledgerSnapshot.toLedgerInfo with
    protocolVersion := (restoreNetworkProtocol
      (executedProtocolVersion fork.ledgerSnapshot.protocolVersion)
      fork.networkProtocolVersion) } : LedgerInfo) = _
  rw [hprotocol, restoreNetworkProtocol_executed, ← hprotocol]

theorem registerChild_ledgerInfo {host : Host} (hhost : host.KeepsHeader) (fork : StrictFork)
    (address : ScAddress) (wasm : Bytes) (args : List ScVal) :
    (fork.registerChild host address wasm args).1.ledgerInfo
      = (strictEnv fork.ledgerSnapshot).ledgerInfo :=
  Client.run_allResults StrictSource.get _ _ (hhost.register _ address wasm args)

theorem invokeChild_ledgerInfo {host : Host} (hhost : host.KeepsHeader) (fork : StrictFork)
    (childAuth : ChildAuth) (auth : AuthMode) (request : InvokeRequest) :
    (fork.invokeChild host childAuth auth request).1.ledgerInfo
      = (strictEnv fork.ledgerSnapshot).ledgerInfo :=
  Client.run_allResults StrictSource.get _ _ (hhost.invoke _ childAuth request)

/-- An entry of a child is one of the ledger before, or its key passed the gate. -/
theorem mem_childSnapshot [LawfulSnapshotCrate] {α : Type} {fork : StrictFork}
    (hcanonical : Canonical fork.ledgerSnapshot.ledgerEntries) {childEnd : ChildEnd α}
    {stored : StoredEntries} {x : SnapshotEntry}
    (h : x ∈ (fork.childSnapshot fork.ledgerSnapshot childEnd stored).ledgerEntries) :
    x ∈ fork.ledgerSnapshot.ledgerEntries ∨ x.1 ∈ stored.keys := by
  obtain ⟨key, value⟩ := x
  rcases (LawfulSnapshotCrate.mem_updateEntries hcanonical.nodup_keys stored key value).mp h with
    hs | ⟨hb, _⟩
  · exact Or.inr (List.mem_map.mpr ⟨_, hs, rfl⟩)
  · exact Or.inl hb

/-- A registration or a promotion moves what a fork shows along a transition. -/
structure Advances (s s' : StrictCheckpoint) : Prop where
  forkId : s'.forkId = s.forkId
  header : s'.snapshot.toLedgerInfo = s.snapshot.toLedgerInfo
  canonical : Canonical s.snapshot.ledgerEntries
  digest : ∃ digest, canonicalLedgerDigest s'.snapshot = .ok digest
  coverage : known s'.coverage = patch (known s.coverage) (held s.snapshot.ledgerEntries)
    (held s'.snapshot.ledgerEntries)
  contracts : s.localContracts ⊆ s'.localContracts
  codeHashes : s.localCodeHashes ⊆ s'.localCodeHashes
  /-- A key that got a value it did not have was covered, or is owned by a candidate. -/
  added : ∀ x ∈ s'.snapshot.ledgerEntries, ∀ id, ledgerKeyToXdr x.1 = some id →
    held s.snapshot.ledgerEntries id = none →
      id ∈ s.coverage ∨ isLocalKey x.1 s'.localContracts s'.localCodeHashes false = true

theorem registerCandidate_advances [LawfulSnapshotCrate] {host : Host} (hhost : host.KeepsHeader)
    {fork fork' : StrictFork} (hprotocol : InNetworkProtocol fork) {address : ScAddress}
    {wasm : Bytes} {expected : Bytes32} {args : List ScVal} {registration : CandidateRegistration}
    (h : registerCandidate host address wasm expected args fork = .ok registration fork') :
    Advances fork.checkpoint fork'.checkpoint := by
  obtain ⟨stored, coverage, hinstalls, hupdate, rfl⟩ := registerCandidate_eq_ok h
  have hcanonical := canonical_of_digest hinstalls.transition.digestBefore
  obtain ⟨coverage', hupdate', hknown⟩ :=
    hinstalls.transition.describes.updateCoverage_spec fork.coverage
  cases hupdate.symm.trans hupdate'
  refine ⟨rfl, childSnapshot_header hprotocol (registerChild_ledgerInfo hhost fork _ _ _), hcanonical,
    ⟨_, hinstalls.transition.digestAfter⟩, hknown, Finset.subset_insert _ _,
    Finset.subset_insert _ _, fun x hx id hid hnone => ?_⟩
  rcases mem_childSnapshot hcanonical hx with hold | hstored
  · have hsome := hcanonical.keyed.held_eq_some_iff.mpr ⟨x.1, hid, hold⟩
    cases hsome.symm.trans hnone
  · obtain ⟨_, _, hgate⟩ := gateUnknown_eq_ok hinstalls.gate
    obtain ⟨id', hid', hknows⟩ := hgate x.1 hstored
    cases Option.some.inj (hid.symm.trans hid')
    exact (strictSource_run_knows _ _ _ _).mp hknows

theorem invokeAfter_spec [LawfulSnapshotCrate] {host : Host} (hhost : host.KeepsHeader)
    {fork : StrictFork} (hprotocol : InNetworkProtocol fork) {request : InvokeRequest}
    {execution : ExecutionMode} {auth : AuthMode} {receipt : Receipt} {after : LedgerSnapshot}
    {setup : AuthSetup} {stored : StoredEntries}
    (h : Prepares host fork request execution auth receipt after setup stored) :
    after.toLedgerInfo = fork.ledgerSnapshot.toLedgerInfo ∧
      ∀ x ∈ after.ledgerEntries, ∀ id, ledgerKeyToXdr x.1 = some id →
        held fork.ledgerSnapshot.ledgerEntries id = none → id ∈ fork.coverage ∨
          isLocalKey x.1 fork.localContracts fork.localCodeHashes false = true := by
  have hcanonical := canonical_of_digest h.transition.digestBefore
  have hheader : (fork.childSnapshot fork.ledgerSnapshot
      (fork.invokeChild host setup.child auth request).1 stored).toLedgerInfo
      = fork.ledgerSnapshot.toLedgerInfo :=
    childSnapshot_header hprotocol (invokeChild_ledgerInfo hhost fork _ _ _)
  obtain ⟨_, _, hgate⟩ := gateUnknown_eq_ok h.gate
  -- what the gate lets through is covered, local, or a nonce that is not stripped
  have hadded : ∀ x ∈ (fork.childSnapshot fork.ledgerSnapshot
      (fork.invokeChild host setup.child auth request).1 stored).ledgerEntries,
      (allowMockNonces auth = true → isNonceKey x.1 = false) → ∀ id,
      ledgerKeyToXdr x.1 = some id → held fork.ledgerSnapshot.ledgerEntries id = none →
      id ∈ fork.coverage ∨
        isLocalKey x.1 fork.localContracts fork.localCodeHashes false = true := by
    intro x hx hnonce id hid hnone
    rcases mem_childSnapshot hcanonical hx with hold | hstored
    · rw [hcanonical.keyed.held_eq_some_iff.mpr ⟨x.1, hid, hold⟩] at hnone
      cases hnone
    · obtain ⟨id', hid', hknows⟩ := hgate x.1 hstored
      cases Option.some.inj (hid.symm.trans hid')
      exact ((strictSource_run_knows _ _ _ _).mp hknows).imp_right
        (isLocalKey_of_not_nonce hnonce)
  have hledger := h.ledger
  unfold invokeAfter at hledger
  dsimp only at hledger
  split at hledger
  · obtain ⟨hinfo', hkept⟩ := stripNewMockNonces_spec hcanonical hledger
    refine ⟨hinfo'.trans hheader, fun x hx id hid hnone => ?_⟩
    obtain ⟨hx', hold⟩ := hkept x hx
    refine hadded x hx' (fun _ => ?_) id hid hnone
    rw [Bool.eq_false_iff]
    intro hnonce
    obtain ⟨id', hid', hheld⟩ := hold hnonce
    cases Option.some.inj (hid.symm.trans hid')
    exact hheld hnone
  · next hallow =>
    cases pure_eq_ok.mp hledger
    exact ⟨hheader, fun x hx => hadded x hx fun hc => absurd hc hallow⟩

omit [Crates] in
/-- The promoted environment shows exactly the ledger that was prepared. -/
theorem promoted_ledgerSnapshot [LawfulSnapshotCrate] {fork : StrictFork} (receipt : Receipt)
    {after : LedgerSnapshot} (coverage : Coverage) (hprotocol : InNetworkProtocol fork)
    (hheader : after.toLedgerInfo = fork.ledgerSnapshot.toLedgerInfo) :
    (promoted fork receipt after coverage).ledgerSnapshot = after := by
  have hversion : after.protocolVersion = fork.networkProtocolVersion :=
    (congrArg LedgerInfo.protocolVersion hheader).trans hprotocol
  show networkLedgerSnapshot (strictEnv after) fork.networkProtocolVersion = after
  rw [← hversion]
  exact networkLedgerSnapshot_forkEnv after

theorem invoke_advances [LawfulSnapshotCrate] {host : Host} (hhost : host.KeepsHeader)
    {fork fork' : StrictFork} (hprotocol : InNetworkProtocol fork) {request : InvokeRequest}
    {execution : ExecutionMode} {auth : AuthMode} {receipt : Receipt}
    (h : invoke host request execution auth fork = .ok receipt fork') :
    fork'.checkpoint = fork.checkpoint ∨ Advances fork.checkpoint fork'.checkpoint := by
  obtain ⟨after, hprepare, ⟨_, rfl⟩ | ⟨_, coverage, hupdate, rfl⟩⟩ := invoke_eq_ok h
  · exact Or.inl rfl
  · obtain ⟨setup, stored, hprepares⟩ := prepare_eq_ok hprepare
    obtain ⟨hheader, hadded⟩ := invokeAfter_spec hhost hprotocol hprepares
    obtain ⟨coverage', hupdate', hknown⟩ :=
      hprepares.transition.describes.updateCoverage_spec fork.coverage
    cases hupdate.symm.trans hupdate'
    have hshown := promoted_ledgerSnapshot receipt coverage hprotocol hheader
    have hcheckpoint : (promoted fork receipt after coverage).checkpoint
        = { fork.checkpoint with snapshot := after, coverage := coverage } := by
      unfold StrictFork.checkpoint
      rw [hshown]
      rfl
    rw [hcheckpoint]
    exact Or.inr ⟨rfl, hheader, canonical_of_digest hprepares.transition.digestBefore,
      ⟨_, hprepares.transition.digestAfter⟩, hknown, Finset.Subset.refl _,
      Finset.Subset.refl _, hadded⟩

/-! ## Whole runs -/

/-- What no operation changes. -/
theorem strictStep_fixed (host : Host) (op : StrictOp) (fork : StrictFork) :
    (strictStep host op fork).2.id = fork.id ∧
      (strictStep host op fork).2.networkProtocolVersion = fork.networkProtocolVersion := by
  have hcase := strictStep_cases host op fork
  generalize strictStep host op fork = result at hcase
  cases hcase with
  | registered h =>
    obtain ⟨_, _, _, _, rfl⟩ := registerCandidate_eq_ok h
    exact ⟨rfl, rfl⟩
  | invoked h =>
    obtain ⟨_, _, ⟨_, rfl⟩ | ⟨_, _, _, rfl⟩⟩ := invoke_eq_ok h
    · exact ⟨rfl, rfl⟩
    · exact ⟨rfl, rfl⟩
  | registerFailed | invokeFailed | checkpointed | reverted | foreign => exact ⟨rfl, rfl⟩

/-- **A registration or an invocation leaves what a fork shows, or advances it.** -/
theorem strictStep_advances [LawfulSnapshotCrate] {host : Host} (hhost : host.KeepsHeader)
    {op : StrictOp} (hop : ∀ checkpoint, op ≠ .revert checkpoint) {fork : StrictFork}
    (hprotocol : InNetworkProtocol fork) :
    (strictStep host op fork).2.checkpoint = fork.checkpoint ∨
      Advances fork.checkpoint (strictStep host op fork).2.checkpoint := by
  have hcase := strictStep_cases host op fork
  generalize strictStep host op fork = result at hcase
  cases hcase with
  | registered h => exact Or.inr (registerCandidate_advances hhost hprotocol h)
  | invoked h => exact invoke_advances hhost hprotocol h
  | registerFailed | invokeFailed | checkpointed | foreign => exact Or.inl rfl
  | reverted => exact absurd rfl (hop _)

/-- What a fork shows was taken under this id, in the protocol of the network. -/
structure Own (f : CapturedFixture) (id : UInt64) (s : StrictCheckpoint) : Prop where
  forkId : s.forkId = id
  protocol : s.snapshot.protocolVersion = f.fixture.snapshot.protocolVersion

omit [Crates] in
/-- Reverting to a checkpoint of the fork itself shows the checkpoint again. -/
theorem reverted_checkpoint [LawfulSnapshotCrate] {fork : StrictFork} {s : StrictCheckpoint}
    (hid : s.forkId = fork.id)
    (hprotocol : s.snapshot.protocolVersion = fork.networkProtocolVersion) :
    (reverted fork s).checkpoint = s := by
  have hsnapshot : networkLedgerSnapshot (strictEnv s.snapshot) fork.networkProtocolVersion
      = s.snapshot := by
    rw [← hprotocol]
    exact networkLedgerSnapshot_forkEnv s.snapshot
  show StrictCheckpoint.mk fork.id
    (networkLedgerSnapshot (strictEnv s.snapshot) fork.networkProtocolVersion) s.coverage
    s.localContracts s.localCodeHashes = s
  rw [hsnapshot, ← hid]

/--
**The induction over runs.**

What holds of the captured ledger and is preserved along every transition holds of what each
reachable fork shows, and of every checkpoint taken of it.
-/
theorem Reachable.induct [LawfulSnapshotCrate] {host : Host} (hhost : host.KeepsHeader)
    {f : CapturedFixture} {id : UInt64} {P : StrictCheckpoint → Prop}
    (hfork : P (fromCaptured id f.fixture.snapshot f.coverage).checkpoint)
    (hadvance : ∀ s s', P s → Advances s s' → P s') {fork : StrictFork}
    {taken : List StrictCheckpoint} (h : Reachable host f id fork taken) :
    fork.networkProtocolVersion = f.fixture.snapshot.protocolVersion ∧
      (Own f id fork.checkpoint ∧ P fork.checkpoint) ∧ ∀ s ∈ taken, Own f id s ∧ P s := by
  have hstep : ∀ {fork : StrictFork} {taken : List StrictCheckpoint} (op : StrictOp),
      (∀ s, op ≠ .revert s) →
      (fork.networkProtocolVersion = f.fixture.snapshot.protocolVersion ∧
        (Own f id fork.checkpoint ∧ P fork.checkpoint) ∧ ∀ s ∈ taken, Own f id s ∧ P s) →
      (strictStep host op fork).2.networkProtocolVersion = f.fixture.snapshot.protocolVersion ∧
        (Own f id (strictStep host op fork).2.checkpoint ∧
          P (strictStep host op fork).2.checkpoint) ∧ ∀ s ∈ taken, Own f id s ∧ P s := by
    rintro fork taken op hop ⟨hversion, ⟨hown, hp⟩, htaken⟩
    refine ⟨(strictStep_fixed host op fork).2.trans hversion, ?_, htaken⟩
    rcases strictStep_advances hhost hop (hown.protocol.trans hversion.symm) with heq | hadv
    · rw [heq]; exact ⟨hown, hp⟩
    · exact ⟨⟨hadv.forkId.trans hown.forkId,
        (congrArg LedgerInfo.protocolVersion hadv.header).trans hown.protocol⟩,
        hadvance _ _ hp hadv⟩
  induction h with
  | fork =>
    refine ⟨rfl, ⟨⟨rfl, ?_⟩, hfork⟩, fun _ hs => by simp at hs⟩
    exact congrArg (fun s : LedgerSnapshot => s.protocolVersion)
      (networkLedgerSnapshot_forkEnv f.fixture.snapshot)
  | registerCandidate address wasm expected args _ ih => exact hstep _ (by simp) ih
  | invoke request execution auth _ ih => exact hstep _ (by simp) ih
  | checkpoint _ ih =>
    obtain ⟨hversion, hp, htaken⟩ := ih
    exact ⟨hversion, hp, List.forall_mem_cons.mpr ⟨hp, htaken⟩⟩
  | @revert fork taken s hs _ ih =>
    obtain ⟨hversion, ⟨hown, hp⟩, htaken⟩ := ih
    refine ⟨(strictStep_fixed host _ fork).2.trans hversion, ?_, htaken⟩
    have hcase := strictStep_cases host (.revert s) fork
    generalize strictStep host (.revert s) fork = result at hcase
    cases hcase with
    | reverted heq =>
      have hmem : s ∈ taken := hs.resolve_right fun hne => hne heq
      rw [reverted_checkpoint heq ((htaken s hmem).1.protocol.trans hversion.symm)]
      exact htaken s hmem
    | foreign => exact ⟨hown, hp⟩

theorem Reachable.inNetworkProtocol [LawfulSnapshotCrate] {host : Host}
    (hhost : host.KeepsHeader) {f : CapturedFixture} {id : UInt64} {fork : StrictFork}
    {taken : List StrictCheckpoint} (h : Reachable host f id fork taken) :
    InNetworkProtocol fork := by
  obtain ⟨hversion, ⟨hown, _⟩, _⟩ := h.induct (P := fun _ => True) hhost trivial
    fun _ _ _ _ => trivial
  exact hown.protocol.trans hversion.symm

end Kanatoko
