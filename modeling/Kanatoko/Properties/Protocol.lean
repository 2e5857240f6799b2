import Kanatoko.Properties.ForkRuns
import Kanatoko.Scenario
import Kanatoko.Testnet.Host

/-!
# Protocol truthfulness

A policy accepts the supported protocol and at most the next one. Every environment is made
of a ledger in the protocol of the network and executes the supported one, and what is read
back of it is in the protocol of the network again, however often that happens.
-/

namespace Kanatoko

open Fallible Adaptive StrictFork

/-! ## One environment -/

/-- The protocols a policy accepts. -/
theorem check_eq_ok {policy : ProtocolPolicy} {found : UInt32} :
    policy.check found = .ok () ↔ found = supportedProtocolVersion ∨
      policy = .allowNewer ∧ found = supportedProtocolVersion + 1 :=
  ensure_eq_ok

/-- Every accepted protocol is executed as the supported one. -/
theorem executedProtocolVersion_accepted {policy : ProtocolPolicy} {found : UInt32}
    (h : policy.check found = .ok ()) : executedProtocolVersion found = supportedProtocolVersion := by
  rcases check_eq_ok.mp h with rfl | ⟨_, rfl⟩
  · decide
  · decide

variable [SnapshotCrate]

/-- An environment executes the supported protocol and is read back in that of the network. -/
structure Truthful (env : Env) (networkProtocolVersion : UInt32) : Prop where
  executed : env.ledgerInfo.protocolVersion = supportedProtocolVersion
  restored : (networkLedgerSnapshot env networkProtocolVersion).protocolVersion
    = networkProtocolVersion

/-- Restoring is right wherever the executed protocol is. -/
theorem truthful_of_executed {env : Env} {networkProtocolVersion : UInt32}
    (hnetwork : executedProtocolVersion networkProtocolVersion = supportedProtocolVersion)
    (h : env.ledgerInfo.protocolVersion = supportedProtocolVersion) :
    Truthful env networkProtocolVersion where
  executed := h
  restored := by
    show restoreNetworkProtocol env.ledgerInfo.protocolVersion networkProtocolVersion = _
    rw [h, ← hnetwork, restoreNetworkProtocol_executed]

/-- An environment that is made of a ledger of the network is truthful. -/
theorem truthful_forkEnv {ledgerInfo : LedgerInfo} {snapshot : LedgerSnapshot}
    {networkProtocolVersion : UInt32}
    (hnetwork : executedProtocolVersion networkProtocolVersion = supportedProtocolVersion)
    (h : ledgerInfo.protocolVersion = networkProtocolVersion) :
    Truthful (forkEnv ledgerInfo snapshot) networkProtocolVersion := by
  refine truthful_of_executed hnetwork ?_
  show executedProtocolVersion ledgerInfo.protocolVersion = _
  rw [h, hnetwork]

/-- So is one that is made of an SDK snapshot. -/
theorem truthful_forkEnvOf {s : Snapshot} {networkProtocolVersion : UInt32}
    (hnetwork : executedProtocolVersion networkProtocolVersion = supportedProtocolVersion)
    (h : s.ledger.protocolVersion = networkProtocolVersion) :
    Truthful (forkEnvOf (.snapshot s)).toEnv networkProtocolVersion := by
  refine truthful_of_executed hnetwork ?_
  show executedProtocolVersion s.ledger.protocolVersion = _
  rw [h, hnetwork]

/-- Stored entries do not touch the protocol. -/
theorem Truthful.store {env : Env} {networkProtocolVersion : UInt32}
    (h : Truthful env networkProtocolVersion) (stored : StoredEntries) :
    Truthful { env with storedEntries := stored } networkProtocolVersion :=
  ⟨h.executed, h.restored⟩

/-! ## Accepted fixtures -/

variable [Crates]

/-- A fixture that was captured, read from a bundle, or made of a snapshot, under a policy. -/
inductive Accepted [BundleCrates] (policy : ProtocolPolicy) : FrozenFixture → Prop
  | captured {f : CapturedFixture} : Captured policy f → Accepted policy f.fixture
  | loaded {f : CapturedFixture} : Loaded policy f → Accepted policy f.fixture
  | snapshot {snapshot : LedgerSnapshot} {passphrase : String} {fixture : FrozenFixture} :
      FrozenFixture.fromSnapshotWithPolicy snapshot passphrase policy = .ok fixture →
      Accepted policy fixture

omit [SnapshotCrate] in
/-- The policy was checked and the digest computed, whichever way a fixture came. -/
theorem Accepted.checked [LawfulCrates] [BundleCrates] {policy : ProtocolPolicy}
    {fixture : FrozenFixture} (h : Accepted policy fixture) :
    policy.check fixture.snapshot.protocolVersion = .ok () ∧
      canonicalLedgerDigest fixture.snapshot = .ok fixture.ledgerDigest := by
  have hfrozen : ∃ snapshot passphrase,
      FrozenFixture.fromSnapshotWithPolicy snapshot passphrase policy = .ok fixture := by
    cases h with
    | captured h => exact ⟨_, _, h.sound.frozen⟩
    | loaded h => exact ⟨_, _, h.sound.frozen⟩
    | snapshot h => exact ⟨_, _, h⟩
  obtain ⟨snapshot, passphrase, hfrozen⟩ := hfrozen
  obtain ⟨hcheck, _, rfl, hdigest⟩ := fromSnapshotWithPolicy_eq_ok.mp hfrozen
  exact ⟨hcheck, hdigest⟩

/-! ## Forks -/

/-- What every reachable fork and every checkpoint of it keeps of the protocol. -/
theorem ReachableFork.truthful {fixture : FrozenFixture}
    (hnetwork : executedProtocolVersion fixture.snapshot.protocolVersion
      = supportedProtocolVersion) {id : UInt64} {fork : Fork} {taken : List Checkpoint}
    (h : ReachableFork fixture id fork taken) :
    fork.id = id ∧ fork.networkProtocolVersion = fixture.snapshot.protocolVersion ∧
      Truthful fork.env.toEnv fixture.snapshot.protocolVersion ∧
      ∀ c ∈ taken, c.forkId = id ∧
        c.snapshot.ledger.protocolVersion = fixture.snapshot.protocolVersion := by
  induction h with
  | fork => exact ⟨rfl, rfl, truthful_forkEnv hnetwork rfl, by simp⟩
  | call stored generators _ ih =>
    obtain ⟨hid, hversion, htruthful, htaken⟩ := ih
    exact ⟨hid, hversion, htruthful.store stored, htaken⟩
  | registerWasm wasm expected stored generators hregister _ ih =>
    obtain ⟨hid, hversion, htruthful, htaken⟩ := ih
    obtain ⟨_, _, hpure⟩ := bind_eq_ok.mp hregister
    cases pure_eq_ok.mp hpure
    exact ⟨hid, hversion, htruthful.store stored, htaken⟩
  | checkpoint _ ih =>
    obtain ⟨hid, hversion, htruthful, htaken⟩ := ih
    refine ⟨hid, hversion, htruthful, List.forall_mem_cons.mpr ⟨⟨hid, ?_⟩, htaken⟩⟩
    show (networkLedgerSnapshot _ _).protocolVersion = _
    rw [hversion]
    exact htruthful.restored
  | revert checkpoint hmem hrevert _ ih =>
    obtain ⟨hid, hversion, _, htaken⟩ := ih
    obtain ⟨_, hown, hpure⟩ := bind_eq_ok.mp hrevert
    cases pure_eq_ok.mp hpure
    rw [ensure_eq_ok, hid] at hown
    have hc := htaken checkpoint (hmem.resolve_right fun hne => hne hown)
    exact ⟨hid, hversion, truthful_forkEnvOf hnetwork hc.2, htaken⟩

theorem fromFixture_ledgerDigest [LawfulSnapshotCrate] {fixture : FrozenFixture}
    (h : canonicalLedgerDigest fixture.snapshot = .ok fixture.ledgerDigest) (id : UInt64) :
    (Fork.fromFixture id fixture).ledgerDigest = .ok fixture.ledgerDigest := by
  unfold Fork.ledgerDigest Fork.ledgerSnapshot
  show canonicalLedgerDigest (networkLedgerSnapshot (forkEnv fixture.snapshot.toLedgerInfo
    fixture.snapshot) fixture.snapshot.protocolVersion) = _
  rw [networkLedgerSnapshot_forkEnv, h]

/-! ## Strict forks -/

/-- What every reachable strict fork shows is in the protocol of its network. -/
theorem Reachable.protocols [LawfulSnapshotCrate] {host : Host} (hhost : host.KeepsHeader)
    {f : CapturedFixture} {id : UInt64} {fork : StrictFork} {taken : List StrictCheckpoint}
    (h : Reachable host f id fork taken) :
    fork.networkProtocolVersion = f.fixture.snapshot.protocolVersion ∧
      ∀ s ∈ fork.checkpoint :: taken,
        s.snapshot.protocolVersion = f.fixture.snapshot.protocolVersion := by
  obtain ⟨hversion, ⟨hown, _⟩, htaken⟩ :=
    h.induct (P := fun _ => True) hhost trivial fun _ _ _ _ => trivial
  exact ⟨hversion, List.forall_mem_cons.mpr ⟨hown.protocol, fun s hs => (htaken s hs).1.protocol⟩⟩

/-- A step keeps the executed protocol, whichever environment it leaves. -/
theorem strictStep_env_executed [LawfulSnapshotCrate] {host : Host} (hhost : host.KeepsHeader)
    {networkProtocolVersion : UInt32} {fork : StrictFork} {op : StrictOp}
    (hprotocol : InNetworkProtocol fork)
    (hledger : fork.ledgerSnapshot.protocolVersion = networkProtocolVersion)
    (hrevert : ∀ s, op = .revert s → s.forkId = fork.id →
      s.snapshot.protocolVersion = networkProtocolVersion)
    (h : fork.env.ledgerInfo.protocolVersion = executedProtocolVersion networkProtocolVersion) :
    (strictStep host op fork).2.env.ledgerInfo.protocolVersion
      = executedProtocolVersion networkProtocolVersion := by
  have hcase := strictStep_cases host op fork
  generalize strictStep host op fork = result at hcase
  cases hcase with
  | @registered address wasm _ args _ _ hregister =>
    obtain ⟨stored, coverage, _, _, rfl⟩ := registerCandidate_eq_ok hregister
    show (registerChild host fork address wasm args).1.ledgerInfo.protocolVersion = _
    rw [registerChild_ledgerInfo hhost, ← hledger]
    rfl
  | invoked hinvoke =>
    obtain ⟨after, hprepare, ⟨_, rfl⟩ | ⟨_, coverage, _, rfl⟩⟩ := invoke_eq_ok hinvoke
    · exact h
    · obtain ⟨setup, stored, hprepares⟩ := prepare_eq_ok hprepare
      obtain ⟨hheader, _⟩ := invokeAfter_spec hhost hprotocol hprepares
      show executedProtocolVersion after.protocolVersion = _
      rw [hheader, hledger]
  | @reverted s heq =>
    show executedProtocolVersion s.snapshot.protocolVersion = _
    rw [hrevert s rfl heq]
  | registerFailed | invokeFailed | checkpointed | foreign => exact h

theorem Reachable.env_executed [LawfulSnapshotCrate] {host : Host} (hhost : host.KeepsHeader)
    {f : CapturedFixture} {id : UInt64} {fork : StrictFork} {taken : List StrictCheckpoint}
    (h : Reachable host f id fork taken) : fork.env.ledgerInfo.protocolVersion
      = executedProtocolVersion f.fixture.snapshot.protocolVersion := by
  have hstep : ∀ {fork : StrictFork} {taken : List StrictCheckpoint} (op : StrictOp),
      Reachable host f id fork taken →
      (∀ s, op = .revert s → s ∈ taken ∨ s.forkId ≠ fork.id) →
      fork.env.ledgerInfo.protocolVersion
        = executedProtocolVersion f.fixture.snapshot.protocolVersion →
      (strictStep host op fork).2.env.ledgerInfo.protocolVersion
        = executedProtocolVersion f.fixture.snapshot.protocolVersion := by
    intro fork taken op hreach htaken
    obtain ⟨_, hall⟩ := hreach.protocols hhost
    refine strictStep_env_executed hhost (hreach.inNetworkProtocol hhost)
      (hall _ List.mem_cons_self) fun s heq hid => ?_
    exact hall s (List.mem_cons_of_mem _ ((htaken s heq).resolve_right fun hne => hne hid))
  induction h with
  | fork => rfl
  | registerCandidate address wasm expected args h ih => exact hstep _ h (by simp) ih
  | invoke request execution auth h ih => exact hstep _ h (by simp) ih
  | checkpoint _ ih => exact ih
  | revert s hs h ih =>
    refine hstep _ h (fun s' heq => ?_) ih
    cases heq
    exact hs

/-! ## The result -/

/-- What a strict fork keeps of the protocol; the child of its next operation is made of the
ledger it shows. -/
structure StrictTruthful (fork : StrictFork) (taken : List StrictCheckpoint)
    (networkProtocolVersion : UInt32) : Prop where
  network : fork.networkProtocolVersion = networkProtocolVersion
  env : Truthful fork.env networkProtocolVersion
  child : Truthful (strictEnv fork.ledgerSnapshot) networkProtocolVersion
  shown : fork.ledgerSnapshot.protocolVersion = networkProtocolVersion
  checkpoints : ∀ s ∈ fork.checkpoint :: taken, s.snapshot.protocolVersion = networkProtocolVersion

/-- The same of a fork. -/
structure ForkTruthful (fork : Fork) (taken : List Checkpoint)
    (networkProtocolVersion : UInt32) : Prop where
  network : fork.networkProtocolVersion = networkProtocolVersion
  executed : fork.executedProtocolVersion = supportedProtocolVersion
  env : Truthful fork.env.toEnv networkProtocolVersion
  shown : fork.ledgerSnapshot.protocolVersion = networkProtocolVersion
  checkpoints : ∀ c ∈ fork.checkpoint :: taken,
    c.snapshot.ledger.protocolVersion = networkProtocolVersion

/-- The same of a scenario's environment, of the child a preview makes of it, and of the child
after its call. -/
structure PreviewTruthful (env : SdkEnv) (networkProtocolVersion : UInt32) : Prop where
  outer : Truthful env.toEnv networkProtocolVersion
  seed : (env.networkSnapshot networkProtocolVersion).ledger.protocolVersion
    = networkProtocolVersion
  child : ∀ stored : StoredEntries, Truthful
    { (previewChild env networkProtocolVersion).toEnv with storedEntries := stored }
    networkProtocolVersion

/--
**Every environment executes the supported protocol, and nothing that is exported forgets the
protocol of the network.**

A fixture that a policy accepts is of the supported protocol, or under the newer policy of the
next one. Along every run of calls, registrations, checkpoints and reverts of a fork or of a
strict fork, and in every preview, the Host is given the supported protocol, while ledgers,
checkpoints and digests carry the protocol of the network; a fresh fork has the digest of the
fixture.
-/
theorem protocol_truthful [LawfulCrates] [LawfulSnapshotCrate] [BundleCrates]
    {policy : ProtocolPolicy} {fixture : FrozenFixture} (h : Accepted policy fixture) :
    (fixture.snapshot.protocolVersion = supportedProtocolVersion ∨ policy = .allowNewer ∧
      fixture.snapshot.protocolVersion = supportedProtocolVersion + 1) ∧
    (∀ {id : UInt64} {fork : Fork} {taken : List Checkpoint},
      ReachableFork fixture id fork taken →
        ForkTruthful fork taken fixture.snapshot.protocolVersion) ∧
    (∀ id : UInt64, (Fork.fromFixture id fixture).ledgerDigest = .ok fixture.ledgerDigest) ∧
    ∀ f : CapturedFixture, f.fixture = fixture →
      (∀ {host : Host}, host.KeepsHeader → ∀ {id : UInt64} {fork : StrictFork}
        {taken : List StrictCheckpoint}, Reachable host f id fork taken →
          StrictTruthful fork taken fixture.snapshot.protocolVersion) ∧
      (∀ id : UInt64, (fromCaptured id f.fixture.snapshot f.coverage).ledgerDigest
        = .ok fixture.ledgerDigest) ∧
      ∀ env : Env, envFromMaterialized f.materialized = .ok env →
        ∀ (stored : StoredEntries) (generators : Generators),
          PreviewTruthful ⟨{ env with storedEntries := stored }, generators⟩
            fixture.snapshot.protocolVersion := by
  obtain ⟨hcheck, hdigest⟩ := h.checked
  have hnetwork := executedProtocolVersion_accepted hcheck
  refine ⟨check_eq_ok.mp hcheck, fun hreach => ?_, fromFixture_ledgerDigest hdigest, ?_⟩
  · obtain ⟨_, hversion, htruthful, htaken⟩ := hreach.truthful hnetwork
    have hshown := htruthful.restored
    rw [← hversion] at hshown
    refine ⟨hversion, ?_, htruthful, hshown.trans hversion, List.forall_mem_cons.mpr
      ⟨hshown.trans hversion, fun c hc => (htaken c hc).2⟩⟩
    unfold Fork.executedProtocolVersion
    rw [hversion, hnetwork]
  · rintro f rfl
    refine ⟨fun hhost id fork taken hreach => ?_, fun id => ?_, fun env henv stored generators => ?_⟩
    · obtain ⟨hversion, hall⟩ := hreach.protocols hhost
      have hshown := hall _ List.mem_cons_self
      have hexecuted := (hreach.env_executed hhost).trans hnetwork
      exact ⟨hversion, truthful_of_executed hnetwork hexecuted, truthful_forkEnv hnetwork hshown,
        hshown, hall⟩
    · show canonicalLedgerDigest (networkLedgerSnapshot (forkEnv f.fixture.snapshot.toLedgerInfo
        f.fixture.snapshot) f.fixture.snapshot.protocolVersion) = _
      rw [networkLedgerSnapshot_forkEnv, hdigest]
    · have hmade : ∃ snapshot, env = forkEnv f.materialized.ledgerInfo snapshot := by
        unfold envFromMaterialized at henv
        split at henv
        · next snapshot _ => exact ⟨snapshot, (Except.ok.inj henv).symm⟩
        · cases henv
      obtain ⟨snapshot, rfl⟩ := hmade
      have htruthful : Truthful { forkEnv f.materialized.ledgerInfo snapshot with
          storedEntries := stored } f.fixture.snapshot.protocolVersion :=
        (truthful_forkEnv hnetwork rfl).store stored
      have hseed := htruthful.restored
      exact ⟨htruthful, hseed, fun stored' => (truthful_forkEnvOf hnetwork hseed).store stored'⟩

end Kanatoko

namespace Kanatoko.Testnet

/-- The native asset as a network one protocol ahead shows it. -/
def newerSnapshot : LedgerSnapshot := { nativeBundle.ledgerSnapshot with protocolVersion := 30 }

/-- A fork of a newer ledger after a call, a checkpoint and a revert to it. -/
theorem newer_protocol_truthful : ∃ fixture fork taken,
    FrozenFixture.fromSnapshotWithPolicy newerSnapshot testnetPassphrase .allowNewer = .ok fixture ∧
    ReachableFork fixture 1 fork taken ∧ taken ≠ [] ∧
    ForkTruthful fork taken 30 ∧
      (Fork.fromFixture 1 fixture).ledgerDigest = .ok fixture.ledgerDigest := by
  have haccepted : (FrozenFixture.fromSnapshotWithPolicy newerSnapshot testnetPassphrase
      .allowNewer).toOption.isSome = true := by decide +kernel
  cases hfixture : FrozenFixture.fromSnapshotWithPolicy newerSnapshot testnetPassphrase
      .allowNewer with
  | error e => rw [hfixture] at haccepted; cases haccepted
  | ok fixture =>
    obtain ⟨_, hforks, hdigest, _⟩ := protocol_truthful (.snapshot hfixture)
    obtain ⟨_, _, hsnapshot, _⟩ := fromSnapshotWithPolicy_eq_ok.mp hfixture
    have hversion : fixture.snapshot.protocolVersion = 30 := by rw [hsnapshot]; rfl
    have hreach : ∃ fork taken, ReachableFork fixture 1 fork taken ∧ taken ≠ [] :=
      ⟨_, _, .revert _ (Or.inl List.mem_cons_self) rfl
        (.checkpoint (.call fundedEntries ⟨1, 1⟩ .fork)), by simp⟩
    obtain ⟨fork, taken, hreach, htaken⟩ := hreach
    rw [← hversion]
    exact ⟨fixture, fork, taken, rfl, hreach, htaken, hforks hreach, hdigest 1⟩

end Kanatoko.Testnet
