import Kanatoko.Properties.ForkRuns
import Kanatoko.Testnet.Host

/-!
# Mock nonces

An invocation under mocked authorization strips every new nonce before it digests, diffs and
promotes, so it never commits one. A registration strips nothing: a nonce that a constructor
leaves under a key the gate lets through is committed and reported.
-/

namespace Kanatoko

open Fallible Knowledge StrictFork

variable [Crates] [SnapshotCrate]

/-! ## Runs under a condition -/

/-- The checkpoints taken of a fork, after one more operation. -/
def takenAfter (fork : StrictFork) (taken : List StrictCheckpoint) :
    StrictOp → List StrictCheckpoint
  | .checkpoint => fork.checkpoint :: taken
  | _ => taken

/--
The forks reachable by operations that meet a condition, with the checkpoints taken on the
way and the answers given, last answer first.
-/
inductive ReachableBy (host : Host) (f : CapturedFixture) (id : UInt64)
    (allowed : StrictFork → StrictOp → Prop) :
    StrictFork → List StrictCheckpoint → List StrictAnswer → Prop
  | fork : ReachableBy host f id allowed (.fromCaptured id f.fixture.snapshot f.coverage) [] []
  | step {fork : StrictFork} {taken : List StrictCheckpoint} {answers : List StrictAnswer}
      (op : StrictOp) : allowed fork op →
      (∀ checkpoint, op = .revert checkpoint →
        checkpoint ∈ taken ∨ checkpoint.forkId ≠ fork.id) →
      ReachableBy host f id allowed fork taken answers →
      ReachableBy host f id allowed (strictStep host op fork).2 (takenAfter fork taken op)
        ((strictStep host op fork).1 :: answers)

/-- A run under a condition is a run. -/
theorem ReachableBy.reachable {host : Host} {f : CapturedFixture} {id : UInt64}
    {allowed : StrictFork → StrictOp → Prop} {fork : StrictFork} {taken : List StrictCheckpoint}
    {answers : List StrictAnswer} (h : ReachableBy host f id allowed fork taken answers) :
    Reachable host f id fork taken := by
  induction h with
  | fork => exact .fork
  | step op _ hrevert _ ih =>
    cases op with
    | registerCandidate address wasm expected args =>
      exact .registerCandidate address wasm expected args ih
    | invoke request execution auth => exact .invoke request execution auth ih
    | checkpoint => exact .checkpoint ih
    | revert checkpoint => exact .revert checkpoint (hrevert checkpoint rfl) ih

/-! ## Nonces of a ledger -/

/-- The keys of the temporary nonce entries of a ledger. -/
def nonceKeys (snapshot : LedgerSnapshot) : Set LedgerKey :=
  {key | isNonceKey key = true ∧ key ∈ snapshot.ledgerEntries.map Prod.fst}

/-- A change that reports a nonce entry as newly created. -/
def StateChange.createsNonce (change : StateChange) : Bool :=
  isNonceKey change.key && change.before.isNone && change.after.isSome

/-- The changes an answer reports. -/
def StrictAnswer.stateChanges : StrictAnswer → List StateChange
  | .registered (.ok registration) => registration.stateChanges
  | .invoked (.ok receipt) => receipt.stateChanges
  | _ => []

/-- Invocations record or mock exactly. -/
def MockOnly : StrictOp → Prop
  | .invoke _ _ auth => allowMockNonces auth = true
  | _ => True

/-- The constructor of a registration that commits leaves no nonce entry that the ledger before
it lacks. -/
def LeavesNoNonce (host : Host) (fork : StrictFork) : StrictOp → Prop
  | .registerCandidate address wasm expected args =>
    ∀ stored, Commits host fork address wasm expected args stored →
      ∀ key value, (key, some value) ∈ stored.entries → isNonceKey key = true →
        key ∈ nonceKeys fork.ledgerSnapshot
  | _ => True

omit [Crates] [SnapshotCrate] in
theorem mem_nonceKeys {snapshot : LedgerSnapshot} {key : LedgerKey} :
    key ∈ nonceKeys snapshot ↔
      isNonceKey key = true ∧ ∃ value, (key, value) ∈ snapshot.ledgerEntries := by
  show isNonceKey key = true ∧ key ∈ snapshot.ledgerEntries.map Prod.fst ↔ _
  rw [List.mem_map]
  constructor
  · rintro ⟨hnonce, ⟨_, value⟩, hmem, rfl⟩
    exact ⟨hnonce, value, hmem⟩
  · rintro ⟨hnonce, value, hmem⟩
    exact ⟨hnonce, _, hmem, rfl⟩

omit [SnapshotCrate] in
/-- A canonical ledger holds something under the id of a key exactly when it lists the key. -/
theorem held_ne_none_iff [LawfulCrates] {snapshot : LedgerSnapshot}
    (h : Canonical snapshot.ledgerEntries) {key : LedgerKey} {id : KeyId}
    (hid : ledgerKeyToXdr key = some id) :
    held snapshot.ledgerEntries id ≠ none ↔ ∃ value, (key, value) ∈ snapshot.ledgerEntries := by
  rw [Option.ne_none_iff_exists']
  refine exists_congr fun value => ?_
  rw [h.keyed.held_eq_some_iff]
  constructor
  · rintro ⟨key', hid', hmem⟩
    rw [ledgerKeyToXdr_inj hid hid']
    exact hmem
  · exact fun hmem => ⟨key, hid, hmem⟩

omit [SnapshotCrate] in
/-- **A transition reports no new nonce exactly when it adds none.** -/
theorem Transition.createsNonce_iff [LawfulCrates] {before after : LedgerSnapshot}
    {beforeDigest afterDigest : Bytes32} {changes : List StateChange}
    (h : Transition before after beforeDigest afterDigest changes) :
    (∀ change ∈ changes, change.createsNonce = false) ↔ nonceKeys after ⊆ nonceKeys before := by
  have hbefore := canonical_of_digest h.digestBefore
  have hafter := canonical_of_digest h.digestAfter
  constructor
  · intro hnone key hkey
    obtain ⟨hnonce, value, hmem⟩ := mem_nonceKeys.mp hkey
    obtain ⟨id, hid⟩ := Option.isSome_iff_exists.mp (hafter.encoded _ hmem)
    by_contra hnot
    have hheld : held before.ledgerEntries id = none := by
      by_contra hne
      exact hnot (mem_nonceKeys.mpr ⟨hnonce, (held_ne_none_iff hbefore hid).mp hne⟩)
    have hheld' := (held_ne_none_iff hafter hid).mpr ⟨value, hmem⟩
    obtain ⟨change, hchange, hid'⟩ := h.describes.complete id (by rw [hheld]; exact hheld'.symm)
    obtain ⟨id'', hid'', _, hchangeBefore, hchangeAfter⟩ := h.describes.sound change hchange
    cases Option.some.inj (hid'.symm.trans hid'')
    have hkeyEq : change.key = key := ledgerKeyToXdr_inj hid' hid
    obtain ⟨value', hvalue'⟩ := Option.ne_none_iff_exists'.mp hheld'
    have hcreates := hnone change hchange
    rw [StateChange.createsNonce, hkeyEq, hnonce, hchangeBefore, hchangeAfter, hheld, hvalue']
      at hcreates
    cases hcreates
  · intro hsub change hchange
    obtain ⟨id, hid, _, hchangeBefore, hchangeAfter⟩ := h.describes.sound change hchange
    by_contra hcreates
    rw [Bool.not_eq_false, StateChange.createsNonce, Bool.and_eq_true, Bool.and_eq_true,
      hchangeBefore, hchangeAfter, Option.isNone_map, Option.isSome_map] at hcreates
    obtain ⟨⟨hnonce, hnone⟩, hsome⟩ := hcreates
    have hheld' : held after.ledgerEntries id ≠ none := Option.isSome_iff_ne_none.mp hsome
    have hmem := hsub (mem_nonceKeys.mpr ⟨hnonce, (held_ne_none_iff hafter hid).mp hheld'⟩)
    exact (held_ne_none_iff hbefore hid).mpr (mem_nonceKeys.mp hmem).2
      (Option.isNone_iff_eq_none.mp hnone)

/-! ## One step -/

/-- The ledger after a mocked invocation has no nonce that the ledger before it lacks. -/
theorem invokeAfter_nonceKeys [LawfulCrates] {host : Host} {fork : StrictFork}
    {request : InvokeRequest} {execution : ExecutionMode} {auth : AuthMode} {receipt : Receipt}
    {after : LedgerSnapshot} {setup : AuthSetup} {stored : StoredEntries}
    (hmock : allowMockNonces auth = true)
    (h : Prepares host fork request execution auth receipt after setup stored) :
    nonceKeys after ⊆ nonceKeys fork.ledgerSnapshot := by
  have hcanonical := canonical_of_digest h.transition.digestBefore
  have hledger := h.ledger
  unfold invokeAfter at hledger
  dsimp only at hledger
  rw [if_pos hmock] at hledger
  obtain ⟨_, hkept⟩ := stripNewMockNonces_spec hcanonical hledger
  intro key hkey
  obtain ⟨hnonce, value, hmem⟩ := mem_nonceKeys.mp hkey
  obtain ⟨id, hid, hheld⟩ := (hkept _ hmem).2 hnonce
  exact mem_nonceKeys.mpr ⟨hnonce, (held_ne_none_iff hcanonical hid).mp hheld⟩

/-- The ledger after a registration has the nonces of the ledger before it, less those that
were removed, and those that the constructor left. -/
theorem installed_nonceKeys [LawfulSnapshotCrate] {host : Host} {fork : StrictFork}
    {address : ScAddress} {wasm : Bytes} {expected : Bytes32} {args : List ScVal}
    {registration : CandidateRegistration} {stored : StoredEntries}
    (h : Installs host fork address wasm expected args registration stored) :
    nonceKeys (fork.childSnapshot fork.ledgerSnapshot
        (fork.registerChild host address wasm args).1 stored) ⊆ nonceKeys fork.ledgerSnapshot ↔
      LeavesNoNonce host fork (.registerCandidate address wasm expected args) := by
  have hcanonical := canonical_of_digest h.transition.digestBefore
  have hentries := fun key value => LawfulSnapshotCrate.mem_updateEntries hcanonical.nodup_keys
    stored key value
  constructor
  · intro hsub stored' hcommits key value hmem hnonce
    cases h.gate.symm.trans hcommits.gate
    exact hsub (mem_nonceKeys.mpr ⟨hnonce, value, (hentries key value).mpr (Or.inl hmem)⟩)
  · intro hleaves key hkey
    obtain ⟨hnonce, value, hmem⟩ := mem_nonceKeys.mp hkey
    rcases (hentries key value).mp hmem with hnew | ⟨hold, _⟩
    · exact hleaves stored h.toCommits key value hnew hnonce
    · exact mem_nonceKeys.mpr ⟨hnonce, value, hold⟩

/-- **A registration reports a new nonce exactly when its constructor left one.** -/
theorem registration_createsNonce_iff [LawfulCrates] [LawfulSnapshotCrate] {host : Host}
    {fork fork' : StrictFork} {address : ScAddress} {wasm : Bytes} {expected : Bytes32}
    {args : List ScVal} {registration : CandidateRegistration}
    (h : registerCandidate host address wasm expected args fork = .ok registration fork') :
    (∀ change ∈ registration.stateChanges, change.createsNonce = false) ↔
      LeavesNoNonce host fork (.registerCandidate address wasm expected args) := by
  obtain ⟨stored, _, hinstalls, _, _⟩ := registerCandidate_eq_ok h
  rw [hinstalls.transition.createsNonce_iff]
  exact installed_nonceKeys hinstalls

omit [Crates] in
/-- An environment that was made of a snapshot shows the entries of the snapshot. -/
theorem nonceKeys_strictEnv [LawfulSnapshotCrate] (snapshot : LedgerSnapshot)
    (networkProtocolVersion : UInt32) :
    nonceKeys (networkLedgerSnapshot (strictEnv snapshot) networkProtocolVersion)
      = nonceKeys snapshot := by
  show {key | isNonceKey key = true ∧
    key ∈ (updateEntries snapshot.ledgerEntries .empty).map Prod.fst} = _
  rw [LawfulSnapshotCrate.updateEntries_empty]
  rfl

/-- A step that meets the condition adds no nonce and reports none, reverts apart. -/
theorem strictStep_nonceKeys [LawfulCrates] [LawfulSnapshotCrate] {host : Host}
    {fork : StrictFork} {op : StrictOp} (hmock : MockOnly op) (hleaves : LeavesNoNonce host fork op)
    (hop : ∀ checkpoint, op ≠ .revert checkpoint) :
    nonceKeys (strictStep host op fork).2.ledgerSnapshot ⊆ nonceKeys fork.ledgerSnapshot ∧
      ∀ change ∈ (strictStep host op fork).1.stateChanges, change.createsNonce = false := by
  have hcase := strictStep_cases host op fork
  generalize strictStep host op fork = result at hcase
  cases hcase with
  | registered h =>
    obtain ⟨stored, coverage, hinstalls, _, rfl⟩ := registerCandidate_eq_ok h
    exact ⟨(installed_nonceKeys hinstalls).mpr hleaves,
      (registration_createsNonce_iff h).mpr hleaves⟩
  | invoked h =>
    obtain ⟨after, hprepare, hfork⟩ := invoke_eq_ok h
    obtain ⟨setup, stored, hprepares⟩ := prepare_eq_ok hprepare
    have hsub := invokeAfter_nonceKeys hmock hprepares
    refine ⟨?_, hprepares.transition.createsNonce_iff.mpr hsub⟩
    rcases hfork with ⟨_, rfl⟩ | ⟨_, coverage, _, rfl⟩
    · exact Set.Subset.refl _
    · show nonceKeys (networkLedgerSnapshot (strictEnv after) _) ⊆ _
      rw [nonceKeys_strictEnv]
      exact hsub
  | registerFailed | invokeFailed | checkpointed | foreign =>
    exact ⟨Set.Subset.refl _, fun _ hc => absurd hc List.not_mem_nil⟩
  | reverted => exact absurd rfl (hop _)

/-! ## Whole runs -/

/-- What holds of the nonces of the captured ledger holds along a run that meets the condition,
of its checkpoints too. -/
theorem ReachableBy.nonceKeys [LawfulCrates] [LawfulSnapshotCrate] {host : Host}
    {f : CapturedFixture} {id : UInt64} {fork : StrictFork} {taken : List StrictCheckpoint}
    {answers : List StrictAnswer}
    (h : ReachableBy host f id (fun fork op => MockOnly op ∧ LeavesNoNonce host fork op)
      fork taken answers) :
    (nonceKeys fork.ledgerSnapshot ⊆ nonceKeys f.fixture.snapshot ∧
      ∀ s ∈ taken, nonceKeys s.snapshot ⊆ nonceKeys f.fixture.snapshot) ∧
      ∀ answer ∈ answers, ∀ change ∈ answer.stateChanges, change.createsNonce = false := by
  induction h with
  | fork =>
    refine ⟨⟨?_, by simp⟩, by simp⟩
    show Kanatoko.nonceKeys (networkLedgerSnapshot (strictEnv f.fixture.snapshot) _) ⊆ _
    rw [nonceKeys_strictEnv]
  | @step fork taken answers op hallowed hrevert _ ih =>
    obtain ⟨⟨hfork, htaken⟩, hanswers⟩ := ih
    by_cases hop : ∃ checkpoint, op = .revert checkpoint
    · obtain ⟨checkpoint, rfl⟩ := hop
      have hcase := strictStep_cases host (.revert checkpoint) fork
      generalize strictStep host (.revert checkpoint) fork = result at hcase
      cases hcase with
      | reverted heq =>
        -- the checkpoint is one of this run
        have hmem := (hrevert checkpoint rfl).resolve_right fun hne => hne heq
        refine ⟨⟨?_, htaken⟩, List.forall_mem_cons.mpr ⟨by simp [StrictAnswer.stateChanges],
          hanswers⟩⟩
        show Kanatoko.nonceKeys (networkLedgerSnapshot (strictEnv checkpoint.snapshot) _) ⊆ _
        rw [nonceKeys_strictEnv]
        exact htaken checkpoint hmem
      | foreign =>
        exact ⟨⟨hfork, htaken⟩, List.forall_mem_cons.mpr ⟨by simp [StrictAnswer.stateChanges],
          hanswers⟩⟩
    · obtain ⟨hsub, hchanges⟩ := strictStep_nonceKeys hallowed.1 hallowed.2
        fun checkpoint heq => hop ⟨checkpoint, heq⟩
      refine ⟨⟨hsub.trans hfork, ?_⟩, List.forall_mem_cons.mpr ⟨hchanges, hanswers⟩⟩
      cases op with
      | checkpoint => exact List.forall_mem_cons.mpr ⟨hfork, htaken⟩
      | registerCandidate | invoke | revert => exact htaken

/-! ## The result -/

/--
**Mock nonces are committed by constructors only.**

In every run whose invocations record or mock exactly, and in which no constructor of a
registration that commits leaves a nonce entry that the ledger before it lacks, the nonce keys of
the fork's ledger are among those of the captured snapshot, and no receipt and no registration
reports a nonce as created. A registration reports a created nonce exactly when its constructor
has left one.
-/
theorem nonces_left_by_constructors [LawfulCrates] [LawfulSnapshotCrate] {host : Host}
    {f : CapturedFixture} {id : UInt64} :
    (∀ {fork : StrictFork} {taken : List StrictCheckpoint} {answers : List StrictAnswer},
      ReachableBy host f id (fun fork op => MockOnly op ∧ LeavesNoNonce host fork op)
        fork taken answers →
      nonceKeys fork.ledgerSnapshot ⊆ nonceKeys f.fixture.snapshot ∧
        ∀ answer ∈ answers, ∀ change ∈ answer.stateChanges, change.createsNonce = false) ∧
    ∀ {fork fork' : StrictFork} {address : ScAddress} {wasm : Bytes} {expected : Bytes32}
      {args : List ScVal} {registration : CandidateRegistration},
      registerCandidate host address wasm expected args fork = .ok registration fork' →
      ((∀ change ∈ registration.stateChanges, change.createsNonce = false) ↔
        LeavesNoNonce host fork (.registerCandidate address wasm expected args)) :=
  ⟨fun h => ⟨h.nonceKeys.1.1, h.nonceKeys.2⟩, registration_createsNonce_iff⟩

end Kanatoko

namespace Kanatoko.Testnet

open StrictFork

/-! ## A constructor that authorizes -/

def candidate : ScAddress := smallContract 7

/-- The nonce that a constructor leaves when its own contract authorizes. -/
def candidateNonce : LedgerKeyContractData :=
  ⟨candidate, .ledgerKeyNonce 801925984706572462, .temporary⟩

def authorizedEntries (wasm : Bytes) : StoredEntries where
  entries := (installedEntries candidate wasm).entries ++
    [(.contractData candidateNonce, some (⟨4983918, .contractData
      ⟨candidateNonce.contract, candidateNonce.key, candidateNonce.durability, .other [0, 0, 0, 1]⟩,
      .v0⟩, some 4990117))]
  nodup := by
    simp [installedEntries, contractInstanceKey, candidateNonce]

/-- A host whose constructors authorize their own contract. -/
def authorizingHost : Host :=
  { nativeHost with
    register := fun info _ wasm _ => .done
      { result := some candidate
        ledgerInfo := info
        storedEntries := some (authorizedEntries wasm)
        auth := [[⟨candidate, []⟩]]
        events := []
        diagnostics := some [] } }

/-- The nonce of a constructor is committed by a registration, and reported as created. -/
theorem constructor_nonce_committed : ∃ f fork answers, Captured .exact f ∧
    ReachableBy authorizingHost f 1 (fun _ op => MockOnly op) fork [] answers ∧
    LedgerKey.contractData candidateNonce ∈ nonceKeys fork.ledgerSnapshot ∧
    LedgerKey.contractData candidateNonce ∉ nonceKeys f.fixture.snapshot ∧
    ∃ answer ∈ answers, ∃ change ∈ answer.stateChanges, change.createsNonce = true := by
  have h : (match nativeBuilder.captureRefFromKeys nativeScenario .empty nativeWorld with
    | .ok f _ =>
      match strictStep authorizingHost
        (.registerCandidate candidate emptyWasm (sha256 emptyWasm) [])
        (.fromCaptured 1 f.fixture.snapshot f.coverage) with
      | (answer, fork) => decide (LedgerKey.contractData candidateNonce ∈
          fork.ledgerSnapshot.ledgerEntries.map Prod.fst ∧
        LedgerKey.contractData candidateNonce ∉ f.fixture.snapshot.ledgerEntries.map Prod.fst ∧
        answer.stateChanges.any StateChange.createsNonce = true)
    | .error _ _ => false) = true := by decide +kernel
  split at h
  · next f w' hcapture =>
    have hfork : ReachableBy authorizingHost f 1 (fun _ op => MockOnly op) _ [] _ :=
      .step (.registerCandidate candidate emptyWasm (sha256 emptyWasm) []) trivial (by simp) .fork
    generalize strictStep authorizingHost (.registerCandidate candidate emptyWasm
      (sha256 emptyWasm) []) (.fromCaptured 1 f.fixture.snapshot f.coverage) = result at h hfork
    obtain ⟨hnew, hold, hreported⟩ := of_decide_eq_true h
    refine ⟨f, result.2, _, .capture _ _ _ _ _ rfl hcapture, hfork, ⟨rfl, hnew⟩,
      fun hmem => hold hmem.2, result.1, List.mem_cons_self, ?_⟩
    simpa using hreported
  · cases h

/-- A fork that is funded and then gets a candidate, whose constructor leaves no nonce. -/
theorem native_nonces_stripped : ∃ f fork taken answers, Captured .exact f ∧
    answers.length = 2 ∧ nonceKeys fork.ledgerSnapshot ⊆ nonceKeys f.fixture.snapshot ∧
    ReachableBy nativeHost f 1 (fun fork op => MockOnly op ∧ LeavesNoNonce nativeHost fork op)
      fork taken answers := by
  obtain ⟨f, w', hcapture, _⟩ := native_captured
  have hrun : ∃ fork taken answers, answers.length = 2 ∧
      ReachableBy nativeHost f 1 (fun fork op => MockOnly op ∧ LeavesNoNonce nativeHost fork op)
        fork taken answers := by
    refine ⟨_, _, _, rfl, .step (.registerCandidate candidate emptyWasm (sha256 emptyWasm) [])
      ⟨trivial, ?_⟩ (by simp) (.step (.invoke fundingRequest .apply .record) ⟨rfl, trivial⟩
        (by simp) .fork)⟩
    -- the constructor leaves an instance and code
    intro stored hcommits key value hmem hnonce
    cases Option.some.inj (gateUnknown_eq_ok hcommits.gate).1
    simp only [installedEntries, List.mem_cons, Prod.mk.injEq, List.not_mem_nil, or_false] at hmem
    rcases hmem with ⟨rfl, _⟩ | ⟨rfl, _⟩ <;> cases hnonce
  obtain ⟨fork, taken, answers, hlength, hreach⟩ := hrun
  obtain ⟨hruns, _⟩ := nonces_left_by_constructors
  exact ⟨f, fork, taken, answers, .capture _ _ _ _ _ rfl hcapture, hlength, (hruns hreach).1,
    hreach⟩

end Kanatoko.Testnet
