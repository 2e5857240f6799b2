import Kanatoko.Properties.Representation
import Kanatoko.Properties.StateDiff

/-!
# What one operation on a strict fork does

An operation that fails leaves the fork as it was. A registration and a committed invocation
move it along a transition between two digested ledgers; anything else leaves its ledger side
alone. All that is proved about runs follows from these cases.
-/

namespace Kanatoko

open Fallible Knowledge StrictFork

variable [Crates]

/-! ## The gate -/

/-- What the gate lets a child read or store: a covered key, or one that is local to it. -/
def StrictSource.knows (source : StrictSource) (key : LedgerKey) (id : KeyId) : Prop :=
  id ∈ source.coverage ∨
    isLocalKey key source.localContracts source.localCodeHashes source.allowMockNonces = true

theorem storedUnknown_spec {source : StrictSource} : ∀ {keys : List LedgerKey}
    {unknown unknown' : Std.ExtTreeSet KeyId}, storedUnknown source keys unknown = .ok unknown' →
    (∀ id ∈ unknown, id ∈ unknown') ∧
      ∀ key ∈ keys, ∃ id, ledgerKeyToXdr key = some id ∧ (source.knows key id ∨ id ∈ unknown')
  | [], unknown, unknown', h => by
    rw [storedUnknown, pure_eq_ok] at h
    subst h
    exact ⟨fun _ h => h, by simp⟩
  | key :: rest, unknown, unknown', h => by
    rw [storedUnknown] at h
    obtain ⟨id, hid, hrest⟩ := bind_eq_ok.mp h
    obtain ⟨hkeep, hall⟩ := storedUnknown_spec hrest
    rw [strictKeyId, orError_eq_ok] at hid
    have hmono : ∀ id' ∈ unknown, id' ∈ unknown' := by
      intro id' hid'
      refine hkeep id' ?_
      split
      · exact Std.ExtTreeSet.mem_insert.mpr (Or.inr hid')
      · exact hid'
    refine ⟨hmono, fun key' hkey' => ?_⟩
    rcases List.mem_cons.mp hkey' with rfl | hkey'
    · refine ⟨id, hid, ?_⟩
      by_cases hknows : source.knows key' id
      · exact Or.inl hknows
      · obtain ⟨hcov, hlocal⟩ := not_or.mp hknows
        refine Or.inr (hkeep id ?_)
        rw [if_pos ⟨hcov, by simpa using hlocal⟩]
        exact Std.ExtTreeSet.mem_insert.mpr (Or.inl Std.ReflCmp.compare_self)
    · exact hall key' hkey'

/-- **A child that passes the gate has read and stored nothing unknown.** -/
theorem gateUnknown_eq_ok {α : Type} {source : StrictSource} {childEnd : ChildEnd α}
    {stored : StoredEntries} (h : gateUnknown source childEnd = .ok stored) :
    childEnd.storedEntries = some stored ∧ source.unknown = ∅ ∧
      ∀ key ∈ stored.keys, ∃ id, ledgerKeyToXdr key = some id ∧ source.knows key id := by
  obtain ⟨⟨unknown, stored'⟩, hunknown, h₁⟩ := bind_eq_ok.mp h
  obtain ⟨stored'', hstored, h₂⟩ := bind_eq_ok.mp hunknown
  obtain ⟨unknown', hloop, h₃⟩ := bind_eq_ok.mp h₂
  cases pure_eq_ok.mp h₃
  obtain ⟨_, hempty, h₄⟩ := bind_eq_ok.mp h₁
  cases pure_eq_ok.mp h₄
  rw [ensure_eq_ok] at hempty
  subst hempty
  obtain ⟨hkeep, hall⟩ := storedUnknown_spec hloop
  refine ⟨orError_eq_ok.mp hstored, Std.ExtTreeSet.ext_mem fun id => ?_, fun key hkey => ?_⟩
  · exact ⟨hkeep id, fun hc => absurd hc Std.ExtTreeSet.not_mem_empty⟩
  · obtain ⟨id, hid, hknown⟩ := hall key hkey
    exact ⟨id, hid, hknown.resolve_right Std.ExtTreeSet.not_mem_empty⟩

/-! ## Transitions -/

/-- A step between two digested ledgers, with the changes that are reported for it. -/
structure Transition (before after : LedgerSnapshot) (beforeDigest afterDigest : Bytes32)
    (changes : List StateChange) : Prop where
  digestBefore : canonicalLedgerDigest before = .ok beforeDigest
  digestAfter : canonicalLedgerDigest after = .ok afterDigest
  diff : stateDiff before after = .ok changes

theorem Transition.describes {before after : LedgerSnapshot} {beforeDigest afterDigest : Bytes32}
    {changes : List StateChange} (h : Transition before after beforeDigest afterDigest changes) :
    Describes changes (held before.ledgerEntries) (held after.ledgerEntries) := by
  obtain ⟨changes', hdiff, hdescribes⟩ :=
    stateDiff_spec (canonical_of_digest h.digestBefore).keyed
      (canonical_of_digest h.digestAfter).keyed
  cases h.diff.symm.trans hdiff
  exact hdescribes

theorem strictDigest_eq_ok {snapshot : LedgerSnapshot} {digest : Bytes32} :
    strictDigest snapshot = .ok digest ↔ canonicalLedgerDigest snapshot = .ok digest :=
  mapError_eq_ok

variable [SnapshotCrate]

/-! ## Registration -/

/-- A registration that comes as far as its commit, and the entries that its child stores: it is
not refused, its child passes the gate, and the candidate is installed. -/
structure Commits (host : Host) (fork : StrictFork) (address : ScAddress) (wasm : Bytes)
    (expected : Bytes32) (args : List ScVal) (stored : StoredEntries) : Prop where
  checked : fork.checkCandidate address wasm expected = .ok ()
  gate : gateUnknown (fork.registerChild host address wasm args).2
    (fork.registerChild host address wasm args).1 = .ok stored
  installed : (fork.registerChild host address wasm args).1.result = some address

/-- What a successful registration has found and computed. -/
structure Installs (host : Host) (fork : StrictFork) (address : ScAddress) (wasm : Bytes)
    (expected : Bytes32) (args : List ScVal) (registration : CandidateRegistration)
    (stored : StoredEntries) : Prop extends
    Commits host fork address wasm expected args stored where
  transition : Transition fork.ledgerSnapshot
    (fork.childSnapshot fork.ledgerSnapshot (fork.registerChild host address wasm args).1 stored)
    registration.beforeDigest registration.afterDigest registration.stateChanges

/-- The fork after a registration. -/
def installed (host : Host) (fork : StrictFork) (address : ScAddress) (wasm : Bytes)
    (args : List ScVal) (stored : StoredEntries) (coverage : Coverage) : StrictFork :=
  { fork with
    env := { strictEnv fork.ledgerSnapshot with
      ledgerInfo := (fork.registerChild host address wasm args).1.ledgerInfo
      storedEntries := stored }
    coverage := coverage
    localContracts := insert address fork.localContracts
    localCodeHashes := insert (sha256 wasm) fork.localCodeHashes }

omit [SnapshotCrate] in
theorem updateCoverageInPlace_eq_ok {changes : List StateChange} {fork fork' : StrictFork}
    {x : Unit} : updateCoverageInPlace changes fork = .ok x fork' ↔
      ∃ coverage, updateCoverage changes fork.coverage = .ok () coverage ∧
        fork' = { fork with coverage := coverage } := by
  unfold updateCoverageInPlace
  cases updateCoverage changes fork.coverage with
  | ok _ coverage => simp [eq_comm]
  | error e coverage => simp

theorem registerCandidate_eq_ok {host : Host} {fork fork' : StrictFork} {address : ScAddress}
    {wasm : Bytes} {expected : Bytes32} {args : List ScVal} {registration : CandidateRegistration}
    (h : registerCandidate host address wasm expected args fork = .ok registration fork') :
    ∃ stored coverage, Installs host fork address wasm expected args registration stored ∧
      updateCoverage registration.stateChanges fork.coverage = .ok () coverage ∧
      fork' = installed host fork address wasm args stored coverage := by
  obtain ⟨_, _, hget, h₁⟩ := run_bind_eq_ok.mp h
  cases hget
  obtain ⟨_, hchecked, h₂⟩ := run_lift_bind_eq_ok.mp h₁
  obtain ⟨beforeDigest, hbefore, h₃⟩ := run_lift_bind_eq_ok.mp h₂
  obtain ⟨_, _, h₄⟩ := run_lift_bind_eq_ok.mp h₃
  obtain ⟨stored, hgate, h₅⟩ := run_lift_bind_eq_ok.mp h₄
  obtain ⟨address', hresult, h₆⟩ := run_lift_bind_eq_ok.mp h₅
  obtain ⟨_, hsame, h₇⟩ := run_lift_bind_eq_ok.mp h₆
  obtain rfl : address' = address := ensure_eq_ok.mp hsame
  obtain ⟨afterDigest, hafter, h₈⟩ := run_lift_bind_eq_ok.mp h₇
  obtain ⟨changes, hdiff, h₉⟩ := run_lift_bind_eq_ok.mp h₈
  obtain ⟨_, _, hupdate, h₁₀⟩ := run_bind_eq_ok.mp h₉
  obtain ⟨coverage, hcoverage, rfl⟩ := updateCoverageInPlace_eq_ok.mp hupdate
  obtain ⟨_, _, hmodify, h₁₁⟩ := run_bind_eq_ok.mp h₁₀
  cases hmodify
  obtain ⟨rfl, rfl⟩ := run_pure_eq_ok.mp h₁₁
  exact ⟨stored, coverage, ⟨⟨hchecked, hgate, orError_eq_ok.mp hresult⟩,
    strictDigest_eq_ok.mp hbefore, strictDigest_eq_ok.mp hafter, hdiff⟩, hcoverage, rfl⟩

/-- **A registration that fails leaves the fork as it was**, although it updates in place. -/
theorem registerCandidate_eq_error {host : Host} {fork fork' : StrictFork} {address : ScAddress}
    {wasm : Bytes} {expected : Bytes32} {args : List ScVal} {e : StrictForkError}
    (h : registerCandidate host address wasm expected args fork = .error e fork') :
    fork' = fork := by
  rcases run_bind_eq_error.mp h with hget | ⟨_, _, hget, h₁⟩
  · cases hget
  cases hget
  refine run_lift_bind_keeps h₁ fun _ _ h₂ => ?_
  refine run_lift_bind_keeps h₂ fun beforeDigest hbefore h₃ => ?_
  refine run_lift_bind_keeps h₃ fun _ _ h₄ => ?_
  refine run_lift_bind_keeps h₄ fun stored _ h₅ => ?_
  refine run_lift_bind_keeps h₅ fun _ _ h₆ => ?_
  refine run_lift_bind_keeps h₆ fun _ _ h₇ => ?_
  refine run_lift_bind_keeps h₇ fun afterDigest hafter h₈ => ?_
  refine run_lift_bind_keeps h₈ fun changes hdiff h₉ => ?_
  -- every change has an encoded key, so the update does not stop halfway
  have htransition : Transition _ _ beforeDigest afterDigest changes :=
    ⟨strictDigest_eq_ok.mp hbefore, strictDigest_eq_ok.mp hafter, hdiff⟩
  obtain ⟨coverage, hcoverage, _⟩ := htransition.describes.updateCoverage_spec fork.coverage
  have hupdate := (updateCoverageInPlace_eq_ok (x := ⟨⟩)).mpr ⟨coverage, hcoverage, rfl⟩
  rcases run_bind_eq_error.mp h₉ with hfail | ⟨_, _, _, h₁₀⟩
  · rw [hupdate] at hfail
    cases hfail
  rcases run_bind_eq_error.mp h₁₀ with hfail | ⟨_, _, _, h₁₁⟩
  · cases hfail
  · exact absurd h₁₁ run_pure_ne_error

/-! ## Invocation -/

/-- What an invocation that returns a receipt has found and computed. -/
structure Prepares (host : Host) (fork : StrictFork) (request : InvokeRequest)
    (execution : ExecutionMode) (auth : AuthMode) (receipt : Receipt) (after : LedgerSnapshot)
    (setup : AuthSetup) (stored : StoredEntries) : Prop where
  authorized : authSetup host (strictEnv fork.ledgerSnapshot).ledgerInfo auth = .ok setup
  gate : gateUnknown (fork.invokeChild host setup.child auth request).2
    (fork.invokeChild host setup.child auth request).1 = .ok stored
  ledger : fork.invokeAfter auth (fork.invokeChild host setup.child auth request).1 stored
    = .ok after
  transition : Transition fork.ledgerSnapshot after receipt.beforeDigest receipt.afterDigest
    receipt.stateChanges
  disposition : receipt.disposition = dispositionOf execution (commits execution receipt.outcome)

theorem prepare_eq_ok {host : Host} {fork : StrictFork} {request : InvokeRequest}
    {execution : ExecutionMode} {auth : AuthMode} {receipt : Receipt} {after : LedgerSnapshot}
    (h : fork.prepare host request execution auth = .ok (receipt, after)) :
    ∃ setup stored, Prepares host fork request execution auth receipt after setup stored := by
  unfold prepare at h
  obtain ⟨beforeDigest, hbefore, h₁⟩ := bind_eq_ok.mp h
  obtain ⟨_, _, h₂⟩ := bind_eq_ok.mp h₁
  obtain ⟨setup, hsetup, h₃⟩ := bind_eq_ok.mp h₂
  obtain ⟨stored, hgate, h₄⟩ := bind_eq_ok.mp h₃
  obtain ⟨_, _, h₅⟩ := bind_eq_ok.mp h₄
  obtain ⟨after', hafter, h₆⟩ := bind_eq_ok.mp h₅
  obtain ⟨afterDigest, hdigest, h₇⟩ := bind_eq_ok.mp h₆
  obtain ⟨changes, hdiff, h₈⟩ := bind_eq_ok.mp h₇
  obtain ⟨_, _, h₉⟩ := bind_eq_ok.mp h₈
  cases pure_eq_ok.mp h₉
  exact ⟨setup, stored, hsetup, hgate, hafter,
    ⟨strictDigest_eq_ok.mp hbefore, strictDigest_eq_ok.mp hdigest, hdiff⟩, rfl⟩

omit [Crates] [SnapshotCrate] in
/-- Only a successful `Apply` is reported as committed, and every one is. -/
theorem dispositionOf_eq_committed {execution : ExecutionMode} {outcome : InvokeOutcome} :
    dispositionOf execution (commits execution outcome) = .committed ↔
      execution = .apply ∧ outcome.isSuccess = true := by
  cases execution with
  | preview => simp [dispositionOf]
  | apply => cases hs : outcome.isSuccess <;> simp [dispositionOf, commits, hs]

omit [Crates] [SnapshotCrate] in
theorem commits_eq_true {execution : ExecutionMode} {outcome : InvokeOutcome} :
    commits execution outcome = true ↔ execution = .apply ∧ outcome.isSuccess = true := by
  unfold commits
  rw [Bool.and_eq_true, decide_eq_true_iff]

/-- The fork after a receipt that is not promoted, and after one that is. -/
def recorded (fork : StrictFork) (receipt : Receipt) : StrictFork :=
  { fork with receipts := fork.receipts ++ [receipt] }

def promoted (fork : StrictFork) (receipt : Receipt) (after : LedgerSnapshot)
    (coverage : Coverage) : StrictFork :=
  { fork with
    env := strictEnv after
    coverage := coverage
    receipts := fork.receipts ++ [receipt] }

omit [SnapshotCrate] in
theorem promote_eq_ok {changes : List StateChange} {after : LedgerSnapshot}
    {fork fork' : StrictFork} {x : Unit} : promote changes after fork = .ok x fork' ↔
      ∃ coverage, updateCoverage changes fork.coverage = .ok () coverage ∧
        fork' = { fork with coverage := coverage, env := strictEnv after } := by
  have hclone : ∀ coverage, updateCoverageClone changes fork.coverage = .ok coverage ↔
      updateCoverage changes fork.coverage = .ok () coverage := by
    intro coverage
    unfold updateCoverageClone
    cases updateCoverage changes fork.coverage <;> simp
  constructor
  · intro h
    obtain ⟨_, _, hget, h₁⟩ := run_bind_eq_ok.mp h
    cases hget
    obtain ⟨coverage, hupdate, h₂⟩ := run_lift_bind_eq_ok.mp h₁
    cases h₂
    exact ⟨coverage, (hclone coverage).mp hupdate, rfl⟩
  · rintro ⟨coverage, hupdate, rfl⟩
    exact run_bind_eq_ok.mpr ⟨fork, fork, rfl, run_bind_eq_ok.mpr
      ⟨coverage, fork, run_lift_eq_ok.mpr ⟨(hclone coverage).mpr hupdate, rfl⟩, rfl⟩⟩

theorem invoke_eq_ok {host : Host} {fork fork' : StrictFork} {request : InvokeRequest}
    {execution : ExecutionMode} {auth : AuthMode} {receipt : Receipt}
    (h : invoke host request execution auth fork = .ok receipt fork') :
    ∃ after, fork.prepare host request execution auth = .ok (receipt, after) ∧
      ((commits execution receipt.outcome = false ∧ fork' = recorded fork receipt) ∨
        commits execution receipt.outcome = true ∧ ∃ coverage,
          updateCoverage receipt.stateChanges fork.coverage = .ok () coverage ∧
          fork' = promoted fork receipt after coverage) := by
  obtain ⟨_, _, hget, h₁⟩ := run_bind_eq_ok.mp h
  cases hget
  obtain ⟨⟨receipt', after⟩, hprepare, h₂⟩ := run_lift_bind_eq_ok.mp h₁
  obtain ⟨_, fork₁, hpromote, h₃⟩ := run_bind_eq_ok.mp h₂
  obtain ⟨_, _, hpush, h₄⟩ := run_bind_eq_ok.mp h₃
  cases hpush
  obtain ⟨rfl, rfl⟩ := run_pure_eq_ok.mp h₄
  refine ⟨after, hprepare, ?_⟩
  unfold promoteIf at hpromote
  split at hpromote
  · next hc =>
    obtain ⟨coverage, hupdate, rfl⟩ := promote_eq_ok.mp hpromote
    exact Or.inr ⟨hc, coverage, hupdate, rfl⟩
  · next hc =>
    obtain ⟨_, rfl⟩ := run_pure_eq_ok.mp hpromote
    exact Or.inl ⟨by simpa using hc, rfl⟩

/-- **An invocation that fails leaves the fork as it was.** -/
theorem invoke_eq_error {host : Host} {fork fork' : StrictFork} {request : InvokeRequest}
    {execution : ExecutionMode} {auth : AuthMode} {e : StrictForkError}
    (h : invoke host request execution auth fork = .error e fork') : fork' = fork := by
  rcases run_bind_eq_error.mp h with hget | ⟨_, _, hget, h₁⟩
  · cases hget
  cases hget
  refine run_lift_bind_keeps h₁ fun prepared hprepare h₂ => ?_
  obtain ⟨receipt, after⟩ := prepared
  obtain ⟨_, _, hprepares⟩ := prepare_eq_ok hprepare
  obtain ⟨coverage, hcoverage, _⟩ :=
    hprepares.transition.describes.updateCoverage_spec fork.coverage
  rcases run_bind_eq_error.mp h₂ with hfail | ⟨_, _, _, h₃⟩
  · unfold promoteIf at hfail
    split at hfail
    · rw [(promote_eq_ok (x := ⟨⟩)).mpr ⟨coverage, hcoverage, rfl⟩] at hfail
      cases hfail
    · exact absurd hfail run_pure_ne_error
  · rcases run_bind_eq_error.mp h₃ with hfail | ⟨_, _, _, h₄⟩
    · cases hfail
    · exact absurd h₄ run_pure_ne_error

/-! ## Reverting -/

/-- The fork after a revert. -/
def reverted (fork : StrictFork) (checkpoint : StrictCheckpoint) : StrictFork :=
  { fork with
    env := strictEnv checkpoint.snapshot
    coverage := checkpoint.coverage
    localContracts := checkpoint.localContracts
    localCodeHashes := checkpoint.localCodeHashes
    receipts := [] }

omit [Crates] [SnapshotCrate] in
theorem revert_own {fork : StrictFork} {checkpoint : StrictCheckpoint}
    (h : checkpoint.forkId = fork.id) :
    revert checkpoint fork = .ok () (reverted fork checkpoint) :=
  run_bind_eq_ok.mpr ⟨fork, fork, rfl, run_bind_eq_ok.mpr
    ⟨⟨⟩, fork, run_lift_eq_ok.mpr ⟨ensure_eq_ok.mpr h, rfl⟩, rfl⟩⟩

omit [Crates] [SnapshotCrate] in
theorem revert_foreign {fork : StrictFork} {checkpoint : StrictCheckpoint}
    (h : checkpoint.forkId ≠ fork.id) :
    revert checkpoint fork = .error .checkpointMismatch fork :=
  run_bind_eq_error.mpr (Or.inr ⟨fork, fork, rfl, run_bind_eq_error.mpr (Or.inl
    (run_lift_eq_error.mpr ⟨ensure_eq_error.mpr ⟨h, rfl⟩, rfl⟩))⟩)

/-! ## One step -/

/-- What an operation may answer, and the fork it leaves. -/
inductive StepCase (host : Host) (fork : StrictFork) : StrictOp → StrictAnswer × StrictFork → Prop
  | registered {address : ScAddress} {wasm : Bytes} {expected : Bytes32} {args : List ScVal}
      {registration : CandidateRegistration} {fork' : StrictFork} :
      registerCandidate host address wasm expected args fork = .ok registration fork' →
      StepCase host fork (.registerCandidate address wasm expected args)
        (.registered (.ok registration), fork')
  | registerFailed {address : ScAddress} {wasm : Bytes} {expected : Bytes32} {args : List ScVal}
      (e : StrictForkError) : StepCase host fork (.registerCandidate address wasm expected args)
        (.registered (.error e), fork)
  | invoked {request : InvokeRequest} {execution : ExecutionMode} {auth : AuthMode}
      {receipt : Receipt} {fork' : StrictFork} :
      invoke host request execution auth fork = .ok receipt fork' →
      StepCase host fork (.invoke request execution auth) (.invoked (.ok receipt), fork')
  | invokeFailed {request : InvokeRequest} {execution : ExecutionMode} {auth : AuthMode}
      (e : StrictForkError) :
      StepCase host fork (.invoke request execution auth) (.invoked (.error e), fork)
  | checkpointed : StepCase host fork .checkpoint (.checkpointed fork.checkpoint, fork)
  | reverted {checkpoint : StrictCheckpoint} : checkpoint.forkId = fork.id →
      StepCase host fork (.revert checkpoint) (.reverted (.ok ()), reverted fork checkpoint)
  | foreign {checkpoint : StrictCheckpoint} : checkpoint.forkId ≠ fork.id →
      StepCase host fork (.revert checkpoint) (.reverted (.error .checkpointMismatch), fork)

omit [Crates] [SnapshotCrate] in
theorem resultOf_ok {α : Type} {x : StrictM α} {a : α} {fork fork' : StrictFork}
    (h : x fork = .ok a fork') : resultOf x fork = (.ok a, fork') := by
  unfold resultOf
  rw [h]

omit [Crates] [SnapshotCrate] in
theorem resultOf_error {α : Type} {x : StrictM α} {e : StrictForkError} {fork fork' : StrictFork}
    (h : x fork = .error e fork') : resultOf x fork = (.error e, fork') := by
  unfold resultOf
  rw [h]

/-- **The cases of a step.** -/
theorem strictStep_cases (host : Host) (op : StrictOp) (fork : StrictFork) :
    StepCase host fork op (strictStep host op fork) := by
  cases op with
  | registerCandidate address wasm expected args =>
    show StepCase host fork _ (.registered (resultOf _ fork).1, (resultOf _ fork).2)
    cases h : registerCandidate host address wasm expected args fork with
    | ok registration fork' => rw [resultOf_ok h]; exact .registered h
    | error e fork' =>
      rw [resultOf_error h, registerCandidate_eq_error h]
      exact .registerFailed e
  | invoke request execution auth =>
    show StepCase host fork _ (.invoked (resultOf _ fork).1, (resultOf _ fork).2)
    cases h : invoke host request execution auth fork with
    | ok receipt fork' => rw [resultOf_ok h]; exact .invoked h
    | error e fork' =>
      rw [resultOf_error h, invoke_eq_error h]
      exact .invokeFailed e
  | checkpoint => exact .checkpointed
  | revert checkpoint =>
    show StepCase host fork _ (.reverted (resultOf _ fork).1, (resultOf _ fork).2)
    by_cases h : checkpoint.forkId = fork.id
    · rw [resultOf_ok (revert_own h)]; exact .reverted h
    · rw [resultOf_error (revert_foreign h)]; exact .foreign h

end Kanatoko
