import Kanatoko.Properties.Mirror
import Kanatoko.Testnet.Host

/-!
# Unknown stays unknown

A child goes on with an unknown key as if it were absent, so nothing it ends with may be
trusted before the gate. Behind the gate, a coverage grows only by keys of candidates.
-/

namespace Kanatoko

open Fallible Adaptive Knowledge StrictFork

variable [Crates]

/-! ## What a child touches -/

/-- Every key a child asks for has an encoding. -/
structure Host.EncodableKeys (host : Host) : Prop where
  invoke : ∀ info auth request,
    (host.invoke info auth request).AllOps fun key => (ledgerKeyToXdr key).isSome
  register : ∀ info address wasm args,
    (host.register info address wasm args).AllOps fun key => (ledgerKeyToXdr key).isSome

/-- The child reads the key through its source, or ends with it in its stored entries. -/
def ChildTouches {α : Type} (c : ChildClient α) (source : StrictSource) (key : LedgerKey) : Prop :=
  key ∈ c.asked StrictSource.get source ∨
    ∃ stored, (c.run StrictSource.get source).1.storedEntries = some stored ∧ key ∈ stored.keys

/-- A key that was read is known, or has been recorded as unknown. -/
def Recorded (key : LedgerKey) (source : StrictSource) : Prop :=
  ∃ id, ledgerKeyToXdr key = some id ∧ (source.knows key id ∨ id ∈ source.unknown)

theorem recorded_get (key : LedgerKey) (source : StrictSource)
    (henc : (ledgerKeyToXdr key).isSome) : Recorded key (StrictSource.get key source).2 := by
  obtain ⟨id, hid⟩ := Option.isSome_iff_exists.mp henc
  refine ⟨id, hid, ?_⟩
  unfold StrictSource.get
  rw [hid]
  dsimp only
  split
  · next state hstate =>
    refine Or.inl (Or.inl ?_)
    rw [Std.ExtTreeMap.mem_iff_isSome_getElem?, hstate]
    rfl
  · split
    · next hlocal => exact Or.inl (Or.inr hlocal)
    · exact Or.inr (Std.ExtTreeSet.mem_insert.mpr (Or.inl Std.ReflCmp.compare_self))

theorem recorded_keep (key key' : LedgerKey) (source : StrictSource) (h : Recorded key source) :
    Recorded key (StrictSource.get key' source).2 := by
  obtain ⟨id, hid, hcase⟩ := h
  refine ⟨id, hid, ?_⟩
  unfold StrictSource.get
  split
  · exact hcase
  · split
    · exact hcase
    · split
      · exact hcase
      · exact hcase.imp_right fun hu => Std.ExtTreeSet.mem_insert.mpr (Or.inr hu)

/-- **The gate stops a child that has touched an unknown key.** -/
theorem gateUnknown_touched {α : Type} {c : ChildClient α} {source : StrictSource}
    (henc : c.AllOps fun key => (ledgerKeyToXdr key).isSome) {stored : StoredEntries}
    (h : gateUnknown (c.run StrictSource.get source).2 (c.run StrictSource.get source).1
      = .ok stored) {key : LedgerKey} (hkey : ChildTouches c source key) :
    ∃ id, ledgerKeyToXdr key = some id ∧ source.knows key id := by
  obtain ⟨hstored, hempty, hgate⟩ := gateUnknown_eq_ok h
  rcases hkey with hread | ⟨stored', hstored', hmem⟩
  · obtain ⟨id, hid, hcase⟩ := Client.run_asked recorded_get recorded_keep c henc source key hread
    refine ⟨id, hid, (strictSource_run_knows c source key id).mp (hcase.resolve_right ?_)⟩
    rw [hempty]
    exact Std.ExtTreeSet.not_mem_empty
  · cases hstored.symm.trans hstored'
    obtain ⟨id, hid, hknows⟩ := hgate key hmem
    exact ⟨id, hid, (strictSource_run_knows c source key id).mp hknows⟩

variable [SnapshotCrate]

/-- The child of an invocation, and of a registration, as a client of its source. -/
def invokeClient (host : Host) (fork : StrictFork) (childAuth : ChildAuth)
    (request : InvokeRequest) : ChildClient RawCall :=
  host.invoke (strictEnv fork.ledgerSnapshot).ledgerInfo childAuth request

def registerClient (host : Host) (fork : StrictFork) (address : ScAddress) (wasm : Bytes)
    (args : List ScVal) : ChildClient (Option ScAddress) :=
  host.register (strictEnv fork.ledgerSnapshot).ledgerInfo address wasm args

/-- An invocation whose child has touched an unknown key fails. -/
theorem invoke_unknown {host : Host} (hhost : host.EncodableKeys) {fork : StrictFork}
    {request : InvokeRequest} {execution : ExecutionMode} {auth : AuthMode} {key : LedgerKey}
    (hkey : ∀ setup, authSetup host (strictEnv fork.ledgerSnapshot).ledgerInfo auth = .ok setup →
      ChildTouches (invokeClient host fork setup.child request) (fork.invokeSource auth) key)
    (hunknown : ∀ id, ledgerKeyToXdr key = some id → id ∉ fork.coverage ∧
      isLocalKey key fork.localContracts fork.localCodeHashes (allowMockNonces auth) = false) :
    ∃ e, invoke host request execution auth fork = .error e fork := by
  cases h : invoke host request execution auth fork with
  | error e fork' => exact ⟨e, by rw [invoke_eq_error h]⟩
  | ok receipt fork' =>
    obtain ⟨after, hprepare, _⟩ := invoke_eq_ok h
    obtain ⟨setup, stored, hprepares⟩ := prepare_eq_ok hprepare
    obtain ⟨id, hid, hknows⟩ := gateUnknown_touched (hhost.invoke _ _ _) hprepares.gate
      (hkey setup hprepares.authorized)
    obtain ⟨hcov, hlocal⟩ := hunknown id hid
    rcases hknows with hk | hk
    · exact absurd hk hcov
    · cases hk.symm.trans hlocal

/-- A registration whose child has touched an unknown key fails. -/
theorem registerCandidate_unknown {host : Host} (hhost : host.EncodableKeys) {fork : StrictFork}
    {address : ScAddress} {wasm : Bytes} {expected : Bytes32} {args : List ScVal}
    {key : LedgerKey}
    (hkey : ChildTouches (registerClient host fork address wasm args)
      (fork.registerSource address wasm) key)
    (hunknown : ∀ id, ledgerKeyToXdr key = some id → id ∉ fork.coverage ∧
      isLocalKey key (insert address fork.localContracts)
        (insert (sha256 wasm) fork.localCodeHashes) false = false) :
    ∃ e, registerCandidate host address wasm expected args fork = .error e fork := by
  cases h : registerCandidate host address wasm expected args fork with
  | error e fork' => exact ⟨e, by rw [registerCandidate_eq_error h]⟩
  | ok registration fork' =>
    obtain ⟨stored, _, hinstalls, _⟩ := registerCandidate_eq_ok h
    obtain ⟨id, hid, hknows⟩ := gateUnknown_touched (hhost.register _ _ _ _) hinstalls.gate hkey
    obtain ⟨hcov, hlocal⟩ := hunknown id hid
    rcases hknows with hk | hk
    · exact absurd hk hcov
    · cases hk.symm.trans hlocal

/-! ## What a coverage grows by -/

/-- Every covered key was captured, or is owned by a candidate. -/
def OnlyCandidates (f : CapturedFixture) (s : StrictCheckpoint) : Prop :=
  ∀ id ∈ s.coverage, id ∈ f.coverage ∨ ∃ key, ledgerKeyToXdr key = some id ∧
    isLocalKey key s.localContracts s.localCodeHashes false = true

omit [Crates] [SnapshotCrate] in
theorem isLocalKey_mono {key : LedgerKey} {contracts contracts' : Finset ScAddress}
    {codeHashes codeHashes' : Finset Bytes32} {allow : Bool} (hcontracts : contracts ⊆ contracts')
    (hcodeHashes : codeHashes ⊆ codeHashes')
    (h : isLocalKey key contracts codeHashes allow = true) :
    isLocalKey key contracts' codeHashes' allow = true := by
  cases key with
  | contractData data =>
    simp only [isLocalKey, Bool.or_eq_true, decide_eq_true_iff] at h ⊢
    exact h.imp_left fun hmem => hcontracts hmem
  | contractCode hash =>
    simp only [isLocalKey, decide_eq_true_iff] at h ⊢
    exact hcodeHashes h
  | _ => cases h

omit [SnapshotCrate] in
/-- **A transition adds only keys of candidates.** -/
theorem OnlyCandidates.advance {f : CapturedFixture} {s s' : StrictCheckpoint}
    (h : OnlyCandidates f s) (hmirror : MirrorsLedger s) (hadv : Advances s s') :
    OnlyCandidates f s' := by
  have hold : ∀ id ∈ s.coverage, id ∈ f.coverage ∨ ∃ key, ledgerKeyToXdr key = some id ∧
      isLocalKey key s'.localContracts s'.localCodeHashes false = true := by
    intro id hid
    refine (h id hid).imp_right ?_
    rintro ⟨key, hkey, hlocal⟩
    exact ⟨key, hkey, isLocalKey_mono hadv.contracts hadv.codeHashes hlocal⟩
  intro id hid
  rw [← known_ne_none, hadv.coverage] at hid
  rcases hmirror.mirror.mem_patch hid with hcov | ⟨value, hnone, hvalue⟩
  · exact hold id (known_ne_none.mp hcov)
  · obtain ⟨_, hdigest⟩ := hadv.digest
    obtain ⟨key, hkey, hmem⟩ := (canonical_of_digest hdigest).keyed.held_eq_some_iff.mp hvalue
    rcases hadv.added _ hmem id hkey hnone with hcov | hlocal
    · exact hold id hcov
    · exact Or.inr ⟨key, hkey, hlocal⟩

/-- The candidates that are registered after an operation, by what it was and what it answered. -/
def candidatesAfter (fork : StrictFork) :
    StrictOp → StrictAnswer → Finset ScAddress × Finset Bytes32
  | .registerCandidate address wasm _ _, .registered (.ok _) =>
    (insert address fork.localContracts, insert (sha256 wasm) fork.localCodeHashes)
  | .revert checkpoint, .reverted (.ok _) =>
    (checkpoint.localContracts, checkpoint.localCodeHashes)
  | _, _ => (fork.localContracts, fork.localCodeHashes)

/-- Only a successful registration or a revert changes which candidates are registered. -/
theorem strictStep_candidates (host : Host) (op : StrictOp) (fork : StrictFork) :
    ((strictStep host op fork).2.localContracts, (strictStep host op fork).2.localCodeHashes)
      = candidatesAfter fork op (strictStep host op fork).1 := by
  have hcase := strictStep_cases host op fork
  generalize strictStep host op fork = result at hcase
  cases hcase with
  | registered h =>
    obtain ⟨_, _, _, _, rfl⟩ := registerCandidate_eq_ok h
    rfl
  | invoked h =>
    obtain ⟨_, _, ⟨_, rfl⟩ | ⟨_, _, _, rfl⟩⟩ := invoke_eq_ok h
    · rfl
    · rfl
  | registerFailed | invokeFailed | checkpointed | reverted | foreign => rfl

/--
**Unknown stays unknown.**

An invocation or a registration whose child has read or stored an unknown key fails and leaves
the fork as it was. In every reachable state each covered key was captured, or is owned by a
candidate that is registered.
-/
theorem unknown_stays_unknown [LawfulCrates] [LawfulSnapshotCrate] [BundleCrates]
    {policy : ProtocolPolicy} {f : CapturedFixture} (hf : Captured policy f ∨ Loaded policy f)
    {host : Host} (hheader : host.KeepsHeader) (hkeys : host.EncodableKeys) {id : UInt64}
    {fork : StrictFork} {taken : List StrictCheckpoint} (h : Reachable host f id fork taken) :
    (∀ request execution auth key,
      (∀ setup, authSetup host (strictEnv fork.ledgerSnapshot).ledgerInfo auth = .ok setup →
        ChildTouches (invokeClient host fork setup.child request) (fork.invokeSource auth) key) →
      (∀ keyXdr, ledgerKeyToXdr key = some keyXdr → keyXdr ∉ fork.coverage ∧
        isLocalKey key fork.localContracts fork.localCodeHashes (allowMockNonces auth) = false) →
      ∃ e, invoke host request execution auth fork = .error e fork) ∧
    (∀ address wasm expected args key,
      ChildTouches (registerClient host fork address wasm args)
        (fork.registerSource address wasm) key →
      (∀ keyXdr, ledgerKeyToXdr key = some keyXdr → keyXdr ∉ fork.coverage ∧
        isLocalKey key (insert address fork.localContracts)
          (insert (sha256 wasm) fork.localCodeHashes) false = false) →
      ∃ e, registerCandidate host address wasm expected args fork = .error e fork) ∧
    (∀ keyXdr ∈ fork.coverage, keyXdr ∈ f.coverage ∨ ∃ key, ledgerKeyToXdr key = some keyXdr ∧
      isLocalKey key fork.localContracts fork.localCodeHashes false = true) ∧
    ∀ op, ((strictStep host op fork).2.localContracts, (strictStep host op fork).2.localCodeHashes)
      = candidatesAfter fork op (strictStep host op fork).1 := by
  have hsound : Sound policy f := hf.elim Captured.sound Loaded.sound
  refine ⟨fun request execution auth key => invoke_unknown hkeys,
    fun address wasm expected args key => registerCandidate_unknown hkeys, ?_,
    fun op => strictStep_candidates host op fork⟩
  have hinv := h.induct (P := fun s => MirrorsLedger s ∧ OnlyCandidates f s) hheader
    ⟨hsound.mirrors _ (networkLedgerSnapshot_forkEnv _) rfl, fun _ hid => Or.inl hid⟩
    (fun s s' hs hadv => ⟨hs.1.advance hadv, hs.2.advance hs.1 hadv⟩)
  exact hinv.2.1.2.2

end Kanatoko

namespace Kanatoko.Testnet

open Fallible Adaptive Knowledge StrictFork

theorem nativeHost_encodableKeys : nativeHost.EncodableKeys where
  invoke _ _ _ := ⟨by decide +kernel, fun _ => trivial⟩
  register _ _ _ _ := trivial

/-- A funded fork of the native asset covers nothing that was not captured or registered. -/
theorem native_unknown_stays_unknown : ∃ f fork taken, Captured .exact f ∧
    Reachable nativeHost f 1 fork taken ∧ taken ≠ [] ∧
    ∀ keyXdr ∈ fork.coverage, keyXdr ∈ f.coverage ∨ ∃ key, ledgerKeyToXdr key = some keyXdr ∧
      isLocalKey key fork.localContracts fork.localCodeHashes false = true := by
  obtain ⟨f, w', hcapture, _⟩ := native_captured
  obtain ⟨fork, taken, hreach, htaken⟩ := nativeHost_reachable f
  have hf : Captured .exact f := .capture _ _ _ _ _ rfl hcapture
  exact ⟨f, fork, taken, hf, hreach, htaken, (unknown_stays_unknown (Or.inl hf)
    nativeHost_keepsHeader nativeHost_encodableKeys hreach).2.2.1⟩

end Kanatoko.Testnet
