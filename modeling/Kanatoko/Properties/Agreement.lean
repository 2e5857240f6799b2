import Kanatoko.Properties.Atomic
import Kanatoko.Properties.Restore

/-!
# Preview, apply and exact authorization agree

Everything an invocation computes it computes before it looks at the execution mode, and a
record and an exact mock set up the same child. A preview adds a receipt to the fork and
changes nothing else, so what it has reported is what an apply does.
-/

namespace Kanatoko

open Fallible StrictFork

variable [Crates] [SnapshotCrate]

/-! ## What an invocation computes -/

/-- All that `prepare` finds and computes for a receipt. -/
structure Evidence (host : Host) (fork : StrictFork) (request : InvokeRequest)
    (execution : ExecutionMode) (auth : AuthMode) (receipt : Receipt) (after : LedgerSnapshot)
    (setup : AuthSetup) (stored : StoredEntries) : Prop where
  valid : host.validInvocation (strictEnv fork.ledgerSnapshot).ledgerInfo request = true
  authorized : authSetup host (strictEnv fork.ledgerSnapshot).ledgerInfo auth = .ok setup
  gate : gateUnknown (fork.invokeChild host setup.child auth request).2
    (fork.invokeChild host setup.child auth request).1 = .ok stored
  exactTrees : ∀ expected ∈ setup.expected, expected = receipt.authorization
  ledger : fork.invokeAfter auth (fork.invokeChild host setup.child auth request).1 stored
    = .ok after
  beforeDigest : strictDigest fork.ledgerSnapshot = .ok receipt.beforeDigest
  afterDigest : strictDigest after = .ok receipt.afterDigest
  stateChanges : stateDiff fork.ledgerSnapshot after = .ok receipt.stateChanges
  diagnostics : detachedDiagnostics (fork.invokeChild host setup.child auth request).1
    = .ok receipt.diagnostics
  request_eq : receipt.request = request
  outcome : receipt.outcome
    = invokeOutcome (fork.invokeChild host setup.child auth request).1.result
  authMode : receipt.authMode = setup.applied
  authorization : receipt.authorization
    = detachedAuthorization (fork.invokeChild host setup.child auth request).1
  events : receipt.events = (fork.invokeChild host setup.child auth request).1.events
  disposition : receipt.disposition = dispositionOf execution (commits execution receipt.outcome)
  upstreamReads : receipt.upstreamReads = 0

theorem prepare_iff {host : Host} {fork : StrictFork} {request : InvokeRequest}
    {execution : ExecutionMode} {auth : AuthMode} {receipt : Receipt} {after : LedgerSnapshot} :
    fork.prepare host request execution auth = .ok (receipt, after) ↔
      ∃ setup stored, Evidence host fork request execution auth receipt after setup stored := by
  constructor
  · intro h
    unfold prepare at h
    obtain ⟨beforeDigest, hbefore, h₁⟩ := bind_eq_ok.mp h
    obtain ⟨_, hvalid, h₂⟩ := bind_eq_ok.mp h₁
    obtain ⟨setup, hsetup, h₃⟩ := bind_eq_ok.mp h₂
    obtain ⟨stored, hgate, h₄⟩ := bind_eq_ok.mp h₃
    obtain ⟨_, hexact, h₅⟩ := bind_eq_ok.mp h₄
    obtain ⟨after', hafter, h₆⟩ := bind_eq_ok.mp h₅
    obtain ⟨afterDigest, hdigest, h₇⟩ := bind_eq_ok.mp h₆
    obtain ⟨changes, hdiff, h₈⟩ := bind_eq_ok.mp h₇
    obtain ⟨diagnostics, hdiagnostics, h₉⟩ := bind_eq_ok.mp h₈
    cases pure_eq_ok.mp h₉
    exact ⟨setup, stored, ensure_eq_ok.mp hvalid, hsetup, hgate, ensure_eq_ok.mp hexact, hafter,
      hbefore, hdigest, hdiff, hdiagnostics, rfl, rfl, rfl, rfl, rfl, rfl, rfl⟩
  · rintro ⟨setup, stored, h⟩
    obtain ⟨_, outcome, authMode, authorization, events, diagnostics, stateChanges, beforeDigest,
      afterDigest, disposition, upstreamReads⟩ := receipt
    obtain ⟨hvalid, hsetup, hgate, hexact, hafter, hbefore, hdigest, hdiff, hdiagnostics, hrequest,
      houtcome, hmode, hauthorization, hevents, hdisposition, hreads⟩ := h
    dsimp only at *
    subst hrequest houtcome hmode hauthorization hevents hdisposition hreads
    unfold prepare
    refine bind_eq_ok.mpr ⟨beforeDigest, hbefore, ?_⟩
    refine bind_eq_ok.mpr ⟨⟨⟩, ensure_eq_ok.mpr hvalid, ?_⟩
    refine bind_eq_ok.mpr ⟨setup, hsetup, ?_⟩
    refine bind_eq_ok.mpr ⟨stored, hgate, ?_⟩
    refine bind_eq_ok.mpr ⟨⟨⟩, ensure_eq_ok.mpr hexact, ?_⟩
    refine bind_eq_ok.mpr ⟨after, hafter, ?_⟩
    refine bind_eq_ok.mpr ⟨afterDigest, hdigest, ?_⟩
    refine bind_eq_ok.mpr ⟨stateChanges, hdiff, ?_⟩
    exact bind_eq_ok.mpr ⟨diagnostics, hdiagnostics, rfl⟩

/-- The receipt of an apply that computes what a preview has computed. -/
def Receipt.applied (receipt : Receipt) : Receipt :=
  { receipt with disposition := if receipt.outcome.isSuccess then .committed else .rejected }

omit [Crates] [SnapshotCrate] in
theorem dispositionOf_apply (outcome : InvokeOutcome) :
    dispositionOf .apply (commits .apply outcome) =
      if outcome.isSuccess then .committed else .rejected := by
  cases hs : outcome.isSuccess <;> simp [dispositionOf, commits, hs]

/-- An apply computes what the preview has computed. -/
theorem Evidence.apply {host : Host} {fork : StrictFork} {request : InvokeRequest}
    {auth : AuthMode} {receipt : Receipt} {after : LedgerSnapshot} {setup : AuthSetup}
    {stored : StoredEntries}
    (h : Evidence host fork request .preview auth receipt after setup stored) :
    Evidence host fork request .apply auth receipt.applied after setup stored :=
  { h with disposition := (dispositionOf_apply receipt.outcome).symm }

/-- The recorded trees are the ones that the same child is found to need. -/
theorem Evidence.mockExact {host : Host} {fork : StrictFork} {request : InvokeRequest}
    {execution : ExecutionMode} {receipt : Receipt} {after : LedgerSnapshot} {setup : AuthSetup}
    {stored : StoredEntries}
    (h : Evidence host fork request execution .record receipt after setup stored) :
    Evidence host fork request execution (.mockExact receipt.authorization)
      { receipt with authMode := .mockExact } after
      ⟨.mockAllAuths, .mockExact, some receipt.authorization⟩ stored := by
  have hsetup : setup = ⟨.mockAllAuths, .recordMockSatisfied, none⟩ :=
    (pure_eq_ok.mp h.authorized).symm
  subst hsetup
  refine { h with authorized := rfl, exactTrees := ?_, authMode := rfl }
  intro expected hexpected
  exact (Option.some.inj hexpected).symm

/-! ## What a preview leaves -/

/-- A preview leaves no trace but its receipt. -/
theorem preview_sameView (host : Host) (request : InvokeRequest) (auth : AuthMode)
    (fork : StrictFork) : SameView (strictStep host (.invoke request .preview auth) fork).2 fork := by
  have hcase := strictStep_cases host (.invoke request .preview auth) fork
  generalize strictStep host (.invoke request .preview auth) fork = result at hcase
  cases hcase with
  | invokeFailed => exact ⟨rfl, rfl⟩
  | invoked h =>
    obtain ⟨after, _, ⟨_, rfl⟩ | ⟨hcommits, _⟩⟩ := invoke_eq_ok h
    · exact ⟨rfl, rfl⟩
    · rw [commits_eq_true] at hcommits
      exact absurd hcommits.1 (by decide)

/-- The previews of a list of requests. -/
def previews (requests : List (InvokeRequest × AuthMode)) : List StrictOp :=
  requests.map fun r => .invoke r.1 .preview r.2

theorem previews_sameView (host : Host) (requests : List (InvokeRequest × AuthMode))
    (fork : StrictFork) :
    SameView (Machine.run (strictStep host) (previews requests) fork).2 fork := by
  have hstep : ∀ op ∈ previews requests, ∀ s : StrictFork, SameView s fork →
      SameView (strictStep host op s).2 fork := by
    intro op hop s hs
    obtain ⟨r, _, rfl⟩ := List.mem_map.mp hop
    have hpreview := preview_sameView host r.1 r.2 s
    exact ⟨hpreview.checkpoint.trans hs.checkpoint,
      hpreview.networkProtocolVersion.trans hs.networkProtocolVersion⟩
  exact Machine.run_invariant hstep fork ⟨rfl, rfl⟩

/-! ## What an apply leaves -/

theorem invoke_of_prepare {host : Host} {fork : StrictFork} {request : InvokeRequest}
    {execution : ExecutionMode} {auth : AuthMode} {receipt : Receipt} {after : LedgerSnapshot}
    (h : fork.prepare host request execution auth = .ok (receipt, after)) :
    ∃ fork', invoke host request execution auth fork = .ok receipt fork' := by
  -- every change has an encoded key, so the promotion cannot fail
  obtain ⟨_, _, hprepares⟩ := prepare_eq_ok h
  obtain ⟨coverage, hupdate, _⟩ := hprepares.transition.describes.updateCoverage_spec fork.coverage
  have hpromote : ∃ fork₁, promoteIf (commits execution receipt.outcome) receipt.stateChanges after
      fork = .ok ⟨⟩ fork₁ := by
    unfold promoteIf
    split
    · exact ⟨_, promote_eq_ok.mpr ⟨coverage, hupdate, rfl⟩⟩
    · exact ⟨fork, rfl⟩
  obtain ⟨fork₁, hpromote⟩ := hpromote
  refine ⟨recorded fork₁ receipt, run_bind_eq_ok.mpr ⟨fork, fork, rfl, ?_⟩⟩
  refine run_bind_eq_ok.mpr ⟨(receipt, after), fork, run_lift_eq_ok.mpr ⟨h, rfl⟩, ?_⟩
  exact run_bind_eq_ok.mpr ⟨⟨⟩, fork₁, hpromote, rfl⟩

/-- After an apply the fork is at the digest after the call, or where it was. -/
theorem applied_digest [LawfulSnapshotCrate] {host : Host} (hhost : host.KeepsHeader)
    {fork fork' : StrictFork} (hprotocol : InNetworkProtocol fork) {request : InvokeRequest}
    {auth : AuthMode} {receipt : Receipt}
    (h : invoke host request .apply auth fork = .ok receipt fork') :
    fork'.ledgerDigest = .ok
      (if receipt.outcome.isSuccess then receipt.afterDigest else receipt.beforeDigest) := by
  obtain ⟨after, _, htransition, _, hcommitted, hafter, hbefore, _⟩ :=
    invoke_ledger hhost hprotocol h
  unfold StrictFork.ledgerDigest
  by_cases hs : receipt.outcome.isSuccess = true
  · rw [hafter (hcommitted.mpr ⟨rfl, hs⟩), if_pos hs]
    exact htransition.digestAfter
  · rw [hbefore fun hc => hs (hcommitted.mp hc).2, if_neg hs]
    exact htransition.digestBefore

/-! ## The result -/

/--
**A preview says what an apply does, and records what an exact mock accepts.**

On every reachable fork: after a preview that returned a receipt, and any further previews, an
apply returns the receipt with its disposition, and leaves the fork at the digest after the
call exactly when the call succeeded. When the preview recorded, an apply that expects the
recorded trees never finds a mismatch and returns the same receipt under its own mode.
-/
theorem preview_agrees [LawfulSnapshotCrate] {host : Host} (hhost : host.KeepsHeader)
    {f : CapturedFixture} {id : UInt64} {fork previewed : StrictFork}
    {taken : List StrictCheckpoint} (h : Reachable host f id fork taken)
    {request : InvokeRequest} {auth : AuthMode} {receipt : Receipt}
    (hpreview : invoke host request .preview auth fork = .ok receipt previewed)
    (others : List (InvokeRequest × AuthMode)) :
    (∃ fork', invoke host request .apply auth
        (Machine.run (strictStep host) (previews others) previewed).2
          = .ok receipt.applied fork' ∧
      fork'.ledgerDigest = .ok
        (if receipt.outcome.isSuccess then receipt.afterDigest else receipt.beforeDigest)) ∧
    (auth = .record → ∃ fork', invoke host request .apply (.mockExact receipt.authorization)
        (Machine.run (strictStep host) (previews others) previewed).2
          = .ok { receipt.applied with authMode := .mockExact } fork' ∧
      fork'.ledgerDigest = .ok
        (if receipt.outcome.isSuccess then receipt.afterDigest else receipt.beforeDigest)) := by
  obtain ⟨after, hprepare, _⟩ := invoke_eq_ok hpreview
  obtain ⟨setup, stored, hevidence⟩ := prepare_iff.mp hprepare
  have hpreviewed : SameView previewed fork := by
    have hview := preview_sameView host request auth fork
    have hstep : (strictStep host (.invoke request .preview auth) fork).2 = previewed := by
      show (resultOf _ fork).2 = previewed
      rw [resultOf_ok hpreview]
    rw [hstep] at hview
    exact hview
  have hrun := previews_sameView host others previewed
  generalize (Machine.run (strictStep host) (previews others) previewed).2 = now at hrun
  have hnow : SameView now fork := ⟨hrun.checkpoint.trans hpreviewed.checkpoint,
    hrun.networkProtocolVersion.trans hpreviewed.networkProtocolVersion⟩
  have hprotocol : InNetworkProtocol now := by
    unfold InNetworkProtocol
    rw [hnow.ledgerSnapshot, hnow.networkProtocolVersion]
    exact h.inNetworkProtocol hhost
  constructor
  · have happly : now.prepare host request .apply auth = .ok (receipt.applied, after) := by
      rw [hnow.prepare_eq]
      exact prepare_iff.mpr ⟨setup, stored, hevidence.apply⟩
    obtain ⟨fork', hinvoke⟩ := invoke_of_prepare happly
    have hdigest := applied_digest hhost hprotocol hinvoke
    exact ⟨fork', hinvoke, hdigest⟩
  · rintro rfl
    have happly : now.prepare host request .apply (.mockExact receipt.authorization)
        = .ok ({ receipt.applied with authMode := .mockExact }, after) := by
      rw [hnow.prepare_eq]
      exact prepare_iff.mpr ⟨_, stored, hevidence.apply.mockExact⟩
    obtain ⟨fork', hinvoke⟩ := invoke_of_prepare happly
    have hdigest := applied_digest hhost hprotocol hinvoke
    exact ⟨fork', hinvoke, hdigest⟩

end Kanatoko

namespace Kanatoko.Testnet

open StrictFork

/-- A fork of the captured native asset previews a funding. -/
theorem native_preview : ∃ f fork previewed receipt, Captured .exact f ∧
    Reachable nativeHost f 1 fork [] ∧
    invoke nativeHost fundingRequest .preview .record fork = .ok receipt previewed ∧
    receipt.outcome.isSuccess = true := by
  have h : (match nativeBuilder.captureRefFromKeys nativeScenario .empty nativeWorld with
    | .ok f _ =>
      match invoke nativeHost fundingRequest .preview .record
        (.fromCaptured 1 f.fixture.snapshot f.coverage) with
      | .ok receipt _ => receipt.outcome.isSuccess
      | .error _ _ => false
    | .error _ _ => false) = true := by decide +kernel
  split at h
  · next f w' hcapture =>
    split at h
    · next receipt previewed hpreview =>
      exact ⟨f, _, previewed, receipt, .capture _ _ _ _ _ rfl hcapture, .fork, hpreview, h⟩
    · cases h
  · cases h

/-- What follows the preview of a funding. -/
theorem native_preview_agrees : ∃ f fork previewed receipt fork', Captured .exact f ∧
    invoke nativeHost fundingRequest .preview .record fork = .ok receipt previewed ∧
    receipt.outcome.isSuccess = true ∧
    invoke nativeHost fundingRequest .apply (.mockExact receipt.authorization) previewed
      = .ok { receipt.applied with authMode := .mockExact } fork' ∧
    fork'.ledgerDigest = .ok receipt.afterDigest := by
  obtain ⟨f, fork, previewed, receipt, hf, hreach, hpreview, hsuccess⟩ := native_preview
  obtain ⟨_, hexact⟩ := preview_agrees nativeHost_keepsHeader hreach hpreview []
  obtain ⟨fork', happly, hdigest⟩ := hexact rfl
  rw [if_pos hsuccess] at hdigest
  exact ⟨f, fork, previewed, receipt, fork', hf, hpreview, hsuccess, happly, hdigest⟩

end Kanatoko.Testnet
