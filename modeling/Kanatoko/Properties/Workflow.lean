import Kanatoko.Properties.Agreement
import Kanatoko.Properties.RoundTrip
import Kanatoko.Testnet.Pool

/-!
# The workflow restores what it has found

The workflow checks itself at several places. Some of these checks can only succeed: a fork
that was reverted repeats its first quote, and an exact mock finds what the preview recorded.
-/

namespace Kanatoko

open Fallible StrictFork

variable [Crates]

/-! ## The errors of an operation -/

/-- Anything but a failed comparison with a checkpoint or with expected trees. -/
def StrictForkError.Plain (e : StrictForkError) : Prop :=
  e ≠ .checkpointMismatch ∧ e ≠ .authTreeMismatch

instance (e : StrictForkError) : Decidable e.Plain := by
  unfold StrictForkError.Plain
  infer_instance

theorem strictKeyId_plain (key : LedgerKey) : Errs StrictForkError.Plain (strictKeyId key) :=
  .orError (by decide)

theorem strictDigest_plain (snapshot : LedgerSnapshot) :
    Errs StrictForkError.Plain (strictDigest snapshot) :=
  .mapError fun _ => ⟨nofun, nofun⟩

theorem storedUnknown_plain (source : StrictSource) :
    ∀ (keys : List LedgerKey) (unknown : Std.ExtTreeSet KeyId),
      Errs StrictForkError.Plain (storedUnknown source keys unknown)
  | [], _ => .pure _
  | key :: rest, _ => .bind (strictKeyId_plain key) fun _ _ => storedUnknown_plain source rest _

theorem gateUnknown_plain {α : Type} (source : StrictSource) (childEnd : ChildEnd α) :
    Errs StrictForkError.Plain (gateUnknown source childEnd) := by
  refine .bind ?_ fun _ _ => .bind (.ensure ⟨nofun, nofun⟩) fun _ _ => .pure _
  refine .bind (.orError (by decide)) fun _ _ => ?_
  exact .bind (storedUnknown_plain source _ _) fun _ _ => .pure _

theorem keepOldNonces_plain (nonces : List KeyId) : ∀ entries : List SnapshotEntry,
    Errs StrictForkError.Plain (keepOldNonces nonces entries)
  | [] => .pure _
  | x :: rest => by
    have hrest := keepOldNonces_plain nonces rest
    unfold keepOldNonces
    split
    · exact .bind (strictKeyId_plain _) fun _ _ => .bind hrest fun _ _ => .pure _
    · exact .bind hrest fun _ _ => .pure _

theorem stripNewMockNonces_plain (before after : LedgerSnapshot) :
    Errs StrictForkError.Plain (stripNewMockNonces before after) :=
  .bind (.mapM fun _ _ => strictKeyId_plain _) fun nonces _ =>
    .bind (keepOldNonces_plain nonces _) fun _ _ => .pure _

theorem collectSnapshot_plain : ∀ (entries : List SnapshotEntry) (map : SnapshotMap),
    Errs StrictForkError.Plain (collectSnapshot entries map)
  | [], _ => .pure _
  | (key, _, _) :: rest, _ =>
    .bind (strictKeyId_plain key) fun _ _ => collectSnapshot_plain rest _

theorem stateDiff_plain (before after : LedgerSnapshot) :
    Errs StrictForkError.Plain (stateDiff before after) := by
  refine .bind (collectSnapshot_plain _ _) fun _ _ => .bind (collectSnapshot_plain _ _) fun _ _ => ?_
  refine .bind (.mapM fun id _ => ?_) fun _ _ => .pure _
  unfold changeOf
  dsimp only
  split
  · exact .pure _
  · exact .bind (.orError (by decide)) fun _ _ => .pure _

variable [SnapshotCrate]

theorem invokeAfter_plain (fork : StrictFork) (auth : AuthMode) (childEnd : ChildEnd RawCall)
    (stored : StoredEntries) : Errs StrictForkError.Plain (fork.invokeAfter auth childEnd stored) := by
  unfold invokeAfter
  dsimp only
  split
  · exact stripNewMockNonces_plain _ _
  · exact .pure _

/-- Nothing is compared with expected trees unless an exact mock expects them. -/
theorem prepare_plain (host : Host) (fork : StrictFork) (request : InvokeRequest)
    (execution : ExecutionMode) {auth : AuthMode} (hauth : ∀ expected, auth ≠ .mockExact expected) :
    Errs StrictForkError.Plain (fork.prepare host request execution auth) := by
  refine .bind (strictDigest_plain _) fun _ _ => .bind (.ensure (by decide)) fun _ _ => ?_
  have hsetup : Errs StrictForkError.Plain
      (authSetup host (strictEnv fork.ledgerSnapshot).ledgerInfo auth) := by
    cases auth with
    | record => exact .pure _
    | mockExact expected => exact absurd rfl (hauth expected)
    | enforce entries => exact .bind (.ensure (by decide)) fun _ _ => .pure _
  refine .bind hsetup fun setup hok => .bind (gateUnknown_plain _ _) fun stored _ => ?_
  have hexpected : setup.expected = none := by
    cases auth with
    | record => exact congrArg AuthSetup.expected (pure_eq_ok.mp hok).symm
    | mockExact expected => exact absurd rfl (hauth expected)
    | enforce entries =>
      obtain ⟨_, _, hpure⟩ := bind_eq_ok.mp hok
      exact congrArg AuthSetup.expected (pure_eq_ok.mp hpure).symm
  refine .bind (fun e he => ?_) fun _ _ => .bind (invokeAfter_plain _ _ _ _) fun _ _ => ?_
  · obtain ⟨hnot, _⟩ := ensure_eq_error.mp he
    rw [hexpected] at hnot
    exact absurd (fun _ h => by cases h) hnot
  refine .bind (strictDigest_plain _) fun _ _ => .bind (stateDiff_plain _ _) fun _ _ => ?_
  refine .bind ?_ fun _ _ => .pure _
  exact .bind (.orError (by decide)) fun _ _ => .pure _

/-- An invocation that fails has failed before the fork was touched. -/
theorem prepare_eq_error {host : Host} {fork fork' : StrictFork} {request : InvokeRequest}
    {execution : ExecutionMode} {auth : AuthMode} {e : StrictForkError}
    (h : invoke host request execution auth fork = .error e fork') :
    fork.prepare host request execution auth = .error e := by
  cases hprepare : fork.prepare host request execution auth with
  | ok prepared =>
    obtain ⟨receipt, after⟩ := prepared
    obtain ⟨_, hok⟩ := invoke_of_prepare hprepare
    cases hok.symm.trans h
  | error e' =>
    rcases run_bind_eq_error.mp h with hget | ⟨_, _, hget, h₁⟩
    · cases hget
    cases hget
    rcases run_bind_eq_error.mp h₁ with hlift | ⟨_, _, hlift, _⟩
    · exact hprepare.symm.trans (run_lift_eq_error.mp hlift).1
    · cases hprepare.symm.trans (run_lift_eq_ok.mp hlift).1

/-! ## Steps of the workflow -/

omit [SnapshotCrate] in
theorem updateCoverage_plain : ∀ changes : List StateChange,
    Triple (fun _ => True) (updateCoverage changes) (fun _ _ => True) (fun e _ => e.Plain)
  | [] => .pure fun _ h => h
  | change :: rest => by
    refine .bind (.lift_errs (strictKeyId_plain change.key)) fun id => ?_
    refine .bind (Q := fun _ _ => True) ⟨fun _ _ _ _ _ => trivial, fun _ _ _ _ h => ?_⟩ fun _ => ?_
    · cases h
    · exact updateCoverage_plain rest

theorem registerCandidate_plain (host : Host) (address : ScAddress) (wasm : Bytes)
    (expected : Bytes32) (args : List ScVal) :
    Triple (fun _ => True) (registerCandidate host address wasm expected args)
      (fun _ _ => True) (fun e _ => e.Plain) := by
  refine .bind (Q := fun _ _ => True) ⟨fun _ _ _ _ _ => trivial, fun _ _ _ _ h => by cases h⟩
    fun fork => ?_
  have hcheck : Errs StrictForkError.Plain (fork.checkCandidate address wasm expected) :=
    .bind (.ensure (by decide)) fun _ _ => .bind (.ensure ⟨nofun, nofun⟩) fun _ _ =>
      .bind (strictKeyId_plain _) fun _ _ => .ensure (by decide)
  refine .bind (.lift_errs hcheck) fun _ => .bind (.lift_errs (strictDigest_plain _)) fun _ => ?_
  refine .bind (.lift_errs (.ensure (by decide))) fun _ => ?_
  refine .bind (.lift_errs (gateUnknown_plain _ _)) fun stored => ?_
  refine .bind (.lift_errs (.orError (by decide))) fun _ => ?_
  refine .bind (.lift_errs (.ensure (by decide))) fun _ => ?_
  refine .bind (.lift_errs (strictDigest_plain _)) fun _ => ?_
  refine .bind (.lift_errs (stateDiff_plain _ _)) fun changes => ?_
  refine .bind (Q := fun _ _ => True) ⟨fun _ _ _ _ _ => trivial, fun s e s' _ h => ?_⟩ fun _ => ?_
  · unfold updateCoverageInPlace at h
    split at h
    · cases h
    · next hcoverage =>
      cases h
      exact (updateCoverage_plain changes).error trivial hcoverage
  · exact .bind (Q := fun _ _ => True) ⟨fun _ _ _ _ _ => trivial, fun _ _ _ _ h => by cases h⟩
      fun _ => .pure fun _ h => h

namespace Workflow

/-- The errors that the checks of a workflow on itself stand for, and a broken digest. -/
def Error.Excluded : Error → Prop
  | .message text => text ∈ ["checkpoint revert did not restore the initial quote",
      "strict offline run reported an upstream read", "receipt has no successful result"]
  | .strict e => ¬ e.Plain
  | .fixture _ => True
  | .tryFromInt => True
  | _ => False

/-- From `P` a step ends in `Q`, or stops with an error that is not excluded. -/
abbrev Spec {α : Type} (P : StrictFork → Prop) (x : RunM α) (Q : α → StrictFork → Prop) : Prop :=
  Triple P x Q fun e _ => ¬ e.Excluded

omit [Crates] [SnapshotCrate] in
theorem onFork_spec {α : Type} {P : StrictFork → Prop} {x : StrictM α}
    {Q : α → StrictFork → Prop} (h : Triple P x Q fun e _ => e.Plain) : Spec P (onFork x) Q where
  ok := by
    intro s a s' hs hrun
    obtain ⟨_, hx, rfl⟩ := focus_eq_ok.mp hrun
    exact h.ok hs hx
  error := by
    intro s e s' hs hrun
    obtain ⟨_, _, hx, rfl, rfl⟩ := focus_eq_error.mp hrun
    exact fun hc => hc (h.error hs hx)

/-- A receipt that tells of a success on this fork. -/
def Answers (host : Host) (fork : StrictFork) (request : InvokeRequest)
    (execution : ExecutionMode) (auth : AuthMode) (receipt : Receipt) : Prop :=
  receipt.outcome.isSuccess = true ∧
    ∃ after, fork.prepare host request execution auth = .ok (receipt, after)

variable {host : Host} {fork : StrictFork} {request : InvokeRequest} {auth : AuthMode}

/-- There is one answer. -/
theorem Answers.unique {execution : ExecutionMode} {receipt receipt' : Receipt}
    (h : Answers host fork request execution auth receipt)
    (h' : Answers host fork request execution auth receipt') : receipt = receipt' := by
  obtain ⟨_, _, hprepare⟩ := h
  obtain ⟨_, _, hprepare'⟩ := h'
  cases hprepare.symm.trans hprepare'
  rfl

/-- What a receipt of this disposition tells of the fork it was given on. -/
structure Tells (fork : StrictFork) (disposition : ReceiptDisposition) (receipt : Receipt) :
    Prop where
  success : receipt.outcome.isSuccess = true
  disposition_eq : receipt.disposition = disposition
  ledgerDigest : fork.ledgerDigest = .ok receipt.beforeDigest
  upstreamReads : receipt.upstreamReads = 0

theorem Answers.tells {execution : ExecutionMode} {receipt : Receipt}
    (h : Answers host fork request execution auth receipt) :
    Tells fork (dispositionOf execution (commits execution receipt.outcome)) receipt := by
  obtain ⟨hsuccess, after, hprepare⟩ := h
  obtain ⟨_, _, hevidence⟩ := prepare_iff.mp hprepare
  exact ⟨hsuccess, hevidence.disposition, strictDigest_eq_ok.mp hevidence.beforeDigest,
    hevidence.upstreamReads⟩

theorem Answers.previewed {receipt : Receipt} (h : Answers host fork request .preview auth receipt) :
    Tells fork .previewed receipt := h.tells

theorem Answers.committed {receipt : Receipt} (h : Answers host fork request .apply auth receipt) :
    Tells fork .committed receipt := by
  have htells := h.tells
  rw [dispositionOf_apply, if_pos h.1] at htells
  exact htells

/-- Behind a step a fork is the one it was, in the protocol of its network, at a digest. -/
structure Moved (fork : StrictFork) (digest : Bytes32) (s : StrictFork) : Prop where
  id_eq : s.id = fork.id
  networkProtocolVersion : s.networkProtocolVersion = fork.networkProtocolVersion
  protocol : InNetworkProtocol s
  ledgerDigest : s.ledgerDigest = .ok digest

/-- A step that checks the outcome of an invocation on a fork that shows what this one shows. -/
theorem invokeSuccess_spec {execution : ExecutionMode} (hplain : ∀ e,
      fork.prepare host request execution auth = .error e → e.Plain) :
    Spec (fun s => SameView s fork) (invokeSuccess host request execution auth) fun receipt s =>
      Answers host fork request execution auth receipt ∧
        ∃ t, SameView t fork ∧ invoke host request execution auth t = .ok receipt s := by
  refine .bind (onFork_spec (Q := fun receipt s =>
    (∃ after, fork.prepare host request execution auth = .ok (receipt, after)) ∧
      ∃ t, SameView t fork ∧ invoke host request execution auth t = .ok receipt s)
    ⟨fun t receipt s hview h => ?_, fun t e s hview h => ?_⟩) fun receipt => ?_
  · obtain ⟨after, hprepare, _⟩ := invoke_eq_ok h
    exact ⟨⟨after, (hview.prepare_eq host request execution auth).symm.trans hprepare⟩, t, hview, h⟩
  · exact hplain e ((hview.prepare_eq host request execution auth).symm.trans (prepare_eq_error h))
  · refine .bind (Q := fun _ s => receipt.outcome.isSuccess = true ∧ _) (.lift
      (fun _ _ h hs => ⟨ensure_eq_ok.mp h, hs⟩) fun e _ h _ => ?_) fun _ => .pure fun _ hs =>
      ⟨⟨hs.1, hs.2.1⟩, hs.2.2⟩
    rw [← (ensure_eq_error.mp h).2]
    exact id

theorem preview_spec (hauth : ∀ expected, auth ≠ .mockExact expected) :
    Spec (fun s => SameView s fork) (invokeSuccess host request .preview auth) fun receipt s =>
      Answers host fork request .preview auth receipt ∧ SameView s fork := by
  refine (invokeSuccess_spec fun e he => prepare_plain host fork request .preview hauth e he).weaken
    (fun _ h => h) (fun receipt s hs => ⟨hs.1, ?_⟩) fun _ _ h => h
  obtain ⟨_, t, hview, hinvoke⟩ := hs
  have hkept := preview_sameView host request auth t
  have hstep : (strictStep host (.invoke request .preview auth) t).2 = s := by
    show (resultOf _ t).2 = s
    rw [resultOf_ok hinvoke]
  rw [hstep] at hkept
  exact ⟨hkept.checkpoint.trans hview.checkpoint,
    hkept.networkProtocolVersion.trans hview.networkProtocolVersion⟩

theorem apply_spec [LawfulSnapshotCrate] (hhost : host.KeepsHeader)
    (hprotocol : InNetworkProtocol fork) (hplain : ∀ e,
      fork.prepare host request .apply auth = .error e → e.Plain) :
    Spec (fun s => SameView s fork) (invokeSuccess host request .apply auth) fun receipt s =>
      Answers host fork request .apply auth receipt ∧ Moved fork receipt.afterDigest s := by
  refine (invokeSuccess_spec hplain).weaken (fun _ h => h) (fun receipt s hs => ⟨hs.1, ?_⟩)
    fun _ _ h => h
  obtain ⟨⟨hsuccess, _⟩, t, hview, hinvoke⟩ := hs
  have hstep : (strictStep host (.invoke request .apply auth) t).2 = s := by
    show (resultOf _ t).2 = s
    rw [resultOf_ok hinvoke]
  have hprotocol' : InNetworkProtocol t := by
    unfold InNetworkProtocol
    rw [hview.ledgerSnapshot, hview.networkProtocolVersion]
    exact hprotocol
  obtain ⟨hid, hversion⟩ := strictStep_fixed host (.invoke request .apply auth) t
  have hop : ∀ checkpoint, StrictOp.invoke request .apply auth ≠ .revert checkpoint :=
    fun _ => nofun
  have hmoved := strictStep_inNetworkProtocol hhost hop hprotocol'
  rw [hstep] at hid hversion hmoved
  have hdigest := applied_digest hhost hprotocol' hinvoke
  rw [if_pos hsuccess] at hdigest
  exact ⟨hid.trans hview.id_eq, hversion.trans hview.networkProtocolVersion, hmoved, hdigest⟩

/-! ## Values -/

omit [Crates] [SnapshotCrate] in
/-- A successful receipt has a result. -/
theorem result_spec {P : StrictFork → Prop} {receipt : Receipt}
    (hsuccess : receipt.outcome.isSuccess = true) :
    Spec P (lift (receiptResult receipt)) fun value s => receiptResult receipt = .ok value ∧ P s := by
  refine .lift (fun _ _ h hs => ⟨h, hs⟩) fun e _ h _ => ?_
  unfold receiptResult at h
  cases hout : receipt.outcome with
  | success value =>
    rw [hout] at h
    cases h
  | failure error kind =>
    rw [hout] at hsuccess
    cases hsuccess

section Values

variable [ScValCrate]

omit [Crates] [SnapshotCrate] in
theorem scU128Value_errs (value : ScVal) : Errs (fun e => ¬ e.Excluded) (scU128Value value) := by
  refine .bind (.orError ?_) fun _ _ => .pure _
  simp [Error.Excluded]

omit [Crates] [SnapshotCrate] [ScValCrate] in
/-- A tenth of a `u128` is an `i128`. -/
theorem mintedOf_errs (reserves : List U128) : Errs (fun e => ¬ e.Excluded) (mintedOf reserves) := by
  refine .bind (.orError ?_) fun reserve _ => .bind (.ensure ?_) fun _ _ => ?_
  · simp [Error.Excluded]
  · simp [Error.Excluded]
  · refine .bind (fun e h => ?_) fun _ _ => .pure _
    obtain ⟨hnot, _⟩ := ensure_eq_error.mp h
    refine absurd ?_ hnot
    have hlt := reserve.isLt
    rw [BitVec.toNat_udiv]
    show reserve.toNat / 10 < 2 ^ 127
    omega

/-- A receipt of a quote, with the value it was asked for. -/
def Quotes (host : Host) (fork : StrictFork) (candidate : ScAddress) (r : Receipt × U128) : Prop :=
  Answers host fork (quoteRequest candidate) .preview (.enforce []) r.1 ∧
    ∃ value, receiptResult r.1 = .ok value ∧ scU128Value value = .ok r.2

theorem Quotes.unique {candidate : ScAddress} {r r' : Receipt × U128}
    (h : Quotes host fork candidate r) (h' : Quotes host fork candidate r') : r = r' := by
  obtain ⟨receipt, value⟩ := r
  obtain ⟨receipt', value'⟩ := r'
  obtain ⟨hanswers, _, hresult, hvalue⟩ := h
  obtain ⟨hanswers', _, hresult', hvalue'⟩ := h'
  cases hanswers.unique hanswers'
  cases hresult.symm.trans hresult'
  cases hvalue.symm.trans hvalue'
  rfl

theorem quote_spec (candidate : ScAddress) : Spec (fun s => SameView s fork) (quote host candidate)
    fun r s => Quotes host fork candidate r ∧ SameView s fork := by
  refine .bind (preview_spec fun _ => nofun) fun receipt => .assume fun hanswers => ?_
  refine .bind (result_spec hanswers.1) fun value => .assume fun hresult => ?_
  refine .bind (.lift (fun _ _ h hs => ⟨h, hs⟩) fun e _ h _ => scU128Value_errs value e h)
    fun quoted => .assume fun hvalue => ?_
  exact .pure fun _ hs => ⟨⟨hanswers, value, hresult, hvalue⟩, hs⟩

/-- What an inspection has asked of the fork. -/
structure Inspects (host : Host) (fork : StrictFork) (candidate : ScAddress) (i : Inspection) :
    Prop where
  tokens : Answers host fork (call candidate "get_tokens" []) .preview (.enforce []) i.tokensReceipt
  quote : Quotes host fork candidate (i.quoteReceipt, i.quote)
  reserves : Answers host fork (call candidate "get_reserves" []) .preview (.enforce [])
    i.reservesReceipt

theorem inspect_spec (candidate : ScAddress) :
    Spec (fun s => SameView s fork) (inspect host candidate) fun i s =>
      Inspects host fork candidate i ∧ SameView s fork := by
  refine .bind (preview_spec fun _ => nofun) fun tokensReceipt => .assume fun htokens => ?_
  refine .bind (result_spec htokens.1) fun tokens => .assume fun _ => ?_
  refine .bind (.lift_errs (.orError ?_)) fun usdc => ?_
  · simp [Error.Excluded]
  refine .bind (quote_spec candidate) fun quoted => .assume fun hquote => ?_
  refine .bind (preview_spec fun _ => nofun) fun reservesReceipt => .assume fun hreserves => ?_
  refine .bind (result_spec hreserves.1) fun value => .assume fun _ => ?_
  refine .bind (.lift_errs (.mapM fun _ _ => scU128Value_errs _)) fun reserves => ?_
  refine .bind (.lift_errs (mintedOf_errs reserves)) fun minted => ?_
  exact .pure fun _ hs => ⟨⟨htokens, hquote, hreserves⟩, hs⟩

/-- What a trade has moved, from the fork it began on to the fork it left. -/
structure Trades (host : Host) (fork : StrictFork) (t : Trade) (s : StrictFork) : Prop where
  mint : Tells fork .committed t.mint
  preview : t.preview.disposition = .previewed ∧ t.preview.upstreamReads = 0
  linked : t.preview.beforeDigest = t.mint.afterDigest
  swap : t.swap = { t.preview.applied with authMode := .mockExact }
  success : t.preview.outcome.isSuccess = true
  moved : Moved fork t.swap.afterDigest s

theorem trade_spec [LawfulSnapshotCrate] (hhost : host.KeepsHeader)
    (hprotocol : InNetworkProtocol fork) (candidate : ScAddress) (i : Inspection) :
    Spec (fun s => SameView s fork) (trade host candidate i) fun t s => Trades host fork t s := by
  have hrecord : ∀ expected, AuthMode.record ≠ .mockExact expected := fun _ => nofun
  refine .bind (apply_spec hhost hprotocol
    fun e he => prepare_plain host fork _ .apply hrecord e he) fun mint => ?_
  refine .assume fun hmint => .named fun minted hmoved => ?_
  have hview : ∀ s, s = minted → SameView s minted := fun s hs => hs ▸ ⟨rfl, rfl⟩
  refine .bind ((preview_spec hrecord).weaken hview (fun _ _ h => h) fun _ _ h => h)
    fun preview => .assume fun hpreview => ?_
  -- the exact mock sets up the child that the preview has run
  obtain ⟨hsuccess, after, hprepare⟩ := hpreview
  obtain ⟨setup, stored, hevidence⟩ := prepare_iff.mp hprepare
  have happly : minted.prepare host (swapRequest candidate userAddress i.minted) .apply
      (.mockExact preview.authorization) = .ok ({ preview.applied with authMode := .mockExact },
        after) := prepare_iff.mpr ⟨_, stored, hevidence.apply.mockExact⟩
  refine .bind (apply_spec hhost hmoved.protocol fun e he => ?_) fun swap =>
    .assume fun hswap => ?_
  · cases happly.symm.trans he
  obtain ⟨_, _, hprepare'⟩ := hswap
  cases happly.symm.trans hprepare'
  refine .bind (result_spec hsuccess) fun value => .assume fun _ => ?_
  refine .bind (.lift_errs (scU128Value_errs value)) fun received => .pure fun s hs => ?_
  have htold : Tells minted .previewed preview :=
    Answers.previewed ⟨hsuccess, after, hprepare⟩
  exact ⟨hmint.committed, ⟨htold.disposition_eq, htold.upstreamReads⟩,
    Except.ok.inj (htold.ledgerDigest.symm.trans hmoved.ledgerDigest), rfl, hsuccess,
    ⟨hs.id_eq.trans hmoved.id_eq,
      hs.networkProtocolVersion.trans hmoved.networkProtocolVersion, hs.protocol, hs.ledgerDigest⟩⟩

/-! ## The probe -/

omit [ScValCrate] in
/-- On a digested fork the probe tells whether the call was refused for unknown keys. -/
theorem unknownFailsClosed_run {t : StrictFork} {digest : Bytes32}
    (hdigest : t.ledgerDigest = .ok digest) :
    let r := resultOf (invoke host missingRequest .apply (.enforce [])) t
    unknownFailsClosed host t = .ok (isUnknownLedgerKeys r.1) r.2 := by
  have hbefore : (lift (t.ledgerDigest.mapError Error.fixture) : RunM Bytes32) t
      = .ok digest t := by
    rw [hdigest]
    rfl
  unfold unknownFailsClosed
  rw [run_bind_of_ok (show (get : RunM StrictFork) t = .ok t t from rfl), run_bind_of_ok hbefore]
  cases h : invoke host missingRequest .apply (.enforce []) t with
  | ok receipt t' =>
    rw [resultOf_ok h]
    rfl
  | error e t' =>
    obtain rfl := invoke_eq_error h
    rw [resultOf_error h]
    dsimp only
    rw [run_bind_of_ok (show (set t' : RunM PUnit) t' = .ok ⟨⟩ t' from rfl)]
    split
    · next hunknown =>
      rw [run_bind_of_ok hbefore, hunknown]
      show EStateM.Result.ok (decide (digest = digest)) t' = _
      rw [decide_eq_true rfl]
    · next hknown =>
      rw [Bool.not_eq_true] at hknown
      rw [hknown]
      rfl

/-- The call of the probe is refused on this fork, for unknown keys. -/
def ProbeRefused (host : Host) (fork : StrictFork) : Prop := ∃ count keys,
  fork.prepare host missingRequest .apply (.enforce []) = .error (.unknownLedgerKeys count keys)

omit [ScValCrate] in
theorem isUnknownLedgerKeys_invoke {t : StrictFork} (hview : SameView t fork) :
    isUnknownLedgerKeys (resultOf (invoke host missingRequest .apply (.enforce [])) t).1 = true ↔
      ProbeRefused host fork := by
  unfold ProbeRefused
  rw [← hview.prepare_eq]
  cases h : invoke host missingRequest .apply (.enforce []) t with
  | ok receipt t' =>
    obtain ⟨after, hprepare, _⟩ := invoke_eq_ok h
    rw [resultOf_ok h, hprepare]
    simp [isUnknownLedgerKeys]
  | error e t' =>
    rw [resultOf_error h, prepare_eq_error h]
    cases e <;> simp [isUnknownLedgerKeys]

omit [ScValCrate] in
theorem unknownFailsClosed_spec {digest : Bytes32} (hdigest : fork.ledgerDigest = .ok digest) :
    Spec (fun s => SameView s fork) (unknownFailsClosed host) fun refused _ =>
      (refused = true ↔ ProbeRefused host fork) := by
  have hrun : ∀ t, SameView t fork → ∃ t', unknownFailsClosed host t = .ok (isUnknownLedgerKeys
      (resultOf (invoke host missingRequest .apply (.enforce [])) t).1) t' := by
    intro t hview
    have hshown : t.ledgerDigest = .ok digest := by
      unfold StrictFork.ledgerDigest
      rw [hview.ledgerSnapshot]
      exact hdigest
    exact ⟨_, unknownFailsClosed_run hshown⟩
  constructor
  · intro t refused t' hview h
    obtain ⟨_, hok⟩ := hrun t hview
    cases hok.symm.trans h
    exact isUnknownLedgerKeys_invoke hview
  · intro t e t' hview h
    obtain ⟨_, hok⟩ := hrun t hview
    cases hok.symm.trans h

/-! ## The whole workflow -/

/-- The receipts of a report, by what they are for. The first quote is also the last. -/
structure Story where
  tokens : Receipt
  before : Receipt
  reserves : Receipt
  mint : Receipt
  preview : Receipt
  swap : Receipt
  after : Receipt

def Story.receipts (story : Story) : List Receipt :=
  [story.tokens, story.before, story.reserves, story.mint, story.preview, story.swap, story.after,
    story.before]

/-- What anyone can rely on who reads the receipts behind a registration. -/
structure Story.Coherent (story : Story) (registration : CandidateRegistration) : Prop where
  successful : ∀ receipt ∈ story.receipts,
    receipt.outcome.isSuccess = true ∧ receipt.upstreamReads = 0
  inspected : ∀ receipt ∈ [story.tokens, story.before, story.reserves],
    receipt.disposition = .previewed ∧ receipt.beforeDigest = registration.afterDigest
  mint : story.mint.disposition = .committed ∧
    story.mint.beforeDigest = registration.afterDigest
  preview : story.preview.disposition = .previewed ∧
    story.preview.beforeDigest = story.mint.afterDigest
  swap : story.swap = { story.preview.applied with authMode := .mockExact }
  after : story.after.disposition = .previewed ∧
    story.after.beforeDigest = story.swap.afterDigest

/-- What a report owes to the fork its candidate was registered on, and to the registered one. -/
structure Report.Rehearsed (host : Host) (start registered : StrictFork) (wasm : Bytes)
    (report : Report) : Prop where
  wasmSha256 : report.candidateRegistration.wasmSha256 = sha256 wasm
  beforeDigest : start.ledgerDigest = .ok report.candidateRegistration.beforeDigest
  afterDigest : registered.ledgerDigest = .ok report.candidateRegistration.afterDigest
  story : ∃ story : Story, report.receipts = story.receipts ∧
    story.Coherent report.candidateRegistration
  restored : report.restoredQuote = report.quoteBefore
  decreased : report.quoteAfter < report.quoteBefore
  probe : report.unknownFailClosed = true ↔ ProbeRefused host registered

omit [ScValCrate] in
/-- A registration reports the hash that was asked of the module. -/
theorem registerCandidate_wasmSha256 {start s : StrictFork} {address : ScAddress} {wasm : Bytes}
    {expected : Bytes32} {args : List ScVal} {registration : CandidateRegistration}
    (h : registerCandidate host address wasm expected args start = .ok registration s) :
    registration.wasmSha256 = sha256 wasm ∧ sha256 wasm = expected := by
  obtain ⟨_, _, hinstalls, _⟩ := registerCandidate_eq_ok h
  obtain ⟨_, _, hchecked⟩ := bind_eq_ok.mp hinstalls.checked
  obtain ⟨_, hhash, _⟩ := bind_eq_ok.mp hchecked
  refine ⟨?_, ensure_eq_ok.mp hhash⟩
  obtain ⟨_, _, _, h₁⟩ := run_bind_eq_ok.mp h
  obtain ⟨_, _, h₂⟩ := run_lift_bind_eq_ok.mp h₁
  obtain ⟨_, _, h₃⟩ := run_lift_bind_eq_ok.mp h₂
  obtain ⟨_, _, h₄⟩ := run_lift_bind_eq_ok.mp h₃
  obtain ⟨_, _, h₅⟩ := run_lift_bind_eq_ok.mp h₄
  obtain ⟨_, _, h₆⟩ := run_lift_bind_eq_ok.mp h₅
  obtain ⟨_, _, h₇⟩ := run_lift_bind_eq_ok.mp h₆
  obtain ⟨_, _, h₈⟩ := run_lift_bind_eq_ok.mp h₇
  obtain ⟨_, _, h₉⟩ := run_lift_bind_eq_ok.mp h₈
  obtain ⟨_, _, _, h₁₀⟩ := run_bind_eq_ok.mp h₉
  obtain ⟨_, _, _, h₁₁⟩ := run_bind_eq_ok.mp h₁₀
  obtain ⟨rfl, _⟩ := run_pure_eq_ok.mp h₁₁
  rfl

omit [ScValCrate] in
theorem register_spec [LawfulSnapshotCrate] (hhost : host.KeepsHeader) {start : StrictFork}
    (hprotocol : InNetworkProtocol start) (address : ScAddress) (wasm : Bytes)
    (expected : Bytes32) (args : List ScVal) :
    Spec (fun s => s = start) (onFork (registerCandidate host address wasm expected args))
      fun registration s => (start.ledgerDigest = .ok registration.beforeDigest ∧
        registration.wasmSha256 = sha256 wasm ∧ sha256 wasm = expected) ∧
        Moved start registration.afterDigest s := by
  refine onFork_spec ⟨fun s registration s' hs h => ?_, fun s e s' _ h => ?_⟩
  · subst hs
    have hadvances := registerCandidate_advances hhost hprotocol h
    have hwasm := registerCandidate_wasmSha256 h
    obtain ⟨stored, coverage, hinstalls, _, rfl⟩ := registerCandidate_eq_ok h
    exact ⟨⟨hinstalls.transition.digestBefore, hwasm⟩, rfl, rfl,
      (congrArg LedgerInfo.protocolVersion hadvances.header).trans hprotocol,
      hinstalls.transition.digestAfter⟩
  · exact (registerCandidate_plain host address wasm expected args).error trivial h

/-- An inspection of the registered fork and a trade on it leave a coherent story. -/
theorem coherent {registered swapped : StrictFork} {registration : CandidateRegistration}
    {candidate : ScAddress} {i : Inspection} {t : Trade} {after : Receipt} {auth : AuthMode}
    (hdigest : registered.ledgerDigest = .ok registration.afterDigest)
    (hinspects : Inspects host registered candidate i) (htrades : Trades host registered t swapped)
    (hafter : Answers host swapped request .preview auth after) :
    (Story.mk i.tokensReceipt i.quoteReceipt i.reservesReceipt t.mint t.preview t.swap
      after).Coherent registration := by
  have hlinked : ∀ {receipt disposition}, Tells registered disposition receipt →
      receipt.beforeDigest = registration.afterDigest :=
    fun h => Except.ok.inj (h.ledgerDigest.symm.trans hdigest)
  have htokens := hinspects.tokens.previewed
  have hquote := hinspects.quote.1.previewed
  have hreserves := hinspects.reserves.previewed
  have hlast := hafter.previewed
  have hswap : t.swap.outcome.isSuccess = true ∧ t.swap.upstreamReads = 0 := by
    rw [htrades.swap]
    exact ⟨htrades.success, htrades.preview.2⟩
  refine ⟨?_, ?_, ⟨htrades.mint.disposition_eq, hlinked htrades.mint⟩,
    ⟨htrades.preview.1, htrades.linked⟩, htrades.swap, hlast.disposition_eq,
    Except.ok.inj (hlast.ledgerDigest.symm.trans htrades.moved.ledgerDigest)⟩
  · simp only [Story.receipts, List.forall_mem_cons, List.not_mem_nil, false_imp_iff,
      implies_true, and_true]
    exact ⟨⟨htokens.success, htokens.upstreamReads⟩, ⟨hquote.success, hquote.upstreamReads⟩,
      ⟨hreserves.success, hreserves.upstreamReads⟩,
      ⟨htrades.mint.success, htrades.mint.upstreamReads⟩,
      ⟨htrades.success, htrades.preview.2⟩, hswap, ⟨hlast.success, hlast.upstreamReads⟩,
      hquote.success, hquote.upstreamReads⟩
  · simp only [List.forall_mem_cons, List.not_mem_nil, false_imp_iff, implies_true, and_true]
    exact ⟨⟨htokens.disposition_eq, hlinked htokens⟩, ⟨hquote.disposition_eq, hlinked hquote⟩,
      hreserves.disposition_eq, hlinked hreserves⟩

theorem workflow_spec [LawfulSnapshotCrate] (hhost : host.KeepsHeader) {start : StrictFork}
    (hprotocol : InNetworkProtocol start) (ledger : UInt32) (pool : ScAddress) (wasm : Bytes)
    (expected : Bytes32) (allowNewerProtocol : Bool) :
    Spec (fun s => s = start) (workflow host ledger pool wasm expected allowNewerProtocol)
      fun report _ => sha256 wasm = expected ∧
        ∃ registered, report.Rehearsed host start registered wasm := by
  refine .bind (register_spec hhost hprotocol _ _ _ _) fun registration =>
    .assume fun hregistration => .named fun registered hregistered => ?_
  refine .bind (Q := fun fork s => fork = registered ∧ SameView s registered)
    ⟨fun s fork s' hs h => ?_, fun _ _ _ _ h => by cases h⟩ fun fork => .assume fun hfork => ?_
  · cases h
    exact ⟨hs, hs ▸ ⟨rfl, rfl⟩⟩
  subst hfork
  refine .bind (inspect_spec candidateAddress) fun i => .assume fun hinspects => ?_
  refine .bind (trade_spec hhost hregistered.protocol candidateAddress i) fun t => ?_
  refine .named fun swapped htrades => ?_
  have hview : ∀ s, s = swapped → SameView s swapped := fun s hs => hs ▸ ⟨rfl, rfl⟩
  refine .bind ((quote_spec candidateAddress).weaken hview (fun _ _ h => h) fun _ _ h => h)
    fun afterQuote => .assume fun hafter => ?_
  refine .bind (.lift (fun _ s h hs => ⟨ensure_eq_ok.mp h, hs⟩) fun e _ h _ => ?_) fun _ =>
    .assume fun hdecreased => ?_
  · rw [← (ensure_eq_error.mp h).2]
    simp [Error.Excluded]
  -- the checkpoint is the fork's own
  refine .bind (onFork_spec (Q := fun _ s => SameView s fork) ⟨fun s _ s' hs h => ?_,
    fun s e s' hs h => ?_⟩) fun _ => ?_
  · have hid : fork.checkpoint.forkId = s.id := (hs.id_eq.trans htrades.moved.id_eq).symm
    have hversion : s.networkProtocolVersion = fork.networkProtocolVersion :=
      hs.networkProtocolVersion.trans htrades.moved.networkProtocolVersion
    rw [revert_own hid] at h
    cases h
    exact ⟨reverted_checkpoint hid (hregistered.protocol.trans hversion.symm), hversion⟩
  · rw [revert_own (hs.id_eq.trans htrades.moved.id_eq).symm] at h
    cases h
  refine .bind (quote_spec candidateAddress) fun restored => .assume fun hrestored => ?_
  cases hrestored.unique hinspects.quote
  refine .bind (.lift (fun _ s h hs => hs) fun e _ h _ => ?_) fun _ => ?_
  · exact absurd rfl (ensure_eq_error.mp h).1
  refine .bind (unknownFailsClosed_spec hregistered.ledgerDigest) fun refused => ?_
  have hcoherent : (Story.mk i.tokensReceipt i.quoteReceipt i.reservesReceipt t.mint t.preview
      t.swap afterQuote.1).Coherent registration :=
    coherent hregistered.ledgerDigest hinspects htrades hafter.1
  refine .bind (.lift (fun _ s h hs => hs) fun e _ h _ => ?_) fun _ => ?_
  · exact absurd (fun r hr => (hcoherent.successful r hr).2) (ensure_eq_error.mp h).1
  refine .bind (Q := fun _ s => (refused = true ↔ ProbeRefused host fork))
    ⟨fun _ _ _ hs _ => hs, fun _ _ _ _ h => by cases h⟩ fun last => .pure fun s hs => ?_
  obtain ⟨hbefore, hhash, hexpected⟩ := hregistration
  exact ⟨hexpected, fork, hhash, hbefore, hregistered.ledgerDigest, ⟨_, rfl, hcoherent⟩, rfl,
    hdecreased, hs⟩

/-! ## From files -/

/-- The module of a candidate, among the files. -/
def CandidateArtifact.Holds (wrapperWasm : Bytes) (contents : Disk.Contents) :
    CandidateArtifact → Bytes → Prop
  | .bundled, wasm => wasm = wrapperWasm
  | .file path _, wasm => contents (Disk.join [] path) = some wasm

omit [Crates] [SnapshotCrate] [ScValCrate] in
theorem bytes_spec (wrapperWasm : Bytes) (contents : Disk.Contents) (candidate : CandidateArtifact) :
    Triple (fun s => s.contents = contents) (candidate.bytes wrapperWasm)
      (fun wasm s => candidate.Holds wrapperWasm contents wasm ∧ s.contents = contents)
      fun e s => ¬ e.Excluded ∧ s.contents = contents := by
  cases candidate with
  | bundled => exact .pure fun _ hs => ⟨rfl, hs⟩
  | file path sha256 =>
    have hkeeps : Keeps FileState.contents (CandidateArtifact.bytes wrapperWasm (.file path sha256)) :=
      (Disk.read_keeps (Disk.join [] path)).focus_inside (fun _ _ => rfl) fun _ => rfl
    refine ⟨fun s wasm s' hs h => ⟨?_, (hkeeps.ok h).trans hs⟩,
      fun s e s' hs h => ⟨?_, (hkeeps.error h).trans hs⟩⟩
    · obtain ⟨_, hread, _⟩ := focus_eq_ok.mp h
      rw [← hs]
      exact Disk.read_eq_ok hread
    · obtain ⟨_, _, _, rfl, _⟩ := focus_eq_error.mp h
      exact id

variable [BundleCrates]

/-- A report on the fixture and the candidate that the files hold. -/
def Report.Backed (host : Host) (wrapperWasm : Bytes) (fixturePath : Disk.Path)
    (candidate : CandidateArtifact) (allowNewerProtocol : Bool) (contents : Disk.Contents)
    (report : Report) : Prop :=
  ∃ bytes f wasm registered, contents fixturePath = some bytes ∧
    CapturedFixture.fromBundleBytes bytes mainnetPassphrase
      (if allowNewerProtocol then .allowNewer else .exact) = .ok f ∧
    candidate.Holds wrapperWasm contents wasm ∧ sha256 wasm = candidate.sha256 ∧
    report.Rehearsed host (.fromCaptured 1 f.fixture.snapshot f.coverage) registered wasm

/--
**The workflow restores what it has found, and its report can be relied on.**

Whatever is on the disk and whatever the candidate does: the run changes no file, and never stops
because a reverted fork gave another quote, an exact mock found other trees, or an upstream read
was counted. When it reports, the module is the one that was asked for, and every receipt is of a
success on the ledger that the registration and the committed receipts before it have left. The
swap is the previewed one, the last receipt is that of the first quote, and the probe was closed
exactly when the call was refused.
-/
theorem run_rehearses [LawfulSnapshotCrate] (hhost : host.KeepsHeader) (wrapperWasm : Bytes)
    (fixturePath : Disk.Path) (candidate : CandidateArtifact) (allowNewerProtocol : Bool)
    (files : FileState) :
    (∀ e files', run host wrapperWasm fixturePath candidate allowNewerProtocol files
        = .error e files' → ¬ e.Excluded ∧ files'.contents = files.contents) ∧
    ∀ report files', run host wrapperWasm fixturePath candidate allowNewerProtocol files
        = .ok report files' → files'.contents = files.contents ∧
      report.Backed host wrapperWasm fixturePath candidate allowNewerProtocol files.contents := by
  have hrun : Triple (fun s => s.contents = files.contents)
      (run host wrapperWasm fixturePath candidate allowNewerProtocol)
      (fun report s => s.contents = files.contents ∧
        report.Backed host wrapperWasm fixturePath candidate allowNewerProtocol files.contents)
      (fun e s => ¬ e.Excluded ∧ s.contents = files.contents) := by
    refine .bind (Q := fun f s => (∃ bytes, files.contents fixturePath = some bytes ∧
        CapturedFixture.fromBundleBytes bytes mainnetPassphrase
          (if allowNewerProtocol then .allowNewer else .exact) = .ok f) ∧
        s.contents = files.contents) ⟨fun s f s' hs h => ?_, fun s e s' hs h => ?_⟩ fun f =>
      .assume fun hloaded => ?_
    · obtain ⟨_, hload, rfl⟩ := focus_eq_ok.mp h
      rw [← hs]
      exact ⟨fromFileWithPolicy_eq_ok hload, fromFileWithPolicy_keeps.ok hload⟩
    · obtain ⟨_, _, hload, rfl, rfl⟩ := focus_eq_error.mp h
      exact ⟨id, (fromFileWithPolicy_keeps.error hload).trans hs⟩
    refine .bind (.lift (fun _ _ _ hs => hs) fun e _ h hs => ⟨?_, hs⟩) fun pool => ?_
    · cases hpool : addressFromStr defaultPool with
      | none =>
        rw [hpool] at h
        cases h
        exact id
      | some pool =>
        rw [hpool] at h
        cases h
    refine .bind (bytes_spec wrapperWasm files.contents candidate) fun wasm =>
      .assume fun hholds => ?_
    have hreach : Reachable host f 1 (.fromCaptured 1 f.fixture.snapshot f.coverage) [] := .fork
    have hspec := workflow_spec hhost (hreach.inNetworkProtocol hhost) f.provenance.ledgerSequence pool wasm candidate.sha256 allowNewerProtocol
    obtain ⟨bytes, hbytes, hdecoded⟩ := hloaded
    split
    · next report _ h =>
      obtain ⟨hhash, registered, hrehearsed⟩ := hspec.ok rfl h
      exact .pure fun s hs => ⟨hs, bytes, f, wasm, registered, hbytes, hdecoded, hholds, hhash,
        hrehearsed⟩
    · next e _ h => exact .throw fun s hs => ⟨hspec.error rfl h, hs⟩
  exact ⟨fun e files' h => hrun.error rfl h, fun report files' h => hrun.ok rfl h⟩

end Values

end Workflow

end Kanatoko

namespace Kanatoko.Testnet.Pool

open Fallible Workflow

/-- The bundle file reads back as the fixture that was captured. -/
theorem pool_loaded : ∃ f report s,
    CapturedFixture.fromBundleBytes [1] mainnetPassphrase .exact = .ok f ∧
    workflow poolHost f.provenance.ledgerSequence nativeAsset emptyWasm poolCandidate.sha256 false
      (.fromCaptured 1 f.fixture.snapshot f.coverage) = .ok report s ∧
    report.unknownFailClosed = true := by
  obtain ⟨f, w', report, s, hcapture, hbundle, hworkflow, hclosed⟩ := pool_captured
  have hsound : Sound .exact f := (Captured.capture _ _ _ _ _ rfl hcapture).sound
  obtain ⟨canonical, _, hwritten, _⟩ := hsound.toBundle_ok
  have hprovenance := congrArg CaptureBundleV2.provenance
    (Except.ok.inj (hwritten.symm.trans hbundle))
  have hhash : f.provenance.ledgerHash ≠ "" := by
    rw [show f.provenance.ledgerHash = poolBundle.provenance.ledgerHash from
      congrArg BundleProvenance.ledgerHash hprovenance]
    decide
  have hpassphrase : f.provenance.networkPassphrase = mainnetPassphrase :=
    congrArg BundleProvenance.networkPassphrase hprovenance
  obtain ⟨bundle, hbundle', _, hfrom⟩ := hsound.fromBundle_toBundle hhash
  cases hbundle.symm.trans hbundle'
  rw [hpassphrase] at hfrom
  refine ⟨f, report, s, ?_, hworkflow, hclosed⟩
  refine bind_eq_ok.mpr ⟨2, orError_eq_ok.mpr (if_pos rfl), ?_⟩
  rw [if_pos (show (2 : UInt32) = captureBundleSchemaVersion from rfl)]
  exact bind_eq_ok.mpr ⟨poolBundle, orError_eq_ok.mpr (if_pos rfl), hfrom⟩

/-- A rehearsal on the scripted pool, with its candidate in a file. -/
theorem pool_rehearsed : ∃ report files',
    run poolHost [] ["pool.json"] poolCandidate false poolFiles = .ok report files' ∧
    report.unknownFailClosed = true ∧ files'.contents = poolFiles.contents ∧
    report.Backed poolHost [] ["pool.json"] poolCandidate false poolFiles.contents := by
  obtain ⟨f, report, s, hfrom, hworkflow, hclosed⟩ := pool_loaded
  obtain ⟨_, hreports⟩ := run_rehearses poolHost_keepsHeader [] ["pool.json"] poolCandidate false
    poolFiles
  have hrun : ∃ files', run poolHost [] ["pool.json"] poolCandidate false poolFiles
      = .ok report files' := by
    -- the disk behind the first request, and behind the second
    let read (files : FileState) := files.withDisk (files.disk.after files.disk.contents)
    refine ⟨read (read poolFiles), run_bind_eq_ok.mpr ⟨f, read poolFiles, ?_, ?_⟩⟩
    · exact focus_eq_ok.mpr ⟨_, run_bind_eq_ok.mpr
        ⟨[1], read poolFiles, rfl, run_lift_eq_ok.mpr ⟨hfrom, rfl⟩⟩, rfl⟩
    · refine run_bind_eq_ok.mpr ⟨nativeAsset, _, run_lift_eq_ok.mpr ⟨rfl, rfl⟩, ?_⟩
      refine run_bind_eq_ok.mpr ⟨emptyWasm, _, rfl, ?_⟩
      rw [hworkflow]
      rfl
  obtain ⟨files', hrun⟩ := hrun
  obtain ⟨hcontents, hbacked⟩ := hreports report files' hrun
  exact ⟨report, files', hrun, hclosed, hcontents, hbacked⟩

end Kanatoko.Testnet.Pool
