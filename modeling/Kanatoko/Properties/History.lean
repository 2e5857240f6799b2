import Kanatoko.Lib.Journal
import Kanatoko.Properties.Agreement
import Kanatoko.Properties.DiffExact

/-!
# The history of a strict fork

What a fork has answered tells everything about it:

* `committed_history_suffices`: previews, rejected calls and failed operations may be left out
  of any run
* `journal_accounts_for_ledger`: the reported changes, replayed on the captured ledger, give
  the ledger of the fork, and undone there they give the captured one back
-/

namespace Kanatoko

open Fallible StrictFork Journal

variable [Crates] [SnapshotCrate]

/-! ## Operations that leave nothing behind -/

/-- The operation has done something, or has handed out a checkpoint. -/
def StrictAnswer.effective : StrictAnswer → Bool
  | .registered (.ok _) => true
  | .invoked (.ok receipt) => decide (receipt.disposition = .committed)
  | .checkpointed _ => true
  | .reverted (.ok _) => true
  | _ => false

/-- The disposition of a receipt says whether the ledger has advanced. -/
theorem invoke_disposition {host : Host} {fork fork' : StrictFork} {request : InvokeRequest}
    {execution : ExecutionMode} {auth : AuthMode} {receipt : Receipt}
    (h : invoke host request execution auth fork = .ok receipt fork') :
    receipt.disposition = .committed ↔ commits execution receipt.outcome = true := by
  obtain ⟨after, hprepare, _⟩ := invoke_eq_ok h
  obtain ⟨_, _, hprepares⟩ := prepare_eq_ok hprepare
  rw [hprepares.disposition, dispositionOf_eq_committed, commits_eq_true]

/-- **An operation that has no effect leaves what the fork shows.** -/
theorem strictStep_sameView {host : Host} {op : StrictOp} {fork : StrictFork}
    (h : (strictStep host op fork).1.effective = false) :
    SameView fork (strictStep host op fork).2 := by
  have hcase := strictStep_cases host op fork
  generalize strictStep host op fork = result at h hcase
  cases hcase with
  | invoked hinvoke =>
    have hdisposition : ¬ _ = ReceiptDisposition.committed := of_decide_eq_false h
    obtain ⟨after, _, ⟨_, rfl⟩ | ⟨hcommits, _⟩⟩ := invoke_eq_ok hinvoke
    · exact ⟨rfl, rfl⟩
    · exact absurd ((invoke_disposition hinvoke).mpr hcommits) hdisposition
  | registerFailed | invokeFailed | foreign => exact ⟨rfl, rfl⟩
  | registered | checkpointed | reverted => cases h

/-- The operations of a run that had an effect, each with its answer. -/
def effectiveHistory (host : Host) (ops : List StrictOp) (fork : StrictFork) :
    List (StrictOp × StrictAnswer) :=
  Machine.kept (strictStep host) (fun _ answer => answer.effective) ops fork

/--
**Only what was committed counts.**

A run without its previews, its rejected calls and its failed operations gets the same answers
to the operations that are left, and ends in a fork that shows the same.
-/
theorem committed_history_suffices (host : Host) (ops : List StrictOp) (fork : StrictFork) :
    (Machine.run (strictStep host) ((effectiveHistory host ops fork).map Prod.fst) fork).1
        = (effectiveHistory host ops fork).map Prod.snd ∧
      SameView (Machine.run (strictStep host) ops fork).2
        (Machine.run (strictStep host) ((effectiveHistory host ops fork).map Prod.fst) fork).2 := by
  refine Machine.run_kept (R := SameView) (strictStep_agree host) (fun op s t h hidle => ?_)
    ops fork fork ⟨rfl, rfl⟩
  have hview := strictStep_sameView hidle
  exact ⟨hview.checkpoint.symm.trans h.checkpoint,
    hview.networkProtocolVersion.symm.trans h.networkProtocolVersion⟩

/-! ## Ledgers as maps, changes as edits -/

/-- The value of a ledger under a key, as changes report it. -/
def LedgerSnapshot.value (snapshot : LedgerSnapshot) (key : LedgerKey) : Option LedgerValue :=
  (snapshot.ledgerEntries.find? fun x => x.1 = key).map fun x => ledgerValue x.2

/-- A change, as an edit of the ledger. -/
def StateChange.edit (change : StateChange) : Edit LedgerKey LedgerValue :=
  ⟨change.key, change.before, change.after⟩

def edits (changes : List StateChange) : List (Edit LedgerKey LedgerValue) :=
  changes.map StateChange.edit

omit [Crates] [SnapshotCrate] in
theorem map_key_edits (changes : List StateChange) :
    (edits changes).map Edit.key = changes.map StateChange.key := List.map_map

section Values

variable {snapshot : LedgerSnapshot} {key : LedgerKey}

omit [SnapshotCrate] in
theorem value_eq_held [LawfulCrates] {id : KeyId} (hid : ledgerKeyToXdr key = some id) :
    snapshot.value key = (held snapshot.ledgerEntries id).map ledgerValue := by
  have hsame : (fun x : SnapshotEntry => decide (ledgerKeyToXdr x.1 = some id)) =
      fun x => decide (x.1 = key) := by
    funext x
    refine decide_eq_decide.mpr ⟨fun h => ledgerKeyToXdr_inj h hid, ?_⟩
    rintro rfl
    exact hid
  rw [held, entryAt, hsame, Option.map_map]
  rfl

omit [SnapshotCrate] in
theorem value_eq_none_of_unencoded (h : Keyed snapshot.ledgerEntries)
    (hnone : ledgerKeyToXdr key = none) : snapshot.value key = none := by
  rw [LedgerSnapshot.value, Option.map_eq_none_iff, List.find?_eq_none]
  intro x hx heq
  have hsome := h.encoded x hx
  rw [of_decide_eq_true heq, hnone] at hsome
  cases hsome

end Values

omit [SnapshotCrate] in
/-- A diff changes no key twice. -/
theorem nodup_key_of_stateDiff {before after : LedgerSnapshot} {changes : List StateChange}
    (hbefore : Keyed before.ledgerEntries) (hafter : Keyed after.ledgerEntries)
    (h : stateDiff before after = .ok changes) : (changes.map StateChange.key).Nodup := by
  obtain ⟨ids, hascending, _, hdiff⟩ := stateDiff_eq hbefore hafter
  cases h.symm.trans hdiff
  refine List.Nodup.of_map ledgerKeyToXdr ?_
  rw [List.map_map]
  show (List.map (fun change : StateChange => ledgerKeyToXdr change.key) _).Nodup
  rw [map_key_flatMap_changeAt]
  have hnodup : ids.Nodup := hascending.imp fun {a b} hlt heq => by
    have hself : compare b b = .eq := Std.ReflCmp.compare_self
    rw [heq, hself] at hlt
    cases hlt
  exact (hnodup.filter _).map (Option.some_injective _)

omit [SnapshotCrate] in
/-- **The changes between two digested ledgers are a journal from one to the other.** -/
theorem Transition.journal [LawfulCrates] {before after : LedgerSnapshot}
    {beforeDigest afterDigest : Bytes32} {changes : List StateChange}
    (h : Transition before after beforeDigest afterDigest changes) :
    Fits (edits changes) before.value ∧ replay (edits changes) before.value = after.value := by
  have hbefore := (canonical_of_digest h.digestBefore).keyed
  have hafter := (canonical_of_digest h.digestAfter).keyed
  have hdescribes := h.describes
  refine fits_and_replay_of_diff ?_ (fun edit hedit => ?_) (fun edit hedit => ?_) fun key hne => ?_
  · rw [map_key_edits]
    exact nodup_key_of_stateDiff hbefore hafter h.diff
  · obtain ⟨change, hmem, rfl⟩ := List.mem_map.mp hedit
    obtain ⟨id, hid, _, hold, _⟩ := hdescribes.sound change hmem
    exact (value_eq_held hid).trans hold.symm
  · obtain ⟨change, hmem, rfl⟩ := List.mem_map.mp hedit
    obtain ⟨id, hid, _, _, hnew⟩ := hdescribes.sound change hmem
    exact (value_eq_held hid).trans hnew.symm
  · rw [map_key_edits]
    cases hid : ledgerKeyToXdr key with
    | none =>
      rw [value_eq_none_of_unencoded hbefore hid, value_eq_none_of_unencoded hafter hid] at hne
      exact absurd rfl hne
    | some id =>
      rw [value_eq_held hid, value_eq_held hid] at hne
      obtain ⟨change, hmem, hid'⟩ := hdescribes.complete id fun heq => hne (by rw [heq])
      rw [← ledgerKeyToXdr_inj hid' hid]
      exact List.mem_map_of_mem hmem

/-! ## What a step reports -/

/-- The changes an answer reports as made to the ledger. -/
def StrictAnswer.applied : StrictAnswer → List StateChange
  | .registered (.ok registration) => registration.stateChanges
  | .invoked (.ok receipt) =>
    if receipt.disposition = .committed then receipt.stateChanges else []
  | _ => []

/-- The receipt an answer hands out. -/
def StrictAnswer.receipt : StrictAnswer → List Receipt
  | .invoked (.ok receipt) => [receipt]
  | _ => []

/-- The changes lead from the one state to the other, in the ledger and in the coverage. -/
structure Reports (s s' : StrictCheckpoint) (changes : List StateChange) : Prop where
  fits : Fits (edits changes) s.snapshot.value
  ledger : replay (edits changes) s.snapshot.value = s'.snapshot.value
  coverage : updateCoverage changes s.coverage = .ok () s'.coverage

omit [SnapshotCrate] in
theorem Reports.refl (s : StrictCheckpoint) : Reports s s [] := ⟨trivial, rfl, rfl⟩

omit [SnapshotCrate] in
theorem updateCoverage_append {changes changes' : List StateChange} :
    ∀ {coverage coverage' coverage'' : Coverage},
    updateCoverage changes coverage = .ok () coverage' →
    updateCoverage changes' coverage' = .ok () coverage'' →
    updateCoverage (changes ++ changes') coverage = .ok () coverage'' := by
  induction changes with
  | nil =>
    intro coverage coverage' coverage'' h h'
    cases h
    exact h'
  | cons change rest ih =>
    intro coverage coverage' coverage'' h h'
    obtain ⟨id, c₁, hid, h₁⟩ := run_bind_eq_ok.mp h
    obtain ⟨_, c₂, hinsert, h₂⟩ := run_bind_eq_ok.mp h₁
    exact run_bind_eq_ok.mpr ⟨id, c₁, hid, run_bind_eq_ok.mpr ⟨_, c₂, hinsert, ih h₂ h'⟩⟩

omit [SnapshotCrate] in
theorem Reports.trans {s s' s'' : StrictCheckpoint} {changes changes' : List StateChange}
    (h : Reports s s' changes) (h' : Reports s' s'' changes') :
    Reports s s'' (changes ++ changes') := by
  have hedits : edits (changes ++ changes') = edits changes ++ edits changes' := List.map_append
  refine ⟨?_, ?_, updateCoverage_append h.coverage h'.coverage⟩
  · rw [hedits]
    exact h.fits.append (by rw [h.ledger]; exact h'.fits)
  · rw [hedits, replay_append, h.ledger, h'.ledger]

/-- **A step other than a revert changes what its answer reports, and nothing else.** -/
theorem strictStep_reports [LawfulCrates] [LawfulSnapshotCrate] {host : Host}
    (hhost : host.KeepsHeader) {op : StrictOp} (hop : ∀ checkpoint, op ≠ .revert checkpoint)
    {fork : StrictFork} (hprotocol : InNetworkProtocol fork) :
    Reports fork.checkpoint (strictStep host op fork).2.checkpoint
        (strictStep host op fork).1.applied ∧
      (strictStep host op fork).2.receipts = fork.receipts ++ (strictStep host op fork).1.receipt := by
  have hcase := strictStep_cases host op fork
  generalize strictStep host op fork = result at hcase
  cases hcase with
  | registered h =>
    obtain ⟨stored, coverage, hinstalls, hupdate, rfl⟩ := registerCandidate_eq_ok h
    obtain ⟨hfits, hreplay⟩ := hinstalls.transition.journal
    exact ⟨⟨hfits, hreplay, hupdate⟩, (List.append_nil _).symm⟩
  | @invoked request execution auth receipt fork' h =>
    have hdisposition := invoke_disposition h
    obtain ⟨after, hprepare, ⟨hcommits, rfl⟩ | ⟨hcommits, coverage, hupdate, rfl⟩⟩ := invoke_eq_ok h
    · have hnot : receipt.disposition ≠ .committed := fun hc => by
        rw [hdisposition.mp hc] at hcommits
        cases hcommits
      refine ⟨?_, rfl⟩
      rw [StrictAnswer.applied, if_neg hnot]
      exact .refl _
    · obtain ⟨setup, stored, hprepares⟩ := prepare_eq_ok hprepare
      obtain ⟨hheader, _⟩ := invokeAfter_spec hhost hprotocol hprepares
      obtain ⟨hfits, hreplay⟩ := hprepares.transition.journal
      have hshown := promoted_ledgerSnapshot receipt coverage hprotocol hheader
      refine ⟨?_, rfl⟩
      rw [StrictAnswer.applied, if_pos (hdisposition.mpr hcommits)]
      refine ⟨hfits, hreplay.trans ?_, hupdate⟩
      exact congrArg LedgerSnapshot.value hshown.symm
  | registerFailed | invokeFailed | checkpointed | foreign =>
    exact ⟨.refl _, (List.append_nil _).symm⟩
  | reverted => exact absurd rfl (hop _)

/-! ## Whole runs -/

/-- What someone knows of a fork who reads its answers. -/
structure Audit where
  journal : List StateChange
  receipts : List Receipt

/-- The audit behind one more answer. -/
def Audit.read (audit : Audit) (answer : StrictAnswer) : Audit :=
  ⟨audit.journal ++ answer.applied, audit.receipts ++ answer.receipt⟩

/--
The forks reachable from a fixture, each with its audit, and the checkpoints taken on the way,
each with the audit of that time. A revert takes up the journal of the checkpoint.
-/
inductive Audited (host : Host) (f : CapturedFixture) (id : UInt64) :
    StrictFork → List (StrictCheckpoint × Audit) → Audit → Prop
  | fork : Audited host f id (.fromCaptured id f.fixture.snapshot f.coverage) [] ⟨[], []⟩
  | step {fork : StrictFork} {taken : List (StrictCheckpoint × Audit)} {audit : Audit}
      (op : StrictOp) : (∀ checkpoint, op ≠ .revert checkpoint) →
      Audited host f id fork taken audit →
      Audited host f id (strictStep host op fork).2 taken (audit.read (strictStep host op fork).1)
  | checkpoint {fork : StrictFork} {taken : List (StrictCheckpoint × Audit)} {audit : Audit} :
      Audited host f id fork taken audit →
      Audited host f id fork ((fork.checkpoint, audit) :: taken) audit
  | revert {fork : StrictFork} {taken : List (StrictCheckpoint × Audit)} {audit saved : Audit}
      (checkpoint : StrictCheckpoint) : (checkpoint, saved) ∈ taken →
      Audited host f id fork taken audit →
      Audited host f id (strictStep host (.revert checkpoint) fork).2 taken ⟨saved.journal, []⟩
  | foreign {fork : StrictFork} {taken : List (StrictCheckpoint × Audit)} {audit : Audit}
      (checkpoint : StrictCheckpoint) : checkpoint.forkId ≠ fork.id →
      Audited host f id fork taken audit →
      Audited host f id (strictStep host (.revert checkpoint) fork).2 taken audit

/-- Every run can be audited. -/
theorem Reachable.audited {host : Host} {f : CapturedFixture} {id : UInt64} {fork : StrictFork}
    {taken : List StrictCheckpoint} (h : Reachable host f id fork taken) :
    ∃ (saved : List (StrictCheckpoint × Audit)) (audit : Audit), saved.map Prod.fst = taken ∧
      Audited host f id fork saved audit := by
  induction h with
  | fork => exact ⟨[], _, rfl, .fork⟩
  | registerCandidate address wasm expected args _ ih =>
    obtain ⟨saved, audit, htaken, h⟩ := ih
    exact ⟨saved, _, htaken, .step _ (by simp) h⟩
  | invoke request execution auth _ ih =>
    obtain ⟨saved, audit, htaken, h⟩ := ih
    exact ⟨saved, _, htaken, .step _ (by simp) h⟩
  | checkpoint _ ih =>
    obtain ⟨saved, audit, rfl, h⟩ := ih
    exact ⟨_ :: saved, audit, rfl, .checkpoint h⟩
  | revert checkpoint hown _ ih =>
    obtain ⟨saved, audit, rfl, h⟩ := ih
    rcases hown with hmem | hforeign
    · obtain ⟨⟨c, old⟩, hold, rfl⟩ := List.mem_map.mp hmem
      exact ⟨saved, _, rfl, .revert c hold h⟩
    · exact ⟨saved, audit, rfl, .foreign checkpoint hforeign h⟩

/-- What an audited state owes to the fixture. -/
structure Balanced (f : CapturedFixture) (id : UInt64) (s : StrictCheckpoint)
    (journal : List StateChange) : Prop where
  own : Own f id s
  reports : Reports (fromCaptured id f.fixture.snapshot f.coverage).checkpoint s journal

/-- The header of a fork stays in the protocol of its network. -/
theorem strictStep_own [LawfulSnapshotCrate] {host : Host} (hhost : host.KeepsHeader)
    {op : StrictOp} (hop : ∀ checkpoint, op ≠ .revert checkpoint) {f : CapturedFixture}
    {id : UInt64} {fork : StrictFork} (hprotocol : InNetworkProtocol fork)
    (h : Own f id fork.checkpoint) : Own f id (strictStep host op fork).2.checkpoint := by
  rcases strictStep_advances hhost hop hprotocol with heq | hadv
  · rw [heq]; exact h
  · exact ⟨hadv.forkId.trans h.forkId,
      (congrArg LedgerInfo.protocolVersion hadv.header).trans h.protocol⟩

/-- **The audit of a run is balanced**, now and at every checkpoint. -/
theorem Audited.balanced [LawfulCrates] [LawfulSnapshotCrate] {host : Host}
    (hhost : host.KeepsHeader) {f : CapturedFixture} {id : UInt64} {fork : StrictFork}
    {taken : List (StrictCheckpoint × Audit)} {audit : Audit}
    (h : Audited host f id fork taken audit) :
    fork.networkProtocolVersion = f.fixture.snapshot.protocolVersion ∧
      fork.receipts = audit.receipts ∧ Balanced f id fork.checkpoint audit.journal ∧
      ∀ x ∈ taken, Balanced f id x.1 x.2.journal := by
  induction h with
  | fork =>
    refine ⟨rfl, rfl, ⟨⟨rfl, ?_⟩, .refl _⟩, fun _ hx => absurd hx List.not_mem_nil⟩
    exact congrArg (fun s : LedgerSnapshot => s.protocolVersion)
      (networkLedgerSnapshot_forkEnv f.fixture.snapshot)
  | step op hop _ ih =>
    obtain ⟨hversion, hreceipts, hbalanced, htaken⟩ := ih
    have hprotocol := hbalanced.own.protocol.trans hversion.symm
    obtain ⟨hreports, hreceipt⟩ := strictStep_reports hhost hop hprotocol
    refine ⟨(strictStep_fixed host op _).2.trans hversion, ?_,
      ⟨strictStep_own hhost hop hprotocol hbalanced.own, hbalanced.reports.trans hreports⟩, htaken⟩
    rw [hreceipt, hreceipts]
    rfl
  | checkpoint _ ih =>
    obtain ⟨hversion, hreceipts, hbalanced, htaken⟩ := ih
    exact ⟨hversion, hreceipts, hbalanced, List.forall_mem_cons.mpr ⟨hbalanced, htaken⟩⟩
  | @revert fork taken audit saved checkpoint hmem _ ih =>
    obtain ⟨hversion, _, hbalanced, htaken⟩ := ih
    have hsaved : Balanced f id checkpoint saved.journal := htaken _ hmem
    have hid : checkpoint.forkId = fork.id :=
      hsaved.own.forkId.trans hbalanced.own.forkId.symm
    have hstep : (strictStep host (.revert checkpoint) fork).2 = reverted fork checkpoint := by
      show (resultOf (StrictFork.revert checkpoint) fork).2 = _
      rw [resultOf_ok (revert_own hid)]
    have hback := reverted_checkpoint hid (hsaved.own.protocol.trans hversion.symm)
    rw [hstep]
    exact ⟨hversion, rfl, hback.symm ▸ hsaved, htaken⟩
  | @foreign fork taken audit checkpoint hforeign _ ih =>
    have hstep : (strictStep host (.revert checkpoint) fork).2 = fork := by
      show (resultOf (StrictFork.revert checkpoint) fork).2 = _
      rw [resultOf_error (revert_foreign hforeign)]
    rw [hstep]
    exact ih

/--
**The journal accounts for the ledger.**

Every run can be audited. After any operations the reported changes since the capture, cut back by every revert to those
of its checkpoint, lead from the captured ledger to the ledger of the fork, and each change
tells truly what it has found. Undone, they lead back. The same changes lead from the captured
coverage to that of the fork, and the receipts are those handed out since the last revert.
-/
theorem journal_accounts_for_ledger [LawfulCrates] [LawfulSnapshotCrate] {host : Host}
    (hhost : host.KeepsHeader) (f : CapturedFixture) (id : UInt64) :
    (∀ fork taken, Reachable host f id fork taken → ∃ saved audit,
      saved.map Prod.fst = taken ∧ Audited host f id fork saved audit) ∧
    ∀ fork saved audit, Audited host f id fork saved audit →
      Fits (edits audit.journal) f.fixture.snapshot.value ∧
      replay (edits audit.journal) f.fixture.snapshot.value = fork.ledgerSnapshot.value ∧
      replay (undo (edits audit.journal)) fork.ledgerSnapshot.value = f.fixture.snapshot.value ∧
      updateCoverage audit.journal f.coverage = .ok () fork.coverage ∧
      fork.receipts = audit.receipts := by
  refine ⟨fun fork taken h => h.audited, fun fork saved audit h => ?_⟩
  obtain ⟨_, hreceipts, ⟨_, hfits, hreplay, hcoverage⟩, _⟩ := h.balanced hhost
  have hcaptured : (fromCaptured id f.fixture.snapshot f.coverage).checkpoint.snapshot
      = f.fixture.snapshot := networkLedgerSnapshot_forkEnv f.fixture.snapshot
  rw [hcaptured] at hfits hreplay
  refine ⟨hfits, hreplay, ?_, hcoverage, hreceipts⟩
  show replay (undo (edits audit.journal)) fork.checkpoint.snapshot.value = _
  rw [← hreplay, replay_undo hfits]

end Kanatoko

namespace Kanatoko.Testnet

open Fallible StrictFork Journal

/-- The history of a funded fork of the native asset. -/
theorem native_journal_accounts : ∃ f fork audit, ∃ taken : List (StrictCheckpoint × Audit),
    Audited nativeHost f 1 fork taken audit ∧ taken ≠ [] ∧
    replay (undo (edits audit.journal)) fork.ledgerSnapshot.value = f.fixture.snapshot.value := by
  obtain ⟨f, _, _, _⟩ := native_captured
  obtain ⟨fork, taken, hreach, htaken⟩ := nativeHost_reachable f
  obtain ⟨haudited, hbalanced⟩ := journal_accounts_for_ledger nativeHost_keepsHeader f 1
  obtain ⟨saved, audit, heq, h⟩ := haudited fork taken hreach
  refine ⟨f, fork, audit, saved, h, ?_, (hbalanced fork saved audit h).2.2.1⟩
  rintro rfl
  exact htaken heq.symm

end Kanatoko.Testnet
