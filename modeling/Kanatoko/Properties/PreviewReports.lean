import Kanatoko.Properties.Funding
import Kanatoko.Properties.PreviewCalls
import Kanatoko.Testnet.Host

/-!
# What a preview reports

A recording preview reports on a call of which everything is covered. Its report is that of the
next call exactly when the nonces that a fresh environment draws meet an existing one just as
the nonces do that the fork draws next.
-/

namespace Kanatoko

open Fallible Adaptive

variable [Crates]

/-! ## Values and changes -/

/-- The value a snapshot has under a key. -/
def LedgerSnapshot.valueAt (snapshot : LedgerSnapshot) (key : LedgerKey) : Option LedgerValue :=
  (snapshot.get key).map ledgerValue

theorem Keyed.held_eq_get [LawfulCrates] {snapshot : LedgerSnapshot}
    (h : Keyed snapshot.ledgerEntries) {key : LedgerKey} {id : KeyId}
    (hid : ledgerKeyToXdr key = some id) :
    held snapshot.ledgerEntries id = snapshot.get key := by
  refine Option.ext fun value => ?_
  rw [← h.mem_iff_held hid, LedgerSnapshot.get_eq_some_iff h.nodup_keys]

/-- A key that a keyed ledger has is encoded. -/
theorem Keyed.exists_id {snapshot : LedgerSnapshot} (h : Keyed snapshot.ledgerEntries)
    {key : LedgerKey} (hsome : snapshot.get key ≠ none) : ∃ id, ledgerKeyToXdr key = some id := by
  obtain ⟨value, hvalue⟩ := Option.ne_none_iff_exists'.mp hsome
  exact Option.isSome_iff_exists.mp
    (h.encoded _ ((LedgerSnapshot.get_eq_some_iff h.nodup_keys).mp hvalue))

/-- A diff lists exactly the keys whose values differ, with both values. -/
theorem mem_stateDiff_iff [LawfulCrates] {before after : LedgerSnapshot}
    (hb : Keyed before.ledgerEntries) (ha : Keyed after.ledgerEntries)
    {changes : List StateChange} (h : stateDiff before after = .ok changes)
    {change : StateChange} : change ∈ changes ↔ change.before ≠ change.after ∧
      change.before = before.valueAt change.key ∧ change.after = after.valueAt change.key := by
  obtain ⟨changes', h', hdescribes⟩ := stateDiff_spec hb ha
  cases h.symm.trans h'
  have hvalues : ∀ {key : LedgerKey} {id : KeyId}, ledgerKeyToXdr key = some id →
      (held before.ledgerEntries id).map ledgerValue = before.valueAt key ∧
        (held after.ledgerEntries id).map ledgerValue = after.valueAt key := by
    intro key id hid
    rw [hb.held_eq_get hid, ha.held_eq_get hid]
    exact ⟨rfl, rfl⟩
  constructor
  · intro hmem
    obtain ⟨id, hid, hne, hbefore, hafter⟩ := hdescribes.sound change hmem
    refine ⟨fun heq => hne ?_, hbefore.trans (hvalues hid).1, hafter.trans (hvalues hid).2⟩
    rw [hbefore, hafter] at heq
    exact Option.map_injective ledgerValue_injective heq
  · rintro ⟨hne, hbefore, hafter⟩
    -- one of the two ledgers has the key, so it has an id
    obtain ⟨id, hid⟩ : ∃ id, ledgerKeyToXdr change.key = some id := by
      by_cases hnone : before.get change.key = none
      · refine ha.exists_id fun hnone' => hne ?_
        rw [hbefore, hafter, LedgerSnapshot.valueAt, LedgerSnapshot.valueAt, hnone, hnone']
      · exact hb.exists_id hnone
    have hdiffers : held before.ledgerEntries id ≠ held after.ledgerEntries id := by
      intro heq
      apply hne
      rw [hbefore, hafter, ← (hvalues hid).1, ← (hvalues hid).2, heq]
    obtain ⟨change', hmem, hid'⟩ := hdescribes.complete id hdiffers
    obtain ⟨id'', hid'', _, hbefore', hafter'⟩ := hdescribes.sound change' hmem
    cases hid'.symm.trans hid''
    have hkey : change'.key = change.key := ledgerKeyToXdr_inj hid' hid
    have heq : change = change' := by
      obtain ⟨key, old, new⟩ := change
      obtain ⟨key', old', new'⟩ := change'
      dsimp only at *
      rw [hkey, hbefore, hafter, hbefore', hafter', (hvalues hid).1, (hvalues hid).2]
    rw [heq]
    exact hmem

theorem mem_keepOldNonces {nonces : List KeyId} : ∀ {entries kept : List SnapshotEntry},
    keepOldNonces nonces entries = .ok kept → ∀ {x : SnapshotEntry}, isNonceKey x.1 = false →
      (x ∈ kept ↔ x ∈ entries)
  | [], _, h, _, _ => by
    cases pure_eq_ok.mp h
    exact Iff.rfl
  | y :: rest, kept, h, x, hx => by
    rw [keepOldNonces] at h
    split at h
    · next hnonce =>
      obtain ⟨id, _, h₁⟩ := bind_eq_ok.mp h
      obtain ⟨kept', hrest, h₂⟩ := bind_eq_ok.mp h₁
      cases pure_eq_ok.mp h₂
      have hne : x ≠ y := by
        rintro rfl
        rw [hnonce] at hx
        cases hx
      have ih := mem_keepOldNonces hrest hx
      split <;> simp [hne, ih]
    · obtain ⟨kept', hrest, h₁⟩ := bind_eq_ok.mp h
      cases pure_eq_ok.mp h₁
      rw [List.mem_cons, List.mem_cons, mem_keepOldNonces hrest hx]

/-- Stripping leaves every entry that is no nonce. -/
theorem mem_stripNewMockNonces {before after stripped : LedgerSnapshot}
    (h : stripNewMockNonces before after = .ok stripped) {x : SnapshotEntry}
    (hx : isNonceKey x.1 = false) : x ∈ stripped.ledgerEntries ↔ x ∈ after.ledgerEntries := by
  obtain ⟨nonces, _, h₁⟩ := bind_eq_ok.mp h
  obtain ⟨entries, hkeep, h₂⟩ := bind_eq_ok.mp h₁
  cases pure_eq_ok.mp h₂
  exact mem_keepOldNonces hkeep hx

/-! ## Ledgers that encode -/

theorem Digestible.keyed {snapshot : LedgerSnapshot} (h : Digestible snapshot) :
    Keyed snapshot.ledgerEntries :=
  ⟨fun x hx => (h.encoded x hx).1, h.distinct⟩

theorem Digestible.sublist {before after : LedgerSnapshot} (h : Digestible before)
    (hsub : after.ledgerEntries.Sublist before.ledgerEntries) : Digestible after where
  own_key x hx := h.own_key x (hsub.subset hx)
  encoded x hx := h.encoded x (hsub.subset hx)
  distinct := h.distinct.sublist (hsub.map _)

instance (snapshot : LedgerSnapshot) : Decidable (Digestible snapshot) :=
  decidable_of_iff ((∀ x ∈ snapshot.ledgerEntries, x.1 = x.2.1.toKey) ∧
      (∀ x ∈ snapshot.ledgerEntries,
        (ledgerKeyToXdr x.1).isSome ∧ (ledgerEntryToXdr x.2.1).isSome) ∧
      (snapshot.ledgerEntries.map fun x => ledgerKeyToXdr x.1).Nodup)
    ⟨fun h => ⟨h.1, h.2.1, h.2.2⟩, fun h => ⟨h.own_key, h.encoded, h.distinct⟩⟩

theorem strictDigest_ok {snapshot : LedgerSnapshot} (h : Digestible snapshot) :
    ∃ digest, strictDigest snapshot = .ok digest := by
  obtain ⟨digest, hdigest⟩ := digest_iff_digestible.mpr h
  exact ⟨digest, mapError_eq_ok.mpr hdigest⟩

theorem strictKeyId_ok {key : LedgerKey} (h : (ledgerKeyToXdr key).isSome) :
    ∃ id, strictKeyId key = .ok id := by
  obtain ⟨id, hid⟩ := Option.isSome_iff_exists.mp h
  exact ⟨id, orError_eq_ok.mpr hid⟩

theorem keepOldNonces_ok (nonces : List KeyId) : ∀ {entries : List SnapshotEntry},
    (∀ x ∈ entries, (ledgerKeyToXdr x.1).isSome) →
    ∃ kept, keepOldNonces nonces entries = .ok kept ∧ kept.Sublist entries
  | [], _ => ⟨[], rfl, .slnil⟩
  | x :: rest, h => by
    obtain ⟨hx, hrest⟩ := List.forall_mem_cons.mp h
    obtain ⟨kept, hkept, hsub⟩ := keepOldNonces_ok nonces hrest
    obtain ⟨id, hid⟩ := strictKeyId_ok hx
    rw [keepOldNonces, hkept, hid]
    split
    · refine ⟨_, rfl, ?_⟩
      split
      · exact hsub.cons_cons x
      · exact hsub.cons x
    · exact ⟨_, rfl, hsub.cons_cons x⟩

/-- Stripping a ledger that encodes leaves one that encodes. -/
theorem stripNewMockNonces_ok {before after : LedgerSnapshot} (hbefore : Digestible before)
    (hafter : Digestible after) :
    ∃ stripped, stripNewMockNonces before after = .ok stripped ∧ Digestible stripped := by
  have hids : ∀ x ∈ before.ledgerEntries.filter fun x => isNonceKey x.1,
      strictKeyId x.1 = .ok ((ledgerKeyToXdr x.1).getD []) := by
    intro x hx
    obtain ⟨id, hid⟩ := strictKeyId_ok (hbefore.keyed.encoded x (List.mem_filter.mp hx).1)
    rw [hid, orError_eq_ok.mp hid]
    rfl
  obtain ⟨kept, hkept, hsub⟩ := keepOldNonces_ok
    ((before.ledgerEntries.filter fun x => isNonceKey x.1).map fun x =>
      (ledgerKeyToXdr x.1).getD []) hafter.keyed.encoded
  refine ⟨{ after with ledgerEntries := kept }, ?_, hafter.sublist hsub⟩
  exact bind_eq_ok.mpr ⟨_, mapM_eq_ok_map hids, bind_eq_ok.mpr ⟨kept, hkept, rfl⟩⟩

/-! ## A preview reports -/

/-- The report has the outcome of a call between two ledgers, and its changes of everything
but nonces. -/
structure Predicts (report : InvocationReport) (before after : LedgerSnapshot)
    (outcome : InvokeOutcome) : Prop where
  outcome_eq : report.receipt.outcome = outcome
  changes_iff : ∀ key, isNonceKey key = false → ∀ old new : Option LedgerValue,
    ⟨key, old, new⟩ ∈ report.receipt.stateChanges ↔
      old ≠ new ∧ old = before.valueAt key ∧ new = after.valueAt key

variable [SnapshotCrate] {σ : Type} {host : MockHost} {transport : Option (Transport σ)}
  {m : Materialized} {snapshot : LedgerSnapshot} {fork : MockFork} {request : InvokeRequest}
  {report : InvocationReport} {localLedger : LocalLedger} {st : PassState σ}

/-- The Host of the child hands out its diagnostics, and the ledgers before and behind the call
encode. -/
structure Inspected (host : MockHost) (fork : MockFork) (request : InvokeRequest) : Prop where
  diagnostics : (fork.childCall host request).1.diagnostics ≠ none
  before : Digestible fork.ledgerSnapshot
  after : Digestible (fork.childAfter (fork.childCall host request).2.stored)

instance (host : MockHost) (fork : MockFork) (request : InvokeRequest) :
    Decidable (Inspected host fork request) :=
  decidable_of_iff ((fork.childCall host request).1.diagnostics ≠ none ∧
      Digestible fork.ledgerSnapshot ∧
      Digestible (fork.childAfter (fork.childCall host request).2.stored))
    ⟨fun h => ⟨h.1, h.2.1, h.2.2⟩, fun h => ⟨h.diagnostics, h.before, h.after⟩⟩

/-- What a report was computed from. -/
structure Reported (host : MockHost) (fork : MockFork) (request : InvokeRequest)
    (report : InvocationReport) (after : LedgerSnapshot) : Prop where
  outcome_eq : report.receipt.outcome = invokeOutcome (fork.childCall host request).1.raw
  stripped : stripNewMockNonces fork.ledgerSnapshot
    (fork.childAfter (fork.childCall host request).2.stored) = .ok after
  keyed_before : Keyed fork.ledgerSnapshot.ledgerEntries
  keyed_after : Keyed after.ledgerEntries
  changes_eq : stateDiff fork.ledgerSnapshot after = .ok report.receipt.stateChanges

/-- A recording preview has nothing to compare, and its ledgers encode. -/
theorem report_reported (h : Inspected host fork request) (beforeDigest : Bytes32) (reads : Nat) :
    ∃ report after, fork.report host request .record beforeDigest reads = .ok report ∧
      Reported host fork request report after := by
  obtain ⟨diagnostics, hdiagnostics⟩ := Option.ne_none_iff_exists'.mp h.diagnostics
  obtain ⟨after, hstripped, hafter⟩ := stripNewMockNonces_ok h.before h.after
  obtain ⟨afterDigest, hdigest⟩ := strictDigest_ok hafter
  obtain ⟨changes, hchanges, _⟩ := stateDiff_spec h.before.keyed hafter.keyed
  refine ⟨_, after, bind_eq_ok.mpr ⟨⟨⟩, ensure_eq_ok.mpr (by simp [PreviewAuth.expected]),
    bind_eq_ok.mpr ⟨after, hstripped, bind_eq_ok.mpr ⟨afterDigest, hdigest,
      bind_eq_ok.mpr ⟨changes, hchanges, bind_eq_ok.mpr ⟨_, bind_eq_ok.mpr
        ⟨diagnostics, orError_eq_ok.mpr hdiagnostics, rfl⟩, rfl⟩⟩⟩⟩⟩, ?_⟩
  exact ⟨rfl, hstripped, h.before.keyed, hafter.keyed, hchanges⟩

/-- The child of a preview stores covered keys, and nonces. -/
def ChildCovered (host : MockHost) (m : Materialized) (localLedger : LocalLedger)
    (fork : MockFork) (request : InvokeRequest) : Prop :=
  ∀ key ∈ (fork.childCall host request).2.stored.keys, isNonceKey key = false →
    OwnedOrCovered m localLedger key

instance (host : MockHost) (m : Materialized) (localLedger : LocalLedger) (fork : MockFork)
    (request : InvokeRequest) : Decidable (ChildCovered host m localLedger fork request) :=
  List.decidableBAll _ _

omit [SnapshotCrate] in
/-- What is covered is observed without an error. -/
theorem observeAll_covered (transport : Option (Transport σ)) :
    ∀ {keys : List LedgerKey} {st : PassState σ},
    (∀ key ∈ keys, isNonceKey key = false → OwnedOrCovered m localLedger key) →
    Answering m localLedger st →
    (observeAll transport keys false st).1 = false ∧
      Answering m localLedger (observeAll transport keys false st).2
  | [], _, _, hst => ⟨rfl, hst⟩
  | key :: rest, st, hkeys, hst => by
    obtain ⟨hkey, hrest⟩ := List.forall_mem_cons.mp hkeys
    rw [observeAll]
    split
    · exact observeAll_covered transport hrest hst
    · next hnonce =>
      obtain ⟨hanswer, hst'⟩ := get_covered transport hst (hkey (by simpa using hnonce))
      split
      · next heq => rw [heq] at hanswer; cases hanswer
      · next heq =>
        rw [heq] at hst'
        exact observeAll_covered transport hrest hst'

omit [SnapshotCrate] in
theorem forwardPreviewReads_covered (transport : Option (Transport σ)) {keys : List LedgerKey}
    (hkeys : ∀ key ∈ keys, isNonceKey key = false → OwnedOrCovered m localLedger key)
    (hst : Answering m localLedger st) : ∃ reads,
    (forwardPreviewReads transport (some keys) st).1 = .ok reads ∧
      Answering m localLedger (forwardPreviewReads transport (some keys) st).2 := by
  have hstart : Answering m localLedger (st.1, st.2.record (.preview (some keys))) :=
    ⟨hst.no_failure, hst.no_unknown, hst.localLedger_eq, hst.keeps⟩
  obtain ⟨hobserved, hend⟩ := observeAll_covered transport hkeys hstart
  unfold forwardPreviewReads
  dsimp only
  rw [if_neg (by simp [hend.no_unknown]), if_neg (by simp [hobserved])]
  exact ⟨_, rfl, hend⟩

omit [Crates] in
/-- The child of a failed preview stores what its call has looked up ahead of its frame. -/
theorem childCall_fails (h : (fork.childCall host request).1.raw.commits = false) :
    (fork.childCall host request).2.stored =
      host.lookedUp fork.child.ledgerInfo request (serveSnapshot fork.child.snapshot)
        ⟨fork.child.storedEntries, 0, []⟩ () :=
  host.call_fails fork.child.ledgerInfo request ⟨fork.child.storedEntries, 0, []⟩ () h

/-- The function and the arguments of a call convert, to XDR values and to Host values. -/
structure Converts (host : MockHost) (info : LedgerInfo) (request : InvokeRequest) : Prop where
  fitsSymbol : request.fitsSymbol = true
  detaches : host.detaches info request.args = true
  valid : host.validInvocation info request = true

/-- **A recording preview reports on every call that converts, when the child is covered.** -/
theorem preview_reports (transport : Option (Transport σ)) (hpass : OnPass m snapshot fork)
    (hconverts : Converts host fork.env.ledgerInfo request)
    (hinspected : Inspected host fork request) (hst : Answering m localLedger st)
    (hcovered : ChildCovered host m localLedger fork request) : ∃ report after,
    ((fork.preview host request .record).run (serve transport) st).1 = .ok report ∧
      Reported host fork request report after ∧
      Answering m localLedger ((fork.preview host request .record).run (serve transport) st).2 := by
  obtain ⟨beforeDigest, hbefore⟩ := strictDigest_ok hinspected.before
  obtain ⟨reads, hreads, hend⟩ := forwardPreviewReads_covered transport hcovered hst
  obtain ⟨report, after, hreport, hreported⟩ := report_reported hinspected beforeDigest reads
  have hvalid : host.validInvocation fork.child.ledgerInfo request = true := by
    rw [hpass.child_ledgerInfo]
    exact hconverts.valid
  have hdetaches :
      (request.fitsSymbol && host.detaches fork.env.ledgerInfo request.args) = true := by
    rw [hconverts.fitsSymbol, hconverts.detaches, Bool.and_self]
  have hrun : (fork.preview host request .record).run (serve transport) st =
      (.ok report, (forwardPreviewReads transport
        (some (fork.childCall host request).2.stored.keys) st).2) := by
    have hanswer : (serve transport (.preview (some (fork.childCall host request).2.stored.keys))
        st).1 = .ok reads := hreads
    unfold MockFork.preview
    simp only [if_pos hdetaches, hbefore, if_pos hvalid, Client.run_ask]
    rw [hanswer, ← hreport]
    rfl
  rw [hrun]
  exact ⟨report, after, rfl, hreported, hend⟩

/-! ## A preview and the next call -/

/-- The changes of a report are those of the call on the ledger of the fork. -/
theorem Reported.mem_stateChanges [LawfulCrates] [LawfulSnapshotCrate]
    {after : LedgerSnapshot} (h : Reported host fork request report after)
    (hpass : OnPass m snapshot fork) {key : LedgerKey} (hkey : isNonceKey key = false)
    (old new : Option LedgerValue) : ⟨key, old, new⟩ ∈ report.receipt.stateChanges ↔
      old ≠ new ∧ old = fork.ledgerSnapshot.valueAt key ∧
        new = (host.entriesOn fork.env.ledgerInfo request fork.ledgerSnapshot.get 0
          ⟨key, hkey⟩).map ledgerValue := by
  have hafter : after.get key = host.entriesOn fork.env.ledgerInfo request
      fork.ledgerSnapshot.get 0 ⟨key, hkey⟩ := by
    rw [← (childCall_spec hpass).2, ← congrFun (get_childAfter h.keyed_before.nodup_keys _) key]
    refine Option.ext fun value => ?_
    have hmem : ∀ value, (key, value) ∈ after.ledgerEntries ↔ (key, value) ∈
        (fork.childAfter (fork.childCall host request).2.stored).ledgerEntries :=
      fun value => mem_stripNewMockNonces h.stripped hkey
    rw [LedgerSnapshot.get_eq_some_iff h.keyed_after.nodup_keys, hmem]
    refine (find_key_eq_some_iff fun value value' hv hv' => ?_).symm
    exact value_unique h.keyed_after.nodup_keys _ _ ((hmem value).mpr hv) ((hmem value').mpr hv')
  rw [mem_stateDiff_iff h.keyed_before h.keyed_after h.changes_eq,
    LedgerSnapshot.valueAt, LedgerSnapshot.valueAt, hafter]

/-- What decides over a preview: the nonces that a fresh environment draws for the call meet one
that exists, exactly when the nonces that the fork draws next do. -/
def DrawAlike (host : MockHost) (fork : MockFork) (request : InvokeRequest) : Prop :=
  host.freshCall fork.env.ledgerInfo request fork.ledgerSnapshot.get 0
    = host.freshCall fork.env.ledgerInfo request fork.ledgerSnapshot.get fork.drawn

/-- The call fails, with no nonce in its way, as it does when a nonce exists. -/
def FailsAnyway (host : MockHost) (fork : MockFork) (request : InvokeRequest) : Prop :=
  invokeOutcome (host.idealCall fork.env.ledgerInfo request fork.ledgerSnapshot.get).1.raw
    = invokeOutcome (host.trapped .nonceExists).raw

omit [Crates] in
/-- Before anything is drawn, the fork draws what a fresh environment draws. -/
theorem DrawAlike.of_drawn_eq_zero (h : fork.drawn = 0) : DrawAlike host fork request := by
  unfold DrawAlike
  rw [h]

/-- The source behind a recording preview. -/
def MockFork.afterPreview (host : MockHost) (transport : Option (Transport σ)) (fork : MockFork)
    (request : InvokeRequest) (st : PassState σ) : PassState σ :=
  ((fork.preview host request .record).run (serve transport) st).2

/-- The call that is executed behind a recording preview. -/
def MockFork.nextCall (host : MockHost) (transport : Option (Transport σ)) (fork : MockFork)
    (request : InvokeRequest) (st : PassState σ) : InvokeOutcome × MockFork :=
  ((fork.tryInvoke host request).run (serve transport)
    (fork.afterPreview host transport request st)).1

/-- A recording preview reports, and its report has the outcome and the changes of the call that is
executed next. -/
def Predicted (host : MockHost) (transport : Option (Transport σ)) (fork : MockFork)
    (request : InvokeRequest) (st : PassState σ) : Prop :=
  ∃ report, ((fork.preview host request .record).run (serve transport) st).1 = .ok report ∧
    Predicts report fork.ledgerSnapshot (fork.nextCall host transport request st).2.ledgerSnapshot
      (fork.nextCall host transport request st).1

/-- Everything a call touches is covered. What its preview leaves in the child is covered or
owned by the pass; what the call asks the source for when it is executed next is not owned by the
pass over something that is captured. Nothing has failed so far. -/
structure CoversCall (host : MockHost) (transport : Option (Transport σ)) (m : Materialized)
    (fork : MockFork) (request : InvokeRequest) (st : PassState σ) : Prop where
  no_failure : st.1.failure = none
  no_unknown : st.1.unknown = ∅
  child : ChildCovered host m st.1.localLedger fork request
  next : ∀ key ∈ (host.call fork.env.ledgerInfo request fork.host).asked
    (TrackingSource.get transport) (fork.afterPreview host transport request st),
    AnswersOffline m st.1.localLedger key

instance (host : MockHost) (transport : Option (Transport σ)) (m : Materialized) (fork : MockFork)
    (request : InvokeRequest) (st : PassState σ) :
    Decidable (CoversCall host transport m fork request st) :=
  decidable_of_iff (st.1.failure = none ∧ st.1.unknown = ∅ ∧
      ChildCovered host m st.1.localLedger fork request ∧
      ∀ key ∈ (host.call fork.env.ledgerInfo request fork.host).asked
        (TrackingSource.get transport) (fork.afterPreview host transport request st),
        AnswersOffline m st.1.localLedger key)
    ⟨fun h => ⟨h.1, h.2.1, h.2.2.1, h.2.2.2⟩,
      fun h => ⟨h.no_failure, h.no_unknown, h.child, h.next⟩⟩

/-- A preview that reports has converted its call. -/
theorem Predicted.converts (hpass : OnPass m snapshot fork)
    (h : Predicted host transport fork request st) :
    Converts host fork.env.ledgerInfo request := by
  obtain ⟨report, hreport, -⟩ := h
  unfold MockFork.preview at hreport
  split at hreport
  · next hdetaches =>
    rw [Bool.and_eq_true] at hdetaches
    split at hreport
    · cases hreport
    · split at hreport
      · next hvalid =>
        rw [hpass.child_ledgerInfo] at hvalid
        exact ⟨hdetaches.1, hdetaches.2, hvalid⟩
      · cases hreport
  · cases hreport

/--
**When a preview predicts the next call.**

In every state that a pass reaches, and for every call of which everything is covered: a
recording preview reports, with the outcome and the changes of the call that is executed next,
exactly when the values of the call convert, and the draws of both meet an existing nonce or
the draws of both do not. The one exception is a call that fails in the words of an existing
nonce by itself.
-/
theorem preview_predicts_iff [LawfulCrates] [LawfulSnapshotCrate] {w : World σ}
    (hm : snapshotFromMaterialized m = .ok snapshot)
    (h : MockReachable host transport m snapshot w fork st)
    (hinspected : Inspected host fork request)
    (hcovers : CoversCall host transport m fork request st) :
    Predicted host transport fork request st ↔
      Converts host fork.env.ledgerInfo request ∧
        (DrawAlike host fork request ∨ FailsAnyway host fork request) := by
  obtain ⟨hpass, hkeeps⟩ := h.onPass
  have hst : Answering m st.1.localLedger st :=
    ⟨hcovers.no_failure, hcovers.no_unknown, rfl, hkeeps⟩
  -- a call that does not convert is not predicted, so it may be taken to convert
  by_cases hconverts : Converts host fork.env.ledgerInfo request
  case neg => exact ⟨fun h => absurd (h.converts hpass) hconverts, fun h => absurd h.1 hconverts⟩
  obtain ⟨report, after, hreport, hreported, hnext⟩ :=
    preview_reports transport hpass hconverts hinspected hst hcovers.child
  obtain ⟨houtcome, hentries⟩ := tryInvoke_spec hm hpass hnext hcovers.next
    (by rw [hconverts.fitsSymbol, hconverts.valid, Bool.and_self])
  have hours := hreported.outcome_eq
  rw [(childCall_spec hpass).1] at hours
  unfold DrawAlike FailsAnyway
  rw [← host.outcome_eq_iff]
  constructor
  · rintro ⟨report', hreport', hpredicts⟩
    cases hreport.symm.trans hreport'
    exact ⟨hconverts, hours.symm.trans (hpredicts.outcome_eq.trans houtcome)⟩
  · rintro ⟨-, heq⟩
    refine ⟨report, hreport, hours.trans (heq.trans houtcome.symm), fun key hkey old new => ?_⟩
    rw [hreported.mem_stateChanges hpass hkey, host.entriesOn_eq _ _ heq,
      ← hentries ⟨key, hkey⟩]
    rfl

end Kanatoko

namespace Kanatoko.Testnet

open Adaptive

/-! ## Two payments -/

/-- The account with one stroop less. -/
def paidEntry : Option PresentEntry → Option PresentEntry
  | some (⟨ledgerSeq, .account account, ext⟩, liveUntil) =>
    some (⟨ledgerSeq, .account { account with balance := account.balance - 1 }, ext⟩, liveUntil)
  | other => other

/-- The account of `alice`, who authorizes it, pays. -/
def payment : HostProgram CallEnd :=
  .ask (.draw (.account alice)) fun _ =>
    .ask (.get ⟨.account alice, rfl⟩) fun entry =>
      .ask (.put ⟨.account alice, rfl⟩ (paidEntry entry)) fun _ => .done
        { raw := .value (.other [0, 0, 0, 1])
          auth := [[⟨.account alice, []⟩]]
          events := []
          diagnostics := some [] }

def abortedCall : CallEnd where
  raw := .abort
  auth := []
  events := []
  diagnostics := some []

def codeEntry (wasm : Bytes) : LedgerEntry where
  lastModifiedLedgerSeq := nativeInfo.sequenceNumber
  data := .contractCode ⟨[0, 0, 0, 0], sha256 wasm, wasm⟩
  ext := .v0

def deployedInstance (contract : ScAddress) (wasm : Bytes) : LedgerEntry where
  lastModifiedLedgerSeq := nativeInfo.sequenceNumber
  data := .contractData ⟨contract, .ledgerKeyContractInstance, .persistent,
    .contractInstance ⟨.wasm (sha256 wasm), none⟩⟩
  ext := .v0

/-- The code that the instance of a contract refers to. -/
def wasmOf (entry : Option PresentEntry) : Option Hash :=
  match entry.bind fun x => (LookupState.present x.1 x.2).executable? with
  | some (.wasm hash) => some hash
  | _ => none

/-- A call of a contract whose code is there pays. -/
def paymentCall (request : InvokeRequest) : Lookups (HostProgram CallEnd) :=
  .ask ⟨contractInstanceKey request.contract, rfl⟩ fun entry =>
    match wasmOf entry with
    | none => .done (.done abortedCall)
    | some hash => .ask ⟨.contractCode hash, rfl⟩ fun code =>
      .done (if code.isSome then payment else .done abortedCall)

/-- Adds code that the ledger does not have yet. -/
def uploadCode (wasm : Bytes) : HostProgram (Option Hash) :=
  .ask (.get ⟨.contractCode (sha256 wasm), rfl⟩) fun existing =>
    if existing.isSome then .done (some (sha256 wasm))
    else .ask (.put ⟨.contractCode (sha256 wasm), rfl⟩ (some (codeEntry wasm, some 5104877)))
      fun _ => .done (some (sha256 wasm))

/-- The registration of a contract, whose constructor does nothing. -/
def registration (contract : ScAddress) (wasm : Bytes) : HostProgram (Option ScAddress) :=
  (uploadCode wasm).andThen id (fun _ answer => answer) fun _ =>
    .ask (.put ⟨contractInstanceKey contract, rfl⟩
      (some (deployedInstance contract wasm, some 5104877))) fun _ =>
        .ask .push fun _ => .ask (.pop true) fun _ => .done (some contract)

def payingHost : MockHost where
  nonces := Int64.ofNat
  nonceEntry info address nonce :=
    (⟨info.sequenceNumber, .contractData
      { contract := address
        key := .ledgerKeyNonce nonce
        durability := .temporary
        val := .other [0, 0, 0, 1] }, .v0⟩, some 4990117)
  generate generators := (smallContract 1, generators)
  detaches _ _ := true
  validInvocation _ _ := true
  invoke _ request := paymentCall request
  register _ contract wasm _ := registration contract wasm
  trapped _ := abortedCall
  trapped_fails _ := rfl

/-- A ledger without `alice`, and with code that no contract has yet. -/
def paymentPass : Materialized where
  anchor := nativeAnchor
  ledgerInfo := nativeInfo
  coverage := (((∅ : Coverage).insert ((ledgerKey.encode (.account alice)).getD []) .absent).insert
    ((ledgerKey.encode (contractInstanceKey (smallContract 1))).getD []) .absent).insert
    ((ledgerKey.encode (.contractCode (sha256 emptyWasm))).getD [])
    (.present (codeEntry emptyWasm) (some 5104877))

def paymentSnapshot : LedgerSnapshot :=
  { nativeInfo with
    ledgerEntries :=
      [(.contractCode (sha256 emptyWasm), (codeEntry emptyWasm, some 5104877))] }

def paymentRequest : InvokeRequest := ⟨smallContract 1, asBytes "pay", []⟩

/-- What a list of operations leaves, over the strict source of the pass. -/
def afterOps (ops : List MockOp) : MockFork × PassState Unit :=
  ops.foldl (fun x op => (mockStep payingHost x.1 op).run (serve none) x.2)
    (.new (forkEnvOf (.ledger nativeInfo paymentSnapshot)) nativeInfo.protocolVersion,
      (.new paymentPass.coverage nativeInfo.protocolVersion, nativeWorld))

theorem afterOps_reachable (ops : List MockOp) : MockReachable payingHost none paymentPass
    paymentSnapshot nativeWorld (afterOps ops).1 (afterOps ops).2 := by
  induction ops using List.reverseRecOn with
  | nil => exact .start
  | append_singleton ops op ih =>
    rw [afterOps, List.foldl_append]
    exact .step op ih

/-- A contract is deployed with the captured code, and `alice` is created and funded. -/
def funding : List MockOp :=
  [.deploy emptyWasm [], .localAccount "alice", .fundLocalAccount (.account alice) 10000000]

/-- She has paid once. -/
def firstPayment : List MockOp := funding ++ [.tryInvoke paymentRequest]

theorem paymentPass_snapshot : snapshotFromMaterialized paymentPass = .ok paymentSnapshot := by
  refine snapshotFromMaterialized_eq_ok.mpr ⟨rfl, snapshotEntries_eq_ok.mpr ?_⟩
  have hlist : paymentPass.coverage.toList
      = [((ledgerKey.encode (.account alice)).getD [], .absent),
        ((ledgerKey.encode (contractInstanceKey (smallContract 1))).getD [], .absent),
        ((ledgerKey.encode (.contractCode (sha256 emptyWasm))).getD [],
          .present (codeEntry emptyWasm) (some 5104877))] := by
    decide +kernel
  have hkey : ledgerKeyToXdr (.contractCode (sha256 emptyWasm))
      = some ((ledgerKey.encode (.contractCode (sha256 emptyWasm))).getD []) := by
    decide +kernel
  rw [hlist]
  refine ⟨rfl, fun id entry liveUntil hmem => ?_⟩
  simp only [List.mem_cons, Prod.mk.injEq, reduceCtorEq, and_false, List.not_mem_nil, false_or,
    or_false, LookupState.present.injEq] at hmem
  obtain ⟨rfl, rfl, rfl⟩ := hmem
  exact ⟨rfl, hkey⟩

theorem funding_covered : Inspected payingHost (afterOps funding).1 paymentRequest ∧
    CoversCall payingHost none paymentPass (afterOps funding).1 paymentRequest
      (afterOps funding).2 ∧
    (afterOps funding).1.drawn = 0 := by
  decide +kernel

theorem firstPayment_covered : Inspected payingHost (afterOps firstPayment).1 paymentRequest ∧
    CoversCall payingHost none paymentPass (afterOps firstPayment).1 paymentRequest
      (afterOps firstPayment).2 := by
  decide +kernel

/-- The child meets the nonce of the first payment. -/
theorem preview_after_firstPayment :
    (((afterOps firstPayment).1.preview payingHost paymentRequest .record).run (serve none)
        (afterOps firstPayment).2).1.toOption.map (fun report => report.receipt.outcome)
      = some (.failure none .abort) := by
  decide +kernel

/-- What the call has looked up ahead of its frame stays looked up in the child. -/
example : ∀ key ∈ [contractInstanceKey (smallContract 1), .contractCode (sha256 emptyWasm)],
    key ∈ ((afterOps firstPayment).1.childCall payingHost paymentRequest).2.stored.keys := by
  decide +kernel

/-- The fork itself draws another nonce. -/
theorem nextCall_after_firstPayment :
    ((afterOps firstPayment).1.nextCall payingHost none paymentRequest
        (afterOps firstPayment).2).1
      = .success (.other [0, 0, 0, 1]) := by
  decide +kernel

/-- The preview of a second payment fails, and the payment itself succeeds. -/
theorem second_payment_not_predicted : ∃ fork st,
    snapshotFromMaterialized paymentPass = .ok paymentSnapshot ∧
    MockReachable payingHost none paymentPass paymentSnapshot nativeWorld fork st ∧
    Converts payingHost fork.env.ledgerInfo paymentRequest ∧
    Inspected payingHost fork paymentRequest ∧
    CoversCall payingHost none paymentPass fork paymentRequest st ∧
    ¬ Predicted payingHost none fork paymentRequest st := by
  obtain ⟨hinspected, hcovers⟩ := firstPayment_covered
  refine ⟨_, _, paymentPass_snapshot, afterOps_reachable firstPayment, ⟨rfl, rfl, rfl⟩,
    hinspected, hcovers, ?_⟩
  rintro ⟨report, hreport, hpredicts⟩
  have hpreview := preview_after_firstPayment
  rw [hreport] at hpreview
  have hfailed : report.receipt.outcome = .failure none .abort := Option.some.inj hpreview
  have houtcome := hpredicts.outcome_eq
  rw [nextCall_after_firstPayment, hfailed] at houtcome
  cases houtcome

/-- The preview of the first payment predicts it, though the code that it runs is captured, and
deployed again by the pass. -/
theorem first_payment_predicted :
    (afterOps funding).2.1.localLedger.owns (.contractCode (sha256 emptyWasm)) = true ∧
    paymentPass.captured (.contractCode (sha256 emptyWasm)) ≠ none ∧
    Predicted payingHost none (afterOps funding).1 paymentRequest (afterOps funding).2 := by
  obtain ⟨hinspected, hcovers, hdrawn⟩ := funding_covered
  refine ⟨by decide +kernel, by decide +kernel, ?_⟩
  exact (preview_predicts_iff paymentPass_snapshot (afterOps_reachable funding) hinspected
    hcovers).mpr ⟨⟨rfl, rfl, rfl⟩, .inl (.of_drawn_eq_zero hdrawn)⟩

end Kanatoko.Testnet
