import Kanatoko.Properties.DiffExact
import Kanatoko.Properties.ForkRuns
import Kanatoko.Properties.HostRuns
import Kanatoko.Properties.Rounds

/-!
# Previews and the next call

A preview runs the call in a child over the ledger of the fork, where the nonces are drawn from
the start of the sequence. The call itself is run next on the fork, where the drawing goes on.
Both do on one ledger what contract code does there, so they differ only in whether a drawn
nonce exists already.
-/

namespace Kanatoko

open Fallible Adaptive

/-! ## A call on a ledger -/

/-- What the frame of a call starts from, on a ledger. -/
def drawing (ledger : LedgerKey → Option PresentEntry) (drawn : Nat) :
    Draws.State ContractKey PresentEntry ScAddress Int64 where
  toContents := contents ledger
  drawn := drawn
  frames := []

namespace MockHost

variable (host : MockHost) (info : LedgerInfo) (request : InvokeRequest)

/-- The call as if no nonce existed: its end, the entries it leaves, and the addresses that
authorize it, frame by frame. -/
def idealCall (ledger : LedgerKey → Option PresentEntry) :
    CallEnd × (ContractKey → Option PresentEntry) × List (Draws.Mark ScAddress) :=
  Draws.ideal (loaded ledger (host.invoke info request)) (contents ledger).data []

/-- No nonce that the call draws from a position on exists. -/
def freshCall (ledger : LedgerKey → Option PresentEntry) (drawn : Nat) : Bool :=
  (drawing ledger drawn).fresh host.nonces (loaded ledger (host.invoke info request))

/-- How the call ends on a ledger. -/
def endOn (ledger : LedgerKey → Option PresentEntry) (drawn : Nat) : CallEnd :=
  if host.freshCall info request ledger drawn then (host.idealCall info request ledger).1
  else host.trapped .nonceExists

/-- The entries the call leaves on a ledger. -/
def entriesOn (ledger : LedgerKey → Option PresentEntry) (drawn : Nat) :
    ContractKey → Option PresentEntry :=
  if (host.endOn info request ledger drawn).raw.commits then
    (host.idealCall info request ledger).2.1
  else fun key => ledger key.1

section

variable {S : Type} {get : Server LedgerKey (fun _ => LookupAnswer) S} {Inv : S → Prop}
  {K : LedgerKey → Prop} {base : LedgerKey → Option PresentEntry}

theorem run_call (s : HostState) (t : S) : (host.call info request s).run get t =
    let r := (HostState.load (host.invoke info request) s (host.inFrame info)).run get t
    ((host.callEnd r.1.1, r.1.2), r.2) :=
  Client.run_andThen get _ _ t

theorem asked_call (s : HostState) (t : S) : (host.call info request s).asked get t =
    (HostState.load (host.invoke info request) s (host.inFrame info)).asked get t :=
  (Client.asked_andThen_done get _ _ t).trans (List.map_id _)

theorem run_inFrame (body : HostProgram CallEnd) (s : HostState) (t : S) :
    (host.inFrame info body s).run get t =
      let r := (host.on info body ⟨s.stored, s.drawn, []⟩).run get t
      ((r.1.1, settle s r.1.2 (host.callEnd r.1.1).raw.commits), r.2) :=
  Client.run_andThen get _ _ t

theorem asked_inFrame (body : HostProgram CallEnd) (s : HostState) (t : S) :
    (host.inFrame info body s).asked get t =
      (host.on info body ⟨s.stored, s.drawn, []⟩).asked get t :=
  (Client.asked_andThen_done get _ _ t).trans (List.map_id _)

theorem overlay_settle (before after : HostState) (succeeded : Bool) :
    (settle before after succeeded).stored.overlay base =
      if succeeded then after.stored.overlay base else before.stored.overlay base := by
  unfold settle
  split <;> rfl

/-- What a call does in its frame, it does on the ledger the Host shows. -/
theorem inFrame_spec (hget : Serves get Inv K base) (body : HostProgram CallEnd) (s : HostState)
    {t : S} (ht : Inv t) (hK : ∀ key ∈ (host.inFrame info body s).asked get t, K key) :
    let start := drawing (s.stored.overlay base) s.drawn
    let r := ((host.inFrame info body s).run get t).1
    host.callEnd r.1 = (if start.fresh host.nonces body then (start.ideal body).1
        else host.trapped .nonceExists) ∧
      ∀ key : ContractKey, r.2.stored.overlay base key.1 =
        if (host.callEnd r.1).raw.commits then (start.ideal body).2.1 key
        else s.stored.overlay base key.1 := by
  rw [asked_inFrame] at hK
  rw [run_inFrame]
  have hon : EndsAs Inv base _ (Draws.exec host.nonces body (drawing (s.stored.overlay base)
    s.drawn)) := host.on_spec info hget body ⟨s.stored, s.drawn, []⟩ t ht hK
  generalize (host.on info body ⟨s.stored, s.drawn, []⟩).run get t = run at hon ⊢
  generalize drawing (s.stored.overlay base) s.drawn = start at hon ⊢
  obtain ⟨⟨result, after⟩, t'⟩ := run
  have hresult := hon.result
  have hdata := congrArg (fun state => state.data) hon.state
  dsimp only at hresult hdata ⊢
  simp only [overlay_settle]
  cases hfresh : start.fresh host.nonces body with
  | true =>
    obtain ⟨hend, hleft⟩ := Draws.exec_of_fresh body start hfresh
    rw [hleft] at hdata
    cases hresult.trans (congrArg ended hend)
    refine ⟨rfl, fun key => ?_⟩
    rw [← congrFun hdata key]
    split <;> rfl
  | false =>
    cases hresult.trans (congrArg ended (Draws.exec_of_stale body start hfresh))
    refine ⟨rfl, fun key => ?_⟩
    have hfails : (host.callEnd (ended (none : Option CallEnd))).raw.commits = false :=
      host.trapped_fails .nonceExists
    rw [hfails]
    rfl

/-- **A call on its Host is the call on the ledger the Host shows.** -/
theorem call_spec (hget : Serves get Inv K base) (s : HostState) {t : S} (ht : Inv t)
    (hK : ∀ key ∈ (host.call info request s).asked get t, K key) :
    ((host.call info request s).run get t).1.1
        = host.endOn info request (s.stored.overlay base) s.drawn ∧
      ∀ key : ContractKey,
        ((host.call info request s).run get t).1.2.stored.overlay base key.1
          = host.entriesOn info request (s.stored.overlay base) s.drawn key := by
  rw [asked_call] at hK
  rw [run_call]
  obtain ⟨s', t', ht', hdraws, hoverlay, hrun, hK'⟩ :=
    HostState.load_spec hget (host.inFrame info) (host.invoke info request) s t ht hK
  have hdrawn : s'.drawn = s.drawn := congrArg Draws.State.drawn hdraws
  obtain ⟨hframe, hentries⟩ := host.inFrame_spec info hget _ s' ht' hK'
  rw [hoverlay, hdrawn] at hframe hentries
  have hend : _ = host.endOn info request (s.stored.overlay base) s.drawn := hframe
  rw [hrun]
  refine ⟨hend, fun key => (hentries key).trans ?_⟩
  rw [hend]
  unfold entriesOn
  split <;> rfl

/-- What a call has looked up when it opens its frame. -/
def lookedUp (get : Server LedgerKey (fun _ => LookupAnswer) S) (s : HostState) (t : S) :
    StoredEntries :=
  ((HostState.load (host.invoke info request) s fun _ s => .done (.ok (), s)).run get t).1.2.stored

theorem load_fails (c : Lookups (HostProgram CallEnd)) : ∀ (s : HostState) (t : S),
    (host.callEnd ((HostState.load c s (host.inFrame info)).run get t).1.1).raw.commits = false →
    ((HostState.load c s (host.inFrame info)).run get t).1.2.stored
      = ((HostState.load c s fun _ s => .done (.ok (), s)).run get t).1.2.stored := by
  induction c with
  | done body =>
    intro s t hfails
    rw [HostState.load, run_inFrame] at hfails ⊢
    dsimp only at hfails ⊢
    rw [settle, hfails]
    rfl
  | ask key rest ih =>
    intro s t hfails
    rw [HostState.load, HostState.lookup] at hfails ⊢
    rw [HostState.load, HostState.lookup]
    cases hstorage : s.stored.storage key.1 with
    | some value =>
      rw [hstorage] at hfails
      exact ih value s t hfails
    | none =>
      rw [hstorage] at hfails
      rw [Client.run_ask] at hfails ⊢
      rw [Client.run_ask]
      cases hanswer : (get key.1 t).1 with
      | error e => rfl
      | ok value =>
        rw [hanswer] at hfails
        exact ih value (s.set key.1 value) _ hfails

/-- **A call that fails leaves what it has looked up ahead of its frame**, and nothing else. -/
theorem call_fails (s : HostState) (t : S)
    (hfails : ((host.call info request s).run get t).1.1.raw.commits = false) :
    ((host.call info request s).run get t).1.2.stored = host.lookedUp info request get s t := by
  rw [run_call] at hfails ⊢
  exact host.load_fails info (host.invoke info request) s t hfails

end

/-! ## Two calls on one ledger -/

theorem outcome_ne_of_commits {raw failed : RawCall} (h : raw.commits = true)
    (hfailed : failed.commits = false) : invokeOutcome raw ≠ invokeOutcome failed := by
  cases raw <;> cases h <;> cases failed <;> cases hfailed <;> simp [invokeOutcome]
  all_goals split <;> simp

/-- **Two calls that draw from two positions end alike exactly when a nonce stops both or
none**, or the call fails in the words of a nonce that exists. -/
theorem outcome_eq_iff (ledger : LedgerKey → Option PresentEntry) (n k : Nat) :
    invokeOutcome (host.endOn info request ledger n).raw
        = invokeOutcome (host.endOn info request ledger k).raw ↔
      host.freshCall info request ledger n = host.freshCall info request ledger k ∨
        invokeOutcome (host.idealCall info request ledger).1.raw
          = invokeOutcome (host.trapped .nonceExists).raw := by
  unfold endOn
  cases host.freshCall info request ledger n <;> cases host.freshCall info request ledger k
  · simp
  · simp [eq_comm]
  · simp
  · simp

/-- Calls with one outcome leave the same entries. -/
theorem entriesOn_eq {ledger : LedgerKey → Option PresentEntry} {n k : Nat}
    (h : invokeOutcome (host.endOn info request ledger n).raw
      = invokeOutcome (host.endOn info request ledger k).raw) :
    host.entriesOn info request ledger n = host.entriesOn info request ledger k := by
  have hcommits : (host.endOn info request ledger n).raw.commits
      = (host.endOn info request ledger k).raw.commits := by
    cases hn : (host.endOn info request ledger n).raw.commits <;>
      cases hk : (host.endOn info request ledger k).raw.commits
    · rfl
    · exact absurd h.symm (outcome_ne_of_commits hk hn)
    · exact absurd h (outcome_ne_of_commits hn hk)
    · rfl
  unfold entriesOn
  rw [hcommits]

end MockHost

/-! ## The source of the fork -/

section Source

variable [Crates] {σ : Type} {m : Materialized} {snapshot : LedgerSnapshot}

/-- The entries of a materialization have different keys. -/
theorem presentEntries_nodup : ∀ {states : List (KeyId × LookupState)},
    (states.map Prod.fst).Nodup →
    (∀ id entry liveUntil, (id, .present entry liveUntil) ∈ states →
      ledgerKeyToXdr entry.toKey = some id) →
    ((presentEntries states).map Prod.fst).Nodup
  | [], _, _ => List.nodup_nil
  | (id, state) :: rest, hnodup, hkeys => by
    rw [List.map_cons, List.nodup_cons] at hnodup
    have ih := presentEntries_nodup hnodup.2 fun id' entry liveUntil hmem =>
      hkeys id' entry liveUntil (List.mem_cons_of_mem _ hmem)
    cases state with
    | absent => exact ih
    | present entry liveUntil =>
      refine List.nodup_cons.mpr ⟨fun hmem => ?_, ih⟩
      obtain ⟨⟨key, entry', liveUntil'⟩, hx, hkey⟩ := List.mem_map.mp hmem
      obtain ⟨rfl, id', hid'⟩ := mem_presentEntries.mp hx
      have hxdr := hkeys id' entry' liveUntil' (List.mem_cons_of_mem _ hid')
      -- one key would have the ids of both
      have hown := hkeys id entry liveUntil List.mem_cons_self
      have hkey' : entry'.toKey = entry.toKey := hkey
      rw [hkey', hown] at hxdr
      cases hxdr
      exact hnodup.1 (List.mem_map.mpr ⟨_, hid', rfl⟩)

theorem snapshot_nodup (h : snapshotFromMaterialized m = .ok snapshot) :
    (snapshot.ledgerEntries.map Prod.fst).Nodup := by
  obtain ⟨hentries, hkeys⟩ := snapshotEntries_eq_ok.mp (snapshotFromMaterialized_eq_ok.mp h).2
  rw [hentries]
  refine presentEntries_nodup ?_ fun id entry liveUntil hmem => (hkeys id entry liveUntil hmem).2
  rw [Std.ExtTreeMap.map_fst_toList_eq_keys]
  exact Std.ExtTreeMap.nodup_keys

/-- A key that needs no network: the pass owns it, or it is in the coverage. -/
def OwnedOrCovered (m : Materialized) (localLedger : LocalLedger) (key : LedgerKey) : Prop :=
  ∃ id, ledgerKeyToXdr key = some id ∧ (localLedger.owns key = true ∨ id ∈ m.coverage)

instance (m : Materialized) (localLedger : LocalLedger) (key : LedgerKey) :
    Decidable (OwnedOrCovered m localLedger key) :=
  inferInstanceAs (Decidable (∃ id ∈ ledgerKeyToXdr key,
    localLedger.owns key = true ∨ id ∈ m.coverage))

/-- What a materialization has captured under a key, if anything. -/
def Materialized.captured (m : Materialized) (key : LedgerKey) : Option PresentEntry :=
  (ledgerKeyToXdr key).bind fun id => m.coverage[id]?.bind LookupState.answer

/-- A covered key that the source answers as the snapshot does: nothing is captured under a key
of the pass. -/
structure AnswersOffline (m : Materialized) (localLedger : LocalLedger) (key : LedgerKey) :
    Prop where
  covered : OwnedOrCovered m localLedger key
  not_hidden : localLedger.owns key = true → m.captured key = none

instance (m : Materialized) (localLedger : LocalLedger) (key : LedgerKey) :
    Decidable (AnswersOffline m localLedger key) :=
  decidable_of_iff (OwnedOrCovered m localLedger key ∧
      (localLedger.owns key = true → m.captured key = none))
    ⟨fun h => ⟨h.1, h.2⟩, fun h => ⟨h.covered, h.not_hidden⟩⟩

/-- The snapshot of a materialization has what the coverage has as Present. -/
theorem snapshot_get [LawfulCrates] (h : snapshotFromMaterialized m = .ok snapshot)
    {key : LedgerKey} (hkey : (ledgerKeyToXdr key).isSome) : snapshot.get key = m.captured key := by
  obtain ⟨id, hid⟩ := Option.isSome_iff_exists.mp hkey
  obtain ⟨hentries, hkeys⟩ := snapshotEntries_eq_ok.mp (snapshotFromMaterialized_eq_ok.mp h).2
  refine Option.ext fun value => ?_
  obtain ⟨entry, liveUntil⟩ := value
  unfold LedgerSnapshot.get
  rw [find_key_eq_some_iff (value_unique (snapshot_nodup h)), hentries, mem_presentEntries,
    Materialized.captured, hid, Option.bind_some, Option.bind_eq_some_iff]
  constructor
  · rintro ⟨rfl, id', hmem⟩
    have hid' := (hkeys id' entry liveUntil hmem).2
    cases hid.symm.trans hid'
    exact ⟨_, Std.ExtTreeMap.mem_toList_iff_getElem?_eq_some.mp hmem, rfl⟩
  · rintro ⟨state, hstate, hanswer⟩
    cases state with
    | absent => cases hanswer
    | present entry' liveUntil' =>
      cases hanswer
      have hmem := Std.ExtTreeMap.mem_toList_iff_getElem?_eq_some.mpr hstate
      exact ⟨ledgerKeyToXdr_inj hid (hkeys id entry liveUntil hmem).2, id, hmem⟩

/-- A source that has everything the materialization has. -/
def KeepsCoverage (m : Materialized) (st : PassState σ) : Prop :=
  ∀ (id : KeyId) state, m.coverage[id]? = some state → st.1.cache[id]? = some state

/-- A source that has not failed, and has met nothing unknown. -/
structure Answering (m : Materialized) (localLedger : LocalLedger) (st : PassState σ) : Prop where
  no_failure : st.1.failure = none
  no_unknown : st.1.unknown = ∅
  localLedger_eq : st.1.localLedger = localLedger
  keeps : KeepsCoverage m st

theorem fetchOne_keeps (t : Transport σ) (key : LedgerKey) {id : KeyId} {source : TrackingSource}
    (w : World σ) (hnone : source.cache[id]? = none) (h : KeepsCoverage m (source, w)) :
    KeepsCoverage m (fetchOne t key id source w).2 := by
  unfold fetchOne
  dsimp only
  split
  · exact h
  · split
    · exact h
    · intro id' state hstate
      have hcache := h id' state hstate
      show (source.cache.insert id _)[id']? = some state
      rw [Std.ExtTreeMap.getElem?_insert, if_neg fun heq => ?_]
      · exact hcache
      · rw [Std.LawfulEqCmp.eq_of_compare heq, hcache] at hnone
        cases hnone

theorem get_keeps (transport : Option (Transport σ)) (key : LedgerKey) (st : PassState σ)
    (h : KeepsCoverage m st) : KeepsCoverage m (TrackingSource.get transport key st).2 := by
  rw [get_eq]
  have hread := read_reads transport key st.1 st.2
  generalize st.1.read transport key st.2 = result at hread ⊢
  cases hread with
  | fetched t id hid _ _ _ hnone => exact fetchOne_keeps t key st.2 hnone h
  | _ => exact h

theorem serve_keeps (transport : Option (Transport σ)) (op : SourceOp) (st : PassState σ)
    (h : KeepsCoverage m st) : KeepsCoverage m (serve transport op st).2 := by
  cases op with
  | get key => exact get_keeps transport key st h
  | markAddress _ | markCode _ => exact h
  | preview stored =>
    show KeepsCoverage m (forwardPreviewReads transport stored st).2
    unfold forwardPreviewReads
    cases stored with
    | none => exact h
    | some keys =>
      have hall : KeepsCoverage m
          (observeAll transport keys false (st.1, st.2.record (.preview (some keys)))).2 :=
        observeAll_invariant (fun key _ _ st => get_keeps transport key st) false _ h
      dsimp only
      split
      · exact hall
      · split <;> exact hall

/-- **What is covered, the source of a pass answers without the network**: with nothing under a
key of its own, and with what is captured under any other. -/
theorem get_covered (transport : Option (Transport σ)) {localLedger : LocalLedger}
    {key : LedgerKey} {st : PassState σ} (hst : Answering m localLedger st)
    (hkey : OwnedOrCovered m localLedger key) :
    (TrackingSource.get transport key st).1
        = .ok (if localLedger.owns key then none else m.captured key) ∧
      Answering m localLedger (TrackingSource.get transport key st).2 := by
  obtain ⟨id, hid, hcovered⟩ := hkey
  have hkeeps := get_keeps transport key st hst.keeps
  rw [get_eq] at hkeeps ⊢
  have hread := read_reads transport key st.1 st.2
  generalize st.1.read transport key st.2 = result at hread hkeeps ⊢
  rw [← hst.localLedger_eq] at hcovered ⊢
  have hstate : st.1.localLedger.owns key = false → ∃ state, m.coverage[id]? = some state := by
    intro howns
    rw [howns] at hcovered
    exact Option.isSome_iff_exists.mp
      (Std.ExtTreeMap.mem_iff_isSome_getElem?.mp (hcovered.resolve_left Bool.false_ne_true))
  cases hread with
  | failed hfail => rw [hst.no_failure] at hfail; cases hfail
  | unencodable _ hnone => rw [hid] at hnone; cases hnone
  | owned _ _ howns =>
    rw [if_pos howns]
    exact ⟨rfl, hst.no_failure, hst.no_unknown, rfl, hkeeps⟩
  | known id' hid' state _ howns hcache =>
    cases hid.symm.trans hid'
    rw [if_neg (by rw [howns]; exact Bool.false_ne_true)]
    obtain ⟨state', hstate'⟩ := hstate howns
    cases hcache.symm.trans (hst.keeps id state' hstate')
    rw [Materialized.captured, hid, Option.bind_some, hstate']
    exact ⟨rfl, hst.no_failure, hst.no_unknown, rfl, hkeeps⟩
  | unknown id' hid' _ _ howns hcache | fetched _ id' hid' _ _ howns hcache =>
    cases hid.symm.trans hid'
    obtain ⟨state', hstate'⟩ := hstate howns
    cases hcache.symm.trans (hst.keeps id state' hstate')

/-- Where nothing is hidden, the source answers as the snapshot of the pass. -/
theorem serves_covered [LawfulCrates] (hm : snapshotFromMaterialized m = .ok snapshot)
    (transport : Option (Transport σ)) (localLedger : LocalLedger) :
    Serves (TrackingSource.get transport) (Answering m localLedger) (AnswersOffline m localLedger)
      snapshot.get := by
  intro key st hst hkey
  obtain ⟨id, hid, _⟩ := hkey.covered
  have hcovered := get_covered transport hst hkey.covered
  have hshown : (if localLedger.owns key then none else m.captured key) = snapshot.get key := by
    rw [snapshot_get hm (by rw [hid]; rfl)]
    split
    · next howns => exact (hkey.not_hidden howns).symm
    · rfl
  rw [hshown] at hcovered
  exact hcovered

end Source

/-! ## The ledger of a fork -/

section Ledger

variable [SnapshotCrate]

omit [SnapshotCrate] in
theorem LedgerSnapshot.get_eq_some_iff {snapshot : LedgerSnapshot}
    (h : (snapshot.ledgerEntries.map Prod.fst).Nodup) {key : LedgerKey} {value : PresentEntry} :
    snapshot.get key = some value ↔ (key, value) ∈ snapshot.ledgerEntries :=
  find_key_eq_some_iff (value_unique h)

/-- Stored entries over a snapshot are looked up before it. -/
theorem get_updateEntries [LawfulSnapshotCrate] {base : LedgerSnapshot}
    (h : (base.ledgerEntries.map Prod.fst).Nodup) (stored : StoredEntries)
    {updated : LedgerSnapshot}
    (hupdated : updated.ledgerEntries = updateEntries base.ledgerEntries stored)
    (key : LedgerKey) : updated.get key = stored.overlay base.get key := by
  have hmem : ∀ value, (key, value) ∈ updated.ledgerEntries ↔
      stored.overlay base.get key = some value := by
    intro value
    rw [hupdated, LawfulSnapshotCrate.mem_updateEntries h, StoredEntries.overlay]
    cases hstorage : stored.storage key with
    | some value' =>
      have hkey : key ∈ stored.keys := by
        by_contra hnot
        rw [stored.storage_eq_none_iff.mpr hnot] at hstorage
        cases hstorage
      rw [← stored.storage_eq_some_iff, hstorage]
      simp [hkey]
    | none =>
      have hnot : (key, some value) ∉ stored.entries := fun hin => by
        rw [stored.storage_eq_some_iff.mpr hin] at hstorage
        cases hstorage
      simp [hnot, stored.storage_eq_none_iff.mp hstorage, LedgerSnapshot.get_eq_some_iff h]
  refine Option.ext fun value => ?_
  rw [← hmem]
  refine find_key_eq_some_iff fun value value' hv hv' => ?_
  exact Option.some.inj (((hmem value).mp hv).symm.trans ((hmem value').mp hv'))

/-- What no operation of a fork changes. -/
structure OnPass (m : Materialized) (snapshot : LedgerSnapshot) (fork : MockFork) : Prop where
  ledgerInfo : fork.env.ledgerInfo = (forkEnv m.ledgerInfo snapshot).ledgerInfo
  snapshot_eq : fork.env.snapshot = snapshot
  protocol : fork.networkProtocolVersion = m.ledgerInfo.protocolVersion

namespace OnPass

variable {m : Materialized} {snapshot : LedgerSnapshot} {fork : MockFork}

omit [SnapshotCrate] in
theorem withHost (h : OnPass m snapshot fork) (s : HostState) :
    OnPass m snapshot (fork.withHost s) :=
  ⟨h.ledgerInfo, h.snapshot_eq, h.protocol⟩

/-- A fork shows its storage map over the snapshot of the pass. -/
theorem get_ledgerSnapshot [LawfulSnapshotCrate] (h : OnPass m snapshot fork)
    (hnodup : (snapshot.ledgerEntries.map Prod.fst).Nodup) :
    fork.ledgerSnapshot.get = fork.env.storedEntries.overlay snapshot.get := by
  funext key
  refine get_updateEntries hnodup _ ?_ key
  rw [← h.snapshot_eq]
  rfl

/-- The child of a preview has the header of the fork. -/
theorem child_ledgerInfo (h : OnPass m snapshot fork) :
    fork.child.ledgerInfo = fork.env.ledgerInfo := by
  have hversion : fork.env.ledgerInfo.protocolVersion
      = executedProtocolVersion fork.networkProtocolVersion := by
    rw [h.protocol, h.ledgerInfo]
    rfl
  show ({ fork.env.ledgerInfo with
    protocolVersion := executedProtocolVersion (restoreNetworkProtocol
      fork.env.ledgerInfo.protocolVersion fork.networkProtocolVersion) } : LedgerInfo) = _
  rw [hversion, restoreNetworkProtocol_executed, ← hversion]

end OnPass

/-! ## Reachable forks -/

section Reachable

variable [Crates] {σ : Type} {host : MockHost} {transport : Option (Transport σ)}
  {m : Materialized} {snapshot : LedgerSnapshot} {w : World σ} {fork : MockFork} {st : PassState σ}

omit [Crates] [SnapshotCrate] in
theorem lifted_onPass {α : Type} (h : OnPass m snapshot fork) (key : LedgerKey)
    (method : ScenarioFork → PassProgram α) :
    (fork.lifted key method).AllResults fun r => OnPass m snapshot r.2 :=
  (Client.allResults_trivial _).andThen fun _ _ => ⟨h.ledgerInfo, h.snapshot_eq, h.protocol⟩

omit [SnapshotCrate] in
theorem deploy_onPass (h : OnPass m snapshot fork) (wasm : Bytes) (args : List ScVal) :
    (fork.deploy host wasm args).AllResults fun r => OnPass m snapshot r.2 := by
  have hgenerated : ∀ generators, OnPass m snapshot
      { fork with env := { fork.env with generators := generators } } :=
    fun _ => ⟨h.ledgerInfo, h.snapshot_eq, h.protocol⟩
  unfold MockFork.deploy
  dsimp only
  split
  · refine (Client.allResults_trivial _).andThen fun r _ => ?_
    split
    · exact fun _ _ => (Client.allResults_trivial _).andThen fun r _ => (hgenerated _).withHost r.2
    · exact (hgenerated _).withHost _
  · exact hgenerated _

omit [Crates] [SnapshotCrate] in
theorem tryInvoke_onPass (h : OnPass m snapshot fork) (request : InvokeRequest) :
    (fork.tryInvoke host request).AllResults fun r => OnPass m snapshot r.2 := by
  unfold MockFork.tryInvoke
  split
  · exact (Client.allResults_trivial _).andThen fun r _ => h.withHost r.2
  · exact h

theorem mockStep_onPass (h : OnPass m snapshot fork) (op : MockOp) :
    (mockStep host fork op).AllResults (OnPass m snapshot) := by
  have hforget : ∀ {α : Type} {c : Client SourceOp SourceOp.Answer (α × MockFork)},
      c.AllResults (fun r => OnPass m snapshot r.2) →
      (mockStep.forget c).AllResults (OnPass m snapshot) :=
    fun hc => hc.andThen fun _ hr => hr
  cases op with
  | localAccount label => exact hforget (lifted_onPass h _ _)
  | fundLocalAccount account amount => exact hforget (lifted_onPass h _ _)
  | deploy wasm args => exact hforget (deploy_onPass h wasm args)
  | tryInvoke request => exact hforget (tryInvoke_onPass h request)
  | preview request auth =>
    exact hforget ((Client.allResults_trivial _).andThen fun _ _ => h)
  | invoke request =>
    refine hforget ((tryInvoke_onPass h request).andThen fun r hr => ?_)
    split <;> exact hr

/-- **Every reachable fork is on the pass it started in**, over a source that has kept its
coverage. -/
theorem MockReachable.onPass (h : MockReachable host transport m snapshot w fork st) :
    OnPass m snapshot fork ∧ KeepsCoverage m st := by
  induction h with
  | start => exact ⟨⟨rfl, rfl, rfl⟩, fun _ _ hstate => hstate⟩
  | step op _ ih =>
    exact ⟨Client.run_allResults _ _ _ (mockStep_onPass ih.1 op),
      Client.run_invariant (serve_keeps transport) _ _ ih.2⟩

end Reachable

/-! ## The two calls -/

section Calls

variable [LawfulSnapshotCrate] {host : MockHost} {m : Materialized} {snapshot : LedgerSnapshot}
  {fork : MockFork} {request : InvokeRequest}

omit [LawfulSnapshotCrate] in
/-- The child does what the call does on the ledger of the fork, drawing from the start. -/
theorem childCall_spec (h : OnPass m snapshot fork) :
    (fork.childCall host request).1
        = host.endOn fork.env.ledgerInfo request fork.ledgerSnapshot.get 0 ∧
      ∀ key : ContractKey,
        (fork.childCall host request).2.stored.overlay fork.ledgerSnapshot.get key.1
          = host.entriesOn fork.env.ledgerInfo request fork.ledgerSnapshot.get 0 key := by
  have hserves : Serves (serveSnapshot fork.child.snapshot) (fun _ => True) (fun _ => True)
      fork.child.snapshot.get := fun _ _ _ _ => ⟨rfl, trivial⟩
  have hcall := host.call_spec fork.child.ledgerInfo request hserves
    ⟨fork.child.storedEntries, 0, []⟩ (t := ()) trivial fun _ _ => trivial
  rw [h.child_ledgerInfo] at hcall
  unfold MockFork.childCall
  rw [h.child_ledgerInfo]
  exact hcall

/-- The ledger of the child after the call. -/
theorem get_childAfter (hnodup : (fork.ledgerSnapshot.ledgerEntries.map Prod.fst).Nodup)
    (stored : StoredEntries) :
    (fork.childAfter stored).get = stored.overlay fork.ledgerSnapshot.get :=
  funext (get_updateEntries hnodup stored rfl)

variable [Crates] {σ : Type} {transport : Option (Transport σ)} {st : PassState σ}

/-- The next call does what it does on the ledger of the fork, where the drawing goes on. -/
theorem tryInvoke_spec [LawfulCrates] (hm : snapshotFromMaterialized m = .ok snapshot)
    (h : OnPass m snapshot fork) {localLedger : LocalLedger} (hst : Answering m localLedger st)
    (hcovers : ∀ key ∈ (host.call fork.env.ledgerInfo request fork.host).asked
      (TrackingSource.get transport) st, AnswersOffline m localLedger key)
    (hvalid : (request.fitsSymbol && host.validInvocation fork.env.ledgerInfo request) = true) :
    ((fork.tryInvoke host request).run (serve transport) st).1.1
        = invokeOutcome
          (host.endOn fork.env.ledgerInfo request fork.ledgerSnapshot.get fork.drawn).raw ∧
      ∀ key : ContractKey,
        ((fork.tryInvoke host request).run (serve transport) st).1.2.ledgerSnapshot.get key.1
          = host.entriesOn fork.env.ledgerInfo request fork.ledgerSnapshot.get fork.drawn key := by
  have hnodup := snapshot_nodup hm
  obtain ⟨hend, hentries⟩ := host.call_spec fork.env.ledgerInfo request
    (serves_covered hm transport localLedger) fork.host hst hcovers
  have hshown : fork.host.stored.overlay snapshot.get = fork.ledgerSnapshot.get :=
    (h.get_ledgerSnapshot hnodup).symm
  rw [hshown] at hend hentries
  have hrun : (fork.tryInvoke host request).run (serve transport) st =
      let r := (host.call fork.env.ledgerInfo request fork.host).run
        (TrackingSource.get transport) st
      ((invokeOutcome r.1.1.raw, fork.withHost r.1.2), r.2) := by
    rw [MockFork.tryInvoke, if_pos hvalid]
    exact Client.run_andThen _ _ _ _
  rw [hrun]
  refine ⟨congrArg (fun ended => invokeOutcome ended.raw) hend, fun key => ?_⟩
  dsimp only
  rw [(h.withHost _).get_ledgerSnapshot hnodup]
  exact hentries key

end Calls

end Ledger

end Kanatoko
