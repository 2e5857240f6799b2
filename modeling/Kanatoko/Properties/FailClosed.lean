import Kanatoko.Capture.Replay
import Kanatoko.Properties.Rounds
import Kanatoko.Testnet.Native

/-!
# A strict replay fails closed

Without a transport, a lookup of a key that is neither local nor covered leaves its id in
`unknown`, whatever the scenario does with the error it gets. The trace of the pass accounts
for every lookup, and the keys of a preview child are looked up after it has run.
-/

namespace Kanatoko

open Fallible Adaptive

variable [Crates] {σ : Type}

/-! ## What a replay must know -/

def Covered (coverage : Coverage) (key : LedgerKey) : Prop :=
  ∃ id, ledgerKeyToXdr key = some id ∧ id ∈ coverage

/-- The keys a strict pass may not go without: `l` is the local ledger at its end. -/
inductive Touched (trace : List Event) (stored : List LedgerKey) (l : LocalLedger)
    (key : LedgerKey) : Prop
  /-- Looked up while it was not local. -/
  | lookedUp (answer : LookupAnswer) : .lookup key false answer ∈ trace → Touched trace stored l key
  /-- Left in the stored entries. -/
  | stored : key ∈ stored → l.owns key = false → Touched trace stored l key
  /-- Stored by a preview child, and no nonce. -/
  | previewed (keys : List LedgerKey) : .preview (some keys) ∈ trace → key ∈ keys →
      isNonceKey key = false → l.owns key = false → Touched trace stored l key

def SourceOp.Encodable : SourceOp → Prop
  | get key => (ledgerKeyToXdr key).isSome
  | preview (some keys) => ∀ key ∈ keys, (ledgerKeyToXdr key).isSome
  | preview none | markAddress _ | markCode _ => True

/-- Every key the scenario hands to its source or leaves in the Host has an encoding. -/
def EncodableKeys {R : Type} (scenario : Scenario R) : Prop :=
  ∀ env protocol, (scenario env protocol).AllOps SourceOp.Encodable ∧
    (scenario env protocol).AllResults fun passEnd =>
      ∀ stored, passEnd.storedEntries = some stored → ∀ key ∈ stored, (ledgerKeyToXdr key).isSome

/-- The Host lists its stored entries at the end of every pass. -/
def Inspectable {R : Type} (scenario : Scenario R) : Prop :=
  ∀ env protocol, (scenario env protocol).AllResults fun passEnd => passEnd.storedEntries.isSome

/-! ## The invariant of a strict pass -/

/-- A lookup was answered from the coverage, or its id is unknown. -/
def Answered (coverage : Coverage) (source : TrackingSource) (key : LedgerKey)
    (answer : LookupAnswer) : Prop :=
  ∃ id, ledgerKeyToXdr key = some id ∧
    ((∃ state, coverage[id]? = some state ∧ answer = .ok state.answer) ∨
      id ∉ coverage ∧ id ∈ source.unknown)

/-- A strict pass that began in `v` has written `trace` and accounts for its lookups. -/
structure Accounts (coverage : Coverage) (v : World σ) (st : PassState σ) (trace : List Event) :
    Prop where
  world_eq : st.2 = { v with log := v.log ++ trace }
  cache_eq : st.1.cache = coverage
  no_failure : st.1.failure = none
  offline : ∀ e ∈ trace, e.isOffline = true
  lookups : ∀ key answer, .lookup key false answer ∈ trace →
    Answered coverage st.1 key answer

/-- The keys of every preview child are local, or were looked up. -/
def PreviewsForwarded (l : LocalLedger) (trace : List Event) : Prop :=
  ∀ keys, .preview (some keys) ∈ trace → ∀ key ∈ keys, isNonceKey key = false →
    l.owns key = true ∨ ∃ answer, .lookup key false answer ∈ trace

variable {coverage : Coverage} {v : World σ} {st : PassState σ} {trace : List Event}

theorem Accounts.record (h : Accounts coverage v st trace) (source : TrackingSource) {e : Event}
    (hcache : source.cache = coverage) (hfail : source.failure = none)
    (hunknown : ∀ id ∈ st.1.unknown, id ∈ source.unknown) (he : e.isOffline = true)
    (hnew : ∀ key answer, e = .lookup key false answer → Answered coverage source key answer) :
    Accounts coverage v (source, st.2.record e) (trace ++ [e]) := by
  refine ⟨?_, hcache, hfail, ?_, ?_⟩
  · rw [h.world_eq, World.record, List.append_assoc]
  · intro e' he'
    rcases List.mem_append.mp he' with he' | he'
    · exact h.offline e' he'
    · rw [List.mem_singleton.mp he']; exact he
  · intro key answer hmem
    rcases List.mem_append.mp hmem with hmem | hmem
    · obtain ⟨id, hid, hcase⟩ := h.lookups key answer hmem
      exact ⟨id, hid, hcase.imp_right fun hu => ⟨hu.1, hunknown id hu.2⟩⟩
    · exact hnew key answer (List.mem_singleton.mp hmem).symm

/-- One strict lookup: the trace grows by it, and ownership does not change. -/
theorem get_accounts (h : Accounts coverage v st trace) {key : LedgerKey}
    (henc : (ledgerKeyToXdr key).isSome) :
    ∃ answer, Accounts coverage v (TrackingSource.get none key st).2
        (trace ++ [.lookup key (st.1.localLedger.owns key) answer]) ∧
      (TrackingSource.get none key st).2.1.localLedger = st.1.localLedger := by
  rw [get_eq]
  have hread := read_reads (none : Option (Transport σ)) key st.1 st.2
  refine ⟨(st.1.read none key st.2).1, ?_⟩
  generalize st.1.read none key st.2 = result at hread ⊢
  cases hread with
  | failed hf => rw [h.no_failure] at hf; cases hf
  | unencodable _ hx => rw [hx] at henc; cases henc
  | owned _ _ ho =>
    refine ⟨h.record st.1 h.cache_eq h.no_failure (fun _ hid => hid) rfl ?_, rfl⟩
    intro key' answer heq
    rw [ho] at heq
    cases heq
  | known id hid state hfail ho hc =>
    refine ⟨h.record (st.1.request id key hid) h.cache_eq hfail (fun _ hu => hu) rfl ?_,
      rfl⟩
    intro key' answer heq
    rw [ho] at heq
    cases heq
    exact ⟨id, hid, Or.inl ⟨state, by rw [← h.cache_eq]; exact hc, rfl⟩⟩
  | unknown id hid _ hfail ho hc =>
    refine ⟨h.record { st.1.request id key hid with unknown := st.1.unknown.insert id }
      h.cache_eq hfail (fun id' hu => ?_) rfl ?_, rfl⟩
    · exact Std.ExtTreeSet.mem_insert.mpr (Or.inr hu)
    · intro key' answer heq
      rw [ho] at heq
      cases heq
      refine ⟨id, hid, Or.inr ⟨?_, Std.ExtTreeSet.mem_insert_self⟩⟩
      rw [← h.cache_eq]
      simpa using hc
  | fetched _ _ _ ht => cases ht

/-- Every non-nonce key of a preview child is local or looked up afterwards. -/
theorem observeAll_accounts : ∀ {keys : List LedgerKey} (failed : Bool) {st : PassState σ}
    {trace : List Event}, (∀ key ∈ keys, (ledgerKeyToXdr key).isSome) →
    Accounts coverage v st trace →
    ∃ more, Accounts coverage v (observeAll none keys failed st).2 (trace ++ more) ∧
      (observeAll none keys failed st).2.1.localLedger = st.1.localLedger ∧
      (∀ stored, .preview stored ∉ more) ∧
      ∀ key ∈ keys, isNonceKey key = false → st.1.localLedger.owns key = true ∨
        ∃ answer, .lookup key false answer ∈ more
  | [], failed, st, trace, _, h => ⟨[], by rw [List.append_nil]; exact h, rfl, by simp, by simp⟩
  | key :: rest, failed, st, trace, henc, h => by
    have hencRest : ∀ key' ∈ rest, (ledgerKeyToXdr key').isSome :=
      fun key' hk => henc key' (List.mem_cons_of_mem _ hk)
    rw [observeAll]
    split
    · next hnonce =>
      obtain ⟨more, hacc, hlocal, hno, hall⟩ := observeAll_accounts failed hencRest h
      refine ⟨more, hacc, hlocal, hno, fun key' hk hn => ?_⟩
      rcases List.mem_cons.mp hk with rfl | hk
      · rw [hnonce] at hn; cases hn
      · exact hall key' hk hn
    · obtain ⟨answer, hget, hown⟩ := get_accounts h (henc key List.mem_cons_self)
      generalize TrackingSource.get none key st = result at hget hown ⊢
      obtain ⟨a, st₁⟩ := result
      have hcons : ∀ failed', ∃ more,
          Accounts coverage v (observeAll none rest failed' st₁).2 (trace ++ more) ∧
          (observeAll none rest failed' st₁).2.1.localLedger = st.1.localLedger ∧
          (∀ stored, .preview stored ∉ more) ∧
          ∀ key' ∈ key :: rest, isNonceKey key' = false → st.1.localLedger.owns key' = true ∨
            ∃ answer, .lookup key' false answer ∈ more := by
        intro failed'
        obtain ⟨more, hacc, hlocal, hno, hall⟩ :=
          observeAll_accounts failed' hencRest hget
        refine ⟨.lookup key (st.1.localLedger.owns key) answer :: more, ?_, hlocal.trans hown,
          by simpa using hno, fun key' hk hn => ?_⟩
        · rw [List.append_cons]; exact hacc
        · rcases List.mem_cons.mp hk with rfl | hk
          · cases ho : st.1.localLedger.owns key' with
            | true => exact Or.inl rfl
            | false => exact Or.inr ⟨answer, List.mem_cons_self⟩
          · rw [← hown]
            exact (hall key' hk hn).imp_right (Exists.imp fun _ ha => List.mem_cons_of_mem _ ha)
      cases a <;> exact hcons _

/-- The invariant of a strict pass. -/
def StrictInv (coverage : Coverage) (v : World σ) (st : PassState σ) : Prop :=
  ∃ trace, Accounts coverage v st trace ∧ PreviewsForwarded st.1.localLedger trace

omit [Crates] in
theorem owns_markAddress {l : LocalLedger} {address : ScAddress} {key : LedgerKey}
    (h : l.owns key = true) : (l.markAddress address).owns key = true := by
  cases key <;> simp_all [LocalLedger.owns, LocalLedger.markAddress]

omit [Crates] in
theorem owns_markCode {l : LocalLedger} {hash : Hash} {key : LedgerKey}
    (h : l.owns key = true) : (l.markCode hash).owns key = true := by
  cases key <;> simp_all [LocalLedger.owns, LocalLedger.markCode]

theorem StrictInv.mapLocal {f : LocalLedger → LocalLedger} (h : StrictInv coverage v st)
    (hf : ∀ key, st.1.localLedger.owns key = true → (f st.1.localLedger).owns key = true) :
    StrictInv coverage v (Kanatoko.mapLocal f st) := by
  obtain ⟨trace, hacc, hprev⟩ := h
  exact ⟨trace, ⟨hacc.world_eq, hacc.cache_eq, hacc.no_failure, hacc.offline, hacc.lookups⟩,
    fun keys hk key hkey hn => (hprev keys hk key hkey hn).imp_left (hf key)⟩

theorem StrictInv.get (h : StrictInv coverage v st) {key : LedgerKey}
    (henc : (ledgerKeyToXdr key).isSome) :
    StrictInv coverage v (TrackingSource.get none key st).2 := by
  obtain ⟨trace, hacc, hprev⟩ := h
  obtain ⟨answer, hacc', hown⟩ := get_accounts hacc henc
  refine ⟨_, hacc', fun keys hk key' hkey hn => ?_⟩
  rcases List.mem_append.mp hk with hk | hk
  · rw [hown]
    exact (hprev keys hk key' hkey hn).imp_right
      fun ⟨a, ha⟩ => ⟨a, List.mem_append_left _ ha⟩
  · exact absurd (List.mem_singleton.mp hk) (by simp)

theorem StrictInv.preview (h : StrictInv coverage v st) {stored : Option (List LedgerKey)}
    (henc : SourceOp.Encodable (.preview stored)) :
    StrictInv coverage v (forwardPreviewReads none stored st).2 := by
  obtain ⟨trace, hacc, hprev⟩ := h
  have hrecord : Accounts coverage v (st.1, st.2.record (.preview stored))
      (trace ++ [.preview stored]) :=
    hacc.record st.1 hacc.cache_eq hacc.no_failure (fun _ hu => hu) rfl
      (fun _ _ heq => by cases heq)
  unfold forwardPreviewReads
  cases stored with
  | none =>
    refine ⟨_, hrecord, fun keys hk key hkey hn => ?_⟩
    rcases List.mem_append.mp hk with hk | hk
    · exact (hprev keys hk key hkey hn).imp_right
        fun ⟨a, ha⟩ => ⟨a, List.mem_append_left _ ha⟩
    · exact absurd (List.mem_singleton.mp hk) (by simp)
  | some keys =>
    obtain ⟨more, hacc', hlocal, hno, hall⟩ :=
      observeAll_accounts false henc hrecord
    have hinv : StrictInv coverage v
        (observeAll none keys false (st.1, st.2.record (.preview (some keys)))).2 := by
      refine ⟨_, hacc', fun keys' hk key hkey hn => ?_⟩
      rw [hlocal]
      rcases List.mem_append.mp hk with hk | hk
      · rcases List.mem_append.mp hk with hk | hk
        · exact (hprev keys' hk key hkey hn).imp_right
            fun ⟨a, ha⟩ => ⟨a, List.mem_append_left _ (List.mem_append_left _ ha)⟩
        · cases List.mem_singleton.mp hk
          exact (hall key hkey hn).imp_right fun ⟨a, ha⟩ => ⟨a, List.mem_append_right _ ha⟩
      · exact absurd hk (hno _)
    dsimp only
    split
    · exact hinv
    · split <;> exact hinv

theorem serve_strictInv (op : SourceOp) (st : PassState σ) (henc : op.Encodable)
    (h : StrictInv coverage v st) : StrictInv coverage v (serve none op st).2 := by
  cases op with
  | get key => exact h.get henc
  | markAddress address => exact h.mapLocal (f := (·.markAddress address)) fun _ => owns_markAddress
  | markCode hash => exact h.mapLocal (f := (·.markCode hash)) fun _ => owns_markCode
  | preview stored => exact h.preview henc

/-- A strict pass accounts for all it did. -/
theorem runPass_strictInv {R : Type} {scenario : Scenario R} (henc : EncodableKeys scenario)
    (env : Env) (protocol : UInt32) (v : World σ) :
    StrictInv coverage (v.record .pass)
      (runPass none scenario env (.new coverage protocol) v).2 :=
  Client.run_invariant_of_allOps (fun op st he h => serve_strictInv op st he h) _
    (henc env protocol).1 _
    ⟨[], ⟨by simp [World.record], rfl, rfl, by simp, by simp⟩, fun _ hk => by simp at hk⟩

/-! ## The verdict of a replay -/

/-- What `collectUnknown` leaves: the ids it began with and those of unknown stored keys. -/
theorem collectUnknown_spec {l : LocalLedger} : ∀ {stored : List LedgerKey}
    {unknown unknown' : Std.ExtTreeSet KeyId},
    collectUnknown l coverage stored unknown = .ok unknown' →
    (∀ id ∈ unknown, id ∈ unknown') ∧
      ∀ key ∈ stored, l.owns key = false → ∃ id, ledgerKeyToXdr key = some id ∧
        (id ∈ coverage ∨ id ∈ unknown')
  | [], _, _, h => by
    rw [collectUnknown, pure_eq_ok] at h
    subst h
    exact ⟨fun _ h => h, by simp⟩
  | key :: rest, unknown, unknown', h => by
    rw [collectUnknown] at h
    split at h
    · next ho =>
      obtain ⟨hkeep, hall⟩ := collectUnknown_spec h
      refine ⟨hkeep, fun key' hk hno => ?_⟩
      rcases List.mem_cons.mp hk with rfl | hk
      · rw [ho] at hno; cases hno
      · exact hall key' hk hno
    · obtain ⟨id, hid, h⟩ := bind_eq_ok.mp h
      rw [keyId_eq_ok] at hid
      obtain ⟨hkeep, hall⟩ := collectUnknown_spec h
      refine ⟨fun id' hid' => hkeep id' ?_, fun key' hk hno => ?_⟩
      · split
        · exact hid'
        · exact Std.ExtTreeSet.mem_insert.mpr (Or.inr hid')
      · rcases List.mem_cons.mp hk with rfl | hk
        · refine ⟨id, hid, or_iff_not_imp_left.mpr fun hcov => hkeep id ?_⟩
          rw [if_neg hcov]
          exact Std.ExtTreeSet.mem_insert_self
        · exact hall key' hk hno

/-- With encodable keys the loop over the stored entries does not stop. -/
theorem collectUnknown_ok {l : LocalLedger} : ∀ {stored : List LedgerKey}
    (unknown : Std.ExtTreeSet KeyId), (∀ key ∈ stored, (ledgerKeyToXdr key).isSome) →
    ∃ unknown', collectUnknown l coverage stored unknown = .ok unknown'
  | [], unknown, _ => ⟨unknown, rfl⟩
  | key :: rest, unknown, henc => by
    have hrest : ∀ key' ∈ rest, (ledgerKeyToXdr key').isSome :=
      fun key' hk => henc key' (List.mem_cons_of_mem _ hk)
    rw [collectUnknown]
    split
    · exact collectUnknown_ok unknown hrest
    · obtain ⟨id, hid⟩ := Option.isSome_iff_exists.mp (henc key List.mem_cons_self)
      obtain ⟨unknown', h⟩ := collectUnknown_ok
        (if id ∈ coverage then unknown else unknown.insert id) hrest
      exact ⟨unknown', bind_eq_ok.mpr ⟨id, keyId_eq_ok.mpr hid, h⟩⟩

/-- Every touched key is covered when no id is unknown in the end. -/
theorem touched_covered {source : TrackingSource} {stored : List LedgerKey}
    {unknown : Std.ExtTreeSet KeyId}
    (hacc : ∀ key answer, .lookup key false answer ∈ trace → Answered coverage source key answer)
    (hprev : PreviewsForwarded source.localLedger trace)
    (hunknown : collectUnknown source.localLedger coverage stored source.unknown = .ok unknown)
    (hempty : unknown = ∅) {key : LedgerKey}
    (h : Touched trace stored source.localLedger key) : Covered coverage key := by
  obtain ⟨hkeep, hall⟩ := collectUnknown_spec hunknown
  subst hempty
  have hlookup : ∀ answer, .lookup key false answer ∈ trace → Covered coverage key := by
    intro answer hmem
    obtain ⟨id, hid, ⟨state, hstate, _⟩ | ⟨_, hu⟩⟩ := hacc key answer hmem
    · exact ⟨id, hid, by rw [Std.ExtTreeMap.mem_iff_isSome_getElem?, hstate]; rfl⟩
    · exact absurd (hkeep id hu) (by simp)
  cases h with
  | lookedUp answer hmem => exact hlookup answer hmem
  | stored hkey hno =>
    obtain ⟨id, hid, hcov | hu⟩ := hall key hkey hno
    · exact ⟨id, hid, hcov⟩
    · exact absurd hu (by simp)
  | previewed keys hk hkey hn hno =>
    rcases hprev keys hk key hkey hn with ho | ⟨answer, hmem⟩
    · rw [hno] at ho; cases ho
    · exact hlookup answer hmem

/-- The pass of a strict replay: its end, and what it left in the world. -/
structure StrictPass {R : Type} (f : CapturedFixture) (scenario : Scenario R) (v v' : World σ)
    (passEnd : PassEnd R) (source : TrackingSource) (stored : List LedgerKey)
    (trace : List Event) : Prop where
  pass : passOver none scenario f.materialized v = .ok (passEnd, source) v'
  stored_eq : passEnd.storedEntries = some stored
  world_eq : v' = { v with log := v.log ++ .pass :: trace }

/-- A strict pass over a fixture satisfies the invariant of strict passes. -/
theorem passOver_accounts {R : Type} {f : CapturedFixture} {scenario : Scenario R}
    (henc : EncodableKeys scenario) {v v' : World σ} {passEnd : PassEnd R}
    {source : TrackingSource}
    (h : passOver none scenario f.materialized v = .ok (passEnd, source) v') :
    ∃ trace, v' = { v with log := v.log ++ .pass :: trace } ∧
      (∀ e ∈ trace, e.isOffline = true) ∧
      (∀ key answer, .lookup key false answer ∈ trace →
        Answered f.coverage source key answer) ∧
      PreviewsForwarded source.localLedger trace := by
  obtain ⟨env, _, hrun⟩ := passOver_eq_ok.mp h
  have hstrict : StrictInv f.coverage (v.record .pass) (runPass none scenario env
      (.new f.coverage f.materialized.ledgerInfo.protocolVersion) v).2 :=
    runPass_strictInv henc env _ v
  obtain ⟨trace, hacc, hprev⟩ := hstrict
  change runPass none scenario env (.new f.coverage _) v = _ at hrun
  rw [hrun] at hacc hprev
  refine ⟨trace, ?_, hacc.offline, hacc.lookups, hprev⟩
  have hworld := hacc.world_eq
  rw [World.record, List.append_assoc] at hworld
  exact hworld

/--
**A strict replay fails closed.**

It returns `Ok` only when every touched key is covered, and then every lookup of a key that
was not local had the captured answer. When a touched key is uncovered it returns
`UnknownLedgerKeys`, also when the scenario panicked. It never calls a transport.
-/
theorem replay_fails_closed {R : Type} {f : CapturedFixture} {scenario : Scenario R}
    (henc : EncodableKeys scenario) (hinspect : Inspectable scenario) (v : World σ) :
    (∀ result v', f.replayWithLocal scenario v = .ok result v' →
      ∃ passEnd source stored trace,
        StrictPass f scenario v v' passEnd source stored trace ∧
        (∀ key, Touched trace stored source.localLedger key → Covered f.coverage key) ∧
        ∀ key answer, .lookup key false answer ∈ trace →
          ∃ id state, ledgerKeyToXdr key = some id ∧ f.coverage[id]? = some state ∧
            answer = .ok state.answer) ∧
    (∀ passEnd source stored trace v',
      StrictPass f scenario v v' passEnd source stored trace →
      (∃ key, Touched trace stored source.localLedger key ∧ ¬ Covered f.coverage key) →
      ∃ count, f.replayWithLocal scenario v = .error (.error (.unknownLedgerKeys count)) v') ∧
    (∀ passEnd source v', passOver none scenario f.materialized v = .ok (passEnd, source) v' →
      ∃ stored trace, StrictPass f scenario v v' passEnd source stored trace ∧
        ∀ e ∈ trace, e.isTransport = false) := by
  refine ⟨?_, ?_, ?_⟩
  · intro result v' h
    obtain ⟨⟨passEnd, source⟩, w, hpass, h₁⟩ := run_bind_eq_ok.mp h
    obtain ⟨hconclude, rfl⟩ := liftCapture_eq_ok.mp h₁
    obtain ⟨stored, hstored, h₂⟩ := bind_eq_ok.mp hconclude
    obtain ⟨unknown, hunknown, h₃⟩ := bind_eq_ok.mp h₂
    obtain ⟨_, hempty, _⟩ := bind_eq_ok.mp h₃
    rw [orError_eq_ok] at hstored
    rw [ensure_eq_ok] at hempty
    obtain ⟨trace, hworld, _, hacc, hprev⟩ := passOver_accounts henc hpass
    have hcovered : ∀ key, Touched trace stored source.localLedger key →
        Covered f.coverage key :=
      fun key => touched_covered hacc hprev hunknown hempty
    refine ⟨passEnd, source, stored, trace, ⟨hpass, hstored, hworld⟩, hcovered, ?_⟩
    intro key answer hmem
    obtain ⟨id, hid, ⟨state, hstate, hanswer⟩ | ⟨hno, _⟩⟩ := hacc key answer hmem
    · exact ⟨id, state, hid, hstate, hanswer⟩
    · obtain ⟨id', hid', hcov⟩ := hcovered key (.lookedUp answer hmem)
      rw [hid] at hid'
      cases hid'
      exact absurd hcov hno
  · rintro passEnd source stored trace v' hstrict ⟨key, htouched, huncovered⟩
    obtain ⟨trace', hworld, _, hacc, hprev⟩ := passOver_accounts henc hstrict.pass
    have htrace : trace' = trace := by
      have hlog := congrArg World.log (hworld.symm.trans hstrict.world_eq)
      exact (List.cons.inj (List.append_cancel_left hlog)).2
    subst htrace
    have hencStored := passOver_allResults (fun env p => (henc env p).2) hstrict.pass
    have hcollect : ∃ unknown,
        collectUnknown source.localLedger f.coverage stored source.unknown = .ok unknown :=
      collectUnknown_ok source.unknown (hencStored stored hstrict.stored_eq)
    obtain ⟨unknown, hunknown⟩ := hcollect
    have hne : ¬ unknown = ∅ := fun hempty =>
      huncovered (touched_covered hacc hprev hunknown hempty htouched)
    refine ⟨unknown.size, run_bind_eq_error.mpr (Or.inr ⟨_, _, hstrict.pass, ?_⟩)⟩
    have hconclude : f.concludeReplay passEnd source = .error (.unknownLedgerKeys unknown.size) := by
      unfold CapturedFixture.concludeReplay
      rw [hstrict.stored_eq]
      show (collectUnknown source.localLedger f.coverage stored source.unknown >>= _) = _
      rw [hunknown]
      show (ensure (unknown = ∅) _ >>= _) = _
      rw [ensure, if_neg hne]
      rfl
    dsimp only
    rw [hconclude]
    rfl
  · intro passEnd source v' hpass
    obtain ⟨trace, hworld, hoff, _⟩ := passOver_accounts henc hpass
    have hsome := passOver_allResults hinspect hpass
    obtain ⟨stored, hstored⟩ := Option.isSome_iff_exists.mp hsome
    exact ⟨stored, trace, ⟨hpass, hstored, hworld⟩,
      fun e he => Event.isTransport_of_isOffline (hoff e he)⟩

end Kanatoko

namespace Kanatoko.Testnet

open Fallible Adaptive

/-- A replay of the native asset that succeeds has touched only covered keys. -/
theorem native_replay_fails_closed : ∃ f w',
    nativeBuilder.captureRefFromKeys nativeScenario .empty nativeWorld = .ok f w' ∧
      ∀ result v', f.replayWithLocal nativeScenario w' = .ok result v' →
        ∃ passEnd source stored trace,
          StrictPass f nativeScenario w' v' passEnd source stored trace ∧
          (∀ key, Touched trace stored source.localLedger key → Covered f.coverage key) ∧
          ∀ key answer, .lookup key false answer ∈ trace →
            ∃ id state, ledgerKeyToXdr key = some id ∧ f.coverage[id]? = some state ∧
              answer = .ok state.answer := by
  obtain ⟨f, w', hcapture, _⟩ := native_captured
  have hencodable : ∀ key ∈ nativeKeys, (ledgerKeyToXdr key).isSome := by decide +kernel
  have henc : EncodableKeys nativeScenario := fun env protocol =>
    ⟨readAll_allOps hencodable, nativeScenario_allResults
      (fun stored h key hkey => by cases h; exact hencodable key hkey) env protocol⟩
  exact ⟨f, w', hcapture,
    (replay_fails_closed henc (nativeScenario_allResults rfl) w').1⟩

end Kanatoko.Testnet
