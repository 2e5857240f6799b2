import Kanatoko.Properties.FixedPoint
import Kanatoko.Properties.QuietLedger
import Kanatoko.Testnet.Native

/-!
# A capture of a quiet ledger converges

Over a quiet ledger a lookup is answered with the true state, whether it is cached or read
through the transport. So two passes of one scenario, each over a materialization that shows
the ledger, go the same way: the second pass asks for nothing the first has not asked for,
and the capture ends there.
-/

namespace Kanatoko

open Fallible Adaptive

/-! ## Scenarios and builders -/

/-- The scenario runs no preview child. -/
def NoPreview {R : Type} (scenario : Scenario R) : Prop :=
  ∀ env protocol, (scenario env protocol).AllOps fun op => ∀ stored, op ≠ .preview stored

/-- Of its environment the scenario observes the header alone, and all else by lookups. -/
def ByLookups {R : Type} (scenario : Scenario R) : Prop :=
  ∀ env env' protocol, env.ledgerInfo = env'.ledgerInfo →
    scenario env protocol = scenario env' protocol

variable {σ : Type}

/-- The limits are those every constructor sets. -/
structure CaptureBuilder.Built (b : CaptureBuilder σ) : Prop where
  coherenceAttempts : b.coherenceAttempts = maxCoherenceAttempts
  discoveryRounds : b.discoveryRounds = maxDiscoveryRounds

theorem CaptureBuilder.rpc_built {rpcUrl networkPassphrase : String} {transport : Transport σ}
    {b : CaptureBuilder σ} (h : CaptureBuilder.rpc rpcUrl networkPassphrase transport = .ok b) :
    b.Built ∧ b.allowNewerProtocol.Built := by
  unfold CaptureBuilder.rpc at h
  split at h
  · cases h
  · cases h
    exact ⟨⟨rfl, rfl⟩, ⟨rfl, rfl⟩⟩

/-- A pass of the scenario begins. -/
def Event.isPass : Event → Bool
  | .pass => true
  | _ => false

/-- How many passes have begun. -/
def passes (log : List Event) : Nat := log.countP Event.isPass

theorem passes_append (log log' : List Event) : passes (log ++ log') = passes log + passes log' :=
  List.countP_append

/-- Transport calls are no passes. -/
theorem passes_transport {events : List Event} (h : ∀ e ∈ events, e.isTransport = true) :
    passes events = 0 := by
  rw [passes, List.countP_eq_zero]
  intro e he hpass
  cases e with
  | pass => cases h _ he
  | _ => cases hpass

theorem QuietLedger.Told.isTransport {l : QuietLedger} {e : Event} (h : l.Told e) :
    e.isTransport = true := by
  cases e <;> first | rfl | exact h.elim

variable [Crates] {l : QuietLedger}

/-! ## One lookup -/

/-- A single-key read is valid, and returns what the map has for the key. -/
theorem validateBatch_single {key : LedgerKey} {id : KeyId} (hid : ledgerKeyToXdr key = some id) :
    ∃ returned, validateBatch [key] (l.entries key).toList = .ok returned ∧
      returned[id]? = l.entries key := by
  have hkey : keyId key = .ok id := keyId_eq_ok.mpr hid
  have hids : [key].mapM keyId = .ok [id] :=
    mapM_eq_ok.mpr (.cons hkey .nil)
  cases hentry : l.entries key with
  | none => exact ⟨∅, bind_eq_ok.mpr ⟨[id], hids, rfl⟩, by simp⟩
  | some fetched =>
    refine ⟨(∅ : Std.ExtTreeMap KeyId FetchedEntry).insert id fetched,
      bind_eq_ok.mpr ⟨[id], hids, bind_eq_ok.mpr ⟨id, ?_, bind_eq_ok.mpr ⟨⟨⟩, ?_, rfl⟩⟩⟩, ?_⟩
    · rw [l.own_key hentry]
      exact hkey
    · exact ensure_eq_ok.mpr (by simp)
    · exact Std.ExtTreeMap.getElem?_insert_self

/-- What a single-key read of a quiet ledger answers and leaves behind. -/
theorem fetchOne_quiet {t : Transport σ} (hshows : Shows t l) {key : LedgerKey} {id : KeyId}
    (hid : ledgerKeyToXdr key = some id) (source : TrackingSource) (w : World σ) :
    ∃ w' answer, w'.log = w.log ++ [.ledgerEntries [key] answer] ∧
      fetchOne t key id source w = (.ok (l.state key).answer,
        { source with
          rpcReads := source.rpcReads + 1
          cache := source.cache.insert id (l.state key) }, w') := by
  obtain ⟨batch, hans, _, hperm⟩ := hshows.ledgerEntries [key] w.transport
  obtain ⟨returned, hval, hret⟩ := validateBatch_single (l := l) hid
  have hentries : batch.entries = (l.entries key).toList := by
    rw [List.filterMap_cons, List.filterMap_nil] at hperm
    cases hentry : l.entries key with
    | none => rw [hentry] at hperm; exact hperm.eq_nil
    | some fetched => rw [hentry] at hperm; exact List.perm_singleton.mp hperm
  have hlog := World.ledgerEntries_log w t [key]
  cases hread : w.ledgerEntries t [key] with
  | mk answer w' =>
    obtain rfl : answer = .ok batch := (congrArg Prod.fst hread).symm.trans hans
    rw [hread] at hlog
    refine ⟨w', .ok batch, hlog, ?_⟩
    simp only [fetchOne, hread, hentries, hval, hret]
    rfl

/-- `source'` is `source` after a lookup of `key`, with its true state cached. -/
structure Learned (l : QuietLedger) (key : LedgerKey) (id : KeyId)
    (h : ledgerKeyToXdr key = some id) (source source' : TrackingSource) : Prop where
  no_failure : source'.failure = none
  local_eq : source'.localLedger = source.localLedger
  requested_eq : source'.requested = source.requested.insert id key h
  agrees : l.Agrees source'.cache
  cached : ∀ id', id' = id ∨ id' ∈ source.cache → id' ∈ source'.cache
  silent : source'.rpcReads = 0 → source.rpcReads = 0 ∧ source'.cache = source.cache

/-- The cases of a read of a quiet ledger by a source that has not failed. -/
inductive QuietRead (l : QuietLedger) (key : LedgerKey) (source : TrackingSource) (w : World σ) :
    LookupAnswer × PassState σ → Prop
  | unencodable : ledgerKeyToXdr key = none → QuietRead l key source w
      (.error .storageInternalError, { source with failure := some "ledger-key-encode" }, w)
  | owned : (ledgerKeyToXdr key).isSome → source.localLedger.owns key = true →
      QuietRead l key source w (.ok none, source, w)
  | learned (id : KeyId) (h : ledgerKeyToXdr key = some id) (source' : TrackingSource)
      (w' : World σ) (events : List Event) : source.localLedger.owns key = false →
      Learned l key id h source source' → w'.log = w.log ++ events →
      (∀ e ∈ events, e.isTransport = true) →
      QuietRead l key source w (.ok (l.state key).answer, source', w')

theorem read_quiet [LawfulCrates] {t : Transport σ} (hshows : Shows t l) (key : LedgerKey)
    {source : TrackingSource} (hnone : source.failure = none) (hagrees : l.Agrees source.cache)
    (w : World σ) : QuietRead l key source w (source.read (some t) key w) := by
  have hread := read_reads (some t) key source w
  generalize source.read (some t) key w = result at hread ⊢
  cases hread with
  | failed hf => rw [hnone] at hf; cases hf
  | unencodable _ hx => exact .unencodable hx
  | owned _ hx ho => exact .owned hx ho
  | unknown _ _ ht => cases ht
  | known id hid state _ ho hstate =>
    rw [hagrees hid hstate]
    refine .learned id hid _ w [] ho ⟨hnone, rfl, rfl, hagrees, ?_, fun h => ⟨h, rfl⟩⟩ (by simp)
      (by simp)
    rintro id' (rfl | hid')
    · exact Std.ExtTreeMap.mem_iff_isSome_getElem?.mpr (by
        show (source.cache[id']?).isSome = true
        rw [hstate]
        rfl)
    · exact hid'
  | fetched t' id hid ht _ ho hmiss =>
    cases ht
    obtain ⟨w', answer, hlog, hfetch⟩ := fetchOne_quiet hshows hid (source.request id key hid) w
    rw [hfetch]
    refine .learned id hid _ w' _ ho
      ⟨hnone, rfl, rfl, ?_, ?_, fun h => absurd h (Nat.succ_ne_zero _)⟩ hlog ?_
    · intro key' id' state hid' hstate
      rw [Std.ExtTreeMap.getElem?_insert] at hstate
      split at hstate
      · next heq =>
        cases Std.LawfulEqCmp.eq_of_compare heq
        cases hstate
        rw [ledgerKeyToXdr_inj hid hid']
      · exact hagrees hid' hstate
    · intro id' hid'
      rw [Std.ExtTreeMap.mem_insert, Std.LawfulEqCmp.compare_eq_iff_eq]
      exact hid'.imp_left Eq.symm
    · intro e he
      rw [List.mem_singleton.mp he]
      rfl

/-! ## One pass -/

/-- What a pass over a quiet ledger keeps, from the cache it began with on. -/
structure Faithful (l : QuietLedger) (cache : Coverage) (w₀ : World σ) (st : PassState σ) :
    Prop where
  agrees : l.Agrees st.1.cache
  silent : st.1.rpcReads = 0 → st.1.cache = cache
  cached : st.1.failure = none → ∀ id, id ∈ st.1.requested.map → id ∈ st.1.cache
  logged : ∃ trace, st.2.log = w₀.log ++ trace ∧ passes trace = 0 ∧
    (st.1.failure = none → ∀ key answer, .lookup key false answer ∈ trace →
      ∃ id, ledgerKeyToXdr key = some id ∧ id ∈ st.1.requested.map)

/-- One more lookup, of a key that is owned or has been requested. -/
theorem Faithful.record {cache : Coverage} {w₀ w w' : World σ} {source source' : TrackingSource}
    (h : Faithful l cache w₀ (source, w)) {events : List Event} {key : LedgerKey} {owned : Bool}
    {answer : LookupAnswer} (hlog : w'.log = w.log ++ events)
    (hevents : ∀ e ∈ events, e.isTransport = true) (hagrees : l.Agrees source'.cache)
    (hsilent : source'.rpcReads = 0 → source'.cache = cache)
    (hcached : source'.failure = none → ∀ id, id ∈ source'.requested.map → id ∈ source'.cache)
    (hkeep : source'.failure = none → source.failure = none ∧
      ∀ id, id ∈ source.requested.map → id ∈ source'.requested.map)
    (hkey : source'.failure = none → owned = false →
      ∃ id, ledgerKeyToXdr key = some id ∧ id ∈ source'.requested.map) :
    Faithful l cache w₀ (source', w'.record (.lookup key owned answer)) := by
  obtain ⟨trace, htrace, hpasses, hlookups⟩ := h.logged
  refine ⟨hagrees, hsilent, hcached, trace ++ events ++ [.lookup key owned answer], ?_, ?_, ?_⟩
  · rw [World.record_log, hlog, show w.log = w₀.log ++ trace from htrace]
    simp only [List.append_assoc]
  · rw [passes_append, passes_append, hpasses, passes_transport hevents]
    rfl
  · intro hfail key' answer' hmem
    obtain ⟨hfail₀, hreq⟩ := hkeep hfail
    rcases List.mem_append.mp hmem with hmem | hmem
    · rcases List.mem_append.mp hmem with hmem | hmem
      · obtain ⟨id, hid, hin⟩ := hlookups hfail₀ key' answer' hmem
        exact ⟨id, hid, hreq id hin⟩
      · cases hevents _ hmem
    · cases List.mem_singleton.mp hmem
      exact hkey hfail rfl

theorem get_faithful [LawfulCrates] {t : Transport σ} (hshows : Shows t l) (key : LedgerKey)
    {cache : Coverage} {w₀ : World σ} {st : PassState σ} (h : Faithful l cache w₀ st) :
    Faithful l cache w₀ (TrackingSource.get (some t) key st).2 := by
  obtain ⟨source, w⟩ := st
  rw [get_eq]
  dsimp only
  have hsilent : w.log = w.log ++ [] := (List.append_nil _).symm
  cases hfail : source.failure with
  | some operation =>
    have hread := read_reads (some t) key source w
    generalize source.read (some t) key w = result at hread ⊢
    have hno : source.failure ≠ none := by rw [hfail]; simp
    cases hread with
    | failed _ =>
      exact h.record hsilent (by simp) h.agrees h.silent h.cached
        (fun hn => absurd hn hno) fun hn => absurd hn hno
    | unencodable hn _ | owned hn _ _ | known _ _ _ hn _ _ | unknown _ _ _ hn _ _
    | fetched _ _ _ _ hn _ _ => exact absurd hn hno
  | none =>
    have hread := read_quiet hshows key hfail h.agrees w
    generalize source.read (some t) key w = result at hread ⊢
    cases hread with
    | unencodable _ =>
      exact h.record hsilent (by simp) h.agrees h.silent
        (fun hn => by cases hn) (fun hn => by cases hn) fun hn => by cases hn
    | owned _ ho =>
      exact h.record hsilent (by simp) h.agrees h.silent h.cached
        (fun hn => ⟨hn, fun _ hid => hid⟩) fun _ hn => by rw [ho] at hn; cases hn
    | learned id hid source' w' events ho hlearned hlog hevents =>
      have hmem : ∀ id', id' ∈ source'.requested.map ↔ id = id' ∨ id' ∈ source.requested.map := by
        intro id'
        rw [hlearned.requested_eq, KeyMap.insert, Std.ExtTreeMap.mem_insert,
          Std.LawfulEqCmp.compare_eq_iff_eq]
      refine h.record hlog hevents hlearned.agrees (fun hn => ?_) (fun _ id' hid' => ?_)
        (fun _ => ⟨hfail, fun id' hid' => (hmem id').mpr (Or.inr hid')⟩)
        fun _ _ => ⟨id, hid, (hmem id).mpr (Or.inl rfl)⟩
      · obtain ⟨hreads, hsame⟩ := hlearned.silent hn
        rw [hsame]
        exact h.silent hreads
      · refine hlearned.cached id' ?_
        exact ((hmem id').mp hid').imp Eq.symm fun hid' => h.cached hfail id' hid'

theorem serve_faithful [LawfulCrates] {t : Transport σ} (hshows : Shows t l) {cache : Coverage}
    {w₀ : World σ} (op : SourceOp) (st : PassState σ) (hop : ∀ stored, op ≠ .preview stored)
    (h : Faithful l cache w₀ st) : Faithful l cache w₀ (serve (some t) op st).2 := by
  cases op with
  | get key => exact get_faithful hshows key h
  | preview stored => exact absurd rfl (hop stored)
  | markAddress _ | markCode _ => exact ⟨h.agrees, h.silent, h.cached, h.logged⟩

/-- A pass over a materialization that shows the ledger is faithful from its begin on. -/
theorem passOver_faithful [LawfulCrates] {R : Type} {b : CaptureBuilder σ}
    (hshows : Shows b.transport l) {scenario : Scenario R} (hnopreview : NoPreview scenario)
    {m : Materialized} (hagrees : l.Agrees m.coverage) {w w' : World σ} {passEnd : PassEnd R}
    {source : TrackingSource}
    (h : passOver (some b.transport) scenario m w = .ok (passEnd, source) w') :
    Faithful l m.coverage (w.record .pass) (source, w') := by
  obtain ⟨env, _, hrun⟩ := passOver_eq_ok.mp h
  have hstart : Faithful l m.coverage (w.record .pass)
      (TrackingSource.new m.coverage m.ledgerInfo.protocolVersion, w.record .pass) :=
    ⟨hagrees, fun _ => rfl, fun _ id hid => absurd hid Std.ExtTreeMap.not_mem_empty,
      [], by simp, rfl, by simp⟩
  have hend := Client.run_invariant_of_allOps (serve_faithful hshows) _
    (hnopreview env m.ledgerInfo.protocolVersion) _ hstart
  rw [show (scenario env m.ledgerInfo.protocolVersion).run (serve (some b.transport)) _
    = (passEnd, source, w') from hrun] at hend
  exact hend

/-! ## Two passes side by side -/

/-- Two sources that have learned of one ledger, so far in the same way. -/
structure Twins (l : QuietLedger) (st₁ st₂ : PassState σ) : Prop where
  no_failure₁ : st₁.1.failure = none
  no_failure₂ : st₂.1.failure = none
  local_eq : st₁.1.localLedger = st₂.1.localLedger
  requested_eq : st₁.1.requested = st₂.1.requested
  agrees₁ : l.Agrees st₁.1.cache
  agrees₂ : l.Agrees st₂.1.cache

theorem get_twins [LawfulCrates] {t : Transport σ} (hshows : Shows t l) (key : LedgerKey)
    {st₁ st₂ : PassState σ} (h : Twins l st₁ st₂) :
    (TrackingSource.get (some t) key st₁).2.1.failure.isSome ∨
      ((TrackingSource.get (some t) key st₁).1 = (TrackingSource.get (some t) key st₂).1 ∧
        Twins l (TrackingSource.get (some t) key st₁).2 (TrackingSource.get (some t) key st₂).2) := by
  obtain ⟨source₁, w₁⟩ := st₁
  obtain ⟨source₂, w₂⟩ := st₂
  have hlocal : source₁.localLedger = source₂.localLedger := h.local_eq
  simp only [get_eq]
  have hread₁ := read_quiet hshows key h.no_failure₁ h.agrees₁ w₁
  have hread₂ := read_quiet hshows key h.no_failure₂ h.agrees₂ w₂
  generalize source₁.read (some t) key w₁ = r₁ at hread₁ ⊢
  generalize source₂.read (some t) key w₂ = r₂ at hread₂ ⊢
  cases hread₁ with
  | unencodable _ => exact Or.inl rfl
  | owned hx ho =>
    cases hread₂ with
    | unencodable hx' => rw [hx'] at hx; cases hx
    | owned _ _ => exact Or.inr ⟨rfl, h.no_failure₁, h.no_failure₂, h.local_eq, h.requested_eq,
        h.agrees₁, h.agrees₂⟩
    | learned _ _ _ _ _ ho' _ _ _ => rw [hlocal, ho'] at ho; cases ho
  | learned id hid source₁' w₁' _ ho hlearned₁ _ _ =>
    cases hread₂ with
    | unencodable hx' => rw [hx'] at hid; cases hid
    | owned _ ho' => rw [hlocal, ho'] at ho; cases ho
    | learned id' hid' source₂' w₂' _ _ hlearned₂ _ _ =>
      cases hid.symm.trans hid'
      refine Or.inr ⟨rfl, hlearned₁.no_failure, hlearned₂.no_failure, ?_, ?_, hlearned₁.agrees,
        hlearned₂.agrees⟩
      · rw [hlearned₁.local_eq, hlearned₂.local_eq, hlocal]
      · rw [hlearned₁.requested_eq, hlearned₂.requested_eq, h.requested_eq]

theorem serve_twins [LawfulCrates] {t : Transport σ} (hshows : Shows t l) (op : SourceOp)
    {st₁ st₂ : PassState σ} (hop : ∀ stored, op ≠ .preview stored) (h : Twins l st₁ st₂) :
    (serve (some t) op st₁).2.1.failure.isSome ∨
      ((serve (some t) op st₁).1 = (serve (some t) op st₂).1 ∧
        Twins l (serve (some t) op st₁).2 (serve (some t) op st₂).2) := by
  cases op with
  | get key => exact get_twins hshows key h
  | preview stored => exact absurd rfl (hop stored)
  | markAddress address =>
    exact Or.inr ⟨rfl, h.no_failure₁, h.no_failure₂, congrArg (·.markAddress address) h.local_eq,
      h.requested_eq, h.agrees₁, h.agrees₂⟩
  | markCode hash =>
    exact Or.inr ⟨rfl, h.no_failure₁, h.no_failure₂, congrArg (·.markCode hash) h.local_eq,
      h.requested_eq, h.agrees₁, h.agrees₂⟩

/-- The source ended a pass over `m` like this. -/
def PassOf {R : Type} (b : CaptureBuilder σ) (scenario : Scenario R) (m : Materialized)
    (passEnd : PassEnd R) (source : TrackingSource) : Prop :=
  ∃ w w', passOver (some b.transport) scenario m w = .ok (passEnd, source) w'

section Passes

variable [LawfulCrates] {R : Type} {b : CaptureBuilder σ} {scenario : Scenario R}
  {keys₁ keys₂ : KeyMap} {m₁ m₂ : Materialized} {p₁ p₂ : PassEnd R} {s₁ s₂ : TrackingSource}

omit [LawfulCrates] in
/-- One ledger has one header. -/
theorem QuietLedger.Mirrored.header_eq (h₁ : l.Mirrored b keys₁ m₁) (h₂ : l.Mirrored b keys₂ m₂) :
    m₁.ledgerInfo = m₂.ledgerInfo := by
  obtain ⟨fetched₁, settings₁, hentry₁, hdata₁, hinfo₁⟩ := h₁.header
  obtain ⟨fetched₂, settings₂, hentry₂, hdata₂, hinfo₂⟩ := h₂.header
  cases hentry₁.symm.trans hentry₂
  cases hdata₁.symm.trans hdata₂
  rw [hinfo₁, hinfo₂]

omit [LawfulCrates] in
theorem envFromMaterialized_header {m : Materialized} {env : Env}
    (h : envFromMaterialized m = .ok env) :
    env.ledgerInfo = { m.ledgerInfo with
      protocolVersion := executedProtocolVersion m.ledgerInfo.protocolVersion } := by
  unfold envFromMaterialized at h
  split at h
  · cases h
    rfl
  · cases h

/-- **Two passes over one ledger go the same way, unless the first of them fails.** -/
theorem PassOf.same (hshows : Shows b.transport l) (hnopreview : NoPreview scenario)
    (hlookups : ByLookups scenario) (hm₁ : l.Mirrored b keys₁ m₁) (hm₂ : l.Mirrored b keys₂ m₂)
    (h₁ : PassOf b scenario m₁ p₁ s₁) (h₂ : PassOf b scenario m₂ p₂ s₂)
    (hfail : s₁.failure = none) :
    p₁ = p₂ ∧ s₁.localLedger = s₂.localLedger ∧ s₁.requested = s₂.requested := by
  obtain ⟨w₁, w₁', hpass₁⟩ := h₁
  obtain ⟨w₂, w₂', hpass₂⟩ := h₂
  obtain ⟨env₁, henv₁, hrun₁⟩ := passOver_eq_ok.mp hpass₁
  obtain ⟨env₂, henv₂, hrun₂⟩ := passOver_eq_ok.mp hpass₂
  have hinfo : m₁.ledgerInfo = m₂.ledgerInfo := hm₁.header_eq hm₂
  have hclient : scenario env₁ m₁.ledgerInfo.protocolVersion
      = scenario env₂ m₂.ledgerInfo.protocolVersion := by
    rw [hinfo]
    refine hlookups env₁ env₂ _ ?_
    rw [envFromMaterialized_header henv₁, envFromMaterialized_header henv₂, hinfo]
  have hstart : Twins l
      (TrackingSource.new m₁.coverage m₁.ledgerInfo.protocolVersion, w₁.record .pass)
      (TrackingSource.new m₂.coverage m₂.ledgerInfo.protocolVersion, w₂.record .pass) :=
    ⟨rfl, rfl, rfl, rfl, hm₁.agrees, hm₂.agrees⟩
  have hend := Client.run_upToBad_of_allOps (serve (some b.transport)) (serve (some b.transport))
    (fun st => st.1.failure.isSome = true) (Twins l)
    (fun op st hb => (serve_moves _ op st).failure_stays hb)
    (fun op _ _ hop h => serve_twins hshows op hop h) _
    (hnopreview env₁ m₁.ledgerInfo.protocolVersion) _ _ hstart
  rw [show (scenario env₁ m₁.ledgerInfo.protocolVersion).run (serve (some b.transport)) _
      = (p₁, s₁, w₁') from hrun₁, hclient,
    show (scenario env₂ m₂.ledgerInfo.protocolVersion).run (serve (some b.transport)) _
      = (p₂, s₂, w₂') from hrun₂] at hend
  rcases hend with hb | ⟨hp, htwins⟩
  · rw [show s₁.failure = none from hfail] at hb
    cases hb
  · exact ⟨hp, htwins.local_eq, htwins.requested_eq⟩

end Passes

/-! ## Rounds -/

/-- Since `w₀` there were `n` passes, and what they looked up is among `requested`. -/
def Ran (w₀ : World σ) (n : Nat) (requested : KeyMap) (w : World σ) : Prop :=
  ∃ trace, w.log = w₀.log ++ trace ∧ passes trace = n ∧
    ∀ key answer, .lookup key false answer ∈ trace →
      ∃ id, ledgerKeyToXdr key = some id ∧ id ∈ requested.map

/-- At most two passes have begun since `w₀`. -/
def AtMostTwice (w₀ w : World σ) : Prop := passes w.log ≤ passes w₀.log + 2

namespace Ran

variable {w₀ w w' : World σ} {n : Nat} {requested : KeyMap}

theorem start (w₀ : World σ) : Ran w₀ 0 .empty w₀ := ⟨[], by simp, rfl, by simp⟩

theorem atMostTwice (h : Ran w₀ n requested w) (hn : n ≤ 2) : AtMostTwice w₀ w := by
  obtain ⟨trace, htrace, hpasses, _⟩ := h
  rw [AtMostTwice, htrace, passes_append]
  omega

/-- Transport calls are no passes and no lookups. -/
theorem reads (h : Ran w₀ n requested w) {events : List Event} (hlog : w'.log = w.log ++ events)
    (hevents : ∀ e ∈ events, e.isTransport = true) : Ran w₀ n requested w' := by
  obtain ⟨trace, htrace, hpasses, hlookups⟩ := h
  refine ⟨trace ++ events, by rw [hlog, htrace, List.append_assoc], ?_, ?_⟩
  · rw [passes_append, hpasses, passes_transport hevents, Nat.add_zero]
  · intro key answer hmem
    rcases List.mem_append.mp hmem with hmem | hmem
    · exact hlookups key answer hmem
    · cases hevents _ hmem

theorem told (h : Ran w₀ n requested w) (htold : l.ToldSince w w') : Ran w₀ n requested w' := by
  obtain ⟨events, hevents, htolds⟩ := htold
  exact h.reads hevents fun e he => (htolds e he).isTransport

theorem pass_atMostTwice {cache : Coverage} {source : TrackingSource} (h : Ran w₀ n requested w)
    (hn : n + 1 ≤ 2) (hpass : Faithful l cache (w.record .pass) (source, w')) :
    AtMostTwice w₀ w' := by
  obtain ⟨trace, htrace, hpasses, _⟩ := h
  obtain ⟨events, hevents, hnone, _⟩ := hpass.logged
  have hone : passes [Event.pass] = 1 := rfl
  rw [AtMostTwice, show w'.log = (w.record .pass).log ++ events from hevents, World.record_log,
    htrace, passes_append, passes_append, passes_append, hnone, hone]
  omega

/-- A pass that did not fail, and that looked up all that the passes before it did. -/
theorem pass {cache : Coverage} {source : TrackingSource} (h : Ran w₀ n requested w)
    (hpass : Faithful l cache (w.record .pass) (source, w')) (hfail : source.failure = none)
    (hreq : ∀ id, id ∈ requested.map → id ∈ source.requested.map) :
    Ran w₀ (n + 1) source.requested w' := by
  obtain ⟨trace, htrace, hpasses, hlookups⟩ := h
  obtain ⟨events, hevents, hnone, hlookups'⟩ := hpass.logged
  refine ⟨trace ++ .pass :: events, ?_, ?_, ?_⟩
  · rw [show w'.log = (w.record .pass).log ++ events from hevents, World.record_log, htrace]
    simp
  · rw [passes_append, hpasses, passes, List.countP_cons_of_pos rfl, show events.countP _ = 0 from hnone]
  · intro key answer hmem
    rcases List.mem_append.mp hmem with hmem | hmem
    · obtain ⟨id, hid, hin⟩ := hlookups key answer hmem
      exact ⟨id, hid, hreq id hin⟩
    · rcases List.mem_cons.mp hmem with heq | hmem
      · cases heq
      · exact hlookups' hfail key answer hmem

end Ran

/-- The fixture is true, and covers all that was looked up since `w₀`. -/
structure Converged (l : QuietLedger) (w₀ : World σ) (f : CapturedFixture) (w : World σ) :
    Prop where
  agrees : l.Agrees f.coverage
  atMostTwice : AtMostTwice w₀ w
  covered : ∃ trace, w.log = w₀.log ++ trace ∧ ∀ key answer, .lookup key false answer ∈ trace →
    ∃ id, ledgerKeyToXdr key = some id ∧ id ∈ f.coverage

section Rounds

variable [LawfulCrates] {b : CaptureBuilder σ} {scenario : Scenario Unit} {w₀ : World σ}

/-- A pass adds to the runs so far, or stops for another reason than a limit. -/
theorem passOver_ran (hshows : Shows b.transport l) (hnopreview : NoPreview scenario) {n : Nat}
    {requested : KeyMap} {keys : KeyMap} {m : Materialized} (hm : l.Mirrored b keys m)
    (hn : n + 1 ≤ 2)
    (hreq : ∀ passEnd source, PassOf b scenario m passEnd source → source.failure = none →
      ∀ id, id ∈ requested.map → id ∈ source.requested.map) :
    Triple (Ran w₀ n requested) (passOver (some b.transport) scenario m)
      (fun a w => (PassOf b scenario m a.1 a.2 ∧
        (a.2.failure = none → ∀ id, id ∈ a.2.requested.map → id ∈ a.2.cache) ∧
        (a.2.rpcReads = 0 → a.2.cache = m.coverage)) ∧ AtMostTwice w₀ w ∧
          (a.2.failure = none → Ran w₀ (n + 1) a.2.requested w))
      (Stops (AtMostTwice w₀)) where
  ok := by
    intro w (passEnd, source) w' hw h
    have hfaithful := passOver_faithful hshows hnopreview hm.agrees h
    have hof : PassOf b scenario m passEnd source := ⟨w, w', h⟩
    exact ⟨⟨hof, hfaithful.cached, hfaithful.silent⟩, hw.pass_atMostTwice hn hfaithful,
      fun hfail => hw.pass hfaithful hfail (hreq passEnd source hof hfail)⟩
  error := by
    intro w halt w' hw h
    unfold passOver at h
    rcases run_bind_eq_error.mp h with h | ⟨env, w₁, _, h₂⟩
    · obtain ⟨henv, rfl⟩ := run_lift_eq_error.mp h
      refine ⟨?_, hw.atMostTwice (by omega)⟩
      unfold envFromMaterialized at henv
      split at henv <;> cases henv
      rfl
    · cases h₂

/-- One round: it concludes, or the rounds left go on from the keys it collected. -/
theorem captureRounds_turn (hshows : Shows b.transport l) (hnopreview : NoPreview scenario)
    {n rounds round : Nat} {requested keys : KeyMap} {m : Materialized}
    (hm : l.Mirrored b keys m) (hn : n + 1 ≤ 2)
    (hreq : ∀ passEnd source, PassOf b scenario m passEnd source → source.failure = none →
      ∀ id, id ∈ requested.map → id ∈ source.requested.map)
    (hrest : ∀ passEnd source stored keys₁ added, PassOf b scenario m passEnd source →
      source.failure = none → passEnd.storedEntries = some stored →
      collectKeys source stored keys = .ok (keys₁, added) → added ≠ 0 →
      Triple (Ran w₀ (n + 1) source.requested)
        (b.materializeClosed keys₁ >>= fun closed =>
          b.captureRounds scenario rounds (round + 1) closed.1 closed.2)
        (Converged l w₀) (Stops (AtMostTwice w₀))) :
    Triple (Ran w₀ n requested) (b.captureRounds scenario (rounds + 1) round keys m)
      (Converged l w₀) (Stops (AtMostTwice w₀)) := by
  have hstops : ∀ {requested : KeyMap} {halt : Halt} {w : World σ},
      Stops (Ran w₀ (n + 1) requested) halt w → Stops (AtMostTwice w₀) halt w :=
    fun h => ⟨h.1, h.2.atMostTwice hn⟩
  rw [CaptureBuilder.captureRounds]
  refine .bind (passOver_ran hshows hnopreview hm hn hreq) ?_
  rintro ⟨passEnd, source⟩
  refine .assume ?_
  rintro ⟨hof, hcached, hsilent⟩
  refine .bind (Q := fun _ w => source.failure = none ∧ Ran w₀ (n + 1) source.requested w)
    (triple_failureCheck (fun w hfail hw => ⟨hfail, hw.2 hfail⟩)
      fun operation w _ hw => ⟨rfl, hw.1⟩) fun _ => .assume fun hfail => ?_
  refine .bind ((triple_noLimit (.orError rfl)).weaken (fun _ h => h) (fun _ _ h => h)
    fun _ _ h => hstops h) fun stored => .assume fun hstored => ?_
  refine .bind ((triple_noLimit (collectKeys_noLimit _ _ _)).weaken (fun _ h => h)
    (fun _ _ h => h) fun _ _ h => hstops h) ?_
  rintro ⟨keys₁, added⟩
  refine .assume fun hcollect => ?_
  dsimp only at hcollect ⊢
  split
  · next hadded =>
    exact hrest passEnd source stored keys₁ added hof hfail (orError_eq_ok.mp hstored) hcollect
      hadded
  · refine (triple_noLimit (concludePass_noLimit b round m passEnd source)).weaken
      (fun _ h => h) (fun f w h => ?_) fun _ _ h => hstops h
    obtain ⟨hconcluded, hran⟩ := h
    obtain ⟨_, hreads, hsealed⟩ := concludePass_spec hconcluded
    have htwice : AtMostTwice w₀ w := hran.atMostTwice hn
    obtain ⟨trace, htrace, _, hlookups⟩ := hran
    refine ⟨by rw [hsealed.coverage_eq]; exact hm.agrees, htwice, trace, htrace, ?_⟩
    intro key answer hmem
    obtain ⟨id, hid, hin⟩ := hlookups key answer hmem
    refine ⟨id, hid, ?_⟩
    rw [hsealed.coverage_eq, ← hsilent hreads]
    exact hcached hfail id hin

/-- Closing a key set reads the ledger only. -/
theorem materializeClosed_ran (hshows : Shows b.transport l)
    (hattempts : 0 < b.coherenceAttempts) (keys : KeyMap) {n : Nat} (hn : n ≤ 2)
    (requested : KeyMap) :
    Triple (Ran w₀ n requested) (b.materializeClosed keys)
      (fun closed w => (l.Mirrored b closed.1 closed.2 ∧
        ∀ id, id ∈ keys.map → id ∈ closed.1.map) ∧ Ran w₀ n requested w)
      (Stops (AtMostTwice w₀)) where
  ok := by
    intro w closed w' hw h
    obtain ⟨hm, hkeep, htold⟩ :=
      (materializeClosed_quiet hshows hattempts keys w).ok (.refl l w) h
    exact ⟨⟨hm, hkeep⟩, hw.told htold⟩
  error := by
    intro w halt w' hw h
    obtain ⟨hlimit, htold⟩ :=
      (materializeClosed_quiet hshows hattempts keys w).error (.refl l w) h
    exact ⟨hlimit, (hw.told htold).atMostTwice hn⟩

omit [LawfulCrates] in
/-- What one pass asks to capture, a pass that went the same way asks to capture again. -/
theorem collectKeys_again {source source' : TrackingSource} {stored : List LedgerKey}
    {keys keys₁ keys₂ keys₃ : KeyMap} {added added' : Nat}
    (hlocal : source.localLedger = source'.localLedger)
    (hrequested : source.requested = source'.requested)
    (h : collectKeys source stored keys = .ok (keys₁, added))
    (h' : collectKeys source' stored keys₂ = .ok (keys₃, added'))
    (hkeep : ∀ id, id ∈ keys₁.map → id ∈ keys₂.map) : added' = 0 := by
  unfold collectKeys at h h'
  rw [← hlocal, ← hrequested] at h'
  obtain ⟨requested, hadd, h⟩ := bind_eq_ok.mp h
  obtain ⟨requested', hadd', h'⟩ := bind_eq_ok.mp h'
  cases hadd.symm.trans hadd'
  refine insertKeys_known h' fun key hkey id hid => hkeep id ?_
  obtain ⟨id', hid', hmem⟩ := (insertKeys_spec h).2.2.1 key hkey
  cases hid.symm.trans hid'
  exact hmem

/-- The second round concludes: its pass goes the way of the first. -/
theorem secondRound (hshows : Shows b.transport l) (hnopreview : NoPreview scenario)
    (hlookups : ByLookups scenario) {keys keys₁ keys₂ : KeyMap} {m m₂ : Materialized}
    (hm : l.Mirrored b keys m) (hm₂ : l.Mirrored b keys₂ m₂)
    {passEnd : PassEnd Unit} {source : TrackingSource} {stored : List LedgerKey} {added : Nat}
    (hof : PassOf b scenario m passEnd source) (hfail : source.failure = none)
    (hstored : passEnd.storedEntries = some stored)
    (hcollect : collectKeys source stored keys = .ok (keys₁, added))
    (hkeep : ∀ id, id ∈ keys₁.map → id ∈ keys₂.map) (rounds round : Nat) :
    Triple (Ran w₀ 1 source.requested) (b.captureRounds scenario (rounds + 1) round keys₂ m₂)
      (Converged l w₀) (Stops (AtMostTwice w₀)) := by
  refine captureRounds_turn hshows hnopreview hm₂ (Nat.le_refl 2) ?_ ?_
  · intro passEnd' source' hof' _ id hid
    obtain ⟨_, _, hreq⟩ := hof.same hshows hnopreview hlookups hm hm₂ hof' hfail
    rw [← hreq]
    exact hid
  · intro passEnd' source' stored' keys₃ added' hof' _ hstored' hcollect' hne
    obtain ⟨rfl, hlocal, hreq⟩ := hof.same hshows hnopreview hlookups hm hm₂ hof' hfail
    cases hstored.symm.trans hstored'
    exact absurd (collectKeys_again hlocal hreq hcollect hcollect' hkeep) hne

omit [LawfulCrates] in
theorem validateNetwork_ran (b : CaptureBuilder σ) :
    Triple (Ran w₀ 0 .empty) b.validateNetwork (fun _ => Ran w₀ 0 .empty)
      (Stops (AtMostTwice w₀)) := by
  have hread : ∀ w, Ran w₀ 0 .empty w → Ran w₀ 0 .empty (w.network b.transport).2 := by
    intro w hw
    refine hw.reads (World.network_log w b.transport) fun e he => ?_
    rw [List.mem_singleton.mp he]
    rfl
  have hstops : ∀ halt w, Stops (Ran w₀ 0 .empty) halt w → Stops (AtMostTwice w₀) halt w :=
    fun _ _ h => ⟨h.1, h.2.atMostTwice (Nat.zero_le 2)⟩
  refine .bind (triple_call (fun _ w hw _ => hread w hw) fun _ w hw _ =>
    ⟨rfl, (hread w hw).atMostTwice (Nat.zero_le 2)⟩) fun network => ?_
  refine .bind ((triple_noLimit (.ensure rfl)).weaken (fun _ h => h) (fun _ _ h => h.2) hstops)
    fun _ => ?_
  exact (triple_noLimit (checkProtocol_noLimit b _)).weaken (fun _ h => h) (fun _ _ h => h.2) hstops

/-- **A capture of a quiet ledger needs two rounds.** -/
theorem captureRefFromKeys_quiet (hshows : Shows b.transport l)
    (hattempts : 0 < b.coherenceAttempts) (hrounds : 2 ≤ b.discoveryRounds)
    (hnopreview : NoPreview scenario) (hlookups : ByLookups scenario) (keys : KeyMap) :
    Triple (Ran w₀ 0 .empty) (b.captureRefFromKeys scenario keys) (Converged l w₀)
      (Stops (AtMostTwice w₀)) := by
  obtain ⟨rounds, hsucc⟩ : ∃ rounds, b.discoveryRounds = rounds + 1 + 1 :=
    ⟨b.discoveryRounds - 2, by omega⟩
  refine .bind (validateNetwork_ran b) fun _ =>
    .bind (materializeClosed_ran hshows hattempts keys (Nat.zero_le 2) .empty) fun closed =>
      .assume fun ⟨hm, _⟩ => ?_
  dsimp only
  rw [hsucc]
  refine captureRounds_turn hshows hnopreview hm (by omega)
    (fun _ _ _ _ id hid => absurd hid Std.ExtTreeMap.not_mem_empty) ?_
  intro passEnd source stored keys₁ added hof hfail hstored hcollect _
  exact .bind (materializeClosed_ran hshows hattempts keys₁ (by omega) source.requested)
    fun closed₁ => .assume fun ⟨hm₁, hkeep⟩ =>
      secondRound hshows hnopreview hlookups hm hm₁ hof hfail hstored hcollect hkeep rounds _

end Rounds

/-! ## The result -/

/-- The fixture covers the key with its true state. -/
def CapturedFixture.Holds (f : CapturedFixture) (l : QuietLedger) (key : LedgerKey) : Prop :=
  ∃ id, ledgerKeyToXdr key = some id ∧ f.coverage[id]? = some (l.state key)

theorem QuietLedger.Agrees.holds {f : CapturedFixture} (h : l.Agrees f.coverage) {key : LedgerKey}
    {id : KeyId} (hid : ledgerKeyToXdr key = some id) (hmem : id ∈ f.coverage) : f.Holds l key := by
  obtain ⟨state, hstate⟩ := Option.isSome_iff_exists.mp
    (Std.ExtTreeMap.mem_iff_isSome_getElem?.mp hmem)
  exact ⟨id, hid, by rw [hstate, h hid hstate]⟩

/--
**Capture converges on a quiet ledger.**

Whatever the inventory it starts from, a capture that does not succeed has not run out of
turns, no capture makes more than two passes, and a fixture covers with its true state every
key that a pass looked up or stored without owning it.
-/
theorem quiet_capture_converges [LawfulCrates] {b : CaptureBuilder σ} (hbuilt : b.Built)
    (hshows : Shows b.transport l) {scenario : Scenario Unit} (hstores : StoresSupported scenario)
    (hnopreview : NoPreview scenario) (hlookups : ByLookups scenario) (keys : KeyMap)
    (w : World σ) :
    (∀ e w', b.captureRefFromKeys scenario keys w = .error (.error e) w' → e.isLimit = false) ∧
    passes (endWorld (b.captureRefFromKeys scenario keys w)).log ≤ passes w.log + 2 ∧
    ∀ f w', b.captureRefFromKeys scenario keys w = .ok f w' →
      ∃ r : LastRound, r.Ends b scenario w w' f ∧
        ∀ key, (∃ answer, .lookup key false answer ∈ w'.log.drop w.log.length) ∨
          (key ∈ r.stored ∧ r.source.localLedger.owns key = false) → f.Holds l key := by
  have hrun : Triple (Ran w 0 .empty) (b.captureRefFromKeys scenario keys) (Converged l w)
      (Stops (AtMostTwice w)) :=
    captureRefFromKeys_quiet hshows (by rw [hbuilt.coherenceAttempts]; decide)
      (by rw [hbuilt.discoveryRounds]; decide) hnopreview hlookups keys
  refine ⟨fun e w' h => (hrun.error (.start w) h).1, ?_, fun f w' h => ?_⟩
  · cases h : b.captureRefFromKeys scenario keys w with
    | ok f w' => exact (hrun.ok (.start w) h).atMostTwice
    | error halt w' => exact (hrun.error (.start w) h).2
  · have hconverged := hrun.ok (.start w) h
    obtain ⟨trace, htrace, hlooked⟩ := hconverged.covered
    obtain ⟨r, hr⟩ := captureRefFromKeys_spec h
    refine ⟨r, hr, fun key htouched => ?_⟩
    rcases htouched with ⟨answer, hmem⟩ | ⟨hstored, hno⟩
    · rw [htrace, List.drop_left] at hmem
      obtain ⟨id, hid, hin⟩ := hlooked key answer hmem
      exact hconverged.agrees.holds hid hin
    · obtain ⟨id, hid, hin⟩ := hr.stored_covered hstores key hstored hno
      obtain ⟨_, _, hsealed⟩ := concludePass_spec hr.concluded
      rw [← hsealed.coverage_eq] at hin
      exact hconverged.agrees.holds hid hin

end Kanatoko

namespace Kanatoko.Testnet

open Fallible Adaptive

/-- A transport that answers from a ledger at rest. -/
def quietTransport (l : QuietLedger) : Transport Unit where
  network s := (.ok l.network, s)
  latestLedger s := (.ok l.anchor, s)
  ledgerEntries keys s := (.ok ⟨l.anchor.sequence, keys.filterMap l.entries⟩, s)

theorem quietTransport_shows (l : QuietLedger) : Shows (quietTransport l) l where
  network _ := rfl
  latestLedger _ := rfl
  ledgerEntries _ _ := ⟨_, rfl, rfl, .rfl⟩

def nativeLedger : QuietLedger where
  network := ⟨testnetPassphrase, 29⟩
  anchor := nativeAnchor
  entries := nativeLookup
  own_key := by
    intro key fetched h
    unfold nativeLookup at h
    split at h
    · next hkey => cases h; exact hkey.symm
    · split at h
      · next hkey => cases h; exact hkey.symm
      · cases h

/-- The capture of the native asset converges. -/
theorem native_capture_converges : ∃ f w',
    nativeBuilder.captureRefFromKeys nativeScenario .empty nativeWorld = .ok f w' ∧
      passes w'.log ≤ 2 ∧ ∃ r : LastRound, r.Ends nativeBuilder nativeScenario nativeWorld w' f ∧
        ∀ key, (∃ answer, .lookup key false answer ∈ w'.log.drop nativeWorld.log.length) ∨
          (key ∈ r.stored ∧ r.source.localLedger.owns key = false) → f.Holds nativeLedger key := by
  obtain ⟨f, w', hcapture, _⟩ := native_captured
  have hshows : Shows nativeBuilder.transport nativeLedger := quietTransport_shows nativeLedger
  have hnopreview : NoPreview nativeScenario :=
    fun _ _ => readAll_allOps fun _ _ _ h => by cases h
  obtain ⟨_, htwice, hok⟩ := quiet_capture_converges ⟨rfl, rfl⟩ hshows
    nativeScenario_storesSupported hnopreview (fun _ _ _ _ => rfl) .empty nativeWorld
  rw [hcapture] at htwice
  obtain ⟨r, hr⟩ := hok f w' hcapture
  exact ⟨f, w', hcapture, htwice, r, hr⟩

/-! ## A scenario that reads its base snapshot -/

def assetInstance (address : ScAddress) : LedgerEntry where
  lastModifiedLedgerSeq := 4609662
  data := .contractData
    { contract := address
      key := .ledgerKeyContractInstance
      durability := .persistent
      val := .contractInstance ⟨.stellarAsset, none⟩ }
  ext := .v0

/-- Every contract is an asset contract. -/
def crowdedLookup : LedgerKey → Option FetchedEntry
  | .contractData ⟨address, .ledgerKeyContractInstance, .persistent⟩ =>
    some ⟨assetInstance address, some 7561567⟩
  | .configSetting .stateArchival =>
    some ⟨⟨4983000, .configSetting (.stateArchival nativeSettings), .v0⟩, none⟩
  | _ => none

def crowdedLedger : QuietLedger where
  network := ⟨testnetPassphrase, 29⟩
  anchor := nativeAnchor
  entries := crowdedLookup
  own_key := by
    intro key fetched h
    unfold crowdedLookup at h
    split at h <;> cases h <;> rfl

def crowdedBuilder : CaptureBuilder Unit :=
  { nativeBuilder with transport := quietTransport crowdedLedger }

def crowdedKeys : List LedgerKey :=
  (List.range 16).map fun n => contractInstanceKey (smallContract (UInt8.ofNat n))

def readStoring (stored : List LedgerKey) : List LedgerKey → PassClient Unit
  | [] => .done ⟨some (), some stored⟩
  | key :: rest => .ask (.get key) fun _ => readStoring stored rest

/-- Looks up one contract more than `env.to_ledger_snapshot()` lists. -/
def snapshotReader : Scenario Unit := fun env _ =>
  let keys := crowdedKeys.take (env.toLedgerSnapshot.ledgerEntries.length + 1)
  readStoring keys keys

theorem readStoring_allOps (stored : List LedgerKey) {P : SourceOp → Prop} :
    ∀ {keys : List LedgerKey}, (∀ key, P (.get key)) → (readStoring stored keys).AllOps P
  | [], _ => trivial
  | _ :: _, h => ⟨h _, fun _ => readStoring_allOps stored h⟩

theorem readStoring_allResults {stored : List LedgerKey} {P : PassEnd Unit → Prop}
    (h : P ⟨some (), some stored⟩) : ∀ {keys : List LedgerKey}, (readStoring stored keys).AllResults P
  | [] => h
  | _ :: _ => fun _ => readStoring_allResults h

/--
The base snapshot of an environment lists what has been captured so far. A scenario that
reads it asks for one more contract in each of the sixteen passes, and is never captured.
-/
theorem snapshot_reader_never_captured :
    crowdedBuilder.Built ∧ Shows crowdedBuilder.transport crowdedLedger ∧
      StoresSupported snapshotReader ∧ NoPreview snapshotReader ∧
      ∃ w', crowdedBuilder.captureRefFromKeys snapshotReader .empty nativeWorld
        = .error (.error (.fixedPointLimit 16)) w' ∧ passes w'.log = 16 := by
  refine ⟨⟨rfl, rfl⟩, quietTransport_shows crowdedLedger, fun env _ => ?_,
    fun _ _ => readStoring_allOps _ fun _ _ h => (nomatch h), ?_⟩
  · refine readStoring_allResults fun stored h key hkey => ?_
    cases h
    obtain ⟨n, _, rfl⟩ := List.mem_map.mp (List.mem_of_mem_take hkey)
    trivial
  · have h : (match crowdedBuilder.captureRefFromKeys snapshotReader .empty nativeWorld with
      | .ok _ _ => false
      | .error halt w' =>
        decide (halt = .error (.fixedPointLimit 16) ∧ passes w'.log = 16)) = true := by
      decide +kernel
    split at h
    · cases h
    · next halt w' hcapture =>
      obtain ⟨rfl, hpasses⟩ := of_decide_eq_true h
      exact ⟨w', hcapture, hpasses⟩

end Kanatoko.Testnet
