import Kanatoko.Properties.Rounds
import Kanatoko.Testnet.Native

/-!
# A failed read is latched

A monitor reads the log of a capture. It is `discovering` from the beginning of a pass, a
failed read of that pass turns it to `failed`, and from there on it allows nothing but
lookups that are refused.

* `captureRefFromKeys_phase` — no capture breaks the monitor, and one that ends in `failed`
  stopped with the transport error of that read
* `runPass_facts` — what the trace of one pass and its source say about each other
-/

namespace Kanatoko

open Fallible Adaptive

variable [Crates] {σ : Type}

/-! ## Failed reads -/

/-- The operation a read of `asked` fails with, in transport or because its batch is rejected. -/
def readFailure (asked : List LedgerKey) : Except TransportFailure EntryBatch → Option String
  | .error failure => some failure.operation
  | .ok batch =>
    match validateBatch asked batch.entries with
    | .error _ => some "getLedgerEntries"
    | .ok _ => none

namespace Event

omit [Crates] in
/-- The event reads this key through the transport. -/
def reads (key : LedgerKey) : Event → Bool
  | ledgerEntries asked _ => decide (key ∈ asked)
  | _ => false

/-- The event may stand in a pass. -/
def isInPass : Event → Bool
  | lookup _ _ _ | preview _ | ledgerEntries _ _ => true
  | network _ | latestLedger _ | pass => false

/-- The event is a lookup that is answered by an error, or the mark of a preview child. -/
def isRefused : Event → Bool
  | lookup _ _ (.error _) | preview _ => true
  | _ => false

end Event

/-- A single-key read fails and latches, or succeeds and is cached. -/
inductive FetchOutcome (key : LedgerKey) (id : KeyId) (source : TrackingSource)
    (answer : Except TransportFailure EntryBatch) (result : LookupAnswer × TrackingSource) : Prop
  | failed (operation : String) : readFailure [key] answer = some operation →
      result.1 = .error .storageInternalError → result.2.failure = some operation →
      result.2.cache = source.cache → FetchOutcome key id source answer result
  | cached (state : LookupState) : readFailure [key] answer = none →
      result.1 = .ok state.answer → result.2.failure = source.failure →
      result.2.cache = source.cache.insert id state → FetchOutcome key id source answer result

theorem fetchOne_outcome (t : Transport σ) (key : LedgerKey) (id : KeyId)
    (source : TrackingSource) (w : World σ) :
    ∃ answer, (fetchOne t key id source w).2.2.log = w.log ++ [.ledgerEntries [key] answer] ∧
      FetchOutcome key id source answer
        ((fetchOne t key id source w).1, (fetchOne t key id source w).2.1) := by
  have hlog := World.ledgerEntries_log w t [key]
  unfold fetchOne
  dsimp only
  split
  · next failure w' h =>
    rw [h] at hlog
    exact ⟨.error failure, hlog, .failed failure.operation rfl rfl rfl rfl⟩
  · next batch w' h =>
    rw [h] at hlog
    split
    · next hv => exact ⟨.ok batch, hlog, .failed _ (by simp [readFailure, hv]) rfl rfl rfl⟩
    · next returned hv =>
      exact ⟨.ok batch, hlog, .cached (stateOf returned[id]?) (by simp [readFailure, hv]) rfl
        rfl rfl⟩

/-! ## The monitor -/

/-- Where a capture is, as far as its log tells. -/
inductive Phase where
  | outside
  | discovering
  | failed (operation : String)
  | broken
  deriving DecidableEq

def Phase.next : Phase → Event → Phase
  | .broken, _ => .broken
  | .failed operation, e => if e.isRefused then .failed operation else .broken
  | _, .pass => .discovering
  | _, .network _ | _, .latestLedger _ => .outside
  | .outside, _ => .outside
  | .discovering, .ledgerEntries asked answer =>
    match readFailure asked answer with
    | some operation => .failed operation
    | none => .discovering
  | .discovering, _ => .discovering

theorem foldl_broken (trace : List Event) : trace.foldl Phase.next .broken = .broken := by
  induction trace with
  | nil => rfl
  | cons e rest ih => exact ih

/-- After a failed read the monitor breaks, or all that follows is refused. -/
theorem foldl_failed {operation : String} : ∀ {trace : List Event},
    trace.foldl Phase.next (.failed operation) ≠ .broken →
    trace.foldl Phase.next (.failed operation) = .failed operation ∧
      ∀ e ∈ trace, e.isRefused = true
  | [], _ => ⟨rfl, by simp⟩
  | e :: rest, h => by
    rw [List.foldl_cons] at h ⊢
    by_cases he : e.isRefused = true
    · have hnext : Phase.next (.failed operation) e = .failed operation := if_pos he
      rw [hnext] at h ⊢
      obtain ⟨heq, hall⟩ := foldl_failed h
      exact ⟨heq, List.forall_mem_cons.mpr ⟨he, hall⟩⟩
    · have hnext : Phase.next (.failed operation) e = .broken := if_neg he
      rw [hnext] at h
      exact absurd (foldl_broken rest) h

/-- Inside a pass the monitor goes on discovering until it fails. -/
theorem foldl_inPass : ∀ {trace : List Event}, (∀ e ∈ trace, e.isInPass = true) →
    trace.foldl Phase.next .discovering = .discovering ∨
      (∃ operation, trace.foldl Phase.next .discovering = .failed operation) ∨
      trace.foldl Phase.next .discovering = .broken
  | [], _ => Or.inl rfl
  | e :: rest, h => by
    obtain ⟨he, hrest⟩ := List.forall_mem_cons.mp h
    rw [List.foldl_cons]
    cases e with
    | network _ | latestLedger _ | pass => cases he
    | lookup _ _ _ | preview _ => exact foldl_inPass hrest
    | ledgerEntries asked answer =>
      cases hf : readFailure asked answer with
      | none =>
        have hnext : Phase.next .discovering (.ledgerEntries asked answer) = .discovering := by
          simp [Phase.next, hf]
        rw [hnext]
        exact foldl_inPass hrest
      | some operation =>
        have hnext : Phase.next .discovering (.ledgerEntries asked answer)
            = .failed operation := by simp [Phase.next, hf]
        rw [hnext]
        by_cases hb : rest.foldl Phase.next (.failed operation) = .broken
        · exact Or.inr (Or.inr hb)
        · exact Or.inr (Or.inl ⟨operation, (foldl_failed hb).1⟩)

/-- What has happened since `w₀` leaves the monitor in the phase `p`. -/
def InPhase (w₀ : World σ) (p : Phase) (w : World σ) : Prop :=
  ∃ trace, w.log = w₀.log ++ trace ∧ trace.foldl Phase.next .outside = p

theorem InPhase.step {w₀ w w' : World σ} {p : Phase} {e : Event} (h : InPhase w₀ p w)
    (hlog : w'.log = w.log ++ [e]) : InPhase w₀ (p.next e) w' := by
  obtain ⟨trace, htrace, rfl⟩ := h
  refine ⟨trace ++ [e], by rw [hlog, htrace, List.append_assoc], ?_⟩
  rw [List.foldl_append]
  rfl

theorem InPhase.record {w₀ w : World σ} {p q : Phase} {e : Event} (h : InPhase w₀ p w)
    (hq : p.next e = q) : InPhase w₀ q (w.record e) :=
  hq ▸ h.step (World.record_log w e)

/-- No read has failed. -/
def Calm (w₀ w : World σ) : Prop := InPhase w₀ .outside w ∨ InPhase w₀ .discovering w

theorem Calm.outside {w₀ w w' : World σ} {e : Event} (h : Calm w₀ w)
    (hlog : w'.log = w.log ++ [e]) (he : e.isTransport = true) (hread : e.isEntryRead = false) :
    InPhase w₀ .outside w' := by
  rcases h with h | h <;> have hstep := h.step hlog <;> cases e <;>
    first | exact hstep | (cases he; done) | cases hread

/-! ## Captures outside a pass -/

theorem triple_latestLedger (t : Transport σ) (w₀ : World σ) :
    Triple (Calm w₀) (call (·.latestLedger t)) (fun _ => InPhase w₀ .outside) (fun _ => Calm w₀) :=
  triple_call (fun _ w h _ => h.outside (World.latestLedger_log w t) rfl rfl)
    fun _ w h _ => Or.inl (h.outside (World.latestLedger_log w t) rfl rfl)

omit [Crates] in
theorem triple_pure_step {α : Type} {P : World σ → Prop} (x : Except CaptureError α) :
    Triple P (liftCapture x) (fun _ => P) (fun _ => P) :=
  triple_liftCapture (fun _ _ _ h => h) fun _ _ _ h => h

theorem fetchChunks_phase (b : CaptureBuilder σ) (configId : KeyId) (sequence : UInt32)
    (w₀ : World σ) : ∀ (chunks : List (List (KeyId × LedgerKey))) (fetched : Fetched),
    Triple (InPhase w₀ .outside) (b.fetchChunks configId sequence chunks fetched)
      (fun _ => InPhase w₀ .outside) (fun _ => InPhase w₀ .outside)
  | [], _ => .pure fun _ h => h
  | chunk :: rest, fetched => by
    rw [CaptureBuilder.fetchChunks]
    have hcall : Triple (InPhase w₀ .outside)
        (call (·.ledgerEntries b.transport (chunk.map Prod.snd)))
        (fun _ => InPhase w₀ .outside) (fun _ => InPhase w₀ .outside) :=
      triple_call (fun _ w h _ => h.step (World.ledgerEntries_log w b.transport _))
        fun _ w h _ => h.step (World.ledgerEntries_log w b.transport _)
    refine .bind hcall fun batch => ?_
    split
    · exact .pure fun _ h => h
    · exact .bind (triple_pure_step _) fun _ => .bind (triple_pure_step _) fun fetched' =>
        fetchChunks_phase b configId sequence w₀ rest fetched'

theorem materializeAttempts_phase (b : CaptureBuilder σ) (configId : KeyId)
    (requested : List (KeyId × LedgerKey)) (w₀ : World σ) : ∀ attempts,
    Triple (Calm w₀) (b.materializeAttempts configId requested attempts)
      (fun _ => Calm w₀) (fun _ => Calm w₀)
  | 0 => triple_stop fun _ h => h
  | attempts + 1 => by
    have hretry := materializeAttempts_phase b configId requested w₀ attempts
    have houtside : ∀ {α : Type} {x : CaptureM σ α},
        Triple (InPhase w₀ .outside) x (fun _ => InPhase w₀ .outside)
          (fun _ => InPhase w₀ .outside) →
        Triple (InPhase w₀ .outside) x (fun _ => InPhase w₀ .outside) (fun _ => Calm w₀) :=
      fun hx => hx.weaken (fun _ h => h) (fun _ _ h => h) fun _ _ h => Or.inl h
    have hafter : Triple (InPhase w₀ .outside) (call (·.latestLedger b.transport))
        (fun _ => Calm w₀) (fun _ => Calm w₀) :=
      (triple_latestLedger b.transport w₀).weaken (fun _ h => Or.inl h)
        (fun _ _ h => Or.inl h) fun _ _ h => h
    rw [CaptureBuilder.materializeAttempts]
    refine .bind (triple_latestLedger b.transport w₀) fun before =>
      .bind (houtside (triple_pure_step _)) fun _ =>
      .bind (houtside (fetchChunks_phase b configId _ w₀ _ _)) fun fetched =>
      .bind hafter fun after => ?_
    split
    · exact hretry
    · split
      · exact hretry
      · exact triple_pure_step _

theorem materialize_phase (b : CaptureBuilder σ) (keys : KeyMap) (w₀ : World σ) :
    Triple (Calm w₀) (b.materialize keys) (fun _ => Calm w₀) (fun _ => Calm w₀) :=
  .bind (triple_pure_step _) fun _ => materializeAttempts_phase b _ _ w₀ _

theorem expandRounds_phase (b : CaptureBuilder σ) (w₀ : World σ) :
    ∀ (rounds : Nat) (keys : KeyMap) (m : Materialized),
    Triple (Calm w₀) (b.expandRounds rounds keys m) (fun _ => Calm w₀) (fun _ => Calm w₀)
  | rounds, keys, m => by
    rw [CaptureBuilder.expandRounds]
    refine .bind (triple_pure_step _) fun required => .bind (triple_pure_step _) fun inserted => ?_
    obtain ⟨keys₁, added⟩ := inserted
    dsimp only
    split
    · exact .bind (triple_pure_step _) fun _ => .pure fun _ h => h
    · cases rounds with
      | zero => exact triple_stop fun _ h => h
      | succ rounds =>
        exact .bind (materialize_phase b _ w₀) fun m => expandRounds_phase b w₀ rounds _ m

theorem materializeClosed_phase (b : CaptureBuilder σ) (keys : KeyMap) (w₀ : World σ) :
    Triple (Calm w₀) (b.materializeClosed keys) (fun _ => Calm w₀) (fun _ => Calm w₀) :=
  .bind (materialize_phase b keys w₀) fun m => expandRounds_phase b w₀ _ keys m

theorem validateNetwork_phase (b : CaptureBuilder σ) (w₀ : World σ) :
    Triple (Calm w₀) b.validateNetwork (fun _ => Calm w₀) (fun _ => Calm w₀) :=
  .bind (triple_call (fun _ w h _ => Or.inl (h.outside (World.network_log w _) rfl rfl))
      fun _ w h _ => Or.inl (h.outside (World.network_log w _) rfl rfl)) fun _ =>
    .bind (triple_pure_step _) fun _ => triple_pure_step _

/-! ## One pass -/

/-- The monitor discovers, or has failed with the failure the source holds. -/
def Discovering (w₀ : World σ) (st : PassState σ) : Prop :=
  InPhase w₀ .discovering st.2 ∨
    ∃ operation, InPhase w₀ (.failed operation) st.2 ∧ st.1.failure = some operation

theorem get_discovering {w₀ : World σ} (t : Transport σ) (key : LedgerKey) {st : PassState σ}
    (h : Discovering w₀ st) : Discovering w₀ (TrackingSource.get (some t) key st).2 := by
  rw [get_eq]
  have hread := read_reads (some t) key st.1 st.2
  generalize st.1.read (some t) key st.2 = result at hread ⊢
  -- before a failure the monitor is still discovering
  have hclear : st.1.failure = none → InPhase w₀ .discovering st.2 := by
    intro hnone
    rcases h with h | ⟨operation, _, hsome⟩
    · exact h
    · rw [hnone] at hsome; cases hsome
  cases hread with
  | failed hf =>
    rcases h with h | ⟨operation, h, hsome⟩
    · exact Or.inl (h.record rfl)
    · exact Or.inr ⟨operation, h.record rfl, hsome⟩
  | unencodable hnone _ => exact Or.inl ((hclear hnone).record rfl)
  | owned hnone _ _ => exact Or.inl ((hclear hnone).record rfl)
  | known id hid state hnone _ _ => exact Or.inl ((hclear hnone).record rfl)
  | unknown id hid ht _ _ _ => cases ht
  | fetched t' id hid _ hnone _ _ =>
    obtain ⟨answer, hlog, houtcome⟩ := fetchOne_outcome t' key id (st.1.request id key hid) st.2
    have hphase := (hclear hnone).step hlog
    cases houtcome with
    | failed operation hfail herror hlatch _ =>
      rw [Phase.next, hfail] at hphase
      dsimp only at herror
      refine Or.inr ⟨operation, hphase.record ?_, hlatch⟩
      rw [herror]
      rfl
    | cached state hfail _ _ _ =>
      rw [Phase.next, hfail] at hphase
      exact Or.inl (hphase.record rfl)

theorem serve_discovering {w₀ : World σ} (t : Transport σ) (op : SourceOp) (st : PassState σ)
    (h : Discovering w₀ st) : Discovering w₀ (serve (some t) op st).2 := by
  cases op with
  | get key => exact get_discovering t key h
  | markAddress _ | markCode _ => exact h
  | preview stored =>
    have hmark : Discovering w₀ (st.1, st.2.record (.preview stored)) := by
      rcases h with h | ⟨operation, h, hsome⟩
      · exact Or.inl (h.record rfl)
      · exact Or.inr ⟨operation, h.record rfl, hsome⟩
    show Discovering w₀ (forwardPreviewReads (some t) stored st).2
    unfold forwardPreviewReads
    cases stored with
    | none => exact hmark
    | some keys =>
      have hall : Discovering w₀ (observeAll (some t) keys false
          (st.1, st.2.record (.preview (some keys)))).2 :=
        observeAll_invariant (fun _ _ _ _ => get_discovering t _) false _ hmark
      dsimp only
      split
      · exact hall
      · split <;> exact hall

theorem passOver_phase {R : Type} (b : CaptureBuilder σ) (scenario : Scenario R)
    (m : Materialized) (w₀ : World σ) :
    Triple (Calm w₀) (passOver (some b.transport) scenario m)
      (fun a w => Discovering w₀ (a.2, w)) (fun _ => Calm w₀) where
  ok := by
    intro w (passEnd, source) w' hw h
    obtain ⟨env, _, hrun⟩ := passOver_eq_ok.mp h
    have hbegin : Discovering w₀
        (TrackingSource.new m.coverage m.ledgerInfo.protocolVersion, w.record .pass) := by
      rcases hw with hw | hw <;> exact Or.inl (hw.record rfl)
    have hend := Client.run_invariant (serve_discovering b.transport)
      (scenario env m.ledgerInfo.protocolVersion) _ hbegin
    rw [show (scenario env m.ledgerInfo.protocolVersion).run (serve (some b.transport)) _
      = (passEnd, source, w') from hrun] at hend
    exact hend
  error := by
    intro w e w' hw h
    unfold passOver at h
    rcases run_bind_eq_error.mp h with h | ⟨env, w₁, _, h₂⟩
    · rw [← (run_lift_eq_error.mp h).2]; exact hw
    · cases h₂

/-! ## Whole captures -/

/-- No failure so far, or the capture has stopped with the failure of a read. -/
def StoppedBy (w₀ : World σ) (halt : Halt) (w : World σ) : Prop :=
  Calm w₀ w ∨ ∃ operation, InPhase w₀ (.failed operation) w ∧ halt = .error (.transport operation)

/-- A pass in which a read has failed stops at the check behind it. -/
theorem failureCheck_phase (source : TrackingSource) (w₀ : World σ) :
    Triple (fun w => Discovering w₀ (source, w))
      (liftCapture (match source.failure with
        | some operation => throw (.transport operation)
        | none => pure ()))
      (fun _ => Calm w₀) (StoppedBy w₀) := by
  refine triple_failureCheck (fun w hnone hw => ?_) fun operation w hsome hw => ?_
  · rcases hw with hw | ⟨operation, _, hfail⟩
    · exact Or.inr hw
    · cases hnone.symm.trans hfail
  · rcases hw with hw | ⟨operation', hw, hfail⟩
    · exact Or.inl (Or.inr hw)
    · cases hsome.symm.trans hfail
      exact Or.inr ⟨operation, hw, rfl⟩

theorem captureRounds_phase (b : CaptureBuilder σ) (scenario : Scenario Unit) (w₀ : World σ) :
    ∀ (rounds round : Nat) (keys : KeyMap) (m : Materialized),
    Triple (Calm w₀) (b.captureRounds scenario rounds round keys m)
      (fun _ => Calm w₀) (StoppedBy w₀)
  | 0, _, _, _ => triple_stop fun _ h => Or.inl h
  | rounds + 1, round, keys, m => by
    have hcalm : ∀ {α : Type} {x : CaptureM σ α},
        Triple (Calm w₀) x (fun _ => Calm w₀) (fun _ => Calm w₀) →
        Triple (Calm w₀) x (fun _ => Calm w₀) (StoppedBy w₀) :=
      fun hx => hx.weaken (fun _ h => h) (fun _ _ h => h) fun _ _ h => Or.inl h
    rw [CaptureBuilder.captureRounds]
    refine .bind ((passOver_phase b scenario m w₀).weaken (fun _ h => h) (fun _ _ h => h)
      fun _ _ h => Or.inl h) fun pass => .bind (failureCheck_phase pass.2 w₀) fun _ =>
        .bind (hcalm (triple_pure_step _)) fun stored =>
        .bind (hcalm (triple_pure_step _)) fun collected => ?_
    dsimp only
    split
    · exact .bind (hcalm (materializeClosed_phase b collected.1 w₀)) fun closed =>
        captureRounds_phase b scenario w₀ rounds (round + 1) closed.1 closed.2
    · exact hcalm (triple_pure_step _)

/-- **A capture that the monitor finds failed has stopped with that failure.** -/
theorem captureRefFromKeys_phase (b : CaptureBuilder σ) (scenario : Scenario Unit)
    (keys : KeyMap) (w₀ : World σ) :
    Triple (Calm w₀) (b.captureRefFromKeys scenario keys) (fun _ => Calm w₀) (StoppedBy w₀) := by
  refine .bind ((validateNetwork_phase b w₀).weaken (fun _ h => h) (fun _ _ h => h)
    fun _ _ h => Or.inl h) fun _ => .bind ((materializeClosed_phase b keys w₀).weaken
      (fun _ h => h) (fun _ _ h => h) fun _ _ h => Or.inl h) fun (keys₁, m) => ?_
  exact captureRounds_phase b scenario w₀ _ _ _ _

/-! ## What a pass writes down -/

/-- What the trace of a pass and its source say about each other. -/
structure PassFacts (trace : List Event) (source : TrackingSource) : Prop where
  refused : ∀ asked answer, .ledgerEntries asked answer ∈ trace →
    (readFailure asked answer).isSome → source.failure.isSome ∧
      ∀ key ∈ asked, ∀ id, ledgerKeyToXdr key = some id → id ∉ source.cache
  fetched : ∀ asked answer, .ledgerEntries asked answer ∈ trace →
    readFailure asked answer = none →
      ∀ key ∈ asked, ∃ id, ledgerKeyToXdr key = some id ∧ id ∈ source.cache
  once : ∀ key, trace.countP (Event.reads key) ≤ 1
  answered : ∀ key answer, .lookup key false (.ok answer) ∈ trace →
    ∃ id state, ledgerKeyToXdr key = some id ∧ source.cache[id]? = some state ∧
      state.answer = answer
  erred : ∀ key owned e, .lookup key owned (.error e) ∈ trace → source.failure.isSome

namespace PassFacts

variable {trace : List Event} {source source' : TrackingSource}

theorem nil (source : TrackingSource) : PassFacts [] source where
  refused := by simp
  fetched := by simp
  once := by simp
  answered := by simp
  erred := by simp

/-- One more event that is no read, over the same cache. -/
theorem append (h : PassFacts trace source) {e : Event} (he : e.isEntryRead = false)
    (hcache : source'.cache = source.cache)
    (hfailure : source.failure.isSome → source'.failure.isSome)
    (hanswered : ∀ key answer, e = .lookup key false (.ok answer) →
      ∃ id state, ledgerKeyToXdr key = some id ∧ source.cache[id]? = some state ∧
        state.answer = answer)
    (herred : ∀ key owned err, e = .lookup key owned (.error err) → source'.failure.isSome) :
    PassFacts (trace ++ [e]) source' := by
  have hold : ∀ asked answer, .ledgerEntries asked answer ∈ trace ++ [e] →
      .ledgerEntries asked answer ∈ trace := by
    intro asked answer hmem
    rcases List.mem_append.mp hmem with hmem | hmem
    · exact hmem
    · cases List.mem_singleton.mp hmem
      cases he
  refine ⟨fun asked answer hmem hfail => ?_, fun asked answer hmem hok => ?_, fun key => ?_,
    fun key answer hmem => ?_, fun key owned err hmem => ?_⟩
  · obtain ⟨hsome, hnot⟩ := h.refused asked answer (hold asked answer hmem) hfail
    rw [hcache]
    exact ⟨hfailure hsome, hnot⟩
  · rw [hcache]
    exact h.fetched asked answer (hold asked answer hmem) hok
  · rw [List.countP_append, List.countP_singleton, if_neg]
    · exact h.once key
    · cases e <;> simp_all [Event.reads, Event.isEntryRead]
  · rw [hcache]
    rcases List.mem_append.mp hmem with hmem | hmem
    · exact h.answered key answer hmem
    · exact hanswered key answer (List.mem_singleton.mp hmem).symm
  · rcases List.mem_append.mp hmem with hmem | hmem
    · exact hfailure (h.erred key owned err hmem)
    · exact herred key owned err (List.mem_singleton.mp hmem).symm

/-- A failed read would have left a failure. -/
theorem readFailure_eq_none (h : PassFacts trace source) (hnone : source.failure = none)
    {asked : List LedgerKey} {answer : Except TransportFailure EntryBatch}
    (hmem : .ledgerEntries asked answer ∈ trace) : readFailure asked answer = none := by
  by_contra hfail
  have hsome := (h.refused asked answer hmem (Option.ne_none_iff_isSome.mp hfail)).1
  rw [hnone] at hsome
  cases hsome

/-- So would a lookup that was answered with an error. -/
theorem lookup_ok (h : PassFacts trace source) (hnone : source.failure = none)
    (key : LedgerKey) (owned : Bool) (err : HostError) :
    .lookup key owned (.error err) ∉ trace := by
  intro hmem
  have hsome := h.erred key owned err hmem
  rw [hnone] at hsome
  cases hsome

/-- A key that is not cached was not read. -/
theorem countP_reads_eq_zero (h : PassFacts trace source) (hnone : source.failure = none)
    {key : LedgerKey} {id : KeyId} (hid : ledgerKeyToXdr key = some id) (hnew : id ∉ source.cache) :
    trace.countP (Event.reads key) = 0 := by
  rw [List.countP_eq_zero]
  intro e he hreads
  cases e with
  | ledgerEntries asked answer =>
    obtain ⟨id', hid', hmem⟩ :=
      h.fetched asked answer he (h.readFailure_eq_none hnone he) key (of_decide_eq_true hreads)
    cases Option.some.inj (hid.symm.trans hid')
    exact hnew hmem
  | _ => cases hreads

/-- A read of a key that was not cached keeps every state of the cache. -/
theorem getElem?_cache_of_fetch {key : LedgerKey} {id : KeyId} (hnew : id ∉ source.cache)
    {answer : Except TransportFailure EntryBatch} {result : LookupAnswer}
    (houtcome : FetchOutcome key id source answer (result, source')) {id' : KeyId}
    {state : LookupState} (hstate : source.cache[id']? = some state) :
    source'.cache[id']? = some state := by
  cases houtcome with
  | failed _ _ _ _ hcache =>
    dsimp only at hcache
    rw [hcache]
    exact hstate
  | cached state' _ _ _ hcache =>
    dsimp only at hcache
    rw [hcache, Std.ExtTreeMap.getElem?_insert, if_neg]
    · exact hstate
    · intro heq
      cases Std.LawfulEqCmp.eq_of_compare heq
      exact hnew (Std.ExtTreeMap.mem_iff_isSome_getElem?.mpr (by rw [hstate]; rfl))

/-- One more read, of a key that was not cached, by a source that had not failed. -/
theorem appendRead (h : PassFacts trace source) {key : LedgerKey} {id : KeyId}
    (hid : ledgerKeyToXdr key = some id) (hnone : source.failure = none)
    (hnew : id ∉ source.cache) {answer : Except TransportFailure EntryBatch}
    {result : LookupAnswer} (houtcome : FetchOutcome key id source answer (result, source')) :
    PassFacts (trace ++ [.ledgerEntries [key] answer]) source' := by
  have hmono : ∀ {id' : KeyId} {state : LookupState}, source.cache[id']? = some state →
      source'.cache[id']? = some state := getElem?_cache_of_fetch hnew houtcome
  have hmem' : ∀ id', id' ∈ source.cache → id' ∈ source'.cache := by
    intro id' hid'
    rw [Std.ExtTreeMap.mem_iff_isSome_getElem?] at hid' ⊢
    obtain ⟨state, hstate⟩ := Option.isSome_iff_exists.mp hid'
    rw [hmono hstate]
    rfl
  refine ⟨fun asked answer' hmem hfail => ?_, fun asked answer' hmem hok => ?_, fun key' => ?_,
    fun key' answer' hmem => ?_, fun key' owned err hmem => ?_⟩
  · rcases List.mem_append.mp hmem with hmem | hmem
    · rw [h.readFailure_eq_none hnone hmem] at hfail
      cases hfail
    · cases List.mem_singleton.mp hmem
      cases houtcome with
      | failed _ _ _ hlatch hcache =>
        dsimp only at hlatch hcache
        refine ⟨by rw [hlatch]; rfl, fun key' hkey' id' hid' => ?_⟩
        cases List.mem_singleton.mp hkey'
        cases Option.some.inj (hid.symm.trans hid')
        rw [hcache]
        exact hnew
      | cached _ hok _ _ _ =>
        rw [hok] at hfail
        cases hfail
  · rcases List.mem_append.mp hmem with hmem | hmem
    · intro key' hkey'
      obtain ⟨id', hid', hin⟩ := h.fetched asked answer' hmem hok key' hkey'
      exact ⟨id', hid', hmem' id' hin⟩
    · cases List.mem_singleton.mp hmem
      intro key' hkey'
      cases List.mem_singleton.mp hkey'
      cases houtcome with
      | failed _ hfail _ _ _ =>
        rw [hok] at hfail
        cases hfail
      | cached _ _ _ _ hcache =>
        dsimp only at hcache
        exact ⟨id, hid, by rw [hcache]; exact Std.ExtTreeMap.mem_insert_self⟩
  · rw [List.countP_append, List.countP_singleton]
    by_cases hkey : key' = key
    · subst hkey
      rw [h.countP_reads_eq_zero hnone hid hnew]
      split <;> decide
    · rw [if_neg]
      · exact h.once key'
      · simpa [Event.reads] using hkey
  · rcases List.mem_append.mp hmem with hmem | hmem
    · obtain ⟨id', state, hid', hstate, hanswer⟩ := h.answered key' answer' hmem
      exact ⟨id', state, hid', hmono hstate, hanswer⟩
    · cases List.mem_singleton.mp hmem
  · rcases List.mem_append.mp hmem with hmem | hmem
    · exact absurd hmem (h.lookup_ok hnone key' owned err)
    · cases List.mem_singleton.mp hmem

end PassFacts

/-- The trace of a pass that began in `w` so far, with what it and the source say. -/
def Written (w : World σ) (st : PassState σ) : Prop :=
  ∃ trace, st.2.log = w.log ++ .pass :: trace ∧ PassFacts trace st.1

theorem get_written {w : World σ} (t : Transport σ) (key : LedgerKey) {st : PassState σ}
    (h : Written w st) : Written w (TrackingSource.get (some t) key st).2 := by
  obtain ⟨trace, hlog, hfacts⟩ := h
  rw [get_eq]
  have hread := read_reads (some t) key st.1 st.2
  generalize st.1.read (some t) key st.2 = result at hread ⊢
  -- a lookup behind the trace, when nothing was read for it
  have hlookup : ∀ {answer : LookupAnswer} {source : TrackingSource},
      PassFacts (trace ++ [.lookup key (st.1.localLedger.owns key) answer]) source →
      Written w (source,
        st.2.record (.lookup key (st.1.localLedger.owns key) answer)) := fun hfacts' =>
    ⟨_, by rw [World.record_log, hlog, List.append_assoc]; rfl, hfacts'⟩
  cases hread with
  | failed hf =>
    exact hlookup (hfacts.append rfl rfl id (fun _ _ h => by simp at h) fun _ _ _ _ => hf)
  | unencodable hnone _ =>
    exact hlookup (hfacts.append rfl rfl (fun _ => rfl) (fun _ _ h => by simp at h)
      fun _ _ _ _ => rfl)
  | owned hnone _ howns =>
    exact hlookup (hfacts.append rfl rfl id (fun _ _ h => by simp [howns] at h)
      fun _ _ _ h => by simp at h)
  | known id hid state hnone _ hstate =>
    refine hlookup (hfacts.append rfl rfl (fun h => h) (fun key' answer h => ?_)
      fun _ _ _ h => by simp at h)
    simp only [Event.lookup.injEq, Except.ok.injEq] at h
    obtain ⟨rfl, -, rfl⟩ := h
    exact ⟨id, state, hid, hstate, rfl⟩
  | unknown id hid ht _ _ _ => cases ht
  | fetched t' id hid _ hnone hno hmiss =>
    obtain ⟨answer, hread, houtcome⟩ :=
      fetchOne_outcome t' key id (st.1.request id key hid) st.2
    have hrequest : PassFacts trace (st.1.request id key hid) := ⟨hfacts.refused,
      hfacts.fetched, hfacts.once, hfacts.answered, hfacts.erred⟩
    have hnew : id ∉ (st.1.request id key hid).cache := by
      rw [Std.ExtTreeMap.mem_iff_isSome_getElem?]
      simp [TrackingSource.request, hmiss]
    have hread' := hrequest.appendRead hid hnone hnew houtcome
    have hall : PassFacts (trace ++ [.ledgerEntries [key] answer]
        ++ [.lookup key (st.1.localLedger.owns key)
          (fetchOne t' key id (st.1.request id key hid) st.2).1])
        (fetchOne t' key id (st.1.request id key hid) st.2).2.1 := by
      refine hread'.append rfl rfl (fun h => h) (fun key' answer' heq => ?_)
        fun key' owned err heq => ?_
      · simp only [Event.lookup.injEq] at heq
        obtain ⟨rfl, -, hanswer⟩ := heq
        cases houtcome with
        | failed _ _ herror _ _ => cases herror.symm.trans hanswer
        | cached state _ hok _ hcache =>
          cases hok.symm.trans hanswer
          dsimp only at hcache
          exact ⟨id, state, hid, by rw [hcache]; exact Std.ExtTreeMap.getElem?_insert_self, rfl⟩
      · simp only [Event.lookup.injEq] at heq
        cases houtcome with
        | failed _ _ _ hlatch _ => dsimp only at hlatch; rw [hlatch]; rfl
        | cached _ _ hok _ _ => cases hok.symm.trans heq.2.2
    refine ⟨_, ?_, hall⟩
    rw [World.record_log, hread, hlog]
    simp only [List.append_assoc, List.cons_append]

theorem serve_written {w : World σ} (t : Transport σ) (op : SourceOp) (st : PassState σ)
    (h : Written w st) : Written w (serve (some t) op st).2 := by
  cases op with
  | get key => exact get_written t key h
  | markAddress _ | markCode _ =>
    obtain ⟨trace, hlog, hfacts⟩ := h
    exact ⟨trace, hlog, hfacts.refused, hfacts.fetched, hfacts.once, hfacts.answered,
      hfacts.erred⟩
  | preview stored =>
    have hmark : Written w (st.1, st.2.record (.preview stored)) := by
      obtain ⟨trace, hlog, hfacts⟩ := h
      exact ⟨trace ++ [.preview stored], by rw [World.record_log, hlog, List.append_assoc]; rfl,
        hfacts.append rfl rfl id (fun _ _ h => by cases h) fun _ _ _ h => by cases h⟩
    show Written w (forwardPreviewReads (some t) stored st).2
    unfold forwardPreviewReads
    cases stored with
    | none => exact hmark
    | some keys =>
      have hall : Written w (observeAll (some t) keys false
          (st.1, st.2.record (.preview (some keys)))).2 :=
        observeAll_invariant (fun _ _ _ _ => get_written t _) false _ hmark
      dsimp only
      split
      · exact hall
      · split <;> exact hall

/-- **A pass and its source agree on what was read.** -/
theorem runPass_facts {R : Type} (t : Transport σ) (scenario : Scenario R) (env : Env)
    (coverage : Coverage) (protocol : UInt32) (w : World σ) :
    Written w (runPass (some t) scenario env (.new coverage protocol) w).2 :=
  Client.run_invariant (serve_written t) _ _ ⟨[], rfl, .nil _⟩

/-! ## The result -/

/-- The monitor behind a failed read of a pass, if nothing has broken it by the end. -/
theorem failed_of_foldl {before during rest : List Event} {asked : List LedgerKey}
    {answer : Except TransportFailure EntryBatch} {operation : String}
    (hpass : ∀ e ∈ during, e.isInPass = true) (hfail : readFailure asked answer = some operation)
    (h : (before ++ .pass :: during ++ .ledgerEntries asked answer :: rest).foldl Phase.next
      .outside ≠ .broken) :
    (before ++ .pass :: during ++ .ledgerEntries asked answer :: rest).foldl Phase.next .outside
      = .failed operation ∧ ∀ e ∈ rest, e.isRefused = true := by
  rw [List.foldl_append, List.foldl_append, List.foldl_cons, List.foldl_cons] at h ⊢
  generalize before.foldl Phase.next .outside = p at h ⊢
  -- the pass begins to discover, unless a failure was hidden before it
  have hbegin : p.next .pass = .discovering ∨ p.next .pass = .broken := by
    cases p <;> simp [Phase.next, Event.isRefused]
  rcases hbegin with hbegin | hbegin
  · rw [hbegin] at h ⊢
    rcases foldl_inPass hpass with hduring | ⟨earlier, hduring⟩ | hduring
    · rw [hduring] at h ⊢
      have hnext : Phase.next .discovering (.ledgerEntries asked answer) = .failed operation := by
        simp [Phase.next, hfail]
      rw [hnext] at h ⊢
      exact foldl_failed h
    · rw [hduring] at h
      exact absurd (foldl_broken rest) h
    · rw [hduring] at h
      exact absurd (foldl_broken rest) h
  · rw [hbegin, foldl_broken] at h
    exact absurd (foldl_broken rest) h

/-- The end of a capture, by the monitor. -/
theorem captureRefFromKeys_endPhase (b : CaptureBuilder σ) (scenario : Scenario Unit)
    (keys : KeyMap) (w : World σ) :
    Calm w (endWorld (b.captureRefFromKeys scenario keys w)) ∨
      ∃ operation w', b.captureRefFromKeys scenario keys w
        = .error (.error (.transport operation)) w' ∧ InPhase w (.failed operation) w' := by
  have hcalm : Calm w w := Or.inl ⟨[], (List.append_nil _).symm, rfl⟩
  have htriple := captureRefFromKeys_phase b scenario keys w
  cases hrun : b.captureRefFromKeys scenario keys w with
  | ok f w' => exact Or.inl (htriple.ok hcalm hrun)
  | error halt w' =>
    rcases htriple.error hcalm hrun with h | ⟨operation, h, rfl⟩
    · exact Or.inl h
    · exact Or.inr ⟨operation, w', rfl, h⟩

/--
**A failed read is never taken for absence.**

Behind a failed read of a discovery pass the log of a capture holds nothing but refused
lookups and preview marks, and the capture stops with the transport error of that read. In
any pass the keys of failed reads are not cached, no key is read twice, and as long as the
source has not failed two lookups of a key that is not local get one answer.
-/
theorem failed_read_latched (b : CaptureBuilder σ) (scenario : Scenario Unit) :
    (∀ (keys : KeyMap) (w : World σ) (before during rest : List Event)
        (asked : List LedgerKey) (answer : Except TransportFailure EntryBatch)
        (operation : String),
      (endWorld (b.captureRefFromKeys scenario keys w)).log
        = w.log ++ (before ++ .pass :: during ++ .ledgerEntries asked answer :: rest) →
      (∀ e ∈ during, e.isInPass = true) → readFailure asked answer = some operation →
      (∀ e ∈ rest, e.isRefused = true) ∧
        ∃ w', b.captureRefFromKeys scenario keys w
          = .error (.error (.transport operation)) w') ∧
    ∀ (env : Env) (coverage : Coverage) (protocol : UInt32) (w w' : World σ)
        (passEnd : PassEnd Unit) (source : TrackingSource),
      runPass (some b.transport) scenario env (.new coverage protocol) w
        = (passEnd, source, w') →
      ∃ trace, w'.log = w.log ++ .pass :: trace ∧
        (∀ asked answer, .ledgerEntries asked answer ∈ trace →
          (readFailure asked answer).isSome →
          ∀ key ∈ asked, ∀ id, ledgerKeyToXdr key = some id → source.cache[id]? = none) ∧
        (∀ key, trace.countP (Event.reads key) ≤ 1) ∧
        (source.failure = none → ∀ key answer answer', .lookup key false answer ∈ trace →
          .lookup key false answer' ∈ trace → answer = answer') := by
  refine ⟨fun keys w before during rest asked answer operation hlog hpass hfail => ?_,
    fun env coverage protocol w w' passEnd source hrun => ?_⟩
  · -- the log has one phase, and it is not the broken one
    have hphase : ∀ {p : Phase}, InPhase w p (endWorld (b.captureRefFromKeys scenario keys w)) →
        (before ++ .pass :: during ++ .ledgerEntries asked answer :: rest).foldl Phase.next
          .outside = p := by
      rintro p ⟨trace, htrace, rfl⟩
      rw [List.append_cancel_left (hlog.symm.trans htrace)]
    rcases captureRefFromKeys_endPhase b scenario keys w with
      (h | h) | ⟨operation', w', hrun, h⟩
    · have hfinal := failed_of_foldl hpass hfail (by rw [hphase h]; simp)
      cases (hphase h).symm.trans hfinal.1
    · have hfinal := failed_of_foldl hpass hfail (by rw [hphase h]; simp)
      cases (hphase h).symm.trans hfinal.1
    · rw [← show endWorld (b.captureRefFromKeys scenario keys w) = w' by rw [hrun]; rfl] at h
      obtain ⟨heq, hrest⟩ := failed_of_foldl hpass hfail (by rw [hphase h]; simp)
      cases (hphase h).symm.trans heq
      exact ⟨hrest, w', hrun⟩
  · have hwritten := runPass_facts b.transport scenario env coverage protocol w
    rw [hrun] at hwritten
    obtain ⟨trace, hlog, hfacts⟩ := hwritten
    refine ⟨trace, hlog, fun asked answer hmem hfail key hkey id hid => ?_, hfacts.once,
      fun hnone key answer answer' hmem hmem' => ?_⟩
    · have hnot := (hfacts.refused asked answer hmem hfail).2 key hkey id hid
      rw [Std.ExtTreeMap.mem_iff_isSome_getElem?] at hnot
      simpa using hnot
    · have hok : ∀ answer, .lookup key false answer ∈ trace → ∃ value, answer = .ok value := by
        intro answer hmem
        cases answer with
        | ok value => exact ⟨value, rfl⟩
        | error e =>
          have hsome := hfacts.erred key false e hmem
          dsimp only at hsome
          rw [hnone] at hsome
          cases hsome
      obtain ⟨value, rfl⟩ := hok answer hmem
      obtain ⟨value', rfl⟩ := hok answer' hmem'
      obtain ⟨id, state, hid, hstate, rfl⟩ := hfacts.answered key value hmem
      obtain ⟨id', state', hid', hstate', rfl⟩ := hfacts.answered key value' hmem'
      cases Option.some.inj (hid.symm.trans hid')
      cases Option.some.inj (hstate.symm.trans hstate')
      rfl

end Kanatoko

namespace Kanatoko.Testnet

open Fallible

deriving instance DecidableEq for Event

/-- A transport that answers for the archival settings alone. -/
def flakyTransport : Transport Unit where
  network := nativeTransport.network
  latestLedger := nativeTransport.latestLedger
  ledgerEntries keys s :=
    if keys = [stateArchivalKey] then nativeTransport.ledgerEntries keys s
    else (.error ⟨"getLedgerEntries"⟩, s)

def flakyBuilder : CaptureBuilder Unit := { nativeBuilder with transport := flakyTransport }

/-- The scenario hides every error and ends well; the capture stops all the same. -/
theorem flaky_read_latched :
    (∃ w', flakyBuilder.captureRefFromKeys nativeScenario .empty nativeWorld
      = .error (.error (.transport "getLedgerEntries")) w') ∧
    ∃ trace, (runPass (some flakyTransport) nativeScenario
        (forkEnv nativeBundle.ledgerSnapshot.toLedgerInfo nativeBundle.ledgerSnapshot)
        (.new ∅ 29) nativeWorld).2.2.log = .pass :: trace ∧
      ∀ key, trace.countP (Event.reads key) ≤ 1 := by
  have hlog : (endWorld (flakyBuilder.captureRefFromKeys nativeScenario .empty nativeWorld)).log
      = nativeWorld.log ++ (((endWorld (flakyBuilder.captureRefFromKeys nativeScenario .empty
          nativeWorld)).log.take 4) ++ .pass :: []
        ++ .ledgerEntries [contractInstanceKey nativeAsset] (.error ⟨"getLedgerEntries"⟩)
        :: ((endWorld (flakyBuilder.captureRefFromKeys nativeScenario .empty
          nativeWorld)).log.drop 6)) := by
    decide +kernel
  generalize List.take 4 _ = before at hlog
  generalize List.drop 6 _ = rest at hlog
  obtain ⟨hcapture, hpass⟩ := failed_read_latched flakyBuilder nativeScenario
  obtain ⟨trace, htrace, -, honce, -⟩ := hpass
    (forkEnv nativeBundle.ledgerSnapshot.toLedgerInfo nativeBundle.ledgerSnapshot) ∅ 29
    nativeWorld _ _ _ rfl
  exact ⟨(hcapture .empty nativeWorld before [] rest _ _ "getLedgerEntries" hlog
    (by simp) rfl).2, trace, htrace, honce⟩

end Kanatoko.Testnet
