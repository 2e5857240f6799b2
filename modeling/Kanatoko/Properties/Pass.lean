import Kanatoko.Capture.Source

/-!
# What a scenario pass does to its source

`Reads` lists once what a lookup can do; everything about a pass is derived from it.

* a pass without transport reads writes no transport event (`runPass_silent`)
* a pass with a transport that made no read is the pass without a transport (`runPass_strict`)
-/

namespace Kanatoko

open Fallible Adaptive

variable [Crates] {σ τ : Type}

/-! ## One lookup -/

/-- The source with a key written down as requested. -/
def TrackingSource.request (source : TrackingSource) (id : KeyId) (key : LedgerKey)
    (h : ledgerKeyToXdr key = some id) : TrackingSource :=
  { source with requested := source.requested.insert id key h }

/-- The cases of `TrackingSource.read`, each with what it answers and leaves behind. -/
inductive Reads (transport : Option (Transport σ)) (key : LedgerKey) (source : TrackingSource)
    (w : World σ) : LookupAnswer × PassState σ → Prop
  | failed : source.failure.isSome →
      Reads transport key source w (.error .storageInternalError, source, w)
  | unencodable : source.failure = none → ledgerKeyToXdr key = none →
      Reads transport key source w
        (.error .storageInternalError, { source with failure := some "ledger-key-encode" }, w)
  | owned : source.failure = none → (ledgerKeyToXdr key).isSome →
      source.localLedger.owns key = true → Reads transport key source w (.ok none, source, w)
  | known (id : KeyId) (h : ledgerKeyToXdr key = some id) (state : LookupState) :
      source.failure = none → source.localLedger.owns key = false →
      source.cache[id]? = some state →
      Reads transport key source w (.ok state.answer, source.request id key h, w)
  | unknown (id : KeyId) (h : ledgerKeyToXdr key = some id) : transport = none →
      source.failure = none → source.localLedger.owns key = false → source.cache[id]? = none →
      Reads transport key source w
        (.error .storageInternalError,
          { source.request id key h with unknown := source.unknown.insert id }, w)
  | fetched (t : Transport σ) (id : KeyId) (h : ledgerKeyToXdr key = some id) :
      transport = some t → source.failure = none → source.localLedger.owns key = false →
      source.cache[id]? = none →
      Reads transport key source w (fetchOne t key id (source.request id key h) w)

theorem read_reads (transport : Option (Transport σ)) (key : LedgerKey) (source : TrackingSource)
    (w : World σ) : Reads transport key source w (source.read transport key w) := by
  unfold TrackingSource.read
  split
  · next hf => exact .failed hf
  · next hf =>
    have hfail : source.failure = none := by simpa using hf
    split
    · next hx => exact .unencodable hfail hx
    · next id hx =>
      split
      · next ho => exact .owned hfail (by rw [hx]; rfl) ho
      · next ho =>
        have howns : source.localLedger.owns key = false := by simpa using ho
        dsimp only
        split
        · next state hc => exact .known id hx state hfail howns hc
        · next hc =>
          split
          · exact .unknown id hx rfl hfail howns hc
          · next t => exact .fetched t id hx rfl hfail howns hc

/-- A single-key read counts, writes one entry read, and moves neither evidence nor ownership. -/
theorem fetchOne_spec (t : Transport σ) (key : LedgerKey) (id : KeyId) (source : TrackingSource)
    (w : World σ) :
    (fetchOne t key id source w).2.1.rpcReads = source.rpcReads + 1 ∧
      (fetchOne t key id source w).2.1.unknown = source.unknown ∧
      (fetchOne t key id source w).2.1.localLedger = source.localLedger ∧
      ∃ answer, (fetchOne t key id source w).2.2.log = w.log ++ [.ledgerEntries [key] answer] := by
  unfold fetchOne
  dsimp only
  split
  · next failure w' h => exact ⟨rfl, rfl, rfl, _, by rw [← World.ledgerEntries_log, h]⟩
  · next batch w' h =>
    split <;> exact ⟨rfl, rfl, rfl, _, by rw [← World.ledgerEntries_log, h]⟩

theorem get_eq (transport : Option (Transport σ)) (key : LedgerKey) (st : PassState σ) :
    TrackingSource.get transport key st =
      ((st.1.read transport key st.2).1, (st.1.read transport key st.2).2.1,
        (st.1.read transport key st.2).2.2.record
          (.lookup key (st.1.localLedger.owns key) (st.1.read transport key st.2).1)) := rfl

/-- What every observed lookup preserves, the whole loop of a preview preserves. -/
theorem observeAll_invariant {transport : Option (Transport σ)} {Inv : PassState σ → Prop} :
    ∀ {keys : List LedgerKey},
      (∀ key ∈ keys, isNonceKey key = false → ∀ st, Inv st →
        Inv (TrackingSource.get transport key st).2) →
      ∀ (failed : Bool) (st : PassState σ), Inv st → Inv (observeAll transport keys failed st).2
  | [], _, _, _, hst => hst
  | key :: rest, hget, failed, st, hst => by
    have hrest : ∀ (failed : Bool) (st : PassState σ), Inv st →
        Inv (observeAll transport rest failed st).2 :=
      observeAll_invariant fun key' hk => hget key' (List.mem_cons_of_mem _ hk)
    rw [observeAll]
    split
    · exact hrest failed st hst
    · next hn =>
      have hst' := hget key List.mem_cons_self (by simpa using hn) st hst
      split
      · next st₁ heq => rw [heq] at hst'; exact hrest true _ hst'
      · next st₁ heq => rw [heq] at hst'; exact hrest failed _ hst'

/-! ## Reads are counted and failures stay -/

/-- What any operation may do to a pass state. -/
structure Moves (st st' : PassState σ) : Prop where
  rpcReads_le : st.1.rpcReads ≤ st'.1.rpcReads
  failure_stays : st.1.failure.isSome → st'.1.failure.isSome
  log_grows : ∃ trace, st'.2.log = st.2.log ++ trace ∧
    (st'.1.rpcReads = st.1.rpcReads → ∀ e ∈ trace, e.isOffline = true)

namespace Moves

theorem refl (st : PassState σ) : Moves st st :=
  ⟨Nat.le_refl _, id, [], by simp, by simp⟩

theorem trans {st₁ st₂ st₃ : PassState σ} (h : Moves st₁ st₂) (h' : Moves st₂ st₃) :
    Moves st₁ st₃ := by
  obtain ⟨trace, hlog, hoff⟩ := h.log_grows
  obtain ⟨trace', hlog', hoff'⟩ := h'.log_grows
  refine ⟨h.rpcReads_le.trans h'.rpcReads_le, h'.failure_stays ∘ h.failure_stays,
    trace ++ trace', by rw [hlog', hlog, List.append_assoc], ?_⟩
  intro heq e he
  have hle := h.rpcReads_le
  have hle' := h'.rpcReads_le
  rcases List.mem_append.mp he with he | he
  · exact hoff (by omega) e he
  · exact hoff' (by omega) e he

/-- An operation that writes one offline event and no read. -/
theorem of_record {st : PassState σ} {source : TrackingSource} {e : Event}
    (hreads : source.rpcReads = st.1.rpcReads)
    (hfailure : st.1.failure.isSome → source.failure.isSome) (he : e.isOffline = true) :
    Moves st (source, st.2.record e) :=
  ⟨hreads.ge, hfailure, [e], rfl, fun _ _ hmem => by rw [List.mem_singleton.mp hmem]; exact he⟩

end Moves

theorem get_moves (transport : Option (Transport σ)) (key : LedgerKey) (st : PassState σ) :
    Moves st (TrackingSource.get transport key st).2 := by
  rw [get_eq]
  have hread := read_reads transport key st.1 st.2
  generalize st.1.read transport key st.2 = result at hread ⊢
  cases hread with
  | failed _ => exact .of_record rfl id rfl
  | unencodable _ _ => exact .of_record rfl (fun _ => rfl) rfl
  | owned _ _ _ => exact .of_record rfl id rfl
  | known id h state _ _ _ => exact .of_record rfl (fun hf => hf) rfl
  | unknown id h _ _ _ _ => exact .of_record rfl (fun hf => hf) rfl
  | fetched t id h _ hfail _ _ =>
    obtain ⟨hreads, _, _, answer, hlog⟩ := fetchOne_spec t key id (st.1.request id key h) st.2
    refine ⟨?_, ?_, ?_⟩
    · rw [hreads]; exact Nat.le_succ _
    · rw [hfail]; exact fun hf => by cases hf
    · refine ⟨[_, _], by rw [World.record_log, hlog, List.append_assoc]; rfl, fun heq => ?_⟩
      rw [hreads] at heq
      exact absurd heq (Nat.succ_ne_self _)

theorem forwardPreviewReads_moves (transport : Option (Transport σ))
    (stored : Option (List LedgerKey)) (st : PassState σ) :
    Moves st (forwardPreviewReads transport stored st).2 := by
  have hrecord : Moves st (st.1, st.2.record (.preview stored)) := .of_record rfl id rfl
  unfold forwardPreviewReads
  cases stored with
  | none => exact hrecord
  | some keys =>
    have hall : Moves st (observeAll transport keys false
        (st.1, st.2.record (.preview (some keys)))).2 :=
      observeAll_invariant (fun key _ _ st' h => h.trans (get_moves transport key st')) false _
        hrecord
    dsimp only
    split
    · exact hall
    · split <;> exact hall

theorem serve_moves (transport : Option (Transport σ)) (op : SourceOp) (st : PassState σ) :
    Moves st (serve transport op st).2 := by
  cases op with
  | get key => exact get_moves transport key st
  | markAddress address => exact ⟨Nat.le_refl _, id, [], by simp [serve, mapLocal], by simp⟩
  | markCode hash => exact ⟨Nat.le_refl _, id, [], by simp [serve, mapLocal], by simp⟩
  | preview stored => exact forwardPreviewReads_moves transport stored st

/-- A whole pass moves its state as its operations do. -/
theorem run_moves {R : Type} (transport : Option (Transport σ)) (c : PassClient R)
    (st : PassState σ) : Moves st (c.run (serve transport) st).2 :=
  Client.run_invariant
    (fun op st' h => h.trans (serve_moves transport op st')) c st (.refl st)

/-- **A pass that counted no read called no transport.** -/
theorem runPass_silent {R : Type} {transport : Option (Transport σ)} {scenario : Scenario R}
    {env : Env} {cache : Coverage} {protocol : UInt32} {w : World σ}
    (h : (runPass transport scenario env (.new cache protocol) w).2.1.rpcReads = 0) :
    ∃ trace, (runPass transport scenario env (.new cache protocol) w).2.2.log
      = w.log ++ .pass :: trace ∧ ∀ e ∈ trace, e.isOffline = true := by
  obtain ⟨trace, hlog, hoff⟩ :=
    (run_moves transport (scenario env protocol) (.new cache protocol, w.record .pass)).log_grows
  refine ⟨trace, ?_, hoff h⟩
  rw [World.record_log, List.append_assoc] at hlog
  exact hlog

/-! ## A pass without a transport -/

/-- The source has counted `n` reads. -/
def Counted (n : Nat) (st : PassState σ) : Prop := st.1.rpcReads = n

theorem get_none_counted {n : Nat} {key : LedgerKey} {st : PassState σ} (h : Counted n st) :
    Counted n (TrackingSource.get none key st).2 := by
  rw [get_eq]
  have hread := read_reads none key st.1 st.2
  generalize st.1.read none key st.2 = result at hread ⊢
  cases hread with
  | fetched _ _ _ h => cases h
  | _ => exact h

theorem serve_none_counted {n : Nat} (op : SourceOp) (st : PassState σ) (h : Counted n st) :
    Counted n (serve none op st).2 := by
  cases op with
  | get key => exact get_none_counted h
  | markAddress _ | markCode _ => exact h
  | preview stored =>
    show Counted n (forwardPreviewReads none stored st).2
    unfold forwardPreviewReads
    cases stored with
    | none => exact h
    | some keys =>
      have hall : Counted n
          (observeAll none keys false (st.1, st.2.record (.preview (some keys)))).2 :=
        observeAll_invariant (fun _ _ _ _ => get_none_counted) false _ h
      dsimp only
      split
      · exact hall
      · split <;> exact hall

/-- A pass without a transport never counts a read. -/
theorem runPass_none_reads {R : Type} (scenario : Scenario R) (env : Env) (cache : Coverage)
    (protocol : UInt32) (w : World σ) :
    Counted 0 (runPass none scenario env (.new cache protocol) w).2 :=
  Client.run_invariant serve_none_counted _ _ rfl

/-! ## A pass with and without a transport -/

/-- The source has failed, or has read through its transport. -/
def WentOnline (st : PassState σ) : Prop := st.1.failure.isSome ∨ 0 < st.1.rpcReads

theorem Moves.wentOnline {st st' : PassState σ} (h : Moves st st') (hst : WentOnline st) :
    WentOnline st' :=
  hst.imp h.failure_stays fun hr => Nat.lt_of_lt_of_le hr h.rpcReads_le

/-- A pass with a transport and one without, equal so far; they began in `w` and `v`. -/
structure Alike (w : World σ) (v : World τ) (st₁ : PassState σ) (st₂ : PassState τ) : Prop where
  source_eq : st₁.1 = st₂.1
  no_failure : st₁.1.failure = none
  no_read : st₁.1.rpcReads = 0
  no_unknown : st₁.1.unknown = ∅
  logs : ∃ trace, st₁.2.log = w.log ++ trace ∧ st₂.2 = { v with log := v.log ++ trace }

theorem Alike.record {w : World σ} {v : World τ} {st₁ : PassState σ} {st₂ : PassState τ}
    (h : Alike w v st₁ st₂) (e : Event) :
    Alike w v (st₁.1, st₁.2.record e) (st₂.1, st₂.2.record e) := by
  obtain ⟨trace, hlog₁, hlog₂⟩ := h.logs
  refine ⟨h.source_eq, h.no_failure, h.no_read, h.no_unknown, trace ++ [e], ?_, ?_⟩
  · rw [World.record_log, hlog₁, List.append_assoc]
  · rw [hlog₂, World.record, List.append_assoc]

/-- A lookup that stays away from the transport does not depend on having one. -/
theorem get_alike {w : World σ} {v : World τ} (t : Transport σ) (key : LedgerKey)
    {st₁ : PassState σ} {st₂ : PassState τ} (h : Alike w v st₁ st₂) :
    WentOnline (TrackingSource.get (some t) key st₁).2 ∨
      ((TrackingSource.get (some t) key st₁).1 = (TrackingSource.get none key st₂).1 ∧
        Alike w v (TrackingSource.get (some t) key st₁).2
          (TrackingSource.get none key st₂).2) := by
  obtain ⟨source, w₁⟩ := st₁
  obtain ⟨source₂, w₂⟩ := st₂
  cases h.source_eq
  simp only [get_eq]
  have hread₁ := read_reads (some t) key source w₁
  have hread₂ := read_reads (none : Option (Transport τ)) key source w₂
  have hfail : source.failure = none := h.no_failure
  generalize source.read (some t) key w₁ = r₁ at hread₁ ⊢
  generalize source.read none key w₂ = r₂ at hread₂ ⊢
  cases hread₁ with
  | failed hf => exact absurd hf (by simp [hfail])
  | unencodable _ _ => exact Or.inl (Or.inl rfl)
  | owned _ hx ho =>
    cases hread₂ with
    | failed hf => exact absurd hf (by simp [hfail])
    | unencodable _ hx' => exact absurd hx (by simp [hx'])
    | owned _ _ _ => exact Or.inr ⟨rfl, h.record _⟩
    | known _ _ _ _ ho' _ => exact absurd ho (by simp [ho'])
    | unknown _ _ _ _ ho' _ => exact absurd ho (by simp [ho'])
    | fetched _ _ _ ht => cases ht
  | known id hx state _ ho hc =>
    cases hread₂ with
    | failed hf => exact absurd hf (by simp [hfail])
    | unencodable _ hx' => exact absurd hx (by simp [hx'])
    | owned _ _ ho' => exact absurd ho (by simp [ho'])
    | known id' hx' state' _ _ hc' =>
      obtain rfl : id = id' := Option.some.inj (hx.symm.trans hx')
      obtain rfl : state = state' := Option.some.inj (hc.symm.trans hc')
      have hrequest : Alike w v (source.request id key hx, w₁) (source.request id key hx, w₂) :=
        ⟨rfl, hfail, h.no_read, h.no_unknown, h.logs⟩
      exact Or.inr ⟨rfl, hrequest.record _⟩
    | unknown id' hx' _ _ _ hc' =>
      obtain rfl : id = id' := Option.some.inj (hx.symm.trans hx')
      exact absurd hc (by simp [hc'])
    | fetched _ _ _ ht => cases ht
  | unknown _ _ ht => cases ht
  | fetched t' id hx _ _ _ _ =>
    obtain ⟨hreads, _⟩ := fetchOne_spec t' key id (source.request id key hx) w₁
    exact Or.inl (Or.inr (by rw [hreads]; exact Nat.succ_pos _))

theorem observeAll_wentOnline {transport : Option (Transport σ)} {keys : List LedgerKey}
    {failed : Bool} {st : PassState σ} (h : WentOnline st) :
    WentOnline (observeAll transport keys failed st).2 :=
  observeAll_invariant (fun key _ _ st' h' => (get_moves transport key st').wentOnline h')
    failed st h

theorem observeAll_alike {w : World σ} {v : World τ} (t : Transport σ) :
    ∀ (keys : List LedgerKey) (failed : Bool) {st₁ : PassState σ} {st₂ : PassState τ},
    Alike w v st₁ st₂ →
    WentOnline (observeAll (some t) keys failed st₁).2 ∨
      ((observeAll (some t) keys failed st₁).1 = (observeAll none keys failed st₂).1 ∧
        Alike w v (observeAll (some t) keys failed st₁).2
          (observeAll none keys failed st₂).2)
  | [], failed, _, _, h => Or.inr ⟨rfl, h⟩
  | key :: rest, failed, st₁, st₂, h => by
    rw [observeAll, observeAll]
    split
    · exact observeAll_alike t rest failed h
    · have hget := get_alike t key h
      generalize TrackingSource.get (some t) key st₁ = r₁ at hget ⊢
      generalize TrackingSource.get none key st₂ = r₂ at hget ⊢
      obtain ⟨a₁, st₁'⟩ := r₁
      obtain ⟨a₂, st₂'⟩ := r₂
      rcases hget with hon | ⟨ha, hst⟩
      · cases a₁ <;> exact Or.inl (observeAll_wentOnline hon)
      · cases ha
        cases a₁ <;> exact observeAll_alike t rest _ hst

theorem forwardPreviewReads_alike {w : World σ} {v : World τ} (t : Transport σ)
    (stored : Option (List LedgerKey)) {st₁ : PassState σ} {st₂ : PassState τ}
    (h : Alike w v st₁ st₂) :
    WentOnline (forwardPreviewReads (some t) stored st₁).2 ∨
      ((forwardPreviewReads (some t) stored st₁).1 = (forwardPreviewReads none stored st₂).1 ∧
        Alike w v (forwardPreviewReads (some t) stored st₁).2
          (forwardPreviewReads none stored st₂).2) := by
  have hrecord := h.record (.preview stored)
  unfold forwardPreviewReads
  cases stored with
  | none => exact Or.inr ⟨rfl, hrecord⟩
  | some keys =>
    have hall := observeAll_alike t keys false hrecord
    dsimp only at hall ⊢
    generalize observeAll (some t) keys false _ = r₁ at hall ⊢
    generalize observeAll none keys false _ = r₂ at hall ⊢
    obtain ⟨f₁, st₁'⟩ := r₁
    obtain ⟨f₂, st₂'⟩ := r₂
    rcases hall with hon | ⟨hf, hst⟩
    · left
      split
      · exact hon
      · split <;> exact hon
    · right
      have hun : st₁'.1.unknown = ∅ := hst.no_unknown
      have hun₂ : st₂'.1.unknown = ∅ := by rw [← hst.source_eq]; exact hun
      dsimp only at hf hst ⊢
      rw [if_neg (not_not.mpr hun), if_neg (not_not.mpr hun₂), ← hf]
      split
      · exact ⟨rfl, hst⟩
      · exact ⟨by rw [h.source_eq, hst.source_eq], hst⟩

theorem serve_alike {w : World σ} {v : World τ} (t : Transport σ) (op : SourceOp)
    (st₁ : PassState σ) (st₂ : PassState τ) (h : Alike w v st₁ st₂) :
    WentOnline (serve (some t) op st₁).2 ∨
      ((serve (some t) op st₁).1 = (serve none op st₂).1 ∧
        Alike w v (serve (some t) op st₁).2 (serve none op st₂).2) := by
  cases op with
  | get key => exact get_alike t key h
  | preview stored => exact forwardPreviewReads_alike t stored h
  | markAddress address =>
    exact Or.inr ⟨rfl, by simp only [serve, mapLocal, h.source_eq],
      h.no_failure, h.no_read, h.no_unknown, h.logs⟩
  | markCode hash =>
    exact Or.inr ⟨rfl, by simp only [serve, mapLocal, h.source_eq],
      h.no_failure, h.no_read, h.no_unknown, h.logs⟩

/--
**A pass that never used its transport is the strict pass.**

Same end, same source, and the strict pass writes the same trace into any other world.
-/
theorem runPass_strict {R : Type} {t : Transport σ} {scenario : Scenario R} {env : Env}
    {cache : Coverage} {protocol : UInt32} {w w' : World σ} {passEnd : PassEnd R}
    {source : TrackingSource}
    (h : runPass (some t) scenario env (.new cache protocol) w = (passEnd, source, w'))
    (hfail : source.failure = none) (hreads : source.rpcReads = 0) :
    source.unknown = ∅ ∧ ∃ trace, w'.log = w.log ++ .pass :: trace ∧
      (∀ e ∈ trace, e.isOffline = true) ∧
      ∀ {τ : Type} (v : World τ), runPass none scenario env (.new cache protocol) v
        = (passEnd, source, { v with log := v.log ++ .pass :: trace }) := by
  have halike : ∀ {τ : Type} (v : World τ),
      ((passEnd, source) : PassEnd R × TrackingSource)
        = ((runPass none scenario env (.new cache protocol) v).1,
          (runPass none scenario env (.new cache protocol) v).2.1) ∧
      Alike (w.record .pass) (v.record .pass) (source, w')
        (runPass none scenario env (.new cache protocol) v).2 := by
    intro τ v
    have hrun := Client.run_upToBad (serve (some t)) (serve none) WentOnline
      (Alike (w.record .pass) (v.record .pass))
      (fun op st hb => (serve_moves _ op st).wentOnline hb)
      (fun op st₁ st₂ hr => serve_alike t op st₁ st₂ hr)
      (scenario env protocol) (.new cache protocol, w.record .pass)
      (.new cache protocol, v.record .pass)
      ⟨rfl, rfl, rfl, rfl, [], by simp, by simp [World.record]⟩
    have hrw : (scenario env protocol).run (serve (some t)) (.new cache protocol, w.record .pass)
        = (passEnd, source, w') := h
    rw [hrw] at hrun
    rcases hrun with hb | ⟨hend, hst⟩
    · rcases hb with hb | hb
      · rw [hfail] at hb; cases hb
      · rw [hreads] at hb; exact absurd hb (Nat.lt_irrefl 0)
    · exact ⟨Prod.ext hend hst.source_eq, hst⟩
  obtain ⟨trace, hlog, hoff⟩ := runPass_silent (by rw [h]; exact hreads)
  rw [h] at hlog
  refine ⟨(halike w).2.no_unknown, trace, hlog, hoff, fun v => ?_⟩
  obtain ⟨hend, hst⟩ := halike v
  obtain ⟨trace', hlog', hworld⟩ := hst.logs
  have htrace : trace' = trace := by
    rw [World.record_log, hlog, List.append_assoc] at hlog'
    exact (List.cons.inj (List.append_cancel_left hlog')).2.symm
  rw [htrace] at hworld
  refine Prod.ext (congrArg Prod.fst hend).symm (Prod.ext (congrArg Prod.snd hend).symm ?_)
  rw [hworld, World.record, List.append_assoc]
  rfl

end Kanatoko
