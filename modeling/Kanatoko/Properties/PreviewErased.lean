import Kanatoko.Lib.Machine
import Kanatoko.Properties.PreviewReports
import Kanatoko.Scenario.Replace

/-!
# Client code without its previews

A preview leaves its fork as it was. It does look up on the source what its child has stored,
and what it finds there is written down; as long as that neither fails nor reads upstream, no
other method of the fork can tell whether there was a preview before it.
-/

namespace Kanatoko

open Adaptive

variable [Crates] {σ : Type}

/-! ## The source -/

def SourceOp.isPreview : SourceOp → Bool
  | .preview _ => true
  | _ => false

/-- Two sources that answer lookups alike. The first has met whatever the second has. -/
structure AnswersAs (s t : TrackingSource) : Prop where
  cache_eq : s.cache = t.cache
  localLedger_eq : s.localLedger = t.localLedger
  no_failure : s.failure = none
  no_failure' : t.failure = none
  unknown_subset : ∀ id ∈ t.unknown, id ∈ s.unknown

/-- The source has failed, or has read upstream more than `n` times. -/
def WentPast (n : Nat) (st : PassState σ) : Prop := st.1.failure.isSome ∨ n < st.1.rpcReads

theorem Moves.wentPast {n : Nat} {st st' : PassState σ} (h : Moves st st') (hst : WentPast n st) :
    WentPast n st' :=
  hst.imp h.failure_stays fun hr => Nat.lt_of_lt_of_le hr h.rpcReads_le

/-- The states of two passes whose sources answer alike; the first has read `n` times at least. -/
structure PassAs (n : Nat) (st st' : PassState σ) : Prop where
  answersAs : AnswersAs st.1 st'.1
  reads : n ≤ st.1.rpcReads

theorem fetchOne_wentPast {n : Nat} (t : Transport σ) (key : LedgerKey) (id : KeyId)
    (source : TrackingSource) (w w' : World σ) (h : n ≤ source.rpcReads) :
    WentPast n ((fetchOne t key id source w).2.1, w') := by
  obtain ⟨hreads, _⟩ := fetchOne_spec t key id source w
  exact Or.inr (Nat.lt_of_le_of_lt h (by rw [hreads]; exact Nat.lt_succ_self _))

theorem AnswersAs.insert_unknown {s t : TrackingSource} (h : AnswersAs s t) (id : KeyId) :
    ∀ id' ∈ t.unknown.insert id, id' ∈ s.unknown.insert id := by
  intro id' hid'
  rw [Std.ExtTreeSet.mem_insert] at hid' ⊢
  exact hid'.imp_right (h.unknown_subset id')

/-- **Sources that answer alike still do after one lookup**, unless it has gone upstream. -/
theorem get_passAs {n : Nat} (transport : Option (Transport σ)) (key : LedgerKey)
    {st st' : PassState σ} (h : PassAs n st st') :
    WentPast n (TrackingSource.get transport key st).2 ∨
      ((TrackingSource.get transport key st).1 = (TrackingSource.get transport key st').1 ∧
        PassAs n (TrackingSource.get transport key st).2
          (TrackingSource.get transport key st').2) := by
  obtain ⟨source, w⟩ := st
  obtain ⟨source', w'⟩ := st'
  have hs : AnswersAs source source' := h.answersAs
  simp only [get_eq]
  have hread := read_reads transport key source w
  have hread' := read_reads transport key source' w'
  generalize source.read transport key w = r at hread ⊢
  generalize source'.read transport key w' = r' at hread' ⊢
  cases hread with
  | failed hf => exact absurd hf (by simp [hs.no_failure])
  | unencodable => exact Or.inl (Or.inl rfl)
  | fetched t id hid =>
    exact Or.inl (fetchOne_wentPast t key id (source.request id key hid) w _ h.reads)
  | owned _ hx ho =>
    rw [hs.localLedger_eq] at ho
    cases hread' with
    | failed hf => exact absurd hf (by simp [hs.no_failure'])
    | unencodable _ hx' => exact absurd hx (by simp [hx'])
    | owned => exact Or.inr ⟨rfl, hs, h.reads⟩
    | known _ _ _ _ ho' | unknown _ _ _ _ ho' | fetched _ _ _ _ _ ho' =>
      exact absurd ho (by simp [ho'])
  | known id hx state _ ho hc =>
    rw [hs.localLedger_eq] at ho
    rw [hs.cache_eq] at hc
    cases hread' with
    | failed hf => exact absurd hf (by simp [hs.no_failure'])
    | unencodable _ hx' => exact absurd hx (by simp [hx'])
    | owned _ _ ho' => exact absurd ho' (by simp [ho])
    | known id' hx' state' _ _ hc' =>
      obtain rfl : id = id' := Option.some.inj (hx.symm.trans hx')
      obtain rfl : state = state' := Option.some.inj (hc.symm.trans hc')
      exact Or.inr ⟨rfl, ⟨hs.cache_eq, hs.localLedger_eq, hs.no_failure, hs.no_failure',
        hs.unknown_subset⟩, h.reads⟩
    | unknown id' hx' _ _ _ hc' | fetched _ id' hx' _ _ _ hc' =>
      obtain rfl : id = id' := Option.some.inj (hx.symm.trans hx')
      exact absurd hc (by simp [hc'])
  | unknown id hx ht _ ho hc =>
    rw [hs.localLedger_eq] at ho
    rw [hs.cache_eq] at hc
    cases hread' with
    | failed hf => exact absurd hf (by simp [hs.no_failure'])
    | unencodable _ hx' => exact absurd hx' (by simp [hx])
    | owned _ _ ho' => exact absurd ho' (by simp [ho])
    | known id' hx' _ _ _ hc' =>
      obtain rfl : id = id' := Option.some.inj (hx.symm.trans hx')
      exact absurd hc (by simp [hc'])
    | unknown id' hx' =>
      obtain rfl : id = id' := Option.some.inj (hx.symm.trans hx')
      exact Or.inr ⟨rfl, ⟨hs.cache_eq, hs.localLedger_eq, hs.no_failure, hs.no_failure',
        hs.insert_unknown id⟩, h.reads⟩
    | fetched _ _ _ ht' => exact absurd (ht.symm.trans ht') (by simp)

/-- Every operation but a preview keeps sources answering alike. -/
theorem serve_passAs {n : Nat} (transport : Option (Transport σ)) (op : SourceOp)
    (st st' : PassState σ) (hop : op.isPreview = false) (h : PassAs n st st') :
    WentPast n (serve transport op st).2 ∨
      ((serve transport op st).1 = (serve transport op st').1 ∧
        PassAs n (serve transport op st).2 (serve transport op st').2) := by
  have hmark : ∀ mark : LocalLedger → LocalLedger, PassAs n (mapLocal mark st) (mapLocal mark st') :=
    fun mark => ⟨⟨h.answersAs.cache_eq, congrArg mark h.answersAs.localLedger_eq,
      h.answersAs.no_failure, h.answersAs.no_failure', h.answersAs.unknown_subset⟩, h.reads⟩
  cases op with
  | get key => exact get_passAs transport key h
  | markAddress address => exact Or.inr ⟨rfl, hmark (·.markAddress address)⟩
  | markCode hash => exact Or.inr ⟨rfl, hmark (·.markCode hash)⟩
  | preview stored => cases hop

/-- What a lookup leaves behind answers as the source before it, unless it has gone upstream. -/
theorem get_passAs_before {n : Nat} (transport : Option (Transport σ)) (key : LedgerKey)
    {st st' : PassState σ} (h : PassAs n st st') :
    WentPast n (TrackingSource.get transport key st).2 ∨
      PassAs n (TrackingSource.get transport key st).2 st' := by
  obtain ⟨source, w⟩ := st
  have hs : AnswersAs source st'.1 := h.answersAs
  simp only [get_eq]
  have hread := read_reads transport key source w
  generalize source.read transport key w = r at hread ⊢
  cases hread with
  | failed | owned => exact Or.inr ⟨hs, h.reads⟩
  | unencodable => exact Or.inl (Or.inl rfl)
  | fetched t id hid =>
    exact Or.inl (fetchOne_wentPast t key id (source.request id key hid) w _ h.reads)
  | known => exact Or.inr ⟨⟨hs.cache_eq, hs.localLedger_eq, hs.no_failure, hs.no_failure',
      hs.unknown_subset⟩, h.reads⟩
  | unknown id =>
    exact Or.inr ⟨⟨hs.cache_eq, hs.localLedger_eq, hs.no_failure, hs.no_failure', fun id' hid' =>
      Std.ExtTreeSet.mem_insert.mpr (Or.inr (hs.unknown_subset id' hid'))⟩, h.reads⟩

/-- **A preview leaves a source that answers as before**, unless it has gone upstream. -/
theorem preview_passAs {n : Nat} (transport : Option (Transport σ))
    (stored : Option (List LedgerKey)) {st st' : PassState σ} (h : PassAs n st st') :
    WentPast n (serve transport (.preview stored) st).2 ∨
      PassAs n (serve transport (.preview stored) st).2 st' := by
  show WentPast n (forwardPreviewReads transport stored st).2 ∨
    PassAs n (forwardPreviewReads transport stored st).2 st'
  unfold forwardPreviewReads
  cases stored with
  | none => exact Or.inr ⟨h.answersAs, h.reads⟩
  | some keys =>
    have hget : ∀ key ∈ keys, isNonceKey key = false → ∀ s, WentPast n s ∨ PassAs n s st' →
        WentPast n (TrackingSource.get transport key s).2 ∨
          PassAs n (TrackingSource.get transport key s).2 st' := by
      rintro key _ _ s (hb | hr)
      · exact Or.inl ((get_moves transport key s).wentPast hb)
      · exact get_passAs_before transport key hr
    have hall := observeAll_invariant hget false (st.1, st.2.record (.preview (some keys)))
      (Or.inr ⟨h.answersAs, h.reads⟩)
    dsimp only
    split
    · exact hall
    · split <;> exact hall

/-! ## The methods -/

section Methods

variable {α : Type}

/-- The program asks for no preview. -/
abbrev Previewless (c : Client SourceOp SourceOp.Answer α) : Prop :=
  c.AllOps fun op => op.isPreview = false

omit [Crates] in
theorem Previewless.onSource {β : Type} (c : HostClient α)
    {next : α × HostState → Client SourceOp SourceOp.Answer β} (h : ∀ a, Previewless (next a)) :
    Previewless (onSource c next) :=
  Client.AllOps.andThen (.of_forall (fun _ => rfl) c) h

omit [Crates] in
theorem getLedgerEntry_previewless (fork : ScenarioFork) (key : LedgerKey)
    {next : Option PresentEntry → ScenarioFork → PassProgram α}
    (h : ∀ value fork, Previewless (next value fork)) :
    Previewless (fork.getLedgerEntry key next) := by
  unfold ScenarioFork.getLedgerEntry
  split
  · exact h _ _
  · refine ⟨rfl, fun answer => ?_⟩
    cases answer with
    | ok value => exact h _ _
    | error e => exact trivial

theorem localAccount_previewless (fork : ScenarioFork) (label : String) :
    Previewless (fork.localAccount label) := by
  unfold ScenarioFork.localAccount
  dsimp only
  split
  · exact trivial
  · refine getLedgerEntry_previewless _ _ fun existing fork => ?_
    split
    · exact trivial
    · exact ⟨rfl, fun _ => trivial⟩

omit [Crates] in
theorem fundLocalAccount_previewless (fork : ScenarioFork) (account : ScAddress)
    (amount : Int64) : Previewless (fork.fundLocalAccount account amount) := by
  unfold ScenarioFork.fundLocalAccount
  split
  · exact trivial
  · split
    · split
      · refine getLedgerEntry_previewless _ _ fun existing fork => ?_
        split <;> exact trivial
      · exact trivial
    · exact trivial

theorem deploy_previewless (host : MockHost) (fork : MockFork) (wasm : Bytes)
    (args : List ScVal) : Previewless (fork.deploy host wasm args) := by
  unfold MockFork.deploy
  dsimp only
  split
  · refine Previewless.onSource _ fun r => ?_
    split
    · exact ⟨rfl, fun _ => ⟨rfl, fun _ => Previewless.onSource _ fun _ => trivial⟩⟩
    · exact trivial
  · exact trivial

omit [Crates] in
theorem tryInvoke_previewless (host : MockHost) (fork : MockFork) (request : InvokeRequest) :
    Previewless (fork.tryInvoke host request) := by
  unfold MockFork.tryInvoke
  split
  · exact Previewless.onSource _ fun _ => trivial
  · exact trivial

theorem replaceWasm_previewless (host : CodeHost) (fork : MockFork) (contract : ScAddress)
    (wasm : Bytes) : Previewless (fork.replaceWasm host contract wasm) := by
  unfold MockFork.replaceWasm
  dsimp only
  split
  · refine Previewless.onSource _ fun r => ?_
    split
    · split
      · exact trivial
      · refine ⟨rfl, fun _ => Previewless.onSource _ fun r => ?_⟩
        split
        · split <;> exact trivial
        · exact trivial
    · exact trivial
  · exact trivial

/-- **Only `preview` asks for a preview.** -/
theorem forkProgram_previewless [SnapshotCrate] (host : CodeHost) (fork : MockFork) {op : ForkOp}
    (h : op.isPreview = false) : Previewless (forkProgram host fork op) := by
  have hanswering : ∀ {α : Type} {f : α → ForkAnswer}
      {c : Client SourceOp SourceOp.Answer (α × MockFork)}, Previewless c →
      Previewless (forkProgram.answering f c) :=
    fun hc => Client.AllOps.andThen hc fun _ => trivial
  have hlifted : ∀ {α : Type} (key : LedgerKey) {method : ScenarioFork → PassProgram α},
      (∀ scenario, Previewless (method scenario)) → Previewless (fork.lifted key method) :=
    fun _ _ hmethod => Client.AllOps.andThen (hmethod _) fun _ => trivial
  cases op with
  | replaceWasm contract wasm => exact hanswering (replaceWasm_previewless host fork contract wasm)
  | mock op =>
    cases op with
    | localAccount label =>
      exact hanswering (hlifted _ fun scenario => localAccount_previewless scenario label)
    | fundLocalAccount account amount =>
      exact hanswering (hlifted _ fun scenario =>
        fundLocalAccount_previewless scenario account amount)
    | deploy wasm args => exact hanswering (deploy_previewless host.toMockHost fork wasm args)
    | tryInvoke request =>
      exact hanswering (tryInvoke_previewless host.toMockHost fork request)
    | invoke request =>
      refine hanswering (Client.AllOps.andThen
        (tryInvoke_previewless host.toMockHost fork request) fun r => ?_)
      split <;> exact trivial
    | preview request auth => cases h

end Methods

/-! ## Runs -/

section Runs

variable [SnapshotCrate] {host : CodeHost} {transport : Option (Transport σ)}

/-- A fork on its source, twice: one fork, on sources that answer alike. -/
def ForkAs (n : Nat) (s s' : MockFork × PassState σ) : Prop := s.1 = s'.1 ∧ PassAs n s.2 s'.2

theorem forkStep_moves (op : ForkOp) (s : MockFork × PassState σ) :
    Moves s.2 (forkStep host transport op s).2.2 :=
  Client.run_invariant (fun op st h => h.trans (serve_moves transport op st))
    (forkProgram host s.1 op) s.2 (.refl s.2)

theorem forkRun_moves (host : CodeHost) (transport : Option (Transport σ)) (ops : List ForkOp)
    (s : MockFork × PassState σ) :
    Moves s.2 (Machine.run (forkStep host transport) ops s).2.2 := by
  have hstep : ∀ op ∈ ops, ∀ s' : MockFork × PassState σ, Moves s.2 s'.2 →
      Moves s.2 (forkStep host transport op s').2.2 :=
    fun op _ s' h => h.trans (forkStep_moves op s')
  exact Machine.run_invariant hstep s (.refl s.2)

/-- **Every other method does the same on sources that answer alike.** -/
theorem forkStep_forkAs {n : Nat} {op : ForkOp} {s s' : MockFork × PassState σ}
    (hop : op.isPreview = false) (h : ForkAs n s s') :
    WentPast n (forkStep host transport op s).2.2 ∨
      ((forkStep host transport op s).1 = (forkStep host transport op s').1 ∧
        ForkAs n (forkStep host transport op s).2 (forkStep host transport op s').2) := by
  obtain ⟨fork, st⟩ := s
  obtain ⟨fork', st'⟩ := s'
  obtain ⟨rfl, hst⟩ := h
  have hrun := Client.run_upToBad_of_allOps (serve transport) (serve transport) (WentPast n)
    (PassAs n) (fun op st hb => (serve_moves transport op st).wentPast hb)
    (fun op st st' hop hst => serve_passAs transport op st st' hop hst)
    (forkProgram host fork op) (forkProgram_previewless host fork hop) st st' hst
  rcases hrun with hb | ⟨hresult, hend⟩
  · exact Or.inl hb
  · exact Or.inr ⟨congrArg (fun r => r.1) hresult, congrArg (fun r => r.2) hresult, hend⟩

/-- **A preview leaves its fork, and a source that answers as before.** -/
theorem forkStep_preview {n : Nat} {op : ForkOp} {s s' : MockFork × PassState σ}
    (hop : op.isPreview = true) (h : ForkAs n s s') :
    WentPast n (forkStep host transport op s).2.2 ∨
      ForkAs n (forkStep host transport op s).2 s' := by
  obtain ⟨fork, st⟩ := s
  cases op with
  | replaceWasm => cases hop
  | mock op =>
    cases op with
    | preview request auth =>
      have hfork : (forkStep host transport (.mock (.preview request auth)) (fork, st)).2.1 = fork :=
        Client.run_allResults (P := fun r : ForkAnswer × MockFork => r.2 = fork)
          (serve transport) (forkProgram host fork (.mock (.preview request auth))) st
          ((Client.allResults_trivial _).andThen fun _ _ => rfl)
      have hasks : (fork.preview host.toMockHost request auth).AllOps
          fun op => op.isPreview = true := by
        unfold MockFork.preview
        split
        · split
          · exact trivial
          · split
            · refine ⟨rfl, fun answer => ?_⟩
              cases answer <;> exact trivial
            · exact trivial
        · exact trivial
      have hserve : ∀ (op : SourceOp) (st : PassState σ), op.isPreview = true →
          WentPast n st ∨ PassAs n st s'.2 →
          WentPast n (serve transport op st).2 ∨ PassAs n (serve transport op st).2 s'.2 := by
        rintro op st hop (hb | hr)
        · exact Or.inl ((serve_moves transport op st).wentPast hb)
        · cases op with
          | preview stored => exact preview_passAs transport stored hr
          | get _ | markAddress _ | markCode _ => cases hop
      have hpasses := Client.run_invariant_of_allOps hserve
        (forkProgram host fork (.mock (.preview request auth)))
        (Client.AllOps.andThen hasks fun _ => trivial) st (Or.inr h.2)
      exact hpasses.imp_right fun hr => ⟨hfork.trans h.1, hr⟩
    | localAccount _ | fundLocalAccount _ _ | deploy _ _ | invoke _ | tryInvoke _ => cases hop

/-- What the methods other than `preview` answer in a run. -/
def otherAnswers (host : CodeHost) (transport : Option (Transport σ)) (ops : List ForkOp)
    (s : MockFork × PassState σ) : List ForkAnswer :=
  (Machine.kept (forkStep host transport) (fun op _ => !op.isPreview) ops s).map Prod.snd

/--
**Previews may be left out of any run of client code.**

Where the run has not failed, and has read nothing upstream, every other method answers the same
without the previews, and the run ends with the same fork on a source that answers alike.
-/
theorem previews_leave_no_trace (host : CodeHost) (transport : Option (Transport σ))
    (ops : List ForkOp) (fork : MockFork) (st : PassState σ)
    (hfailure : (Machine.run (forkStep host transport) ops (fork, st)).2.2.1.failure = none)
    (hreads : ∀ t, transport = some t →
      (Machine.run (forkStep host transport) ops (fork, st)).2.2.1.rpcReads = st.1.rpcReads) :
    let run := Machine.run (forkStep host transport) ops (fork, st)
    let without := Machine.run (forkStep host transport) (ops.filter fun op => !op.isPreview)
      (fork, st)
    without.1 = otherAnswers host transport ops (fork, st) ∧
      without.2.1 = run.2.1 ∧ AnswersAs run.2.2.1 without.2.2.1 := by
  have hmoves : Moves st _ := forkRun_moves host transport ops (fork, st)
  have hstart : st.1.failure = none := by
    by_contra hne
    have hfailed := hmoves.failure_stays (Option.isSome_iff_ne_none.mpr hne)
    rw [hfailure] at hfailed
    cases hfailed
  have hquiet : (Machine.run (forkStep host transport) ops (fork, st)).2.2.1.rpcReads
      = st.1.rpcReads := by
    cases transport with
    | some t => exact hreads t rfl
    | none =>
      have hcounted : ∀ op ∈ ops, ∀ s : MockFork × PassState σ, Counted st.1.rpcReads s.2 →
          Counted st.1.rpcReads (forkStep host none op s).2.2 :=
        fun op _ s hs => Client.run_invariant serve_none_counted (forkProgram host s.1 op) s.2 hs
      exact Machine.run_invariant hcounted (fork, st) rfl
  have hbad : ∀ op (s : MockFork × PassState σ), WentPast st.1.rpcReads s.2 →
      WentPast st.1.rpcReads (forkStep host transport op s).2.2 :=
    fun op s hb => (forkStep_moves op s).wentPast hb
  have hrun := @Machine.run_kept_upToBad _ _ _ (forkStep host transport)
    (fun op _ => !op.isPreview) (ForkAs st.1.rpcReads) (fun s => WentPast st.1.rpcReads s.2) hbad
    (fun op s s' h hkeep => forkStep_forkAs (by simpa using hkeep) h)
    (fun op s s' h hkeep => forkStep_preview (by simpa using hkeep) h) ops (fork, st) (fork, st)
    ⟨rfl, ⟨rfl, rfl, hstart, hstart, fun _ hid => hid⟩, Nat.le_refl _⟩
  rw [Machine.map_fst_kept] at hrun
  rcases hrun with hb | ⟨hanswers, hfork, hpass⟩
  · rcases hb with hb | hb
    · rw [hfailure] at hb
      cases hb
    · exact absurd hquiet (Nat.ne_of_gt hb)
  · exact ⟨hanswers, hfork.symm, hpass.answersAs⟩

end Runs

end Kanatoko

namespace Kanatoko.Testnet

open Adaptive

/-- The paying Host, with its upload. -/
def codeHost : CodeHost where
  toMockHost := payingHost
  upload _ wasm := uploadCode wasm

/-- A payment between two previews of the same payment. -/
def previewedPayment : List ForkOp :=
  [.mock (.localAccount "alice"), .mock (.fundLocalAccount (.account alice) 10000000),
    .mock (.preview paymentRequest .record), .mock (.tryInvoke paymentRequest),
    .mock (.preview paymentRequest .record)]

/-- The start of the pass. -/
def paymentStart : MockFork × PassState Unit :=
  (.new (forkEnvOf (.ledger nativeInfo paymentSnapshot)) nativeInfo.protocolVersion,
    (.new paymentPass.coverage nativeInfo.protocolVersion, nativeWorld))

theorem previewedPayment_without_previews :
    (Machine.run (forkStep codeHost none) (previewedPayment.filter fun op => !op.isPreview)
        paymentStart).1
      = otherAnswers codeHost none previewedPayment paymentStart :=
  (previews_leave_no_trace codeHost none previewedPayment _ _ (by decide +kernel)
    fun t ht => nomatch ht).1

end Kanatoko.Testnet
