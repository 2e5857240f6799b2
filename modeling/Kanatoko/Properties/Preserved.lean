import Kanatoko.Properties.CacheOrigin
import Kanatoko.Properties.Latch

/-!
# What runs preserve

A property of the world that every call of a transport preserves, and every record in the log,
is preserved by whole captures and replays over the transport, and by whole runs, however they
end.
-/

namespace Kanatoko

open Fallible Adaptive

/-- Every call of the transport, if there is one, preserves the property, and so does the rest of
the log. -/
structure Preserved {σ : Type} (transport : Option (Transport σ)) (I : World σ → Prop) : Prop where
  record : ∀ w e, e.isTransport = false → I w → I (w.record e)
  network : ∀ t ∈ transport, ∀ w, I w → I (w.network t).2
  latestLedger : ∀ t ∈ transport, ∀ w, I w → I (w.latestLedger t).2
  ledgerEntries : ∀ t ∈ transport, ∀ w keys, I w → I (w.ledgerEntries t keys).2

/-- The step ends in the property whenever it begins there. -/
abbrev Preserves {σ α : Type} (I : World σ → Prop) (x : CaptureM σ α) : Prop :=
  Triple I x (fun _ => I) (fun _ => I)

namespace Preserved

variable {σ : Type} {transport : Option (Transport σ)} {I : World σ → Prop}

theorem offline (h : Preserved transport I) : Preserved none I where
  record := h.record
  network := fun _ ht => by cases ht
  latestLedger := fun _ ht => by cases ht
  ledgerEntries := fun _ ht => by cases ht

theorem call {α : Type} {step : World σ → Except TransportFailure α × World σ}
    (h : ∀ w, I w → I (step w).2) : Preserves I (call step) :=
  triple_call (fun _ w hw _ => h w hw) fun _ w hw _ => h w hw

variable [Crates]

/-! ## Passes -/

theorem fetchOne (h : Preserved transport I) {t : Transport σ} (ht : t ∈ transport)
    (key : LedgerKey) (id : KeyId) (source : TrackingSource) {w : World σ} (hw : I w) :
    I (fetchOne t key id source w).2.2 := by
  have hread := h.ledgerEntries t ht w [key] hw
  unfold Kanatoko.fetchOne
  dsimp only
  split
  · next heq => rwa [heq] at hread
  · next heq =>
    rw [heq] at hread
    split <;> exact hread

theorem get (h : Preserved transport I) (key : LedgerKey) {st : PassState σ} (hst : I st.2) :
    I (TrackingSource.get transport key st).2.2 := by
  have hread : I (st.1.read transport key st.2).2.2 := by
    unfold TrackingSource.read
    split
    · exact hst
    · split
      · exact hst
      · split
        · exact hst
        · dsimp only
          split
          · exact hst
          · split
            · exact hst
            · exact h.fetchOne rfl key _ _ hst
  exact h.record _ _ rfl hread

theorem observeAll (h : Preserved transport I) : ∀ (keys : List LedgerKey) (failed : Bool)
    (st : PassState σ), I st.2 → I (observeAll transport keys failed st).2.2
  | [], _, _, hst => hst
  | key :: rest, failed, st, hst => by
    have hget := h.get key hst
    rw [Kanatoko.observeAll]
    split
    · exact h.observeAll rest failed st hst
    · split
      · next heq =>
        rw [heq] at hget
        exact h.observeAll rest true _ hget
      · next heq =>
        rw [heq] at hget
        exact h.observeAll rest failed _ hget

theorem serve (h : Preserved transport I) (op : SourceOp) (st : PassState σ) (hst : I st.2) :
    I (serve transport op st).2.2 := by
  cases op with
  | get key => exact h.get key hst
  | markAddress _ | markCode _ => exact hst
  | preview stored =>
    have hmark : I (st.2.record (.preview stored)) := h.record _ _ rfl hst
    show I (forwardPreviewReads transport stored st).2.2
    unfold forwardPreviewReads
    cases stored with
    | none => exact hmark
    | some keys =>
      have hall := h.observeAll keys false (st.1, _) hmark
      dsimp only
      split
      · exact hall
      · split <;> exact hall

theorem passOver {R : Type} (h : Preserved transport I) (scenario : Scenario R) (m : Materialized) :
    Preserves I (passOver transport scenario m) := by
  refine .bind (.lift (fun _ _ _ hw => hw) fun _ _ _ hw => hw) fun env => ⟨?_, ?_⟩
  · intro w result w' hw hrun
    cases hrun
    exact Client.run_invariant h.serve _ _ (h.record w .pass rfl hw)
  · intro w e w' hw hrun
    cases hrun

/-! ## Captures -/

section Capture

variable {b : CaptureBuilder σ} (h : Preserved (some b.transport) I)

include h

theorem fetchChunks (configId : KeyId) (sequence : UInt32) :
    ∀ (chunks : List (List (KeyId × LedgerKey))) (fetched : Fetched),
      Preserves I (b.fetchChunks configId sequence chunks fetched)
  | [], _ => .pure fun _ hw => hw
  | chunk :: rest, fetched => by
    rw [CaptureBuilder.fetchChunks]
    refine .bind (call fun w => h.ledgerEntries _ rfl w _) fun batch => ?_
    split
    · exact .pure fun _ hw => hw
    · exact .bind (triple_pure_step _) fun _ => .bind (triple_pure_step _) fun fetched' =>
        fetchChunks configId sequence rest fetched'

theorem materializeAttempts (configId : KeyId) (requested : List (KeyId × LedgerKey)) :
    ∀ attempts, Preserves I (b.materializeAttempts configId requested attempts)
  | 0 => triple_stop fun _ hw => hw
  | attempts + 1 => by
    have hretry := materializeAttempts configId requested attempts
    rw [CaptureBuilder.materializeAttempts]
    refine .bind (call (h.latestLedger _ rfl)) fun before => .bind (triple_pure_step _) fun _ =>
      .bind (h.fetchChunks _ _ _ _) fun fetched => .bind (call (h.latestLedger _ rfl)) fun after => ?_
    split
    · exact hretry
    · split
      · exact hretry
      · exact triple_pure_step _

theorem materialize (keys : KeyMap) : Preserves I (b.materialize keys) :=
  .bind (triple_pure_step _) fun _ => h.materializeAttempts _ _ _

theorem expandRounds : ∀ (rounds : Nat) (keys : KeyMap) (m : Materialized),
    Preserves I (b.expandRounds rounds keys m)
  | rounds, keys, m => by
    rw [CaptureBuilder.expandRounds]
    refine .bind (triple_pure_step _) fun required => .bind (triple_pure_step _) fun inserted => ?_
    obtain ⟨keys₁, added⟩ := inserted
    dsimp only
    split
    · exact .bind (triple_pure_step _) fun _ => .pure fun _ hw => hw
    · cases rounds with
      | zero => exact triple_stop fun _ hw => hw
      | succ rounds => exact .bind (h.materialize _) fun m => expandRounds rounds _ m

theorem materializeClosed (keys : KeyMap) : Preserves I (b.materializeClosed keys) :=
  .bind (h.materialize keys) fun m => h.expandRounds _ keys m

omit [Crates] in
theorem validateNetwork : Preserves I b.validateNetwork :=
  .bind (call (h.network _ rfl)) fun _ => .bind (triple_pure_step _) fun _ => triple_pure_step _

theorem captureRounds (scenario : Scenario Unit) : ∀ (rounds round : Nat) (keys : KeyMap)
    (m : Materialized), Preserves I (b.captureRounds scenario rounds round keys m)
  | 0, _, _, _ => triple_stop fun _ hw => hw
  | rounds + 1, round, keys, m => by
    rw [CaptureBuilder.captureRounds]
    refine .bind (h.passOver scenario m) fun pass => .bind (triple_pure_step _) fun _ =>
      .bind (triple_pure_step _) fun stored => .bind (triple_pure_step _) fun collected => ?_
    dsimp only
    split
    · exact .bind (h.materializeClosed collected.1) fun closed =>
        captureRounds scenario rounds (round + 1) closed.1 closed.2
    · exact triple_pure_step _

/-- **What the transport preserves, a capture preserves.** -/
theorem captureRefFromKeys (scenario : Scenario Unit) (keys : KeyMap) :
    Preserves I (b.captureRefFromKeys scenario keys) :=
  .bind h.validateNetwork fun _ => .bind (h.materializeClosed keys) fun closed =>
    h.captureRounds scenario _ _ closed.1 closed.2

theorem captureWithInventory (f : CapturedFixture) (scenario : Scenario Unit) :
    Preserves I (b.captureWithInventory f scenario) :=
  .bind (triple_pure_step _) fun keys => h.captureRefFromKeys scenario keys

omit [Crates] in
theorem cachedAnchorIsCurrent (f : CapturedFixture) : Preserves I (b.cachedAnchorIsCurrent f) :=
  .bind h.validateNetwork fun _ => .bind (.bind (call (h.latestLedger _ rfl)) fun _ =>
    .bind (triple_pure_step _) fun _ => .pure fun _ hw => hw) fun _ => .pure fun _ hw => hw

end Capture

theorem replayWithLocal {R : Type} (h : Preserved transport I) (f : CapturedFixture)
    (scenario : Scenario R) : Preserves I (f.replayWithLocal scenario) :=
  .bind (h.offline.passOver scenario f.materialized) fun _ => triple_pure_step _

end Preserved

/-! ## Runs -/

/-- The step of a run ends in the property whenever it begins there. -/
abbrev RunPreserves {σ α : Type} (I : World σ → Prop) (x : AutoM σ α) : Prop :=
  Triple (fun s => I s.world) x (fun _ s => I s.world) (fun _ s => I s.world)

section Runs

variable {σ α : Type} {I : World σ → Prop}

theorem runPreserves_inWorld {x : CaptureM σ α} (h : Preserves I x) :
    RunPreserves I (inWorld x) where
  ok := by
    intro s a s' hs hrun
    obtain ⟨w, hx, rfl⟩ := inWorld_eq_ok.mp hrun
    exact h.ok hs hx
  error := by
    intro s e s' hs hrun
    obtain ⟨_, w, hx, _, rfl⟩ := focus_eq_error.mp hrun
    exact h.error hs hx

theorem runPreserves_of_keeps {x : AutoM σ α} (h : Keeps RunState.world x) : RunPreserves I x where
  ok := fun s _ s' hs hrun => by rwa [h.ok hrun]
  error := fun s _ s' hs hrun => by rwa [h.error hrun]

theorem preserves_attempted {x : CaptureM σ α} (h : Preserves I x) : Preserves I (attempted x) where
  ok := by
    intro w a w' hw hrun
    unfold attempted at hrun
    split at hrun
    · next hx => cases hrun; exact h.ok hw hx
    · next hx => cases hrun; exact h.error hw hx
    · cases hrun
  error := by
    intro w e w' hw hrun
    unfold attempted at hrun
    split at hrun
    · cases hrun
    · cases hrun
    · next hx => cases hrun; exact h.error hw hx

variable [Crates] [BundleCrates]

theorem publish_world (r : AutoRunner) (f : CapturedFixture) (existed : Bool) :
    Keeps RunState.world (r.publish f existed : AutoM σ AutoRun) := by
  unfold AutoRunner.publish
  split
  · exact .pure _
  · exact (createCacheDirectory_world _).bind fun _ => (inFiles_world _).bind fun _ => .pure _

namespace Preserved

variable {b : CaptureBuilder σ}

theorem useCache (h : Preserved (some b.transport) I) (r : AutoRunner) (scenario : Scenario Unit)
    (path : Disk.Path) : RunPreserves I (r.useCache b scenario path) := by
  have hwarm (cached : CapturedFixture) :
      RunPreserves I (AutoRunner.captureWarm b cached scenario) :=
    .bind (runPreserves_inWorld (h.captureWithInventory cached scenario)) fun _ =>
      .pure fun _ hs => hs
  unfold AutoRunner.useCache
  refine .bind (runPreserves_of_keeps (inFiles_world _)) fun cached =>
    .bind (runPreserves_inWorld (h.cachedAnchorIsCurrent cached)) fun current => ?_
  split
  · refine .bind (runPreserves_inWorld (preserves_attempted (h.replayWithLocal cached scenario)))
      fun replayed => ?_
    split
    · exact .pure fun _ hs => hs
    · exact hwarm cached
    · exact .throw fun _ hs => hs
  · exact hwarm cached

theorem obtain (h : Preserved (some b.transport) I) (r : AutoRunner) (scenario : Scenario Unit) :
    RunPreserves I (r.obtain b scenario) := by
  have hcold : RunPreserves I (AutoRunner.captureCold b scenario) :=
    .bind (runPreserves_inWorld (h.captureRefFromKeys scenario .empty)) fun _ =>
      .pure fun _ hs => hs
  unfold AutoRunner.obtain
  split
  · exact hcold
  · refine .bind (runPreserves_of_keeps (pathExists_world _)) fun found => ?_
    split
    · exact h.useCache r scenario _
    · exact hcold

theorem prepare (h : Preserved (some b.transport) I) (r : AutoRunner) (scenario : Scenario Unit) :
    RunPreserves I (r.prepare b scenario) := by
  refine .bind (runPreserves_of_keeps (cacheExisted_keeps r pathExists_world)) fun _ =>
    .bind (h.obtain r scenario) fun obtained => ?_
  split
  · exact .pure fun _ hs => hs
  · exact .bind (runPreserves_inWorld (h.replayWithLocal _ scenario)) fun _ => .pure fun _ hs => hs

theorem runOnline (h : Preserved (some b.transport) I) (r : AutoRunner) (scenario : Scenario Unit) :
    RunPreserves I (r.runOnline b scenario) := by
  refine .bind (h.prepare r scenario) fun prepared => ?_
  split
  split
  · exact .pure fun _ hs => hs
  · exact runPreserves_of_keeps (publish_world r _ _)

theorem runOffline (h : Preserved none I) (r : AutoRunner) (scenario : Scenario Unit) :
    RunPreserves I (r.runOffline scenario) := by
  unfold AutoRunner.runOffline
  split
  · exact .throw fun _ hs => hs
  · refine .bind (runPreserves_of_keeps (pathExists_world _)) fun found => ?_
    split
    · exact .bind (runPreserves_of_keeps (inFiles_world _)) fun cached =>
        .bind (runPreserves_inWorld (h.replayWithLocal cached scenario)) fun _ =>
          .pure fun _ hs => hs
    · exact .throw fun _ hs => hs

variable [WireCrates]

/-- **What every call to the server preserves, a run preserves**, however it ends. -/
theorem run {r : AutoRunner} {connect : String → RpcServer σ}
    (h : Preserved (some (httpTransport (connect r.rpcUrl))) I) (scenario : Scenario Unit) :
    RunPreserves I (r.run connect scenario) := by
  unfold AutoRunner.run
  split
  · exact h.offline.runOffline r scenario
  · have hbuilder : RunPreserves I (inWorld (liftCapture (r.captureBuilder connect))) :=
      runPreserves_inWorld (triple_pure_step _)
    have honline {b : CaptureBuilder σ} {s s₁ : RunState σ}
        (hb : inWorld (liftCapture (r.captureBuilder connect)) s = .ok b s₁) :
        RunPreserves I (r.runOnline b scenario) := by
      obtain ⟨_, hlift, _⟩ := inWorld_eq_ok.mp hb
      obtain ⟨_, _, htransport⟩ := captureBuilder_eq_ok (liftCapture_eq_ok.mp hlift).1
      exact (htransport ▸ h).runOnline r scenario
    constructor
    · intro s a s' hs hrun
      obtain ⟨b, s₁, hb, h₁⟩ := run_bind_eq_ok.mp hrun
      exact (honline hb).ok (hbuilder.ok hs hb) h₁
    · intro s e s' hs hrun
      rcases run_bind_eq_error.mp hrun with hb | ⟨b, s₁, hb, h₁⟩
      · exact hbuilder.error hs hb
      · exact (honline hb).error (hbuilder.ok hs hb) h₁

end Preserved

end Runs

end Kanatoko
