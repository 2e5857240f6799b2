import Kanatoko.Lib.Machine
import Kanatoko.Properties.Publish

/-!
# Cache files over many runs

Runs share nothing but the disk. A strict replay does not look at the world, so what one run has
replayed every later run replays.
-/

namespace Kanatoko

open Fallible Adaptive

variable [Crates]

/-! ## A strict replay anywhere -/

section Anywhere

variable {σ τ : Type}

theorem read_none_anywhere (source : TrackingSource) (key : LedgerKey) (w : World σ) (v : World τ) :
    (source.read none key w).1 = (source.read none key v).1 ∧
      (source.read none key w).2.1 = (source.read none key v).2.1 := by
  unfold TrackingSource.read
  split
  · exact ⟨rfl, rfl⟩
  · split
    · exact ⟨rfl, rfl⟩
    · split
      · exact ⟨rfl, rfl⟩
      · dsimp only
        split <;> exact ⟨rfl, rfl⟩

theorem get_none_anywhere (key : LedgerKey) {st : PassState σ} {st' : PassState τ}
    (h : st.1 = st'.1) :
    (TrackingSource.get none key st).1 = (TrackingSource.get none key st').1 ∧
      (TrackingSource.get none key st).2.1 = (TrackingSource.get none key st').2.1 := by
  obtain ⟨source, w⟩ := st
  obtain ⟨source', v⟩ := st'
  cases h
  exact read_none_anywhere source key w v

theorem observeAll_none_anywhere : ∀ (keys : List LedgerKey) (failed : Bool) {st : PassState σ}
    {st' : PassState τ}, st.1 = st'.1 →
    (observeAll none keys failed st).1 = (observeAll none keys failed st').1 ∧
      (observeAll none keys failed st).2.1 = (observeAll none keys failed st').2.1
  | [], _, _, _, h => ⟨rfl, h⟩
  | key :: rest, failed, st, st', h => by
    rw [observeAll, observeAll]
    split
    · exact observeAll_none_anywhere rest failed h
    · have hget := get_none_anywhere key h
      generalize TrackingSource.get none key st = r at hget ⊢
      generalize TrackingSource.get none key st' = r' at hget ⊢
      obtain ⟨answer, st₁⟩ := r
      obtain ⟨answer', st₁'⟩ := r'
      obtain ⟨hanswer, hst⟩ := hget
      cases hanswer
      cases answer <;> exact observeAll_none_anywhere rest _ hst

theorem serve_none_anywhere (op : SourceOp) (st : PassState σ) (st' : PassState τ)
    (h : st.1 = st'.1) :
    (serve none op st).1 = (serve none op st').1 ∧
      (serve none op st).2.1 = (serve none op st').2.1 := by
  obtain ⟨source, w⟩ := st
  obtain ⟨source', v⟩ := st'
  cases h
  cases op with
  | get key => exact get_none_anywhere key rfl
  | markAddress address | markCode hash => exact ⟨rfl, rfl⟩
  | preview stored =>
    show (forwardPreviewReads none stored (source, w)).1
        = (forwardPreviewReads none stored (source, v)).1 ∧
      (forwardPreviewReads none stored (source, w)).2.1
        = (forwardPreviewReads none stored (source, v)).2.1
    unfold forwardPreviewReads
    cases stored with
    | none => exact ⟨rfl, rfl⟩
    | some keys =>
      have hall : (observeAll none keys false (source, w.record (.preview (some keys)))).1
            = (observeAll none keys false (source, v.record (.preview (some keys)))).1 ∧ _ :=
        observeAll_none_anywhere keys false rfl
      dsimp only
      rw [hall.1, hall.2]
      split
      · exact ⟨rfl, hall.2⟩
      · split <;> exact ⟨rfl, hall.2⟩

/-- **A strict replay that succeeds in one world succeeds in every other.** -/
theorem replayWithLocal_anywhere {R : Type} {f : CapturedFixture} {scenario : Scenario R}
    {result : R} {w w' : World σ} (h : f.replayWithLocal scenario w = .ok result w')
    (v : World τ) : ∃ v', f.replayWithLocal scenario v = .ok result v' := by
  obtain ⟨⟨passEnd, source⟩, w₁, hpass, hconclude⟩ := run_bind_eq_ok.mp h
  obtain ⟨hresult, rfl⟩ := liftCapture_eq_ok.mp hconclude
  obtain ⟨env, henv, hrun⟩ := passOver_eq_ok.mp hpass
  have hsame := Client.run_upToBad (serve (none : Option (Transport σ)))
    (serve (none : Option (Transport τ))) (fun _ => False) (fun st st' => st.1 = st'.1)
    (fun _ _ hb => hb) (fun op st st' hst => Or.inr (serve_none_anywhere op st st' hst))
    (scenario env f.materialized.ledgerInfo.protocolVersion)
    (.new f.materialized.coverage f.materialized.ledgerInfo.protocolVersion, w.record .pass)
    (.new f.materialized.coverage f.materialized.ledgerInfo.protocolVersion, v.record .pass) rfl
  obtain ⟨hend, hsource⟩ := hsame.resolve_left id
  have hrun' : runPass (none : Option (Transport τ)) scenario env
      (.new f.materialized.coverage f.materialized.ledgerInfo.protocolVersion) v
        = (passEnd, source, (runPass (none : Option (Transport τ)) scenario env
          (.new f.materialized.coverage f.materialized.ledgerInfo.protocolVersion) v).2.2) := by
    refine Prod.ext (hend.symm.trans ?_) (Prod.ext (hsource.symm.trans ?_) rfl)
    · exact congrArg Prod.fst hrun
    · exact congrArg (fun r => r.2.1) hrun
  exact ⟨_, run_bind_eq_ok.mpr ⟨_, _, passOver_eq_ok.mpr ⟨env, henv, hrun'⟩,
    liftCapture_eq_ok.mpr ⟨hresult, rfl⟩⟩⟩

end Anywhere

variable [BundleCrates] {σ τ : Type}

/-! ## What an online run leaves -/

/-- The builder accepts what the runner accepts, and its ledgers have names. -/
structure AutoRunner.Builds (r : AutoRunner) (b : CaptureBuilder σ) : Prop where
  passphrase_eq : b.networkPassphrase = r.networkPassphrase
  policy_eq : b.protocolPolicy = r.protocolPolicy
  named : ∀ s anchor, (b.transport.latestLedger s).1 = .ok anchor → anchor.hash ≠ ""

omit [BundleCrates] in
theorem captureBuilder_builds [WireCrates] {r : AutoRunner} {connect : String → RpcServer σ}
    {b : CaptureBuilder σ} (h : r.captureBuilder connect = .ok b) : r.Builds b := by
  obtain ⟨hpassphrase, hpolicy, htransport⟩ := captureBuilder_eq_ok h
  refine ⟨hpassphrase, hpolicy, fun s anchor hanswer => ?_⟩
  rw [htransport] at hanswer
  exact httpTransport_hash_ne hanswer

/-- What is written for a captured fixture decodes to it. -/
theorem CapturedNow.decodes [LawfulCrates] [LawfulBundleCrates] {r : AutoRunner}
    {b : CaptureBuilder σ} (hb : r.Builds b) {f : CapturedFixture} {scenario : Scenario Unit}
    {w w' : World σ} (h : CapturedNow b f scenario w w') {bytes : Bytes}
    (hbytes : f.toBytes = .ok bytes) :
    CapturedFixture.fromBundleBytes bytes r.networkPassphrase r.protocolPolicy = .ok f := by
  obtain ⟨hnetwork, s, anchor, hanswer, hhash⟩ := h.named
  obtain ⟨keys, w₁, _, hcapture⟩ := h
  have hsound : Sound r.protocolPolicy f := hb.policy_eq ▸ captured_sound hcapture
  rw [← hb.passphrase_eq, ← hnetwork]
  exact hsound.fromBundleBytes_toBytes (by rw [hhash]; exact hb.named s anchor hanswer) hbytes

/-- The scenario replays strictly against the fixture, in whatever world. -/
def Replays (f : CapturedFixture) (scenario : Scenario Unit) : Prop :=
  ∀ {τ : Type} (v : World τ), ∃ v', f.replayWithLocal scenario v = .ok () v'

/-- An online run that ends well has replayed its fixture, and the cache holds it. -/
theorem runOnline_leaves [LawfulCrates] [LawfulBundleCrates] {r : AutoRunner}
    {b : CaptureBuilder σ} (hb : r.Builds b) {scenario : Scenario Unit} {s s' : RunState σ}
    {run : AutoRun} (h : r.runOnline b scenario s = .ok run s') :
    Replays run.fixture scenario ∧ CacheHolds r run.fixture s'.contents := by
  obtain ⟨⟨existed, o⟩, s₁, hprepare, h₁⟩ := run_bind_eq_ok.mp h
  have hexplained := prepare_explained hprepare
  cases o with
  | cached f =>
    obtain ⟨rfl, rfl⟩ := run_pure_eq_ok.mp h₁
    obtain ⟨_, hholds, hrevalidated⟩ := hexplained
    obtain ⟨w, _, hreplay⟩ := hrevalidated.replayed
    refine ⟨replayWithLocal_anywhere hreplay, ?_⟩
    rw [(prepare_keeps r b scenario).ok hprepare]
    exact hholds
  | captured f =>
    obtain ⟨rfl, _, _, hwritten⟩ := publish_eq_ok h₁
    obtain ⟨w, hcaptured, hreplay⟩ := hexplained
    refine ⟨replayWithLocal_anywhere hreplay, fun path hpath => ?_⟩
    obtain ⟨bytes, hbytes, hput⟩ := hwritten path hpath
    exact ⟨bytes, by rw [hput, Disk.put_self], hcaptured.decodes hb hbytes⟩

/-! ## Runs that find the cache -/

/-- No request of the disk fails. -/
def HealthyDisk (d : Disk) : Prop := ∀ n, d.verdicts n = .done

omit [Crates] [BundleCrates] in
theorem HealthyDisk.after {d : Disk} (h : HealthyDisk d) (contents : Disk.Contents) :
    HealthyDisk (d.after contents) := fun n => h (n + 1)

/-- The state of a run that finds its cache: the file is there, and the disk works. -/
structure Cached (r : AutoRunner) (f : CapturedFixture) (s : RunState τ) : Prop where
  holds : CacheHolds r f s.contents
  healthy : HealthyDisk s.files.disk

/-- The disk has answered and has changed no file. -/
def RunState.asked (s : RunState τ) : RunState τ :=
  s.withFiles (s.files.withDisk (s.files.disk.after s.files.disk.contents))

theorem Cached.asked {r : AutoRunner} {f : CapturedFixture} {s : RunState τ} (h : Cached r f s) :
    Cached r f s.asked :=
  ⟨h.holds, h.healthy.after _⟩

theorem Cached.withWorld {r : AutoRunner} {f : CapturedFixture} {s : RunState τ}
    (h : Cached r f s) (w : World τ) : Cached r f (s.withWorld w) :=
  ⟨h.holds, h.healthy⟩

section Hits

variable {r : AutoRunner} {f : CapturedFixture} {s : RunState τ} {path : Disk.Path}

theorem Cached.pathExists (h : Cached r f s) (hpath : r.cache = some path) :
    pathExists path s = .ok true s.asked := by
  obtain ⟨bytes, hbytes, _⟩ := h.holds path hpath
  refine focus_eq_ok.mpr ⟨s.files.disk.after s.files.disk.contents, ?_, rfl⟩
  have hcontents : s.files.disk.contents path = some bytes := hbytes
  unfold Disk.pathExists
  rw [Disk.verdict, h.healthy 0, hcontents]
  rfl

theorem Cached.fromFile (h : Cached r f s) (hpath : r.cache = some path) :
    inFiles (CapturedFixture.fromFileWithPolicy path r.networkPassphrase r.protocolPolicy) s
      = .ok f s.asked := by
  obtain ⟨bytes, hbytes, hdecoded⟩ := h.holds path hpath
  have hcontents : s.files.disk.contents path = some bytes := hbytes
  refine inFiles_eq_ok.mpr ⟨s.files.withDisk (s.files.disk.after s.files.disk.contents), ?_, rfl⟩
  refine run_bind_eq_ok.mpr ⟨bytes, _, focus_eq_ok.mpr
    ⟨s.files.disk.after s.files.disk.contents, ?_, rfl⟩, run_lift_eq_ok.mpr ⟨hdecoded, rfl⟩⟩
  unfold Disk.read
  rw [Disk.verdict, h.healthy 0, hcontents]

omit [Crates] [BundleCrates] in
/-- A run whose cache may be used has one. -/
theorem cache_filter (hpath : r.cache = some path) (hrefresh : r.refresh = false) :
    (r.cache.filter fun _ => !r.refresh) = some path := by
  rw [hpath, hrefresh]
  rfl

/-- What a hit has done: replayed the fixture, and read neither entries nor written files. -/
structure Hits (r : AutoRunner) (f : CapturedFixture) (s s' : RunState τ) : Prop where
  cached : Cached r f s'
  contents_eq : s'.contents = s.contents
  log : ∃ trace, s'.world.log = s.world.log ++ trace ∧ ∀ e ∈ trace, e.isEntryRead = false

omit [Crates] [BundleCrates] in
theorem isEntryRead_of_silent {e : Event} (h : e.isTransport = false) : e.isEntryRead = false := by
  cases e <;> first | rfl | cases h

/-- **An offline run hits a cache that replays.** -/
theorem runOffline_hits {scenario : Scenario Unit} (hreplays : Replays f scenario)
    (h : Cached r f s) (hpath : r.cache = some path) (hrefresh : r.refresh = false) :
    ∃ s', r.runOffline scenario s = .ok ⟨f, .hit⟩ s' ∧ Hits r f s s' := by
  obtain ⟨w, hreplay⟩ := hreplays s.world
  obtain ⟨trace, hlog, hsilent⟩ := replayWithLocal_log hreplay
  refine ⟨s.asked.asked.withWorld w, ?_, h.asked.asked.withWorld w, rfl, .pass :: trace, hlog, ?_⟩
  · rw [AutoRunner.runOffline, cache_filter hpath hrefresh]
    refine run_bind_eq_ok.mpr ⟨true, s.asked, h.pathExists hpath, ?_⟩
    rw [if_pos rfl]
    refine run_bind_eq_ok.mpr ⟨f, s.asked.asked, h.asked.fromFile hpath, ?_⟩
    exact run_bind_eq_ok.mpr ⟨(), _, inWorld_eq_ok.mpr ⟨w, hreplay, rfl⟩, rfl⟩
  · intro e he
    rcases List.mem_cons.mp he with rfl | he
    · rfl
    · exact isEntryRead_of_silent (hsilent e he)

omit [Crates] [BundleCrates] in
theorem attempted_of_ok {α : Type} {x : CaptureM τ α} {a : α} {w w' : World τ}
    (h : x w = .ok a w') : attempted x w = .ok (.ok a) w' := by
  unfold attempted
  rw [h]

/-- **An online run hits a cache that replays**, when its anchor is current. -/
theorem runOnline_hits {b : CaptureBuilder τ} {scenario : Scenario Unit}
    (hreplays : Replays f scenario) (h : Cached r f s) (hpath : r.cache = some path)
    (hrefresh : r.refresh = false)
    (hcurrent : ∃ w, b.cachedAnchorIsCurrent f s.world = .ok true w) :
    ∃ s', r.runOnline b scenario s = .ok ⟨f, .hit⟩ s' ∧ Hits r f s s' := by
  obtain ⟨w, hcurrent⟩ := hcurrent
  obtain ⟨w', hreplay⟩ := hreplays w
  obtain ⟨network, anchor, hlog, _⟩ := cachedAnchorIsCurrent_eq_ok hcurrent
  obtain ⟨trace, hlog', hsilent⟩ := replayWithLocal_log hreplay
  refine ⟨s.asked.asked.asked.withWorld w', ?_, h.asked.asked.asked.withWorld w', rfl,
    [.network (.ok network), .latestLedger (.ok anchor)] ++ .pass :: trace, ?_, ?_⟩
  · have hexisted : r.cacheExisted s = .ok true s.asked := by
      rw [AutoRunner.cacheExisted, hpath]
      exact h.pathExists hpath
    have huse : r.useCache b scenario path s.asked.asked
        = .ok (.cached f) (s.asked.asked.asked.withWorld w') := by
      refine run_bind_eq_ok.mpr ⟨f, s.asked.asked.asked, h.asked.asked.fromFile hpath, ?_⟩
      refine run_bind_eq_ok.mpr ⟨true, s.asked.asked.asked.withWorld w,
        inWorld_eq_ok.mpr ⟨w, hcurrent, rfl⟩, ?_⟩
      rw [if_pos rfl]
      exact run_bind_eq_ok.mpr ⟨.ok (), _,
        inWorld_eq_ok.mpr ⟨w', attempted_of_ok hreplay, rfl⟩, rfl⟩
    have hobtain : r.obtain b scenario s.asked
        = .ok (.cached f) (s.asked.asked.asked.withWorld w') := by
      rw [AutoRunner.obtain, cache_filter hpath hrefresh]
      refine run_bind_eq_ok.mpr ⟨true, s.asked.asked, h.asked.pathExists hpath, ?_⟩
      rw [if_pos rfl]
      exact huse
    have hprepare : r.prepare b scenario s
        = .ok (true, .cached f) (s.asked.asked.asked.withWorld w') :=
      run_bind_eq_ok.mpr ⟨true, s.asked, hexisted, run_bind_eq_ok.mpr ⟨_, _, hobtain, rfl⟩⟩
    exact run_bind_eq_ok.mpr ⟨_, _, hprepare, rfl⟩
  · show w'.log = _
    rw [hlog', hlog, List.append_assoc]
  · intro e he
    rcases List.mem_append.mp he with he | he
    · rcases List.mem_pair.mp he with rfl | rfl <;> rfl
    · rcases List.mem_cons.mp he with rfl | he
      · rfl
      · exact isEntryRead_of_silent (hsilent e he)

end Hits

/-! ## Reruns -/

/-- A later run of the same scenario, with or without the network. -/
inductive Rerun (τ : Type) where
  | offline
  | online (b : CaptureBuilder τ)

/-- What client code sees of a run, and the state that is left. -/
def outcome {α : Type} (x : AutoM τ α) (s : RunState τ) : Except AutoHalt α × RunState τ :=
  match x s with
  | .ok a s => (.ok a, s)
  | .error halt s => (.error halt, s)

def AutoRunner.rerun (r : AutoRunner) (scenario : Scenario Unit) :
    Rerun τ → RunState τ → Except AutoHalt AutoRun × RunState τ
  | .offline => outcome (r.runOffline scenario)
  | .online b => outcome (r.runOnline b scenario)

/-- The ledger is still the one of the fixture, as far as the anchor check of the rerun sees. -/
def Rerun.Current (f : CapturedFixture) : Rerun τ → Prop
  | .offline => True
  | .online b => ∀ w, ∃ w', b.cachedAnchorIsCurrent f w = .ok true w'

theorem rerun_hits {r : AutoRunner} {f : CapturedFixture} {scenario : Scenario Unit}
    {path : Disk.Path} (hreplays : Replays f scenario) (hpath : r.cache = some path)
    (hrefresh : r.refresh = false) {rerun : Rerun τ} (hcurrent : rerun.Current f) {s : RunState τ}
    (h : Cached r f s) : ∃ s', r.rerun scenario rerun s = (.ok ⟨f, .hit⟩, s') ∧ Hits r f s s' := by
  cases rerun with
  | offline =>
    obtain ⟨s', hrun, hhits⟩ := runOffline_hits hreplays h hpath hrefresh
    exact ⟨s', by rw [AutoRunner.rerun, outcome, hrun], hhits⟩
  | online b =>
    obtain ⟨s', hrun, hhits⟩ := runOnline_hits hreplays h hpath hrefresh (hcurrent s.world)
    exact ⟨s', by rw [AutoRunner.rerun, outcome, hrun], hhits⟩

theorem reruns_hit {r : AutoRunner} {f : CapturedFixture} {scenario : Scenario Unit}
    {path : Disk.Path} (hreplays : Replays f scenario) (hpath : r.cache = some path)
    (hrefresh : r.refresh = false) :
    ∀ (reruns : List (Rerun τ)) (s : RunState τ), (∀ rerun ∈ reruns, rerun.Current f) →
      Cached r f s → (Machine.run (r.rerun scenario) reruns s).1
          = reruns.map (fun _ => .ok ⟨f, .hit⟩) ∧
        Hits r f s (Machine.run (r.rerun scenario) reruns s).2
  | [], s, _, h => ⟨rfl, h, rfl, [], by simp, by simp⟩
  | rerun :: reruns, s, hcurrent, h => by
    obtain ⟨s', hrun, hhits⟩ :=
      rerun_hits hreplays hpath hrefresh (hcurrent rerun List.mem_cons_self) h
    obtain ⟨hanswers, hrest⟩ := reruns_hit hreplays hpath hrefresh reruns s'
      (fun rerun' hmem => hcurrent rerun' (List.mem_cons_of_mem _ hmem)) hhits.cached
    obtain ⟨trace, hlog, hsilent⟩ := hhits.log
    obtain ⟨trace', hlog', hsilent'⟩ := hrest.log
    rw [Machine.run_cons, hrun, List.map_cons]
    refine ⟨congrArg _ hanswers, hrest.cached, hrest.contents_eq.trans hhits.contents_eq,
      trace ++ trace', ?_, fun e he => ?_⟩
    · rw [hlog', hlog, List.append_assoc]
    · exact (List.mem_append.mp he).elim (hsilent e) (hsilent' e)

/--
**What one online run has cached, every later run hits.**

As long as the disk works and the anchor of the network is the one of the fixture, any number of
runs with or without the network return the fixture of the first run, change no file, and read
no ledger entry.
-/
theorem later_runs_hit [LawfulCrates] [LawfulBundleCrates] {r : AutoRunner}
    {b : CaptureBuilder σ} (hb : r.Builds b) {scenario : Scenario Unit} {s s' : RunState σ}
    {run : AutoRun} (hrun : r.runOnline b scenario s = .ok run s') {path : Disk.Path}
    (hpath : r.cache = some path) (hrefresh : r.refresh = false) (reruns : List (Rerun τ))
    (hcurrent : ∀ rerun ∈ reruns, rerun.Current run.fixture) (s₁ : RunState τ)
    (hfile : s₁.contents path = s'.contents path) (hdisk : HealthyDisk s₁.files.disk) :
    (Machine.run (r.rerun scenario) reruns s₁).1 = reruns.map (fun _ => .ok ⟨run.fixture, .hit⟩) ∧
      Hits r run.fixture s₁ (Machine.run (r.rerun scenario) reruns s₁).2 := by
  obtain ⟨hreplays, hholds⟩ := runOnline_leaves hb hrun
  refine reruns_hit hreplays hpath hrefresh reruns s₁ hcurrent ⟨fun path' hpath' => ?_, hdisk⟩
  cases hpath.symm.trans hpath'
  rw [hfile]
  exact hholds path hpath

end Kanatoko

namespace Kanatoko.Testnet

open Fallible

/-- A run that finds no cache captures the native asset and creates one. -/
theorem native_runOnline : ∃ run s',
    nativeRunner.runOnline nativeBuilder nativeScenario nativeState = .ok run s' ∧
      run.fixture.anchor = nativeAnchor := by
  have h : (match nativeRunner.runOnline nativeBuilder nativeScenario nativeState with
    | .ok run _ => decide (run.cacheStatus = .created ∧ run.fixture.anchor = nativeAnchor)
    | .error _ _ => false) = true := by decide +kernel
  split at h
  · next run s' hrun => exact ⟨run, s', hrun, (of_decide_eq_true h).2⟩
  · cases h

/-- The ledger stays the one that the run has captured. -/
theorem native_current {f : CapturedFixture} (h : f.anchor = nativeAnchor) (w : World Unit) :
    ∃ w', nativeBuilder.cachedAnchorIsCurrent f w = .ok true w' := by
  have hnetwork : nativeBuilder.validateNetwork w = .ok () (w.network nativeTransport).2 :=
    run_bind_eq_ok.mpr ⟨_, _, rfl, run_bind_eq_ok.mpr ⟨(), _, rfl, rfl⟩⟩
  refine ⟨((w.network nativeTransport).2.latestLedger nativeTransport).2,
    run_bind_eq_ok.mpr ⟨(), _, hnetwork, run_bind_eq_ok.mpr ⟨nativeAnchor, _, rfl, ?_⟩⟩⟩
  rw [h, decide_eq_true rfl]
  rfl

theorem nativeRunner_builds : nativeRunner.Builds nativeBuilder where
  passphrase_eq := rfl
  policy_eq := rfl
  named := by
    intro s anchor h
    cases h
    decide

/-- The next process finds the cache without the network, and the ones after it do with it. -/
theorem native_reruns_hit : ∃ f : CapturedFixture, ∃ s : RunState Unit,
    (Machine.run (nativeRunner.rerun nativeScenario)
        [.offline, .online nativeBuilder, .online nativeBuilder] s).1
      = [.ok ⟨f, .hit⟩, .ok ⟨f, .hit⟩, .ok ⟨f, .hit⟩] := by
  obtain ⟨run, s', hrun, hanchor⟩ := native_runOnline
  let s₁ : RunState Unit := nativeState.withFiles
    (nativeState.files.withDisk { emptyDisk with contents := s'.contents })
  have hcurrent : ∀ rerun ∈ [Rerun.offline, .online nativeBuilder, .online nativeBuilder],
      rerun.Current run.fixture := by
    intro rerun hmem
    simp only [List.mem_cons, List.not_mem_nil, or_false, or_self] at hmem
    rcases hmem with rfl | rfl
    · exact trivial
    · exact native_current hanchor
  exact ⟨run.fixture, s₁, (later_runs_hit nativeRunner_builds hrun rfl rfl _ hcurrent s₁ rfl
    fun _ => rfl).1⟩

end Kanatoko.Testnet
