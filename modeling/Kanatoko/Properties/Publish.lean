import Kanatoko.Auto
import Kanatoko.Properties.AtomicWrite
import Kanatoko.Properties.RoundTrip
import Kanatoko.Testnet.Server

/-!
# Only replayed captures are published

An online run has two stages. Everything up to the successful strict replay changes no file;
behind it, the captured fixture is written and reads back as itself.
-/

namespace Kanatoko

open Fallible

variable {σ : Type}

/-! ## Steps of a run -/

def RunState.contents (s : RunState σ) : Disk.Contents := s.files.contents

theorem inWorld_eq_ok {α : Type} {x : CaptureM σ α} {a : α} {s s' : RunState σ} :
    inWorld x s = .ok a s' ↔ ∃ w, x s.world = .ok a w ∧ s.withWorld w = s' := focus_eq_ok

theorem inFiles_eq_ok {α : Type} {x : FilesM α} {a : α} {s s' : RunState σ} :
    inFiles x s = .ok a s' ↔ ∃ files, x s.files = .ok a files ∧ s.withFiles files = s' :=
  focus_eq_ok

theorem inWorld_keeps {α : Type} (x : CaptureM σ α) : Keeps RunState.contents (inWorld x) :=
  .focus fun _ _ => rfl

theorem inFiles_keeps {α : Type} {x : FilesM α} (h : Keeps FileState.contents x) :
    Keeps RunState.contents (inFiles x : AutoM σ α) :=
  h.focus_inside (fun _ _ => rfl) fun _ => rfl

theorem pathExists_keeps (path : Disk.Path) :
    Keeps RunState.contents (pathExists path : AutoM σ Bool) :=
  (Disk.pathExists_keeps path).focus_inside (fun _ _ => rfl) fun _ => rfl

theorem pathExists_world (path : Disk.Path) :
    Keeps RunState.world (pathExists path : AutoM σ Bool) :=
  .focus fun _ _ => rfl

theorem inFiles_world {α : Type} (x : FilesM α) :
    Keeps RunState.world (inFiles x : AutoM σ α) :=
  .focus fun _ _ => rfl

theorem attempted_eq_ok {α : Type} {x : CaptureM σ α} {a : α} {w w' : World σ}
    (h : attempted x w = .ok (.ok a) w') : x w = .ok a w' := by
  unfold attempted at h
  split at h
  · next hx => cases h; exact hx
  · cases h
  · cases h

/-! ## Nothing is written before the replay -/

variable [Crates] [BundleCrates]

omit [Crates] [BundleCrates] in
theorem cacheExisted_keeps {β : Type} {part : RunState σ → β} (r : AutoRunner)
    (h : ∀ path, Keeps part (pathExists path)) : Keeps part r.cacheExisted := by
  unfold AutoRunner.cacheExisted
  split
  · exact .pure _
  · exact h _

omit [BundleCrates] in
theorem captureCold_keeps (b : CaptureBuilder σ) (scenario : Scenario Unit) :
    Keeps RunState.contents (AutoRunner.captureCold b scenario) :=
  (inWorld_keeps _).bind fun _ => .pure _

omit [BundleCrates] in
theorem captureWarm_keeps (b : CaptureBuilder σ) (cached : CapturedFixture)
    (scenario : Scenario Unit) : Keeps RunState.contents (AutoRunner.captureWarm b cached scenario) :=
  (inWorld_keeps _).bind fun _ => .pure _

theorem useCache_keeps (r : AutoRunner) (b : CaptureBuilder σ) (scenario : Scenario Unit)
    (path : Disk.Path) : Keeps RunState.contents (r.useCache b scenario path) := by
  unfold AutoRunner.useCache
  refine .bind (inFiles_keeps fromFileWithPolicy_keeps) fun cached =>
    .bind (inWorld_keeps _) fun current => ?_
  split
  · refine .bind (inWorld_keeps _) fun replayed => ?_
    split
    · exact .pure _
    · exact captureWarm_keeps b cached scenario
    · exact .throw _
  · exact captureWarm_keeps b cached scenario

theorem obtain_keeps (r : AutoRunner) (b : CaptureBuilder σ) (scenario : Scenario Unit) :
    Keeps RunState.contents (r.obtain b scenario) := by
  unfold AutoRunner.obtain
  split
  · exact captureCold_keeps b scenario
  · refine .bind (pathExists_keeps _) fun found => ?_
    split
    · exact useCache_keeps r b scenario _
    · exact captureCold_keeps b scenario

/-- **The stage before the write changes no file**, whether it succeeds or fails. -/
theorem prepare_keeps (r : AutoRunner) (b : CaptureBuilder σ) (scenario : Scenario Unit) :
    Keeps RunState.contents (r.prepare b scenario) := by
  unfold AutoRunner.prepare
  refine .bind (cacheExisted_keeps r pathExists_keeps) fun _ =>
    .bind (obtain_keeps r b scenario) fun obtained => ?_
  split
  · exact .pure _
  · exact .bind (inWorld_keeps _) fun _ => .pure _

/-! ## What a run has in hand -/

/-- The cache file as it was decodes to `f`. -/
def CacheHolds (r : AutoRunner) (f : CapturedFixture) (contents : Disk.Contents) : Prop :=
  ∀ path, r.cache = some path → ∃ bytes, contents path = some bytes ∧
    CapturedFixture.fromBundleBytes bytes r.networkPassphrase r.protocolPolicy = .ok f

/-- The world behind a check of the current anchor and one strict replay of `f`. -/
structure Revalidated (f : CapturedFixture) (scenario : Scenario Unit) (w w' : World σ) : Prop where
  log : ∃ network trace, w'.log = w.log
      ++ [.network (.ok network), .latestLedger (.ok f.anchor)] ++ .pass :: trace ∧
    ∀ e ∈ trace, e.isTransport = false
  replayed : ∃ w₁ : World σ, w.log <+: w₁.log ∧ f.replayWithLocal scenario w₁ = .ok () w'

/-- The world behind a capture of `f` that began after `w`. -/
def CapturedNow (b : CaptureBuilder σ) (f : CapturedFixture) (scenario : Scenario Unit)
    (w w' : World σ) : Prop :=
  ∃ (keys : KeyMap) (w₁ : World σ), w.log <+: w₁.log ∧
    b.captureRefFromKeys scenario keys w₁ = .ok f w'

/-- What a run has in hand, and how it got it. -/
def Obtained.Explained (r : AutoRunner) (b : CaptureBuilder σ) (scenario : Scenario Unit)
    (s s' : RunState σ) : Obtained → Prop
  | .cached f => (∃ path, r.cache = some path) ∧ CacheHolds r f s.contents ∧
      Revalidated f scenario s.world s'.world
  | .captured f => CapturedNow b f scenario s.world s'.world

omit [BundleCrates] in
/-- A strict replay logs one pass without transport calls. -/
theorem replayWithLocal_log {R : Type} {f : CapturedFixture} {scenario : Scenario R}
    {result : R} {w w' : World σ} (h : f.replayWithLocal scenario w = .ok result w') :
    ∃ trace, w'.log = w.log ++ .pass :: trace ∧ ∀ e ∈ trace, e.isTransport = false := by
  obtain ⟨⟨passEnd, source⟩, w₁, hpass, h₁⟩ := run_bind_eq_ok.mp h
  obtain ⟨_, rfl⟩ := liftCapture_eq_ok.mp h₁
  obtain ⟨env, _, hrun⟩ := passOver_eq_ok.mp hpass
  obtain ⟨trace, hlog, hoff⟩ := runPass_silent (runPass_none_reads scenario env
    f.materialized.coverage f.materialized.ledgerInfo.protocolVersion w)
  rw [hrun] at hlog
  exact ⟨trace, hlog, fun e he => Event.isTransport_of_isOffline (hoff e he)⟩

omit [BundleCrates] in
/-- A strict replay leaves what is in the log, also when it fails. -/
theorem attempted_log {f : CapturedFixture} {scenario : Scenario Unit}
    {result : Except CaptureError Unit} {w w' : World σ}
    (h : attempted (f.replayWithLocal scenario) w = .ok result w') : w.log <+: w'.log := by
  unfold attempted at h
  split at h
  · next hreplay =>
    cases h
    obtain ⟨trace, hlog, _⟩ := replayWithLocal_log hreplay
    exact ⟨.pass :: trace, hlog.symm⟩
  · next hreplay =>
    cases h
    rcases run_bind_eq_error.mp hreplay with hpass | ⟨_, w₁, hpass, hconclude⟩
    · rcases run_bind_eq_error.mp hpass with henv | ⟨_, _, _, hrun⟩
      · rw [(run_lift_eq_error.mp henv).2]
      · cases hrun
    · rw [← (run_lift_eq_error.mp hconclude).2]
      exact passOver_log hpass
  · cases h

omit [Crates] [BundleCrates] in
theorem validateNetwork_log {b : CaptureBuilder σ} {w w' : World σ}
    (h : b.validateNetwork w = .ok () w') :
    ∃ network, w'.log = w.log ++ [.network (.ok network)] := by
  obtain ⟨network, w₁, hcall, h₁⟩ := run_bind_eq_ok.mp h
  obtain ⟨_, w₂, hpassphrase, h₂⟩ := run_bind_eq_ok.mp h₁
  obtain ⟨_, rfl⟩ := liftCapture_eq_ok.mp hpassphrase
  obtain ⟨_, rfl⟩ := liftCapture_eq_ok.mp h₂
  obtain ⟨hanswer, rfl⟩ := call_eq_ok.mp hcall
  exact ⟨network, by rw [World.network_log, hanswer]⟩

omit [Crates] [BundleCrates] in
/-- The anchor check makes two calls, and says `true` only to the anchor of the fixture. -/
theorem cachedAnchorIsCurrent_eq_ok {b : CaptureBuilder σ} {f : CapturedFixture} {current : Bool}
    {w w' : World σ} (h : b.cachedAnchorIsCurrent f w = .ok current w') :
    ∃ network anchor, w'.log = w.log ++ [.network (.ok network), .latestLedger (.ok anchor)] ∧
      (current = true → anchor = f.anchor) := by
  obtain ⟨_, w₁, hnetwork, h₁⟩ := run_bind_eq_ok.mp h
  obtain ⟨anchor, w₂, hanchor, h₂⟩ := run_bind_eq_ok.mp h₁
  obtain ⟨hcurrent, rfl⟩ := run_pure_eq_ok.mp h₂
  obtain ⟨network, hlog⟩ := validateNetwork_log hnetwork
  obtain ⟨answer, w₃, hcall, h₃⟩ := run_bind_eq_ok.mp hanchor
  obtain ⟨_, w₄, hcheck, h₄⟩ := run_bind_eq_ok.mp h₃
  obtain ⟨_, rfl⟩ := liftCapture_eq_ok.mp hcheck
  obtain ⟨rfl, rfl⟩ := run_pure_eq_ok.mp h₄
  obtain ⟨hanswer, rfl⟩ := call_eq_ok.mp hcall
  refine ⟨network, answer, ?_, fun ht => of_decide_eq_true (hcurrent.trans ht)⟩
  rw [World.latestLedger_log, hanswer, hlog, List.append_assoc]
  rfl

omit [BundleCrates] in
theorem captureWithInventory_capturedNow {b : CaptureBuilder σ} {cached f : CapturedFixture}
    {scenario : Scenario Unit} {w w₁ w' : World σ} (hlog : w.log <+: w₁.log)
    (h : b.captureWithInventory cached scenario w₁ = .ok f w') :
    CapturedNow b f scenario w w' := by
  obtain ⟨keys, w₂, hkeys, h₁⟩ := run_bind_eq_ok.mp h
  obtain ⟨_, rfl⟩ := liftCapture_eq_ok.mp hkeys
  exact ⟨keys, w₁, hlog, h₁⟩

theorem captureWarm_explained {r : AutoRunner} {b : CaptureBuilder σ} {cached : CapturedFixture}
    {scenario : Scenario Unit} {s s₁ s' : RunState σ} {o : Obtained}
    (hlog : s.world.log <+: s₁.world.log)
    (h : AutoRunner.captureWarm b cached scenario s₁ = .ok o s') :
    o.Explained r b scenario s s' := by
  obtain ⟨f, s₂, hstep, h₁⟩ := run_bind_eq_ok.mp h
  obtain ⟨rfl, rfl⟩ := run_pure_eq_ok.mp h₁
  obtain ⟨w, hcapture, rfl⟩ := inWorld_eq_ok.mp hstep
  exact captureWithInventory_capturedNow hlog hcapture

theorem captureCold_explained {r : AutoRunner} {b : CaptureBuilder σ} {scenario : Scenario Unit}
    {s s₁ s' : RunState σ} {o : Obtained} (hworld : s₁.world = s.world)
    (h : AutoRunner.captureCold b scenario s₁ = .ok o s') : o.Explained r b scenario s s' := by
  obtain ⟨f, s₂, hstep, h₁⟩ := run_bind_eq_ok.mp h
  obtain ⟨rfl, rfl⟩ := run_pure_eq_ok.mp h₁
  obtain ⟨w, hcapture, rfl⟩ := inWorld_eq_ok.mp hstep
  exact ⟨.empty, s₁.world, by rw [hworld], hcapture⟩

/--
The branch of a cache file. An unknown key sends a current cache to a seeded capture, as a
changed anchor does; every other error of the replay ends the run.
-/
theorem useCache_explained {r : AutoRunner} {b : CaptureBuilder σ} {scenario : Scenario Unit}
    {path : Disk.Path} {s s₁ s' : RunState σ} {o : Obtained} (hpath : r.cache = some path)
    (hworld : s₁.world = s.world) (hcontents : s₁.contents = s.contents)
    (h : r.useCache b scenario path s₁ = .ok o s') : o.Explained r b scenario s s' := by
  obtain ⟨cached, s₂, hstep₁, h₁⟩ := run_bind_eq_ok.mp h
  obtain ⟨current, s₃, hstep₂, h₂⟩ := run_bind_eq_ok.mp h₁
  obtain ⟨files, hload, rfl⟩ := inFiles_eq_ok.mp hstep₁
  obtain ⟨w₃, hanchor, rfl⟩ := inWorld_eq_ok.mp hstep₂
  obtain ⟨bytes, hbytes, hdecoded⟩ := fromFileWithPolicy_eq_ok hload
  obtain ⟨network, anchor, hlog, heq⟩ := cachedAnchorIsCurrent_eq_ok hanchor
  replace hlog : w₃.log = s.world.log ++ [.network (.ok network), .latestLedger (.ok anchor)] := by
    rw [← hworld]
    exact hlog
  have hpre : s.world.log <+: w₃.log := by
    rw [hlog]
    exact List.prefix_append ..
  split at h₂
  · next hcurrent =>
    obtain ⟨replayed, s₄, hstep₃, h₃⟩ := run_bind_eq_ok.mp h₂
    obtain ⟨w₄, hattempt, rfl⟩ := inWorld_eq_ok.mp hstep₃
    split at h₃
    · obtain ⟨rfl, rfl⟩ := run_pure_eq_ok.mp h₃
      have hreplay := attempted_eq_ok hattempt
      obtain ⟨trace, htrace, hsilent⟩ := replayWithLocal_log hreplay
      refine ⟨⟨path, hpath⟩, ?_, ⟨network, trace, ?_, hsilent⟩, w₃, hpre, hreplay⟩
      · intro path' hpath'
        cases hpath.symm.trans hpath'
        exact ⟨bytes, hcontents ▸ hbytes, hdecoded⟩
      · rw [← heq hcurrent, ← hlog]
        exact htrace
    · exact captureWarm_explained (hpre.trans (attempted_log hattempt)) h₃
    · exact absurd h₃ run_throw_ne_ok
  · exact captureWarm_explained hpre h₂

theorem obtain_explained {r : AutoRunner} {b : CaptureBuilder σ} {scenario : Scenario Unit}
    {s s₁ s' : RunState σ} {o : Obtained} (hworld : s₁.world = s.world)
    (hcontents : s₁.contents = s.contents) (h : r.obtain b scenario s₁ = .ok o s') :
    o.Explained r b scenario s s' := by
  unfold AutoRunner.obtain at h
  cases hpath : r.cache.filter fun _ => !r.refresh with
  | none =>
    rw [hpath] at h
    exact captureCold_explained hworld h
  | some path =>
    rw [hpath] at h
    obtain ⟨found, s₂, hfound, h₁⟩ := run_bind_eq_ok.mp h
    have hworld' := ((pathExists_world path).ok hfound).trans hworld
    have hcontents' := ((pathExists_keeps path).ok hfound).trans hcontents
    split at h₁
    · exact useCache_explained (Option.filter_eq_some_iff.mp hpath).1 hworld' hcontents' h₁
    · exact captureCold_explained hworld' h₁

/-- A captured fixture has replayed when the stage before the write ends. -/
theorem prepare_explained {r : AutoRunner} {b : CaptureBuilder σ} {scenario : Scenario Unit}
    {s s' : RunState σ} {existed : Bool} {o : Obtained}
    (h : r.prepare b scenario s = .ok (existed, o) s') :
    match o with
    | .cached _ => o.Explained r b scenario s s'
    | .captured f => ∃ w, CapturedNow b f scenario s.world w ∧
        f.replayWithLocal scenario w = .ok () s'.world := by
  obtain ⟨existed', s₁, hexisted, h₁⟩ := run_bind_eq_ok.mp h
  obtain ⟨o', s₂, hobtained, h₂⟩ := run_bind_eq_ok.mp h₁
  have hworld := (cacheExisted_keeps r pathExists_world).ok hexisted
  have hcontents := (cacheExisted_keeps r pathExists_keeps).ok hexisted
  have hexplained := obtain_explained hworld hcontents hobtained
  cases o' with
  | cached f =>
    obtain ⟨heq, rfl⟩ := run_pure_eq_ok.mp h₂
    cases heq
    exact hexplained
  | captured f =>
    obtain ⟨_, s₃, hstep, h₃⟩ := run_bind_eq_ok.mp h₂
    obtain ⟨heq, rfl⟩ := run_pure_eq_ok.mp h₃
    obtain ⟨w, hreplay, rfl⟩ := inWorld_eq_ok.mp hstep
    cases heq
    exact ⟨s₂.world, hexplained, hreplay⟩

/-! ## The write -/

omit [Crates] [BundleCrates] in
theorem createCacheDirectory_keeps (path : Disk.Path) :
    Keeps RunState.contents (AutoRunner.createCacheDirectory path : AutoM σ Unit) := by
  unfold AutoRunner.createCacheDirectory
  split
  · exact .pure _
  · exact inFiles_keeps (onDisk_keeps (Disk.createDirAll_keeps _))

omit [Crates] [BundleCrates] in
theorem createCacheDirectory_world (path : Disk.Path) :
    Keeps RunState.world (AutoRunner.createCacheDirectory path : AutoM σ Unit) := by
  unfold AutoRunner.createCacheDirectory
  split
  · exact .pure _
  · exact inFiles_world _

/-- Publishing leaves the world alone and puts the bytes of the fixture in the cache file. -/
theorem publish_eq_ok {r : AutoRunner} {f : CapturedFixture} {existed : Bool} {run : AutoRun}
    {s s' : RunState σ} (h : r.publish f existed s = .ok run s') :
    run.fixture = f ∧ run.cacheStatus ≠ .hit ∧ s'.world = s.world ∧
      ∀ path, r.cache = some path → ∃ bytes, f.toBytes = .ok bytes ∧
        s'.contents = Disk.put s.contents path (some bytes) := by
  unfold AutoRunner.publish at h
  cases hcache : r.cache with
  | none =>
    rw [hcache] at h
    obtain ⟨rfl, rfl⟩ := run_pure_eq_ok.mp h
    exact ⟨rfl, by simp, rfl, fun path hpath => by cases hpath⟩
  | some path =>
    rw [hcache] at h
    obtain ⟨_, s₁, hdirectory, h₁⟩ := run_bind_eq_ok.mp h
    obtain ⟨_, s₂, hstep, h₂⟩ := run_bind_eq_ok.mp h₁
    obtain ⟨rfl, rfl⟩ := run_pure_eq_ok.mp h₂
    obtain ⟨files, hwrite, rfl⟩ := inFiles_eq_ok.mp hstep
    obtain ⟨bytes, hbytes, hatomic⟩ := run_lift_bind_eq_ok.mp hwrite
    have hworld := (createCacheDirectory_world path).ok hdirectory
    have hcontents := (createCacheDirectory_keeps path).ok hdirectory
    refine ⟨rfl, by split <;> simp, hworld, fun path' hpath' => ⟨bytes, hbytes, ?_⟩⟩
    cases hpath'
    rw [← hcontents]
    exact atomicWrite_eq_ok hatomic

/-! ## The builder of a run -/

section Builder

variable [WireCrates]

omit [BundleCrates] in
/-- The builder of a run shares its passphrase and policy, and only accepts named ledgers. -/
theorem captureBuilder_eq_ok {r : AutoRunner} {connect : String → RpcServer σ}
    {b : CaptureBuilder σ} (h : r.captureBuilder connect = .ok b) :
    b.networkPassphrase = r.networkPassphrase ∧ b.protocolPolicy = r.protocolPolicy ∧
      b.transport = httpTransport (connect r.rpcUrl) := by
  obtain ⟨b₀, hrpc, h₁⟩ := bind_eq_ok.mp h
  rw [pure_eq_ok] at h₁
  unfold CaptureBuilder.rpc at hrpc
  split at hrpc
  · cases hrpc
  · cases hrpc
    split at h₁
    · next hpolicy => exact h₁ ▸ ⟨rfl, hpolicy.symm, rfl⟩
    · next hpolicy =>
      refine h₁ ▸ ⟨rfl, ?_, rfl⟩
      cases hr : r.protocolPolicy with
      | exact => rfl
      | allowNewer => exact absurd hr hpolicy

end Builder

omit [BundleCrates] in
/-- The hash a captured fixture names is the hash of an anchor the transport answered with. -/
theorem CapturedNow.named {b : CaptureBuilder σ} {f : CapturedFixture} {scenario : Scenario Unit}
    {w w' : World σ} (h : CapturedNow b f scenario w w') :
    f.provenance.networkPassphrase = b.networkPassphrase ∧
      ∃ s anchor, (b.transport.latestLedger s).1 = .ok anchor ∧
        f.provenance.ledgerHash = anchor.hash := by
  obtain ⟨keys, w₁, _, hcapture⟩ := h
  obtain ⟨last, hlast⟩ := captureRefFromKeys_spec hcapture
  obtain ⟨_, _, hsealed⟩ := concludePass_spec hlast.concluded
  obtain ⟨s, hanswer⟩ := hlast.gives.answered
  rw [hsealed.provenance_eq]
  exact ⟨rfl, s, _, hanswer, congrArg Anchor.hash hlast.gives.anchor_eq⟩

variable [LawfulCrates] [LawfulBundleCrates] [WireCrates]

/-- The bytes written for a fixture of this run decode to the fixture. -/
theorem CapturedNow.reads_back {r : AutoRunner} {connect : String → RpcServer σ}
    {b : CaptureBuilder σ} (hbuilder : r.captureBuilder connect = .ok b) {f : CapturedFixture}
    {scenario : Scenario Unit} {w w' : World σ} (h : CapturedNow b f scenario w w')
    {bytes : Bytes} (hbytes : f.toBytes = .ok bytes) :
    CapturedFixture.fromBundleBytes bytes r.networkPassphrase r.protocolPolicy = .ok f := by
  obtain ⟨hpassphrase, hpolicy, htransport⟩ := captureBuilder_eq_ok hbuilder
  obtain ⟨hnetwork, s, anchor, hanswer, hhash⟩ := h.named
  obtain ⟨keys, w₁, _, hcapture⟩ := h
  have hsound : Sound r.protocolPolicy f := hpolicy ▸ captured_sound hcapture
  rw [htransport] at hanswer
  have hne : f.provenance.ledgerHash ≠ "" := by
    rw [hhash]
    exact httpTransport_hash_ne hanswer
  rw [← hpassphrase, ← hnetwork]
  exact hsound.fromBundleBytes_toBytes hne hbytes

/-! ## Whole runs -/

/-- The scenario was strictly replayed against `f`, as the last thing that happened. -/
def ReplayedNow (f : CapturedFixture) (scenario : Scenario Unit) (w w' : World σ) : Prop :=
  ∃ w₁ : World σ, w.log <+: w₁.log ∧ f.replayWithLocal scenario w₁ = .ok () w'

omit [BundleCrates] [LawfulCrates] [LawfulBundleCrates] [WireCrates] in
theorem CapturedNow.log {b : CaptureBuilder σ} {f : CapturedFixture} {scenario : Scenario Unit}
    {w w' : World σ} (h : CapturedNow b f scenario w w') : w.log <+: w'.log := by
  obtain ⟨keys, w₁, hpre, hcapture⟩ := h
  obtain ⟨last, hlast⟩ := captureRefFromKeys_spec hcapture
  obtain ⟨w₂, hlog, hpass⟩ := hlast.pass
  refine hpre.trans (.trans ?_ (passOver_log hpass))
  rw [hlog, List.append_assoc]
  exact List.prefix_append ..

/--
**A run publishes only what it has replayed, and a hit is honest.**

A run that succeeds has strictly replayed the scenario against the fixture it returns. On a
hit, no file has changed, the only calls were the two of the anchor check, and the transport's
anchor is the anchor of the fixture. Otherwise the fixture was captured in this run, and the
cache file, if there is one, now decodes to it. A run that fails before it publishes has
changed no file; a run that fails later has replayed a captured fixture and failed to write it.
-/
theorem online_run_publishes_replayed {r : AutoRunner} {connect : String → RpcServer σ}
    {b : CaptureBuilder σ} (hbuilder : r.captureBuilder connect = .ok b)
    (scenario : Scenario Unit) (s : RunState σ) :
    (∀ run s', r.runOnline b scenario s = .ok run s' →
      ReplayedNow run.fixture scenario s.world s'.world ∧
        (run.cacheStatus = .hit → s'.contents = s.contents ∧
          (∃ path, r.cache = some path) ∧ CacheHolds r run.fixture s.contents ∧
          Revalidated run.fixture scenario s.world s'.world) ∧
        (run.cacheStatus ≠ .hit → CacheHolds r run.fixture s'.contents ∧
          ∃ w, CapturedNow b run.fixture scenario s.world w ∧
            run.fixture.replayWithLocal scenario w = .ok () s'.world)) ∧
      ∀ halt s', r.runOnline b scenario s = .error halt s' →
        r.prepare b scenario s = .error halt s' ∧ s'.contents = s.contents ∨
          ∃ existed f s₁, r.prepare b scenario s = .ok (existed, .captured f) s₁ ∧
            ReplayedNow f scenario s.world s₁.world ∧ s₁.contents = s.contents ∧
            r.publish f existed s₁ = .error halt s' := by
  constructor
  · intro run s' h
    obtain ⟨⟨existed, o⟩, s₁, hprepare, h₁⟩ := run_bind_eq_ok.mp h
    have hexplained := prepare_explained hprepare
    cases o with
    | cached f =>
      obtain ⟨rfl, rfl⟩ := run_pure_eq_ok.mp h₁
      obtain ⟨hpath, hholds, hrevalidated⟩ := hexplained
      exact ⟨hrevalidated.replayed, fun _ => ⟨(prepare_keeps r b scenario).ok hprepare, hpath,
        hholds, hrevalidated⟩, fun hne => absurd rfl hne⟩
    | captured f =>
      obtain ⟨rfl, hstatus, hworld, hwritten⟩ := publish_eq_ok h₁
      obtain ⟨w, hcaptured, hreplay⟩ := hexplained
      rw [hworld]
      refine ⟨⟨w, hcaptured.log, hreplay⟩, fun hhit => absurd hhit hstatus,
        fun _ => ⟨?_, w, hcaptured, hreplay⟩⟩
      intro path hpath
      obtain ⟨bytes, hbytes, hput⟩ := hwritten path hpath
      exact ⟨bytes, by rw [hput, Disk.put_self], hcaptured.reads_back hbuilder hbytes⟩
  · intro halt s' h
    rcases run_bind_eq_error.mp h with hprepare | ⟨⟨existed, o⟩, s₁, hprepare, h₁⟩
    · exact Or.inl ⟨hprepare, (prepare_keeps r b scenario).error hprepare⟩
    · have hexplained := prepare_explained hprepare
      cases o with
      | cached f => exact absurd h₁ run_pure_ne_error
      | captured f =>
        obtain ⟨w, hcaptured, hreplay⟩ := hexplained
        exact Or.inr ⟨existed, f, s₁, hprepare, ⟨w, hcaptured.log, hreplay⟩,
          (prepare_keeps r b scenario).ok hprepare, h₁⟩

end Kanatoko

namespace Kanatoko.Testnet

/-- An online run against the server of the native asset. -/
theorem native_run_publishes_replayed : ∃ b,
    nativeRunner.captureBuilder (fun _ => nativeServer) = .ok b ∧
      (∀ run s', nativeRunner.runOnline b nativeScenario nativeState = .ok run s' →
        ReplayedNow run.fixture nativeScenario nativeState.world s'.world) ∧
      ∀ halt s', nativeRunner.runOnline b nativeScenario nativeState = .error halt s' →
        s'.contents = nativeState.contents ∨ ∃ existed f s₁,
          nativeRunner.prepare b nativeScenario nativeState = .ok (existed, .captured f) s₁ := by
  obtain ⟨b, hbuilder⟩ := nativeRunner_captureBuilder
  obtain ⟨hok, herror⟩ := online_run_publishes_replayed hbuilder nativeScenario nativeState
  refine ⟨b, hbuilder, fun run s' h => (hok run s' h).1, fun halt s' h => ?_⟩
  rcases herror halt s' h with ⟨_, hsame⟩ | ⟨existed, f, s₁, hprepare, _⟩
  · exact Or.inl hsame
  · exact Or.inr ⟨existed, f, s₁, hprepare⟩

end Kanatoko.Testnet
