import Kanatoko.Properties.CacheHistory

/-!
# Where cached fixtures come from

Any number of jobs, each with a cache of its own or a shared one, run one after the other over
the same files. What a cache file holds, and what a hit returns, was captured and replayed by one
of them, or was there before the first.
-/

namespace Kanatoko

open Fallible

/-! ## What a write leaves alone -/

section Frame

variable {path p : Disk.Path} {bytes : Bytes}

end Frame

section Reading

variable [Crates] {passphrase passphrase' : String} {policy policy' : ProtocolPolicy}
  {f g : CapturedFixture}

theorem Decoded.unique {snapshot : LedgerSnapshot} {knownAbsent : List String}
    {report : BundleReport} {provenance : BundleProvenance} {digests digests' : BundleDigests}
    (hf : Decoded snapshot knownAbsent report provenance passphrase policy digests f)
    (hg : Decoded snapshot knownAbsent report provenance passphrase' policy' digests' g)
    (hinventory : digests.inventory = digests'.inventory) : f = g ∧ passphrase = passphrase' := by
  have hfixture : f.fixture = g.fixture := by
    obtain ⟨_, _, hsnapshot, hdigest⟩ := fromSnapshotWithPolicy_eq_ok.mp hf.frozen
    obtain ⟨_, _, hsnapshot', hdigest'⟩ := fromSnapshotWithPolicy_eq_ok.mp hg.frozen
    obtain ⟨⟨_, _⟩, _, _, _⟩ := f
    obtain ⟨⟨_, _⟩, _, _, _⟩ := g
    cases hsnapshot.trans hsnapshot'.symm
    cases hdigest.symm.trans hdigest'
    rfl
  have hcoverage : f.coverage = g.coverage := by
    have hread := hf.coverage
    rw [hfixture, hg.coverage] at hread
    exact (Except.ok.inj hread).symm
  have hcounts := hf.validated
  rw [hfixture, hcoverage, hinventory, hg.validated] at hcounts
  refine ⟨?_, hf.metadata.passphrase_eq.symm.trans hg.metadata.passphrase_eq⟩
  rw [hf.made, hg.made, hfixture, hcoverage, hinventory, Except.ok.inj hcounts]

end Reading

/-! ## What a run leaves in a file -/

section File

variable [Crates] [BundleCrates] {σ : Type} {path : Disk.Path} {f : CapturedFixture}

end File

/-! ## Jobs -/

/-- One use of a runner: what stands behind its URL, and the scenario. -/
structure Job (σ : Type) where
  runner : AutoRunner
  connect : String → RpcServer σ
  scenario : Scenario Unit

namespace Job

variable [Crates] [BundleCrates] [WireCrates] {σ : Type} {path : Disk.Path}

def step (job : Job σ) : RunState σ → Except AutoHalt AutoRun × RunState σ :=
  outcome (job.runner.run job.connect job.scenario)

/-- From `s` on, the job goes online, captures `f`, and replays its scenario against it. -/
def Captures (job : Job σ) (s : RunState σ) (f : CapturedFixture) : Prop :=
  job.runner.offline = false ∧ ∃ b, job.runner.captureBuilder job.connect = .ok b ∧
    ∃ w w' : World σ, CapturedNow b f job.scenario s.world w ∧
      f.replayWithLocal job.scenario w = .ok () w'

/-- The bytes of a captured fixture decode to it. -/
theorem Captures.decodes [LawfulCrates] [LawfulBundleCrates] {job : Job σ} {s : RunState σ}
    {f : CapturedFixture} (h : job.Captures s f) {bytes : Bytes} (hbytes : f.toBytes = .ok bytes) :
    CapturedFixture.fromBundleBytes bytes job.runner.networkPassphrase job.runner.protocolPolicy
      = .ok f := by
  obtain ⟨_, b, hbuilder, _, _, hcaptured, _⟩ := h
  exact hcaptured.decodes (captureBuilder_builds hbuilder) hbytes

/-! ## Histories -/

/-- The job is one of the history, and captured `f` from the state that the jobs before it left. -/
def CapturedIn (jobs : List (Job σ)) (s : RunState σ) (job : Job σ) (f : CapturedFixture) : Prop :=
  ∃ before after, jobs = before ++ job :: after ∧
    job.Captures (Machine.run Job.step before s).2 f

theorem Captures.head {jobs : List (Job σ)} {s : RunState σ} {job : Job σ} {f : CapturedFixture}
    (h : job.Captures s f) : CapturedIn (job :: jobs) s job f := ⟨[], jobs, rfl, h⟩

theorem CapturedIn.tail {jobs : List (Job σ)} {s : RunState σ} {first job : Job σ}
    {f : CapturedFixture} (h : CapturedIn jobs (first.step s).2 job f) :
    CapturedIn (first :: jobs) s job f := by
  obtain ⟨before, after, rfl, hcaptures⟩ := h
  exact ⟨first :: before, after, rfl, hcaptures⟩

end Job

end Kanatoko

namespace Kanatoko.Testnet

end Kanatoko.Testnet
