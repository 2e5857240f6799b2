import Kanatoko.Properties.Rounds
import Kanatoko.Testnet.Native

/-!
# A fixture holds the state of one ledger

Everything in a captured fixture flows from the attempt its last round materialized: what
single-key reads, earlier attempts and earlier rounds returned is not in it.
-/

namespace Kanatoko

variable [Crates] {σ : Type}

/-- `f` holds what the attempt returned, and nothing else. -/
structure Attempt.Makes (a : Attempt) (settings : StateArchivalSettings) (b : CaptureBuilder σ)
    (f : CapturedFixture) : Prop where
  yields : a.Yields f.coverage settings
  header : f.fixture.snapshot.toLedgerInfo = headerOf b.networkPassphrase a.anchor settings
  entries : ∀ key entry liveUntil, (key, (entry, liveUntil)) ∈ f.fixture.snapshot.ledgerEntries ↔
    key = entry.toKey ∧
      ∃ id : KeyId, f.coverage[id]? = some (LookupState.present entry liveUntil)
  ledgerDigest : canonicalLedgerDigest f.fixture.snapshot = .ok f.fixture.ledgerDigest
  inventory : inventoryDigest f.coverage = .ok f.report.inventoryDigest
  counts : f.report.presentEntries = usize (presentCount f.coverage) ∧
    f.report.absentEntries = usize (absentCount f.coverage)
  provenance : f.provenance =
    { rpcOrigin := b.rpcOrigin
      networkPassphrase := b.networkPassphrase
      ledgerSequence := a.anchor.sequence
      ledgerHash := a.anchor.hash
      protocolVersion := a.anchor.protocolVersion }

/--
**State values of different ledgers are never mixed.**

Whatever the transport answers from call to call, a successful capture ends with one
coherent attempt that makes the whole fixture, and calls the transport no more after it.
-/
theorem capture_of_one_attempt {b : CaptureBuilder σ} {scenario : Scenario Unit}
    {keys : KeyMap} {w w' : World σ} {f : CapturedFixture}
    (h : b.captureRefFromKeys scenario keys w = .ok f w') :
    ∃ (a : Attempt) (settings : StateArchivalSettings) (before after : List Event),
      w'.log = w.log ++ before ++ a.events ++ after ∧
      (∀ e ∈ after, e.isTransport = false) ∧ a.Coherent ∧ a.Makes settings b f := by
  obtain ⟨r, hr⟩ := captureRefFromKeys_spec h
  obtain ⟨w₁, hlog₁, hpass⟩ := hr.pass
  obtain ⟨env, _, hrun⟩ := passOver_eq_ok.mp hpass
  obtain ⟨_, hreads, hsealed⟩ := concludePass_spec hr.concluded
  obtain ⟨_, trace, hlog, hoff, _⟩ := runPass_strict hrun hr.no_failure hreads
  refine ⟨r.attempt, r.settings, r.before, .pass :: trace, by rw [hlog, hlog₁], ?_,
    hr.gives.coherent, ?_⟩
  · intro e he
    rcases List.mem_cons.mp he with rfl | he
    · rfl
    · exact Event.isTransport_of_isOffline (hoff e he)
  · obtain ⟨hinfo, hentries⟩ := snapshotFromMaterialized_eq_ok.mp hsealed.snapshot
    obtain ⟨_, _, _, hdigest⟩ := fromSnapshotWithPolicy_eq_ok.mp hsealed.frozen
    refine ⟨by rw [hsealed.coverage_eq]; exact hr.gives.yields, hinfo.trans hr.gives.header, ?_,
      hdigest, hsealed.digest, by rw [hsealed.report_eq]; exact ⟨rfl, rfl⟩,
      by rw [hsealed.provenance_eq, hr.gives.anchor_eq]⟩
    intro key entry liveUntil
    rw [(snapshotEntries_eq_ok.mp hentries).1, mem_presentEntries, hsealed.coverage_eq]
    simp only [Std.ExtTreeMap.mem_toList_iff_getElem?_eq_some]

end Kanatoko

namespace Kanatoko.Testnet

/-- The capture of the native asset is made of one attempt. -/
theorem native_capture_of_one_attempt : ∃ f w',
    nativeBuilder.captureRefFromKeys nativeScenario .empty nativeWorld = .ok f w' ∧
      ∃ (a : Attempt) (settings : StateArchivalSettings) (before after : List Event),
        w'.log = nativeWorld.log ++ before ++ a.events ++ after ∧
        (∀ e ∈ after, e.isTransport = false) ∧ a.Coherent ∧ a.Makes settings nativeBuilder f := by
  obtain ⟨f, w', hcapture, _⟩ := native_captured
  exact ⟨f, w', hcapture, capture_of_one_attempt hcapture⟩

end Kanatoko.Testnet
