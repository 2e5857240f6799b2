import Kanatoko.Properties.Rounds
import Kanatoko.Testnet.Native

/-!
# The fixed point of a capture is a strict replay

The last pass of a capture reads nothing through its transport, so it is the pass a strict
replay makes. What it stored was in the key set already, so it is covered or local.
-/

namespace Kanatoko

open Fallible

variable [Crates] {σ : Type}

/-- A replay starts from the materialization its fixture was sealed of. -/
theorem Sealed.envFromMaterialized_eq {b : CaptureBuilder σ} {round : Nat} {m : Materialized}
    {f : CapturedFixture} (h : Sealed b round m f) :
    envFromMaterialized f.materialized = envFromMaterialized m := by
  have hinfo : f.fixture.snapshot.toLedgerInfo = m.ledgerInfo :=
    (snapshotFromMaterialized_eq_ok.mp h.snapshot).1
  unfold envFromMaterialized snapshotFromMaterialized
  simp only [CapturedFixture.materialized, hinfo, h.coverage_eq]

/-- No stored key is unknown when each is local or covered. -/
theorem collectUnknown_eq_ok {l : LocalLedger} {coverage : Coverage}
    {unknown : Std.ExtTreeSet KeyId} : ∀ {stored : List LedgerKey},
    (∀ key ∈ stored, l.owns key = false → ∃ id, ledgerKeyToXdr key = some id ∧ id ∈ coverage) →
    collectUnknown l coverage stored unknown = .ok unknown
  | [], _ => rfl
  | key :: rest, h => by
    have hrest : collectUnknown l coverage rest unknown = .ok unknown :=
      collectUnknown_eq_ok fun key' hk => h key' (List.mem_cons_of_mem _ hk)
    rw [collectUnknown]
    split
    · exact hrest
    · next hno =>
      obtain ⟨id, hid, hmem⟩ := h key List.mem_cons_self (by simpa using hno)
      refine bind_eq_ok.mpr ⟨id, keyId_eq_ok.mpr hid, ?_⟩
      rw [if_pos hmem]
      exact hrest

omit [Crates] in
/-- A supported key is not the archival key. -/
theorem notArchival_of_supported {key : LedgerKey}
    (h : match key with
      | .account _ | .trustline _ _ | .contractData _ | .contractCode _ => True
      | _ => False) : isStateArchivalKey key = false := by
  cases key <;> first | rfl | exact h.elim

/-- Every stored key of the last pass is local or covered. -/
theorem LastRound.Ends.stored_covered [LawfulCrates] {r : LastRound} {b : CaptureBuilder σ}
    {scenario : Scenario Unit} {w w' : World σ} {f : CapturedFixture}
    (h : r.Ends b scenario w w' f) (hstores : StoresSupported scenario) :
    ∀ key ∈ r.stored, r.source.localLedger.owns key = false →
      ∃ id, ledgerKeyToXdr key = some id ∧ id ∈ r.m.coverage := by
  intro key hkey hno
  obtain ⟨w₁, _, hpass⟩ := h.pass
  have hsupported := passOver_allResults hstores hpass
  have hna := notArchival_of_supported (hsupported r.stored h.stored_eq key hkey)
  obtain ⟨keys', hcollect⟩ := h.nothing_added
  obtain ⟨id, hid, hmem⟩ := collectKeys_spec hcollect key hkey hno hna
  refine ⟨id, hid, (h.gives.covered id).mpr ⟨hmem, fun hcfg => ?_⟩⟩
  have heq : key = stateArchivalKey := ledgerKeyToXdr_inj hid hcfg
  rw [isStateArchivalKey_iff.mpr heq] at hna
  cases hna

/--
**A capture that succeeds can be replayed.**

The log of the capture ends with its last pass, which made no transport call. A strict
replay in any world succeeds, calls no transport either, and writes the very same trace:
every lookup gets the same answer.
-/
theorem capture_replays [LawfulCrates] {b : CaptureBuilder σ} {scenario : Scenario Unit}
    (hstores : StoresSupported scenario) {keys : KeyMap} {w w' : World σ} {f : CapturedFixture}
    (h : b.captureRefFromKeys scenario keys w = .ok f w') :
    ∃ before trace, w'.log = w.log ++ before ++ .pass :: trace ∧
      (∀ e ∈ trace, e.isTransport = false ∧ e ≠ .pass) ∧
      ∀ {τ : Type} (v : World τ),
        f.replayWithLocal scenario v = .ok () { v with log := v.log ++ .pass :: trace } := by
  obtain ⟨r, hr⟩ := captureRefFromKeys_spec h
  obtain ⟨w₁, hlog₁, hpass⟩ := hr.pass
  obtain ⟨env, henv, hrun⟩ := passOver_eq_ok.mp hpass
  obtain ⟨houtcome, hreads, hsealed⟩ := concludePass_spec hr.concluded
  obtain ⟨hunknown, trace, hlog, hoff, hstrict⟩ := runPass_strict hrun hr.no_failure hreads
  refine ⟨r.before ++ r.attempt.events, trace, by rw [hlog, hlog₁, List.append_assoc w.log],
    fun e he => ⟨Event.isTransport_of_isOffline (hoff e he), Event.ne_pass_of_isOffline (hoff e he)⟩,
    fun v => ?_⟩
  have hreplay : passOver none scenario f.materialized v
      = .ok (r.passEnd, r.source) { v with log := v.log ++ .pass :: trace } := by
    refine passOver_eq_ok.mpr ⟨env, by rw [hsealed.envFromMaterialized_eq, henv], ?_⟩
    have hinfo : f.materialized.ledgerInfo = r.m.ledgerInfo :=
      (snapshotFromMaterialized_eq_ok.mp hsealed.snapshot).1
    rw [hinfo, show f.materialized.coverage = r.m.coverage from hsealed.coverage_eq]
    exact hstrict v
  obtain ⟨result, hresult⟩ := Option.isSome_iff_exists.mp houtcome
  refine run_bind_eq_ok.mpr ⟨_, _, hreplay, liftCapture_eq_ok.mpr ⟨?_, rfl⟩⟩
  have hcollected : collectUnknown r.source.localLedger f.coverage r.stored r.source.unknown
      = .ok r.source.unknown := by
    refine collectUnknown_eq_ok ?_
    rw [hsealed.coverage_eq]
    exact hr.stored_covered hstores
  exact bind_eq_ok.mpr ⟨r.stored, orError_eq_ok.mpr hr.stored_eq,
    bind_eq_ok.mpr ⟨_, hcollected, bind_eq_ok.mpr ⟨⟨⟩, ensure_eq_ok.mpr hunknown,
      orError_eq_ok.mpr hresult⟩⟩⟩

end Kanatoko

namespace Kanatoko.Testnet

open Fallible

/-- The capture of the native asset can be replayed. -/
theorem native_capture_replays : ∃ f w',
    nativeBuilder.captureRefFromKeys nativeScenario .empty nativeWorld = .ok f w' ∧
      ∃ before trace, w'.log = nativeWorld.log ++ before ++ .pass :: trace ∧
        (∀ e ∈ trace, e.isTransport = false ∧ e ≠ .pass) ∧
        ∀ {τ : Type} (v : World τ),
          f.replayWithLocal nativeScenario v = .ok () { v with log := v.log ++ .pass :: trace } := by
  obtain ⟨f, w', hcapture, _⟩ := native_captured
  exact ⟨f, w', hcapture, capture_replays nativeScenario_storesSupported hcapture⟩

end Kanatoko.Testnet
