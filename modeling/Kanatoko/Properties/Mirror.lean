import Kanatoko.Properties.ForkRuns
import Kanatoko.Testnet.Host

/-!
# The coverage of a fork mirrors its ledger

The ledger lives in the environment and the coverage beside it, and each operation updates
the two along different paths. In every reachable state they say the same.
-/

namespace Kanatoko

open Fallible Knowledge StrictFork

variable [Crates]

/-- The coverage is right about the ledger, and covers all of it. -/
structure MirrorsLedger (s : StrictCheckpoint) : Prop where
  digest : ∃ digest, canonicalLedgerDigest s.snapshot = .ok digest
  mirror : Mirrors (known s.coverage) (held s.snapshot.ledgerEntries)
  keyed : ∀ id ∈ s.coverage, ∃ key, ledgerKeyToXdr key = some id

theorem MirrorsLedger.canonical {s : StrictCheckpoint} (h : MirrorsLedger s) :
    Canonical s.snapshot.ledgerEntries := by
  obtain ⟨_, hdigest⟩ := h.digest
  exact canonical_of_digest hdigest

omit [Crates] in
theorem known_ne_none {coverage : Coverage} {id : KeyId} :
    known coverage id ≠ none ↔ id ∈ coverage := by
  unfold known
  rw [Std.ExtTreeMap.mem_iff_isSome_getElem?]
  cases coverage[id]? <;> simp

omit [Crates] in
theorem known_eq_present {coverage : Coverage} {id : KeyId} {entry : LedgerEntry}
    {liveUntil : Option UInt32} : known coverage id = some (some (entry, liveUntil)) ↔
      coverage[id]? = some (.present entry liveUntil) := by
  unfold known
  rw [Option.map_eq_some_iff]
  constructor
  · rintro ⟨state, hget, hanswer⟩
    cases state with
    | present entry' liveUntil' => cases hanswer; exact hget
    | absent => cases hanswer
  · exact fun hget => ⟨_, hget, rfl⟩

/-- **A sound fixture mirrors its own ledger.** -/
theorem Sound.mirrors {policy : ProtocolPolicy} {f : CapturedFixture} (h : Sound policy f)
    (s : StrictCheckpoint) (hsnapshot : s.snapshot = f.fixture.snapshot)
    (hcoverage : s.coverage = f.coverage) : MirrorsLedger s := by
  obtain ⟨_, _, _, hdigest⟩ := fromSnapshotWithPolicy_eq_ok.mp h.frozen
  have hcanonical := canonical_of_digest hdigest
  have hheld : ∀ (id : KeyId) entry liveUntil,
      held f.fixture.snapshot.ledgerEntries id = some (entry, liveUntil) ↔
        f.coverage[id]? = some (.present entry liveUntil) := by
    intro id entry liveUntil
    rw [hcanonical.keyed.held_eq_some_iff]
    constructor
    · rintro ⟨key, hid, hmem⟩
      obtain ⟨rfl, id', hstate⟩ := (h.entries key entry liveUntil).mp hmem
      obtain ⟨_, hid'⟩ := h.present id' entry liveUntil hstate
      cases Option.some.inj (hid.symm.trans hid')
      exact hstate
    · intro hstate
      obtain ⟨_, hid⟩ := h.present id entry liveUntil hstate
      exact ⟨_, hid, (h.entries _ entry liveUntil).mpr ⟨rfl, id, hstate⟩⟩
  refine ⟨⟨_, hsnapshot ▸ hdigest⟩, ⟨fun id state hstate => ?_, fun id value hvalue => ?_⟩,
    fun id hid => ?_⟩
  · rw [hcoverage] at hstate
    rw [hsnapshot]
    rcases state with _ | ⟨entry, liveUntil⟩
    · -- an absent key with a value would be present as well
      cases hvalue : held f.fixture.snapshot.ledgerEntries id with
      | none => rfl
      | some value =>
        have hpresent := known_eq_present.mpr ((hheld id value.1 value.2).mp hvalue)
        rw [hstate] at hpresent
        cases hpresent
    · exact (hheld id entry liveUntil).mpr (known_eq_present.mp hstate)
  · rw [hcoverage]
    rw [hsnapshot] at hvalue
    exact known_eq_present.mpr ((hheld id value.1 value.2).mp hvalue)
  · rw [hcoverage] at hid
    obtain ⟨state, hstate⟩ := Option.isSome_iff_exists.mp
      (Std.ExtTreeMap.mem_iff_isSome_getElem?.mp hid)
    cases state with
    | present entry liveUntil => exact ⟨_, (h.present id entry liveUntil hstate).2⟩
    | absent =>
      obtain ⟨key, _, hkey, _⟩ := h.absent id hstate
      exact ⟨key, hkey⟩

/-- **A transition keeps the mirror.** -/
theorem MirrorsLedger.advance {s s' : StrictCheckpoint} (h : MirrorsLedger s)
    (hadv : Advances s s') : MirrorsLedger s' := by
  refine ⟨hadv.digest, hadv.coverage ▸ h.mirror.patch, fun id hid => ?_⟩
  rw [← known_ne_none, hadv.coverage] at hid
  rcases h.mirror.mem_patch hid with hold | ⟨value, _, hvalue⟩
  · exact h.keyed id (known_ne_none.mp hold)
  · obtain ⟨_, hdigest⟩ := hadv.digest
    obtain ⟨key, hkey, _⟩ := (canonical_of_digest hdigest).keyed.held_eq_some_iff.mp hvalue
    exact ⟨key, hkey⟩

/-- What the mirror says of one key, in the terms of the two maps. -/
theorem MirrorsLedger.present_iff [LawfulCrates] {s : StrictCheckpoint} (h : MirrorsLedger s)
    {key : LedgerKey} {id : KeyId} (hid : ledgerKeyToXdr key = some id) (entry : LedgerEntry)
    (liveUntil : Option UInt32) : s.coverage[id]? = some (.present entry liveUntil) ↔
      (key, (entry, liveUntil)) ∈ s.snapshot.ledgerEntries := by
  rw [← known_eq_present, h.mirror.present_iff, h.canonical.keyed.held_eq_some_iff]
  constructor
  · rintro ⟨key', hid', hmem⟩
    rw [ledgerKeyToXdr_inj hid hid']
    exact hmem
  · exact fun hmem => ⟨key, hid, hmem⟩

theorem MirrorsLedger.absent {s : StrictCheckpoint} (h : MirrorsLedger s)
    {key : LedgerKey} {id : KeyId} (hid : ledgerKeyToXdr key = some id)
    (habsent : s.coverage[id]? = some .absent) (value : PresentEntry) :
    (key, value) ∉ s.snapshot.ledgerEntries := by
  intro hmem
  have hknown : known s.coverage id = some none := by
    unfold known
    rw [habsent]
    rfl
  have hheld := h.canonical.keyed.held_eq_some_iff.mpr ⟨key, hid, hmem⟩
  rw [h.mirror.absent hknown] at hheld
  cases hheld

/-- The check for an occupied address sees exactly the instances of the ledger. -/
theorem MirrorsLedger.occupied_iff [LawfulCrates] {s : StrictCheckpoint} (h : MirrorsLedger s)
    {address : ScAddress} {id : KeyId}
    (hid : ledgerKeyToXdr (contractInstanceKey address) = some id) :
    occupied s.coverage id = true ↔
      ∃ value, (contractInstanceKey address, value) ∈ s.snapshot.ledgerEntries := by
  unfold occupied
  rw [Option.any_eq_true]
  constructor
  · rintro ⟨state, hstate, hpresent⟩
    cases state with
    | present entry liveUntil => exact ⟨_, (h.present_iff hid entry liveUntil).mp hstate⟩
    | absent => cases hpresent
  · rintro ⟨⟨entry, liveUntil⟩, hmem⟩
    exact ⟨_, (h.present_iff hid entry liveUntil).mpr hmem, rfl⟩

variable [SnapshotCrate]

theorem Reachable.mirrors [LawfulSnapshotCrate] {policy : ProtocolPolicy} {f : CapturedFixture}
    (hf : Sound policy f) {host : Host} (hhost : host.KeepsHeader) {id : UInt64}
    {fork : StrictFork} {taken : List StrictCheckpoint} (h : Reachable host f id fork taken) :
    MirrorsLedger fork.checkpoint :=
  (h.induct hhost (hf.mirrors _ (networkLedgerSnapshot_forkEnv _) rfl)
    fun _ _ hs hadv => hs.advance hadv).2.1.2

/--
**The coverage of a fork mirrors its ledger.**

In every reachable state a key is Present in the coverage exactly with the entry and the
live-until ledger that the snapshot holds under it, and a key that is covered as Absent is not
in the snapshot. So a candidate is never registered at an address with an instance.
-/
theorem fork_mirrors_ledger [LawfulCrates] [LawfulSnapshotCrate] [BundleCrates]
    {policy : ProtocolPolicy} {f : CapturedFixture} (hf : Captured policy f ∨ Loaded policy f)
    {host : Host} (hhost : host.KeepsHeader) {id : UInt64} {fork : StrictFork}
    {taken : List StrictCheckpoint} (h : Reachable host f id fork taken) :
    (∀ (key : LedgerKey) (keyXdr : KeyId), ledgerKeyToXdr key = some keyXdr →
      (∀ entry liveUntil, fork.coverage[keyXdr]? = some (.present entry liveUntil) ↔
        (key, (entry, liveUntil)) ∈ fork.ledgerSnapshot.ledgerEntries) ∧
      (fork.coverage[keyXdr]? = some .absent →
        ∀ value, (key, value) ∉ fork.ledgerSnapshot.ledgerEntries)) ∧
    (∀ keyXdr ∈ fork.coverage, ∃ key, ledgerKeyToXdr key = some keyXdr) ∧
    (∀ x ∈ fork.ledgerSnapshot.ledgerEntries, (ledgerKeyToXdr x.1).isSome) ∧
    (fork.ledgerSnapshot.ledgerEntries.map Prod.fst).Nodup ∧
    (∀ (address : ScAddress) (instanceId : KeyId),
      ledgerKeyToXdr (contractInstanceKey address) = some instanceId →
      (occupied fork.coverage instanceId = true ↔
        ∃ value, (contractInstanceKey address, value) ∈ fork.ledgerSnapshot.ledgerEntries)) ∧
    ∀ address wasm expected args registration fork',
      registerCandidate host address wasm expected args fork = .ok registration fork' →
      ∀ value, (contractInstanceKey address, value) ∉ fork.ledgerSnapshot.ledgerEntries := by
  have hsound : Sound policy f := hf.elim Captured.sound Loaded.sound
  have hmirror := h.mirrors hsound hhost
  refine ⟨fun key keyXdr hid => ⟨hmirror.present_iff hid, hmirror.absent hid⟩, hmirror.keyed,
    hmirror.canonical.encoded, hmirror.canonical.nodup_keys,
    fun address instanceId hid => hmirror.occupied_iff hid, ?_⟩
  intro address wasm expected args registration fork' hregister value hmem
  obtain ⟨_, _, hinstalls, _⟩ := registerCandidate_eq_ok hregister
  obtain ⟨_, _, h₁⟩ := bind_eq_ok.mp hinstalls.checked
  obtain ⟨_, _, h₂⟩ := bind_eq_ok.mp h₁
  obtain ⟨instanceId, hid, hfree⟩ := bind_eq_ok.mp h₂
  rw [strictKeyId, orError_eq_ok] at hid
  rw [ensure_eq_ok] at hfree
  have hoccupied : occupied fork.coverage instanceId = true :=
    (hmirror.occupied_iff hid).mpr ⟨value, hmem⟩
  rw [hfree] at hoccupied
  cases hoccupied

end Kanatoko

namespace Kanatoko.Testnet

open Fallible Knowledge StrictFork

/-- A funded fork of the native asset mirrors its ledger. -/
theorem native_fork_mirrors_ledger : ∃ f fork taken, Captured .exact f ∧
    Reachable nativeHost f 1 fork taken ∧ taken ≠ [] ∧
    ∀ (key : LedgerKey) (keyXdr : KeyId), ledgerKeyToXdr key = some keyXdr →
      (∀ entry liveUntil, fork.coverage[keyXdr]? = some (.present entry liveUntil) ↔
        (key, (entry, liveUntil)) ∈ fork.ledgerSnapshot.ledgerEntries) ∧
      (fork.coverage[keyXdr]? = some .absent →
        ∀ value, (key, value) ∉ fork.ledgerSnapshot.ledgerEntries) := by
  obtain ⟨f, w', hcapture, _⟩ := native_captured
  obtain ⟨fork, taken, hreach, htaken⟩ := nativeHost_reachable f
  have hf : Captured .exact f := .capture _ _ _ _ _ rfl hcapture
  exact ⟨f, fork, taken, hf, hreach, htaken,
    (fork_mirrors_ledger (Or.inl hf) nativeHost_keepsHeader hreach).1⟩

end Kanatoko.Testnet
