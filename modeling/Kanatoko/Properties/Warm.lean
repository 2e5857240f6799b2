import Kanatoko.Properties.WellFormed

/-!
# A warm refresh reuses keys alone

A capture that starts from a cached fixture reads nothing of it but the ids it covers. None
of these ids gets lost: every round covers the keys of the round before it.
-/

namespace Kanatoko

open Fallible Ordered

variable [Crates] {σ : Type}

/-! ## The inventory -/

omit [Crates] in
/-- The covered ids are listed in one order, whatever is known of them. -/
theorem coverage_keys_congr {c c' : Coverage} (h : ∀ id, id ∈ c ↔ id ∈ c') : c.keys = c'.keys := by
  refine eq_of_ascending Std.ExtTreeMap.ordered_keys Std.ExtTreeMap.ordered_keys fun id => ?_
  rw [Std.ExtTreeMap.mem_keys, Std.ExtTreeMap.mem_keys, h]

theorem inventoryKeys_congr {f g : CapturedFixture} (h : ∀ id, id ∈ f.coverage ↔ id ∈ g.coverage) :
    f.inventoryKeys = g.inventoryKeys := by
  unfold CapturedFixture.inventoryKeys
  rw [coverage_keys_congr h]

/-- A decoded inventory has every id, and none of them is the id of the archival key. -/
theorem decodeKeys_spec [LawfulCrates] : ∀ {ids : List KeyId} {keys keys' : KeyMap},
    decodeKeys ids keys = .ok keys' → (∀ id, id ∈ keys.map → id ∈ keys'.map) ∧
      ∀ id ∈ ids, id ∈ keys'.map ∧ ledgerKeyToXdr stateArchivalKey ≠ some id
  | [], keys, keys', h => by
    rw [decodeKeys, pure_eq_ok] at h
    cases h
    exact ⟨fun _ h => h, by simp⟩
  | id :: rest, keys, keys', h => by
    rw [decodeKeys] at h
    split at h
    · exact absurd h throw_ne_ok
    · next key hfrom =>
      split at h
      · exact absurd h throw_ne_ok
      · next derived hto =>
        split at h
        · exact absurd h throw_ne_ok
        · next hne =>
          rw [not_or, ne_eq, not_not] at hne
          obtain ⟨rfl, hna⟩ := hne
          obtain ⟨hkeep, hrest⟩ := decodeKeys_spec h
          refine ⟨fun id' hid' => hkeep id' ?_, fun id' hid' => ?_⟩
          · rw [KeyMap.insert, Std.ExtTreeMap.mem_insert]
            exact Or.inr hid'
          · rcases List.mem_cons.mp hid' with rfl | hid'
            · refine ⟨hkeep id' ?_, fun hcfg => hna ?_⟩
              · rw [KeyMap.insert]
                exact Std.ExtTreeMap.mem_insert_self
              · exact isStateArchivalKey_iff.mpr (ledgerKeyToXdr_inj hto hcfg)
            · exact hrest id' hid'

/-! ## No key gets lost -/

/-- Every id of the key map is covered, the id of the archival key apart. -/
def Covers (keys : KeyMap) (coverage : Coverage) : Prop :=
  ∀ id ∈ keys.map, ledgerKeyToXdr stateArchivalKey ≠ some id → id ∈ coverage

theorem Covers.mono {keys keys' : KeyMap} {coverage : Coverage} (h : Covers keys' coverage)
    (hkeep : ∀ id, id ∈ keys.map → id ∈ keys'.map) : Covers keys coverage :=
  fun id hid => h id (hkeep id hid)

theorem materialize_covers (b : CaptureBuilder σ) (keys : KeyMap) :
    Triple (fun _ => True) (b.materialize keys) (fun m _ => Covers keys m.coverage)
      (fun _ _ => True) where
  ok := by
    intro w m w' _ h
    obtain ⟨a, settings, w₁, _, _, hgives⟩ := materialize_spec h
    exact fun id hid hcfg => (hgives.covered id).mpr ⟨hid, hcfg⟩
  error := fun _ _ _ _ _ => trivial

theorem expandRounds_covers (b : CaptureBuilder σ) :
    ∀ (rounds : Nat) (keys : KeyMap) (m : Materialized), Covers keys m.coverage →
    Triple (fun _ => True) (b.expandRounds rounds keys m)
      (fun a _ => Covers a.1 a.2.coverage ∧ ∀ id, id ∈ keys.map → id ∈ a.1.map)
      (fun _ _ => True)
  | rounds, keys, m, hm => by
    have htrivial : ∀ {α : Type} (x : Except CaptureError α),
        Triple (fun _ : World σ => True) (liftCapture x) (fun a _ => x = .ok a)
          (fun _ _ => True) := fun x =>
      triple_liftCapture (fun _ _ h _ => h) fun _ _ _ _ => trivial
    rw [CaptureBuilder.expandRounds]
    refine .bind ((htrivial _).weaken (fun _ h => h) (fun _ _ _ => trivial) fun _ _ h => h)
      fun required => .bind (htrivial _) fun inserted => ?_
    obtain ⟨keys₁, added⟩ := inserted
    dsimp only
    refine Triple.mk ?_ fun _ _ _ _ _ => trivial
    intro w a w' hins hrun
    obtain ⟨_, hkeep, _, hsame⟩ := insertKeys_spec hins
    split at hrun
    · next hadded =>
      -- nothing was added, so the coverage still reaches every key
      obtain ⟨_, w₁, _, hpure⟩ := run_bind_eq_ok.mp hrun
      obtain ⟨rfl, _⟩ := run_pure_eq_ok.mp hpure
      exact ⟨hm.mono (hsame hadded), hkeep⟩
    · cases rounds with
      | zero => exact absurd hrun stop_ne_ok
      | succ rounds =>
        obtain ⟨m₁, w₁, hmat, hrest⟩ := run_bind_eq_ok.mp hrun
        have hcovers := (materialize_covers b keys₁).ok trivial hmat
        obtain ⟨hcovers', hkeep'⟩ :=
          (expandRounds_covers b rounds keys₁ m₁ hcovers).ok trivial hrest
        exact ⟨hcovers', fun id hid => hkeep' id (hkeep id hid)⟩

theorem materializeClosed_covers (b : CaptureBuilder σ) (keys : KeyMap) :
    Triple (fun _ => True) (b.materializeClosed keys)
      (fun a _ => Covers a.1 a.2.coverage ∧ ∀ id, id ∈ keys.map → id ∈ a.1.map)
      (fun _ _ => True) where
  ok := by
    intro w a w' _ h
    obtain ⟨m, w₁, hm, hrest⟩ := run_bind_eq_ok.mp h
    exact (expandRounds_covers b _ keys m ((materialize_covers b keys).ok trivial hm)).ok trivial
      hrest
  error := fun _ _ _ _ _ => trivial

/-- Whatever a round adds, the keys it started from stay covered to the end. -/
theorem captureRounds_covers {b : CaptureBuilder σ} {scenario : Scenario Unit} :
    ∀ {rounds round : Nat} {keys : KeyMap} {m : Materialized} {w w' : World σ}
      {f : CapturedFixture}, Covers keys m.coverage →
    b.captureRounds scenario rounds round keys m w = .ok f w' → Covers keys f.coverage
  | 0, _, _, _, _, _, _, _, h => absurd h stop_ne_ok
  | rounds + 1, round, keys, m, w, w', f, hm, h => by
    rw [CaptureBuilder.captureRounds] at h
    obtain ⟨⟨passEnd, source⟩, w₁, _, h₁⟩ := run_bind_eq_ok.mp h
    obtain ⟨_, w₂, _, h₂⟩ := run_bind_eq_ok.mp h₁
    obtain ⟨stored, w₃, _, h₃⟩ := run_bind_eq_ok.mp h₂
    obtain ⟨⟨keys₁, added⟩, w₄, hcollect, h₄⟩ := run_bind_eq_ok.mp h₃
    rw [liftCapture_eq_ok] at hcollect
    obtain ⟨requested, _, hins⟩ := bind_eq_ok.mp hcollect.1
    obtain ⟨_, hkeep, _, _⟩ := insertKeys_spec hins
    dsimp only at h₄
    split at h₄
    · obtain ⟨⟨keys₂, m₂⟩, w₅, hclosed, h₅⟩ := run_bind_eq_ok.mp h₄
      obtain ⟨hcovers, hkeep'⟩ := (materializeClosed_covers b keys₁).ok trivial hclosed
      exact (captureRounds_covers hcovers h₅).mono fun id hid => hkeep' id (hkeep id hid)
    · rw [liftCapture_eq_ok] at h₄
      obtain ⟨_, _, hsealed⟩ := concludePass_spec h₄.1
      rw [hsealed.coverage_eq]
      exact hm

theorem captureRefFromKeys_covers {b : CaptureBuilder σ} {scenario : Scenario Unit}
    {keys : KeyMap} {w w' : World σ} {f : CapturedFixture}
    (h : b.captureRefFromKeys scenario keys w = .ok f w') : Covers keys f.coverage := by
  unfold CaptureBuilder.captureRefFromKeys at h
  obtain ⟨_, w₁, _, h₁⟩ := run_bind_eq_ok.mp h
  obtain ⟨⟨keys₁, m⟩, w₂, hclosed, h₂⟩ := run_bind_eq_ok.mp h₁
  obtain ⟨hcovers, hkeep⟩ := (materializeClosed_covers b keys).ok trivial hclosed
  exact (captureRounds_covers hcovers h₂).mono hkeep

/-! ## The result -/

/--
**A warm refresh depends on the covered keys alone, and loses none of them.**

Two cached fixtures that cover the same keys lead to the same run, result and all. The
fixture of a warm refresh covers the cached inventory, and the inventory of every captured
or loaded fixture is accepted.
-/
theorem warm_refresh_reuses_keys [LawfulCrates] [BundleCrates] :
    (∀ {σ : Type} (b : CaptureBuilder σ) (scenario : Scenario Unit) (f g : CapturedFixture),
      (∀ id, id ∈ f.coverage ↔ id ∈ g.coverage) → ∀ w : World σ,
        b.captureWithInventory f scenario w = b.captureWithInventory g scenario w) ∧
    (∀ {σ : Type} (b : CaptureBuilder σ) (scenario : Scenario Unit) (cached f : CapturedFixture)
        (w w' : World σ), b.captureWithInventory cached scenario w = .ok f w' →
      ∀ id ∈ cached.coverage, id ∈ f.coverage) ∧
    ∀ policy f, Captured policy f ∨ Loaded policy f → ∃ keys, f.inventoryKeys = .ok keys := by
  refine ⟨fun b scenario f g h w => ?_, fun b scenario cached f w w' h id hid => ?_,
    fun policy f h => ?_⟩
  · unfold CaptureBuilder.captureWithInventory
    rw [inventoryKeys_congr h]
  · obtain ⟨keys, w₁, hkeys, hrun⟩ := run_bind_eq_ok.mp h
    rw [liftCapture_eq_ok] at hkeys
    obtain ⟨_, hids⟩ := decodeKeys_spec hkeys.1
    obtain ⟨hmem, hna⟩ := hids id (Std.ExtTreeMap.mem_keys.mpr hid)
    exact captureRefFromKeys_covers hrun id hmem hna
  · have hsound : Sound policy f := h.elim Captured.sound Loaded.sound
    obtain ⟨keys, hkeys, _⟩ := hsound.inventoryKeys_ok
    exact ⟨keys, hkeys⟩

end Kanatoko

namespace Kanatoko.Testnet

open Fallible

/-- The fixture of the native asset, and the same keys with nothing Present. -/
theorem native_warm_refresh : ∃ f, f.toBundle = .ok nativeBundle ∧
    (∃ keys, f.inventoryKeys = .ok keys) ∧ ∀ w,
      nativeBuilder.captureWithInventory f nativeScenario w
        = nativeBuilder.captureWithInventory
            { f with coverage := f.coverage.map fun _ _ => .absent } nativeScenario w := by
  obtain ⟨f, w', hcapture, hbundle⟩ := native_captured
  obtain ⟨hsame, _, haccepted⟩ := warm_refresh_reuses_keys
  refine ⟨f, hbundle, haccepted .exact f (Or.inl (.capture _ _ _ _ _ rfl hcapture)), ?_⟩
  exact hsame nativeBuilder nativeScenario f _ fun id => by simp

end Kanatoko.Testnet
