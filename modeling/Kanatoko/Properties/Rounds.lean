import Kanatoko.Capture.Replay
import Kanatoko.Properties.Attempt
import Kanatoko.Properties.Pass

/-!
# The last round of a capture

A capture that succeeds ends with one attempt, a closure check that adds no key, and one
pass that adds no key. `LastRound` names these, and `captureRefFromKeys_spec` finds them at
the end of every successful capture, however many attempts and rounds came before.
-/

namespace Kanatoko

open Fallible

variable [Crates] {σ : Type}

/-! ## Adding keys -/

/-- What inserting a list of keys does to the ids of a key map. -/
theorem insertKeys_spec : ∀ {l : List LedgerKey} {keys keys' : KeyMap} {n n' : Nat},
    insertKeys l (keys, n) = .ok (keys', n') →
    n ≤ n' ∧ (∀ id, id ∈ keys.map → id ∈ keys'.map) ∧
      (∀ key ∈ l, ∃ id, ledgerKeyToXdr key = some id ∧ id ∈ keys'.map) ∧
      (n' = n → ∀ id, id ∈ keys'.map → id ∈ keys.map)
  | [], keys, keys', n, n', h => by
    rw [insertKeys, pure_eq_ok] at h
    cases h
    exact ⟨Nat.le_refl _, fun _ h => h, by simp, fun _ _ h => h⟩
  | key :: rest, keys, keys', n, n', h => by
    rw [insertKeys] at h
    split at h
    · exact absurd h throw_ne_ok
    · next id hid =>
      obtain ⟨hle, hkeep, hin, hsame⟩ := insertKeys_spec h
      have hmem : ∀ id', id' ∈ (keys.insert id key hid).map ↔ id = id' ∨ id' ∈ keys.map := by
        intro id'
        rw [KeyMap.insert, Std.ExtTreeMap.mem_insert, Std.LawfulEqCmp.compare_eq_iff_eq]
      have hcount : n ≤ if id ∈ keys.map then n else n + 1 := by split <;> omega
      refine ⟨hcount.trans hle, fun id' h' => hkeep id' ((hmem id').mpr (Or.inr h')), ?_, ?_⟩
      · intro key' hkey'
        rcases List.mem_cons.mp hkey' with rfl | hkey'
        · exact ⟨id, hid, hkeep id ((hmem id).mpr (Or.inl rfl))⟩
        · exact hin key' hkey'
      · intro hn id' h'
        -- nothing new anywhere, so this key was not new either
        have hold : id ∈ keys.map := by
          by_contra hnew
          rw [if_neg hnew] at hle
          omega
        rw [if_pos hold] at hsame
        rcases (hmem id').mp (hsame hn id' h') with rfl | h'
        · exact hold
        · exact h'

/-- The requested keys with the stored ones: every key a pass asks to capture has an id. -/
theorem addStored_spec {l : LocalLedger} : ∀ {stored : List LedgerKey} {keys keys' : KeyMap},
    addStored l stored keys = .ok keys' →
    (∀ id, id ∈ keys.map → id ∈ keys'.map) ∧
      ∀ key ∈ stored, l.owns key = false → ∃ id, ledgerKeyToXdr key = some id ∧ id ∈ keys'.map
  | [], keys, keys', h => by
    rw [addStored, pure_eq_ok] at h
    cases h
    exact ⟨fun _ h => h, by simp⟩
  | key :: rest, keys, keys', h => by
    rw [addStored] at h
    split at h
    · next howns =>
      obtain ⟨hkeep, hin⟩ := addStored_spec h
      refine ⟨hkeep, fun key' hkey' hno => ?_⟩
      rcases List.mem_cons.mp hkey' with rfl | hkey'
      · rw [howns] at hno; cases hno
      · exact hin key' hkey' hno
    · split at h
      · exact absurd h throw_ne_ok
      · next id hid =>
        obtain ⟨hkeep, hin⟩ := addStored_spec h
        have hmem : ∀ id', id = id' ∨ id' ∈ keys.map → id' ∈ keys'.map := by
          intro id' h'
          refine hkeep id' ?_
          rw [KeyMap.insert, Std.ExtTreeMap.mem_insert, Std.LawfulEqCmp.compare_eq_iff_eq]
          exact h'
        refine ⟨fun id' h' => hmem id' (Or.inr h'), fun key' hkey' hno => ?_⟩
        rcases List.mem_cons.mp hkey' with rfl | hkey'
        · exact ⟨id, hid, hmem id (Or.inl rfl)⟩
        · exact hin key' hkey' hno

/--
A pass that added nothing: every stored key is local, or its id was in the key set before,
unless it is the archival key. Two keys with one id are one key.
-/
theorem collectKeys_spec [LawfulCrates] {source : TrackingSource} {stored : List LedgerKey}
    {keys keys' : KeyMap} (h : collectKeys source stored keys = .ok (keys', 0)) :
    ∀ key ∈ stored, source.localLedger.owns key = false → isStateArchivalKey key = false →
      ∃ id, ledgerKeyToXdr key = some id ∧ id ∈ keys.map := by
  unfold collectKeys at h
  obtain ⟨requested, hadd, h⟩ := bind_eq_ok.mp h
  obtain ⟨_, hin⟩ := addStored_spec hadd
  obtain ⟨_, _, hinserted, hsame⟩ := insertKeys_spec h
  intro key hkey hno hna
  obtain ⟨id, hid, hmem⟩ := hin key hkey hno
  obtain ⟨key', hkey'⟩ := Option.isSome_iff_exists.mp
    (Std.ExtTreeMap.mem_iff_isSome_getElem?.mp hmem)
  have heq : key' = key := ledgerKeyToXdr_inj (requested.canonical hkey') hid
  rw [heq] at hkey'
  obtain ⟨id', hid', hmem'⟩ := hinserted key (by
    rw [List.mem_filter, List.mem_map]
    exact ⟨⟨(id, key), Std.ExtTreeMap.mem_toList_iff_getElem?_eq_some.mpr hkey', rfl⟩,
      by simp [hna]⟩)
  exact ⟨id', hid', hsame rfl id' hmem'⟩

/-! ## Closed materializations -/

/-- An attempt gives its materialization for every key map with the same ids. -/
theorem Attempt.Gives.congr {a : Attempt} {settings : StateArchivalSettings}
    {b : CaptureBuilder σ} {keys keys' : KeyMap} {m : Materialized}
    (h : a.Gives settings b keys m) (hids : ∀ id, id ∈ keys'.map ↔ id ∈ keys.map) :
    a.Gives settings b keys' m :=
  { h with covered := fun id => by rw [h.covered, hids] }

/-- The log ends with the attempt that gave `m`, whose executable chains are complete. -/
structure Closed (b : CaptureBuilder σ) (keys : KeyMap) (m : Materialized) (w w' : World σ)
    (a : Attempt) (settings : StateArchivalSettings) : Prop where
  gives : a.Gives settings b keys m
  closed : ensureExecutableClosurePresent m.coverage = .ok ()
  last : ∃ before, w'.log = w.log ++ before ++ a.events

theorem expandRounds_spec {b : CaptureBuilder σ} :
    ∀ {rounds : Nat} {keys keys' : KeyMap} {m m' : Materialized} {w₀ w w' : World σ}
      {a : Attempt} {settings : StateArchivalSettings}, a.Gives settings b keys m →
    (∃ before, w.log = w₀.log ++ before ++ a.events) →
    b.expandRounds rounds keys m w = .ok (keys', m') w' →
    ∃ a settings, Closed b keys' m' w₀ w' a settings
  | rounds, keys, keys', m, m', w₀, w, w', a, settings, hgives, hlast, h => by
    rw [CaptureBuilder.expandRounds] at h
    obtain ⟨required, w₁, hreq, h₁⟩ := run_bind_eq_ok.mp h
    obtain ⟨⟨keys₁, added⟩, w₂, hins, h₂⟩ := run_bind_eq_ok.mp h₁
    rw [liftCapture_eq_ok] at hreq hins
    obtain ⟨hreq, rfl⟩ := hreq
    obtain ⟨hins, rfl⟩ := hins
    clear h h₁
    dsimp only at h₂
    split at h₂
    · next hadded =>
      obtain ⟨_, w₃, hclosed, h₃⟩ := run_bind_eq_ok.mp h₂
      rw [liftCapture_eq_ok] at hclosed
      obtain ⟨hclosed, rfl⟩ := hclosed
      rw [run_pure_eq_ok] at h₃
      obtain ⟨heq, rfl⟩ := h₃
      cases heq
      subst hadded
      obtain ⟨_, hkeep, _, hsame⟩ := insertKeys_spec hins
      exact ⟨a, settings, hgives.congr fun id => ⟨hsame rfl id, hkeep id⟩, hclosed, hlast⟩
    · cases rounds with
      | zero => exact absurd h₂ stop_ne_ok
      | succ rounds =>
        obtain ⟨m₁, w₃, hm, h₃⟩ := run_bind_eq_ok.mp h₂
        obtain ⟨a', settings', w₄, hpre, hlog, hgives'⟩ := materialize_spec hm
        obtain ⟨before, hbefore⟩ := hlast
        obtain ⟨between, hbetween⟩ := hpre
        exact expandRounds_spec hgives'
          ⟨before ++ a.events ++ between, by
            rw [hlog, ← hbetween, hbefore]; simp only [List.append_assoc]⟩ h₃

theorem expandRounds_orderly (b : CaptureBuilder σ) :
    ∀ (rounds : Nat) (keys : KeyMap) (m : Materialized), Orderly (b.expandRounds rounds keys m)
  | rounds, keys, m => by
    rw [CaptureBuilder.expandRounds]
    refine .bind (.lift _) fun required => .bind (.lift _) fun (keys₁, added) => ?_
    dsimp only
    split
    · exact .bind (.lift _) fun _ => .pure _
    · cases rounds with
      | zero => exact .stop _
      | succ rounds =>
        exact .bind (materialize_orderly b _) fun m => expandRounds_orderly b rounds _ m

theorem materializeClosed_orderly (b : CaptureBuilder σ) (keys : KeyMap) :
    Orderly (b.materializeClosed keys) :=
  .bind (materialize_orderly b keys) fun m => expandRounds_orderly b _ keys m

theorem materializeClosed_spec {b : CaptureBuilder σ} {keys keys' : KeyMap} {m : Materialized}
    {w₀ w w' : World σ} (hpre : w₀.log <+: w.log)
    (h : b.materializeClosed keys w = .ok (keys', m) w') :
    ∃ a settings, Closed b keys' m w₀ w' a settings := by
  unfold CaptureBuilder.materializeClosed at h
  obtain ⟨m₁, w₁, hm, h⟩ := run_bind_eq_ok.mp h
  obtain ⟨a, settings, w₂, hpre', hlog, hgives⟩ := materialize_spec hm
  obtain ⟨before, hbefore⟩ := hpre.trans hpre'
  exact expandRounds_spec hgives ⟨before, by rw [hlog, hbefore]⟩ h

/-! ## The last round -/

/-- The last round of a capture. -/
structure LastRound where
  attempt : Attempt
  settings : StateArchivalSettings
  keys : KeyMap
  m : Materialized
  /-- What was logged before the attempt. -/
  before : List Event
  round : Nat
  passEnd : PassEnd Unit
  source : TrackingSource
  stored : List LedgerKey

/-- A capture that began in `w` ended in `w'` with this round and the fixture `f`. -/
structure LastRound.Ends (r : LastRound) (b : CaptureBuilder σ) (scenario : Scenario Unit)
    (w w' : World σ) (f : CapturedFixture) : Prop where
  gives : r.attempt.Gives r.settings b r.keys r.m
  closed : ensureExecutableClosurePresent r.m.coverage = .ok ()
  pass : ∃ w₁ : World σ, w₁.log = w.log ++ r.before ++ r.attempt.events ∧
    passOver (some b.transport) scenario r.m w₁ = .ok (r.passEnd, r.source) w'
  no_failure : r.source.failure = none
  stored_eq : r.passEnd.storedEntries = some r.stored
  nothing_added : ∃ keys', collectKeys r.source r.stored r.keys = .ok (keys', 0)
  concluded : b.concludePass r.round r.m r.passEnd r.source = .ok f
  round_pos : 1 ≤ r.round
  round_le : r.round ≤ b.discoveryRounds

theorem passOver_log {R : Type} {transport : Option (Transport σ)} {scenario : Scenario R}
    {m : Materialized} {w w' : World σ} {a : PassEnd R × TrackingSource}
    (h : passOver transport scenario m w = .ok a w') : w.log <+: w'.log := by
  unfold passOver at h
  obtain ⟨env, w₁, henv, h⟩ := run_bind_eq_ok.mp h
  rw [run_lift_eq_ok] at henv
  obtain ⟨_, rfl⟩ := henv
  simp only [EStateM.Result.ok.injEq] at h
  rw [← h.2]
  obtain ⟨trace, hlog, _⟩ := (run_moves transport
    (scenario env m.ledgerInfo.protocolVersion)
    (.new m.coverage m.ledgerInfo.protocolVersion, w.record .pass)).log_grows
  exact ⟨[.pass] ++ trace, by rw [← List.append_assoc]; exact hlog.symm⟩

/-- The failure check right behind a pass, before anything is made of what it stored. -/
theorem triple_failureCheck {source : TrackingSource} {P Q : World σ → Prop}
    {E : Halt → World σ → Prop} (hok : ∀ w, source.failure = none → P w → Q w)
    (herror : ∀ operation w, source.failure = some operation → P w →
      E (.error (.transport operation)) w) :
    Triple P (liftCapture (match source.failure with
      | some operation => throw (.transport operation)
      | none => pure ())) (fun _ => Q) E := by
  refine triple_liftCapture (fun _ w h hw => ?_) fun e w h hw => ?_
  · cases hfail : source.failure with
    | none => exact hok w hfail hw
    | some operation => rw [hfail] at h; cases h
  · cases hfail : source.failure with
    | none => rw [hfail] at h; cases h
    | some operation => rw [hfail] at h; cases h; exact herror operation w hfail hw

/-- The invariant of the discovery loop is that the log ends with the attempt that gave `m`. -/
theorem captureRounds_spec {b : CaptureBuilder σ} {scenario : Scenario Unit} :
    ∀ {rounds round : Nat} {keys : KeyMap} {m : Materialized} {w₀ w w' : World σ}
      {f : CapturedFixture} {a : Attempt} {settings : StateArchivalSettings},
    Closed b keys m w₀ w a settings → 1 ≤ round → round + rounds = b.discoveryRounds + 1 →
    b.captureRounds scenario rounds round keys m w = .ok f w' →
    ∃ r : LastRound, r.Ends b scenario w₀ w' f
  | 0, _, _, _, _, _, _, _, _, _, _, _, _, h => absurd h stop_ne_ok
  | rounds + 1, round, keys, m, w₀, w, w', f, a, settings, hclosed, hpos, hround, h => by
    rw [CaptureBuilder.captureRounds] at h
    obtain ⟨⟨passEnd, source⟩, w₁, hpass, h₁⟩ := run_bind_eq_ok.mp h
    obtain ⟨_, w₂, hfail, h₂⟩ := run_bind_eq_ok.mp h₁
    obtain ⟨stored, w₃, hstored, h₃⟩ := run_bind_eq_ok.mp h₂
    obtain ⟨⟨keys₁, added⟩, w₄, hcollect, h₄⟩ := run_bind_eq_ok.mp h₃
    rw [liftCapture_eq_ok] at hfail hstored hcollect
    obtain ⟨hfail, rfl⟩ := hfail
    obtain ⟨hstored, rfl⟩ := hstored
    obtain ⟨hcollect, rfl⟩ := hcollect
    clear h h₁ h₂ h₃
    dsimp only at h₄ hfail hstored hcollect
    have hno : source.failure = none := by
      cases hf : source.failure with
      | none => rfl
      | some operation => rw [hf] at hfail; exact absurd hfail throw_ne_ok
    obtain ⟨before, hbefore⟩ := hclosed.last
    split at h₄
    · obtain ⟨⟨keys₂, m₂⟩, w₅, hm, h₅⟩ := run_bind_eq_ok.mp h₄
      have hpre : w₀.log <+: w₁.log := by
        refine .trans ?_ (passOver_log hpass)
        rw [hbefore, List.append_assoc]
        exact List.prefix_append ..
      obtain ⟨a', settings', hclosed'⟩ := materializeClosed_spec hpre hm
      exact captureRounds_spec hclosed' (by omega) (by omega) h₅
    · next hadded =>
      rw [ne_eq, not_not] at hadded
      subst hadded
      rw [liftCapture_eq_ok] at h₄
      obtain ⟨hconcluded, rfl⟩ := h₄
      have hle : round ≤ b.discoveryRounds := by omega
      exact ⟨⟨a, settings, keys, m, before, round, passEnd, source, stored⟩,
        { gives := hclosed.gives
          closed := hclosed.closed
          pass := ⟨w, hbefore, hpass⟩
          no_failure := hno
          stored_eq := orError_eq_ok.mp hstored
          nothing_added := ⟨keys₁, hcollect⟩
          concluded := hconcluded
          round_pos := hpos
          round_le := hle }⟩

omit [Crates] in
theorem validateNetwork_orderly (b : CaptureBuilder σ) : Orderly b.validateNetwork :=
  .bind (.network _) fun _ => .bind (.lift _) fun _ => .lift _

/-- **Every capture that succeeds has a last round.** -/
theorem captureRefFromKeys_spec {b : CaptureBuilder σ} {scenario : Scenario Unit}
    {keys : KeyMap} {w w' : World σ} {f : CapturedFixture}
    (h : b.captureRefFromKeys scenario keys w = .ok f w') :
    ∃ r : LastRound, r.Ends b scenario w w' f := by
  unfold CaptureBuilder.captureRefFromKeys at h
  obtain ⟨_, w₁, hnetwork, h₁⟩ := run_bind_eq_ok.mp h
  obtain ⟨⟨keys₁, m⟩, w₂, hm, h₂⟩ := run_bind_eq_ok.mp h₁
  obtain ⟨a, settings, hclosed⟩ :=
    materializeClosed_spec ((validateNetwork_orderly b).appends hnetwork) hm
  exact captureRounds_spec hclosed (Nat.le_refl 1) (Nat.add_comm ..) h₂

/-! ## The fixture of the last round -/

theorem passOver_eq_ok {R : Type} {transport : Option (Transport σ)} {scenario : Scenario R}
    {m : Materialized} {w w' : World σ} {passEnd : PassEnd R} {source : TrackingSource} :
    passOver transport scenario m w = .ok (passEnd, source) w' ↔
      ∃ env, envFromMaterialized m = .ok env ∧
        runPass transport scenario env (.new m.coverage m.ledgerInfo.protocolVersion) w
          = (passEnd, source, w') := by
  unfold passOver
  constructor
  · intro h
    obtain ⟨env, w₁, henv, h⟩ := run_bind_eq_ok.mp h
    rw [run_lift_eq_ok] at henv
    obtain ⟨henv, rfl⟩ := henv
    simp only [EStateM.Result.ok.injEq, Prod.mk.injEq] at h
    exact ⟨env, henv, by rw [← h.1.1, ← h.1.2, ← h.2]⟩
  · rintro ⟨env, henv, h⟩
    refine run_bind_eq_ok.mpr ⟨env, w, run_lift_eq_ok.mpr ⟨henv, rfl⟩, ?_⟩
    simp only [h]

/-- What holds of every end of a scenario holds of the end of a pass. -/
theorem passOver_allResults {R : Type} {transport : Option (Transport σ)} {scenario : Scenario R}
    {m : Materialized} {w w' : World σ} {passEnd : PassEnd R} {source : TrackingSource}
    {P : PassEnd R → Prop} (hP : ∀ env protocol, (scenario env protocol).AllResults P)
    (h : passOver transport scenario m w = .ok (passEnd, source) w') : P passEnd := by
  obtain ⟨env, _, hrun⟩ := passOver_eq_ok.mp h
  have hend := Adaptive.Client.run_allResults (serve transport) _
    (.new m.coverage m.ledgerInfo.protocolVersion, w.record .pass)
    (hP env m.ledgerInfo.protocolVersion)
  rw [show ((scenario env m.ledgerInfo.protocolVersion).run (serve transport)
    (.new m.coverage m.ledgerInfo.protocolVersion, w.record .pass)).1 = passEnd
    from congrArg Prod.fst hrun] at hend
  exact hend

/-- The Present entries of a coverage, as a snapshot lists them. -/
def presentEntries (states : List (KeyId × LookupState)) : List SnapshotEntry :=
  states.filterMap fun
    | (_, .present entry liveUntil) => some (entry.toKey, (entry, liveUntil))
    | (_, .absent) => none

theorem snapshotEntries_eq_ok : ∀ {states : List (KeyId × LookupState)}
    {entries : List SnapshotEntry}, snapshotEntries states = .ok entries ↔
      entries = presentEntries states ∧
        ∀ id entry liveUntil, (id, .present entry liveUntil) ∈ states →
          isStateArchivalKey entry.toKey = false ∧ ledgerKeyToXdr entry.toKey = some id
  | [], entries => by
    rw [snapshotEntries, pure_eq_ok]
    simp only [presentEntries, List.filterMap_nil, List.not_mem_nil, false_imp_iff, implies_true,
      and_true]
    exact eq_comm
  | (_, .absent) :: rest, entries => by
    rw [snapshotEntries, snapshotEntries_eq_ok]
    simp [presentEntries]
  | (id, .present entry liveUntil) :: rest, entries => by
    rw [snapshotEntries]
    constructor
    · intro h
      obtain ⟨_, hna, h₁⟩ := bind_eq_ok.mp h
      obtain ⟨derived, hderived, h₂⟩ := bind_eq_ok.mp h₁
      obtain ⟨_, hid, h₃⟩ := bind_eq_ok.mp h₂
      obtain ⟨entries', hrest, h₄⟩ := bind_eq_ok.mp h₃
      rw [ensure_eq_ok] at hna hid
      rw [keyId_eq_ok, ← hid] at hderived
      obtain ⟨rfl, hall⟩ := snapshotEntries_eq_ok.mp hrest
      refine ⟨(pure_eq_ok.mp h₄).symm, fun id' entry' liveUntil' hmem => ?_⟩
      rcases List.mem_cons.mp hmem with heq | hmem
      · cases heq
        exact ⟨hna, hderived⟩
      · exact hall id' entry' liveUntil' hmem
    · rintro ⟨rfl, hall⟩
      obtain ⟨hna, hid⟩ := hall id entry liveUntil List.mem_cons_self
      refine bind_eq_ok.mpr ⟨⟨⟩, ensure_eq_ok.mpr hna, bind_eq_ok.mpr ⟨id, keyId_eq_ok.mpr hid,
        bind_eq_ok.mpr ⟨⟨⟩, ensure_eq_ok.mpr rfl, bind_eq_ok.mpr ⟨presentEntries rest, ?_, rfl⟩⟩⟩⟩
      exact snapshotEntries_eq_ok.mpr
        ⟨rfl, fun id' entry' liveUntil' hmem =>
          hall id' entry' liveUntil' (List.mem_cons_of_mem _ hmem)⟩

omit [Crates] in
theorem mem_presentEntries {states : List (KeyId × LookupState)} {key : LedgerKey}
    {entry : LedgerEntry} {liveUntil : Option UInt32} :
    (key, (entry, liveUntil)) ∈ presentEntries states ↔
      key = entry.toKey ∧ ∃ id, (id, LookupState.present entry liveUntil) ∈ states := by
  unfold presentEntries
  rw [List.mem_filterMap]
  constructor
  · rintro ⟨⟨id, state⟩, hmem, heq⟩
    cases state with
    | absent => simp at heq
    | present entry' liveUntil' =>
      simp only [Option.some.injEq, Prod.mk.injEq] at heq
      obtain ⟨rfl, rfl, rfl⟩ := heq
      exact ⟨rfl, id, hmem⟩
  · rintro ⟨rfl, id, hmem⟩
    exact ⟨_, hmem, rfl⟩

theorem snapshotFromMaterialized_eq_ok {m : Materialized} {snapshot : LedgerSnapshot} :
    snapshotFromMaterialized m = .ok snapshot ↔
      snapshot.toLedgerInfo = m.ledgerInfo ∧
        snapshotEntries m.coverage.toList = .ok snapshot.ledgerEntries := by
  unfold snapshotFromMaterialized
  rw [bind_eq_ok]
  constructor
  · rintro ⟨entries, hentries, h⟩
    cases pure_eq_ok.mp h
    exact ⟨rfl, hentries⟩
  · rintro ⟨hinfo, hentries⟩
    refine ⟨snapshot.ledgerEntries, hentries, pure_eq_ok.mpr ?_⟩
    rw [← hinfo]

theorem fromSnapshotWithPolicy_eq_ok {snapshot : LedgerSnapshot} {passphrase : String}
    {policy : ProtocolPolicy} {fixture : FrozenFixture} :
    FrozenFixture.fromSnapshotWithPolicy snapshot passphrase policy = .ok fixture ↔
      policy.check snapshot.protocolVersion = .ok () ∧
        snapshot.networkId = sha256 (asBytes passphrase) ∧
        fixture.snapshot = snapshot ∧ canonicalLedgerDigest snapshot = .ok fixture.ledgerDigest := by
  unfold FrozenFixture.fromSnapshotWithPolicy
  rw [bind_eq_ok]
  constructor
  · rintro ⟨_, hpolicy, h⟩
    obtain ⟨_, hnetwork, h₁⟩ := bind_eq_ok.mp h
    obtain ⟨digest, hdigest, h₂⟩ := bind_eq_ok.mp h₁
    cases pure_eq_ok.mp h₂
    exact ⟨mapError_eq_ok.mp hpolicy, ensure_eq_ok.mp hnetwork, rfl, hdigest⟩
  · rintro ⟨hpolicy, hnetwork, rfl, hdigest⟩
    exact ⟨⟨⟩, mapError_eq_ok.mpr hpolicy, bind_eq_ok.mpr ⟨⟨⟩, ensure_eq_ok.mpr hnetwork,
      bind_eq_ok.mpr ⟨_, hdigest, rfl⟩⟩⟩

/-- `f` is the fixture a builder seals of `m` in the given round. -/
structure Sealed (b : CaptureBuilder σ) (round : Nat) (m : Materialized) (f : CapturedFixture) :
    Prop where
  snapshot : snapshotFromMaterialized m = .ok f.fixture.snapshot
  frozen : FrozenFixture.fromSnapshotWithPolicy f.fixture.snapshot b.networkPassphrase
    b.protocolPolicy = .ok f.fixture
  coverage_eq : f.coverage = m.coverage
  digest : inventoryDigest f.coverage = .ok f.report.inventoryDigest
  report_eq : f.report =
    { discoveryRounds := round
      presentEntries := usize (presentCount f.coverage)
      absentEntries := usize (absentCount f.coverage)
      inventoryDigest := f.report.inventoryDigest
      finalReplayRpcReads := 0 }
  provenance_eq : f.provenance =
    { rpcOrigin := b.rpcOrigin
      networkPassphrase := b.networkPassphrase
      ledgerSequence := m.anchor.sequence
      ledgerHash := m.anchor.hash
      protocolVersion := m.anchor.protocolVersion }

theorem concludePass_spec {b : CaptureBuilder σ} {round : Nat} {m : Materialized}
    {passEnd : PassEnd Unit} {source : TrackingSource} {f : CapturedFixture}
    (h : b.concludePass round m passEnd source = .ok f) :
    passEnd.outcome.isSome = true ∧ source.rpcReads = 0 ∧ Sealed b round m f := by
  unfold CaptureBuilder.concludePass at h
  obtain ⟨_, houtcome, h₁⟩ := bind_eq_ok.mp h
  obtain ⟨_, hreads, h₂⟩ := bind_eq_ok.mp h₁
  refine ⟨ensure_eq_ok.mp houtcome, ensure_eq_ok.mp hreads, ?_⟩
  unfold CaptureBuilder.sealFixture at h₂
  obtain ⟨snapshot, hsnapshot, h₃⟩ := bind_eq_ok.mp h₂
  obtain ⟨fixture, hfixture, h₄⟩ := bind_eq_ok.mp h₃
  obtain ⟨digest, hdigest, h₅⟩ := bind_eq_ok.mp h₄
  rw [mapError_eq_ok] at hfixture
  obtain ⟨_, _, rfl, _⟩ := fromSnapshotWithPolicy_eq_ok.mp hfixture
  cases pure_eq_ok.mp h₅
  exact ⟨hsnapshot, hfixture, rfl, hdigest, rfl, rfl⟩

end Kanatoko
