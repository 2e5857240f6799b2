import Kanatoko.Properties.Pass
import Kanatoko.Testnet.Host

/-!
# The lookups of the two strict sources

The tracking source without a transport and the strict source without mock nonces hold the
same coverage and the same local sets. The one asks for local ownership first, the other for
the coverage, so what they answer differs on the local keys that are captured as Present.
-/

namespace Kanatoko

variable [Crates] {σ : Type}

/-! ## Two sources of one coverage -/

/-- A tracking source and a strict source over the same coverage and local sets. -/
structure SameSources (t : TrackingSource) (s : StrictSource) : Prop where
  coverage : t.cache = s.coverage
  localLedger : t.localLedger = ⟨s.localContracts, s.localCodeHashes⟩
  contracts : ∀ address ∈ s.localContracts, StrictFork.isContractAddress address = true
  noMockNonces : s.allowMockNonces = false
  unknown : t.unknown = s.unknown
  noFailure : t.failure = none

namespace StrictSource

def isLocal (s : StrictSource) (key : LedgerKey) : Bool :=
  isLocalKey key s.localContracts s.localCodeHashes s.allowMockNonces

/-- What the coverage knows of a key. -/
def stateOf? (s : StrictSource) (key : LedgerKey) : Option LookupState :=
  (ledgerKeyToXdr key).bind fun id => s.coverage[id]?

def CapturedPresent (s : StrictSource) (key : LedgerKey) : Prop :=
  ∃ entry liveUntil, s.stateOf? key = some (.present entry liveUntil)

end StrictSource

/-- The two sources answer alike, and hide nothing that was captured. -/
structure LookupsAgree (t : TrackingSource) (s : StrictSource) (w : World σ) : Prop where
  values : ∀ key, (s.stateOf? key).isSome ∨ s.isLocal key = true →
    (TrackingSource.get none key (t, w)).1 = (s.get key).1
  unknown : ∀ key, (TrackingSource.get none key (t, w)).2.1.unknown = (s.get key).2.unknown
  captured : ∀ key entry liveUntil, s.stateOf? key = some (.present entry liveUntil) →
    (TrackingSource.get none key (t, w)).1 = .ok (some (entry, liveUntil)) ∧
      (s.get key).1 = .ok (some (entry, liveUntil))

/-! ## One lookup -/

theorem get_answer (key : LedgerKey) (t : TrackingSource) (w : World σ) :
    (TrackingSource.get none key (t, w)).1 = (t.read none key w).1 ∧
      (TrackingSource.get none key (t, w)).2.1 = (t.read none key w).2.1 :=
  ⟨rfl, rfl⟩

/-- With contract addresses alone, both sources own the same keys. -/
theorem SameSources.owns {t : TrackingSource} {s : StrictSource} (h : SameSources t s)
    (key : LedgerKey) :
    t.localLedger.owns key = s.isLocal key := by
  have hnone : ∀ id, ScAddress.account id ∉ s.localContracts := fun id hid => by
    have hcontract := h.contracts _ hid
    simp [StrictFork.isContractAddress] at hcontract
  rw [h.localLedger]
  unfold LocalLedger.owns StrictSource.isLocal isLocalKey
  cases key <;> simp [h.noMockNonces, hnone]

/-- A strict lookup of a captured key is answered from the coverage. -/
theorem strict_get_known {s : StrictSource} {key : LedgerKey} {state : LookupState}
    (h : s.stateOf? key = some state) : s.get key = (.ok state.answer, s) := by
  obtain ⟨id, hid, hstate⟩ := Option.bind_eq_some_iff.mp h
  unfold StrictSource.get
  rw [hid]
  dsimp only
  rw [hstate]

theorem strict_get_unencodable {s : StrictSource} {key : LedgerKey}
    (h : ledgerKeyToXdr key = none) : s.get key = (.error .storageInternalError, s) := by
  unfold StrictSource.get
  rw [h]

/-- A strict lookup beyond the coverage finds nothing, and notes what is not local. -/
theorem strict_get_missing {s : StrictSource} {key : LedgerKey} {id : KeyId}
    (hid : ledgerKeyToXdr key = some id) (h : s.coverage[id]? = none) :
    s.get key = (.ok none,
      if s.isLocal key = true then s else { s with unknown := s.unknown.insert id }) := by
  unfold StrictSource.get
  rw [hid]
  dsimp only
  rw [h]
  dsimp only
  rw [StrictSource.isLocal]
  split <;> rfl

/-- Both sources take the same keys for unknown, whatever is local. -/
theorem SameSources.get_unknown {t : TrackingSource} {s : StrictSource} (h : SameSources t s)
    (w : World σ) (key : LedgerKey) :
    (TrackingSource.get none key (t, w)).2.1.unknown = (s.get key).2.unknown := by
  rw [(get_answer key t w).2]
  have hreads := read_reads none key t w
  generalize t.read none key w = result at hreads ⊢
  cases hreads with
  | failed hf => simp [h.noFailure] at hf
  | unencodable _ hx => rw [strict_get_unencodable hx, h.unknown]
  | owned _ hx ho =>
    obtain ⟨id, hid⟩ := Option.isSome_iff_exists.mp hx
    rw [h.owns] at ho
    cases hc : s.coverage[id]? with
    | some state =>
      rw [strict_get_known (by rw [StrictSource.stateOf?, hid, Option.bind_some, hc]), h.unknown]
    | none => rw [strict_get_missing hid hc, if_pos ho, h.unknown]
  | known id hid state _ _ hc =>
    rw [h.coverage] at hc
    rw [strict_get_known (by rw [StrictSource.stateOf?, hid, Option.bind_some, hc])]
    exact h.unknown
  | unknown id hid _ _ ho hc =>
    rw [h.coverage] at hc
    rw [h.owns] at ho
    rw [strict_get_missing hid hc, if_neg (by simp [ho]), h.unknown]
  | fetched _ _ _ htransport => cases htransport

/-- On a key that is covered or local, the answers differ only where a local key hides a
captured entry. -/
theorem SameSources.get_value {t : TrackingSource} {s : StrictSource} (h : SameSources t s)
    (w : World σ) {key : LedgerKey} (hkey : (s.stateOf? key).isSome ∨ s.isLocal key = true) :
    (TrackingSource.get none key (t, w)).1 = (s.get key).1 ↔
      ¬(s.isLocal key = true ∧ s.CapturedPresent key) := by
  rw [(get_answer key t w).1]
  have hreads := read_reads none key t w
  generalize t.read none key w = result at hreads ⊢
  cases hreads with
  | failed hf => simp [h.noFailure] at hf
  | unencodable _ hx =>
    rw [strict_get_unencodable hx]
    refine iff_of_true rfl ?_
    rintro ⟨_, entry, liveUntil, hstate⟩
    rw [StrictSource.stateOf?, hx] at hstate
    cases hstate
  | owned _ hx ho =>
    obtain ⟨id, hid⟩ := Option.isSome_iff_exists.mp hx
    rw [h.owns] at ho
    have hstate : s.stateOf? key = s.coverage[id]? := by
      rw [StrictSource.stateOf?, hid, Option.bind_some]
    cases hc : s.coverage[id]? with
    | some state =>
      rw [hc] at hstate
      rw [strict_get_known hstate, StrictSource.CapturedPresent, hstate]
      cases state <;> simp [LookupState.answer, ho]
    | none =>
      rw [hc] at hstate
      rw [strict_get_missing hid hc, StrictSource.CapturedPresent, hstate]
      simp
  | known id hid state _ ho hc =>
    rw [h.coverage] at hc
    rw [h.owns] at ho
    rw [strict_get_known (by rw [StrictSource.stateOf?, hid, Option.bind_some, hc])]
    simp [ho]
  | unknown id hid _ _ ho hc =>
    -- the key is neither covered nor local
    rw [h.coverage] at hc
    rw [h.owns] at ho
    rw [StrictSource.stateOf?, hid, Option.bind_some, hc, ho] at hkey
    simp at hkey
  | fetched _ _ _ htransport => cases htransport

/-! ## The result -/

/--
**The two sources look up alike exactly when no captured key is local.**

The sources hold the same coverage and the same sets of local contracts and code hashes. They
give the same answer on every key that is covered or local, take the same keys for unknown,
and answer every key that is captured as Present with its entry, if and only if no key that
is captured as Present belongs to a local contract or has a local code hash.
-/
theorem lookups_agree_iff {t : TrackingSource} {s : StrictSource} (h : SameSources t s) (w : World σ) :
    LookupsAgree t s w ↔ ∀ key, s.CapturedPresent key → s.isLocal key = false := by
  constructor
  · intro hagree key hpresent
    by_contra hlocal
    rw [Bool.not_eq_false] at hlocal
    have hvalue := hagree.values key (Or.inr hlocal)
    exact (h.get_value w (Or.inr hlocal)).mp hvalue ⟨hlocal, hpresent⟩
  · intro hfree
    have hvalues : ∀ key, (s.stateOf? key).isSome ∨ s.isLocal key = true →
        (TrackingSource.get none key (t, w)).1 = (s.get key).1 := by
      intro key hkey
      refine (h.get_value w hkey).mpr ?_
      rintro ⟨hlocal, hpresent⟩
      rw [hfree key hpresent] at hlocal
      cases hlocal
    refine ⟨hvalues, h.get_unknown w, fun key entry liveUntil hstate => ?_⟩
    have hstrict : (s.get key).1 = .ok (some (entry, liveUntil)) := by
      rw [strict_get_known hstate]
      rfl
    refine ⟨?_, hstrict⟩
    rw [hvalues key (Or.inl (by rw [hstate]; rfl)), hstrict]

end Kanatoko

namespace Kanatoko.Testnet

/-! ## Code that is captured and installed again -/

def emptyCode : LedgerEntry where
  lastModifiedLedgerSeq := 4983918
  data := .contractCode ⟨[0, 0, 0, 0], sha256 emptyWasm, emptyWasm⟩
  ext := .v0

/-- A coverage that has captured the module as the code of some contract. -/
def codeCoverage : Coverage :=
  match ledgerKeyToXdr emptyCode.toKey with
  | some id => (∅ : Coverage).insert id (.present emptyCode (some 5104877))
  | none => ∅

/-- The source of a replay in which the same module was deployed locally. -/
def deployedTracking : TrackingSource :=
  { TrackingSource.new codeCoverage 29 with
    localLedger := LocalLedger.empty.markCode (sha256 emptyWasm) }

/-- The source of a fork in which the same module was registered. -/
def registeredSource : StrictSource :=
  strictSource codeCoverage ∅ {sha256 emptyWasm} false

theorem deployed_alike : SameSources deployedTracking registeredSource where
  coverage := rfl
  localLedger := rfl
  contracts := by simp [registeredSource, strictSource]
  noMockNonces := rfl
  unknown := rfl
  noFailure := rfl

theorem emptyCode_captured :
    registeredSource.stateOf? emptyCode.toKey = some (.present emptyCode (some 5104877)) := by
  decide +kernel

/-- The captured code is hidden from the replay and answered by the fork. -/
theorem deployed_code_hidden : SameSources deployedTracking registeredSource ∧
    (TrackingSource.get none emptyCode.toKey (deployedTracking, nativeWorld)).1 = .ok none ∧
    (registeredSource.get emptyCode.toKey).1 = .ok (some (emptyCode, some 5104877)) ∧
    ¬LookupsAgree deployedTracking registeredSource nativeWorld := by
  have hstrict : (registeredSource.get emptyCode.toKey).1 =
      .ok (some (emptyCode, some 5104877)) := by
    rw [strict_get_known emptyCode_captured]
    rfl
  have htracking : (TrackingSource.get none emptyCode.toKey (deployedTracking, nativeWorld)).1 =
      .ok none := by
    decide +kernel
  refine ⟨deployed_alike, htracking, hstrict, fun hagree => ?_⟩
  have hcaptured := (hagree.captured _ _ _ emptyCode_captured).1
  rw [htracking] at hcaptured
  simp at hcaptured

/-- A source with a local contract of its own, which was never captured. -/
def separateSource : StrictSource := strictSource codeCoverage {smallContract 7} ∅ false

theorem separate_lookups_agree : LookupsAgree
    { TrackingSource.new codeCoverage 29 with
      localLedger := LocalLedger.empty.markAddress (smallContract 7) } separateSource
    nativeWorld := by
  have hsame : SameSources
      { TrackingSource.new codeCoverage 29 with
        localLedger := LocalLedger.empty.markAddress (smallContract 7) } separateSource :=
    ⟨rfl, rfl, by simp [separateSource, strictSource, smallContract, StrictFork.isContractAddress],
      rfl, rfl,
      rfl⟩
  refine (lookups_agree_iff hsame nativeWorld).mpr ?_
  rintro key ⟨entry, liveUntil, hstate⟩
  -- the only key of the coverage is that of the code
  obtain ⟨id, hid, hcovered⟩ := Option.bind_eq_some_iff.mp hstate
  have hkey : key = emptyCode.toKey := by
    cases hcode : ledgerKeyToXdr emptyCode.toKey with
    | none =>
      have hcoverage : codeCoverage = ∅ := by rw [codeCoverage, hcode]
      have hempty : (∅ : Coverage)[id]? = some (.present entry liveUntil) := by
        rw [← hcoverage]
        exact hcovered
      simp at hempty
    | some id' =>
      have hcoverage : codeCoverage = (∅ : Coverage).insert id'
          (.present emptyCode (some 5104877)) := by
        rw [codeCoverage, hcode]
      have hinsert : ((∅ : Coverage).insert id' (.present emptyCode (some 5104877)))[id]? =
          some (.present entry liveUntil) := by
        rw [← hcoverage]
        exact hcovered
      rw [Std.ExtTreeMap.getElem?_insert] at hinsert
      split at hinsert
      · next heq =>
        rw [Std.LawfulEqCmp.compare_eq_iff_eq] at heq
        exact ledgerKeyToXdr_inj hid (heq ▸ hcode)
      · simp at hinsert
  rw [hkey]
  rfl

end Kanatoko.Testnet
