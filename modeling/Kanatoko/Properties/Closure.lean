import Kanatoko.Properties.WellFormed

/-!
# Executable chains

One turn of `expand_code_closure` adds the keys that the covered executables require. Over one
map of entries, whatever the anchors are, the third turn finds nothing to add.
-/

namespace Kanatoko

open Fallible

variable [Crates]

/-! ## One turn -/

/-- A covered state requires a key for its executable chain. -/
inductive Requires (coverage : Coverage) (state : LookupState) : LedgerKey → Prop
  | wasm {hash : Hash} : state.executable? = some (.wasm hash) →
      Requires coverage state (.contractCode hash)
  | reference {externalRef : ContractExecutableExternalRef} :
      state.executable? = some (.externalRef externalRef) →
      Requires coverage state (executableRefKey externalRef)
  | code {externalRef : ContractExecutableExternalRef} {key : LedgerKey} :
      state.executable? = some (.externalRef externalRef) →
      externalRefCodeKey coverage externalRef = .ok (some key) → Requires coverage state key

theorem requiredOf_eq_ok {coverage : Coverage} {id : KeyId} {state : LookupState}
    {keys : List LedgerKey} (h : requiredOf coverage (id, state) = .ok keys) (key : LedgerKey) :
    key ∈ keys ↔ Requires coverage state key := by
  unfold requiredOf at h
  dsimp only at h
  split at h
  · next hnone =>
    cases pure_eq_ok.mp h
    refine iff_of_false (by simp) ?_
    rintro (hs | hs | hs) <;> rw [hnone] at hs <;> cases hs
  · next hash hwasm =>
    cases pure_eq_ok.mp h
    rw [List.mem_singleton]
    constructor
    · rintro rfl
      exact .wasm hwasm
    · rintro (hs | hs | ⟨hs, _⟩) <;> cases hwasm.symm.trans hs
      rfl
  · next externalRef href =>
    obtain ⟨codeKey, hcode, h⟩ := bind_eq_ok.mp h
    cases pure_eq_ok.mp h
    rw [List.mem_cons, Option.mem_toList]
    constructor
    · rintro (rfl | hmem)
      · exact .reference href
      · exact .code href (by rw [hcode, hmem])
    · rintro (hs | hs | ⟨hs, hkey⟩) <;> cases href.symm.trans hs
      · exact Or.inl rfl
      · cases hcode.symm.trans hkey
        exact Or.inr rfl
  · next hasset =>
    cases pure_eq_ok.mp h
    refine iff_of_false (by simp) ?_
    rintro (hs | hs | ⟨hs, _⟩) <;> cases hasset.symm.trans hs

theorem mem_requiredKeys {coverage : Coverage} {required : List LedgerKey}
    (h : requiredKeys coverage = .ok required) (key : LedgerKey) :
    key ∈ required ↔ ∃ (id : KeyId) (state : LookupState), coverage[id]? = some state ∧
      Requires coverage state key := by
  unfold requiredKeys at h
  obtain ⟨lists, hlists, h⟩ := bind_eq_ok.mp h
  cases pure_eq_ok.mp h
  rw [List.mem_flatten]
  constructor
  · rintro ⟨keys, hkeys, hmem⟩
    obtain ⟨⟨id, state⟩, hitem, hof⟩ := exists_of_mem_mapM hlists hkeys
    exact ⟨id, state, Std.ExtTreeMap.mem_toList_iff_getElem?_eq_some.mp hitem,
      (requiredOf_eq_ok hof key).mp hmem⟩
  · rintro ⟨id, state, hstate, hreq⟩
    obtain ⟨keys, hkeys, hof⟩ := mem_of_mapM hlists
      (Std.ExtTreeMap.mem_toList_iff_getElem?_eq_some.mpr hstate)
    exact ⟨keys, hkeys, (requiredOf_eq_ok hof key).mpr hreq⟩

theorem mem_insertKeys : ∀ {required : List LedgerKey} {keys keys' : KeyMap} {n n' : Nat},
    insertKeys required (keys, n) = .ok (keys', n') → ∀ id, id ∈ keys'.map →
      id ∈ keys.map ∨ ∃ key ∈ required, ledgerKeyToXdr key = some id
  | [], _, _, _, _, h, id, hid => by
    cases pure_eq_ok.mp h
    exact Or.inl hid
  | key :: rest, keys, keys', n, n', h, id, hid => by
    rw [insertKeys] at h
    split at h
    · exact absurd h throw_ne_ok
    · next id₀ hid₀ =>
      rcases mem_insertKeys h id hid with hmem | ⟨key', hkey', hid'⟩
      · rw [KeyMap.insert, Std.ExtTreeMap.mem_insert, Std.LawfulEqCmp.compare_eq_iff_eq] at hmem
        rcases hmem with rfl | hmem
        · exact Or.inr ⟨key, List.mem_cons_self, hid₀⟩
        · exact Or.inl hmem
      · exact Or.inr ⟨key', List.mem_cons_of_mem _ hkey', hid'⟩

/-- Keys that are all known already are not counted. -/
theorem insertKeys_known : ∀ {required : List LedgerKey} {keys keys' : KeyMap} {n n' : Nat},
    insertKeys required (keys, n) = .ok (keys', n') →
    (∀ key ∈ required, ∀ id, ledgerKeyToXdr key = some id → id ∈ keys.map) → n' = n
  | [], _, _, _, _, h, _ => by
    cases pure_eq_ok.mp h
    rfl
  | key :: rest, keys, keys', n, n', h, hknown => by
    rw [insertKeys] at h
    split at h
    · exact absurd h throw_ne_ok
    · next id hid =>
      rw [if_pos (hknown key List.mem_cons_self id hid)] at h
      refine insertKeys_known h fun key' hkey' id' hid' => ?_
      rw [KeyMap.insert, Std.ExtTreeMap.mem_insert]
      exact Or.inr (hknown key' (List.mem_cons_of_mem _ hkey') id' hid')

/-- Keys that have an encoding are inserted. -/
theorem insertKeys_isOk : ∀ {required : List LedgerKey} {acc : KeyMap × Nat},
    (∀ key ∈ required, ∃ id, ledgerKeyToXdr key = some id) →
    ∃ inserted, insertKeys required acc = .ok inserted
  | [], acc, _ => ⟨acc, rfl⟩
  | key :: rest, (keys, n), h => by
    obtain ⟨hkey, hrest⟩ := List.forall_mem_cons.mp h
    rw [insertKeys]
    split
    · next hnone =>
      obtain ⟨id, hid⟩ := hkey
      cases hnone.symm.trans hid
    · exact insertKeys_isOk hrest

/-- One turn of the closure adds to `keys` what the coverage of `m` requires. -/
def Expands (m : Materialized) (keys keys' : KeyMap) (added : Nat) : Prop :=
  ∃ required, requiredKeys m.coverage = .ok required ∧
    insertKeys required (keys, 0) = .ok (keys', added)

namespace Expands

variable {m : Materialized} {keys keys' : KeyMap} {added : Nat}

theorem keeps (h : Expands m keys keys' added) (id : KeyId) (hid : id ∈ keys.map) :
    id ∈ keys'.map := by
  obtain ⟨required, _, hins⟩ := h
  exact (insertKeys_spec hins).2.1 id hid

/-- A turn that adds nothing leaves the ids as they are. -/
theorem same (h : Expands m keys keys' 0) (id : KeyId) : id ∈ keys'.map ↔ id ∈ keys.map := by
  refine ⟨fun hid => ?_, h.keeps id⟩
  obtain ⟨required, _, hins⟩ := h
  exact (insertKeys_spec hins).2.2.2 rfl id hid

theorem mem_required (h : Expands m keys keys' added) {id : KeyId} {state : LookupState}
    (hstate : m.coverage[id]? = some state) {key : LedgerKey}
    (hkey : Requires m.coverage state key) : ∃ id, ledgerKeyToXdr key = some id ∧ id ∈ keys'.map := by
  obtain ⟨required, hreq, hins⟩ := h
  exact (insertKeys_spec hins).2.2.1 key ((mem_requiredKeys hreq key).mpr ⟨id, state, hstate, hkey⟩)

theorem old_or_required (h : Expands m keys keys' added) {id : KeyId} (hid : id ∈ keys'.map) :
    id ∈ keys.map ∨ ∃ key, ledgerKeyToXdr key = some id ∧
      ∃ (id' : KeyId) (state : LookupState), m.coverage[id']? = some state ∧
        Requires m.coverage state key := by
  obtain ⟨required, hreq, hins⟩ := h
  refine (mem_insertKeys hins id hid).imp_right ?_
  rintro ⟨key, hkey, hid'⟩
  exact ⟨key, hid', (mem_requiredKeys hreq key).mp hkey⟩

/-- A turn that went through has resolved every reference. -/
theorem resolved (h : Expands m keys keys' added) {id : KeyId} {state : LookupState}
    (hstate : m.coverage[id]? = some state) {externalRef : ContractExecutableExternalRef}
    (href : state.executable? = some (.externalRef externalRef)) :
    ∃ codeKey, externalRefCodeKey m.coverage externalRef = .ok codeKey := by
  obtain ⟨required, hreq, _⟩ := h
  unfold requiredKeys at hreq
  obtain ⟨lists, hlists, _⟩ := bind_eq_ok.mp hreq
  obtain ⟨_, _, hof⟩ := mem_of_mapM hlists
    (Std.ExtTreeMap.mem_toList_iff_getElem?_eq_some.mpr hstate)
  simp only [requiredOf, href] at hof
  obtain ⟨codeKey, hcode, _⟩ := bind_eq_ok.mp hof
  exact ⟨codeKey, hcode⟩

end Expands

/-- What a reference resolves through is no instance, so it has no executable. -/
theorem reference_not_executable {coverage : Coverage}
    {externalRef : ContractExecutableExternalRef} {codeKey : Option LedgerKey}
    (h : externalRefCodeKey coverage externalRef = .ok codeKey) {id : KeyId}
    (hid : ledgerKeyToXdr (executableRefKey externalRef) = some id) {state : LookupState}
    (hstate : coverage[id]? = some state) : state.executable? = none := by
  unfold externalRefCodeKey at h
  obtain ⟨id', hid', h⟩ := bind_eq_ok.mp h
  rw [keyId_eq_ok] at hid'
  obtain rfl := Option.some.inj (hid'.symm.trans hid)
  rw [hstate] at h
  cases state with
  | absent => rfl
  | present entry liveUntil =>
    rw [LookupState.executable?]
    dsimp only at h
    split at h
    · next data hdata =>
      split at h
      · next bytes hval => rw [hval]
      · exact absurd h throw_ne_ok
    · exact absurd h throw_ne_ok

theorem externalRefCodeKey_congr {coverage coverage' : Coverage}
    {externalRef : ContractExecutableExternalRef}
    (h : ∀ id, ledgerKeyToXdr (executableRefKey externalRef) = some id →
      coverage[id]? = coverage'[id]?) :
    externalRefCodeKey coverage externalRef = externalRefCodeKey coverage' externalRef := by
  unfold externalRefCodeKey
  cases hid : keyId (executableRefKey externalRef) with
  | error e => rfl
  | ok id =>
    have heq := h id (keyId_eq_ok.mp hid)
    simp only [bind, Except.bind, heq]

/-- A required key is of code, or of a reference some executable points to. -/
theorem Requires.kind {coverage : Coverage} {state : LookupState} {key : LedgerKey}
    (h : Requires coverage state key) : (∃ hash, key = .contractCode hash) ∨
      ∃ externalRef, state.executable? = some (.externalRef externalRef) ∧
        key = executableRefKey externalRef := by
  cases h with
  | wasm _ => exact Or.inl ⟨_, rfl⟩
  | reference href => exact Or.inr ⟨_, href, rfl⟩
  | code _ hcode =>
    obtain ⟨_, _, _, _, _, hash, _, _, _, _, _, rfl⟩ := externalRefCodeKey_some hcode
    exact Or.inl ⟨hash, rfl⟩

section Archival

variable [LawfulCrates] {id : KeyId}

theorem reference_not_archival {externalRef : ContractExecutableExternalRef}
    (hid : ledgerKeyToXdr (executableRefKey externalRef) = some id) :
    ledgerKeyToXdr stateArchivalKey ≠ some id := by
  intro hcfg
  have heq := ledgerKeyToXdr_inj hid hcfg
  rw [executableRefKey, stateArchivalKey] at heq
  cases heq

theorem code_not_archival {hash : Hash} (hid : ledgerKeyToXdr (.contractCode hash) = some id) :
    ledgerKeyToXdr stateArchivalKey ≠ some id := by
  intro hcfg
  have heq := ledgerKeyToXdr_inj hid hcfg
  cases heq

theorem Requires.not_archival {coverage : Coverage} {state : LookupState} {key : LedgerKey}
    (h : Requires coverage state key) (hid : ledgerKeyToXdr key = some id) :
    ledgerKeyToXdr stateArchivalKey ≠ some id := by
  rcases h.kind with ⟨hash, rfl⟩ | ⟨externalRef, -, rfl⟩
  · exact code_not_archival hid
  · exact reference_not_archival hid

end Archival

theorem Requires.executable {coverage : Coverage} {state : LookupState} {key : LedgerKey}
    (h : Requires coverage state key) : state.executable? ≠ none := by
  cases h <;> simp_all

/-! ## Ledgers -/

/-- The entries of a ledger under their own keys. -/
structure LedgerMap where
  entries : LedgerKey → Option FetchedEntry
  own_key : ∀ {key fetched}, entries key = some fetched → fetched.entry.toKey = key

/-- The true state of a key. -/
def LedgerMap.state (l : LedgerMap) (key : LedgerKey) : LookupState := stateOf (l.entries key)

/-- A materialization of `keys` that says the truth. -/
structure LedgerMap.Mirrored (l : LedgerMap) (keys : KeyMap) (m : Materialized) : Prop where
  covered : ∀ id, id ∈ m.coverage ↔ id ∈ keys.map ∧ ledgerKeyToXdr stateArchivalKey ≠ some id
  agrees : ∀ ⦃key : LedgerKey⦄ ⦃id : KeyId⦄ ⦃state : LookupState⦄, ledgerKeyToXdr key = some id →
    m.coverage[id]? = some state → state = l.state key

section Attempts

variable {l : LedgerMap} {a : Attempt}

omit [Crates] in
/-- Batches that were answered from the map returned what it has for the asked keys. -/
theorem Attempt.mem_returned (hperm : ∀ p ∈ a.batches, p.2.entries.Perm (p.1.filterMap l.entries))
    {fetched : FetchedEntry} :
    fetched ∈ a.returned ↔ ∃ key ∈ a.asked, l.entries key = some fetched := by
  simp only [Attempt.returned, Attempt.asked, List.mem_flatMap]
  constructor
  · rintro ⟨p, hp, hmem⟩
    obtain ⟨key, hkey, hentry⟩ := List.mem_filterMap.mp ((hperm p hp).mem_iff.mp hmem)
    exact ⟨key, ⟨p, hp, hkey⟩, hentry⟩
  · rintro ⟨key, ⟨p, hp, hkey⟩, hentry⟩
    exact ⟨p, hp, (hperm p hp).mem_iff.mpr (List.mem_filterMap.mpr ⟨key, hkey, hentry⟩)⟩

/-- An attempt that was answered from the map yields true states. -/
theorem Attempt.Gives.of_map [LawfulCrates] {σ : Type} {settings : StateArchivalSettings}
    {b : CaptureBuilder σ} {keys : KeyMap} {m : Materialized} (h : a.Gives settings b keys m)
    (hperm : ∀ p ∈ a.batches, p.2.entries.Perm (p.1.filterMap l.entries)) : l.Mirrored keys m := by
  refine ⟨h.covered, fun key id state hid hstate => ?_⟩
  cases state with
  | present entry liveUntil =>
    obtain ⟨_, hmem, hown⟩ := (h.yields.present id entry liveUntil).mp hstate
    obtain ⟨key', _, hentry⟩ := (Attempt.mem_returned hperm).mp hmem
    have hkey : entry.toKey = key' := l.own_key hentry
    rw [hkey] at hown
    obtain rfl := ledgerKeyToXdr_inj hown hid
    rw [LedgerMap.state, hentry]
    rfl
  | absent =>
    obtain ⟨hcovered, hnone⟩ := (h.yields.absent id).mp hstate
    obtain ⟨key', hasked, _, hid'⟩ := (h.yields.covered id).mp hcovered
    obtain rfl := ledgerKeyToXdr_inj hid' hid
    cases hentry : l.entries key' with
    | none => rw [LedgerMap.state, hentry]; rfl
    | some fetched =>
      refine absurd ?_ (hnone fetched ((Attempt.mem_returned hperm).mpr ⟨key', hasked, hentry⟩))
      rw [l.own_key hentry]
      exact hid'

end Attempts

omit [Crates] in
/-- A code entry has no executable. -/
theorem LedgerMap.code_not_executable (l : LedgerMap) {hash : Hash} :
    (l.state (.contractCode hash)).executable? = none := by
  cases hentry : l.entries (.contractCode hash) with
  | none => rw [LedgerMap.state, hentry]; rfl
  | some fetched =>
    have hkey := l.own_key hentry
    rw [LedgerMap.state, hentry, stateOf, LookupState.executable?]
    split
    · next data hdata => rw [LedgerEntry.toKey, hdata] at hkey; cases hkey
    · rfl

section Turns

variable [LawfulCrates] {l : LedgerMap} {keys keys' : KeyMap} {m m' : Materialized}

omit [LawfulCrates] in
/-- Two materializations that show one ledger say the same of a key both cover. -/
theorem LedgerMap.Mirrored.same (h : l.Mirrored keys m) (h' : l.Mirrored keys' m')
    {id : KeyId} {state : LookupState} (hstate : m.coverage[id]? = some state)
    (hid : id ∈ keys'.map) : m'.coverage[id]? = some state := by
  have hcovered := (h.covered id).mp
    (Std.ExtTreeMap.mem_iff_isSome_getElem?.mpr (by rw [hstate]; rfl))
  obtain ⟨key, hkey⟩ := Option.isSome_iff_exists.mp
    (Std.ExtTreeMap.mem_iff_isSome_getElem?.mp hcovered.1)
  have hxdr := keys.canonical hkey
  obtain ⟨state', hstate'⟩ := Option.isSome_iff_exists.mp
    (Std.ExtTreeMap.mem_iff_isSome_getElem?.mp ((h'.covered id).mpr ⟨hid, hcovered.2⟩))
  rw [hstate', h'.agrees hxdr hstate', h.agrees hxdr hstate]

omit [LawfulCrates] in
/-- What one turn required has no executable of its own, as a later turn finds. -/
theorem LedgerMap.Mirrored.required_not_executable (h : l.Mirrored keys m)
    (h' : l.Mirrored keys' m') {keys'' : KeyMap} {added : Nat}
    (hexpands : Expands m' keys' keys'' added) (hsub : ∀ id, id ∈ keys.map → id ∈ keys'.map)
    {id₀ id : KeyId} {state₀ state : LookupState} {key : LedgerKey}
    (hstate₀ : m.coverage[id₀]? = some state₀) (hreq : Requires m.coverage state₀ key)
    (hid : ledgerKeyToXdr key = some id) (hstate : m'.coverage[id]? = some state) :
    state.executable? = none := by
  rcases hreq.kind with ⟨hash, rfl⟩ | ⟨externalRef, href, rfl⟩
  · rw [h'.agrees hid hstate]
    exact l.code_not_executable
  · have hcovered := (h.covered id₀).mp
      (Std.ExtTreeMap.mem_iff_isSome_getElem?.mpr (by rw [hstate₀]; rfl))
    obtain ⟨codeKey, hcode⟩ := hexpands.resolved (h.same h' hstate₀ (hsub id₀ hcovered.1)) href
    exact reference_not_executable hcode hid hstate

/--
The third turn adds nothing: it finds executables among the keys of the first turn only,
whose references the second turn covered, and whose code the second turn required.
-/
theorem LedgerMap.closure_complete {keys₀ keys₁ keys₂ keys₃ : KeyMap}
    {m₀ m₁ m₂ : Materialized} {n₀ n₁ n₂ : Nat} (h₀ : l.Mirrored keys₀ m₀)
    (h₁ : l.Mirrored keys₁ m₁) (h₂ : l.Mirrored keys₂ m₂)
    (hexpands₀ : Expands m₀ keys₀ keys₁ n₀) (hexpands₁ : Expands m₁ keys₁ keys₂ n₁)
    (hexpands₂ : Expands m₂ keys₂ keys₃ n₂) : n₂ = 0 := by
  have hsub : ∀ id, id ∈ keys₀.map → id ∈ keys₂.map :=
    fun id hid => hexpands₁.keeps id (hexpands₀.keeps id hid)
  obtain ⟨required, hrequired, hins⟩ := hexpands₂
  refine insertKeys_known hins fun key hkey id hid => ?_
  obtain ⟨id', state, hstate, hreq⟩ := (mem_requiredKeys hrequired key).mp hkey
  obtain ⟨hid', hcfg⟩ := (h₂.covered id').mp
    (Std.ExtTreeMap.mem_iff_isSome_getElem?.mpr (by rw [hstate]; rfl))
  have hbase : id' ∈ keys₀.map := by
    rcases hexpands₁.old_or_required hid' with hid₁ | ⟨key', hxdr, id₁, state₁, hstate₁, hreq₁⟩
    · rcases hexpands₀.old_or_required hid₁ with hid₀ | ⟨key', hxdr, id₀, state₀, hstate₀, hreq₀⟩
      · exact hid₀
      · exact absurd (h₀.required_not_executable h₂ ⟨required, hrequired, hins⟩ hsub hstate₀ hreq₀
          hxdr hstate) hreq.executable
    · exact absurd (h₁.required_not_executable h₂ ⟨required, hrequired, hins⟩ hexpands₁.keeps
        hstate₁ hreq₁ hxdr hstate) hreq.executable
  have hstate₀ : m₀.coverage[id']? = some state := h₂.same h₀ hstate hbase
  -- a key the first or the second turn required is there
  have hrequired₀ : Requires m₀.coverage state key → id ∈ keys₂.map := by
    intro hreq₀
    obtain ⟨id₁, hxdr, hmem⟩ := hexpands₀.mem_required hstate₀ hreq₀
    cases hxdr.symm.trans hid
    exact hexpands₁.keeps _ hmem
  cases hreq with
  | wasm hwasm => exact hrequired₀ (.wasm hwasm)
  | reference href => exact hrequired₀ (.reference href)
  | @code externalRef _ href hcode =>
    have hsame : externalRefCodeKey m₁.coverage externalRef
        = externalRefCodeKey m₂.coverage externalRef := by
      refine externalRefCodeKey_congr fun refId hxdr => ?_
      obtain ⟨refId', hxdr', hmem⟩ := hexpands₀.mem_required hstate₀ (.reference href)
      cases hxdr'.symm.trans hxdr
      have hne : ledgerKeyToXdr stateArchivalKey ≠ some refId := reference_not_archival hxdr
      obtain ⟨refState, hrefState⟩ := Option.isSome_iff_exists.mp
        (Std.ExtTreeMap.mem_iff_isSome_getElem?.mp ((h₁.covered refId).mpr ⟨hmem, hne⟩))
      rw [hrefState, h₁.same h₂ hrefState (hexpands₁.keeps refId hmem)]
    have hstate₁ : m₁.coverage[id']? = some state :=
      h₀.same h₁ hstate₀ (hexpands₀.keeps id' hbase)
    obtain ⟨id₁, hxdr, hmem⟩ := hexpands₁.mem_required hstate₁ (.code href (hsame.trans hcode))
    cases hxdr.symm.trans hid
    exact hmem

end Turns

end Kanatoko
