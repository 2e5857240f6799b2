import Kanatoko.Lib.Knowledge
import Kanatoko.Properties.Canonical
import Kanatoko.Strict.Fork

/-!
# State diffs

Between two snapshots that are maps from key ids `state_diff` does not fail, and lists exactly
the key ids whose values differ. Adding such a diff to a coverage patches it: what the coverage
knew of the old ledger, it knows of the new one.
-/

namespace Kanatoko

open Fallible Knowledge

variable [Crates]

/-! ## The two maps -/

/-- A snapshot's entry and live-until ledger as a diff reports them. -/
def ledgerValue (value : PresentEntry) : LedgerValue := ⟨value.1, value.2⟩

omit [Crates] in
theorem ledgerValue_injective : Function.Injective ledgerValue := by
  rintro ⟨entry, liveUntil⟩ ⟨entry', liveUntil'⟩ h
  cases h
  rfl

/-- What `snapshot_map` keeps of an entry. -/
def mapped (x : SnapshotEntry) : LedgerKey × LedgerValue := (x.1, ledgerValue x.2)

omit [Crates] in
theorem mapped_injective : Function.Injective mapped := by
  rintro ⟨key, value⟩ ⟨key', value'⟩ h
  obtain ⟨rfl, hvalue⟩ := Prod.mk.inj h
  have heq : value = value' := ledgerValue_injective hvalue
  rw [heq]

theorem entryAt_cons (x : SnapshotEntry) (rest : List SnapshotEntry) (id : KeyId) :
    entryAt (x :: rest) id = if ledgerKeyToXdr x.1 = some id then some x else entryAt rest id := by
  unfold entryAt
  rw [List.find?_cons]
  by_cases h : ledgerKeyToXdr x.1 = some id
  · rw [if_pos h, decide_eq_true h]
  · rw [if_neg h, decide_eq_false h]

theorem entryAt_eq_none {entries : List SnapshotEntry} {id : KeyId}
    (h : some id ∉ entries.map fun x => ledgerKeyToXdr x.1) : entryAt entries id = none := by
  unfold entryAt
  rw [List.find?_eq_none]
  intro x hx hid
  exact h (List.mem_map.mpr ⟨x, hx, of_decide_eq_true hid⟩)

theorem collectSnapshot_spec : ∀ {entries : List SnapshotEntry} (map : SnapshotMap),
    (∀ x ∈ entries, (ledgerKeyToXdr x.1).isSome) →
    (entries.map fun x => ledgerKeyToXdr x.1).Nodup →
    ∃ map', collectSnapshot entries map = .ok map' ∧
      ∀ id : KeyId, map'[id]? = ((entryAt entries id).map mapped).or map[id]?
  | [], map, _, _ => ⟨map, rfl, fun _ => rfl⟩
  | (key, (entry, liveUntil)) :: rest, map, henc, hnodup => by
    obtain ⟨id₀, hid₀⟩ := Option.isSome_iff_exists.mp (henc _ List.mem_cons_self)
    rw [List.map_cons, List.nodup_cons] at hnodup
    obtain ⟨map', hrest, hget⟩ := collectSnapshot_spec (map.insert id₀ (key, ⟨entry, liveUntil⟩))
      (fun x hx => henc x (List.mem_cons_of_mem _ hx)) hnodup.2
    refine ⟨map', bind_eq_ok.mpr ⟨id₀, orError_eq_ok.mpr hid₀, hrest⟩, fun id => ?_⟩
    rw [hget, Std.ExtTreeMap.getElem?_insert, entryAt_cons]
    by_cases heq : id₀ = id
    · subst heq
      -- the id does not occur again, so nothing overwrites this entry
      rw [if_pos Std.ReflCmp.compare_self, if_pos hid₀, entryAt_eq_none (hid₀ ▸ hnodup.1)]
      rfl
    · have hne : ledgerKeyToXdr key ≠ some id := by
        rw [hid₀]
        exact fun hc => heq (Option.some.inj hc)
      rw [if_neg fun hc => heq (Std.LawfulEqCmp.eq_of_compare hc), if_neg hne]

/-- **The map of a snapshot is the map the snapshot holds.** -/
theorem Keyed.snapshotMap_spec {snapshot : LedgerSnapshot} (h : Keyed snapshot.ledgerEntries) :
    ∃ map, snapshotMap snapshot = .ok map ∧
      ∀ id : KeyId, map[id]? = (entryAt snapshot.ledgerEntries id).map mapped := by
  obtain ⟨map, hmap, hget⟩ := collectSnapshot_spec ∅ h.encoded h.distinct
  refine ⟨map, hmap, fun id => ?_⟩
  rw [hget, Std.ExtTreeMap.getElem?_empty, Option.or_none]

omit [Crates] in
theorem mem_allIds {before after : SnapshotMap} {id : KeyId} :
    id ∈ allIds before after ↔ id ∈ before ∨ id ∈ after := by
  have hfold : ∀ (l : List KeyId) (ids : Std.ExtTreeSet KeyId),
      id ∈ l.foldl (fun ids id => ids.insert id) ids ↔ id ∈ ids ∨ id ∈ l := by
    intro l
    induction l with
    | nil => simp
    | cons first rest ih =>
      intro ids
      rw [List.foldl_cons, ih, Std.ExtTreeSet.mem_insert, List.mem_cons,
        Std.LawfulEqCmp.compare_eq_iff_eq]
      tauto
  unfold allIds
  rw [Std.ExtTreeSet.mem_toList, hfold, List.mem_append, Std.ExtTreeMap.mem_keys,
    Std.ExtTreeMap.mem_keys]
  simp

/-! ## The diff -/

/-- The change of one id between two snapshots, if there is one. -/
def changeAt (before after : List SnapshotEntry) (id : KeyId) : List StateChange :=
  if held before id = held after id then []
  else ((entryAt before id).or (entryAt after id)).toList.map fun x =>
    ⟨x.1, (held before id).map ledgerValue, (held after id).map ledgerValue⟩

theorem changeOf_eq {before after : List SnapshotEntry} {beforeMap afterMap : SnapshotMap}
    {id : KeyId} (hbefore : beforeMap[id]? = (entryAt before id).map mapped)
    (hafter : afterMap[id]? = (entryAt after id).map mapped) :
    changeOf beforeMap afterMap id = .ok (changeAt before after id) := by
  have hvalue : ∀ o : Option SnapshotEntry,
      (o.map mapped).map Prod.snd = (o.map Prod.snd).map ledgerValue := by
    rintro (_ | _) <;> rfl
  have hsame : ((entryAt before id).map Prod.snd).map ledgerValue
      = ((entryAt after id).map Prod.snd).map ledgerValue ↔ held before id = held after id :=
    (Option.map_injective ledgerValue_injective).eq_iff
  unfold changeOf changeAt
  dsimp only
  rw [hbefore, hafter, hvalue, hvalue]
  by_cases heq : held before id = held after id
  · rw [if_pos (hsame.mpr heq), if_pos heq]
    rfl
  · rw [if_neg fun hc => heq (hsame.mp hc), if_neg heq]
    unfold held at heq ⊢
    cases hb : entryAt before id with
    | some x => rfl
    | none =>
      cases ha : entryAt after id with
      | some x => rfl
      | none => rw [hb, ha] at heq; exact absurd rfl heq

theorem mem_changeAt {before after : List SnapshotEntry} {id : KeyId} {change : StateChange}
    (h : change ∈ changeAt before after id) :
    ledgerKeyToXdr change.key = some id ∧ held before id ≠ held after id ∧
      change.before = (held before id).map ledgerValue ∧
      change.after = (held after id).map ledgerValue := by
  unfold changeAt at h
  split at h
  · simp at h
  · next hne =>
    obtain ⟨x, hx, rfl⟩ := List.mem_map.mp h
    rw [Option.mem_toList, Option.or_eq_some_iff] at hx
    refine ⟨?_, hne, rfl, rfl⟩
    rcases hx with hx | ⟨_, hx⟩
    · exact keyXdr_of_entryAt hx
    · exact keyXdr_of_entryAt hx

theorem exists_mem_changeAt {before after : List SnapshotEntry} {id : KeyId}
    (h : held before id ≠ held after id) : ∃ change, change ∈ changeAt before after id := by
  unfold changeAt
  rw [if_neg h]
  unfold held at h
  cases hb : entryAt before id with
  | some x => exact ⟨_, List.mem_cons_self⟩
  | none =>
    cases ha : entryAt after id with
    | some x => exact ⟨_, List.mem_cons_self⟩
    | none => rw [hb, ha] at h; exact absurd rfl h

/-- The changes are the differences of two maps, key id by key id. -/
structure Describes (changes : List StateChange) (m m' : KeyId → Option PresentEntry) : Prop where
  sound : ∀ change ∈ changes, ∃ id, ledgerKeyToXdr change.key = some id ∧ m id ≠ m' id ∧
    change.before = (m id).map ledgerValue ∧ change.after = (m' id).map ledgerValue
  complete : ∀ id, m id ≠ m' id → ∃ change ∈ changes, ledgerKeyToXdr change.key = some id

/-- The diff goes through the ids of both maps in ascending order. -/
theorem stateDiff_eq {before after : LedgerSnapshot} (hbefore : Keyed before.ledgerEntries)
    (hafter : Keyed after.ledgerEntries) :
    ∃ ids : List KeyId, (ids.Pairwise fun a b => compare a b = .lt) ∧
      (∀ id, id ∈ ids ↔ (entryAt before.ledgerEntries id).isSome ∨
        (entryAt after.ledgerEntries id).isSome) ∧
      stateDiff before after = .ok (ids.flatMap (changeAt before.ledgerEntries after.ledgerEntries)) := by
  obtain ⟨beforeMap, hbeforeMap, hgetBefore⟩ := hbefore.snapshotMap_spec
  obtain ⟨afterMap, hafterMap, hgetAfter⟩ := hafter.snapshotMap_spec
  have hchanges := mapM_eq_ok_map (l := allIds beforeMap afterMap)
    (f := changeOf beforeMap afterMap)
    (g := changeAt before.ledgerEntries after.ledgerEntries)
    (fun id _ => changeOf_eq (hgetBefore id) (hgetAfter id))
  refine ⟨allIds beforeMap afterMap, Std.ExtTreeSet.ordered_toList, fun id => ?_,
    bind_eq_ok.mpr ⟨beforeMap, hbeforeMap, bind_eq_ok.mpr ⟨afterMap, hafterMap,
      bind_eq_ok.mpr ⟨_, hchanges, rfl⟩⟩⟩⟩
  rw [mem_allIds, Std.ExtTreeMap.mem_iff_isSome_getElem?,
    Std.ExtTreeMap.mem_iff_isSome_getElem?, hgetBefore, hgetAfter, Option.isSome_map,
    Option.isSome_map]

/-- **The diff lists exactly what differs.** -/
theorem stateDiff_spec {before after : LedgerSnapshot} (hbefore : Keyed before.ledgerEntries)
    (hafter : Keyed after.ledgerEntries) :
    ∃ changes, stateDiff before after = .ok changes ∧
      Describes changes (held before.ledgerEntries) (held after.ledgerEntries) := by
  obtain ⟨ids, _, hmem, hdiff⟩ := stateDiff_eq hbefore hafter
  refine ⟨_, hdiff, fun change hchange => ?_, fun id hne => ?_⟩
  · obtain ⟨id, _, hchange⟩ := List.mem_flatMap.mp hchange
    exact ⟨id, mem_changeAt hchange⟩
  · obtain ⟨change, hchange⟩ := exists_mem_changeAt hne
    refine ⟨change, List.mem_flatMap.mpr ⟨id, (hmem id).mpr ?_, hchange⟩, (mem_changeAt hchange).1⟩
    -- one of the two holds a value under the id
    unfold held at hne
    cases hb : entryAt before.ledgerEntries id with
    | some x => exact Or.inl rfl
    | none =>
      cases ha : entryAt after.ledgerEntries id with
      | some x => exact Or.inr rfl
      | none => rw [hb, ha] at hne; exact absurd rfl hne

/-- The ids of the changes are the ids where the maps differ. -/
theorem Describes.mem_ids_iff {changes : List StateChange} {m m' : KeyId → Option PresentEntry}
    (h : Describes changes m m') {id : KeyId} :
    some id ∈ (changes.map fun change => ledgerKeyToXdr change.key) ↔ m id ≠ m' id := by
  constructor
  · intro hmem
    obtain ⟨change, hc, hid⟩ := List.mem_map.mp hmem
    obtain ⟨id', hid', hne, _⟩ := h.sound change hc
    cases Option.some.inj (hid.symm.trans hid')
    exact hne
  · intro hne
    obtain ⟨change, hc, hid⟩ := h.complete id hne
    exact List.mem_map.mpr ⟨change, hc, hid⟩

theorem Describes.eq_nil_iff {changes : List StateChange} {m m' : KeyId → Option PresentEntry}
    (h : Describes changes m m') : changes = [] ↔ m = m' := by
  constructor
  · rintro rfl
    funext id
    by_contra hne
    obtain ⟨change, hmem, _⟩ := h.complete id hne
    simp at hmem
  · rintro rfl
    rw [List.eq_nil_iff_forall_not_mem]
    intro change hmem
    obtain ⟨id, _, hne, _⟩ := h.sound change hmem
    exact hne rfl

/-! ## The coverage -/

/-- What a coverage knows of a ledger. -/
def known (coverage : Coverage) (id : KeyId) : Option (Option PresentEntry) :=
  coverage[id]?.map LookupState.answer

/-- The state a coverage has for a value, or for none. -/
def stateOfValue : Option PresentEntry → LookupState
  | some (entry, liveUntil) => .present entry liveUntil
  | none => .absent

omit [Crates] in
theorem state_eq {change : StateChange} {value : Option PresentEntry}
    (h : change.after = value.map ledgerValue) : change.state = stateOfValue value := by
  unfold StateChange.state
  rw [h]
  rcases value with _ | ⟨entry, liveUntil⟩
  · rfl
  · rfl

omit [Crates] in
@[simp] theorem answer_stateOfValue (value : Option PresentEntry) :
    (stateOfValue value).answer = value := by
  rcases value with _ | ⟨entry, liveUntil⟩
  · rfl
  · rfl

theorem updateCoverage_spec {m' : KeyId → Option PresentEntry} : ∀ {changes : List StateChange}
    (coverage : Coverage), (∀ change ∈ changes, ∃ id, ledgerKeyToXdr change.key = some id ∧
      change.after = (m' id).map ledgerValue) →
    ∃ coverage' : Coverage, StrictFork.updateCoverage changes coverage = .ok () coverage' ∧
      ∀ id : KeyId, coverage'[id]? =
        if some id ∈ changes.map fun change => ledgerKeyToXdr change.key
        then some (stateOfValue (m' id)) else coverage[id]?
  | [], coverage, _ => ⟨coverage, rfl, fun id => by simp⟩
  | change :: rest, coverage, h => by
    obtain ⟨id₀, hid₀, hafter⟩ := h change List.mem_cons_self
    obtain ⟨coverage', hrest, hget⟩ := updateCoverage_spec (coverage.insert id₀ change.state)
      (fun change' hc => h change' (List.mem_cons_of_mem _ hc))
    refine ⟨coverage', run_bind_eq_ok.mpr ⟨id₀, coverage, run_lift_eq_ok.mpr
      ⟨orError_eq_ok.mpr hid₀, rfl⟩, run_bind_eq_ok.mpr ⟨⟨⟩, _, rfl, hrest⟩⟩, fun id => ?_⟩
    rw [hget, Std.ExtTreeMap.getElem?_insert, List.map_cons, hid₀, state_eq hafter]
    by_cases heq : id₀ = id
    · subst heq
      rw [if_pos Std.ReflCmp.compare_self, if_pos List.mem_cons_self]
      split <;> rfl
    · have hmem : some id ∈ some id₀ :: rest.map (fun change => ledgerKeyToXdr change.key) ↔
          some id ∈ rest.map (fun change => ledgerKeyToXdr change.key) := by
        rw [List.mem_cons]
        exact ⟨fun hc => hc.resolve_left fun he => heq (Option.some.inj he).symm, Or.inr⟩
      rw [if_neg fun hc => heq (Std.LawfulEqCmp.eq_of_compare hc)]
      simp only [hmem]

/-- The coverage after a diff, id by id. -/
theorem Describes.getElem?_updateCoverage {changes : List StateChange}
    {m m' : KeyId → Option PresentEntry} (h : Describes changes m m') (coverage : Coverage) :
    ∃ coverage' : Coverage, StrictFork.updateCoverage changes coverage = .ok () coverage' ∧
      ∀ id : KeyId, coverage'[id]? =
        if m id = m' id then coverage[id]? else some (stateOfValue (m' id)) := by
  have hkeys : ∀ change ∈ changes, ∃ id, ledgerKeyToXdr change.key = some id ∧
      change.after = (m' id).map ledgerValue := by
    intro change hc
    obtain ⟨id, hid, _, _, hafter⟩ := h.sound change hc
    exact ⟨id, hid, hafter⟩
  obtain ⟨coverage', hok, hget⟩ := updateCoverage_spec coverage hkeys
  refine ⟨coverage', hok, fun id => ?_⟩
  rw [hget]
  by_cases heq : m id = m' id
  · rw [if_neg fun hmem => h.mem_ids_iff.mp hmem heq, if_pos heq]
  · rw [if_pos (h.mem_ids_iff.mpr heq), if_neg heq]

/-- **A diff patches what a coverage knows.** -/
theorem Describes.updateCoverage_spec {changes : List StateChange}
    {m m' : KeyId → Option PresentEntry} (h : Describes changes m m') (coverage : Coverage) :
    ∃ coverage', StrictFork.updateCoverage changes coverage = .ok () coverage' ∧
      known coverage' = patch (known coverage) m m' := by
  obtain ⟨coverage', hok, hget⟩ := h.getElem?_updateCoverage coverage
  refine ⟨coverage', hok, ?_⟩
  funext id
  unfold known patch
  rw [hget]
  split
  · rfl
  · rw [Option.map_some, answer_stateOfValue]

end Kanatoko
