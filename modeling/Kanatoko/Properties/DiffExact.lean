import Kanatoko.Properties.LedgerDigest
import Kanatoko.Properties.StateDiff

/-!
# Exact diffs

A diff between two snapshots with unique keys says all there is to say. Its changes stand in
the order of their canonical keys, replaying them on the old map gives the new one, and the
coverage of the old ledger becomes a coverage of the new.
-/

namespace Kanatoko

open Fallible

variable [Crates]

/-! ## Unique keys -/

/-- The canonical keys of a snapshot with unique keys are unique. -/
theorem keyed_of_nodup [LawfulCrates] : ∀ {entries : List SnapshotEntry},
    (entries.map Prod.fst).Nodup → (∀ x ∈ entries, (ledgerKeyToXdr x.1).isSome) → Keyed entries
  | [], _, _ => ⟨by simp, List.nodup_nil⟩
  | x :: rest, hnodup, henc => by
    rw [List.map_cons, List.nodup_cons] at hnodup
    rw [List.forall_mem_cons] at henc
    have ih := keyed_of_nodup hnodup.2 henc.2
    refine ⟨List.forall_mem_cons.mpr henc, List.nodup_cons.mpr ⟨fun hmem => ?_, ih.distinct⟩⟩
    obtain ⟨id, hid⟩ := Option.isSome_iff_exists.mp henc.1
    obtain ⟨y, hy, hyid⟩ := List.mem_map.mp hmem
    -- two keys with one encoding would be one key
    have hkey : y.1 = x.1 := ledgerKeyToXdr_inj (hyid.trans hid) hid
    exact hnodup.1 (hkey ▸ List.mem_map_of_mem hy)

theorem encoded_of_collectSnapshot : ∀ {entries : List SnapshotEntry} {map map' : SnapshotMap},
    collectSnapshot entries map = .ok map' → ∀ x ∈ entries, (ledgerKeyToXdr x.1).isSome
  | [], _, _, _ => by simp
  | (key, (entry, liveUntil)) :: rest, map, map', h => by
    obtain ⟨id, hid, hrest⟩ := bind_eq_ok.mp h
    refine List.forall_mem_cons.mpr ⟨?_, encoded_of_collectSnapshot hrest⟩
    exact Option.isSome_iff_exists.mpr ⟨id, orError_eq_ok.mp hid⟩

/-- There is a diff exactly when every key has an encoding. -/
theorem stateDiff_ok_iff [LawfulCrates] {before after : LedgerSnapshot}
    (hbefore : (before.ledgerEntries.map Prod.fst).Nodup)
    (hafter : (after.ledgerEntries.map Prod.fst).Nodup) :
    (∃ changes, stateDiff before after = .ok changes) ↔
      Keyed before.ledgerEntries ∧ Keyed after.ledgerEntries := by
  constructor
  · rintro ⟨changes, h⟩
    obtain ⟨beforeMap, hbeforeMap, h₁⟩ := bind_eq_ok.mp h
    obtain ⟨afterMap, hafterMap, _⟩ := bind_eq_ok.mp h₁
    exact ⟨keyed_of_nodup hbefore (encoded_of_collectSnapshot hbeforeMap),
      keyed_of_nodup hafter (encoded_of_collectSnapshot hafterMap)⟩
  · rintro ⟨hb, ha⟩
    obtain ⟨changes, h, _⟩ := stateDiff_spec hb ha
    exact ⟨changes, h⟩

/-! ## The two maps -/

/-- The map of a snapshot keeps what is held, and the key it stands under. -/
theorem Keyed.getElem?_snapshotMap {snapshot : LedgerSnapshot} (h : Keyed snapshot.ledgerEntries)
    {map : SnapshotMap} (hmap : snapshotMap snapshot = .ok map) (id : KeyId) :
    map[id]? = (entryAt snapshot.ledgerEntries id).map mapped := by
  obtain ⟨map', hmap', hget⟩ := h.snapshotMap_spec
  cases hmap.symm.trans hmap'
  exact hget id

theorem Keyed.snapshotMap_eq_some_iff {snapshot : LedgerSnapshot}
    (h : Keyed snapshot.ledgerEntries) {map : SnapshotMap} (hmap : snapshotMap snapshot = .ok map)
    {id : KeyId} {x : SnapshotEntry} :
    map[id]? = some (mapped x) ↔ ledgerKeyToXdr x.1 = some id ∧ x ∈ snapshot.ledgerEntries := by
  have hsome : some (mapped x) = (some x).map mapped := rfl
  rw [h.getElem?_snapshotMap hmap, hsome, (Option.map_injective mapped_injective).eq_iff,
    h.entryAt_eq_some_iff]

/-- The values of the map are the values held. -/
theorem Keyed.value_snapshotMap {snapshot : LedgerSnapshot} (h : Keyed snapshot.ledgerEntries)
    {map : SnapshotMap} (hmap : snapshotMap snapshot = .ok map) (id : KeyId) :
    map[id]?.map Prod.snd = (held snapshot.ledgerEntries id).map ledgerValue := by
  rw [h.getElem?_snapshotMap hmap, held, Option.map_map, Option.map_map]
  rfl

/-- An entry stands in a snapshot when the snapshot holds its value under its canonical key. -/
theorem Keyed.mem_iff_held [LawfulCrates] {entries : List SnapshotEntry} (h : Keyed entries)
    {id : KeyId} {key : LedgerKey} {value : PresentEntry} (hid : ledgerKeyToXdr key = some id) :
    (key, value) ∈ entries ↔ held entries id = some value := by
  rw [h.held_eq_some_iff]
  constructor
  · exact fun hmem => ⟨key, hid, hmem⟩
  · rintro ⟨key', hid', hmem⟩
    rw [ledgerKeyToXdr_inj hid hid']
    exact hmem

/-- The maps of two snapshots agree on an id when the snapshots hold one value there. -/
theorem getElem?_snapshotMap_eq_iff [LawfulCrates] {before after : LedgerSnapshot}
    {beforeMap afterMap : SnapshotMap} (hb : Keyed before.ledgerEntries)
    (ha : Keyed after.ledgerEntries) (hbefore : snapshotMap before = .ok beforeMap)
    (hafter : snapshotMap after = .ok afterMap) (id : KeyId) :
    beforeMap[id]? = afterMap[id]? ↔
      held before.ledgerEntries id = held after.ledgerEntries id := by
  rw [hb.getElem?_snapshotMap hbefore, ha.getElem?_snapshotMap hafter,
    (Option.map_injective mapped_injective).eq_iff, held, held]
  constructor
  · intro heq
    rw [heq]
  · intro heq
    cases hx : entryAt before.ledgerEntries id with
    | none =>
      rw [hx] at heq
      exact (Option.map_eq_none_iff.mp heq.symm).symm
    | some x =>
      rw [hx] at heq
      obtain ⟨y, hy, hvalue⟩ := Option.map_eq_some_iff.mp heq.symm
      -- the keys have one encoding
      have hkey : y.1 = x.1 := ledgerKeyToXdr_inj (keyXdr_of_entryAt hy) (keyXdr_of_entryAt hx)
      rw [hy, Prod.ext hkey hvalue]

/-! ## Replaying a diff -/

/-- The changes applied to the map of a snapshot, one after the other. -/
def replayChanges : List StateChange → SnapshotMap → Except StrictForkError SnapshotMap
  | [], map => pure map
  | change :: rest, map => do
    let id ← strictKeyId change.key
    replayChanges rest (match change.after with
      | some value => map.insert id (change.key, value)
      | none => map.erase id)

omit [Crates] in
/-- A replayed change decides its own id, and leaves the others. -/
theorem getElem?_replayed (change : StateChange) (map : SnapshotMap) (id id' : KeyId) :
    (match change.after with
      | some value => map.insert id (change.key, value)
      | none => map.erase id)[id']? =
      if id = id' then change.after.map fun value => (change.key, value) else map[id']? := by
  cases change.after with
  | some value =>
    show (map.insert id (change.key, value))[id']? = _
    rw [Std.ExtTreeMap.getElem?_insert]
    simp only [Std.LawfulEqCmp.compare_eq_iff_eq, Option.map_some]
  | none =>
    show (map.erase id)[id']? = _
    rw [Std.ExtTreeMap.getElem?_erase]
    simp only [Std.LawfulEqCmp.compare_eq_iff_eq, Option.map_none]

/-- **Changes that agree with a target carry a map to it.** -/
theorem replayChanges_spec {target : KeyId → Option (LedgerKey × LedgerValue)} :
    ∀ {changes : List StateChange} (map : SnapshotMap),
    (∀ change ∈ changes, ∃ id, ledgerKeyToXdr change.key = some id ∧
      (change.after.map fun value => (change.key, value)) = target id) →
    ∃ map', replayChanges changes map = .ok map' ∧ ∀ id : KeyId, map'[id]? =
      if some id ∈ changes.map fun change => ledgerKeyToXdr change.key
      then target id else map[id]?
  | [], map, _ => ⟨map, rfl, fun id => by simp⟩
  | change :: rest, map, h => by
    obtain ⟨id₀, hid₀, hafter⟩ := h change List.mem_cons_self
    obtain ⟨map', hrest, hget⟩ := replayChanges_spec (match change.after with
      | some value => map.insert id₀ (change.key, value)
      | none => map.erase id₀) fun change' hc => h change' (List.mem_cons_of_mem _ hc)
    refine ⟨map', bind_eq_ok.mpr ⟨id₀, orError_eq_ok.mpr hid₀, hrest⟩, fun id => ?_⟩
    rw [hget, getElem?_replayed, List.map_cons, hid₀, hafter]
    by_cases heq : id₀ = id
    · subst heq
      rw [if_pos rfl, if_pos List.mem_cons_self, ite_self]
    · have hmem : some id ∈ some id₀ :: rest.map (fun change => ledgerKeyToXdr change.key) ↔
          some id ∈ rest.map (fun change => ledgerKeyToXdr change.key) := by
        rw [List.mem_cons]
        exact ⟨fun hc => hc.resolve_left fun he => heq (Option.some.inj he).symm, Or.inr⟩
      rw [if_neg heq]
      simp only [hmem]

/-! ## The Present part of a coverage -/

/-- The entries a coverage holds as Present. -/
def presentPart (coverage : Coverage) (id : KeyId) : Option LedgerValue :=
  (coverage[id]?.bind LookupState.answer).map ledgerValue

/-! ## The diff -/

/-- Everything a diff between two snapshots says, and does to a coverage. -/
structure ExactDiff (before after : LedgerSnapshot) (beforeMap afterMap : SnapshotMap)
    (changes : List StateChange) : Prop where
  /-- The changes stand in strictly ascending order of their canonical keys. -/
  ascending : ∃ ids : List KeyId, (changes.map fun change => ledgerKeyToXdr change.key) =
    ids.map some ∧ ids.Pairwise fun a b => compare a b = .lt
  differs : ∀ change ∈ changes, change.before ≠ change.after
  before_true : ∀ change ∈ changes, ∀ value : PresentEntry,
    change.before = some (ledgerValue value) ↔ (change.key, value) ∈ before.ledgerEntries
  after_true : ∀ change ∈ changes, ∀ value : PresentEntry,
    change.after = some (ledgerValue value) ↔ (change.key, value) ∈ after.ledgerEntries
  replays : replayChanges changes beforeMap = .ok afterMap
  eq_nil_iff : changes = [] ↔ ∀ x, x ∈ before.ledgerEntries ↔ x ∈ after.ledgerEntries
  /-- A coverage of the old ledger becomes a coverage of the new one: removed keys, and no
  others, become absent, and what did not change stays. -/
  covers : ∀ coverage : Coverage, (∀ id, presentPart coverage id = beforeMap[id]?.map Prod.snd) →
    ∃ coverage' : Coverage, StrictFork.updateCoverage changes coverage = .ok () coverage' ∧
      (∀ id, presentPart coverage' id = afterMap[id]?.map Prod.snd) ∧
      (∀ id : KeyId, coverage'[id]? = some .absent ∧ coverage[id]? ≠ some .absent ↔
        id ∈ beforeMap ∧ id ∉ afterMap) ∧
      ∀ id : KeyId, beforeMap[id]? = afterMap[id]? → coverage'[id]? = coverage[id]?

/-- The ids of the changes are the ids that differ, in the order they are gone through. -/
theorem map_key_flatMap_changeAt {before after : List SnapshotEntry} : ∀ ids : List KeyId,
    ((ids.flatMap (changeAt before after)).map fun change => ledgerKeyToXdr change.key) =
      (ids.filter fun id => decide (held before id ≠ held after id)).map some
  | [] => rfl
  | id :: rest => by
    rw [List.flatMap_cons, List.map_append, map_key_flatMap_changeAt rest]
    by_cases heq : held before id = held after id
    · rw [List.filter_cons_of_neg (by simp [heq]), changeAt, if_pos heq]
      rfl
    · obtain ⟨change, hmem⟩ := exists_mem_changeAt heq
      have hid := (mem_changeAt hmem).1
      rw [List.filter_cons_of_pos (by simp [heq]), List.map_cons]
      unfold changeAt at hmem ⊢
      rw [if_neg heq] at hmem ⊢
      cases hx : (entryAt before id).or (entryAt after id) with
      | none => rw [hx] at hmem; simp at hmem
      | some x =>
        rw [hx] at hmem
        cases List.mem_singleton.mp hmem
        show [ledgerKeyToXdr x.1] ++ _ = _
        rw [hid]
        rfl

theorem covers_of_describes {beforeMap afterMap : SnapshotMap} {changes : List StateChange}
    {m m' : KeyId → Option PresentEntry} (h : Describes changes m m')
    (hbefore : ∀ id : KeyId, beforeMap[id]?.map Prod.snd = (m id).map ledgerValue)
    (hafter : ∀ id : KeyId, afterMap[id]?.map Prod.snd = (m' id).map ledgerValue)
    {coverage : Coverage} (hpart : ∀ id, presentPart coverage id = beforeMap[id]?.map Prod.snd) :
    ∃ coverage' : Coverage, StrictFork.updateCoverage changes coverage = .ok () coverage' ∧
      (∀ id, presentPart coverage' id = afterMap[id]?.map Prod.snd) ∧
      (∀ id : KeyId, coverage'[id]? = some .absent ∧ coverage[id]? ≠ some .absent ↔
        id ∈ beforeMap ∧ id ∉ afterMap) ∧
      ∀ id : KeyId, beforeMap[id]? = afterMap[id]? → coverage'[id]? = coverage[id]? := by
  obtain ⟨coverage', hok, hget⟩ := h.getElem?_updateCoverage coverage
  have hmem : ∀ {map : SnapshotMap} {n : KeyId → Option PresentEntry} {id : KeyId},
      (∀ id : KeyId, map[id]?.map Prod.snd = (n id).map ledgerValue) →
      (id ∈ map ↔ n id ≠ none) := by
    intro map n id hmap
    have hsome := congrArg Option.isSome (hmap id)
    rw [Option.isSome_map, Option.isSome_map] at hsome
    rw [Std.ExtTreeMap.mem_iff_isSome_getElem?, hsome, Option.isSome_iff_ne_none]
  have hpart' : ∀ id, (coverage[id]?.bind LookupState.answer) = m id := by
    intro id
    have hid := (hpart id).trans (hbefore id)
    exact Option.map_injective ledgerValue_injective hid
  refine ⟨coverage', hok, fun id => ?_, fun id => ?_, fun id heq => ?_⟩
  · rw [hafter, presentPart, hget]
    split
    · next heq => rw [hpart', heq]
    · rw [Option.bind_some, answer_stateOfValue]
  · rw [hmem hbefore, hmem hafter, hget]
    split
    · next heq =>
      rw [heq]
      tauto
    · next hne =>
      constructor
      · rintro ⟨habsent, _⟩
        cases hv : m' id with
        | none => exact ⟨fun hm => hne (hm.trans hv.symm), fun hc => hc rfl⟩
        | some value => rw [hv] at habsent; cases habsent
      · rintro ⟨hm, hm'⟩
        rw [not_not] at hm'
        refine ⟨by rw [hm']; rfl, fun hc => hm ?_⟩
        rw [← hpart', hc]
        rfl
  · have hvalue := congrArg (Option.map Prod.snd) heq
    rw [hbefore, hafter] at hvalue
    rw [hget, if_pos (Option.map_injective ledgerValue_injective hvalue)]

/-- The true values of a change are the values the snapshot holds. -/
theorem value_of_change [LawfulCrates] {entries : List SnapshotEntry} (h : Keyed entries)
    {key : LedgerKey} {id : KeyId} (hid : ledgerKeyToXdr key = some id) {o : Option LedgerValue}
    (ho : o = (held entries id).map ledgerValue) (value : PresentEntry) :
    o = some (ledgerValue value) ↔ (key, value) ∈ entries := by
  have hsome : some (ledgerValue value) = (some value).map ledgerValue := rfl
  rw [ho, hsome, (Option.map_injective ledgerValue_injective).eq_iff, h.mem_iff_held hid]

/-- Snapshots hold one map exactly when they have the same entries. -/
theorem held_eq_iff [LawfulCrates] {a b : List SnapshotEntry} (ha : Keyed a) (hb : Keyed b) :
    held a = held b ↔ ∀ x, x ∈ a ↔ x ∈ b := by
  constructor
  · intro heq x
    have hone : ∀ {c d : List SnapshotEntry}, Keyed c → Keyed d → held c = held d →
        x ∈ c → x ∈ d := by
      intro c d hc hd heq hx
      obtain ⟨id, hid⟩ := Option.isSome_iff_exists.mp (hc.encoded x hx)
      rw [← Prod.mk.eta (p := x), hd.mem_iff_held hid, ← heq]
      exact (hc.mem_iff_held hid).mp hx
    exact ⟨hone ha hb heq, hone hb ha heq.symm⟩
  · intro hmem
    funext id
    refine Option.ext fun value => ?_
    rw [ha.held_eq_some_iff, hb.held_eq_some_iff]
    simp only [hmem]

/-- Replaying a diff replaces what differs. -/
theorem replayChanges_of_describes [LawfulCrates] {after : List SnapshotEntry}
    {afterMap : SnapshotMap} {changes : List StateChange} {m : KeyId → Option PresentEntry}
    (h : Describes changes m (held after))
    (hafter : ∀ id : KeyId, afterMap[id]? = (entryAt after id).map mapped) (map : SnapshotMap) :
    ∃ map', replayChanges changes map = .ok map' ∧ ∀ id : KeyId, map'[id]? =
      if m id = held after id then map[id]? else afterMap[id]? := by
  have htarget : ∀ change ∈ changes, ∃ id, ledgerKeyToXdr change.key = some id ∧
      (change.after.map fun value => (change.key, value)) = afterMap[id]? := by
    intro change hmem
    obtain ⟨id, hid, _, _, hnew⟩ := h.sound change hmem
    refine ⟨id, hid, ?_⟩
    rw [hnew, hafter, held]
    cases hx : entryAt after id with
    | none => rfl
    | some x =>
      have hkey : x.1 = change.key := ledgerKeyToXdr_inj (keyXdr_of_entryAt hx) hid
      rw [← hkey]
      rfl
  obtain ⟨map', hmap, hget⟩ := replayChanges_spec map htarget
  refine ⟨map', hmap, fun id => ?_⟩
  rw [hget]
  by_cases heq : m id = held after id
  · rw [if_neg fun hmem => h.mem_ids_iff.mp hmem heq, if_pos heq]
  · rw [if_pos (h.mem_ids_iff.mpr heq), if_neg heq]

theorem exactDiff_of_keyed [LawfulCrates] {before after : LedgerSnapshot}
    {beforeMap afterMap : SnapshotMap} {changes : List StateChange}
    (hb : Keyed before.ledgerEntries) (ha : Keyed after.ledgerEntries)
    (hbefore : snapshotMap before = .ok beforeMap) (hafter : snapshotMap after = .ok afterMap)
    (hdiff : stateDiff before after = .ok changes) :
    ExactDiff before after beforeMap afterMap changes := by
  obtain ⟨ids, hascending, _, hdiff'⟩ := stateDiff_eq hb ha
  cases hdiff.symm.trans hdiff'
  obtain ⟨changes, hdiff', hdescribes⟩ := stateDiff_spec hb ha
  cases hdiff.symm.trans hdiff'
  refine ⟨⟨_, map_key_flatMap_changeAt ids, hascending.filter _⟩, fun change hmem => ?_,
    fun change hmem => ?_, fun change hmem => ?_, ?_, ?_, fun coverage hpart => ?_⟩
  · obtain ⟨id, _, hne, hold, hnew⟩ := hdescribes.sound change hmem
    rw [hold, hnew]
    exact fun heq => hne (Option.map_injective ledgerValue_injective heq)
  · obtain ⟨id, hid, _, hold, _⟩ := hdescribes.sound change hmem
    exact value_of_change hb hid hold
  · obtain ⟨id, hid, _, _, hnew⟩ := hdescribes.sound change hmem
    exact value_of_change ha hid hnew
  · obtain ⟨map, hmap, hget⟩ :=
      replayChanges_of_describes hdescribes (ha.getElem?_snapshotMap hafter) beforeMap
    rw [hmap]
    refine congrArg Except.ok (Std.ExtTreeMap.ext_getElem? fun id => ?_)
    rw [hget]
    by_cases heq : held before.ledgerEntries id = held after.ledgerEntries id
    · rw [if_pos heq]
      exact (getElem?_snapshotMap_eq_iff hb ha hbefore hafter id).mpr heq
    · rw [if_neg heq]
  · rw [hdescribes.eq_nil_iff, held_eq_iff hb ha]
  · exact covers_of_describes hdescribes (hb.value_snapshotMap hbefore)
      (ha.value_snapshotMap hafter) hpart

/--
**State diffs and coverage updates are exact.**

Between two snapshots with unique keys there is a diff exactly when the keys have encodings,
and the diff says everything that changed, in order, and nothing else.
-/
theorem state_diff_exact [LawfulCrates] {before after : LedgerSnapshot}
    (hbefore : (before.ledgerEntries.map Prod.fst).Nodup)
    (hafter : (after.ledgerEntries.map Prod.fst).Nodup) :
    ((∃ changes, stateDiff before after = .ok changes) ↔
      (∀ x ∈ before.ledgerEntries, (ledgerKeyToXdr x.1).isSome) ∧
      ∀ x ∈ after.ledgerEntries, (ledgerKeyToXdr x.1).isSome) ∧
    ∀ changes, stateDiff before after = .ok changes →
      ∃ beforeMap afterMap, snapshotMap before = .ok beforeMap ∧ snapshotMap after = .ok afterMap ∧
        (∀ id x, beforeMap[id]? = some (mapped x) ↔
          ledgerKeyToXdr x.1 = some id ∧ x ∈ before.ledgerEntries) ∧
        (∀ id x, afterMap[id]? = some (mapped x) ↔
          ledgerKeyToXdr x.1 = some id ∧ x ∈ after.ledgerEntries) ∧
        ExactDiff before after beforeMap afterMap changes := by
  have hiff := stateDiff_ok_iff hbefore hafter
  constructor
  · rw [hiff]
    exact ⟨fun h => ⟨h.1.encoded, h.2.encoded⟩,
      fun h => ⟨keyed_of_nodup hbefore h.1, keyed_of_nodup hafter h.2⟩⟩
  · intro changes hdiff
    obtain ⟨hb, ha⟩ := hiff.mp ⟨changes, hdiff⟩
    obtain ⟨beforeMap, hbeforeMap, _⟩ := hb.snapshotMap_spec
    obtain ⟨afterMap, hafterMap, _⟩ := ha.snapshotMap_spec
    exact ⟨beforeMap, afterMap, hbeforeMap, hafterMap,
      fun _ _ => hb.snapshotMap_eq_some_iff hbeforeMap,
      fun _ _ => ha.snapshotMap_eq_some_iff hafterMap,
      exactDiff_of_keyed hb ha hbeforeMap hafterMap hdiff⟩

end Kanatoko

namespace Kanatoko.Pair

open Testnet

/-! ## A prolonged and a removed entry -/

def prolongedItem : SnapshotEntry := (nativeEntry.toKey, (nativeEntry, some 8000000))

def bothItems : LedgerSnapshot := { nativeInfo with ledgerEntries := [nativeItem, accountItem] }
def prolongedOnly : LedgerSnapshot := { nativeInfo with ledgerEntries := [prolongedItem] }

/-- The diff between the two ledgers exists, has a change, and replays. -/
theorem prolonged_diff : ∃ changes beforeMap afterMap,
    stateDiff bothItems prolongedOnly = .ok changes ∧ changes ≠ [] ∧
      snapshotMap bothItems = .ok beforeMap ∧ snapshotMap prolongedOnly = .ok afterMap ∧
      replayChanges changes beforeMap = .ok afterMap := by
  have hexact := @state_diff_exact _ _ bothItems prolongedOnly
    (by decide +kernel) (by decide +kernel)
  obtain ⟨changes, hdiff⟩ := hexact.1.mpr ⟨by decide +kernel, by decide +kernel⟩
  obtain ⟨beforeMap, afterMap, hbefore, hafter, _, _, hchanges⟩ := hexact.2 changes hdiff
  refine ⟨changes, beforeMap, afterMap, hdiff, fun hnil => ?_, hbefore, hafter, hchanges.replays⟩
  have hmem : accountItem ∈ prolongedOnly.ledgerEntries :=
    (hchanges.eq_nil_iff.mp hnil accountItem).mp (by simp [bothItems])
  revert hmem
  decide +kernel

end Kanatoko.Pair
