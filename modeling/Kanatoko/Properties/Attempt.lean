import Kanatoko.Capture.Builder

/-!
# What a coherent attempt yields

`materialize` returns the result of one attempt: two equal anchors around batches that all
name the same ledger. `Attempt` states what such a result is in terms of the batches alone,
and `materialize_spec` shows that the attempt is the last thing `materialize` did.
-/

namespace Kanatoko

open Fallible

variable [Crates] {σ : Type}

/-! ## Batches -/

/-- An entry is returned under the id of its own key. -/
def FetchedEntry.HasId (fetched : FetchedEntry) (id : KeyId) : Prop :=
  ledgerKeyToXdr fetched.entry.toKey = some id

/-- The loop files each entry under its own id, and every entry was asked for. -/
theorem collectReturned_spec {ids : List KeyId} : ∀ {entries : List FetchedEntry}
    {acc returned : Std.ExtTreeMap KeyId FetchedEntry},
    collectReturned ids entries acc = .ok returned →
    (∀ id fetched, returned[id]? = some fetched ↔
      acc[id]? = some fetched ∨ fetched ∈ entries ∧ fetched.HasId id) ∧
    ∀ fetched ∈ entries, ∃ id ∈ ids, fetched.HasId id
  | [], acc, returned, h => by
    rw [collectReturned, pure_eq_ok] at h
    subst h
    simp
  | first :: rest, acc, returned, h => by
    rw [collectReturned] at h
    obtain ⟨first_id, hid, h⟩ := bind_eq_ok.mp h
    obtain ⟨_, hok, h⟩ := bind_eq_ok.mp h
    rw [keyId_eq_ok] at hid
    obtain ⟨hreq, hnew⟩ := ensure_eq_ok.mp hok
    obtain ⟨hret, hasked⟩ := collectReturned_spec h
    refine ⟨fun id fetched => ?_, ?_⟩
    · rw [hret, Std.ExtTreeMap.getElem?_insert, List.mem_cons]
      by_cases he : first_id = id
      · subst he
        rw [if_pos Std.ReflCmp.compare_self]
        have hacc : acc[first_id]? = none := by simpa using hnew
        constructor
        · rintro (hf | ⟨hf, hi⟩)
          · cases hf
            exact Or.inr ⟨Or.inl rfl, hid⟩
          · exact Or.inr ⟨Or.inr hf, hi⟩
        · rintro (hf | ⟨rfl | hf, hi⟩)
          · rw [hacc] at hf; cases hf
          · exact Or.inl rfl
          · exact Or.inr ⟨hf, hi⟩
      · rw [if_neg (fun hc => he (Std.LawfulEqCmp.eq_of_compare hc))]
        constructor
        · rintro (hf | ⟨hf, hi⟩)
          · exact Or.inl hf
          · exact Or.inr ⟨Or.inr hf, hi⟩
        · rintro (hf | ⟨rfl | hf, hi⟩)
          · exact Or.inl hf
          · exact absurd (Option.some.inj (hid.symm.trans hi)) he
          · exact Or.inr ⟨hf, hi⟩
    · intro fetched hmem
      rcases List.mem_cons.mp hmem with rfl | hmem
      · exact ⟨first_id, hreq, hid⟩
      · exact hasked fetched hmem

/-- A valid batch holds at most one entry for each requested key, and nothing else. -/
theorem validateBatch_spec {requested : List LedgerKey} {entries : List FetchedEntry}
    {returned : Std.ExtTreeMap KeyId FetchedEntry}
    (h : validateBatch requested entries = .ok returned) :
    (∀ id fetched, returned[id]? = some fetched ↔ fetched ∈ entries ∧ fetched.HasId id) ∧
    ∀ fetched ∈ entries, ∃ key ∈ requested, ∃ id,
      ledgerKeyToXdr key = some id ∧ fetched.HasId id := by
  unfold validateBatch at h
  obtain ⟨ids, hids, h⟩ := bind_eq_ok.mp h
  obtain ⟨hret, hasked⟩ := collectReturned_spec h
  refine ⟨fun id fetched => by simpa using hret id fetched, ?_⟩
  intro fetched hmem
  obtain ⟨id, hid, hfid⟩ := hasked fetched hmem
  obtain ⟨key, hkey, hxdr⟩ := exists_of_mem_mapM hids hid
  exact ⟨key, hkey, id, keyId_eq_ok.mp hxdr, hfid⟩

omit [Crates] in
theorem extractArchival_eq_ok {o : Option FetchedEntry} {settings : StateArchivalSettings} :
    extractArchival o = .ok settings ↔
      ∃ fetched, o = some fetched ∧
        fetched.entry.data = .configSetting (.stateArchival settings) := by
  unfold extractArchival
  cases o with
  | none => simp
  | some fetched =>
    simp only [Option.some.injEq, exists_eq_left']
    split
    · next s hd => rw [pure_eq_ok, hd]; simp
    · next hd => exact ⟨fun h => by simp at h, fun h => absurd h (hd settings)⟩

/-! ## One batch -/

omit [Crates] in
/-- Filing a batch sets the state of its keys, and the archival settings if it asked for them. -/
theorem fileChunk_spec {configId : KeyId} {returned : Std.ExtTreeMap KeyId FetchedEntry} :
    ∀ {chunk : List (KeyId × LedgerKey)} {fetched fetched' : Fetched},
    fileChunk configId returned chunk fetched = .ok fetched' →
    (∀ id, fetched'.coverage[id]? =
      if id ∈ chunk.map Prod.fst ∧ id ≠ configId then some (stateOf returned[id]?)
      else fetched.coverage[id]?) ∧
    (configId ∈ chunk.map Prod.fst → ∃ settings,
      extractArchival returned[configId]? = .ok settings ∧ fetched'.archival = some settings) ∧
    (configId ∉ chunk.map Prod.fst → fetched'.archival = fetched.archival)
  | [], fetched, fetched', h => by
    rw [fileChunk, pure_eq_ok] at h
    subst h
    simp
  | (id₀, key₀) :: rest, fetched, fetched', h => by
    rw [fileChunk] at h
    simp only [List.map_cons, List.mem_cons]
    split at h
    · next heq =>
      subst heq
      obtain ⟨settings, hs, h⟩ := bind_eq_ok.mp h
      obtain ⟨hcov, hin, hout⟩ := fileChunk_spec h
      refine ⟨fun id => ?_, fun _ => ?_, fun hn => absurd (Or.inl rfl) hn⟩
      · rw [hcov]
        by_cases he : id = id₀
        · simp [he]
        · simp only [he, false_or]
      · by_cases hm : id₀ ∈ rest.map Prod.fst
        · exact hin hm
        · exact ⟨settings, hs, hout hm⟩
    · next hne =>
      obtain ⟨hcov, hin, hout⟩ := fileChunk_spec h
      refine ⟨fun id => ?_, fun hm => ?_, fun hn => ?_⟩
      · rw [hcov, Std.ExtTreeMap.getElem?_insert]
        by_cases he : id₀ = id
        · subst he
          simp [hne]
        · have hcmp : ¬ compare id₀ id = .eq := fun hc => he (Std.LawfulEqCmp.eq_of_compare hc)
          have hne' : ¬ id = id₀ := fun hc => he hc.symm
          simp only [hcmp, hne', false_or, if_false]
      · rcases hm with hm | hm
        · exact absurd hm.symm hne
        · exact hin hm
      · exact hout fun hm => hn (Or.inr hm)

/-! ## All batches of an attempt -/

/-- A batch of requested keys under their ids, and its answer. -/
abbrev ChunkBatch := List (KeyId × LedgerKey) × EntryBatch

def ChunkBatch.event (p : ChunkBatch) : Event := .ledgerEntries (p.1.map Prod.snd) (.ok p.2)

/-- What the answer of one batch contributes to the result of an attempt. -/
structure ChunkBatch.Files (configId : KeyId) (sequence : UInt32) (fetched : Fetched)
    (p : ChunkBatch) : Prop where
  sequence_eq : p.2.latestLedger = sequence
  answered : ∃ returned, validateBatch (p.1.map Prod.snd) p.2.entries = .ok returned ∧
    (∀ id ∈ p.1.map Prod.fst, id ≠ configId →
      fetched.coverage[id]? = some (stateOf returned[id]?)) ∧
    (configId ∈ p.1.map Prod.fst → ∃ settings,
      extractArchival returned[configId]? = .ok settings ∧ fetched.archival = some settings)

/--
The batches of one attempt. The ids of all chunks are distinct, so what a batch has filed
no later batch files again.
-/
theorem fetchChunks_spec {b : CaptureBuilder σ} {configId : KeyId} {sequence : UInt32} :
    ∀ {chunks : List (List (KeyId × LedgerKey))} {fetched fetched' : Fetched} {w w' : World σ},
    (chunks.flatten.map Prod.fst).Nodup →
    b.fetchChunks configId sequence chunks fetched w = .ok (some fetched') w' →
    ∃ batches : List ChunkBatch, batches.map Prod.fst = chunks ∧
      w'.log = w.log ++ batches.map ChunkBatch.event ∧
      (∀ p ∈ batches, p.Files configId sequence fetched') ∧
      (∀ id, id ∉ chunks.flatten.map Prod.fst ∨ id = configId →
        fetched'.coverage[id]? = fetched.coverage[id]?) ∧
      (configId ∉ chunks.flatten.map Prod.fst → fetched'.archival = fetched.archival)
  | [], fetched, fetched', w, w', _, h => by
    rw [CaptureBuilder.fetchChunks, run_pure_eq_ok] at h
    obtain ⟨hf, hw⟩ := h
    cases hf
    exact ⟨[], rfl, by simp [hw], by simp, fun _ _ => rfl, fun _ => rfl⟩
  | chunk :: rest, fetched, fetched', w, w', hnd, h => by
    rw [List.flatten_cons, List.map_append, List.nodup_append] at hnd
    obtain ⟨_, hndRest, hdisj⟩ := hnd
    rw [CaptureBuilder.fetchChunks] at h
    obtain ⟨batch, w₁, hcall, h⟩ := run_bind_eq_ok.mp h
    rw [call_eq_ok] at hcall
    split at h
    · simp at h
    · next hseq =>
      obtain ⟨returned, w₂, hval, h⟩ := run_bind_eq_ok.mp h
      obtain ⟨fetched₁, w₃, hfile, h⟩ := run_bind_eq_ok.mp h
      rw [liftCapture_eq_ok] at hval hfile
      obtain ⟨hval, rfl⟩ := hval
      obtain ⟨hfile, rfl⟩ := hfile
      obtain ⟨batches, hmap, hlog, hfiles, hkeep, hkeepArchival⟩ := fetchChunks_spec hndRest h
      obtain ⟨hcov, hin, hout⟩ := fileChunk_spec hfile
      have hlog₁ : w₁.log = w.log ++ [.ledgerEntries (chunk.map Prod.snd) (.ok batch)] := by
        rw [← hcall.2, World.ledgerEntries_log, hcall.1]
      refine ⟨(chunk, batch) :: batches, by rw [List.map_cons, hmap], ?_, ?_, ?_, ?_⟩
      · rw [hlog, hlog₁, List.append_assoc]
        rfl
      · intro p hp
        rcases List.mem_cons.mp hp with rfl | hp
        · refine ⟨by simpa using hseq, returned, hval, ?_, ?_⟩
          · intro id hid hne
            have hnot : id ∉ rest.flatten.map Prod.fst := fun hm => hdisj id hid id hm rfl
            rw [hkeep id (Or.inl hnot), hcov, if_pos ⟨hid, hne⟩]
          · intro hid
            obtain ⟨settings, hs, ha⟩ := hin hid
            have hnot : configId ∉ rest.flatten.map Prod.fst :=
              fun hm => hdisj configId hid configId hm rfl
            exact ⟨settings, hs, by rw [hkeepArchival hnot, ha]⟩
        · exact hfiles p hp
      · intro id hid
        rw [List.flatten_cons, List.map_append, List.mem_append, not_or] at hid
        rcases hid with ⟨h1, h2⟩ | rfl
        · rw [hkeep id (Or.inl h2), hcov, if_neg (fun hc => h1 hc.1)]
        · rw [hkeep id (Or.inr rfl), hcov, if_neg (fun hc => hc.2 rfl)]
      · intro hn
        rw [List.flatten_cons, List.map_append, List.mem_append, not_or] at hn
        rw [hkeepArchival hn.2, hout hn.1]

theorem fetchChunks_orderly (b : CaptureBuilder σ) (configId : KeyId) (sequence : UInt32) :
    ∀ (chunks : List (List (KeyId × LedgerKey))) (fetched : Fetched),
      Orderly (b.fetchChunks configId sequence chunks fetched)
  | [], fetched => .pure _
  | chunk :: rest, fetched => by
    rw [CaptureBuilder.fetchChunks]
    refine .bind (.ledgerEntries _ _) fun batch => ?_
    split
    · exact .pure _
    · exact .bind (.lift _) fun _ => .bind (.lift _) fun _ =>
        fetchChunks_orderly b configId sequence rest _

/-! ## Attempts -/

/-- One attempt of `materialize` as the log shows it: one anchor around its batches. -/
structure Attempt where
  anchor : Anchor
  batches : List (List LedgerKey × EntryBatch)

namespace Attempt

def events (a : Attempt) : List Event :=
  .latestLedger (.ok a.anchor) :: a.batches.map (fun p => .ledgerEntries p.1 (.ok p.2))
    ++ [.latestLedger (.ok a.anchor)]

/-- The keys the batches asked for. -/
def asked (a : Attempt) : List LedgerKey := a.batches.flatMap Prod.fst

/-- The entries the batches returned. -/
def returned (a : Attempt) : List FetchedEntry := a.batches.flatMap fun p => p.2.entries

/-- The batches are of one ledger, of bounded size, and ask for no key twice. -/
structure Coherent (a : Attempt) : Prop where
  sequence : ∀ p ∈ a.batches, p.2.latestLedger = a.anchor.sequence
  size : ∀ p ∈ a.batches, p.1.length ≤ maxKeysPerBatch
  asked_once : a.asked.Nodup

/-- The coverage and the archival settings are what the batches returned. -/
structure Yields (a : Attempt) (coverage : Coverage) (settings : StateArchivalSettings) :
    Prop where
  covered : ∀ id, id ∈ coverage ↔
    ∃ key ∈ a.asked, key ≠ stateArchivalKey ∧ ledgerKeyToXdr key = some id
  present : ∀ id entry liveUntil, coverage[id]? = some (.present entry liveUntil) ↔
    id ∈ coverage ∧ ⟨entry, liveUntil⟩ ∈ a.returned ∧ ledgerKeyToXdr entry.toKey = some id
  absent : ∀ id, coverage[id]? = some .absent ↔
    id ∈ coverage ∧ ∀ fetched ∈ a.returned, ledgerKeyToXdr fetched.entry.toKey ≠ some id
  archival_asked : stateArchivalKey ∈ a.asked
  archival : ∃ fetched ∈ a.returned, fetched.entry.toKey = stateArchivalKey ∧
    fetched.entry.data = .configSetting (.stateArchival settings)

end Attempt

/-! ## What the batches of an attempt yield -/

/-- The attempt that a list of chunk batches makes up. -/
def Attempt.ofBatches (anchor : Anchor) (batches : List ChunkBatch) : Attempt :=
  ⟨anchor, batches.map fun p => (p.1.map Prod.snd, p.2)⟩

/-- A batch answers an id with the entry of that id, if it returned one. -/
theorem ChunkBatch.Files.state_of {configId : KeyId} {sequence : UInt32} {fetched : Fetched}
    {p : ChunkBatch} (hfiles : p.Files configId sequence fetched) {id : KeyId}
    (hid : id ∈ p.1.map Prod.fst) (hne : id ≠ configId) :
    ∃ o : Option FetchedEntry, fetched.coverage[id]? = some (stateOf o) ∧
      ∀ e, o = some e ↔ e ∈ p.2.entries ∧ e.HasId id := by
  obtain ⟨returned, hval, hstate, _⟩ := hfiles.answered
  exact ⟨returned[id]?, hstate id hid hne, (validateBatch_spec hval).1 id⟩

/-- A batch returns entries of ids it asked for only. -/
theorem ChunkBatch.Files.id_asked {configId : KeyId} {sequence : UInt32} {fetched : Fetched}
    {p : ChunkBatch} (hfiles : p.Files configId sequence fetched)
    (hcan : ∀ x ∈ p.1, ledgerKeyToXdr x.2 = some x.1) {e : FetchedEntry}
    (he : e ∈ p.2.entries) {id : KeyId} (hid : e.HasId id) : id ∈ p.1.map Prod.fst := by
  obtain ⟨returned, hval, _⟩ := hfiles.answered
  obtain ⟨key, hkey, id', hkid, heid⟩ := (validateBatch_spec hval).2 e he
  have heq : id' = id := Option.some.inj (heid.symm.trans hid)
  obtain ⟨x, hx, rfl⟩ := List.mem_map.mp hkey
  rw [hcan x hx] at hkid
  exact List.mem_map.mpr ⟨x, hx, by rw [← heq]; exact Option.some.inj hkid⟩

omit [Crates] in
theorem stateOf_eq_present {o : Option FetchedEntry} {entry : LedgerEntry}
    {liveUntil : Option UInt32} :
    stateOf o = .present entry liveUntil ↔ o = some ⟨entry, liveUntil⟩ := by
  cases o with
  | none => simp [stateOf]
  | some e => cases e; simp [stateOf]

section Batches

variable {configId : KeyId} {anchor : Anchor} {fetched : Fetched} {batches : List ChunkBatch}

/-- Each covered id was answered by a batch that asked for it. -/
theorem batches_present (hfiles : ∀ p ∈ batches, p.Files configId anchor.sequence fetched)
    (hcan : ∀ p ∈ batches, ∀ x ∈ p.1, ledgerKeyToXdr x.2 = some x.1)
    (hcov : ∀ id, id ∈ fetched.coverage ↔
      id ≠ configId ∧ ∃ p ∈ batches, id ∈ p.1.map Prod.fst)
    (id : KeyId) (entry : LedgerEntry) (liveUntil : Option UInt32) :
    fetched.coverage[id]? = some (.present entry liveUntil) ↔
      id ∈ fetched.coverage ∧ ⟨entry, liveUntil⟩ ∈ (Attempt.ofBatches anchor batches).returned ∧
        ledgerKeyToXdr entry.toKey = some id := by
  simp only [Attempt.returned, Attempt.ofBatches, List.mem_flatMap, List.mem_map]
  constructor
  · intro h
    have hmem : id ∈ fetched.coverage := by
      rw [Std.ExtTreeMap.mem_iff_isSome_getElem?, h]; rfl
    obtain ⟨hne, p, hp, hid⟩ := (hcov id).mp hmem
    obtain ⟨o, ho, hans⟩ := (hfiles p hp).state_of hid hne
    rw [ho, Option.some.injEq, stateOf_eq_present] at h
    obtain ⟨he, hkid⟩ := (hans _).mp h
    exact ⟨hmem, ⟨_, ⟨p, hp, rfl⟩, he⟩, hkid⟩
  · rintro ⟨hmem, ⟨_, ⟨p, hp, rfl⟩, he⟩, hkid⟩
    have hid := (hfiles p hp).id_asked (hcan p hp) he hkid
    obtain ⟨o, ho, hans⟩ := (hfiles p hp).state_of hid ((hcov id).mp hmem).1
    rw [ho, Option.some.injEq, stateOf_eq_present]
    exact (hans _).mpr ⟨he, hkid⟩

theorem batches_absent (hfiles : ∀ p ∈ batches, p.Files configId anchor.sequence fetched)
    (hcan : ∀ p ∈ batches, ∀ x ∈ p.1, ledgerKeyToXdr x.2 = some x.1)
    (hcov : ∀ id, id ∈ fetched.coverage ↔
      id ≠ configId ∧ ∃ p ∈ batches, id ∈ p.1.map Prod.fst) (id : KeyId) :
    fetched.coverage[id]? = some .absent ↔
      id ∈ fetched.coverage ∧ ∀ e ∈ (Attempt.ofBatches anchor batches).returned,
        ledgerKeyToXdr e.entry.toKey ≠ some id := by
  constructor
  · intro h
    have hmem : id ∈ fetched.coverage := by
      rw [Std.ExtTreeMap.mem_iff_isSome_getElem?, h]; rfl
    refine ⟨hmem, fun e he hkid => ?_⟩
    have hpresent := (batches_present hfiles hcan hcov id e.entry
      e.liveUntil).mpr ⟨hmem, he, hkid⟩
    rw [h] at hpresent
    cases hpresent
  · rintro ⟨hmem, hnone⟩
    have hsome := Std.ExtTreeMap.mem_iff_isSome_getElem?.mp hmem
    obtain ⟨state, hstate⟩ := Option.isSome_iff_exists.mp hsome
    cases state with
    | absent => exact hstate
    | present entry liveUntil =>
      obtain ⟨_, he, hkid⟩ := (batches_present hfiles hcan hcov id entry
        liveUntil).mp hstate
      exact absurd hkid (hnone _ he)

theorem batches_archival (hfiles : ∀ p ∈ batches, p.Files configId anchor.sequence fetched)
    (hasked : ∃ p ∈ batches, configId ∈ p.1.map Prod.fst) :
    ∃ settings, fetched.archival = some settings ∧
      ∃ e ∈ (Attempt.ofBatches anchor batches).returned, e.entry.toKey = stateArchivalKey ∧
        e.entry.data = .configSetting (.stateArchival settings) := by
  obtain ⟨p, hp, hid⟩ := hasked
  obtain ⟨returned, hval, _, harchival⟩ := (hfiles p hp).answered
  obtain ⟨settings, hextract, hsome⟩ := harchival hid
  obtain ⟨e, he, hdata⟩ := extractArchival_eq_ok.mp hextract
  obtain ⟨hmem, _⟩ := ((validateBatch_spec hval).1 configId e).mp he
  refine ⟨settings, hsome, e, ?_, ?_, hdata⟩
  · simp only [Attempt.returned, Attempt.ofBatches, List.mem_flatMap, List.mem_map]
    exact ⟨_, ⟨p, hp, rfl⟩, hmem⟩
  · rw [LedgerEntry.toKey, hdata]
    rfl

end Batches

/-- The requested keys: each id once, each key under its own id, the archival key among them. -/
theorem requested_spec (keys : KeyMap) {configId : KeyId}
    (hcfg : ledgerKeyToXdr stateArchivalKey = some configId) :
    let requested := (keys.map.insert configId stateArchivalKey).toList
    (requested.map Prod.fst).Nodup ∧
      (∀ x ∈ requested, ledgerKeyToXdr x.2 = some x.1) ∧
      (∀ id, id ∈ requested.map Prod.fst ↔ id = configId ∨ id ∈ keys.map) := by
  refine ⟨?_, ?_, ?_⟩
  · rw [Std.ExtTreeMap.map_fst_toList_eq_keys]
    exact Std.ExtTreeMap.nodup_keys
  · rintro ⟨id, key⟩ hx
    rw [Std.ExtTreeMap.mem_toList_iff_getElem?_eq_some] at hx
    exact (keys.insert configId stateArchivalKey hcfg).canonical hx
  · intro id
    rw [Std.ExtTreeMap.map_fst_toList_eq_keys, Std.ExtTreeMap.mem_keys, Std.ExtTreeMap.mem_insert,
      Std.LawfulEqCmp.compare_eq_iff_eq, eq_comm]

omit [Crates] in
theorem mem_flatten_ids {chunks : List (List (KeyId × LedgerKey))} {batches : List ChunkBatch}
    (hmap : batches.map Prod.fst = chunks) {id : KeyId} :
    id ∈ chunks.flatten.map Prod.fst ↔ ∃ p ∈ batches, id ∈ p.1.map Prod.fst := by
  subst hmap
  simp only [List.mem_map, List.mem_flatten]
  constructor
  · rintro ⟨x, ⟨_, ⟨p, hp, rfl⟩, hx⟩, rfl⟩
    exact ⟨p, hp, x, hx, rfl⟩
  · rintro ⟨p, hp, x, hx, rfl⟩
    exact ⟨x, ⟨_, ⟨p, hp, rfl⟩, hx⟩, rfl⟩

omit [Crates] in
theorem Attempt.asked_ofBatches (anchor : Anchor) (batches : List ChunkBatch) :
    (Attempt.ofBatches anchor batches).asked
      = (batches.map Prod.fst).flatten.map Prod.snd := by
  simp only [Attempt.asked, Attempt.ofBatches, List.map_flatten, List.map_map,
    List.flatMap_def]
  rfl

/-- Distinct ids make distinct keys. -/
theorem nodup_keys_of_canonical {requested : List (KeyId × LedgerKey)}
    (hnd : (requested.map Prod.fst).Nodup)
    (hcan : ∀ x ∈ requested, ledgerKeyToXdr x.2 = some x.1) :
    (requested.map Prod.snd).Nodup := by
  rw [List.Nodup, List.pairwise_map] at hnd ⊢
  refine hnd.imp_of_mem ?_
  intro x y hx hy hne heq
  have hxy := hcan x hx
  rw [heq, hcan y hy] at hxy
  exact hne (Option.some.inj hxy).symm

/-- The asked keys other than the archival key are those of the covered ids. -/
theorem asked_covers {keys : KeyMap} {configId : KeyId}
    (hcfg : ledgerKeyToXdr stateArchivalKey = some configId) (id : KeyId) :
    id ∈ keys.map ∧ id ≠ configId ↔
      ∃ key ∈ (keys.map.insert configId stateArchivalKey).toList.map Prod.snd,
        key ≠ stateArchivalKey ∧ ledgerKeyToXdr key = some id := by
  obtain ⟨_, hcan, hids⟩ := requested_spec keys hcfg
  constructor
  · rintro ⟨hid, hne⟩
    obtain ⟨⟨_, key⟩, hx, rfl⟩ := List.mem_map.mp ((hids id).mpr (Or.inr hid))
    refine ⟨key, List.mem_map.mpr ⟨_, hx, rfl⟩, ?_, hcan _ hx⟩
    rintro rfl
    exact hne (Option.some.inj ((hcan _ hx).symm.trans hcfg))
  · rintro ⟨key, hkey, hne, hkid⟩
    obtain ⟨x, hx, rfl⟩ := List.mem_map.mp hkey
    have hxid : x.1 = id := Option.some.inj ((hcan x hx).symm.trans hkid)
    have hne' : x.1 ≠ configId := by
      intro hc
      have hmem := Std.ExtTreeMap.mem_toList_iff_getElem?_eq_some.mp hx
      rw [hc, Std.ExtTreeMap.getElem?_insert_self] at hmem
      exact hne (Option.some.inj hmem).symm
    rcases (hids x.1).mp (List.mem_map.mpr ⟨x, hx, rfl⟩) with hc | hin
    · exact absurd hc hne'
    · rw [← hxid]
      exact ⟨hin, hne'⟩

/-- The batches of agreeing chunks make up a coherent attempt. -/
theorem batches_coherent {requested : List (KeyId × LedgerKey)} {configId : KeyId}
    {anchor : Anchor} {fetched : Fetched} {batches : List ChunkBatch}
    (hnd : (requested.map Prod.fst).Nodup)
    (hcan : ∀ x ∈ requested, ledgerKeyToXdr x.2 = some x.1)
    (hmap : batches.map Prod.fst = Chunks.chunks maxKeysPerBatch requested)
    (hfiles : ∀ p ∈ batches, p.Files configId anchor.sequence fetched) :
    (Attempt.ofBatches anchor batches).Coherent := by
  refine ⟨?_, ?_, ?_⟩
  · intro p hp
    obtain ⟨q, hq, rfl⟩ := List.mem_map.mp hp
    exact (hfiles q hq).sequence_eq
  · intro p hp
    obtain ⟨q, hq, rfl⟩ := List.mem_map.mp hp
    have hchunk : q.1 ∈ Chunks.chunks maxKeysPerBatch requested := by
      rw [← hmap]
      exact List.mem_map.mpr ⟨q, hq, rfl⟩
    rw [List.length_map]
    exact Chunks.chunks_length_le (by decide) _ q.1 hchunk
  · rw [Attempt.asked_ofBatches, hmap, Chunks.chunks_flatten]
    exact nodup_keys_of_canonical hnd hcan

/-- **One attempt.** Its batches yield the coverage of the requested keys. -/
theorem attempt_spec {b : CaptureBuilder σ} {keys : KeyMap} {configId : KeyId}
    (hcfg : ledgerKeyToXdr stateArchivalKey = some configId) {anchor : Anchor}
    {fetched : Fetched} {w w' : World σ}
    (h : b.fetchChunks configId anchor.sequence
      (Chunks.chunks maxKeysPerBatch (keys.map.insert configId stateArchivalKey).toList)
      ⟨∅, none⟩ w = .ok (some fetched) w') :
    ∃ (a : Attempt) (settings : StateArchivalSettings), a.anchor = anchor ∧
      w'.log = w.log ++ a.batches.map (fun p => .ledgerEntries p.1 (.ok p.2)) ∧
      fetched.archival = some settings ∧ a.Coherent ∧ a.Yields fetched.coverage settings ∧
      ∀ id, id ∈ fetched.coverage ↔ id ∈ keys.map ∧ id ≠ configId := by
  obtain ⟨hnd, hcan, hids⟩ := requested_spec keys hcfg
  have hflat := Chunks.chunks_flatten maxKeysPerBatch
    (keys.map.insert configId stateArchivalKey).toList
  obtain ⟨batches, hmap, hlog, hfiles, hkeep, _⟩ := fetchChunks_spec (by rw [hflat]; exact hnd) h
  have hbatch : ∀ id, (∃ p ∈ batches, id ∈ p.1.map Prod.fst) ↔ id = configId ∨ id ∈ keys.map := by
    intro id
    rw [← mem_flatten_ids hmap, hflat, hids]
  have hcanBatch : ∀ p ∈ batches, ∀ x ∈ p.1, ledgerKeyToXdr x.2 = some x.1 := by
    intro p hp x hx
    refine hcan x ?_
    rw [← hflat, ← hmap]
    exact List.mem_flatten.mpr ⟨p.1, List.mem_map.mpr ⟨p, hp, rfl⟩, hx⟩
  have hcov : ∀ id, id ∈ fetched.coverage ↔
      id ≠ configId ∧ ∃ p ∈ batches, id ∈ p.1.map Prod.fst := by
    intro id
    by_cases hb : id ≠ configId ∧ ∃ p ∈ batches, id ∈ p.1.map Prod.fst
    · obtain ⟨hne, p, hp, hid⟩ := hb
      obtain ⟨o, ho, _⟩ := (hfiles p hp).state_of hid hne
      refine iff_of_true ?_ ⟨hne, p, hp, hid⟩
      rw [Std.ExtTreeMap.mem_iff_isSome_getElem?, ho]
      rfl
    · -- what no batch asked for is as before the first batch: not covered
      have hnot : id ∉ (Chunks.chunks maxKeysPerBatch
          (keys.map.insert configId stateArchivalKey).toList).flatten.map Prod.fst ∨
          id = configId := by
        rw [mem_flatten_ids hmap, or_iff_not_imp_left, not_not]
        exact fun hc => by_contra fun hne => hb ⟨hne, hc⟩
      refine iff_of_false ?_ hb
      rw [Std.ExtTreeMap.mem_iff_isSome_getElem?, hkeep id hnot]
      simp
  have hcover : ∀ id, id ∈ fetched.coverage ↔ id ∈ keys.map ∧ id ≠ configId := by
    intro id
    rw [hcov, hbatch, and_comm]
    exact and_congr_left fun hne => or_iff_right hne
  have hasked : (Attempt.ofBatches anchor batches).asked
      = (keys.map.insert configId stateArchivalKey).toList.map Prod.snd := by
    rw [Attempt.asked_ofBatches, hmap, hflat]
  obtain ⟨settings, hsome, harchival⟩ := batches_archival hfiles
    ((hbatch configId).mpr (Or.inl rfl))
  refine ⟨Attempt.ofBatches anchor batches, settings, rfl, ?_, hsome,
    batches_coherent hnd hcan hmap hfiles, ?_, hcover⟩
  · rw [hlog, Attempt.ofBatches, List.map_map]
    rfl
  · refine ⟨?_, batches_present hfiles hcanBatch hcov, batches_absent hfiles hcanBatch hcov, ?_,
      harchival⟩
    · intro id
      rw [hcover, hasked]
      exact asked_covers hcfg id
    · rw [hasked]
      refine List.mem_map.mpr ⟨(configId, stateArchivalKey), ?_, rfl⟩
      rw [Std.ExtTreeMap.mem_toList_iff_getElem?_eq_some, Std.ExtTreeMap.getElem?_insert_self]

/-! ## What `materialize` returns -/

/-- `a` is the attempt a materialization of `keys` was made of. -/
structure Attempt.Gives (a : Attempt) (settings : StateArchivalSettings) (b : CaptureBuilder σ)
    (keys : KeyMap) (m : Materialized) : Prop where
  anchor_eq : m.anchor = a.anchor
  coherent : a.Coherent
  yields : a.Yields m.coverage settings
  header : m.ledgerInfo = headerOf b.networkPassphrase a.anchor settings
  /-- The transport has answered with this very anchor. -/
  answered : ∃ s, (b.transport.latestLedger s).1 = .ok a.anchor
  accepted : b.checkProtocol a.anchor.protocolVersion = .ok ()
  validated : validateCoverage m.coverage a.anchor.sequence settings.maxEntryTtl = .ok ()
  covered : ∀ id, id ∈ m.coverage ↔ id ∈ keys.map ∧ ledgerKeyToXdr stateArchivalKey ≠ some id

theorem materializeAttempts_orderly (b : CaptureBuilder σ) (configId : KeyId)
    (requested : List (KeyId × LedgerKey)) :
    ∀ attempts, Orderly (b.materializeAttempts configId requested attempts)
  | 0 => .stop _
  | attempts + 1 => by
    rw [CaptureBuilder.materializeAttempts]
    refine .bind (.latestLedger _) fun before => .bind (.lift _) fun _ =>
      .bind (fetchChunks_orderly b configId _ _ _) fun fetched =>
        .bind (.latestLedger _) fun after => ?_
    split
    · exact materializeAttempts_orderly b configId requested attempts
    · split
      · exact materializeAttempts_orderly b configId requested attempts
      · exact .lift _

theorem materialize_orderly (b : CaptureBuilder σ) (keys : KeyMap) : Orderly (b.materialize keys) :=
  .bind (.lift _) fun _ => materializeAttempts_orderly b _ _ _

omit [Crates] in
theorem call_latestLedger_log {t : Transport σ} {w w' : World σ} {anchor : Anchor}
    (h : call (·.latestLedger t) w = .ok anchor w') :
    w'.log = w.log ++ [.latestLedger (.ok anchor)] := by
  rw [call_eq_ok] at h
  rw [← h.2, World.latestLedger_log, h.1]

theorem materializeAttempts_spec {b : CaptureBuilder σ} {keys : KeyMap} {configId : KeyId}
    (hcfg : ledgerKeyToXdr stateArchivalKey = some configId) :
    ∀ {attempts : Nat} {m : Materialized} {w w' : World σ},
    b.materializeAttempts configId (keys.map.insert configId stateArchivalKey).toList attempts w
      = .ok m w' →
    ∃ (a : Attempt) (settings : StateArchivalSettings) (w₁ : World σ), w.log <+: w₁.log ∧
      w'.log = w₁.log ++ a.events ∧ a.Gives settings b keys m
  | 0, m, w, w', h => absurd h stop_ne_ok
  | attempts + 1, m, w, w', h => by
    rw [CaptureBuilder.materializeAttempts] at h
    obtain ⟨before, w₁, hbefore, h₁⟩ := run_bind_eq_ok.mp h
    obtain ⟨_, w₂, hcheck, h₂⟩ := run_bind_eq_ok.mp h₁
    obtain ⟨fetched, w₃, hfetch, h₃⟩ := run_bind_eq_ok.mp h₂
    obtain ⟨after, w₄, hafter, h₄⟩ := run_bind_eq_ok.mp h₃
    rw [liftCapture_eq_ok] at hcheck
    obtain ⟨hcheck, rfl⟩ := hcheck
    clear h h₁ h₂ h₃
    -- a retry starts behind what this attempt has written
    have hpre : w.log <+: w₄.log := by
      refine .trans ?_ (.trans ((fetchChunks_orderly b configId _ _ _).appends hfetch) ?_)
      · rw [call_latestLedger_log hbefore]; exact List.prefix_append ..
      · rw [call_latestLedger_log hafter]; exact List.prefix_append ..
    split at h₄
    · obtain ⟨a, settings, w₅, hw, hlog, hgives⟩ := materializeAttempts_spec hcfg h₄
      exact ⟨a, settings, w₅, hpre.trans hw, hlog, hgives⟩
    · next fetched =>
      split at h₄
      · obtain ⟨a, settings, w₅, hw, hlog, hgives⟩ := materializeAttempts_spec hcfg h₄
        exact ⟨a, settings, w₅, hpre.trans hw, hlog, hgives⟩
      · next heq =>
        rw [ne_eq, not_not] at heq
        subst heq
        rw [liftCapture_eq_ok] at h₄
        obtain ⟨hsettle, rfl⟩ := h₄
        obtain ⟨a, settings, rfl, hlog, hsome, hcoh, hyields, hcover⟩ := attempt_spec hcfg hfetch
        unfold CaptureBuilder.settle at hsettle
        obtain ⟨archival, harchival, hsettle⟩ := bind_eq_ok.mp hsettle
        obtain ⟨_, hvalid, hsettle⟩ := bind_eq_ok.mp hsettle
        rw [orError_eq_ok, hsome, Option.some.injEq] at harchival
        subst harchival
        cases pure_eq_ok.mp hsettle
        have hanswer := (call_eq_ok.mp hbefore).1
        refine ⟨a, settings, w, List.prefix_rfl, ?_, rfl, hcoh, hyields, rfl,
          ⟨w.transport, hanswer⟩, hcheck, hvalid, ?_⟩
        · rw [call_latestLedger_log hafter, hlog, call_latestLedger_log hbefore, Attempt.events]
          simp
        · intro id
          rw [hcover, hcfg]
          exact and_congr_right fun _ => not_congr (by simp [eq_comm])

/-- **A materialization is one attempt, and the attempt is the last thing that happened.** -/
theorem materialize_spec {b : CaptureBuilder σ} {keys : KeyMap} {m : Materialized}
    {w w' : World σ} (h : b.materialize keys w = .ok m w') :
    ∃ (a : Attempt) (settings : StateArchivalSettings) (w₁ : World σ), w.log <+: w₁.log ∧
      w'.log = w₁.log ++ a.events ∧ a.Gives settings b keys m := by
  unfold CaptureBuilder.materialize at h
  obtain ⟨configId, w₁, hcfg, h⟩ := run_bind_eq_ok.mp h
  rw [liftCapture_eq_ok, keyId_eq_ok] at hcfg
  obtain ⟨hcfg, rfl⟩ := hcfg
  exact materializeAttempts_spec hcfg h

end Kanatoko
