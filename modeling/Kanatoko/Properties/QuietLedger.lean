import Kanatoko.Properties.Closure

/-!
# Captures of a quiet ledger

A quiet ledger does not move while it is captured: the transport gives one anchor, and
answers every read from one map. Then the first attempt of every materialization is
coherent and shows the map, and the executable closure is complete after two turns.
-/

namespace Kanatoko

open Fallible

/-! ## The ledger -/

/-- A ledger at rest: its network, its anchor, and its entries under their own keys. -/
structure QuietLedger where
  network : Network
  anchor : Anchor
  entries : LedgerKey → Option FetchedEntry
  own_key : ∀ {key fetched}, entries key = some fetched → fetched.entry.toKey = key

/-- The true state of a key. -/
def QuietLedger.state (l : QuietLedger) (key : LedgerKey) : LookupState := stateOf (l.entries key)

variable {σ : Type}

/-- The transport shows this ledger at every call; the order in a batch is its own choice. -/
structure Shows (t : Transport σ) (l : QuietLedger) : Prop where
  network : ∀ s, (t.network s).1 = .ok l.network
  latestLedger : ∀ s, (t.latestLedger s).1 = .ok l.anchor
  ledgerEntries : ∀ keys s, ∃ batch, (t.ledgerEntries keys s).1 = .ok batch ∧
    batch.latestLedger = l.anchor.sequence ∧ batch.entries.Perm (keys.filterMap l.entries)

/-- The event is a read of this ledger. -/
def QuietLedger.Told (l : QuietLedger) : Event → Prop
  | .latestLedger answer => answer = .ok l.anchor
  | .ledgerEntries keys answer =>
    ∃ batch, answer = .ok batch ∧ batch.entries.Perm (keys.filterMap l.entries)
  | _ => False

/-- All that was logged since `w₀` are reads of this ledger. -/
def QuietLedger.ToldSince (l : QuietLedger) (w₀ w : World σ) : Prop :=
  ∃ trace, w.log = w₀.log ++ trace ∧ ∀ e ∈ trace, l.Told e

namespace QuietLedger

variable {l : QuietLedger} {w₀ w w' : World σ}

theorem ToldSince.refl (l : QuietLedger) (w : World σ) : l.ToldSince w w := ⟨[], by simp, by simp⟩

theorem ToldSince.step (h : l.ToldSince w₀ w) {e : Event} (hlog : w'.log = w.log ++ [e])
    (he : l.Told e) : l.ToldSince w₀ w' := by
  obtain ⟨trace, htrace, htold⟩ := h
  refine ⟨trace ++ [e], by rw [hlog, htrace, List.append_assoc], fun e' he' => ?_⟩
  rcases List.mem_append.mp he' with he' | he'
  · exact htold e' he'
  · rw [List.mem_singleton.mp he']; exact he

end QuietLedger

/-! ## Errors that are no limits -/

/-- The errors of a loop that ran out of turns. -/
def CaptureError.isLimit : CaptureError → Bool
  | .incoherentLedger _ | .executableClosureLimit _ | .fixedPointLimit _ => true
  | _ => false

def Halt.isLimit : Halt → Bool
  | .error e => e.isLimit
  | .panicked => false

/-- The step fails for other reasons than a limit, if it fails. -/
abbrev NoLimit {α : Type} (x : Except CaptureError α) : Prop := Errs (·.isLimit = false) x

theorem checkProtocol_noLimit (b : CaptureBuilder σ) (found : UInt32) :
    NoLimit (b.checkProtocol found) := .mapError fun _ => rfl

variable [Crates]

theorem keyId_noLimit (key : LedgerKey) : NoLimit (keyId key) := .orError rfl

theorem collectReturned_noLimit (ids : List KeyId) : ∀ (entries : List FetchedEntry)
    (returned : Std.ExtTreeMap KeyId FetchedEntry), NoLimit (collectReturned ids entries returned)
  | [], _ => .pure _
  | fetched :: rest, returned => by
    rw [collectReturned]
    exact .bind (keyId_noLimit _) fun id _ => .bind (.ensure rfl) fun _ _ =>
      collectReturned_noLimit ids rest _

theorem validateBatch_noLimit (requested : List LedgerKey) (entries : List FetchedEntry) :
    NoLimit (validateBatch requested entries) :=
  .bind (.mapM fun key _ => keyId_noLimit key) fun _ _ => collectReturned_noLimit _ _ _

omit [Crates] in
theorem fileChunk_noLimit (configId : KeyId) (returned : Std.ExtTreeMap KeyId FetchedEntry) :
    ∀ (chunk : List (KeyId × LedgerKey)) (fetched : Fetched),
      NoLimit (fileChunk configId returned chunk fetched)
  | [], _ => .pure _
  | (id, _) :: rest, fetched => by
    rw [fileChunk]
    split
    · refine .bind ?_ fun settings _ => fileChunk_noLimit configId returned rest _
      unfold extractArchival
      split
      · exact .throw rfl
      · split
        · exact .pure _
        · exact .throw rfl
    · exact fileChunk_noLimit configId returned rest _

theorem settle_noLimit (b : CaptureBuilder σ) (anchor : Anchor) (fetched : Fetched) :
    NoLimit (b.settle anchor fetched) := by
  refine .bind (.orError rfl) fun archival _ => .bind (.forM fun state _ => ?_) fun _ _ => .pure _
  unfold validateState
  split
  · exact .pure _
  · exact .bind (keyId_noLimit _) fun _ _ => .bind (.ensure rfl) fun _ _ =>
      .bind (.ensure rfl) fun _ _ => .ensure rfl

theorem externalRefCodeKey_noLimit (coverage : Coverage)
    (externalRef : ContractExecutableExternalRef) :
    NoLimit (externalRefCodeKey coverage externalRef) := by
  refine .bind (keyId_noLimit _) fun id _ => ?_
  split
  · exact .pure _
  · exact .throw rfl
  · split
    · split
      · exact .bind (.orError rfl) fun _ _ => .pure _
      · exact .throw rfl
    · exact .throw rfl

theorem requiredKeys_noLimit (coverage : Coverage) : NoLimit (requiredKeys coverage) := by
  refine .bind (.mapM fun item _ => ?_) fun _ _ => .pure _
  unfold requiredOf
  dsimp only
  split
  · exact .pure _
  · exact .pure _
  · exact .bind (externalRefCodeKey_noLimit _ _) fun _ _ => .pure _
  · exact .pure _

theorem insertKeys_noLimit : ∀ (keys : List LedgerKey) (acc : KeyMap × Nat),
    NoLimit (insertKeys keys acc)
  | [], _ => .pure _
  | key :: rest, (keys, added) => by
    rw [insertKeys]
    split
    · exact .throw rfl
    · exact insertKeys_noLimit rest _

theorem ensureExecutableClosurePresent_noLimit (coverage : Coverage) :
    NoLimit (ensureExecutableClosurePresent coverage) := by
  refine .forM fun item _ => ?_
  have hcode : ∀ hash, NoLimit (ensureCodePresent coverage hash) := fun hash =>
    .bind (keyId_noLimit _) fun _ _ => .ensure rfl
  unfold ensureExecutablePresent
  dsimp only
  split
  · exact .pure _
  · exact hcode _
  · refine .bind (externalRefCodeKey_noLimit _ _) fun codeKey _ => ?_
    split
    · exact .throw rfl
    · exact hcode _
    · exact .throw rfl
  · exact .pure _

theorem addStored_noLimit (localLedger : LocalLedger) : ∀ (stored : List LedgerKey)
    (requested : KeyMap), NoLimit (addStored localLedger stored requested)
  | [], _ => .pure _
  | key :: rest, requested => by
    rw [addStored]
    split
    · exact addStored_noLimit localLedger rest _
    · split
      · exact .throw rfl
      · exact addStored_noLimit localLedger rest _

theorem collectKeys_noLimit (source : TrackingSource) (stored : List LedgerKey) (keys : KeyMap) :
    NoLimit (collectKeys source stored keys) :=
  .bind (addStored_noLimit _ _ _) fun _ _ => insertKeys_noLimit _ _

theorem snapshotEntries_noLimit : ∀ states, NoLimit (snapshotEntries states)
  | [] => .pure _
  | (_, .absent) :: rest => by
    rw [snapshotEntries]
    exact snapshotEntries_noLimit rest
  | (_, .present _ _) :: rest => by
    rw [snapshotEntries]
    exact .bind (.ensure rfl) fun _ _ => .bind (keyId_noLimit _) fun _ _ =>
      .bind (.ensure rfl) fun _ _ => .bind (snapshotEntries_noLimit rest) fun _ _ => .pure _

theorem inventoryDigest_noLimit (coverage : Coverage) : NoLimit (inventoryDigest coverage) := by
  refine .bind (.mapM fun item _ => ?_) fun _ _ => .pure _
  unfold inventoryEntryBytes
  split
  · exact .bind (.orError rfl) fun _ _ => .pure _
  · exact .pure _

theorem concludePass_noLimit (b : CaptureBuilder σ) (round : Nat) (m : Materialized)
    (passEnd : PassEnd Unit) (source : TrackingSource) :
    NoLimit (b.concludePass round m passEnd source) :=
  .bind (.ensure rfl) fun _ _ => .bind (.ensure rfl) fun _ _ =>
    .bind (.bind (snapshotEntries_noLimit _) fun _ _ => .pure _) fun _ _ =>
      .bind (.mapError fun _ => rfl) fun _ _ =>
        .bind (inventoryDigest_noLimit _) fun _ _ => .pure _

/-! ## Materializations -/

/-- The run stopped for another reason than a limit, in a world that satisfies `P`. -/
def Stops (P : World σ → Prop) (halt : Halt) (w : World σ) : Prop := halt.isLimit = false ∧ P w

omit [Crates] in
theorem triple_noLimit {α : Type} {P : World σ → Prop} {x : Except CaptureError α}
    (hx : NoLimit x) : Triple P (liftCapture x) (fun a w => x = .ok a ∧ P w) (Stops P) :=
  triple_liftCapture (fun _ _ h hw => ⟨h, hw⟩) fun e _ h hw => ⟨hx e h, hw⟩

variable {l : QuietLedger}

omit [Crates] in
theorem latestLedger_quiet {t : Transport σ} (hshows : Shows t l) (w₀ : World σ) :
    Triple (l.ToldSince w₀) (call (·.latestLedger t))
      (fun anchor w => anchor = l.anchor ∧ l.ToldSince w₀ w) (Stops (l.ToldSince w₀)) := by
  have htold : ∀ w : World σ, (w.latestLedger t).1 = .ok l.anchor :=
    fun w => hshows.latestLedger w.transport
  refine triple_call (fun anchor w hw h => ⟨?_, ?_⟩) fun failure w hw h => ?_
  · rw [htold] at h
    cases h
    rfl
  · exact hw.step (World.latestLedger_log w t) (htold w)
  · rw [htold] at h
    cases h

/-- Every batch is of the anchor's ledger. -/
theorem fetchChunks_quiet {b : CaptureBuilder σ} (hshows : Shows b.transport l)
    (configId : KeyId) (w₀ : World σ) :
    ∀ (chunks : List (List (KeyId × LedgerKey))) (fetched : Fetched),
    Triple (l.ToldSince w₀) (b.fetchChunks configId l.anchor.sequence chunks fetched)
      (fun fetched w => fetched.isSome = true ∧ l.ToldSince w₀ w) (Stops (l.ToldSince w₀))
  | [], _ => .pure fun _ h => ⟨rfl, h⟩
  | chunk :: rest, fetched => by
    rw [CaptureBuilder.fetchChunks]
    have hcall : Triple (l.ToldSince w₀)
        (call (·.ledgerEntries b.transport (chunk.map Prod.snd)))
        (fun batch w => batch.latestLedger = l.anchor.sequence ∧ l.ToldSince w₀ w)
        (Stops (l.ToldSince w₀)) := by
      refine triple_call (fun batch w hw h => ?_) fun failure w hw h => ?_
      · obtain ⟨batch', hans, hseq, hperm⟩ := hshows.ledgerEntries (chunk.map Prod.snd) w.transport
        cases h.symm.trans hans
        exact ⟨hseq, hw.step (World.ledgerEntries_log w _ _) ⟨batch, h, hperm⟩⟩
      · obtain ⟨_, hans, _⟩ := hshows.ledgerEntries (chunk.map Prod.snd) w.transport
        cases h.symm.trans hans
    refine .bind hcall fun batch => .assume fun hseq => ?_
    rw [if_neg (not_not.mpr hseq)]
    exact .bind (triple_noLimit (validateBatch_noLimit _ _)) fun returned => .assume fun _ =>
      .bind (triple_noLimit (fileChunk_noLimit _ _ _ _)) fun fetched => .assume fun _ =>
        fetchChunks_quiet hshows configId w₀ rest fetched

/-- The first attempt is coherent. -/
theorem materializeAttempts_quiet {b : CaptureBuilder σ} (hshows : Shows b.transport l)
    (configId : KeyId) (requested : List (KeyId × LedgerKey)) (attempts : Nat) (w₀ : World σ) :
    Triple (l.ToldSince w₀) (b.materializeAttempts configId requested (attempts + 1))
      (fun _ => l.ToldSince w₀) (Stops (l.ToldSince w₀)) := by
  rw [CaptureBuilder.materializeAttempts]
  refine .bind (latestLedger_quiet hshows w₀) fun before => .assume fun hbefore =>
    .bind (triple_noLimit (checkProtocol_noLimit b _)) fun _ => .assume fun _ => ?_
  subst hbefore
  refine .bind (fetchChunks_quiet hshows configId w₀ _ _) fun fetched => .assume fun hfetched =>
    .bind (latestLedger_quiet hshows w₀) fun after => .assume fun hafter => ?_
  obtain ⟨fetched, rfl⟩ := Option.isSome_iff_exists.mp hfetched
  subst hafter
  dsimp only
  rw [if_neg (not_not.mpr rfl)]
  exact (triple_noLimit (settle_noLimit b _ _)).weaken (fun _ h => h) (fun _ _ h => h.2)
    fun _ _ h => h

/-! ## What a materialization shows -/

/-- What the coverage says of a key is its true state. -/
def QuietLedger.Agrees (l : QuietLedger) (coverage : Coverage) : Prop :=
  ∀ ⦃key : LedgerKey⦄ ⦃id : KeyId⦄ ⦃state : LookupState⦄, ledgerKeyToXdr key = some id →
    coverage[id]? = some state → state = l.state key

/-- A materialization of `keys` that shows the ledger. -/
structure QuietLedger.Mirrored (l : QuietLedger) (b : CaptureBuilder σ) (keys : KeyMap)
    (m : Materialized) : Prop where
  header : ∃ fetched settings, l.entries stateArchivalKey = some fetched ∧
    fetched.entry.data = .configSetting (.stateArchival settings) ∧
      m.ledgerInfo = headerOf b.networkPassphrase l.anchor settings
  covered : ∀ id, id ∈ m.coverage ↔ id ∈ keys.map ∧ ledgerKeyToXdr stateArchivalKey ≠ some id
  agrees : l.Agrees m.coverage

/-- The entries of the ledger, without its network and its anchor. -/
def QuietLedger.map (l : QuietLedger) : LedgerMap := ⟨l.entries, l.own_key⟩

theorem QuietLedger.Mirrored.map {b : CaptureBuilder σ} {keys : KeyMap} {m : Materialized}
    (h : l.Mirrored b keys m) : l.map.Mirrored keys m := ⟨h.covered, h.agrees⟩

/-- A told attempt yields true states. -/
theorem Attempt.Gives.mirrored [LawfulCrates] {a : Attempt} {settings : StateArchivalSettings}
    {b : CaptureBuilder σ} {keys : KeyMap} {m : Materialized} (h : a.Gives settings b keys m)
    (htold : ∀ e ∈ a.events, l.Told e) : l.Mirrored b keys m := by
  have hanchor : a.anchor = l.anchor :=
    Except.ok.inj (htold (.latestLedger (.ok a.anchor)) (by simp [Attempt.events]))
  have hperm : ∀ p ∈ a.batches, p.2.entries.Perm (p.1.filterMap l.map.entries) := by
    intro p hp
    obtain ⟨batch, hbatch, hperm⟩ := htold (.ledgerEntries p.1 (.ok p.2)) (by
      rw [Attempt.events]
      exact List.mem_append_left _ (List.mem_cons_of_mem _ (List.mem_map.mpr ⟨p, hp, rfl⟩)))
    cases hbatch
    exact hperm
  refine ⟨?_, h.covered, (h.of_map hperm).agrees⟩
  obtain ⟨fetched, hmem, hkey, hdata⟩ := h.yields.archival
  obtain ⟨key, _, hentry⟩ := (Attempt.mem_returned hperm).mp hmem
  obtain rfl := (l.own_key hentry).symm.trans hkey
  exact ⟨fetched, settings, hentry, hdata, by rw [h.header, hanchor]⟩

/-- **Materializing a quiet ledger shows it, or fails for another reason than a limit.** -/
theorem materialize_quiet [LawfulCrates] {b : CaptureBuilder σ} (hshows : Shows b.transport l)
    (hattempts : 0 < b.coherenceAttempts) (keys : KeyMap) (w₀ : World σ) :
    Triple (l.ToldSince w₀) (b.materialize keys)
      (fun m w => l.Mirrored b keys m ∧ l.ToldSince w₀ w) (Stops (l.ToldSince w₀)) := by
  have htold : ∀ w₀, Triple (l.ToldSince w₀) (b.materialize keys) (fun _ => l.ToldSince w₀)
      (Stops (l.ToldSince w₀)) := by
    intro w₀
    obtain ⟨attempts, hsucc⟩ := Nat.exists_eq_succ_of_ne_zero (Nat.ne_of_gt hattempts)
    refine .bind (triple_noLimit (keyId_noLimit _)) fun configId => .assume fun _ => ?_
    rw [hsucc]
    exact materializeAttempts_quiet hshows configId _ attempts w₀
  refine ⟨fun w m w' hw h => ⟨?_, (htold w₀).ok hw h⟩, (htold w₀).error⟩
  -- what this materialization has logged ends with its attempt
  obtain ⟨trace, hlog, htrace⟩ := (htold w).ok (.refl l w) h
  obtain ⟨a, settings, w₁, ⟨before, hbefore⟩, hlog', hgives⟩ := materialize_spec h
  refine hgives.mirrored fun e he => htrace e ?_
  have heq : trace = before ++ a.events := by
    rw [hlog, ← hbefore, List.append_assoc] at hlog'
    exact List.append_cancel_left hlog'
  rw [heq]
  exact List.mem_append_right _ he

/-! ## The executable closure -/

section Turns

variable [LawfulCrates] {b : CaptureBuilder σ} {keys keys' : KeyMap} {m m' : Materialized}

/-- What a closure of `keys` ends with: a materialization that shows the ledger. -/
def QuietLedger.Closes (l : QuietLedger) (b : CaptureBuilder σ) (keys : KeyMap) (w₀ : World σ)
    (closed : KeyMap × Materialized) (w : World σ) : Prop :=
  l.Mirrored b closed.1 closed.2 ∧ (∀ id, id ∈ keys.map → id ∈ closed.1.map) ∧ l.ToldSince w₀ w

/-- One turn: either it adds nothing, or the turns left close what it added. -/
theorem expandRounds_turn (hshows : Shows b.transport l) (hattempts : 0 < b.coherenceAttempts)
    {w₀ : World σ} {rounds : Nat} (hm : l.Mirrored b keys m)
    (hrest : ∀ keys₁ added, Expands m keys keys₁ added → added ≠ 0 →
      ∃ left, rounds = left + 1 ∧ ∀ m₁, l.Mirrored b keys₁ m₁ →
        Triple (l.ToldSince w₀) (b.expandRounds left keys₁ m₁) (l.Closes b keys₁ w₀)
          (Stops (l.ToldSince w₀))) :
    Triple (l.ToldSince w₀) (b.expandRounds rounds keys m) (l.Closes b keys w₀)
      (Stops (l.ToldSince w₀)) := by
  rw [CaptureBuilder.expandRounds]
  refine .bind (triple_noLimit (requiredKeys_noLimit _)) fun required => .assume fun hrequired =>
    .bind (triple_noLimit (insertKeys_noLimit _ _)) fun inserted => .assume fun hins => ?_
  obtain ⟨keys₁, added⟩ := inserted
  have hexpands : Expands m keys keys₁ added := ⟨required, hrequired, hins⟩
  dsimp only
  split
  · next hadded =>
    subst hadded
    have hm₁ : l.Mirrored b keys₁ m :=
      ⟨hm.header, fun id => by rw [hm.covered, hexpands.same], hm.agrees⟩
    exact .bind (triple_noLimit (ensureExecutableClosurePresent_noLimit _)) fun _ =>
      .assume fun _ => .pure fun w hw => ⟨hm₁, hexpands.keeps, hw⟩
  · next hadded =>
    obtain ⟨left, rfl, hnext⟩ := hrest keys₁ added hexpands hadded
    refine .bind (materialize_quiet hshows hattempts keys₁ w₀) fun m₁ => .assume fun hm₁ => ?_
    refine (hnext m₁ hm₁).weaken (fun _ h => h) (fun closed w h => ?_) fun _ _ h => h
    exact ⟨h.1, fun id hid => h.2.1 id (hexpands.keeps id hid), h.2.2⟩

/-- **Two more turns always close the chains.** -/
theorem expandRounds_quiet (hshows : Shows b.transport l) (hattempts : 0 < b.coherenceAttempts)
    (w₀ : World σ) (rounds : Nat) (hm : l.Mirrored b keys m) :
    Triple (l.ToldSince w₀) (b.expandRounds (rounds + 2) keys m) (l.Closes b keys w₀)
      (Stops (l.ToldSince w₀)) := by
  refine expandRounds_turn hshows hattempts hm fun keys₁ n₀ h₀ _ => ⟨rounds + 1, rfl, ?_⟩
  intro m₁ hm₁
  refine expandRounds_turn hshows hattempts hm₁ fun keys₂ n₁ h₁ _ => ⟨rounds, rfl, ?_⟩
  intro m₂ hm₂
  refine expandRounds_turn hshows hattempts hm₂ fun keys₃ n₂ h₂ hne => ?_
  exact absurd (LedgerMap.closure_complete hm.map hm₁.map hm₂.map h₀ h₁ h₂) hne

theorem materializeClosed_quiet (hshows : Shows b.transport l)
    (hattempts : 0 < b.coherenceAttempts) (keys : KeyMap) (w₀ : World σ) :
    Triple (l.ToldSince w₀) (b.materializeClosed keys) (l.Closes b keys w₀)
      (Stops (l.ToldSince w₀)) :=
  .bind (materialize_quiet hshows hattempts keys w₀) fun _ => .assume fun hm =>
    expandRounds_quiet hshows hattempts w₀ 14 hm

end Turns

end Kanatoko
