import Kanatoko.Lib.Worklist
import Kanatoko.Properties.QuietLedger

/-!
# Static ledgers

The entries of a static ledger do not change, while its anchors may move and its calls may fail.
Every materialization of it says the truth. What a chain of executables needs is stated over the
ledger alone, and a turn of `expand_code_closure` is compared with it.
-/

namespace Kanatoko

open Fallible

/-! ## Chains in a ledger -/

/-- The hash that a reference entry holds. -/
def referencedHash (entry : LedgerEntry) : Option Hash :=
  match entry.data with
  | .contractData data =>
    match data.val with
    | .bytes bytes => bytes32? bytes
    | _ => none
  | _ => none

namespace LedgerMap

/-- The hash of the code behind a reference, or what is wrong with the reference. -/
def referencedCode (l : LedgerMap) (externalRef : ContractExecutableExternalRef) :
    Except CaptureError Hash :=
  match l.entries (executableRefKey externalRef) with
  | none => throw .missingExecutableReference
  | some fetched => orError .malformedExecutableReference (referencedHash fetched.entry)

/-- The chain of an executable is complete and well-formed, or what is wrong with it. -/
def checkChain (l : LedgerMap) : ContractExecutable → Except CaptureError Unit
  | .wasm hash => ensure ((l.entries (.contractCode hash)).isSome = true) .missingReferencedCode
  | .externalRef externalRef => do
    let hash ← l.referencedCode externalRef
    ensure ((l.entries (.contractCode hash)).isSome = true) .missingReferencedCode
  | .stellarAsset => pure ()

/-- The keys of the chain of an executable. -/
inductive ChainKey (l : LedgerMap) : ContractExecutable → LedgerKey → Prop
  | wasm (hash : Hash) : ChainKey l (.wasm hash) (.contractCode hash)
  | reference (externalRef : ContractExecutableExternalRef) :
      ChainKey l (.externalRef externalRef) (executableRefKey externalRef)
  | code {externalRef : ContractExecutableExternalRef} {hash : Hash}
      (h : l.referencedCode externalRef = .ok hash) :
      ChainKey l (.externalRef externalRef) (.contractCode hash)

/-- A key of an instance leads to the keys of its chain. -/
def Next (l : LedgerMap) (key key' : LedgerKey) : Prop :=
  ∃ executable, (l.state key).executable? = some executable ∧ l.ChainKey executable key'

/-- Only these three errors say what is wrong with a chain. -/
theorem checkChain_errs (l : LedgerMap) (executable : ContractExecutable) :
    Errs (· ∈ [.missingExecutableReference, .malformedExecutableReference, .missingReferencedCode])
      (l.checkChain executable) := by
  cases executable with
  | wasm hash => exact .ensure (by simp)
  | stellarAsset => exact .pure _
  | externalRef externalRef =>
    refine .bind ?_ fun _ _ => .ensure (by simp)
    unfold referencedCode
    split
    · exact .throw (by simp)
    · exact .orError (by simp)

end LedgerMap

variable [Crates]

/-- The keys of a key map. -/
def KeyMap.keySet (keys : KeyMap) : Set LedgerKey :=
  {key | ∃ id : KeyId, keys.map[id]? = some key}

theorem KeyMap.mem_keySet [LawfulCrates] {keys : KeyMap} {key : LedgerKey} :
    key ∈ keys.keySet ↔ ∃ id, ledgerKeyToXdr key = some id ∧ id ∈ keys.map := by
  constructor
  · rintro ⟨id, hkey⟩
    exact ⟨id, keys.canonical hkey,
      Std.ExtTreeMap.mem_iff_isSome_getElem?.mpr (by rw [hkey]; rfl)⟩
  · rintro ⟨id, hid, hmem⟩
    obtain ⟨key', hkey'⟩ := Option.isSome_iff_exists.mp
      (Std.ExtTreeMap.mem_iff_isSome_getElem?.mp hmem)
    obtain rfl := ledgerKeyToXdr_inj hid (keys.canonical hkey')
    exact ⟨id, hkey'⟩

/-- Every chain key of the ledger has an encoding, which `to_xdr` gives without limits. -/
def LedgerMap.Encodable (l : LedgerMap) : Prop :=
  ∀ key key', l.Next key key' → ∃ id, ledgerKeyToXdr key' = some id

theorem Expands.keySet_eq [LawfulCrates] {keys keys' : KeyMap} {m : Materialized}
    (h : Expands m keys keys' 0) : keys'.keySet = keys.keySet := by
  ext key
  simp only [KeyMap.mem_keySet, h.same]

/-! ## Chains in a materialization -/

namespace LedgerMap

variable {l : LedgerMap} {keys keys' : KeyMap} {m : Materialized} {key : LedgerKey} {id : KeyId}

section Mirrored

theorem Mirrored.getElem? (h : l.Mirrored keys m) (hid : ledgerKeyToXdr key = some id)
    (hmem : id ∈ keys.map) (hcfg : ledgerKeyToXdr stateArchivalKey ≠ some id) :
    m.coverage[id]? = some (l.state key) := by
  obtain ⟨state, hstate⟩ := Option.isSome_iff_exists.mp
    (Std.ExtTreeMap.mem_iff_isSome_getElem?.mp ((h.covered id).mpr ⟨hmem, hcfg⟩))
  rw [hstate, h.agrees hid hstate]

theorem Mirrored.getElem?_none (h : l.Mirrored keys m) (hmem : id ∉ keys.map) :
    m.coverage[id]? = none := by
  by_contra hne
  have hcovered := Std.ExtTreeMap.mem_iff_isSome_getElem?.mpr (Option.isSome_iff_ne_none.mpr hne)
  exact hmem ((h.covered id).mp hcovered).1

/-- What is covered is the true state of a key of the map. -/
theorem Mirrored.of_getElem? (h : l.Mirrored keys m) {state : LookupState}
    (hstate : m.coverage[id]? = some state) :
    ∃ key ∈ keys.keySet, ledgerKeyToXdr key = some id ∧ state = l.state key := by
  have hmem := ((h.covered id).mp
    (Std.ExtTreeMap.mem_iff_isSome_getElem?.mpr (by rw [hstate]; rfl))).1
  obtain ⟨key, hkey⟩ := Option.isSome_iff_exists.mp
    (Std.ExtTreeMap.mem_iff_isSome_getElem?.mp hmem)
  exact ⟨key, ⟨id, hkey⟩, keys.canonical hkey, h.agrees (keys.canonical hkey) hstate⟩

variable [LawfulCrates]

omit [Crates] [LawfulCrates] in
/-- Only contract data has an executable. -/
theorem executable_contractData {executable : ContractExecutable}
    (h : (l.state key).executable? = some executable) :
    ∃ data, key = .contractData data := by
  cases hentry : l.entries key with
  | none => rw [LedgerMap.state, hentry] at h; cases h
  | some fetched =>
    have hkey := l.own_key hentry
    rw [LedgerMap.state, hentry, stateOf, LookupState.executable?] at h
    split at h
    · next data hdata =>
      rw [LedgerEntry.toKey, hdata] at hkey
      exact ⟨_, hkey.symm⟩
    · cases h

/-- The state of a key with an executable is covered. -/
theorem Mirrored.executable_covered (h : l.Mirrored keys m) (hkey : key ∈ keys.keySet)
    {executable : ContractExecutable} (hexec : (l.state key).executable? = some executable) :
    ∃ id : KeyId, m.coverage[id]? = some (l.state key) := by
  obtain ⟨id, hid, hmem⟩ := KeyMap.mem_keySet.mp hkey
  refine ⟨id, h.getElem? hid hmem fun hcfg => ?_⟩
  obtain ⟨data, rfl⟩ := executable_contractData hexec
  have heq := ledgerKeyToXdr_inj hid hcfg
  cases heq

/-- A covered reference resolves as it does in the ledger. -/
theorem Mirrored.externalRefCodeKey (h : l.Mirrored keys m)
    {externalRef : ContractExecutableExternalRef}
    (hid : ledgerKeyToXdr (executableRefKey externalRef) = some id) (hmem : id ∈ keys.map) :
    externalRefCodeKey m.coverage externalRef
      = (l.referencedCode externalRef).map (some ∘ LedgerKey.contractCode) := by
  have hstate := h.getElem? hid hmem (reference_not_archival hid)
  rw [Kanatoko.externalRefCodeKey, keyId_eq_ok.mpr hid, referencedCode]
  simp only [bind, Except.bind, hstate, LedgerMap.state]
  cases l.entries (executableRefKey externalRef) with
  | none => rfl
  | some fetched =>
    dsimp only [stateOf]
    unfold referencedHash
    cases fetched.entry.data with
    | contractData data =>
      dsimp only
      cases data.val with
      | bytes bytes => cases bytes32? bytes <;> rfl
      | _ => rfl
    | _ => rfl

omit [LawfulCrates] in
theorem Mirrored.externalRefCodeKey_uncovered (h : l.Mirrored keys m)
    {externalRef : ContractExecutableExternalRef}
    (hid : ledgerKeyToXdr (executableRefKey externalRef) = some id) (hmem : id ∉ keys.map) :
    Kanatoko.externalRefCodeKey m.coverage externalRef = .ok none := by
  rw [Kanatoko.externalRefCodeKey, keyId_eq_ok.mpr hid]
  simp only [bind, Except.bind, h.getElem?_none hmem]
  rfl

/-- What the coverage requires is on a chain of the ledger. -/
theorem Mirrored.next_of_requires (h : l.Mirrored keys m)
    {state : LookupState} (hstate : m.coverage[id]? = some state)
    {key' : LedgerKey} (hreq : Requires m.coverage state key') :
    ∃ key ∈ keys.keySet, l.Next key key' := by
  obtain ⟨key, hkey, -, rfl⟩ := h.of_getElem? hstate
  refine ⟨key, hkey, ?_⟩
  cases hreq with
  | wasm hexec => exact ⟨_, hexec, .wasm _⟩
  | reference hexec => exact ⟨_, hexec, .reference _⟩
  | @code externalRef _ hexec hcode =>
    obtain ⟨refId, _, _, _, _, hash, hid, hpresent, -, -, -, rfl⟩ := externalRefCodeKey_some hcode
    have hmem := ((h.covered refId).mp
      (Std.ExtTreeMap.mem_iff_isSome_getElem?.mpr (by rw [hpresent]; rfl))).1
    rw [h.externalRefCodeKey hid hmem] at hcode
    refine ⟨_, hexec, .code ?_⟩
    cases hreferenced : l.referencedCode externalRef with
    | error e => rw [hreferenced] at hcode; cases hcode
    | ok hash' => rw [hreferenced] at hcode; cases hcode; rfl

/-- A turn that adds nothing has found every chain key among the keys. -/
theorem Mirrored.closed (h : l.Mirrored keys m) (hexpands : Expands m keys keys' 0) :
    Worklist.Closed l.Next keys.keySet := by
  intro key hkey key' hnext
  obtain ⟨executable, hexec, hchain⟩ := hnext
  obtain ⟨id, hstate⟩ := h.executable_covered hkey hexec
  have hadded : ∀ required, Requires m.coverage (l.state key) required →
      required ∈ keys.keySet := by
    intro required hreq
    obtain ⟨id, hid, hmem⟩ := hexpands.mem_required hstate hreq
    exact KeyMap.mem_keySet.mpr ⟨id, hid, (hexpands.same id).mp hmem⟩
  cases hchain with
  | wasm hash => exact hadded _ (.wasm hexec)
  | reference externalRef => exact hadded _ (.reference hexec)
  | @code externalRef hash hreferenced =>
    -- the reference itself has been added, so it is resolved
    obtain ⟨id, hid, hmem⟩ := KeyMap.mem_keySet.mp (hadded _ (.reference hexec))
    refine hadded _ (.code hexec ?_)
    rw [h.externalRefCodeKey hid hmem, hreferenced]
    rfl

/-! ### What stops a turn -/

/-- The error says what is wrong with a chain of one of the keys. -/
def Broken (l : LedgerMap) (keys : Set LedgerKey) (e : CaptureError) : Prop :=
  ∃ key ∈ keys, ∃ executable, (l.state key).executable? = some executable ∧
    l.checkChain executable = .error e

omit [Crates] [LawfulCrates] in
theorem Broken.mono {set set' : Set LedgerKey} {e : CaptureError} (h : l.Broken set e)
    (hsub : set ⊆ set') : l.Broken set' e := by
  obtain ⟨key, hkey, executable, hexec, herror⟩ := h
  exact ⟨key, hsub hkey, executable, hexec, herror⟩

omit [Crates] [LawfulCrates] in
theorem Broken.mem_errors {set : Set LedgerKey} {e : CaptureError} (h : l.Broken set e) :
    e ∈ [.missingExecutableReference, .malformedExecutableReference, .missingReferencedCode] := by
  obtain ⟨_, _, executable, _, herror⟩ := h
  exact l.checkChain_errs executable e herror

theorem Mirrored.externalRefCodeKey_errs (h : l.Mirrored keys m) (hencodable : l.Encodable)
    (hkey : key ∈ keys.keySet) {externalRef : ContractExecutableExternalRef}
    (hexec : (l.state key).executable? = some (.externalRef externalRef)) :
    Errs (l.Broken keys.keySet) (Kanatoko.externalRefCodeKey m.coverage externalRef) := by
  intro e herror
  obtain ⟨id, hid⟩ := hencodable key _ ⟨_, hexec, .reference externalRef⟩
  by_cases hmem : id ∈ keys.map
  · rw [h.externalRefCodeKey hid hmem] at herror
    refine ⟨key, hkey, _, hexec, ?_⟩
    rw [checkChain]
    cases hreferenced : l.referencedCode externalRef with
    | error e' => rw [hreferenced] at herror; cases herror; rfl
    | ok hash => rw [hreferenced] at herror; cases herror
  · rw [h.externalRefCodeKey_uncovered hid hmem] at herror
    cases herror

/-- A turn stops over a reference that is missing or malformed. -/
theorem Mirrored.requiredKeys_errs (h : l.Mirrored keys m) (hencodable : l.Encodable) :
    Errs (l.Broken keys.keySet) (requiredKeys m.coverage) := by
  refine .bind (.mapM fun item hitem => ?_) fun _ _ => .pure _
  obtain ⟨id, state⟩ := item
  have hstate := Std.ExtTreeMap.mem_toList_iff_getElem?_eq_some.mp hitem
  obtain ⟨key, hkey, -, rfl⟩ := h.of_getElem? hstate
  unfold requiredOf
  dsimp only
  split
  · exact .pure _
  · exact .pure _
  · next externalRef hexec =>
    exact .bind (h.externalRefCodeKey_errs hencodable hkey hexec) fun _ _ => .pure _
  · exact .pure _

/-- Chain keys are inserted without an error. -/
theorem Mirrored.inserts (h : l.Mirrored keys m) (hencodable : l.Encodable)
    {required : List LedgerKey} (hrequired : requiredKeys m.coverage = .ok required) :
    ∃ inserted, insertKeys required (keys, 0) = .ok inserted := by
  refine Kanatoko.insertKeys_isOk fun key hkey => ?_
  obtain ⟨id, state, hstate, hreq⟩ := (mem_requiredKeys hrequired key).mp hkey
  obtain ⟨key', -, hnext⟩ := h.next_of_requires hstate hreq
  exact hencodable key' key hnext

/-- A code whose key is known is looked up in the ledger. -/
theorem Mirrored.ensureCodePresent (h : l.Mirrored keys m) {hash : Hash}
    (hkey : LedgerKey.contractCode hash ∈ keys.keySet) :
    Kanatoko.ensureCodePresent m.coverage hash
      = ensure ((l.entries (.contractCode hash)).isSome = true) .missingReferencedCode := by
  obtain ⟨id, hid, hmem⟩ := KeyMap.mem_keySet.mp hkey
  have hstate := h.getElem? hid hmem (code_not_archival hid)
  rw [Kanatoko.ensureCodePresent, keyId_eq_ok.mpr hid]
  show ensure ((m.coverage[id]?.any LookupState.isPresent) = true) _ = _
  rw [hstate, LedgerMap.state]
  cases l.entries (.contractCode hash) <;> rfl

/-- Once the keys are closed, the check of a chain is the check in the ledger. -/
theorem Mirrored.ensureExecutablePresent (h : l.Mirrored keys m)
    (hclosed : Worklist.Closed l.Next keys.keySet) (hkey : key ∈ keys.keySet)
    {executable : ContractExecutable} (hexec : (l.state key).executable? = some executable) :
    Kanatoko.ensureExecutablePresent m.coverage (id, l.state key) = l.checkChain executable := by
  have hchain : ∀ key', l.ChainKey executable key' → key' ∈ keys.keySet :=
    fun key' hchain => hclosed key hkey key' ⟨executable, hexec, hchain⟩
  rw [Kanatoko.ensureExecutablePresent, hexec]
  cases executable with
  | stellarAsset => rfl
  | wasm hash => exact h.ensureCodePresent (hchain _ (.wasm hash))
  | externalRef externalRef =>
    obtain ⟨id, hid, hmem⟩ := KeyMap.mem_keySet.mp (hchain _ (.reference externalRef))
    dsimp only
    rw [h.externalRefCodeKey hid hmem, checkChain]
    cases hreferenced : l.referencedCode externalRef with
    | error e => rfl
    | ok hash => exact h.ensureCodePresent (hchain _ (.code hreferenced))

/-- What the closure check finds wrong is wrong with a chain of the ledger. -/
theorem Mirrored.closure_errs (h : l.Mirrored keys m)
    (hclosed : Worklist.Closed l.Next keys.keySet) :
    Errs (l.Broken keys.keySet) (ensureExecutableClosurePresent m.coverage) := by
  refine .forM fun item hitem e herror => ?_
  obtain ⟨id, state⟩ := item
  have hstate := Std.ExtTreeMap.mem_toList_iff_getElem?_eq_some.mp hitem
  obtain ⟨key, hkey, -, rfl⟩ := h.of_getElem? hstate
  cases hexec : (l.state key).executable? with
  | none => rw [Kanatoko.ensureExecutablePresent, hexec] at herror; cases herror
  | some executable =>
    rw [h.ensureExecutablePresent hclosed hkey hexec] at herror
    exact ⟨key, hkey, executable, hexec, herror⟩

/-- If the closure check passes, no chain is broken. -/
theorem Mirrored.not_broken (h : l.Mirrored keys m)
    (hclosed : Worklist.Closed l.Next keys.keySet)
    (hok : ensureExecutableClosurePresent m.coverage = .ok ()) {e : CaptureError} :
    ¬l.Broken keys.keySet e := by
  rintro ⟨key, hkey, executable, hexec, herror⟩
  obtain ⟨id, hstate⟩ := h.executable_covered hkey hexec
  have hone := forM_eq_ok.mp hok (id, l.state key)
    (Std.ExtTreeMap.mem_toList_iff_getElem?_eq_some.mpr hstate)
  rw [h.ensureExecutablePresent hclosed hkey hexec, herror] at hone
  cases hone

end Mirrored

end LedgerMap

/-! ## Static ledgers -/

variable {σ : Type}

/-- The entries that the transport returns are those of the map, in any order. Its anchors may
move, and its calls may fail. -/
def Static (t : Transport σ) (l : LedgerMap) : Prop :=
  ∀ keys s batch, (t.ledgerEntries keys s).1 = .ok batch →
    batch.entries.Perm (keys.filterMap l.entries)

namespace LedgerMap

/-- A read of entries is a read of this map. -/
def Told (l : LedgerMap) : Event → Prop
  | .ledgerEntries keys (.ok batch) => batch.entries.Perm (keys.filterMap l.entries)
  | _ => True

/-- All reads that were logged since `w₀` are reads of this map. -/
def ToldSince (l : LedgerMap) (w₀ w : World σ) : Prop :=
  ∃ trace, w.log = w₀.log ++ trace ∧ ∀ e ∈ trace, l.Told e

omit [Crates] in
theorem ToldSince.step {l : LedgerMap} {w₀ w w' : World σ} (h : l.ToldSince w₀ w) {e : Event}
    (hlog : w'.log = w.log ++ [e]) (he : l.Told e) : l.ToldSince w₀ w' := by
  obtain ⟨trace, htrace, htold⟩ := h
  refine ⟨trace ++ [e], by rw [hlog, htrace, List.append_assoc], fun e' he' => ?_⟩
  rcases List.mem_append.mp he' with he' | he'
  · exact htold e' he'
  · rw [List.mem_singleton.mp he']
    exact he

end LedgerMap

/-- The run stopped for another reason than the limit of the closure loop. -/
def NotClosureLimit (halt : Halt) (_ : World σ) : Prop :=
  ∀ rounds, halt ≠ .error (.executableClosureLimit rounds)

omit [Crates] in
theorem notClosureLimit_of_noLimit {e : CaptureError} {w : World σ} (h : e.isLimit = false) :
    NotClosureLimit (.error e) w := by
  rintro rounds ⟨⟩
  cases h

section Materialize

variable {l : LedgerMap} {b : CaptureBuilder σ}

omit [Crates] in
theorem triple_told {α : Type} {w₀ : World σ} {x : Except CaptureError α} (hx : NoLimit x) :
    Triple (l.ToldSince w₀) (liftCapture x) (fun _ => l.ToldSince w₀) NotClosureLimit :=
  triple_liftCapture (fun _ _ _ hw => hw) fun e _ h _ => notClosureLimit_of_noLimit (hx e h)

omit [Crates] in
theorem latestLedger_told (t : Transport σ) (w₀ : World σ) :
    Triple (l.ToldSince w₀) (call (·.latestLedger t)) (fun _ => l.ToldSince w₀)
      NotClosureLimit :=
  triple_call (fun _ w hw _ => hw.step (World.latestLedger_log w t) trivial)
    fun _ _ _ _ _ h => by cases h

theorem fetchChunks_told (hstatic : Static b.transport l) (configId : KeyId) (sequence : UInt32)
    (w₀ : World σ) : ∀ (chunks : List (List (KeyId × LedgerKey))) (fetched : Fetched),
    Triple (l.ToldSince w₀) (b.fetchChunks configId sequence chunks fetched)
      (fun _ => l.ToldSince w₀) NotClosureLimit
  | [], _ => .pure fun _ h => h
  | chunk :: rest, fetched => by
    rw [CaptureBuilder.fetchChunks]
    have hcall : Triple (l.ToldSince w₀)
        (call (·.ledgerEntries b.transport (chunk.map Prod.snd))) (fun _ => l.ToldSince w₀)
        NotClosureLimit := by
      refine triple_call (fun batch w hw h => ?_) fun _ _ _ _ _ h => by cases h
      refine hw.step (World.ledgerEntries_log w _ _) ?_
      rw [h]
      exact hstatic _ _ _ h
    refine .bind hcall fun batch => ?_
    split
    · exact .pure fun _ h => h
    · exact .bind (triple_told (validateBatch_noLimit _ _)) fun returned =>
        .bind (triple_told (fileChunk_noLimit _ _ _ _)) fun fetched =>
          fetchChunks_told hstatic configId sequence w₀ rest fetched

theorem materializeAttempts_told (hstatic : Static b.transport l) (configId : KeyId)
    (requested : List (KeyId × LedgerKey)) (w₀ : World σ) : ∀ attempts,
    Triple (l.ToldSince w₀) (b.materializeAttempts configId requested attempts)
      (fun _ => l.ToldSince w₀) NotClosureLimit
  | 0 => triple_stop fun _ _ _ h => by cases h
  | attempts + 1 => by
    rw [CaptureBuilder.materializeAttempts]
    refine .bind (latestLedger_told _ w₀) fun before =>
      .bind (triple_told (checkProtocol_noLimit b _)) fun _ =>
        .bind (fetchChunks_told hstatic configId _ w₀ _ _) fun fetched =>
          .bind (latestLedger_told _ w₀) fun after => ?_
    split
    · exact materializeAttempts_told hstatic configId requested w₀ attempts
    · split
      · exact materializeAttempts_told hstatic configId requested w₀ attempts
      · exact triple_told (settle_noLimit b _ _)

theorem materialize_told (hstatic : Static b.transport l) (keys : KeyMap) (w₀ : World σ) :
    Triple (l.ToldSince w₀) (b.materialize keys) (fun _ => l.ToldSince w₀) NotClosureLimit :=
  .bind (triple_told (keyId_noLimit _)) fun _ => materializeAttempts_told hstatic _ _ w₀ _

/-- Materializing a static ledger says the truth. -/
theorem materialize_static [LawfulCrates] (hstatic : Static b.transport l) {keys : KeyMap}
    {m : Materialized} {w w' : World σ} (h : b.materialize keys w = .ok m w') :
    l.Mirrored keys m := by
  obtain ⟨trace, hlog, htold⟩ :=
    (materialize_told hstatic keys w).ok (⟨[], by simp, by simp⟩ : l.ToldSince w w) h
  obtain ⟨a, settings, w₁, ⟨before, hbefore⟩, hlog', hgives⟩ := materialize_spec h
  -- what this materialization has logged ends with its attempt
  have heq : trace = before ++ a.events := by
    rw [hlog, ← hbefore, List.append_assoc] at hlog'
    exact List.append_cancel_left hlog'
  refine hgives.of_map fun p hp => htold (.ledgerEntries p.1 (.ok p.2)) ?_
  rw [heq, Attempt.events]
  exact List.mem_append_right _
    (List.mem_append_left _ (List.mem_cons_of_mem _ (List.mem_map.mpr ⟨p, hp, rfl⟩)))

end Materialize

end Kanatoko
