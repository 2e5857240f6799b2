import Kanatoko.Properties.StaticLedger
import Kanatoko.Testnet.Native

/-!
# The executable closure

`expand_code_closure` over every transport, and over a static ledger. There the final keys are the
least closed superset of the first ones, and two further materializations are enough.
-/

namespace Kanatoko

open Fallible

variable [Crates] {σ : Type}

/-! ## Turns -/

/-- `n` turns, each of which adds a key and materializes the grown key set again. -/
inductive Rematerialized (b : CaptureBuilder σ) (keys : KeyMap) (m : Materialized) (w : World σ) :
    Nat → KeyMap → Materialized → World σ → Prop
  | start : Rematerialized b keys m w 0 keys m w
  | again {n added : Nat} {keys₁ keys₂ : KeyMap} {m₁ m₂ : Materialized} {w₁ w₂ : World σ}
      (h : Rematerialized b keys m w n keys₁ m₁ w₁) (hexpands : Expands m₁ keys₁ keys₂ added)
      (hadded : added ≠ 0) (hm : b.materialize keys₂ w₁ = .ok m₂ w₂) :
      Rematerialized b keys m w (n + 1) keys₂ m₂ w₂

/-- How the turn that is the last one ends, with `left` further turns allowed. -/
inductive LastTurn (b : CaptureBuilder σ) (left : Nat) (keys : KeyMap) (m : Materialized)
    (w : World σ) : EStateM.Result Halt (World σ) (KeyMap × Materialized) → Prop
  | resolve {e : CaptureError} (h : requiredKeys m.coverage = .error e) :
      LastTurn b left keys m w (.error (.error e) w)
  | insert {required : List LedgerKey} {e : CaptureError}
      (hrequired : requiredKeys m.coverage = .ok required)
      (h : insertKeys required (keys, 0) = .error e) :
      LastTurn b left keys m w (.error (.error e) w)
  | incomplete {keys' : KeyMap} {e : CaptureError} (hexpands : Expands m keys keys' 0)
      (h : ensureExecutableClosurePresent m.coverage = .error e) :
      LastTurn b left keys m w (.error (.error e) w)
  | closed {keys' : KeyMap} (hexpands : Expands m keys keys' 0)
      (h : ensureExecutableClosurePresent m.coverage = .ok ()) :
      LastTurn b left keys m w (.ok (keys', m) w)
  | limit {keys' : KeyMap} {added : Nat} (hexpands : Expands m keys keys' added)
      (hadded : added ≠ 0) (hleft : left = 0) :
      LastTurn b left keys m w (.error (.error (.executableClosureLimit maxExecutableClosureRounds)) w)
  | materialize {keys' : KeyMap} {added : Nat} {halt : Halt} {w' : World σ}
      (hexpands : Expands m keys keys' added) (hadded : added ≠ 0)
      (h : b.materialize keys' w = .error halt w') :
      LastTurn b left keys m w (.error halt w')

/-- Every run of the loop is a number of turns and a last one. -/
theorem expandRounds_run {b : CaptureBuilder σ} {keys₀ : KeyMap} {m₀ : Materialized}
    {w₀ : World σ} : ∀ {left n : Nat} {keys : KeyMap} {m : Materialized} {w : World σ},
    Rematerialized b keys₀ m₀ w₀ n keys m w →
    ∃ left' n' keys' m' w', left' + n' = left + n ∧
      Rematerialized b keys₀ m₀ w₀ n' keys' m' w' ∧
      LastTurn b left' keys' m' w' (b.expandRounds left keys m w)
  | left, n, keys, m, w, h => by
    rw [CaptureBuilder.expandRounds]
    cases hrequired : requiredKeys m.coverage with
    | error e => exact ⟨left, n, keys, m, w, rfl, h, .resolve hrequired⟩
    | ok required =>
      cases hins : insertKeys required (keys, 0) with
      | error e =>
        refine ⟨left, n, keys, m, w, rfl, h, ?_⟩
        show LastTurn b left keys m w ((liftCapture (insertKeys required (keys, 0)) >>= _) w)
        rw [hins]
        exact .insert hrequired hins
      | ok inserted =>
        obtain ⟨keys₁, added⟩ := inserted
        have hexpands : Expands m keys keys₁ added := ⟨required, hrequired, hins⟩
        show ∃ left' n' keys' m' w', _ ∧ _ ∧
          LastTurn b left' keys' m' w' ((liftCapture (insertKeys required (keys, 0)) >>= _) w)
        rw [hins]
        show ∃ left' n' keys' m' w', _ ∧ _ ∧
          LastTurn b left' keys' m' w' ((if added = 0 then _ else _ : CaptureM σ _) w)
        by_cases hadded : added = 0
        · subst hadded
          refine ⟨left, n, keys, m, w, rfl, h, ?_⟩
          rw [if_pos rfl]
          cases hclosed : ensureExecutableClosurePresent m.coverage with
          | error e => exact .incomplete hexpands hclosed
          | ok _ => exact .closed hexpands hclosed
        · rw [if_neg hadded]
          cases left with
          | zero => exact ⟨0, n, keys, m, w, rfl, h, .limit hexpands hadded rfl⟩
          | succ left =>
            show ∃ left' n' keys' m' w', _ ∧ _ ∧
              LastTurn b left' keys' m' w' ((b.materialize keys₁ >>= _) w)
            cases hm : b.materialize keys₁ w with
            | error halt w' =>
              refine ⟨left + 1, n, keys, m, w, rfl, h, ?_⟩
              rw [run_bind_eq_error.mpr (Or.inl hm)]
              exact .materialize hexpands hadded hm
            | ok m₁ w₁ =>
              rw [run_bind_of_ok hm]
              have hnext : ∃ left' n' keys' m' w', left' + n' = left + (n + 1) ∧
                  Rematerialized b keys₀ m₀ w₀ n' keys' m' w' ∧
                  LastTurn b left' keys' m' w' (b.expandRounds left keys₁ m₁ w₁) :=
                expandRounds_run (h.again hexpands hadded hm)
              obtain ⟨left', n', keys', m', w', hsum, hrun, hlast⟩ := hnext
              exact ⟨left', n', keys', m', w', by omega, hrun, hlast⟩

namespace Rematerialized

variable {b : CaptureBuilder σ} {keys keys' : KeyMap} {m m' : Materialized} {w w' : World σ} {n : Nat}

/-- What a turn preserves, all turns preserve. -/
theorem invariant (h : Rematerialized b keys m w n keys' m' w')
    {P : KeyMap → Materialized → Prop} (hstart : P keys m)
    (hstep : ∀ {keys₁ keys₂ : KeyMap} {m₁ m₂ : Materialized} {w₁ w₂ : World σ} {added : Nat},
      P keys₁ m₁ → Expands m₁ keys₁ keys₂ added → b.materialize keys₂ w₁ = .ok m₂ w₂ →
        P keys₂ m₂) : P keys' m' := by
  induction h with
  | start => exact hstart
  | again h hexpands hadded hm ih => exact hstep ih hexpands hm

variable {l : LedgerMap} [LawfulCrates]

/-- Every key set on the way is between the first one and what it reaches. -/
theorem static (hstatic : Static b.transport l) (hm : l.Mirrored keys m)
    (h : Rematerialized b keys m w n keys' m' w') :
    l.Mirrored keys' m' ∧ keys.keySet ⊆ keys'.keySet ∧
      keys'.keySet ⊆ Worklist.reachable l.Next keys.keySet := by
  refine h.invariant (P := fun keys' m' => l.Mirrored keys' m' ∧ keys.keySet ⊆ keys'.keySet ∧
    keys'.keySet ⊆ Worklist.reachable l.Next keys.keySet)
    ⟨hm, subset_rfl, Worklist.subset_reachable⟩ ?_
  intro keys₁ keys₂ m₁ m₂ w₁ w₂ added hinv hexpands hm₂
  obtain ⟨hm₁, hsub, hreached⟩ := hinv
  refine ⟨materialize_static hstatic hm₂, fun key hkey => ?_, fun key hkey => ?_⟩
  · obtain ⟨id, hid, hmem⟩ := KeyMap.mem_keySet.mp (hsub hkey)
    exact KeyMap.mem_keySet.mpr ⟨id, hid, hexpands.keeps id hmem⟩
  · obtain ⟨id, hid, hmem⟩ := KeyMap.mem_keySet.mp hkey
    rcases hexpands.old_or_required hmem with hold | ⟨key', hid', id', state, hstate, hreq⟩
    · exact hreached (KeyMap.mem_keySet.mpr ⟨id, hid, hold⟩)
    · obtain rfl := ledgerKeyToXdr_inj hid hid'
      obtain ⟨source, hsource, hnext⟩ := hm₁.next_of_requires hstate hreq
      exact Worklist.reachable_closed source (hreached hsource) _ hnext

/-- After two turns nothing is left to add. -/
theorem lt_two (hstatic : Static b.transport l) (hm : l.Mirrored keys m)
    (h : Rematerialized b keys m w n keys' m' w') {keys'' : KeyMap} {added : Nat}
    (hexpands : Expands m' keys' keys'' added) (hadded : added ≠ 0) : n < 2 := by
  by_contra hle
  have hmirrored := (h.static hstatic hm).1
  cases h with
  | start => omega
  | again h₁ hexpands₁ hadded₁ hm₂ =>
    cases h₁ with
    | start => omega
    | again h₀ hexpands₀ hadded₀ hm₁ =>
      exact hadded (LedgerMap.closure_complete (h₀.static hstatic hm).1
        (materialize_static hstatic hm₁) hmirrored hexpands₀ hexpands₁ hexpands)

theorem le_two (hstatic : Static b.transport l) (hm : l.Mirrored keys m)
    (h : Rematerialized b keys m w n keys' m' w') : n ≤ 2 := by
  cases h with
  | start => omega
  | again h hexpands hadded _ => exact h.lt_two hstatic hm hexpands hadded

end Rematerialized

/-! ## The result -/

section Result

variable [LawfulCrates] {b : CaptureBuilder σ} {keys : KeyMap} {m : Materialized}

/-- Over any transport, the coverage follows the keys. -/
theorem Rematerialized.covered {keys' : KeyMap} {m' : Materialized} {w w₀ w' : World σ} {n : Nat}
    (hm : b.materialize keys w₀ = .ok m w) (h : Rematerialized b keys m w n keys' m' w')
    (harchival : stateArchivalKey ∉ keys.keySet) :
    (∀ id, id ∈ m'.coverage ↔ id ∈ keys'.map ∧ ledgerKeyToXdr stateArchivalKey ≠ some id) ∧
      stateArchivalKey ∉ keys'.keySet := by
  have hcovered : ∀ {keys : KeyMap} {m : Materialized} {w w' : World σ},
      b.materialize keys w = .ok m w' →
      ∀ id, id ∈ m.coverage ↔ id ∈ keys.map ∧ ledgerKeyToXdr stateArchivalKey ≠ some id := by
    intro keys m w w' h
    obtain ⟨a, settings, w₁, -, -, hgives⟩ := materialize_spec h
    exact hgives.covered
  refine h.invariant (P := fun keys' m' =>
    (∀ id, id ∈ m'.coverage ↔ id ∈ keys'.map ∧ ledgerKeyToXdr stateArchivalKey ≠ some id) ∧
      stateArchivalKey ∉ keys'.keySet) ⟨hcovered hm, harchival⟩ ?_
  intro keys₁ keys₂ m₁ m₂ w₁ w₂ added hinv hexpands hm₂
  refine ⟨hcovered hm₂, fun hmem => ?_⟩
  obtain ⟨id, hid, hmem⟩ := KeyMap.mem_keySet.mp hmem
  rcases hexpands.old_or_required hmem with hold | ⟨key, hkey, _, _, _, hreq⟩
  · exact hinv.2 (KeyMap.mem_keySet.mpr ⟨id, hid, hold⟩)
  · exact hreq.not_archival hkey hid

/--
**`expand_code_closure` computes the executable closure.**

It is given a materialization of the keys. Over every transport, a result covers exactly the
final keys, and every instance in it has its chain Present.

Over a static ledger, the run takes at most two further materializations and ends in one of three
ways: with the least closed superset of the keys, when no chain in it is broken; with the error
of a broken chain; or with an error of a further materialization, which is not the limit.
-/
theorem executable_closure_least {w₀ w : World σ} (hm : b.materialize keys w₀ = .ok m w) :
    (∀ keys' m' w', b.expandCodeClosure keys m w = .ok (keys', m') w' →
      (∀ (id : KeyId) state executable, m'.coverage[id]? = some state →
        state.executable? = some executable → ChainPresent m'.coverage executable) ∧
      (stateArchivalKey ∉ keys.keySet → ∀ id, id ∈ m'.coverage ↔ id ∈ keys'.map)) ∧
    ∀ l, Static b.transport l → l.Encodable → ∃ n ≤ 2, ∃ keys₁ m₁ w₁,
      Rematerialized b keys m w n keys₁ m₁ w₁ ∧
      ((∃ keys', b.expandCodeClosure keys m w = .ok (keys', m₁) w₁ ∧
          IsLeast {set | keys.keySet ⊆ set ∧ Worklist.Closed l.Next set} keys'.keySet ∧
          ∀ e, ¬l.Broken (Worklist.reachable l.Next keys.keySet) e) ∨
        (∃ e ∈ [CaptureError.missingExecutableReference, .malformedExecutableReference,
            .missingReferencedCode],
          b.expandCodeClosure keys m w = .error (.error e) w₁ ∧
            l.Broken (Worklist.reachable l.Next keys.keySet) e) ∨
        (n < 2 ∧ ∃ keys₂ halt w', b.materialize keys₂ w₁ = .error halt w' ∧
          b.expandCodeClosure keys m w = .error halt w' ∧ NotClosureLimit halt w')) := by
  have hend : ∃ left n keys₁ m₁ w₁, left + n = maxExecutableClosureRounds ∧
      Rematerialized b keys m w n keys₁ m₁ w₁ ∧
        LastTurn b left keys₁ m₁ w₁ (b.expandRounds maxExecutableClosureRounds keys m w) :=
    expandRounds_run .start
  obtain ⟨left, n, keys₁, m₁, w₁, hsum, hrun, hlast⟩ := hend
  refine ⟨fun keys' m' w' hok => ?_, fun l hstatic hencodable => ?_⟩
  · rw [CaptureBuilder.expandCodeClosure] at hok
    rw [hok] at hlast
    cases hlast with
    | closed hexpands hclosed =>
      refine ⟨fun id state executable hstate hexec => chainPresent_of_closed hclosed hstate hexec,
        fun harchival id => ?_⟩
      obtain ⟨hcovered, hnone⟩ := hrun.covered hm harchival
      rw [hcovered, hexpands.same]
      refine and_iff_left_of_imp fun hid hcfg => hnone (KeyMap.mem_keySet.mpr ⟨id, hcfg, hid⟩)
  · have hmirrored := materialize_static hstatic hm
    obtain ⟨hm₁, hsub, hreached⟩ := hrun.static hstatic hmirrored
    refine ⟨n, hrun.le_two hstatic hmirrored, keys₁, m₁, w₁, hrun, ?_⟩
    rw [CaptureBuilder.expandCodeClosure]
    generalize b.expandRounds maxExecutableClosureRounds keys m w = result at hlast
    cases hlast with
    | @resolve e h =>
      have hbroken := (hm₁.requiredKeys_errs hencodable e h).mono hreached
      exact Or.inr (Or.inl ⟨e, hbroken.mem_errors, rfl, hbroken⟩)
    | insert hrequired h =>
      obtain ⟨inserted, hok⟩ := hm₁.inserts hencodable hrequired
      cases h.symm.trans hok
    | @incomplete _ e hexpands h =>
      have hbroken := (hm₁.closure_errs (hm₁.closed hexpands) e h).mono hreached
      exact Or.inr (Or.inl ⟨e, hbroken.mem_errors, rfl, hbroken⟩)
    | @closed keys' hexpands h =>
      have hclosed := hm₁.closed hexpands
      have hsame : keys₁.keySet = Worklist.reachable l.Next keys.keySet :=
        hclosed.eq_reachable hsub hreached
      refine Or.inl ⟨keys', rfl, ?_, fun e => ?_⟩
      · rw [hexpands.keySet_eq, hsame]
        exact Worklist.reachable_isLeast _ _
      · rw [← hsame]
        exact hm₁.not_broken hclosed h
    | limit hexpands hadded hleft =>
      -- the limit is reached after sixteen turns only
      have hlt := hrun.lt_two hstatic hmirrored hexpands hadded
      rw [hleft, maxExecutableClosureRounds] at hsum
      omega
    | @materialize keys₂ _ halt w' hexpands hadded h =>
      have hlimit := (materialize_told hstatic keys₂ w₁).error ⟨[], by simp, by simp⟩ h
      exact Or.inr (Or.inr ⟨hrun.lt_two hstatic hmirrored hexpands hadded, keys₂, halt, w', h, rfl,
        hlimit⟩)

end Result

end Kanatoko

namespace Kanatoko.Testnet

open Fallible

/-! ## One instance and its code -/

/-- The header of an empty module. -/
def wasmCode : Bytes := [0, 97, 115, 109, 1, 0, 0, 0]

def wasmHash : Hash := sha256 wasmCode

def wasmInstance : LedgerEntry where
  lastModifiedLedgerSeq := 4609662
  data := .contractData
    { contract := smallContract 1
      key := .ledgerKeyContractInstance
      durability := .persistent
      val := .contractInstance ⟨.wasm wasmHash, none⟩ }
  ext := .v0

/-- A ledger with one contract. -/
def wasmLookup (key : LedgerKey) : Option FetchedEntry :=
  if key = contractInstanceKey (smallContract 1) then some ⟨wasmInstance, some 7561567⟩
  else if key = .contractCode wasmHash then
    some ⟨⟨4609662, .contractCode ⟨[0, 0, 0, 0], wasmHash, wasmCode⟩, .v0⟩, some 7561567⟩
  else if key = stateArchivalKey then
    some ⟨⟨4983000, .configSetting (.stateArchival nativeSettings), .v0⟩, none⟩
  else none

def wasmLedger : LedgerMap where
  entries := wasmLookup
  own_key := by
    intro key fetched h
    unfold wasmLookup at h
    split at h
    · next hkey => cases h; exact hkey.symm
    · split at h
      · next hkey => cases h; exact hkey.symm
      · split at h
        · next hkey => cases h; exact hkey.symm
        · cases h

def wasmBuilder : CaptureBuilder Unit :=
  { nativeBuilder with
    transport :=
      { nativeTransport with
        ledgerEntries := fun keys s =>
          (.ok ⟨nativeAnchor.sequence, keys.filterMap wasmLookup⟩, s) } }

/-- The key of the instance alone. -/
def instanceKeys : Except CaptureError KeyMap :=
  (insertKeys [contractInstanceKey (smallContract 1)] (.empty, 0)).map Prod.fst

theorem wasmLedger_encodable : wasmLedger.Encodable := by
  rintro key key' ⟨executable, hexec, hchain⟩
  have hwasm : executable = .wasm wasmHash := by
    change (stateOf (wasmLookup key)).executable? = some executable at hexec
    unfold wasmLookup at hexec
    split at hexec
    · cases hexec
      rfl
    · split at hexec
      · cases hexec
      · split at hexec <;> cases hexec
  subst hwasm
  cases hchain
  have hsome : (ledgerKeyToXdr (.contractCode wasmHash)).isSome = true := by decide +kernel
  exact Option.isSome_iff_exists.mp hsome

/-- The closure of the instance is the instance and its code. -/
theorem wasm_closed : ∃ keys m w keys' m' w',
    wasmBuilder.materialize keys nativeWorld = .ok m w ∧
      wasmBuilder.expandCodeClosure keys m w = .ok (keys', m') w' ∧
      keys'.map.toList.map Prod.snd =
        [contractInstanceKey (smallContract 1), .contractCode wasmHash] ∧
      IsLeast {set | keys.keySet ⊆ set ∧ Worklist.Closed wasmLedger.Next set} keys'.keySet := by
  have h : (match instanceKeys with
    | .error _ => false
    | .ok keys =>
      match wasmBuilder.materialize keys nativeWorld with
      | .error _ _ => false
      | .ok m w =>
        match wasmBuilder.expandCodeClosure keys m w with
        | .error _ _ => false
        | .ok (keys', _) _ => decide (keys'.map.toList.map Prod.snd =
            [contractInstanceKey (smallContract 1), .contractCode wasmHash])) = true := by
    decide +kernel
  have hstatic : Static wasmBuilder.transport wasmLedger := by
    intro keys s batch hbatch
    cases hbatch
    exact .rfl
  split at h
  · cases h
  · next keys _ =>
    split at h
    · cases h
    · next m w hm =>
      split at h
      · cases h
      · next keys' m' w' hclosure =>
        obtain ⟨_, _, _, _, _, _, hends⟩ :=
          (executable_closure_least hm).2 wasmLedger hstatic wasmLedger_encodable
        rcases hends with ⟨_, hok, hleast, _⟩ | ⟨_, _, herror, _⟩ | ⟨_, _, _, _, _, herror, _⟩
        · cases hclosure.symm.trans hok
          exact ⟨keys, m, w, keys', m', w', hm, hclosure, of_decide_eq_true h, hleast⟩
        · cases hclosure.symm.trans herror
        · cases hclosure.symm.trans herror

end Kanatoko.Testnet
