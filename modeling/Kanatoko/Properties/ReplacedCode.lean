import Kanatoko.Properties.PreviewErased

/-!
# Replaced code

`replace_wasm` changes the executable of one instance entry, and adds one code entry. Over a run
the last replacement of a contract stands: its instance has that executable, and everything else
of the entry is as the Host has first looked it up.
-/

namespace Kanatoko

open Adaptive

/-! ## One entry -/

/-- A replacement takes nothing of the entry but its executable, so the last one stands. -/
theorem replacedEntry_replacedEntry {first last : Hash} {entry replaced : LedgerEntry}
    (h : replacedEntry first entry = some replaced) :
    replacedEntry last replaced = replacedEntry last entry := by
  unfold replacedEntry at h
  split at h
  · next data hdata =>
    split at h
    · next inst hval =>
      split at h
      · cases h
      · next hne =>
        cases h
        simp [replacedEntry, hdata, hval, hne]
    · cases h
  · cases h

/-! ## The storage map -/

theorem StoredEntries.storage_set_of_ne (stored : StoredEntries) {key k : LedgerKey}
    (h : k ≠ key) (value : Option PresentEntry) :
    (stored.set key value).storage k = stored.storage k := by
  rw [storage_set, Storage.set_of_ne _ h]

theorem StoredEntries.storage_set_self (stored : StoredEntries) (key : LedgerKey)
    (value : Option PresentEntry) : (stored.set key value).storage key = some value := by
  rw [storage_set, Storage.set_self]

theorem StoredEntries.storage_takeOver_of_ne (stored : StoredEntries) (storage : Storage)
    {key k : LedgerKey} (h : k ≠ key) :
    (stored.takeOver storage key).storage k = stored.storage k := by
  unfold takeOver
  split
  · exact stored.storage_set_of_ne h _
  · rfl

/-- The operation stays with the keys of a set, and draws nothing. -/
def TouchesOnly (K : LedgerKey → Prop) : Draws.Op ContractKey PresentEntry ScAddress → Prop
  | .get key => K key.1
  | .put key _ => K key.1
  | .draw _ => False
  | .push | .pop _ => True

/-- Outside of a set of keys a Host has one storage map, whichever of its frames fail. -/
def HasOutside (K : LedgerKey → Prop) (storage : Storage) (s : HostState) : Prop :=
  ∀ saved ∈ s.stored :: s.frames, ∀ k, ¬ K k → saved.storage k = storage k

section

variable {K : LedgerKey → Prop} {storage : Storage} {s : HostState}

theorem HasOutside.set (h : HasOutside K storage s) {key : LedgerKey} (hkey : K key)
    (value : Option PresentEntry) : HasOutside K storage (s.set key value) := by
  intro saved hsaved k hk
  rcases List.mem_cons.mp hsaved with rfl | hsaved
  · have hne : k ≠ key := fun heq => hk (heq ▸ hkey)
    exact (s.stored.storage_set_of_ne hne value).trans (h s.stored List.mem_cons_self k hk)
  · exact h saved (List.mem_cons_of_mem _ hsaved) k hk

/-- Opening, closing and failing frames brings up no other storage map. -/
theorem HasOutside.of_subset (h : HasOutside K storage s) {s' : HostState}
    (hsub : s'.stored :: s'.frames ⊆ s.stored :: s.frames) : HasOutside K storage s' :=
  fun saved hsaved => h saved (hsub hsaved)

theorem HasOutside.push (h : HasOutside K storage s) : HasOutside K storage s.push :=
  h.of_subset (List.cons_subset.mpr ⟨List.mem_cons_self, List.Subset.refl _⟩)

theorem HasOutside.pop (h : HasOutside K storage s) (succeeded : Bool) :
    HasOutside K storage (s.pop succeeded) := by
  have htail : s.frames.tail ⊆ s.stored :: s.frames :=
    fun saved hsaved => List.mem_cons_of_mem _ (List.mem_of_mem_tail hsaved)
  exact h.of_subset (List.cons_subset.mpr
    ⟨Draws.close_mem succeeded s.stored s.frames, htail⟩)

theorem HasOutside.unwind (h : HasOutside K storage s) : HasOutside K storage s.unwind := by
  have hfirst : s.frames.getLast?.getD s.stored ∈ s.stored :: s.frames := by
    cases hlast : s.frames.getLast? with
    | none => exact List.mem_cons_self
    | some first => exact List.mem_cons_of_mem _ (List.mem_of_getLast? hlast)
  exact h.of_subset (List.cons_subset.mpr ⟨hfirst, List.nil_subset _⟩)

/-- **A program leaves alone what it does not touch**, also when it is stopped. -/
theorem MockHost.on_frame {α : Type} (host : MockHost) (info : LedgerInfo) (p : HostProgram α) :
    p.AllOps (TouchesOnly K) → ∀ s : HostState, HasOutside K storage s →
      (host.on info p s).AllResults fun r => HasOutside K storage r.2 := by
  induction p with
  | done a => exact fun _ s hs => hs
  | ask op next ih =>
    intro hp s hs
    cases op with
    | draw address => exact hp.1.elim
    | put key value => exact ih ⟨⟩ (hp.2 ⟨⟩) _ (hs.set hp.1 value)
    | push => exact ih ⟨⟩ (hp.2 ⟨⟩) _ hs.push
    | pop succeeded => exact ih ⟨⟩ (hp.2 ⟨⟩) _ (hs.pop succeeded)
    | get key =>
      show (s.lookup key.1 fun value s => host.on info (next value) s).AllResults _
      unfold HostState.lookup
      split
      · next value _ => exact ih value (hp.2 value) s hs
      · intro answer
        cases answer with
        | error e => exact hs
        | ok value => exact ih value (hp.2 value) _ (hs.set hp.1 value)

end

/-- The upload of code works on the code entry only. -/
structure CodeHost.LawfulUpload [Crates] (host : CodeHost) : Prop where
  touches : ∀ info wasm, (host.upload info wasm).AllOps
    (TouchesOnly fun key => key = .contractCode (sha256 wasm))

/-! ## What a replacement leaves under a key -/

section

variable {σ : Type}

/-- The storage map has the key as before, or it has looked the key up in between. -/
def LookedUp (log : List Event) (key : LedgerKey) (before after : Option (Option PresentEntry)) :
    Prop :=
  after = before ∨ before = none ∧
    ∃ value owned, after = some value ∧ Event.lookup key owned (.ok value) ∈ log

/-- What the storage map has under a key, behind replacements that have answered these hashes:
the entry that was there or was looked up, with the executable of the last one. -/
inductive Stands (log : List Event) (key : LedgerKey) (before : Option (Option PresentEntry)) :
    Option (Option PresentEntry) → Option Bytes32 → Prop
  | found {after : Option (Option PresentEntry)} : LookedUp log key before after →
      Stands log key before after none
  | replaced {hash : Bytes32} {entry replaced : LedgerEntry} {liveUntil : Option UInt32} :
      replacedEntry hash entry = some replaced →
      LookedUp log key before (some (some (entry, liveUntil))) →
      Stands log key before (some (some (replaced, liveUntil))) (some hash)

theorem LookedUp.mono {log log' : List Event} {key : LedgerKey}
    {before after : Option (Option PresentEntry)} (h : LookedUp log key before after)
    (hlog : ∀ e ∈ log, e ∈ log') : LookedUp log' key before after := by
  rcases h with h | ⟨hnone, value, owned, hvalue, hmem⟩
  · exact Or.inl h
  · exact Or.inr ⟨hnone, value, owned, hvalue, hlog _ hmem⟩

theorem LookedUp.trans {log : List Event} {key : LedgerKey}
    {before mid after : Option (Option PresentEntry)} (h : LookedUp log key before mid)
    (h' : LookedUp log key mid after) : LookedUp log key before after := by
  rcases h with rfl | ⟨hnone, value, owned, rfl, hmem⟩
  · exact h'
  · rcases h' with rfl | ⟨hmid, _⟩
    · exact Or.inr ⟨hnone, value, owned, rfl, hmem⟩
    · cases hmid

theorem LookedUp.of_some {log : List Event} {key : LedgerKey} {value : Option PresentEntry}
    {after : Option (Option PresentEntry)} (h : LookedUp log key (some value) after) :
    after = some value :=
  h.resolve_right fun ⟨hnone, _⟩ => nomatch hnone

theorem Stands.mono {log log' : List Event} {key : LedgerKey}
    {before after : Option (Option PresentEntry)} {last : Option Bytes32}
    (h : Stands log key before after last) (hlog : ∀ e ∈ log, e ∈ log') :
    Stands log' key before after last := by
  cases h with
  | found hlooked => exact .found (hlooked.mono hlog)
  | replaced hreplaced hlooked => exact .replaced hreplaced (hlooked.mono hlog)

/-- **The later replacement stands**, over the entry the earlier one has found. -/
theorem Stands.trans {log : List Event} {key : LedgerKey}
    {before mid after : Option (Option PresentEntry)} {first last : Option Bytes32}
    (h : Stands log key before mid first) (h' : Stands log key mid after last) :
    Stands log key before after (last.or first) := by
  cases h with
  | found hlooked =>
    cases h' with
    | found hlooked' => exact .found (hlooked.trans hlooked')
    | replaced hreplaced hlooked' => exact .replaced hreplaced (hlooked.trans hlooked')
  | replaced hreplaced hlooked =>
    cases h' with
    | found hlooked' =>
      cases hlooked'.of_some
      exact .replaced hreplaced hlooked
    | replaced hreplaced' hlooked' =>
      cases hlooked'.of_some
      rw [replacedEntry_replacedEntry hreplaced] at hreplaced'
      exact .replaced hreplaced' hlooked

/-! ## One operation -/

variable [Crates] {transport : Option (Transport σ)}

theorem Moves.mem_log {st st' : PassState σ} (h : Moves st st') :
    ∀ e ∈ st.2.log, e ∈ st'.2.log := by
  obtain ⟨trace, hlog, _⟩ := h.log_grows
  intro e he
  rw [hlog]
  exact List.mem_append_left _ he

/-- What the Host has found when it looks a key up for a method. -/
structure Found (key : LedgerKey) (s : HostState)
    (r : (Except HostTrap (Option PresentEntry) × HostState) × PassState σ) : Prop where
  frame : ∀ k, k ≠ key → r.1.2.stored.storage k = s.stored.storage k
  frames : r.1.2.frames = s.frames
  lookedUp : LookedUp r.2.2.log key (s.stored.storage key) (r.1.2.stored.storage key)
  answer : ∀ existing, r.1.1 = .ok existing → r.1.2.stored.storage key = some existing

theorem lookup_found (transport : Option (Transport σ)) (key : LedgerKey) (s : HostState)
    (st : PassState σ) :
    Found key s ((s.lookup key fun existing s => .done (.ok existing, s)).run
      (TrackingSource.get transport) st) := by
  unfold HostState.lookup
  split
  · next value hvalue =>
    refine ⟨fun _ _ => rfl, rfl, Or.inl rfl, fun existing hexisting => ?_⟩
    cases hexisting
    exact hvalue
  · next hnone =>
    have hlogged : Event.lookup key (st.1.localLedger.owns key)
        (TrackingSource.get transport key st).1
          ∈ (TrackingSource.get transport key st).2.2.log := by
      rw [get_eq, World.record_log]
      exact List.mem_append_right _ (List.mem_singleton_self _)
    rw [Client.run_ask]
    generalize TrackingSource.get transport key st = r at hlogged ⊢
    obtain ⟨answer, st'⟩ := r
    cases answer with
    | error e => exact ⟨fun _ _ => rfl, rfl, Or.inl rfl, fun _ h => nomatch h⟩
    | ok value =>
      refine ⟨fun k hk => s.stored.storage_set_of_ne hk value, rfl, ?_, fun existing h => ?_⟩
      · exact Or.inr ⟨hnone, value, _, s.stored.storage_set_self key value, hlogged⟩
      · cases h
        exact s.stored.storage_set_self key value

theorem run_onSource {α β : Type} (c : HostClient α)
    (next : α × HostState → Client SourceOp SourceOp.Answer β) (st : PassState σ) :
    (onSource c next).run (serve transport) st
      = (next (c.run (TrackingSource.get transport) st).1).run (serve transport)
        (c.run (TrackingSource.get transport) st).2 :=
  Client.run_andThen _ _ _ _

omit [Crates] in
/-- A replacement that has panicked has looked its instance up at most. -/
theorem panicked_stands {log : List Event} {key k : LedgerKey} {fork : MockFork} {s : HostState}
    {before : Option (Option PresentEntry)} (h : LookedUp log k before (s.stored.storage k)) :
    Stands log k before ((fork.withHost s).env.storedEntries.storage k)
      (if key = k then none else none) := by
  rw [ite_self]
  exact .found h

/-- **What one replacement leaves under a data key.** -/
theorem replaceWasm_stands {host : CodeHost} (hhost : host.LawfulUpload)
    (transport : Option (Transport σ)) (fork : MockFork) (contract : ScAddress) (wasm : Bytes)
    (st : PassState σ) (data : LedgerKeyContractData) :
    let r := (fork.replaceWasm host contract wasm).run (serve transport) st
    Stands r.2.2.log (.contractData data) (fork.env.storedEntries.storage (.contractData data))
      (r.1.2.env.storedEntries.storage (.contractData data))
      (if contractInstanceKey contract = .contractData data then r.1.1 else none) := by
  unfold MockFork.replaceWasm
  dsimp only
  split
  case isFalse => exact panicked_stands (s := fork.host) (Or.inl rfl)
  rw [run_onSource]
  have hfound := lookup_found transport (contractInstanceKey contract) fork.host st
  generalize (fork.host.lookup (contractInstanceKey contract) fun existing s =>
    .done (.ok existing, s)).run (TrackingSource.get transport) st = found at hfound ⊢
  obtain ⟨⟨result, s⟩, st'⟩ := found
  have hlooked : LookedUp st'.2.log (.contractData data)
      (fork.env.storedEntries.storage (.contractData data))
      (s.stored.storage (.contractData data)) := by
    by_cases hkey : contractInstanceKey contract = .contractData data
    · rw [← hkey]
      exact hfound.lookedUp
    · exact Or.inl (hfound.frame _ (Ne.symm hkey))
  split
  case h_2 => next heq => cases heq; exact panicked_stands hlooked
  next entry liveUntil s heq =>
  cases heq
  split
  case h_1 => exact panicked_stands hlooked
  next replaced hreplaced =>
  rw [Client.run_ask, run_onSource]
  -- the upload leaves the data entries alone
  have hstart : HasOutside (fun key => key = .contractCode (sha256 wasm)) s.stored.storage s := by
    intro saved hsaved k _
    rw [hfound.frames] at hsaved
    rw [List.mem_singleton.mp hsaved]
  have hframe := Client.run_allResults (TrackingSource.get transport) _
    (serve transport (.markCode (sha256 wasm)) st').2
    (host.on_frame fork.env.ledgerInfo (host.upload fork.env.ledgerInfo wasm)
      (hhost.touches fork.env.ledgerInfo wasm) s hstart)
  have hmoves : Moves (serve transport (.markCode (sha256 wasm)) st').2 _ :=
    Client.run_invariant (fun key st h => h.trans (get_moves transport key st))
      (host.on fork.env.ledgerInfo (host.upload fork.env.ledgerInfo wasm) s) _ (.refl _)
  generalize (host.on fork.env.ledgerInfo (host.upload fork.env.ledgerInfo wasm) s).run
    (TrackingSource.get transport) _ = uploaded at hframe hmoves ⊢
  obtain ⟨⟨result, after⟩, st''⟩ := uploaded
  have hkeeps : after.stored.storage (.contractData data) = s.stored.storage (.contractData data) :=
    hframe _ List.mem_cons_self _ fun heq => nomatch heq
  have hunwound : after.unwind.stored.storage (.contractData data)
      = s.stored.storage (.contractData data) :=
    hframe.unwind _ List.mem_cons_self _ fun heq => nomatch heq
  replace hlooked := hlooked.mono hmoves.mem_log
  have hlooked' : LookedUp st''.2.log (.contractData data)
      (fork.env.storedEntries.storage (.contractData data))
      (after.stored.storage (.contractData data)) := by
    rw [hkeeps]
    exact hlooked
  split
  case h_2 =>
    next heq =>
    cases heq
    refine panicked_stands (s := after.unwind) ?_
    rw [hunwound]
    exact hlooked
  next hash after' heq =>
  cases heq
  by_cases hhash : hash = sha256 wasm
  case neg => rw [if_neg hhash]; exact panicked_stands hlooked'
  rw [if_pos hhash, Client.run_done]
  by_cases hkey : contractInstanceKey contract = .contractData data
  · rw [if_pos hkey]
    have hentry : s.stored.storage (.contractData data) = some (some (entry, liveUntil)) := by
      rw [← hkey]
      exact hfound.answer _ rfl
    rw [hkeeps, hentry] at hlooked'
    show Stands _ _ _ ((after.stored.set (contractInstanceKey contract) _).storage _) _
    rw [hkey, after.stored.storage_set_self]
    exact .replaced hreplaced hlooked'
  · rw [if_neg hkey]
    show Stands _ _ _ ((after.stored.set (contractInstanceKey contract) _).storage _) _
    rw [after.stored.storage_set_of_ne (Ne.symm hkey)]
    exact .found hlooked'

/-- The methods that run no contract code on the fork. -/
def ForkOp.runsNoCode : ForkOp → Bool
  | .replaceWasm _ _ | .mock (.localAccount _) | .mock (.fundLocalAccount _ _)
  | .mock (.preview _ _) => true
  | .mock (.deploy _ _) | .mock (.invoke _) | .mock (.tryInvoke _) => false

/-- The hash that a replacement has answered, when it is the instance under this key. -/
def replacedHash (key : LedgerKey) : ForkOp × ForkAnswer → Option Bytes32
  | (.replaceWasm contract _, .replaceWasm result) =>
    if contractInstanceKey contract = key then result else none
  | _ => none

omit [Crates] in
theorem StoredEntries.storage_takeOver_self (stored : StoredEntries) (key : LedgerKey) :
    (stored.takeOver stored.storage key).storage = stored.storage := by
  unfold takeOver
  split
  · next value hvalue =>
    funext k
    by_cases hk : k = key
    · rw [hk, stored.storage_set_self, hvalue]
    · exact stored.storage_set_of_ne hk value
  · rfl

omit [Crates] in
/-- A method that works on another key, or changes nothing, leaves a key as it is. -/
theorem lifted_frame {α : Type} {fork : MockFork} {key k : LedgerKey}
    {method : ScenarioFork → PassProgram α} (h : k ≠ key) :
    (fork.lifted key method).AllResults fun r =>
      r.2.env.storedEntries.storage k = fork.env.storedEntries.storage k :=
  (Client.allResults_trivial _).andThen fun _ _ =>
    fork.env.storedEntries.storage_takeOver_of_ne _ h

omit [Crates] in
/-- Funding works on the entry of an account, and on nothing for any other address. -/
theorem fundLocalAccount_frame (fork : MockFork) (account : ScAddress) (amount : Int64)
    (data : LedgerKeyContractData) :
    (fork.fundLocalAccount account amount).AllResults fun r =>
      r.2.env.storedEntries.storage (.contractData data)
        = fork.env.storedEntries.storage (.contractData data) := by
  cases account with
  | account accountId => exact lifted_frame fun h => nomatch h
  | contract _ | muxedAccount _ _ | claimableBalance _ | liquidityPool _ =>
    refine Client.AllResults.andThen (Q := fun r => r.2.storage = fork.env.storedEntries.storage)
      ?_ fun r hr => ?_
    · unfold ScenarioFork.fundLocalAccount
      split <;> rfl
    · show (fork.env.storedEntries.takeOver r.2.storage _).storage _ = _
      rw [hr, StoredEntries.storage_takeOver_self]

variable [SnapshotCrate]

/-- **A method that runs no contract code leaves a data key as it is**, unless it replaces the
instance under it. -/
theorem forkStep_stands {host : CodeHost} (hhost : host.LawfulUpload)
    (transport : Option (Transport σ)) {op : ForkOp} (hop : op.runsNoCode = true)
    (s : MockFork × PassState σ) (data : LedgerKeyContractData) :
    let r := forkStep host transport op s
    Stands r.2.2.2.log (.contractData data) (s.1.env.storedEntries.storage (.contractData data))
      (r.2.1.env.storedEntries.storage (.contractData data))
      (replacedHash (.contractData data) (op, r.1)) := by
  obtain ⟨fork, st⟩ := s
  have hkeeps : ∀ {op : MockOp}, (forkProgram host fork (.mock op)).AllResults (fun r =>
      r.2.env.storedEntries.storage (.contractData data)
        = fork.env.storedEntries.storage (.contractData data)) →
      Stands (forkStep host transport (.mock op) (fork, st)).2.2.2.log (.contractData data)
        (fork.env.storedEntries.storage (.contractData data))
        ((forkStep host transport (.mock op) (fork, st)).2.1.env.storedEntries.storage
          (.contractData data)) none :=
    fun h => .found (Or.inl (Client.run_allResults (serve transport) _ st h))
  cases op with
  | replaceWasm contract wasm =>
    have hstands := replaceWasm_stands hhost transport fork contract wasm st data
    have hrun : (forkProgram host fork (.replaceWasm contract wasm)).run (serve transport) st =
        let r := (fork.replaceWasm host contract wasm).run (serve transport) st
        ((.replaceWasm r.1.1, r.1.2), r.2) := Client.run_andThen _ _ _ _
    unfold forkStep
    rw [hrun]
    exact hstands
  | mock op =>
    cases op with
    | localAccount label =>
      have hframe : (fork.localAccount label).AllResults fun r =>
          r.2.env.storedEntries.storage (.contractData data)
            = fork.env.storedEntries.storage (.contractData data) :=
        lifted_frame fun h => nomatch h
      exact hkeeps (hframe.andThen fun _ hr => hr)
    | fundLocalAccount account amount =>
      exact hkeeps ((fundLocalAccount_frame fork account amount data).andThen fun _ hr => hr)
    | preview request auth =>
      exact hkeeps ((Client.allResults_trivial _).andThen fun _ _ => rfl)
    | deploy _ _ | invoke _ | tryInvoke _ => cases hop

/-! ## Runs -/

/--
**The last replacement of a contract stands.**

Over any run of replacements, local accounts, fundings and previews, in any order and over any
source, a data entry is as the Host has found it first. The instance of a replaced contract has
the executable of its last replacement, and all else of it, its storage and its live-until
ledger among it, is as found.
-/
theorem last_replacement_stands {host : CodeHost} (hhost : host.LawfulUpload)
    (transport : Option (Transport σ)) (data : LedgerKeyContractData) :
    ∀ (ops : List ForkOp) (s : MockFork × PassState σ), (∀ op ∈ ops, op.runsNoCode = true) →
      let run := Machine.run (forkStep host transport) ops s
      Stands run.2.2.2.log (.contractData data)
        (s.1.env.storedEntries.storage (.contractData data))
        (run.2.1.env.storedEntries.storage (.contractData data))
        ((ops.zip run.1).filterMap (replacedHash (.contractData data))).getLast?
  | [], _, _ => .found (Or.inl rfl)
  | op :: ops, s, hops => by
    have hfirst := forkStep_stands hhost transport (hops op List.mem_cons_self) s data
    have hrest := last_replacement_stands hhost transport data ops (forkStep host transport op s).2
      fun op' hop' => hops op' (List.mem_cons_of_mem _ hop')
    have hmoves : Moves (forkStep host transport op s).2.2 _ :=
      forkRun_moves host transport ops (forkStep host transport op s).2
    have hboth := (hfirst.mono hmoves.mem_log).trans hrest
    dsimp only
    rw [Machine.run_cons, List.zip_cons_cons, List.filterMap_cons]
    cases hhash : replacedHash (.contractData data) (op, (forkStep host transport op s).1) with
    | none =>
      rw [hhash, Option.or_none] at hboth
      exact hboth
    | some hash =>
      rw [hhash] at hboth
      rw [List.getLast?_cons]
      cases hlast : ((ops.zip (Machine.run (forkStep host transport) ops
          (forkStep host transport op s).2).1).filterMap
            (replacedHash (.contractData data))).getLast? with
      | none => rw [hlast] at hboth; exact hboth
      | some last => rw [hlast] at hboth; exact hboth

end

end Kanatoko

namespace Kanatoko.Testnet

theorem codeHost_lawfulUpload : codeHost.LawfulUpload where
  touches info wasm := by
    refine ⟨rfl, fun existing => ?_⟩
    dsimp only
    split
    · exact trivial
    · exact ⟨rfl, fun _ => trivial⟩

/-- A contract whose code is replaced twice. -/
def replacedContract : ScAddress := smallContract 2

def instanceEntry : LedgerEntry where
  lastModifiedLedgerSeq := 7
  data := .contractData ⟨replacedContract, .ledgerKeyContractInstance, .persistent,
    .contractInstance ⟨.wasm (sha256 []), some [1, 2, 3]⟩⟩
  ext := .v0

def replacedPass : Coverage :=
  (∅ : Coverage).insert ((ledgerKey.encode (contractInstanceKey replacedContract)).getD [])
    (.present instanceEntry (some 5104877))

def replacedStart : MockFork × PassState Unit :=
  (.new (forkEnvOf (.ledger nativeInfo paymentSnapshot)) nativeInfo.protocolVersion,
    (.new replacedPass nativeInfo.protocolVersion, nativeWorld))

def replacements : List ForkOp :=
  [.replaceWasm replacedContract emptyWasm, .mock (.localAccount "alice"),
    .replaceWasm replacedContract (emptyWasm ++ [0])]

def replacedInstance : LedgerKeyContractData :=
  ⟨replacedContract, .ledgerKeyContractInstance, .persistent⟩

theorem replacements_stand :
    let run := Machine.run (forkStep codeHost none) replacements replacedStart
    Stands run.2.2.2.log (.contractData replacedInstance)
      (replacedStart.1.env.storedEntries.storage (.contractData replacedInstance))
      (run.2.1.env.storedEntries.storage (.contractData replacedInstance))
      (some (sha256 (emptyWasm ++ [0]))) := by
  have hstands := last_replacement_stands codeHost_lawfulUpload none replacedInstance replacements
    replacedStart (by simp [replacements, ForkOp.runsNoCode])
  have hlast : ((replacements.zip
      (Machine.run (forkStep codeHost none) replacements replacedStart).1).filterMap
        (replacedHash (.contractData replacedInstance))).getLast?
      = some (sha256 (emptyWasm ++ [0])) := by
    decide +kernel
  dsimp only at hstands ⊢
  rw [hlast] at hstands
  exact hstands

end Kanatoko.Testnet
