import Kanatoko.Scenario
import Kanatoko.Testnet.Native

/-!
# Local accounts

The local accounts of one scenario pass, over every sequence of `local_account` and
`fund_local_account` calls, each panic caught: what a funded account holds, what a panic leaves
behind, and when a funding succeeds. The snapshot source is any server.
-/

namespace Kanatoko

open Adaptive

/-! ## Checked arithmetic -/

theorem checkedI64_eq_some {n : Int} {c : Int64} : checkedI64 n = some c ↔ c.toInt = n := by
  unfold checkedI64
  split
  · next h =>
    rw [Option.some.injEq]
    constructor
    · intro heq
      rw [← heq]
      exact Int64.toInt_ofInt_of_le h.1 h.2
    · intro heq
      rw [← heq]
      exact c.ofInt_toInt
  · next h =>
    simp only [reduceCtorEq, false_iff]
    intro heq
    exact h (heq ▸ ⟨c.le_toInt, c.toInt_lt⟩)

theorem checkedI64_isSome {n : Int} : (∃ c, checkedI64 n = some c) ↔ -2 ^ 63 ≤ n ∧ n < 2 ^ 63 := by
  unfold checkedI64
  split
  · next h => exact ⟨fun _ => h, fun _ => ⟨_, rfl⟩⟩
  · next h => exact ⟨fun ⟨_, hc⟩ => by simp at hc, fun hn => (h hn).elim⟩

theorem toInt_i64From (n : UInt32) : (i64From n).toInt = n.toNat := by
  have := n.toNat_lt
  exact Int64.toInt_ofInt_of_le (by omega) (by omega)

/-- The minimum is two base reserves for every `u32`: its multiplication always fits. -/
theorem checkedMulI64_baseReserve (baseReserve : UInt32) :
    ∃ minimum, checkedMulI64 (i64From baseReserve) 2 = some minimum ∧
      minimum.toInt = 2 * baseReserve.toNat := by
  have := baseReserve.toNat_lt
  have hmul : (i64From baseReserve).toInt * (2 : Int64).toInt = 2 * (baseReserve.toNat : Int) := by
    rw [toInt_i64From, show (2 : Int64).toInt = 2 from rfl, mul_comm]
  obtain ⟨minimum, h⟩ := checkedI64_isSome.mpr
    (show -2 ^ 63 ≤ 2 * (baseReserve.toNat : Int) ∧ 2 * (baseReserve.toNat : Int) < 2 ^ 63 by omega)
  exact ⟨minimum, by rw [checkedMulI64, hmul, h], checkedI64_eq_some.mp h⟩

theorem checkedMulI64_sequence {ledgerSequence : UInt32} {sequence : Int64} :
    checkedMulI64 (i64From ledgerSequence) (Int64.ofInt (2 ^ 32)) = some sequence ↔
      sequence.toInt = ledgerSequence.toNat * 2 ^ 32 := by
  rw [checkedMulI64, checkedI64_eq_some, toInt_i64From,
    Int64.toInt_ofInt_of_le (by decide) (by decide)]

/-! ## The entry of one funding -/

theorem fundedEntry_first {info : LedgerInfo} {accountId : AccountId} {amount : Int64}
    {entry : LedgerEntry} :
    fundedEntry info accountId amount none = some entry ↔
      2 * (info.baseReserve.toNat : Int) ≤ amount.toInt ∧
        ∃ sequence : Int64, sequence.toInt = info.sequenceNumber.toNat * 2 ^ 32 ∧
          createdEntry info accountId amount sequence = entry := by
  obtain ⟨minimum, hminimum, hvalue⟩ := checkedMulI64_baseReserve info.baseReserve
  simp only [fundedEntry, hminimum, Option.bind_eq_bind, Option.bind_some, Int64.lt_iff_toInt_lt,
    hvalue]
  split
  · next hlt => simp [hlt]
  · next hle =>
    simp only [not_lt.mp hle, true_and, Option.bind_eq_some_iff, checkedMulI64_sequence,
      Option.some.injEq]

theorem fundedEntry_again {info : LedgerInfo} {accountId : AccountId}
    {amount balance sequence : Int64} {entry : LedgerEntry} :
    fundedEntry info accountId amount (some (createdEntry info accountId balance sequence, none))
        = some entry ↔
      ∃ sum : Int64, sum.toInt = balance.toInt + amount.toInt ∧
        createdEntry info accountId sum sequence = entry := by
  simp only [fundedEntry, createdEntry, Option.isSome_none, Bool.false_eq_true, if_false,
    if_true, Option.bind_eq_bind, Option.bind_eq_some_iff, checkedAddI64, checkedI64_eq_some,
    Option.some.injEq]

/-! ## One call -/

section Calls

variable {S : Type} (serve : Server SourceOp SourceOp.Answer S)

/-- No entry that the Host holds has changed: at most the source's answer for one key that was
not touched before is held, too. -/
def Loads (s : S) (key : LedgerKey) (storage storage' : Storage) : Prop :=
  storage' = storage ∨
    storage key = none ∧ ∃ value, (serve (.get key) s).1 = .ok value ∧
      storage' = storage.set key value

namespace ScenarioFork

/-- A touched key is not asked for again. -/
theorem getLedgerEntry_touched {α : Type} {fork : ScenarioFork} {key : LedgerKey}
    {value : Option PresentEntry} (h : fork.storage key = some value)
    (next : Option PresentEntry → ScenarioFork → PassProgram α) :
    fork.getLedgerEntry key next = next value fork := by
  rw [getLedgerEntry, h]

/-- Inspecting a key ends the call, or goes on with what is then held under it. -/
theorem run_getLedgerEntry {α : Type} (fork : ScenarioFork) (key : LedgerKey)
    (next : Option PresentEntry → ScenarioFork → PassProgram α) (s : S) :
    ∃ storage s', Loads serve s key fork.storage storage ∧
      ((fork.getLedgerEntry key next).run serve s = ((none, { fork with storage := storage }), s') ∨
        ∃ value, storage key = some value ∧
          (fork.getLedgerEntry key next).run serve s =
            (next value { fork with storage := storage }).run serve s') := by
  cases hstorage : fork.storage key with
  | some value =>
    refine ⟨fork.storage, s, Or.inl rfl, Or.inr ⟨value, hstorage, ?_⟩⟩
    rw [getLedgerEntry_touched hstorage]
  | none =>
    rw [getLedgerEntry, hstorage, Client.run_ask]
    cases hanswer : (serve (.get key) s).1 with
    | error e => exact ⟨fork.storage, _, Or.inl rfl, Or.inl rfl⟩
    | ok value =>
      refine ⟨fork.storage.set key value, _, Or.inr ⟨hstorage, value, hanswer, rfl⟩,
        Or.inr ⟨value, fork.storage.set_self key value, rfl⟩⟩

/-- A funding that is refused before the account is inspected. -/
theorem fundLocalAccount_refused {fork : ScenarioFork} {account : ScAddress} {amount : Int64}
    (h : ¬(0 < amount.toInt ∧
      ∃ publicKey, account = .account publicKey ∧ publicKey ∈ fork.localAccounts)) :
    fork.fundLocalAccount account amount = .done (none, fork) := by
  unfold fundLocalAccount
  split
  · rfl
  · next hpos =>
    split
    · next publicKey =>
      have hpos : 0 < amount.toInt := by
        rw [Int64.le_iff_toInt_le, Int64.toInt_zero] at hpos
        omega
      exact if_neg fun hmem => h ⟨hpos, publicKey, rfl, hmem⟩
    · rfl

/-- A funding of a local account whose key is touched asks the source nothing. -/
theorem fundLocalAccount_local {fork : ScenarioFork} {publicKey : Bytes32} {amount : Int64}
    {existing : Option PresentEntry} (hpos : 0 < amount.toInt)
    (hmem : publicKey ∈ fork.localAccounts)
    (hstorage : fork.storage (.account publicKey) = some existing) :
    fork.fundLocalAccount (.account publicKey) amount =
      match fundedEntry fork.ledgerInfo publicKey amount existing with
      | none => .done (none, fork)
      | some entry => .done (some (), fork.addLedgerEntry (.account publicKey) entry) := by
  have hle : ¬amount ≤ 0 := by
    rw [Int64.le_iff_toInt_le, Int64.toInt_zero]
    omega
  rw [fundLocalAccount, if_neg hle]
  exact (if_pos hmem).trans (getLedgerEntry_touched hstorage _)

variable [Crates]

theorem localAccount_known {fork : ScenarioFork} {label : String}
    (h : localAccountKey fork.ledgerInfo.networkId label ∈ fork.localAccounts) :
    fork.localAccount label =
      .done (some (.account (localAccountKey fork.ledgerInfo.networkId label)), fork) := by
  rw [localAccount]
  exact if_pos h

/-- A label that is new to the pass either gets an account whose entry is absent, or panics. -/
theorem run_localAccount_new {fork : ScenarioFork} {label : String} {publicKey : Bytes32}
    (hkey : localAccountKey fork.ledgerInfo.networkId label = publicKey)
    (h : publicKey ∉ fork.localAccounts) (s : S) :
    ∃ storage s', Loads serve s (.account publicKey) fork.storage storage ∧
      ((fork.localAccount label).run serve s = ((none, { fork with storage := storage }), s') ∨
        storage (.account publicKey) = some none ∧
          (fork.localAccount label).run serve s =
            ((some (.account publicKey),
              { fork with
                storage := storage
                localAccounts := insert publicKey fork.localAccounts }), s')) := by
  have hrun : fork.localAccount label =
      fork.getLedgerEntry (.account publicKey) fun existing fork =>
        if existing.isSome then .done (none, fork)
        else .ask (.markAddress (.account publicKey)) fun _ =>
          .done (some (.account publicKey),
            { fork with localAccounts := insert publicKey fork.localAccounts }) := by
    rw [localAccount, hkey]
    exact if_neg h
  rw [hrun]
  obtain ⟨storage, s', hloads, hend | ⟨value, hvalue, hend⟩⟩ :=
    run_getLedgerEntry serve fork (.account publicKey) _ s
  · exact ⟨storage, s', hloads, Or.inl hend⟩
  · rw [hend]
    cases value with
    -- the address is taken in the captured network
    | some existing => exact ⟨storage, s', hloads, Or.inl rfl⟩
    | none => exact ⟨storage, _, hloads, Or.inr ⟨hvalue, rfl⟩⟩

end ScenarioFork

end Calls

/-! ## Histories -/

/-- A call of the pass with its result. A panic returns nothing. -/
inductive LocalCall where
  | localAccount (label : String) (returned : Option ScAddress)
  | fundLocalAccount (account : ScAddress) (amount : Int64) (returned : Option Unit)

/-- The amount that a call has added to the account with a public key. -/
def LocalCall.funding (publicKey : Bytes32) : LocalCall → Option Int64
  | .fundLocalAccount account amount (some ()) =>
    if account = .account publicKey then some amount else none
  | _ => none

/-- The successful fundings of an account, the latest first. -/
def fundings (publicKey : Bytes32) (history : List LocalCall) : List Int64 :=
  history.filterMap (·.funding publicKey)

/-- The sum that fundings add up to, as an exact integer. -/
def total (amounts : List Int64) : Int := (amounts.map Int64.toInt).sum

/-- The label was requested, and its account is the one with this public key. -/
def Created (publicKey : Bytes32) (history : List LocalCall) : Prop :=
  ∃ label, LocalCall.localAccount label (some (.account publicKey)) ∈ history

/-! ## One funding -/

section Fundings

/-- The entry of an account is as first created, but for a balance of exactly its fundings, the
first of which covers two base reserves. -/
structure HoldsFundings (ledgerInfo : LedgerInfo) (publicKey : Bytes32) (amounts : List Int64)
    (entry : LedgerEntry) : Prop where
  asCreated : ∃ balance sequence : Int64,
    entry = createdEntry ledgerInfo publicKey balance sequence ∧ balance.toInt = total amounts ∧
      sequence.toInt = ledgerInfo.sequenceNumber.toNat * 2 ^ 32
  first : ∃ amount, amounts.getLast? = some amount ∧
    2 * (ledgerInfo.baseReserve.toNat : Int) ≤ amount.toInt

/-- What the Host holds under the key of a local account. -/
def LocalEntry (ledgerInfo : LedgerInfo) (publicKey : Bytes32) (amounts : List Int64)
    (held : Option (Option PresentEntry)) : Prop :=
  (amounts = [] ∧ held = some none) ∨
    ∃ entry, HoldsFundings ledgerInfo publicKey amounts entry ∧ held = some (some (entry, none))

/-- When a funding succeeds, in exact integers. -/
def Accepts (ledgerInfo : LedgerInfo) (history : List LocalCall) (account : ScAddress)
    (amount : Int64) : Prop :=
  0 < amount.toInt ∧ ∃ publicKey, account = .account publicKey ∧ Created publicKey history ∧
    if fundings publicKey history = [] then
      2 * (ledgerInfo.baseReserve.toNat : Int) ≤ amount.toInt ∧
        (ledgerInfo.sequenceNumber.toNat : Int) * 2 ^ 32 < 2 ^ 63
    else total (fundings publicKey history) + amount.toInt < 2 ^ 63

variable {ledgerInfo : LedgerInfo} {publicKey : Bytes32} {amounts : List Int64}
  {entry : LedgerEntry} {amount : Int64}
  {history : List LocalCall}

theorem total_cons : total (amount :: amounts) = total amounts + amount.toInt := by
  rw [total, List.map_cons, List.sum_cons, add_comm, total]

theorem HoldsFundings.of_first
    (h : fundedEntry ledgerInfo publicKey amount none = some entry) :
    HoldsFundings ledgerInfo publicKey [amount] entry := by
  obtain ⟨hminimum, sequence, hsequence, rfl⟩ := fundedEntry_first.mp h
  refine ⟨⟨amount, sequence, rfl, ?_, hsequence⟩, amount, rfl, hminimum⟩
  simp [total]

theorem HoldsFundings.add {entry' : LedgerEntry}
    (hold : HoldsFundings ledgerInfo publicKey amounts entry)
    (h : fundedEntry ledgerInfo publicKey amount (some (entry, none)) = some entry') :
    HoldsFundings ledgerInfo publicKey (amount :: amounts) entry' := by
  obtain ⟨⟨balance, sequence, rfl, hbalance, hsequence⟩, first, hfirst, hminimum⟩ := hold
  obtain ⟨sum, hsum, rfl⟩ := fundedEntry_again.mp h
  refine ⟨⟨sum, sequence, rfl, ?_, hsequence⟩, first, ?_, hminimum⟩
  · rw [hsum, hbalance, total_cons]
  · rw [List.getLast?_cons, hfirst]
    rfl

theorem fundedEntry_first_isSome :
    (∃ entry, fundedEntry ledgerInfo publicKey amount none = some entry) ↔
      2 * (ledgerInfo.baseReserve.toNat : Int) ≤ amount.toInt ∧
        (ledgerInfo.sequenceNumber.toNat : Int) * 2 ^ 32 < 2 ^ 63 := by
  constructor
  · rintro ⟨entry, h⟩
    obtain ⟨hminimum, sequence, hsequence, -⟩ := fundedEntry_first.mp h
    exact ⟨hminimum, hsequence ▸ sequence.toInt_lt⟩
  · rintro ⟨hminimum, hlt⟩
    obtain ⟨sequence, hsequence⟩ := checkedI64_isSome.mpr
      ⟨show -2 ^ 63 ≤ (ledgerInfo.sequenceNumber.toNat : Int) * 2 ^ 32 by omega, hlt⟩
    exact ⟨_, fundedEntry_first.mpr ⟨hminimum, sequence, checkedI64_eq_some.mp hsequence, rfl⟩⟩

theorem HoldsFundings.add_isSome (hold : HoldsFundings ledgerInfo publicKey amounts entry)
    (hpos : 0 < amount.toInt) :
    (∃ entry', fundedEntry ledgerInfo publicKey amount (some (entry, none)) = some entry') ↔
      total amounts + amount.toInt < 2 ^ 63 := by
  obtain ⟨balance, sequence, rfl, hbalance, -⟩ := hold.asCreated
  constructor
  · rintro ⟨entry', h⟩
    obtain ⟨sum, hsum, -⟩ := fundedEntry_again.mp h
    rw [← hbalance, ← hsum]
    exact sum.toInt_lt
  · intro hlt
    have hle := balance.le_toInt
    obtain ⟨sum, hsum⟩ := checkedI64_isSome.mpr
      ⟨show -2 ^ 63 ≤ balance.toInt + amount.toInt by omega, hbalance ▸ hlt⟩
    exact ⟨_, fundedEntry_again.mpr ⟨sum, checkedI64_eq_some.mp hsum, rfl⟩⟩

/-- What an account holds after one more funding, and when that funding succeeds. -/
theorem LocalEntry.fund {held : Option (Option PresentEntry)}
    (hlocal : LocalEntry ledgerInfo publicKey amounts held) (hpos : 0 < amount.toInt) :
    ∃ existing, held = some existing ∧
      (∀ entry, fundedEntry ledgerInfo publicKey amount existing = some entry →
        HoldsFundings ledgerInfo publicKey (amount :: amounts) entry) ∧
      ((∃ entry, fundedEntry ledgerInfo publicKey amount existing = some entry) ↔
        if amounts = [] then
          2 * (ledgerInfo.baseReserve.toNat : Int) ≤ amount.toInt ∧
            (ledgerInfo.sequenceNumber.toNat : Int) * 2 ^ 32 < 2 ^ 63
        else total amounts + amount.toInt < 2 ^ 63) := by
  rcases hlocal with ⟨rfl, hheld⟩ | ⟨entry, hold, hheld⟩
  · refine ⟨none, hheld, fun entry h => .of_first h, ?_⟩
    rw [if_pos rfl]
    exact fundedEntry_first_isSome
  · refine ⟨some (entry, none), hheld, fun entry' h => hold.add h, ?_⟩
    have hne : amounts ≠ [] := by
      obtain ⟨first, hfirst, -⟩ := hold.first
      rintro rfl
      simp at hfirst
    rw [if_neg hne]
    exact hold.add_isSome hpos

theorem created_cons {call : LocalCall} :
    Created publicKey (call :: history) ↔
      (∃ label, call = .localAccount label (some (.account publicKey))) ∨
        Created publicKey history := by
  simp only [Created, List.mem_cons, exists_or, eq_comm]

theorem fundings_cons_of_none {call : LocalCall} (h : call.funding publicKey = none) :
    fundings publicKey (call :: history) = fundings publicKey history :=
  List.filterMap_cons_none h

theorem fundings_cons_other {other : Bytes32} (h : other ≠ publicKey) :
    fundings other (.fundLocalAccount (.account publicKey) amount (some ()) :: history)
      = fundings other history :=
  List.filterMap_cons_none (if_neg fun heq => h (ScAddress.account.inj heq).symm)

theorem fundings_cons_self :
    fundings publicKey (.fundLocalAccount (.account publicKey) amount (some ()) :: history)
      = amount :: fundings publicKey history :=
  List.filterMap_cons_some (if_pos rfl)

theorem LocalEntry.of_loads {S : Type} {serve : Server SourceOp SourceOp.Answer S} {s : S}
    {key : LedgerKey} {storage storage' : Storage}
    (h : LocalEntry ledgerInfo publicKey amounts (storage (.account publicKey)))
    (hloads : Loads serve s key storage storage') :
    LocalEntry ledgerInfo publicKey amounts (storage' (.account publicKey)) := by
  rcases hloads with rfl | ⟨hnone, value, -, rfl⟩
  · exact h
  · have hne : LedgerKey.account publicKey ≠ key := by
      rintro rfl
      simp [LocalEntry, hnone] at h
    rw [storage.set_of_ne hne]
    exact h

end Fundings

/-! ## Runs -/

section Runs

variable [Crates] {S : Type} (serve : Server SourceOp SourceOp.Answer S)

/-- The forks that a pass can reach by calls of the two methods, with the calls so far, the latest
first. No account is local when it starts; its ledger state is any. -/
inductive LocalRun (ledgerInfo : LedgerInfo) : List LocalCall → ScenarioFork → S → Prop
  | start {fork : ScenarioFork} {s : S} (hinfo : fork.ledgerInfo = ledgerInfo)
      (hnone : fork.localAccounts = ∅) : LocalRun ledgerInfo [] fork s
  | localAccount {history : List LocalCall} {fork : ScenarioFork} {s : S} (label : String)
      (h : LocalRun ledgerInfo history fork s) :
      LocalRun ledgerInfo
        (.localAccount label ((fork.localAccount label).run serve s).1.1 :: history)
        ((fork.localAccount label).run serve s).1.2 ((fork.localAccount label).run serve s).2
  | fundLocalAccount {history : List LocalCall} {fork : ScenarioFork} {s : S}
      (account : ScAddress) (amount : Int64) (h : LocalRun ledgerInfo history fork s) :
      LocalRun ledgerInfo
        (.fundLocalAccount account amount
          ((fork.fundLocalAccount account amount).run serve s).1.1 :: history)
        ((fork.fundLocalAccount account amount).run serve s).1.2
        ((fork.fundLocalAccount account amount).run serve s).2

/-- What every call preserves. -/
structure LocalState (ledgerInfo : LedgerInfo) (history : List LocalCall) (fork : ScenarioFork) :
    Prop where
  info : fork.ledgerInfo = ledgerInfo
  mem_iff : ∀ publicKey, publicKey ∈ fork.localAccounts ↔ Created publicKey history
  label : ∀ label address, LocalCall.localAccount label (some address) ∈ history →
    address = .account (localAccountKey ledgerInfo.networkId label)
  entry : ∀ publicKey ∈ fork.localAccounts,
    LocalEntry ledgerInfo publicKey (fundings publicKey history) (fork.storage (.account publicKey))
  others : ∀ publicKey, publicKey ∉ fork.localAccounts → fundings publicKey history = []

variable {ledgerInfo : LedgerInfo} {publicKey : Bytes32} {entry : LedgerEntry}
  {amount : Int64} {history : List LocalCall} {fork : ScenarioFork}

/-- Either a funding is not acceptable and leaves everything as it was, or it adds the entry of
one more funding. -/
theorem LocalState.run_fundLocalAccount (hstate : LocalState ledgerInfo history fork)
    (account : ScAddress) (amount : Int64) (s : S) :
    (¬Accepts ledgerInfo history account amount ∧
      (fork.fundLocalAccount account amount).run serve s = ((none, fork), s)) ∨
    (Accepts ledgerInfo history account amount ∧ ∃ publicKey entry,
      account = .account publicKey ∧ publicKey ∈ fork.localAccounts ∧
        HoldsFundings ledgerInfo publicKey (amount :: fundings publicKey history) entry ∧
        (fork.fundLocalAccount account amount).run serve s =
          ((some (), fork.addLedgerEntry (.account publicKey) entry), s)) := by
  by_cases hlocal : 0 < amount.toInt ∧
      ∃ publicKey, account = .account publicKey ∧ publicKey ∈ fork.localAccounts
  · obtain ⟨hpos, publicKey, rfl, hmem⟩ := hlocal
    obtain ⟨existing, hheld, hentry, haccepts⟩ := (hstate.entry publicKey hmem).fund hpos
    have hiff : Accepts ledgerInfo history (.account publicKey) amount ↔
        ∃ entry, fundedEntry ledgerInfo publicKey amount existing = some entry := by
      rw [haccepts]
      constructor
      · rintro ⟨-, _, heq, -, h⟩
        obtain rfl := ScAddress.account.inj heq
        exact h
      · exact fun h => ⟨hpos, publicKey, rfl, (hstate.mem_iff publicKey).mp hmem, h⟩
    rw [ScenarioFork.fundLocalAccount_local hpos hmem hheld, hstate.info, hiff]
    cases hfunded : fundedEntry ledgerInfo publicKey amount existing with
    | none => exact Or.inl ⟨by simp, rfl⟩
    | some entry =>
      exact Or.inr ⟨⟨entry, rfl⟩, publicKey, entry, rfl, hmem, hentry entry hfunded, rfl⟩
  · refine Or.inl ⟨?_, by rw [ScenarioFork.fundLocalAccount_refused hlocal, Client.run_done]⟩
    rintro ⟨hpos, publicKey, rfl, hcreated, -⟩
    exact hlocal ⟨hpos, publicKey, rfl, (hstate.mem_iff publicKey).mpr hcreated⟩

theorem LocalState.start (hinfo : fork.ledgerInfo = ledgerInfo) (hnone : fork.localAccounts = ∅) :
    LocalState ledgerInfo [] fork where
  info := hinfo
  mem_iff := by simp [hnone, Created]
  label := by simp
  entry := by simp [hnone]
  others := by simp [fundings]

/-- A label whose account is known already, and a panic, record nothing new. -/
theorem LocalState.localAccount_old {storage : Storage} {key : LedgerKey} {s : S}
    (hstate : LocalState ledgerInfo history fork) (hloads : Loads serve s key fork.storage storage)
    {label : String} {returned : Option ScAddress}
    (hreturned : ∀ address, returned = some address →
      address = .account (localAccountKey ledgerInfo.networkId label) ∧
        localAccountKey ledgerInfo.networkId label ∈ fork.localAccounts) :
    LocalState ledgerInfo (.localAccount label returned :: history)
      { fork with storage := storage } where
  info := hstate.info
  mem_iff publicKey := by
    rw [created_cons, hstate.mem_iff publicKey]
    constructor
    · exact Or.inr
    · rintro (⟨_, heq⟩ | h)
      · obtain ⟨rfl, hr⟩ := LocalCall.localAccount.inj heq
        obtain ⟨haccount, hmem⟩ := hreturned _ hr
        rw [← ScAddress.account.inj haccount] at hmem
        exact (hstate.mem_iff publicKey).mp hmem
      · exact h
  label l address hmem := by
    rcases List.mem_cons.mp hmem with heq | h
    · obtain ⟨rfl, hr⟩ := LocalCall.localAccount.inj heq
      exact (hreturned address hr.symm).1
    · exact hstate.label l address h
  entry publicKey hmem := by
    rw [fundings_cons_of_none rfl]
    exact (hstate.entry publicKey hmem).of_loads hloads
  others publicKey hmem := by
    rw [fundings_cons_of_none rfl]
    exact hstate.others publicKey hmem

/-- A new local account has no entry and no fundings. -/
theorem LocalState.localAccount_new {storage : Storage} {key : LedgerKey} {s : S}
    (hstate : LocalState ledgerInfo history fork) (hloads : Loads serve s key fork.storage storage)
    {label : String} (hkey : localAccountKey ledgerInfo.networkId label = publicKey)
    (hmem : publicKey ∉ fork.localAccounts)
    (habsent : storage (.account publicKey) = some none) :
    LocalState ledgerInfo (.localAccount label (some (.account publicKey)) :: history)
      { fork with
        storage := storage
        localAccounts := insert publicKey fork.localAccounts } where
  info := hstate.info
  mem_iff other := by
    rw [created_cons, Finset.mem_insert, hstate.mem_iff other]
    refine or_congr_left ⟨?_, ?_⟩
    · rintro rfl
      exact ⟨label, rfl⟩
    · rintro ⟨_, heq⟩
      exact (ScAddress.account.inj (Option.some.inj (LocalCall.localAccount.inj heq).2)).symm
  label l address h := by
    rcases List.mem_cons.mp h with heq | h
    · obtain ⟨rfl, hr⟩ := LocalCall.localAccount.inj heq
      rw [Option.some.inj hr, hkey]
    · exact hstate.label l address h
  entry other hother := by
    rw [fundings_cons_of_none rfl]
    rcases Finset.mem_insert.mp hother with rfl | h
    · exact Or.inl ⟨hstate.others _ hmem, habsent⟩
    · exact (hstate.entry other h).of_loads hloads
  others other hother := by
    rw [fundings_cons_of_none rfl]
    exact hstate.others other fun h => hother (Finset.mem_insert_of_mem h)

theorem LocalState.fund_failed (hstate : LocalState ledgerInfo history fork) (account : ScAddress)
    (amount : Int64) :
    LocalState ledgerInfo (.fundLocalAccount account amount none :: history) fork where
  info := hstate.info
  mem_iff publicKey := by simp [created_cons, hstate.mem_iff publicKey]
  label l address h := hstate.label l address (by simpa using h)
  entry publicKey hmem := by
    rw [fundings_cons_of_none rfl]
    exact hstate.entry publicKey hmem
  others publicKey hmem := by
    rw [fundings_cons_of_none rfl]
    exact hstate.others publicKey hmem

theorem LocalState.fund_succeeded (hstate : LocalState ledgerInfo history fork)
    (hmem : publicKey ∈ fork.localAccounts)
    (hold : HoldsFundings ledgerInfo publicKey (amount :: fundings publicKey history) entry) :
    LocalState ledgerInfo (.fundLocalAccount (.account publicKey) amount (some ()) :: history)
      (fork.addLedgerEntry (.account publicKey) entry) where
  info := hstate.info
  mem_iff other := by simp [created_cons, ScenarioFork.addLedgerEntry, hstate.mem_iff other]
  label l address h := hstate.label l address (by simpa using h)
  entry other hother := by
    by_cases heq : other = publicKey
    · subst heq
      rw [fundings_cons_self]
      exact Or.inr ⟨entry, hold, fork.storage.set_self _ _⟩
    · have hne : LedgerKey.account other ≠ .account publicKey := fun h =>
        heq (LedgerKey.account.inj h)
      have hsame : (fork.addLedgerEntry (.account publicKey) entry).storage (.account other)
          = fork.storage (.account other) :=
        fork.storage.set_of_ne hne _
      rw [fundings_cons_other heq, hsame]
      exact hstate.entry other hother
  others other hother := by
    have hne : other ≠ publicKey := fun h => hother (h ▸ hmem)
    rw [fundings_cons_other hne]
    exact hstate.others other hother

/-! ### All steps -/

theorem LocalState.localAccount (hstate : LocalState ledgerInfo history fork) (label : String)
    (s : S) :
    LocalState ledgerInfo (.localAccount label ((fork.localAccount label).run serve s).1.1 :: history)
      ((fork.localAccount label).run serve s).1.2 := by
  generalize hkey : localAccountKey ledgerInfo.networkId label = publicKey
  rw [← hstate.info] at hkey
  by_cases hmem : publicKey ∈ fork.localAccounts
  · rw [ScenarioFork.localAccount_known (hkey ▸ hmem), Client.run_done]
    have hloads : Loads serve s (.account publicKey) fork.storage fork.storage := Or.inl rfl
    refine hstate.localAccount_old serve hloads ?_
    rintro address ⟨⟩
    rw [← hstate.info]
    exact ⟨rfl, hkey ▸ hmem⟩
  · obtain ⟨storage, s', hloads, hrun | ⟨habsent, hrun⟩⟩ :=
      ScenarioFork.run_localAccount_new serve hkey hmem s
    · rw [hrun]
      exact hstate.localAccount_old serve hloads (by simp)
    · rw [hrun]
      exact hstate.localAccount_new serve hloads (hstate.info ▸ hkey) hmem habsent

theorem LocalState.fundLocalAccount (hstate : LocalState ledgerInfo history fork)
    (account : ScAddress) (amount : Int64) (s : S) :
    LocalState ledgerInfo
      (.fundLocalAccount account amount
        ((fork.fundLocalAccount account amount).run serve s).1.1 :: history)
      ((fork.fundLocalAccount account amount).run serve s).1.2 := by
  rcases hstate.run_fundLocalAccount serve account amount s with
    ⟨-, hrun⟩ | ⟨-, publicKey, entry, rfl, hmem, hold, hrun⟩
  · rw [hrun]
    exact hstate.fund_failed account amount
  · rw [hrun]
    exact hstate.fund_succeeded hmem hold

theorem LocalRun.localState {s : S} (h : LocalRun serve ledgerInfo history fork s) :
    LocalState ledgerInfo history fork := by
  induction h with
  | start hinfo hnone => exact .start hinfo hnone
  | localAccount label h ih => exact ih.localAccount serve label _
  | fundLocalAccount account amount h ih => exact ih.fundLocalAccount serve account amount _

end Runs

/--
**Local account funding is exact and atomic.**

After every sequence of calls, for every source:

* an account with fundings holds an entry as first created, whose balance is their exact sum and
  whose first funding covers two base reserves
* requesting a known label again returns its address and changes nothing
* a funding that panics changes nothing, and a `local_account` that panics changes no entry that
  the Host holds
* a funding succeeds exactly when its amount is positive, its account was created in this pass,
  and either it covers the minimum and the sequence number fits, or the sum fits
-/
theorem local_funding_exact [Crates] {S : Type} (serve : Server SourceOp SourceOp.Answer S)
    {ledgerInfo : LedgerInfo} {history : List LocalCall} {fork : ScenarioFork} {s : S}
    (h : LocalRun serve ledgerInfo history fork s) :
    (∀ publicKey, fundings publicKey history ≠ [] →
      ∃ entry, fork.storage (.account publicKey) = some (some (entry, none)) ∧
        HoldsFundings ledgerInfo publicKey (fundings publicKey history) entry) ∧
    (∀ label address, LocalCall.localAccount label (some address) ∈ history →
      (fork.localAccount label).run serve s = ((some address, fork), s)) ∧
    (∀ label, ((fork.localAccount label).run serve s).1.1 = none →
      Loads serve s (.account (localAccountKey ledgerInfo.networkId label)) fork.storage
        ((fork.localAccount label).run serve s).1.2.storage) ∧
    (∀ account amount, ((fork.fundLocalAccount account amount).run serve s).1.1 = none →
      (fork.fundLocalAccount account amount).run serve s = ((none, fork), s)) ∧
    (∀ account amount, ((fork.fundLocalAccount account amount).run serve s).1.1 = some () ↔
      Accepts ledgerInfo history account amount) := by
  have hstate := h.localState
  refine ⟨?_, ?_, ?_, ?_, ?_⟩
  · intro publicKey hne
    by_cases hmem : publicKey ∈ fork.localAccounts
    · rcases hstate.entry publicKey hmem with ⟨hnil, -⟩ | ⟨entry, hold, hheld⟩
      · exact (hne hnil).elim
      · exact ⟨entry, hheld, hold⟩
    · exact (hne (hstate.others publicKey hmem)).elim
  · intro label address hcall
    obtain rfl := hstate.label label address hcall
    have hmem := (hstate.mem_iff _).mpr ⟨label, hcall⟩
    rw [← hstate.info] at hmem ⊢
    rw [ScenarioFork.localAccount_known hmem, Client.run_done]
  · intro label hnone
    generalize hkey : localAccountKey ledgerInfo.networkId label = publicKey
    rw [← hstate.info] at hkey
    by_cases hmem : publicKey ∈ fork.localAccounts
    · rw [ScenarioFork.localAccount_known (hkey ▸ hmem), Client.run_done] at hnone
      cases hnone
    · obtain ⟨storage, s', hloads, hrun | ⟨-, hrun⟩⟩ :=
        ScenarioFork.run_localAccount_new serve hkey hmem s
      · rw [hrun]
        exact hloads
      · rw [hrun] at hnone
        cases hnone
  · intro account amount hnone
    rcases hstate.run_fundLocalAccount serve account amount s with
      ⟨-, hrun⟩ | ⟨-, _, _, -, -, -, hrun⟩
    · exact hrun
    · rw [hrun] at hnone
      cases hnone
  · intro account amount
    rcases hstate.run_fundLocalAccount serve account amount s with
      ⟨hnot, hrun⟩ | ⟨haccepts, _, _, -, -, -, hrun⟩
    · simp [hrun, hnot]
    · simp [hrun, haccepts]

end Kanatoko

namespace Kanatoko.Testnet

open Adaptive

/-! ## Two fundings -/

/-- A network without entries. -/
def emptyNetwork : Server SourceOp SourceOp.Answer Unit
  | .get _, s => (.ok none, s)
  | .markAddress _, s => ((), s)
  | .markCode _, s => ((), s)
  | .preview _, s => (.ok 0, s)

/-- A pass over the ledger of the native asset. -/
def nativePass : ScenarioFork := .new (forkEnv nativeInfo nativeBundle.ledgerSnapshot)

/-- The public key of the local account `alice`. -/
def alice : Bytes32 := localAccountKey nativeInfo.networkId "alice"

/-- `alice` is requested and funded twice: her entry holds both fundings. -/
theorem alice_funded : ∃ history fork s,
    LocalRun emptyNetwork nativePass.ledgerInfo history fork s ∧
      fundings alice history = [5, 10000000] ∧
      ∃ entry, fork.storage (.account alice) = some (some (entry, none)) ∧
        HoldsFundings nativePass.ledgerInfo alice (fundings alice history) entry := by
  have hstart : LocalRun emptyNetwork nativePass.ledgerInfo [] nativePass () := .start rfl rfl
  have hcreated : LocalRun emptyNetwork nativePass.ledgerInfo
      [.localAccount "alice" (some (.account alice))] _ _ :=
    hstart.localAccount "alice"
  have hnone : fundings alice [.localAccount "alice" (some (.account alice))] = [] := rfl
  have hfirst := hcreated.fundLocalAccount (.account alice) 10000000
  rw [((local_funding_exact _ hcreated).2.2.2.2 (.account alice) 10000000).mpr
    ⟨by decide, alice, rfl, ⟨"alice", .head _⟩, by rw [if_pos hnone]; decide⟩] at hfirst
  have hone : fundings alice [.fundLocalAccount (.account alice) 10000000 (some ()),
      .localAccount "alice" (some (.account alice))] = [10000000] := by
    rw [fundings_cons_self, hnone]
  have hsecond := hfirst.fundLocalAccount (.account alice) 5
  rw [((local_funding_exact _ hfirst).2.2.2.2 (.account alice) 5).mpr
    ⟨by decide, alice, rfl, ⟨"alice", .tail _ (.head _)⟩, by rw [hone, if_neg (by simp)]; decide⟩]
    at hsecond
  have htwo : fundings alice [.fundLocalAccount (.account alice) 5 (some ()),
      .fundLocalAccount (.account alice) 10000000 (some ()),
      .localAccount "alice" (some (.account alice))] = [5, 10000000] := by
    rw [fundings_cons_self, hone]
  obtain ⟨entry, hheld, hold⟩ := (local_funding_exact _ hsecond).1 alice (by rw [htwo]; simp)
  exact ⟨_, _, _, hsecond, htwo, entry, hheld, hold⟩

end Kanatoko.Testnet
