import Kanatoko.Scenario.Calls

/-!
# Replaced code, and client code from the outside

`replace_wasm` of a `ScenarioFork`, and the runs of client code: one method after the other,
each with its answer.
-/

namespace Kanatoko

open Adaptive

/-! ## Replaced code -/

/-- The Host under `mock_all_auths`, with its upload of contract code. -/
structure CodeHost extends MockHost where
  /-- `upload_contract_wasm`; `none` when it panics. -/
  upload : LedgerInfo → Bytes → HostProgram (Option Hash)

/-- The instance entry that `replace_wasm` adds, unless one of its checks panics. -/
def replacedEntry (wasmSha256 : Hash) (entry : LedgerEntry) : Option LedgerEntry :=
  match entry.data with
  | .contractData data =>
    match data.val with
    | .contractInstance inst =>
      -- WASM cannot replace a Stellar Asset Contract
      if inst.executable = .stellarAsset then none
      else some { entry with data := .contractData { data with
        val := .contractInstance { inst with executable := .wasm wasmSha256 } } }
    | _ => none
  | _ => none

namespace MockFork

/-- `ScenarioFork::replace_wasm`. The upload runs outside of any call, so a panic undoes nothing
of what it has stored, but for the frames that are open. -/
def replaceWasm [Crates] (host : CodeHost) (fork : MockFork) (contract : ScAddress)
    (wasm : Bytes) : MockProgram Bytes32 :=
  let key := contractInstanceKey contract
  let wasmSha256 := sha256 wasm
  if StrictFork.isContractAddress contract then
    onSource (fork.host.lookup key fun existing s => .done (.ok existing, s)) fun
      | (.ok (some (entry, liveUntil)), s) =>
        match replacedEntry wasmSha256 entry with
        | none => .done (none, fork.withHost s)
        | some replaced => .ask (.markCode wasmSha256) fun _ =>
          onSource (host.on fork.env.ledgerInfo (host.upload fork.env.ledgerInfo wasm) s) fun
            | (.ok (some uploaded), s) =>
              if uploaded = wasmSha256 then
                .done (some wasmSha256, fork.withHost (s.set key (some (replaced, liveUntil))))
              else .done (none, fork.withHost s)
            | (_, s) => .done (none, fork.withHost s.unwind)
      -- no such contract, or a Host that cannot tell
      | (_, s) => .done (none, fork.withHost s)
  else .done (none, fork)

end MockFork

/-! ## Client code -/

inductive ForkOp where
  | mock (op : MockOp)
  | replaceWasm (contract : ScAddress) (wasm : Bytes)

def ForkOp.isPreview : ForkOp → Bool
  | .mock (.preview _ _) => true
  | _ => false

/-- What client code sees of a method. A panic is `none`. -/
inductive ForkAnswer where
  | localAccount (result : Option ScAddress)
  | fundLocalAccount (result : Option Unit)
  | deploy (result : Option ScAddress)
  | invoke (result : Option ScVal)
  | tryInvoke (result : InvokeOutcome)
  | preview (result : Except StrictForkError InvocationReport)
  | replaceWasm (result : Option Bytes32)

variable [Crates] [SnapshotCrate]

def forkProgram (host : CodeHost) (fork : MockFork) :
    ForkOp → Client SourceOp SourceOp.Answer (ForkAnswer × MockFork)
  | .mock (.localAccount label) => answering .localAccount (fork.localAccount label)
  | .mock (.fundLocalAccount account amount) =>
    answering .fundLocalAccount (fork.fundLocalAccount account amount)
  | .mock (.deploy wasm args) => answering .deploy (fork.deploy host.toMockHost wasm args)
  | .mock (.invoke request) => answering .invoke (fork.invoke host.toMockHost request)
  | .mock (.tryInvoke request) => answering .tryInvoke (fork.tryInvoke host.toMockHost request)
  | .mock (.preview request auth) =>
    (fork.preview host.toMockHost request auth).andThen id (fun _ answer => answer)
      fun result => .done (.preview result, fork)
  | .replaceWasm contract wasm => answering .replaceWasm (fork.replaceWasm host contract wasm)
where
  answering {α : Type} (f : α → ForkAnswer) (c : Client SourceOp SourceOp.Answer (α × MockFork)) :
      Client SourceOp SourceOp.Answer (ForkAnswer × MockFork) :=
    c.andThen id (fun _ answer => answer) fun r => .done (f r.1, r.2)

/-- One method of the fork, over its source. -/
def forkStep {σ : Type} (host : CodeHost) (transport : Option (Transport σ)) (op : ForkOp)
    (s : MockFork × PassState σ) : ForkAnswer × MockFork × PassState σ :=
  let r := (forkProgram host s.1 op).run (serve transport) s.2
  (r.1.1, r.1.2, r.2)

end Kanatoko
