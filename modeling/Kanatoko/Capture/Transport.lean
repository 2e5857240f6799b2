import Kanatoko.Capture.Coverage

/-!
# The transport and the world around a run

A transport answers from a state of its own, so its answers may change from call to call in
any way. The world pairs that state with a log of what a run did: every transport call with
its answer, and every ledger lookup of a scenario pass. The log is never read by the program.
-/

namespace Kanatoko

open Fallible

structure Anchor where
  sequence : UInt32
  hash : String
  protocolVersion : UInt32
  timestamp : UInt64
  baseReserve : UInt32
  deriving DecidableEq, Repr

structure Network where
  passphrase : String
  protocolVersion : UInt32
  deriving DecidableEq, Repr

structure EntryBatch where
  latestLedger : UInt32
  entries : List FetchedEntry
  deriving DecidableEq, Repr

structure TransportFailure where
  operation : String
  deriving DecidableEq, Repr

structure Transport (σ : Type) where
  network : σ → Except TransportFailure Network × σ
  latestLedger : σ → Except TransportFailure Anchor × σ
  ledgerEntries : List LedgerKey → σ → Except TransportFailure EntryBatch × σ

/-- The one error a snapshot source raises: `(Storage, InternalError)`. -/
inductive HostError where
  | storageInternalError
  deriving DecidableEq, Repr

abbrev LookupAnswer := Except HostError (Option PresentEntry)

inductive Event where
  | network (answer : Except TransportFailure Network)
  | latestLedger (answer : Except TransportFailure Anchor)
  | ledgerEntries (keys : List LedgerKey) (answer : Except TransportFailure EntryBatch)
  /-- A scenario pass begins. -/
  | pass
  /-- A lookup through the source, and whether the key was marked local at that time. -/
  | lookup (key : LedgerKey) (owned : Bool) (answer : LookupAnswer)
  /-- A preview child ended with these stored keys, or could not be inspected. -/
  | preview (stored : Option (List LedgerKey))

namespace Event

/-- The event is a call of the transport. -/
def isTransport : Event → Bool
  | network _ | latestLedger _ | ledgerEntries _ _ => true
  | pass | lookup _ _ _ | preview _ => false

/-- The event belongs to a pass that makes no transport read. -/
def isOffline : Event → Bool
  | lookup _ _ _ | preview _ => true
  | network _ | latestLedger _ | ledgerEntries _ _ | pass => false

/-- The event is a read of ledger entries. -/
def isEntryRead : Event → Bool
  | ledgerEntries _ _ => true
  | _ => false

theorem isTransport_of_isOffline {e : Event} (h : e.isOffline = true) : e.isTransport = false := by
  cases e <;> first | rfl | cases h

theorem ne_pass_of_isOffline {e : Event} (h : e.isOffline = true) : e ≠ .pass := by
  rintro rfl
  cases h

end Event

structure World (σ : Type) where
  transport : σ
  log : List Event

variable {σ : Type}

namespace World

def record (w : World σ) (e : Event) : World σ := { w with log := w.log ++ [e] }

@[simp] theorem record_log (w : World σ) (e : Event) : (w.record e).log = w.log ++ [e] := rfl

@[simp] theorem record_transport (w : World σ) (e : Event) :
    (w.record e).transport = w.transport := rfl

def network (w : World σ) (t : Transport σ) : Except TransportFailure Network × World σ :=
  let (answer, transport) := t.network w.transport
  (answer, { transport, log := w.log ++ [.network answer] })

def latestLedger (w : World σ) (t : Transport σ) : Except TransportFailure Anchor × World σ :=
  let (answer, transport) := t.latestLedger w.transport
  (answer, { transport, log := w.log ++ [.latestLedger answer] })

def ledgerEntries (w : World σ) (t : Transport σ) (keys : List LedgerKey) :
    Except TransportFailure EntryBatch × World σ :=
  let (answer, transport) := t.ledgerEntries keys w.transport
  (answer, { transport, log := w.log ++ [.ledgerEntries keys answer] })

@[simp] theorem network_log (w : World σ) (t : Transport σ) :
    (w.network t).2.log = w.log ++ [.network (w.network t).1] := rfl

@[simp] theorem latestLedger_log (w : World σ) (t : Transport σ) :
    (w.latestLedger t).2.log = w.log ++ [.latestLedger (w.latestLedger t).1] := rfl

@[simp] theorem ledgerEntries_log (w : World σ) (t : Transport σ) (keys : List LedgerKey) :
    (w.ledgerEntries t keys).2.log
      = w.log ++ [.ledgerEntries keys (w.ledgerEntries t keys).1] := rfl

end World

/-! ## Capture steps -/

/-- How a capture stops: with an error, or by a panic of the program itself. -/
inductive Halt where
  | error (e : CaptureError)
  | panicked
  deriving DecidableEq, Repr

abbrev CaptureM (σ : Type) := EStateM Halt (World σ)

/-- A pure step of a capture. -/
def liftCapture {α : Type} (x : Except CaptureError α) : CaptureM σ α :=
  lift (x.mapError Halt.error)

def stop {α : Type} (e : CaptureError) : CaptureM σ α := throw (.error e)

/-- A transport call: its failure becomes `CaptureError::Transport`. -/
def call {α : Type} (step : World σ → Except TransportFailure α × World σ) : CaptureM σ α :=
  fun w =>
    match step w with
    | (.ok a, w') => .ok a w'
    | (.error failure, w') => .error (.error (.transport failure.operation)) w'

theorem mapError_eq_ok {ε ε' : Type} {α : Type} {f : ε → ε'} {x : Except ε α} {a : α} :
    x.mapError f = .ok a ↔ x = .ok a := by
  cases x <;> simp [Except.mapError]

@[simp] theorem liftCapture_eq_ok {α : Type} {x : Except CaptureError α} {a : α}
    {w w' : World σ} : liftCapture x w = .ok a w' ↔ x = .ok a ∧ w = w' := by
  rw [liftCapture, run_lift_eq_ok, mapError_eq_ok]

@[simp] theorem stop_ne_ok {α : Type} {e : CaptureError} {a : α} {w w' : World σ} :
    (stop e : CaptureM σ α) w ≠ .ok a w' := run_throw_ne_ok

@[simp] theorem call_eq_ok {α : Type} {step : World σ → Except TransportFailure α × World σ}
    {a : α} {w w' : World σ} :
    call step w = .ok a w' ↔ (step w).1 = .ok a ∧ (step w).2 = w' := by
  unfold call
  split
  · next h => simp [h]
  · next h => simp [h]

/-! ## Triples of capture steps -/

section Triples

variable {α : Type} {P : World σ → Prop} {Q : α → World σ → Prop} {E : Halt → World σ → Prop}

theorem triple_liftCapture {x : Except CaptureError α}
    (hok : ∀ a w, x = .ok a → P w → Q a w)
    (herror : ∀ e w, x = .error e → P w → E (.error e) w) : Triple P (liftCapture x) Q E := by
  refine .lift (fun a w h hw => hok a w (mapError_eq_ok.mp h) hw) fun halt w h hw => ?_
  cases x with
  | ok a => cases h
  | error e => cases h; exact herror e w rfl hw

theorem triple_stop {e : CaptureError} (h : ∀ w, P w → E (.error e) w) :
    Triple P (stop e) Q E := .throw h

theorem triple_call {step : World σ → Except TransportFailure α × World σ}
    (hok : ∀ a w, P w → (step w).1 = .ok a → Q a (step w).2)
    (herror : ∀ failure w, P w → (step w).1 = .error failure →
      E (.error (.transport failure.operation)) (step w).2) : Triple P (call step) Q E where
  ok := by
    intro w a w' hw h
    obtain ⟨hans, rfl⟩ := call_eq_ok.mp h
    exact hok a w hw hans
  error := by
    intro w e w' hw h
    unfold call at h
    split at h
    · cases h
    · next failure w₁ heq =>
      cases h
      have hfail := herror failure w hw (congrArg Prod.fst heq)
      rw [heq] at hfail
      exact hfail

end Triples

/-! ## Orderly steps -/

/-- A step that leaves what is in the log when it succeeds, and never panics. -/
structure Orderly {α : Type} (x : CaptureM σ α) : Prop where
  appends : ∀ ⦃w : World σ⦄ ⦃a : α⦄ ⦃w' : World σ⦄, x w = .ok a w' → w.log <+: w'.log
  no_panic : ∀ ⦃w w' : World σ⦄, x w ≠ .error .panicked w'

namespace Orderly

variable {α β : Type}

theorem bind {x : CaptureM σ α} {f : α → CaptureM σ β} (hx : Orderly x)
    (hf : ∀ a, Orderly (f a)) : Orderly (x >>= f) where
  appends := by
    intro w b w' h
    obtain ⟨a, w₁, h₁, h₂⟩ := run_bind_eq_ok.mp h
    exact (hx.appends h₁).trans ((hf a).appends h₂)
  no_panic := by
    intro w w' h
    rcases run_bind_eq_error.mp h with h | ⟨a, w₁, _, h₂⟩
    · exact hx.no_panic h
    · exact (hf a).no_panic h₂

theorem pure (a : α) : Orderly (pure a : CaptureM σ α) where
  appends := by
    intro w b w' h
    rw [run_pure_eq_ok] at h
    rw [h.2]
  no_panic := fun _ _ => run_pure_ne_error

theorem lift (x : Except CaptureError α) : Orderly (liftCapture x : CaptureM σ α) where
  appends := by
    intro w b w' h
    rw [liftCapture_eq_ok] at h
    rw [h.2]
  no_panic := by
    intro w w' h
    rw [liftCapture, run_lift_eq_error] at h
    cases x with
    | ok a => simp [Except.mapError] at h
    | error e => simp [Except.mapError] at h

theorem stop (e : CaptureError) : Orderly (stop e : CaptureM σ α) where
  appends := fun _ _ _ h => absurd h stop_ne_ok
  no_panic := by
    intro w w' h
    rw [Kanatoko.stop, run_throw_eq_error] at h
    exact absurd h.1 (by simp)

theorem call {step : World σ → Except TransportFailure α × World σ}
    (hstep : ∀ w, w.log <+: (step w).2.log) : Orderly (call step) where
  appends := by
    intro w a w' h
    rw [call_eq_ok] at h
    rw [← h.2]
    exact hstep w
  no_panic := by
    intro w w' h
    unfold Kanatoko.call at h
    split at h <;> simp at h

theorem network (t : Transport σ) : Orderly (Kanatoko.call (·.network t)) :=
  call fun _ => List.prefix_append ..

theorem latestLedger (t : Transport σ) : Orderly (Kanatoko.call (·.latestLedger t)) :=
  call fun _ => List.prefix_append ..

theorem ledgerEntries (t : Transport σ) (keys : List LedgerKey) :
    Orderly (Kanatoko.call (·.ledgerEntries t keys)) :=
  call fun _ => List.prefix_append ..

end Orderly

end Kanatoko
