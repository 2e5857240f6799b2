import Kanatoko.Lib.Adaptive
import Mathlib.Logic.Function.Basic

/-!
# Pools of clients

Several adaptive clients share one server. A schedule picks who is served next, and nothing is
assumed of it: a client may be served at any time, again and again, or never.

A typestate says in which phase a client may ask what, and where the answer takes it. A client
that follows its typestate does so whatever it is answered, and therefore whatever the others
do. `run_invariant` is the rule for the whole pool: what every allowed operation preserves,
given the phases of all clients, every schedule preserves.
-/

universe u v w

namespace Adaptive

variable {ι : Type*} {Op : Type u} {Ans : Op → Type v} {α : Type w} {S Phase : Type*}

/-! ## Typestates -/

structure Typestate (Op : Type u) (Ans : Op → Type v) (Phase : Type*) where
  allowed : Phase → Op → Prop
  next : Phase → (op : Op) → Ans op → Phase

/-- From this phase on, the client asks what is allowed, and its result fits the last phase. -/
def Client.Follows (T : Typestate Op Ans Phase) (Fits : Phase → α → Prop) :
    Phase → Client Op Ans α → Prop
  | phase, .done result => Fits phase result
  | phase, .ask op next =>
    T.allowed phase op ∧ ∀ answer, (next answer).Follows T Fits (T.next phase op answer)

/-! ## Pools -/

/-- What each client is left with, and the state of the server. -/
structure Pool (ι : Type*) (Op : Type u) (Ans : Op → Type v) (α : Type w) (S : Type*) where
  clients : ι → Client Op Ans α
  state : S

namespace Pool

variable [DecidableEq ι]

/-- Serves the next operation of one client, when it still asks. -/
def step (serve : Server Op Ans S) (pool : Pool ι Op Ans α S) (i : ι) : Pool ι Op Ans α S :=
  match pool.clients i with
  | .done _ => pool
  | .ask op next =>
    { clients := Function.update pool.clients i (next (serve op pool.state).1)
      state := (serve op pool.state).2 }

/-- Serves the clients in the order of a schedule. -/
def run (serve : Server Op Ans S) (schedule : List ι) (pool : Pool ι Op Ans α S) :
    Pool ι Op Ans α S :=
  schedule.foldl (step serve) pool

/-- The clients follow their typestates from these phases, and the state is as the phases say. -/
structure Keeps (T : ι → Typestate Op Ans Phase) (Fits : Phase → α → Prop)
    (Inv : (ι → Phase) → S → Prop) (phases : ι → Phase) (pool : Pool ι Op Ans α S) : Prop where
  follows : ∀ i, (pool.clients i).Follows (T i) Fits (phases i)
  inv : Inv phases pool.state

variable {serve : Server Op Ans S} {T : ι → Typestate Op Ans Phase} {Fits : Phase → α → Prop}
  {Inv : (ι → Phase) → S → Prop}

theorem Keeps.step (hserve : ∀ i phases op s, Inv phases s → (T i).allowed (phases i) op →
      Inv (Function.update phases i ((T i).next (phases i) op (serve op s).1)) (serve op s).2)
    {phases : ι → Phase} {pool : Pool ι Op Ans α S} (h : Keeps T Fits Inv phases pool) (i : ι) :
    ∃ phases', Keeps T Fits Inv phases' (pool.step serve i) := by
  have hi := h.follows i
  unfold Pool.step
  cases hclient : pool.clients i with
  | done result => exact ⟨phases, h⟩
  | ask op next =>
    rw [hclient] at hi
    refine ⟨Function.update phases i ((T i).next (phases i) op (serve op pool.state).1),
      fun j => ?_, hserve i phases op pool.state h.inv hi.1⟩
    by_cases hj : j = i
    · subst hj
      simp only [Function.update_self]
      exact hi.2 _
    · simp only [Function.update_of_ne hj]
      exact h.follows j

/-- **What every allowed operation preserves, every schedule preserves.** -/
theorem run_invariant (hserve : ∀ i phases op s, Inv phases s → (T i).allowed (phases i) op →
      Inv (Function.update phases i ((T i).next (phases i) op (serve op s).1)) (serve op s).2) :
    ∀ (schedule : List ι) {phases : ι → Phase} {pool : Pool ι Op Ans α S},
      Keeps T Fits Inv phases pool → ∃ phases', Keeps T Fits Inv phases' (pool.run serve schedule)
  | [], phases, _, h => ⟨phases, h⟩
  | i :: schedule, _, _, h => by
    obtain ⟨_, hstep⟩ := h.step hserve i
    exact run_invariant hserve schedule hstep

end Pool

end Adaptive
