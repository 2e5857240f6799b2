import Mathlib.Tactic.Common

/-!
# Adaptive clients

A client asks operations one after the other. What it asks next may depend on every
answer so far, and it ends with a result. A server answers from a state of its own.

The type is a tree, so a client stops on every sequence of answers; how long it runs is
not bounded in advance.

Four rules are enough to reason about runs:

* `run_invariant`: what every served operation preserves holds after the run, and
  `run_invariant_of_allOps` when only the client's own operations preserve it
* `run_asked`: what serving an operation establishes holds of every asked one after the run
* `run_upToBad`: two servers that answer alike, until one of them turns bad, end alike, and
  `run_upToBad_of_allOps` when they do so for the client's own operations
* `run_allResults`: what holds of every result holds of the result of a run
-/

universe u v w

namespace Adaptive

/-- A client: either a result, or an operation and what to do with its answer. -/
inductive Client (Op : Type u) (Ans : Op → Type v) (α : Type w) where
  | done (result : α)
  | ask (op : Op) (next : Ans op → Client Op Ans α)

/-- A server answers an operation and moves its state. -/
abbrev Server (Op : Type u) (Ans : Op → Type v) (S : Type w) := (op : Op) → S → Ans op × S

variable {Op : Type u} {Ans : Op → Type v} {α : Type w} {S S₁ S₂ : Type*}

namespace Client

/-- Serves the client from the state `s` until it is done. -/
def run (serve : Server Op Ans S) : Client Op Ans α → S → α × S
  | done result, s => (result, s)
  | ask op next, s => (next (serve op s).1).run serve (serve op s).2

/-- Every result the client can end with satisfies `P`, whatever it is answered. -/
def AllResults (P : α → Prop) : Client Op Ans α → Prop
  | done result => P result
  | ask _ next => ∀ answer, (next answer).AllResults P

/-- Every operation the client can ask satisfies `P`, whatever it is answered before. -/
def AllOps (P : Op → Prop) : Client Op Ans α → Prop
  | done _ => True
  | ask op next => P op ∧ ∀ answer, (next answer).AllOps P

/-- The operations the client asks when it is served from the state `s`. -/
def asked (serve : Server Op Ans S) : Client Op Ans α → S → List Op
  | done _, _ => []
  | ask op next, s => op :: (next (serve op s).1).asked serve (serve op s).2

@[simp] theorem run_done (serve : Server Op Ans S) (result : α) (s : S) :
    (done result : Client Op Ans α).run serve s = (result, s) := rfl

@[simp] theorem run_ask (serve : Server Op Ans S) (op : Op) (next : Ans op → Client Op Ans α)
    (s : S) : (ask op next).run serve s = (next (serve op s).1).run serve (serve op s).2 := rfl

theorem run_allResults {P : α → Prop} (serve : Server Op Ans S) :
    ∀ (c : Client Op Ans α) (s : S), c.AllResults P → P (c.run serve s).1
  | done _, _, h => h
  | ask _ next, _, h => run_allResults serve (next _) _ (h _)

/-- Goes on, when the client is done, with another one that has its operations among its own. -/
def andThen {Op' : Type*} {Ans' : Op' → Type*} {β : Type*} (f : Op → Op')
    (g : ∀ op, Ans' (f op) → Ans op) :
    Client Op Ans α → (α → Client Op' Ans' β) → Client Op' Ans' β
  | done result, k => k result
  | ask op next, k => ask (f op) fun answer => (next (g op answer)).andThen f g k

theorem run_andThen {Op' : Type*} {Ans' : Op' → Type*} {β : Type*} {f : Op → Op'}
    {g : ∀ op, Ans' (f op) → Ans op} (serve : Server Op' Ans' S) (c : Client Op Ans α)
    (k : α → Client Op' Ans' β) : ∀ s, (c.andThen f g k).run serve s =
      (k (c.run (fun op s => (g op (serve (f op) s).1, (serve (f op) s).2)) s).1).run serve
        (c.run (fun op s => (g op (serve (f op) s).1, (serve (f op) s).2)) s).2 := by
  induction c with
  | done result => exact fun _ => rfl
  | ask op next ih => exact fun s => ih _ _

/-- What goes on without an operation asks what was asked before. -/
theorem asked_andThen_done {Op' : Type*} {Ans' : Op' → Type*} {β : Type*} {f : Op → Op'}
    {g : ∀ op, Ans' (f op) → Ans op} (serve : Server Op' Ans' S) (c : Client Op Ans α)
    (h : α → β) : ∀ s, (c.andThen f g fun a => done (h a)).asked serve s =
      (c.asked (fun op s => (g op (serve (f op) s).1, (serve (f op) s).2)) s).map f := by
  induction c with
  | done result => exact fun _ => rfl
  | ask op next ih => exact fun s => congrArg (f op :: ·) (ih _ _)

theorem allResults_trivial (c : Client Op Ans α) : c.AllResults fun _ => True := by
  induction c with
  | done result => exact trivial
  | ask op next ih => exact ih

theorem AllResults.andThen {Op' : Type*} {Ans' : Op' → Type*} {β : Type*} {f : Op → Op'}
    {g : ∀ op, Ans' (f op) → Ans op} {Q : α → Prop} {P : β → Prop} {c : Client Op Ans α}
    {k : α → Client Op' Ans' β} (hc : c.AllResults Q) (hk : ∀ a, Q a → (k a).AllResults P) :
    (c.andThen f g k).AllResults P := by
  induction c with
  | done result => exact hk result hc
  | ask op next ih => exact fun answer => ih _ (hc _)

theorem AllOps.andThen {Op' : Type*} {Ans' : Op' → Type*} {β : Type*} {f : Op → Op'}
    {g : ∀ op, Ans' (f op) → Ans op} {P : Op' → Prop} {c : Client Op Ans α}
    {k : α → Client Op' Ans' β} (hc : c.AllOps fun op => P (f op)) (hk : ∀ a, (k a).AllOps P) :
    (c.andThen f g k).AllOps P := by
  induction c with
  | done result => exact hk result
  | ask op next ih => exact ⟨hc.1, fun answer => ih _ (hc.2 _)⟩

/-- What the operations of a client preserve, its run preserves. -/
theorem run_invariant_of_allOps {serve : Server Op Ans S} {P : Op → Prop} {Inv : S → Prop}
    (hstep : ∀ op s, P op → Inv s → Inv (serve op s).2) (c : Client Op Ans α) :
    c.AllOps P → ∀ s, Inv s → Inv (c.run serve s).2 := by
  induction c with
  | done result => exact fun _ _ h => h
  | ask op next ih => exact fun hc s h => ih _ (hc.2 _) _ (hstep op s hc.1 h)

theorem AllOps.of_forall {P : Op → Prop} (h : ∀ op, P op) (c : Client Op Ans α) : c.AllOps P := by
  induction c with
  | done result => exact trivial
  | ask op next ih => exact ⟨h op, ih⟩

theorem allOps_trivial (c : Client Op Ans α) : c.AllOps fun _ => True :=
  .of_forall (fun _ => trivial) c

/-- What every operation preserves, a whole run preserves. -/
theorem run_invariant {serve : Server Op Ans S} {Inv : S → Prop}
    (hstep : ∀ op s, Inv s → Inv (serve op s).2) (c : Client Op Ans α) :
    ∀ s, Inv s → Inv (c.run serve s).2 :=
  run_invariant_of_allOps (fun op s _ => hstep op s) c c.allOps_trivial

/-- What serving an operation establishes, and no other operation undoes, holds of every
operation that was asked when the run has ended. -/
theorem run_asked {serve : Server Op Ans S} {P : Op → Prop} {Q : Op → S → Prop}
    (hself : ∀ op s, P op → Q op (serve op s).2)
    (hkeep : ∀ op op' s, Q op s → Q op (serve op' s).2) (c : Client Op Ans α) :
    c.AllOps P → ∀ s, ∀ op ∈ c.asked serve s, Q op (c.run serve s).2 := by
  induction c with
  | done result => exact fun _ s op hop => by simp [asked] at hop
  | ask op next ih =>
    intro hc s op' hop'
    rw [asked, List.mem_cons] at hop'
    rw [run_ask]
    rcases hop' with rfl | hop'
    · exact run_invariant (hkeep op') _ _ (hself op' s hc.1)
    · exact ih _ (hc.2 _) _ op' hop'

/-- Simulation up to bad, when only the client's own operations are simulated. -/
theorem run_upToBad_of_allOps (serve₁ : Server Op Ans S₁) (serve₂ : Server Op Ans S₂)
    {P : Op → Prop} (Bad : S₁ → Prop) (R : S₁ → S₂ → Prop)
    (hbad : ∀ op s, Bad s → Bad (serve₁ op s).2)
    (hstep : ∀ op s₁ s₂, P op → R s₁ s₂ →
      Bad (serve₁ op s₁).2 ∨
        ((serve₁ op s₁).1 = (serve₂ op s₂).1 ∧ R (serve₁ op s₁).2 (serve₂ op s₂).2))
    (c : Client Op Ans α) :
    c.AllOps P → ∀ s₁ s₂, R s₁ s₂ →
      Bad (c.run serve₁ s₁).2 ∨
        ((c.run serve₁ s₁).1 = (c.run serve₂ s₂).1 ∧
          R (c.run serve₁ s₁).2 (c.run serve₂ s₂).2) := by
  induction c with
  | done result => exact fun _ s₁ s₂ h => Or.inr ⟨rfl, h⟩
  | ask op next ih =>
    intro hc s₁ s₂ h
    rcases hstep op s₁ s₂ hc.1 h with hb | ⟨heq, hr⟩
    · exact Or.inl (run_invariant hbad (next _) _ hb)
    · have hnext := ih (serve₁ op s₁).1 (hc.2 _) _ _ hr
      rw [run_ask, run_ask, ← heq]
      exact hnext

/--
**Simulation up to bad.**

`R` relates the states of two servers. As long as the first server is not bad, both give
the same answer and stay related; once it is bad it stays bad. Then a whole run of one
client either ends bad, or ends with one result in related states.
-/
theorem run_upToBad (serve₁ : Server Op Ans S₁) (serve₂ : Server Op Ans S₂)
    (Bad : S₁ → Prop) (R : S₁ → S₂ → Prop)
    (hbad : ∀ op s, Bad s → Bad (serve₁ op s).2)
    (hstep : ∀ op s₁ s₂, R s₁ s₂ →
      Bad (serve₁ op s₁).2 ∨
        ((serve₁ op s₁).1 = (serve₂ op s₂).1 ∧ R (serve₁ op s₁).2 (serve₂ op s₂).2))
    (c : Client Op Ans α) (s₁ : S₁) (s₂ : S₂) (h : R s₁ s₂) :
    Bad (c.run serve₁ s₁).2 ∨
      ((c.run serve₁ s₁).1 = (c.run serve₂ s₂).1 ∧
        R (c.run serve₁ s₁).2 (c.run serve₂ s₂).2) :=
  run_upToBad_of_allOps serve₁ serve₂ Bad R hbad (fun op s₁ s₂ _ => hstep op s₁ s₂) c
    c.allOps_trivial s₁ s₂ h

end Client

end Adaptive
