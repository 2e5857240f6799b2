import Kanatoko.Lib.Adaptive
import Mathlib.Logic.Function.Basic

/-!
# Drawn names

Programs over a store that draw names as they go. The names come one after the other from one
sequence. A draw is for an owner, and it ends the program when the owner has the name already.

A program opens and closes frames. A frame that fails takes back what the store and the names
of the owners have become in it; the sequence goes on all the same.

`ideal` runs a program as if no draw could end it, and says for whom it draws, and in which
frames. The real run from a position of the sequence is the ideal one when its draws are fresh,
and it ends without a result when they are not. So two runs over one store, from two positions,
end alike exactly when the draws of both are fresh or the draws of both are not.
-/

universe u v w x y

namespace Draws

open Adaptive

inductive Op (Key : Type u) (Value : Type v) (Owner : Type w) where
  | get (key : Key)
  | put (key : Key) (value : Option Value)
  | draw (owner : Owner)
  | push
  | pop (succeeded : Bool)

variable {Key : Type u} {Value : Type v} {Owner : Type w} {Name : Type x} {α : Type y}

abbrev Op.Answer : Op Key Value Owner → Type v
  | .get _ => Option Value
  | .put _ _ | .draw _ | .push | .pop _ => PUnit

abbrev Program (Key : Type u) (Value : Type v) (Owner : Type w) (α : Type y) :=
  Client (Op Key Value Owner) Op.Answer α

/-! ## Frames -/

/-- What stands behind a frame: what its end has become, or what its start has saved. Where no
frame is open there is nothing to take back. -/
def close {β : Type*} (succeeded : Bool) (current : β) : List β → β
  | [] => current
  | saved :: _ => if succeeded then current else saved

theorem map_close {β γ : Type*} (f : β → γ) (succeeded : Bool) (current : β) (frames : List β) :
    f (close succeeded current frames) = close succeeded (f current) (frames.map f) := by
  cases frames with
  | nil => rfl
  | cons saved rest => cases succeeded <;> rfl

/-- A frame gives back something that stood before it. -/
theorem close_mem {β : Type*} (succeeded : Bool) (current : β) (frames : List β) :
    close succeeded current frames ∈ current :: frames := by
  cases frames with
  | nil => exact List.mem_singleton_self _
  | cons saved rest => cases succeeded <;> simp [close]

/-! ## Runs -/

/-- A store, and the names each owner has. -/
structure Contents (Key : Type u) (Value : Type v) (Owner : Type w) (Name : Type x) where
  data : Key → Option Value
  used : Owner → Name → Bool

/-- What a program runs on: how many names have been drawn, and what its open frames have saved,
innermost first. -/
structure State (Key : Type u) (Value : Type v) (Owner : Type w) (Name : Type x) extends
    Contents Key Value Owner Name where
  drawn : Nat
  frames : List (Contents Key Value Owner Name)

namespace State

def push (s : State Key Value Owner Name) : State Key Value Owner Name :=
  { s with frames := s.toContents :: s.frames }

def pop (s : State Key Value Owner Name) (succeeded : Bool) : State Key Value Owner Name :=
  { s with
    toContents := close succeeded s.toContents s.frames
    frames := s.frames.tail }

end State

/-- What a run does to the names. -/
inductive Mark (Owner : Type w) where
  | draw (owner : Owner)
  | push
  | pop (succeeded : Bool)

variable [DecidableEq Key]

/-- The result without the names, the store it leaves, and what it would do to the names. -/
def ideal : Program Key Value Owner α → (Key → Option Value) → List (Key → Option Value) →
    α × (Key → Option Value) × List (Mark Owner)
  | .done a, data, _ => (a, data, [])
  | .ask (.get key) next, data, frames => ideal (next (data key)) data frames
  | .ask (.put key value) next, data, frames =>
    ideal (next ⟨⟩) (Function.update data key value) frames
  | .ask (.draw owner) next, data, frames =>
    let end' := ideal (next ⟨⟩) data frames
    (end'.1, end'.2.1, .draw owner :: end'.2.2)
  | .ask .push next, data, frames =>
    let end' := ideal (next ⟨⟩) data (data :: frames)
    (end'.1, end'.2.1, .push :: end'.2.2)
  | .ask (.pop succeeded) next, data, frames =>
    let end' := ideal (next ⟨⟩) (close succeeded data frames) frames.tail
    (end'.1, end'.2.1, .pop succeeded :: end'.2.2)

variable [DecidableEq Owner] [DecidableEq Name]

/-- The owner has one name more. -/
def use (used : Owner → Name → Bool) (owner : Owner) (name : Name) : Owner → Name → Bool :=
  fun o n => decide (o = owner ∧ n = name) || used o n

variable (sequence : Nat → Name)

/-- Nobody of the owners is drawn a name that he has. -/
def fresh : List (Mark Owner) → Nat → (Owner → Name → Bool) → List (Owner → Name → Bool) → Bool
  | [], _, _, _ => true
  | .draw owner :: rest, drawn, used, frames =>
    !used owner (sequence drawn) &&
      fresh rest (drawn + 1) (use used owner (sequence drawn)) frames
  | .push :: rest, drawn, used, frames => fresh rest drawn used (used :: frames)
  | .pop succeeded :: rest, drawn, used, frames =>
    fresh rest drawn (close succeeded used frames) frames.tail

/-- The run. It has no result when a draw has ended it. -/
def exec : Program Key Value Owner α → State Key Value Owner Name →
    Option α × State Key Value Owner Name
  | .done a, s => (some a, s)
  | .ask (.get key) next, s => exec (next (s.data key)) s
  | .ask (.put key value) next, s =>
    exec (next ⟨⟩) { s with data := Function.update s.data key value }
  | .ask (.draw owner) next, s =>
    if s.used owner (sequence s.drawn) then (none, { s with drawn := s.drawn + 1 })
    else exec (next ⟨⟩)
      { s with used := use s.used owner (sequence s.drawn), drawn := s.drawn + 1 }
  | .ask .push next, s => exec (next ⟨⟩) s.push
  | .ask (.pop succeeded) next, s => exec (next ⟨⟩) (s.pop succeeded)

variable {sequence}

theorem exec_draw_used {owner : Owner} {next : PUnit → Program Key Value Owner α}
    {s : State Key Value Owner Name} (h : s.used owner (sequence s.drawn) = true) :
    exec sequence (.ask (.draw owner) next) s = (none, { s with drawn := s.drawn + 1 }) :=
  if_pos h

theorem exec_draw_new {owner : Owner} {next : PUnit → Program Key Value Owner α}
    {s : State Key Value Owner Name} (h : s.used owner (sequence s.drawn) = false) :
    exec sequence (.ask (.draw owner) next) s = exec sequence (next ⟨⟩)
      { s with used := use s.used owner (sequence s.drawn), drawn := s.drawn + 1 } :=
  if_neg (by rw [h]; exact Bool.false_ne_true)

namespace State

/-- What the ideal run of a program is from a state on. -/
def ideal (p : Program Key Value Owner α) (s : State Key Value Owner Name) :
    α × (Key → Option Value) × List (Mark Owner) :=
  Draws.ideal p s.data (s.frames.map Contents.data)

/-- The draws of a program are fresh from a state on. -/
def fresh (sequence : Nat → Name) (p : Program Key Value Owner α)
    (s : State Key Value Owner Name) : Bool :=
  Draws.fresh sequence (s.ideal p).2.2 s.drawn s.used (s.frames.map Contents.used)

omit [DecidableEq Owner] [DecidableEq Name] in
theorem ideal_pop (succeeded : Bool) (next : PUnit → Program Key Value Owner α)
    (s : State Key Value Owner Name) :
    s.ideal (.ask (.pop succeeded) next) =
      let end' := (s.pop succeeded).ideal (next ⟨⟩)
      (end'.1, end'.2.1, .pop succeeded :: end'.2.2) := by
  have hdata := map_close Contents.data succeeded s.toContents s.frames
  unfold ideal
  rw [Draws.ideal, ← hdata, ← List.map_tail]
  rfl

/-- A closed frame goes on with the names that stand behind it. -/
theorem fresh_pop (succeeded : Bool) (next : PUnit → Program Key Value Owner α)
    (s : State Key Value Owner Name) :
    s.fresh sequence (.ask (.pop succeeded) next)
      = (s.pop succeeded).fresh sequence (next ⟨⟩) := by
  have hused := map_close Contents.used succeeded s.toContents s.frames
  unfold fresh
  rw [ideal_pop, Draws.fresh, ← hused, ← List.map_tail]
  rfl

end State

/-- **A run whose draws are fresh is the ideal run.** -/
theorem exec_of_fresh (p : Program Key Value Owner α) : ∀ s : State Key Value Owner Name,
    s.fresh sequence p = true →
    (exec sequence p s).1 = some (s.ideal p).1 ∧ (exec sequence p s).2.data = (s.ideal p).2.1 := by
  induction p with
  | done a => exact fun _ _ => ⟨rfl, rfl⟩
  | ask op next ih =>
    intro s hfresh
    cases op with
    | get key => exact ih _ s hfresh
    | put key value => exact ih ⟨⟩ { s with data := Function.update s.data key value } hfresh
    | draw owner =>
      rw [State.fresh, State.ideal, ideal, Draws.fresh, Bool.and_eq_true,
        Bool.not_eq_true'] at hfresh
      rw [exec_draw_new hfresh.1]
      exact ih ⟨⟩ _ hfresh.2
    | push => exact ih ⟨⟩ s.push hfresh
    | pop succeeded =>
      rw [s.fresh_pop] at hfresh
      rw [s.ideal_pop]
      exact ih ⟨⟩ (s.pop succeeded) hfresh

/-- **A run whose draws are not fresh has no result.** -/
theorem exec_of_stale (p : Program Key Value Owner α) : ∀ s : State Key Value Owner Name,
    s.fresh sequence p = false → (exec sequence p s).1 = none := by
  induction p with
  | done a => exact fun _ h => nomatch h
  | ask op next ih =>
    intro s hstale
    cases op with
    | get key => exact ih _ s hstale
    | put key value => exact ih ⟨⟩ { s with data := Function.update s.data key value } hstale
    | draw owner =>
      cases hused : s.used owner (sequence s.drawn) with
      | true => rw [exec_draw_used hused]
      | false =>
        rw [State.fresh, State.ideal, ideal, Draws.fresh, hused, Bool.not_false,
          Bool.true_and] at hstale
        rw [exec_draw_new hused]
        exact ih ⟨⟩ _ hstale
    | push => exact ih ⟨⟩ s.push hstale
    | pop succeeded =>
      rw [s.fresh_pop] at hstale
      exact ih ⟨⟩ (s.pop succeeded) hstale

end Draws
