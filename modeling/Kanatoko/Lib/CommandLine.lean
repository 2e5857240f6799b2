import Kanatoko.Lib.Fallible

/-!
# Command lines

A loop that reads options from a list of arguments, one after the other, into a record. Some
options stand alone, and some take the argument behind them.

A `Grammar` names the options that a table accepts. Where there is one, the accepted lists of
arguments are the renderings of lists of options (`Grammar.read_iff`), and every field of the
record is set by the last option for it (`get_applyAll`).
-/

universe u v w

namespace CommandLine

open Fallible

variable {ε σ : Type u}

/-- What stands behind the name of an option. -/
inductive Flag (ε σ : Type u) where
  | switch (set : σ → σ)
  | value (set : String → σ → Except ε σ)

/-- What a name stands for, and the error of a name without its argument. -/
structure Table (ε σ : Type u) where
  lookup : String → Except ε (Flag ε σ)
  missing : String → ε

def read (t : Table ε σ) : List String → σ → Except ε σ
  | [], s => pure s
  | name :: args, s => do
    match ← t.lookup name with
    | .switch set => read t args (set s)
    | .value set =>
      match args with
      | [] => throw (t.missing name)
      | text :: args => do
        let s ← set text s
        read t args s

theorem read_switch {t : Table ε σ} {name : String} {set : σ → σ}
    (h : t.lookup name = .ok (.switch set)) (args : List String) (s : σ) :
    read t (name :: args) s = read t args (set s) := by
  rw [read, h]
  rfl

theorem read_value {t : Table ε σ} {name : String} {set : String → σ → Except ε σ}
    (h : t.lookup name = .ok (.value set)) {text : String} {s s' : σ}
    (hset : set text s = .ok s') (args : List String) :
    read t (name :: text :: args) s = read t args s' := by
  rw [read, h]
  show (set text s >>= fun s => read t args s) = _
  rw [hset]
  rfl

/-- What is read begins with a switch, or with an option and its argument. -/
theorem cases_of_read {t : Table ε σ} {name : String} {args : List String} {s s' : σ}
    (h : read t (name :: args) s = .ok s') :
    (∃ set, t.lookup name = .ok (.switch set)) ∨
      ∃ set text rest s₁, t.lookup name = .ok (.value set) ∧ args = text :: rest ∧
        set text s = .ok s₁ := by
  rw [read] at h
  obtain ⟨flag, hlookup, h₁⟩ := bind_eq_ok.mp h
  cases flag with
  | switch set => exact Or.inl ⟨set, hlookup⟩
  | value set =>
    cases args with
    | nil => exact absurd h₁ throw_ne_ok
    | cons text rest =>
      obtain ⟨s₁, hset, _⟩ := bind_eq_ok.mp h₁
      exact Or.inr ⟨set, text, rest, s₁, hlookup, rfl, hset⟩

/-! ## Options by name -/

section Grammar

variable {α : Type v}

/-- The record behind some options. -/
def applyAll (apply : α → σ → σ) (given : List α) (s : σ) : σ :=
  given.foldl (fun s a => apply a s) s

/-- The table reads exactly these options, each from its rendering. -/
structure Grammar (t : Table ε σ) (render : α → List String) (apply : α → σ → σ) : Prop where
  reads : ∀ a args s, read t (render a ++ args) s = read t args (apply a s)
  covers : ∀ name args s s', read t (name :: args) s = .ok s' →
    ∃ a rest, name :: args = render a ++ rest ∧ rest.length ≤ args.length

namespace Grammar

variable {t : Table ε σ} {render : α → List String} {apply : α → σ → σ}

theorem read_render (h : Grammar t render apply) : ∀ (given : List α) (s : σ),
    read t (given.flatMap render) s = .ok (applyAll apply given s)
  | [], s => rfl
  | a :: given, s => by
    rw [List.flatMap_cons, h.reads]
    exact h.read_render given _

/-- **The accepted arguments are the renderings of options.** -/
theorem read_iff (h : Grammar t render apply) {args : List String} {s s' : σ} :
    read t args s = .ok s' ↔ ∃ given : List α, args = given.flatMap render ∧
      applyAll apply given s = s' := by
  constructor
  · induction hn : args.length using Nat.strongRecOn generalizing args s with
    | _ n ih =>
      intro hread
      cases args with
      | nil => exact ⟨[], rfl, pure_eq_ok.mp hread⟩
      | cons name args =>
        obtain ⟨a, rest, hsplit, hlen⟩ := h.covers name args s s' hread
        rw [hsplit, h.reads] at hread
        rw [List.length_cons] at hn
        obtain ⟨given, hgiven, happlied⟩ := ih rest.length (by omega) rfl hread
        exact ⟨a :: given, by rw [hsplit, hgiven, List.flatMap_cons], happlied⟩
  · rintro ⟨given, rfl, rfl⟩
    exact h.read_render given s

end Grammar

/-! ## The last one wins -/

variable {β : Type w}

/-- What the last of the options that say something says. -/
def lastOf (value? : α → Option β) (given : List α) (default : β) : β :=
  (given.filterMap value?).getLast?.getD default

theorem lastOf_cons (value? : α → Option β) (a : α) (given : List α) (default : β) :
    lastOf value? (a :: given) default = lastOf value? given ((value? a).getD default) := by
  unfold lastOf
  cases h : value? a with
  | none => rw [List.filterMap_cons_none h, Option.getD_none]
  | some b =>
    rw [List.filterMap_cons_some h, List.getLast?_cons, Option.getD_some, Option.getD_some]

/-- A field that an option replaces, or leaves alone, is what the last option for it says. -/
theorem get_applyAll {apply : α → σ → σ} {get : σ → β} {value? : α → Option β}
    (h : ∀ a s, get (apply a s) = (value? a).getD (get s)) : ∀ (given : List α) (s : σ),
    get (applyAll apply given s) = lastOf value? given (get s)
  | [], _ => rfl
  | a :: given, s => by
    rw [lastOf_cons, ← h]
    exact get_applyAll h given _

end Grammar

end CommandLine
