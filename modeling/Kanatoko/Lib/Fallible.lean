import Mathlib.Tactic.Common

/-!
# Fallible steps

Code that stops at its first error is modelled in `Except ε`, and code that also reads and
writes the outside world in `EStateM ε σ`, which keeps the world when it stops.

The rules here take such code apart: what a successful `do` block says about each of its
steps, and what a loop over a list says about each of its elements.
-/

universe u v w

namespace Fallible

/-! ## Pure code -/

section Pure

variable {ε : Type u} {α β : Type v} {γ : Type w}

/-- Stops with `e` unless `p` holds. -/
def ensure (p : Prop) [Decidable p] (e : ε) : Except ε PUnit :=
  if p then .ok ⟨⟩ else .error e

theorem ensure_eq_ok {p : Prop} [Decidable p] {e : ε} {x : PUnit} :
    ensure p e = .ok x ↔ p := by
  unfold ensure
  split
  · next h => exact ⟨fun _ => h, fun _ => rfl⟩
  · next h => exact ⟨fun hc => by simp at hc, fun hp => absurd hp h⟩

theorem ensure_eq_error {p : Prop} [Decidable p] {e e' : ε} :
    ensure p e = .error e' ↔ ¬ p ∧ e = e' := by
  unfold ensure
  split
  · next h => exact ⟨fun hc => by simp at hc, fun hp => absurd h hp.1⟩
  · next h => exact ⟨fun hc => ⟨h, by simpa using hc⟩, fun hc => by rw [hc.2]⟩

/-- An optional value, or the error that stands for its absence. -/
def orError (e : ε) : Option α → Except ε α
  | some a => .ok a
  | none => .error e

@[simp] theorem orError_eq_ok {e : ε} {o : Option α} {a : α} :
    orError e o = .ok a ↔ o = some a := by
  cases o <;> simp [orError]

theorem bind_eq_ok {x : Except ε α} {f : α → Except ε β} {b : β} :
    (x >>= f) = .ok b ↔ ∃ a, x = .ok a ∧ f a = .ok b := by
  cases x with
  | error e => exact ⟨fun h => (nomatch h), fun ⟨_, h, _⟩ => (nomatch h)⟩
  | ok a => exact ⟨fun h => ⟨a, rfl, h⟩, fun ⟨_, h, hf⟩ => by cases h; exact hf⟩

theorem pure_eq_ok {a b : α} : (pure a : Except ε α) = .ok b ↔ a = b := by
  show Except.ok a = .ok b ↔ a = b
  simp

@[simp] theorem throw_ne_ok {e : ε} {a : α} : (throw e : Except ε α) ≠ .ok a := by
  show Except.error e ≠ _
  simp

/-- A loop that checks every element succeeds exactly when every check does. -/
theorem forM_eq_ok {l : List γ} {f : γ → Except ε PUnit} :
    forM l f = .ok ⟨⟩ ↔ ∀ x ∈ l, f x = .ok ⟨⟩ := by
  induction l with
  | nil => exact ⟨fun _ _ h => by simp at h, fun _ => rfl⟩
  | cons x l ih =>
    rw [List.forM_cons, bind_eq_ok, List.forall_mem_cons]
    exact ⟨fun ⟨_, h, hr⟩ => ⟨h, ih.mp hr⟩, fun ⟨h, hr⟩ => ⟨⟨⟩, h, ih.mpr hr⟩⟩

/-- A loop that converts every element yields their conversions, in order. -/
theorem mapM_eq_ok {l : List γ} {f : γ → Except ε β} {bs : List β} :
    l.mapM f = .ok bs ↔ List.Forall₂ (fun x b => f x = .ok b) l bs := by
  induction l generalizing bs with
  | nil =>
    rw [List.mapM_nil, pure_eq_ok]
    exact ⟨fun h => h ▸ .nil, fun h => by cases h; rfl⟩
  | cons x l ih =>
    rw [List.mapM_cons, bind_eq_ok]
    constructor
    · rintro ⟨b, hb, hr⟩
      obtain ⟨bs', hbs', hr⟩ := bind_eq_ok.mp hr
      rw [pure_eq_ok] at hr
      exact hr ▸ .cons hb (ih.mp hbs')
    · intro h
      cases h with
      | cons hb hr => exact ⟨_, hb, bind_eq_ok.mpr ⟨_, ih.mpr hr, rfl⟩⟩

theorem mapM_eq_ok_map {l : List γ} {f : γ → Except ε β} {g : γ → β}
    (h : ∀ x ∈ l, f x = .ok (g x)) : l.mapM f = .ok (l.map g) := by
  rw [mapM_eq_ok]
  induction l with
  | nil => exact .nil
  | cons x l ih =>
    rw [List.forall_mem_cons] at h
    exact .cons h.1 (ih h.2)

/-- Every converted element comes from an element of the list. -/
theorem exists_of_mem_mapM {l : List γ} {f : γ → Except ε β} {bs : List β}
    (h : l.mapM f = .ok bs) {b : β} (hb : b ∈ bs) : ∃ x ∈ l, f x = .ok b := by
  have hall := mapM_eq_ok.mp h
  clear h
  induction hall with
  | nil => simp at hb
  | cons hfirst _ ih =>
    rcases List.mem_cons.mp hb with rfl | hb
    · exact ⟨_, List.mem_cons_self, hfirst⟩
    · obtain ⟨x, hx, hf⟩ := ih hb
      exact ⟨x, List.mem_cons_of_mem _ hx, hf⟩

/-- Every element of the list has been converted. -/
theorem mem_of_mapM {l : List γ} {f : γ → Except ε β} {bs : List β} (h : l.mapM f = .ok bs)
    {x : γ} (hx : x ∈ l) : ∃ b ∈ bs, f x = .ok b := by
  have hall := mapM_eq_ok.mp h
  clear h
  induction hall with
  | nil => simp at hx
  | cons hfirst _ ih =>
    rcases List.mem_cons.mp hx with rfl | hx
    · exact ⟨_, List.mem_cons_self, hfirst⟩
    · obtain ⟨b, hb, hf⟩ := ih hx
      exact ⟨b, List.mem_cons_of_mem _ hb, hf⟩

/-! ## Which errors there are -/

/-- Every error of `x` satisfies `p`. -/
def Errs (p : ε → Prop) (x : Except ε α) : Prop := ∀ e, x = .error e → p e

namespace Errs

variable {p : ε → Prop}

theorem pure (a : α) : Errs p (pure a) := fun _ h => by cases h

theorem throw {e : ε} (h : p e) : Errs p (throw e : Except ε α) := fun _ he => by cases he; exact h

theorem bind {x : Except ε α} {f : α → Except ε β} (hx : Errs p x)
    (hf : ∀ a, x = .ok a → Errs p (f a)) : Errs p (x >>= f) := by
  intro e h
  cases x with
  | error e' => cases h; exact hx _ rfl
  | ok a => exact hf a rfl e h

theorem ensure {c : Prop} [Decidable c] {e : ε} (h : p e) : Errs p (ensure c e) := by
  intro e' he
  rw [← (ensure_eq_error.mp he).2]
  exact h

theorem orError {e : ε} {o : Option α} (h : p e) : Errs p (orError e o) := by
  intro e' he
  cases o with
  | none => cases he; exact h
  | some a => cases he

theorem mapM {l : List γ} {f : γ → Except ε β} (hf : ∀ x ∈ l, Errs p (f x)) :
    Errs p (l.mapM f) := by
  induction l with
  | nil => exact .pure _
  | cons x l ih =>
    rw [List.mapM_cons]
    rw [List.forall_mem_cons] at hf
    exact .bind hf.1 fun _ _ => .bind (ih hf.2) fun _ _ => .pure _

theorem forM {l : List γ} {f : γ → Except ε PUnit} (hf : ∀ x ∈ l, Errs p (f x)) :
    Errs p (forM l f) := by
  induction l with
  | nil => exact .pure _
  | cons x l ih =>
    rw [List.forM_cons]
    rw [List.forall_mem_cons] at hf
    exact .bind hf.1 fun _ _ => ih hf.2

/-- Errors in the caller's terms. -/
theorem mapError {ε' : Type u} {p : ε' → Prop} {g : ε → ε'} {x : Except ε α}
    (h : ∀ e, p (g e)) : Errs p (x.mapError g) := by
  intro e he
  cases x with
  | error e' => cases he; exact h e'
  | ok a => cases he

end Errs

end Pure

/-! ## Code that acts on a world -/

section World

variable {ε σ α β : Type u}

/-- Pure code inside code that acts on a world: the world does not move. -/
def lift : Except ε α → EStateM ε σ α
  | .ok a => pure a
  | .error e => throw e

theorem run_bind_eq_ok {x : EStateM ε σ α} {f : α → EStateM ε σ β} {s s' : σ} {b : β} :
    (x >>= f) s = .ok b s' ↔ ∃ a s₁, x s = .ok a s₁ ∧ f a s₁ = .ok b s' := by
  show EStateM.bind x f s = _ ↔ _
  unfold EStateM.bind
  cases x s <;> simp

theorem run_bind_eq_error {x : EStateM ε σ α} {f : α → EStateM ε σ β} {s s' : σ} {e : ε} :
    (x >>= f) s = .error e s' ↔
      x s = .error e s' ∨ ∃ a s₁, x s = .ok a s₁ ∧ f a s₁ = .error e s' := by
  show EStateM.bind x f s = _ ↔ _
  unfold EStateM.bind
  cases x s <;> simp

theorem run_bind_congr {x y : EStateM ε σ α} {f : α → EStateM ε σ β} {s s' : σ}
    (h : x s = y s') : (x >>= f) s = (y >>= f) s' := by
  show EStateM.bind x f s = EStateM.bind y f s'
  rw [EStateM.bind, EStateM.bind, h]

theorem run_bind_of_ok {x : EStateM ε σ α} {f : α → EStateM ε σ β} {s s₁ : σ} {a : α}
    (h : x s = .ok a s₁) : (x >>= f) s = f a s₁ := by
  show EStateM.bind x f s = _
  rw [EStateM.bind, h]

@[simp] theorem run_pure_eq_ok {a b : α} {s s' : σ} :
    (pure a : EStateM ε σ α) s = .ok b s' ↔ a = b ∧ s = s' := by
  show EStateM.Result.ok a s = _ ↔ _
  simp

@[simp] theorem run_pure_ne_error {a : α} {e : ε} {s s' : σ} :
    (pure a : EStateM ε σ α) s ≠ .error e s' := by
  show EStateM.Result.ok a s ≠ _
  simp

@[simp] theorem run_throw_ne_ok {a : α} {e : ε} {s s' : σ} :
    (throw e : EStateM ε σ α) s ≠ .ok a s' := by
  show EStateM.Result.error e s ≠ _
  simp

@[simp] theorem run_throw_eq_error {e e' : ε} {s s' : σ} :
    (throw e : EStateM ε σ α) s = .error e' s' ↔ e = e' ∧ s = s' := by
  show EStateM.Result.error e s = _ ↔ _
  simp

@[simp] theorem run_lift_eq_ok {x : Except ε α} {a : α} {s s' : σ} :
    (lift x : EStateM ε σ α) s = .ok a s' ↔ x = .ok a ∧ s = s' := by
  cases x <;> simp [lift]

@[simp] theorem run_lift_eq_error {x : Except ε α} {e : ε} {s s' : σ} :
    (lift x : EStateM ε σ α) s = .error e s' ↔ x = .error e ∧ s = s' := by
  cases x <;> simp [lift]

theorem run_lift_bind_eq_ok {x : Except ε α} {f : α → EStateM ε σ β} {s s' : σ} {b : β} :
    (lift x >>= f) s = .ok b s' ↔ ∃ a, x = .ok a ∧ f a s = .ok b s' := by
  rw [run_bind_eq_ok]
  constructor
  · rintro ⟨a, _, hrun, hf⟩
    obtain ⟨hx, rfl⟩ := run_lift_eq_ok.mp hrun
    exact ⟨a, hx, hf⟩
  · rintro ⟨a, hx, hf⟩
    exact ⟨a, s, run_lift_eq_ok.mpr ⟨hx, rfl⟩, hf⟩

/-- Pure code that fails has not moved the world; if it succeeds, the rest decides. -/
theorem run_lift_bind_keeps {x : Except ε α} {f : α → EStateM ε σ β} {s s' : σ} {e : ε}
    (h : (lift x >>= f) s = .error e s')
    (hf : ∀ a, x = .ok a → f a s = .error e s' → s' = s) : s' = s := by
  rcases run_bind_eq_error.mp h with hfail | ⟨a, _, hrun, hrest⟩
  · exact (run_lift_eq_error.mp hfail).2.symm
  · obtain ⟨hx, rfl⟩ := run_lift_eq_ok.mp hrun
    exact hf a hx hrest

/-- A step on one part of a larger world, with its errors in the caller's terms. -/
def focus {ε ε' σ τ α : Type u} (get : τ → σ) (set : σ → τ → τ) (f : ε → ε')
    (x : EStateM ε σ α) : EStateM ε' τ α := fun t =>
  match x (get t) with
  | .ok a s => .ok a (set s t)
  | .error e s => .error (f e) (set s t)

theorem focus_eq_ok {ε ε' σ τ α : Type u} {get : τ → σ} {set : σ → τ → τ} {f : ε → ε'}
    {x : EStateM ε σ α} {t t' : τ} {a : α} :
    focus get set f x t = .ok a t' ↔ ∃ s, x (get t) = .ok a s ∧ set s t = t' := by
  unfold focus
  cases x (get t) <;> simp

theorem focus_eq_error {ε ε' σ τ α : Type u} {get : τ → σ} {set : σ → τ → τ} {f : ε → ε'}
    {x : EStateM ε σ α} {t t' : τ} {e' : ε'} :
    focus get set f x t = .error e' t' ↔
      ∃ e s, x (get t) = .error e s ∧ f e = e' ∧ set s t = t' := by
  unfold focus
  cases x (get t) <;> simp

end World

/-! ## What a run leaves alone -/

section Keeps

variable {ε ε' σ τ α β γ : Type u}

/-- The run does not change this part of its world, however it ends. -/
structure Keeps (part : σ → γ) (x : EStateM ε σ α) : Prop where
  ok : ∀ ⦃s : σ⦄ ⦃a : α⦄ ⦃s' : σ⦄, x s = .ok a s' → part s' = part s
  error : ∀ ⦃s : σ⦄ ⦃e : ε⦄ ⦃s' : σ⦄, x s = .error e s' → part s' = part s

namespace Keeps

variable {part : σ → γ}

/-- The second run may count on what the first one returns. -/
theorem bind_of_ok {x : EStateM ε σ α} {f : α → EStateM ε σ β} (hx : Keeps part x)
    (hf : ∀ ⦃s a s'⦄, x s = .ok a s' → Keeps part (f a)) : Keeps part (x >>= f) where
  ok := by
    intro s b s' h
    obtain ⟨a, s₁, h₁, h₂⟩ := run_bind_eq_ok.mp h
    exact ((hf h₁).ok h₂).trans (hx.ok h₁)
  error := by
    intro s e s' h
    rcases run_bind_eq_error.mp h with h | ⟨a, s₁, h₁, h₂⟩
    · exact hx.error h
    · exact ((hf h₁).error h₂).trans (hx.ok h₁)

theorem bind {x : EStateM ε σ α} {f : α → EStateM ε σ β} (hx : Keeps part x)
    (hf : ∀ a, Keeps part (f a)) : Keeps part (x >>= f) :=
  hx.bind_of_ok fun _ a _ _ => hf a

theorem pure (a : α) : Keeps part (pure a : EStateM ε σ α) where
  ok := fun _ _ _ h => by rw [(run_pure_eq_ok.mp h).2]
  error := fun _ _ _ h => absurd h run_pure_ne_error

theorem throw (e : ε) : Keeps part (throw e : EStateM ε σ α) where
  ok := fun _ _ _ h => absurd h run_throw_ne_ok
  error := fun _ _ _ h => by rw [(run_throw_eq_error.mp h).2]

theorem lift (x : Except ε α) : Keeps part (lift x : EStateM ε σ α) where
  ok := fun _ _ _ h => by rw [(run_lift_eq_ok.mp h).2]
  error := fun _ _ _ h => by rw [(run_lift_eq_error.mp h).2]

/-- A step on another part of the world. -/
theorem focus {part : τ → γ} {get : τ → σ} {set : σ → τ → τ} {f : ε → ε'} {x : EStateM ε σ α}
    (h : ∀ s t, part (set s t) = part t) : Keeps part (focus get set f x) where
  ok := by
    intro t a t' hrun
    obtain ⟨s, _, rfl⟩ := focus_eq_ok.mp hrun
    exact h s t
  error := by
    intro t e t' hrun
    obtain ⟨_, s, _, _, rfl⟩ := focus_eq_error.mp hrun
    exact h s t

/-- A step that keeps a part of its own part of the world. -/
theorem focus_inside {part : τ → γ} {inside : σ → γ} {get : τ → σ} {set : σ → τ → τ} {f : ε → ε'}
    {x : EStateM ε σ α} (hx : Keeps inside x) (hset : ∀ s t, part (set s t) = inside s)
    (hget : ∀ t, part t = inside (get t)) : Keeps part (Fallible.focus get set f x) where
  ok := by
    intro t a t' hrun
    obtain ⟨s, hs, rfl⟩ := focus_eq_ok.mp hrun
    rw [hset, hget, hx.ok hs]
  error := by
    intro t e t' hrun
    obtain ⟨_, s, hs, _, rfl⟩ := focus_eq_error.mp hrun
    rw [hset, hget, hx.error hs]

end Keeps

end Keeps

/-! ## Triples -/

section Triples

variable {ε σ α β : Type u}

/-- The world a run ends in, whether or not it stopped with an error. -/
def endWorld : EStateM.Result ε σ α → σ
  | .ok _ s => s
  | .error _ s => s

/-- From a world in `P` the run ends in `Q`, or stops with an error in `E`. -/
structure Triple (P : σ → Prop) (x : EStateM ε σ α) (Q : α → σ → Prop) (E : ε → σ → Prop) :
    Prop where
  ok : ∀ ⦃s : σ⦄ ⦃a : α⦄ ⦃s' : σ⦄, P s → x s = .ok a s' → Q a s'
  error : ∀ ⦃s : σ⦄ ⦃e : ε⦄ ⦃s' : σ⦄, P s → x s = .error e s' → E e s'

namespace Triple

variable {P P' : σ → Prop} {Q Q' : α → σ → Prop} {E E' : ε → σ → Prop}

theorem bind {x : EStateM ε σ α} {f : α → EStateM ε σ β} {S : β → σ → Prop}
    (hx : Triple P x Q E) (hf : ∀ a, Triple (Q a) (f a) S E) : Triple P (x >>= f) S E where
  ok := by
    intro s b s' hs h
    obtain ⟨a, s₁, h₁, h₂⟩ := run_bind_eq_ok.mp h
    exact (hf a).ok (hx.ok hs h₁) h₂
  error := by
    intro s e s' hs h
    rcases run_bind_eq_error.mp h with h | ⟨a, s₁, h₁, h₂⟩
    · exact hx.error hs h
    · exact (hf a).error (hx.ok hs h₁) h₂

theorem weaken {x : EStateM ε σ α} (hx : Triple P x Q E) (hP : ∀ s, P' s → P s)
    (hQ : ∀ a s, Q a s → Q' a s) (hE : ∀ e s, E e s → E' e s) : Triple P' x Q' E' where
  ok := fun _ _ _ hs h => hQ _ _ (hx.ok (hP _ hs) h)
  error := fun _ _ _ hs h => hE _ _ (hx.error (hP _ hs) h)

/-- A fact that does not depend on the world is assumed ahead of the run. -/
theorem assume {p : Prop} {x : EStateM ε σ α} (h : p → Triple P x Q E) :
    Triple (fun s => p ∧ P s) x Q E where
  ok := fun _ _ _ hs hrun => (h hs.1).ok hs.2 hrun
  error := fun _ _ _ hs hrun => (h hs.1).error hs.2 hrun

theorem pure {a : α} (h : ∀ s, P s → Q a s) : Triple P (pure a : EStateM ε σ α) Q E where
  ok := by
    intro s b s' hs hrun
    obtain ⟨rfl, rfl⟩ := run_pure_eq_ok.mp hrun
    exact h s hs
  error := fun _ _ _ _ hrun => absurd hrun run_pure_ne_error

theorem throw {e : ε} (h : ∀ s, P s → E e s) : Triple P (throw e : EStateM ε σ α) Q E where
  ok := fun _ _ _ _ hrun => absurd hrun run_throw_ne_ok
  error := by
    intro s e' s' hs hrun
    obtain ⟨rfl, rfl⟩ := run_throw_eq_error.mp hrun
    exact h s hs

theorem lift {x : Except ε α} (hok : ∀ a s, x = .ok a → P s → Q a s)
    (herror : ∀ e s, x = .error e → P s → E e s) : Triple P (lift x) Q E where
  ok := by
    intro s a s' hs hrun
    obtain ⟨hx, rfl⟩ := run_lift_eq_ok.mp hrun
    exact hok a s hx hs
  error := by
    intro s e s' hs hrun
    obtain ⟨hx, rfl⟩ := run_lift_eq_error.mp hrun
    exact herror e s hx hs

/-- Pure code of which only the errors matter. -/
theorem lift_errs {x : Except ε α} {p : ε → Prop} (h : Errs p x) :
    Triple P (Fallible.lift x) (fun _ => P) (fun e _ => p e) :=
  .lift (fun _ _ _ hs => hs) fun e _ hx _ => h e hx

/-- The world a run starts in can be given a name. -/
theorem named {x : EStateM ε σ α} (h : ∀ start, P start → Triple (fun s => s = start) x Q E) :
    Triple P x Q E where
  ok := fun s _ _ hs hrun => (h s hs).ok rfl hrun
  error := fun s _ _ hs hrun => (h s hs).error rfl hrun

theorem endWorld {P Q : σ → Prop} {x : EStateM ε σ α} (h : Triple P x (fun _ => Q) (fun _ => Q))
    {s : σ} (hs : P s) : Q (endWorld (x s)) := by
  cases hx : x s with
  | ok a s' => exact h.ok hs hx
  | error e s' => exact h.error hs hx

end Triple

end Triples

/-! ## Two runs side by side -/

section Agree

variable {ε σ τ α β : Type u}

/-- Both runs end with one value, or both stop with one error; either way in related worlds. -/
inductive Agree (R : σ → τ → Prop) : EStateM.Result ε σ α → EStateM.Result ε τ α → Prop
  | ok {a : α} {s : σ} {t : τ} : R s t → Agree R (.ok a s) (.ok a t)
  | error {e : ε} {s : σ} {t : τ} : R s t → Agree R (.error e s) (.error e t)

/-- Runs that agree go on to agree when what follows agrees from related worlds. -/
theorem Agree.bind {R : σ → τ → Prop} {x : EStateM ε σ α} {y : EStateM ε τ α}
    {f : α → EStateM ε σ β} {g : α → EStateM ε τ β} {s : σ} {t : τ} (h : Agree R (x s) (y t))
    (hrest : ∀ a s t, R s t → Agree R (f a s) (g a t)) : Agree R ((x >>= f) s) ((y >>= g) t) := by
  show Agree R (EStateM.bind x f s) (EStateM.bind y g t)
  unfold EStateM.bind
  generalize x s = r₁ at h
  generalize y t = r₂ at h
  cases h with
  | ok hr => exact hrest _ _ _ hr
  | error hr => exact .error hr

/-- Equal pure code in front of two runs: what follows agrees from the worlds they are in. -/
theorem Agree.lift_bind {R : σ → τ → Prop} {x y : Except ε α} {f : α → EStateM ε σ β}
    {g : α → EStateM ε τ β} {s : σ} {t : τ} (hr : R s t) (hxy : x = y)
    (hrest : ∀ a, x = .ok a → Agree R (f a s) (g a t)) :
    Agree R ((lift x >>= f) s) ((lift y >>= g) t) := by
  subst hxy
  cases x with
  | ok a => exact hrest a rfl
  | error e => exact .error hr

end Agree

end Fallible
