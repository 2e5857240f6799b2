import Mathlib.Data.List.Basic
import Mathlib.Tactic.Common

/-!
# Delimited encodings

An encoding is delimited when a value can be cut off the front of a longer list in one way
only, whatever follows it. A concatenation of delimited pieces then has one reading, so it
is injective.

Lengths are written in a fixed number of digits, so all of this holds below a bound on the
length of what is encoded.

* pieces: `of_length` for a fixed width, `prefixed` for a list behind its length
* combinations: `append`, `comap`, `option`, `counted`
* use: `cut` and `injective`, and `flatMap_injective` for values that fill a list to its end
-/

variable {α β γ : Type*}

/-- Below the bound, an encoding can be cut off the front of a list in one way only. -/
def Delimited (bound : Nat) (enc : α → List β) : Prop :=
  ∀ ⦃a b : α⦄ ⦃s t : List β⦄, (enc a).length < bound → (enc b).length < bound →
    enc a ++ s = enc b ++ t → a = b ∧ s = t

/-- Numbers below the bound, all of one width. -/
structure FixedWidth (bound : Nat) (num : Nat → List β) : Prop where
  width : ∀ m n, (num m).length = (num n).length
  injective : ∀ m n, m < bound → n < bound → num m = num n → m = n

theorem FixedWidth.cut {bound : Nat} {num : Nat → List β} (h : FixedWidth bound num) {m n : Nat}
    {s t : List β} (hm : m < bound) (hn : n < bound) (heq : num m ++ s = num n ++ t) :
    m = n ∧ s = t := by
  obtain ⟨hnum, hrest⟩ := List.append_inj heq (h.width m n)
  exact ⟨h.injective m n hm hn hnum, hrest⟩

namespace Delimited

variable {bound : Nat}

theorem injective {enc : α → List β} (h : Delimited bound enc) {a b : α}
    (ha : (enc a).length < bound) (heq : enc a = enc b) : a = b := by
  have hb : (enc b).length < bound := by rw [← heq]; exact ha
  exact (h ha hb (congrArg (· ++ []) heq)).1

/-- Values that all take the same number of places. -/
theorem of_length {enc : α → List β} (hlength : ∀ a b, (enc a).length = (enc b).length)
    (hinj : ∀ a b, enc a = enc b → a = b) : Delimited bound enc := by
  intro a b s t _ _ heq
  obtain ⟨hab, hst⟩ := List.append_inj heq (hlength a b)
  exact ⟨hinj a b hab, hst⟩

/-- One value in front of another. -/
theorem append {f : α → List β} {g : γ → List β} (hf : Delimited bound f)
    (hg : Delimited bound g) : Delimited bound fun p : α × γ => f p.1 ++ g p.2 := by
  rintro ⟨a, c⟩ ⟨b, d⟩ s t ha hb heq
  simp only [List.length_append, List.append_assoc] at ha hb heq
  obtain ⟨rfl, hrest⟩ := hf (by omega) (by omega) heq
  obtain ⟨rfl, rfl⟩ := hg (by omega) (by omega) hrest
  exact ⟨rfl, rfl⟩

/-- Values that are encoded as other values. -/
theorem comap {enc : α → List β} (h : Delimited bound enc) {f : γ → α}
    (hf : Function.Injective f) : Delimited bound fun c => enc (f c) := by
  intro c d s t hc hd heq
  obtain ⟨hcd, hst⟩ := h hc hd heq
  exact ⟨hf hcd, hst⟩

/-- An optional value behind one of two different marks. -/
theorem option {zero one : β} (hne : zero ≠ one) {enc : α → List β} (h : Delimited bound enc) :
    Delimited bound fun o : Option α => o.elim [zero] fun a => one :: enc a := by
  intro o o' s t ho ho' heq
  cases o with
  | none =>
    cases o' with
    | none => exact ⟨rfl, (List.cons.inj heq).2⟩
    | some b => exact absurd (List.cons.inj heq).1 hne
  | some a =>
    cases o' with
    | none => exact absurd (List.cons.inj heq).1.symm hne
    | some b =>
      simp only [Option.elim, List.length_cons, List.cons_append] at ho ho' heq
      obtain ⟨rfl, hst⟩ := h (by omega) (by omega) (List.cons.inj heq).2
      exact ⟨rfl, hst⟩

/-- A list behind its length. -/
theorem prefixed {num : Nat → List β} (hnum : FixedWidth bound num) :
    Delimited bound fun l : List β => num l.length ++ l := by
  intro l l' s t hl hl' heq
  simp only [List.length_append, List.append_assoc] at hl hl' heq
  obtain ⟨hlength, hrest⟩ := hnum.cut (by omega) (by omega) heq
  exact List.append_inj hrest hlength

/-- As many values on one side as on the other: they are cut off one by one. -/
theorem flatMap_cut {enc : α → List β} (h : Delimited bound enc) : ∀ {l l' : List α}
    {s t : List β}, l.length = l'.length → (l.flatMap enc).length < bound →
      (l'.flatMap enc).length < bound → l.flatMap enc ++ s = l'.flatMap enc ++ t → l = l' ∧ s = t
  | [], [], _, _, _, _, _, heq => ⟨rfl, heq⟩
  | a :: l, b :: l', s, t, hlength, hl, hl', heq => by
    simp only [List.flatMap_cons, List.length_append, List.append_assoc] at hl hl' heq
    obtain ⟨rfl, hrest⟩ := h (by omega) (by omega) heq
    obtain ⟨rfl, rfl⟩ := flatMap_cut h (Nat.succ.inj hlength) (by omega) (by omega) hrest
    exact ⟨rfl, rfl⟩

theorem length_le_flatMap {enc : α → List β} (hne : ∀ a, enc a ≠ []) :
    ∀ l : List α, l.length ≤ (l.flatMap enc).length
  | [] => Nat.le_refl 0
  | a :: l => by
    have hpos : 0 < (enc a).length := List.length_pos_iff.mpr (hne a)
    have hrest := length_le_flatMap hne l
    rw [List.flatMap_cons, List.length_append, List.length_cons]
    omega

/-- Any number of values behind their count. -/
theorem counted {num : Nat → List β} (hnum : FixedWidth bound num) {enc : α → List β}
    (h : Delimited bound enc) (hne : ∀ a, enc a ≠ []) :
    Delimited bound fun l : List α => num l.length ++ l.flatMap enc := by
  intro l l' s t hl hl' heq
  simp only [List.length_append, List.append_assoc] at hl hl' heq
  -- a value takes a place at least, so the count is below the bound too
  have hcount := length_le_flatMap hne l
  have hcount' := length_le_flatMap hne l'
  obtain ⟨hlength, hrest⟩ := hnum.cut (by omega) (by omega) heq
  exact h.flatMap_cut hlength (by omega) (by omega) hrest

end Delimited

/-- Values that can be cut off one by one, to the end of the list, are determined by the list.
Where they can be cut is any condition on the values. -/
theorem flatMap_injective_of_cut {enc : α → List β} {p : α → Prop}
    (hcut : ∀ ⦃a b : α⦄ ⦃s t : List β⦄, p a → p b → enc a ++ s = enc b ++ t → a = b ∧ s = t)
    (hne : ∀ a, enc a ≠ []) : ∀ {l l' : List α}, (∀ a ∈ l, p a) → (∀ a ∈ l', p a) →
      l.flatMap enc = l'.flatMap enc → l = l'
  | [], [], _, _, _ => rfl
  | [], b :: l', _, _, heq => absurd (List.append_eq_nil_iff.mp heq.symm).1 (hne b)
  | a :: l, [], _, _, heq => absurd (List.append_eq_nil_iff.mp heq).1 (hne a)
  | a :: l, b :: l', hl, hl', heq => by
    rw [List.forall_mem_cons] at hl hl'
    obtain ⟨rfl, hrest⟩ := hcut hl.1 hl'.1 heq
    rw [flatMap_injective_of_cut hcut hne hl.2 hl'.2 hrest]
