import Mathlib

/-!
# Sorting by a key

An unstable sort by key followed by a scan of adjacent pairs finds a repeated key exactly
when there is one. What is needed of the key type is a lawful order: `Std.TransOrd` and
`Std.LawfulEqOrd`, which lists of bytes have.
-/

namespace Ordered

open Std

variable {α κ : Type*} [Ord κ]

/-- `a` may stand before `b` when sorted by `key`. -/
def KeyLE (key : α → κ) (a b : α) : Prop := (compare (key a) (key b)).isLE = true

instance (key : α → κ) : DecidableRel (KeyLE key) :=
  fun a b => inferInstanceAs (Decidable ((compare (key a) (key b)).isLE = true))

instance [TransOrd κ] (key : α → κ) : Std.Total (KeyLE key) where
  total a b := by
    unfold KeyLE
    cases h : compare (key a) (key b) with
    | lt => simp
    | eq => simp
    | gt => rw [OrientedCmp.gt_iff_lt] at h; simp [h]

instance [TransOrd κ] (key : α → κ) : IsTrans α (KeyLE key) where
  trans _ _ _ hab hbc := TransCmp.isLE_trans hab hbc

/-- The list sorted by `key`. -/
def sortByKey (key : α → κ) (l : List α) : List α := l.insertionSort (KeyLE key)

theorem sortByKey_perm (key : α → κ) (l : List α) : (sortByKey key l).Perm l :=
  List.perm_insertionSort _ l

theorem sortByKey_pairwise [TransOrd κ] (key : α → κ) (l : List α) :
    (sortByKey key l).Pairwise (KeyLE key) :=
  List.pairwise_insertionSort _ l

/-- The first key that two neighbours share. -/
def firstDuplicate [DecidableEq κ] (key : α → κ) : List α → Option κ
  | [] => none
  | [_] => none
  | a :: b :: rest =>
    if key a = key b then some (key a) else firstDuplicate key (b :: rest)

/-- In a sorted list without equal neighbours, the head's key is not repeated at all. -/
theorem head_notMem_of_firstDuplicate [TransOrd κ] [LawfulEqOrd κ] [DecidableEq κ] {key : α → κ} :
    ∀ {l : List α} {a : α}, (a :: l).Pairwise (KeyLE key) →
      firstDuplicate key (a :: l) = none → key a ∉ l.map key
  | [], _, _, _ => by simp
  | b :: rest, a, hp, hd => by
    rw [firstDuplicate] at hd
    split at hd
    · exact absurd hd (by simp)
    · next hne =>
      have hab : KeyLE key a b := List.rel_of_pairwise_cons hp List.mem_cons_self
      have hbr : ∀ c ∈ rest, KeyLE key b c :=
        fun c hc => List.rel_of_pairwise_cons (List.Pairwise.of_cons hp) hc
      intro hmem
      obtain ⟨c, hc, hca⟩ := List.mem_map.mp hmem
      rcases List.mem_cons.mp hc with rfl | hc
      · exact hne hca.symm
      · -- the key of `b` lies between two equal keys
        have hba : KeyLE key b a := by unfold KeyLE; rw [← hca]; exact hbr c hc
        have heq : compare (key a) (key b) = .eq :=
          OrientedCmp.isLE_antisymm hab hba
        exact hne (LawfulEqCmp.eq_of_compare heq)

theorem firstDuplicate_eq_none_iff [TransOrd κ] [LawfulEqOrd κ] [DecidableEq κ] {key : α → κ} :
    ∀ {l : List α}, l.Pairwise (KeyLE key) →
      (firstDuplicate key l = none ↔ (l.map key).Nodup)
  | [], _ => by simp [firstDuplicate]
  | [_], _ => by simp [firstDuplicate]
  | a :: b :: rest, hp => by
    have ih := firstDuplicate_eq_none_iff (List.Pairwise.of_cons hp)
    rw [List.map_cons, List.nodup_cons, ← ih]
    constructor
    · intro h
      refine ⟨head_notMem_of_firstDuplicate hp h, ?_⟩
      rw [firstDuplicate] at h
      split at h
      · exact absurd h (by simp)
      · exact h
    · rintro ⟨hmem, hrest⟩
      have hne : ¬ key a = key b := fun he => hmem (by rw [he]; simp)
      rw [firstDuplicate, if_neg hne]
      exact hrest

/-- **Sorting and scanning neighbours decides whether a key occurs twice.** -/
theorem firstDuplicate_sortByKey [TransOrd κ] [LawfulEqOrd κ] [DecidableEq κ] {key : α → κ}
    {l : List α} : firstDuplicate key (sortByKey key l) = none ↔ (l.map key).Nodup := by
  rw [firstDuplicate_eq_none_iff (sortByKey_pairwise key l)]
  exact ((sortByKey_perm key l).map key).nodup_iff

theorem not_lt_self [TransOrd κ] (a : κ) : ¬ compare a a = .lt := by
  intro h
  have heq : compare a a = .eq := ReflOrd.compare_self
  rw [heq] at h
  cases h

/-- Strictly ascending lists with the same members are equal. -/
theorem eq_of_ascending [TransOrd κ] {l₁ l₂ : List κ}
    (h₁ : l₁.Pairwise fun a b => compare a b = .lt)
    (h₂ : l₂.Pairwise fun a b => compare a b = .lt) (hmem : ∀ a, a ∈ l₁ ↔ a ∈ l₂) : l₁ = l₂ := by
  have hnodup : ∀ l : List κ, (l.Pairwise fun a b => compare a b = .lt) → l.Nodup := by
    intro l h
    refine h.imp ?_
    rintro a _ hab rfl
    exact not_lt_self a hab
  have hperm : l₁.Perm l₂ := (List.perm_ext_iff_of_nodup (hnodup l₁ h₁) (hnodup l₂ h₂)).mpr hmem
  refine hperm.eq_of_pairwise ?_ h₁ h₂
  intro a b _ _ hab hba
  have hlt : compare a a = .lt := TransCmp.lt_trans hab hba
  exact absurd hlt (not_lt_self a)

/-- Sorting forgets the order a list with distinct keys came in. -/
theorem sortByKey_congr [TransOrd κ] [LawfulEqOrd κ] {key : α → κ} {l₁ l₂ : List α}
    (hperm : l₁.Perm l₂) (hnodup : (l₁.map key).Nodup) : sortByKey key l₁ = sortByKey key l₂ := by
  have hsorted : (sortByKey key l₁).Perm (sortByKey key l₂) :=
    (sortByKey_perm key l₁).trans (hperm.trans (sortByKey_perm key l₂).symm)
  refine hsorted.eq_of_pairwise ?_ (sortByKey_pairwise key l₁) (sortByKey_pairwise key l₂)
  intro a b ha hb hab hba
  have heq : compare (key a) (key b) = .eq := OrientedCmp.isLE_antisymm hab hba
  have ha' : a ∈ l₁ := (sortByKey_perm key l₁).mem_iff.mp ha
  have hb' : b ∈ l₁ := hperm.mem_iff.mpr ((sortByKey_perm key l₂).mem_iff.mp hb)
  exact List.inj_on_of_nodup_map hnodup ha' hb' (LawfulEqCmp.eq_of_compare heq)

end Ordered
