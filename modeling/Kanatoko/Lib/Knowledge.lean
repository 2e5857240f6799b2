import Mathlib.Tactic.Common

/-!
# Partial knowledge of a map

A map `m` assigns a value or none to every key. Knowledge `c` of it says for some keys what
`m` assigns, and nothing for the others. `Mirrors c m` is knowledge that is right, and that
leaves out no key with a value.

When the map changes from `m` to `m'`, the knowledge is patched where the two differ. That
keeps the mirror (`Mirrors.patch`), and it makes known only what the change has touched
(`mem_patch`).
-/

namespace Knowledge

variable {κ ν : Type*}

/-- What `c` knows is what `m` assigns, and every key with a value is known. -/
structure Mirrors (c : κ → Option (Option ν)) (m : κ → Option ν) : Prop where
  sound : ∀ k state, c k = some state → m k = state
  complete : ∀ k v, m k = some v → c k = some (some v)

/-- A key is Present in the knowledge exactly when the map assigns it that value. -/
theorem Mirrors.present_iff {c : κ → Option (Option ν)} {m : κ → Option ν} (h : Mirrors c m)
    (k : κ) (v : ν) : c k = some (some v) ↔ m k = some v :=
  ⟨fun hc => h.sound k _ hc, h.complete k v⟩

theorem Mirrors.absent {c : κ → Option (Option ν)} {m : κ → Option ν} (h : Mirrors c m)
    {k : κ} (hc : c k = some none) : m k = none := h.sound k _ hc

variable [DecidableEq ν]

/-- Knowledge of `m`, patched where `m'` differs from `m`. -/
def patch (c : κ → Option (Option ν)) (m m' : κ → Option ν) (k : κ) : Option (Option ν) :=
  if m k = m' k then c k else some (m' k)

/-- **Patching keeps the mirror.** -/
theorem Mirrors.patch {c : κ → Option (Option ν)} {m m' : κ → Option ν} (h : Mirrors c m) :
    Mirrors (patch c m m') m' := by
  refine ⟨fun k state hk => ?_, fun k v hk => ?_⟩
  · unfold Knowledge.patch at hk
    split at hk
    · next heq => rw [← heq]; exact h.sound k state hk
    · exact Option.some.inj hk
  · unfold Knowledge.patch
    split
    · next heq => exact h.complete k v (by rw [heq, hk])
    · rw [hk]

/-- What is known after a patch was known before, or has got a value it did not have. -/
theorem Mirrors.mem_patch {c : κ → Option (Option ν)} {m m' : κ → Option ν} (h : Mirrors c m)
    {k : κ} (hk : Knowledge.patch c m m' k ≠ none) :
    c k ≠ none ∨ ∃ v, m k = none ∧ m' k = some v := by
  by_cases hc : c k = none
  · right
    have hm : m k = none := by
      cases hv : m k with
      | none => rfl
      | some v => rw [h.complete k v hv] at hc; cases hc
    unfold Knowledge.patch at hk
    split at hk
    · exact absurd hc hk
    · next hne =>
      cases hv : m' k with
      | none => exact absurd (hm.trans hv.symm) hne
      | some v => exact ⟨v, hm, rfl⟩
  · exact Or.inl hc

end Knowledge
