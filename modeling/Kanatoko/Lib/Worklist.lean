import Mathlib.Logic.Relation
import Mathlib.Order.Bounds.Defs
import Mathlib.Data.Set.Basic

/-!
# Worklists

A worklist grows a set by what its members lead to, until nothing is new. Where it stops it has
the least closed superset of the set it started from, if all it added could be reached.
-/

universe u

namespace Worklist

variable {α : Type u} (next : α → α → Prop)

/-- What a member leads to is a member. -/
def Closed (set : Set α) : Prop := ∀ x ∈ set, ∀ y, next x y → y ∈ set

/-- What the members of a set lead to, in any number of steps. -/
def reachable (start : Set α) : Set α := {y | ∃ x ∈ start, Relation.ReflTransGen next x y}

variable {next} {start set : Set α}

theorem subset_reachable : start ⊆ reachable next start := fun x hx => ⟨x, hx, .refl⟩

theorem reachable_closed : Closed next (reachable next start) :=
  fun _ ⟨x, hx, hpath⟩ _ hstep => ⟨x, hx, hpath.tail hstep⟩

theorem Closed.mem_of_path (h : Closed next set) {x y : α} (hx : x ∈ set)
    (hpath : Relation.ReflTransGen next x y) : y ∈ set := by
  induction hpath with
  | refl => exact hx
  | tail _ hstep ih => exact h _ ih _ hstep

theorem reachable_subset (hsub : start ⊆ set) (hclosed : Closed next set) :
    reachable next start ⊆ set :=
  fun _ ⟨_, hx, hpath⟩ => hclosed.mem_of_path (hsub hx) hpath

theorem reachable_isLeast (next : α → α → Prop) (start : Set α) :
    IsLeast {set | start ⊆ set ∧ Closed next set} (reachable next start) :=
  ⟨⟨subset_reachable, reachable_closed⟩, fun _ h => reachable_subset h.1 h.2⟩

/-- A closed set between the start and what it reaches is all it reaches. -/
theorem Closed.eq_reachable (hclosed : Closed next set) (hsub : start ⊆ set)
    (hreached : set ⊆ reachable next start) : set = reachable next start :=
  Set.Subset.antisymm hreached (reachable_subset hsub hclosed)

end Worklist
