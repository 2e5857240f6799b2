import Mathlib.Data.List.Nodup
import Mathlib.Logic.Function.Basic

/-!
# Journals of a map

A journal is a list of edits of a map, each with the value it found and the value it left.
Replayed on the map it was written for it leads forwards, undone there it leads back:

* `replay_append`: a journal may be cut anywhere
* `replay_undo`: undoing takes back what replaying has done
* `fits_and_replay_of_diff`: a list of all differences between two maps is a journal from one
  to the other
-/

namespace Journal

variable {κ ν : Type*}

structure Edit (κ ν : Type*) where
  key : κ
  before : Option ν
  after : Option ν

/-- The edit that takes this one back. -/
def Edit.inverse (edit : Edit κ ν) : Edit κ ν := ⟨edit.key, edit.after, edit.before⟩

/-- The edits that take a journal back, the last one first. -/
def undo (edits : List (Edit κ ν)) : List (Edit κ ν) := (edits.map Edit.inverse).reverse

theorem undo_cons (edit : Edit κ ν) (edits : List (Edit κ ν)) :
    undo (edit :: edits) = undo edits ++ [edit.inverse] := by
  rw [undo, List.map_cons, List.reverse_cons]
  rfl

variable [DecidableEq κ]

/-- The map that a journal leads to. -/
def replay : List (Edit κ ν) → (κ → Option ν) → κ → Option ν
  | [], m => m
  | edit :: rest, m => replay rest (Function.update m edit.key edit.after)

/-- Every edit finds the value that it says it has found. -/
def Fits : List (Edit κ ν) → (κ → Option ν) → Prop
  | [], _ => True
  | edit :: rest, m => m edit.key = edit.before ∧ Fits rest (Function.update m edit.key edit.after)

theorem replay_append : ∀ (edits edits' : List (Edit κ ν)) (m : κ → Option ν),
    replay (edits ++ edits') m = replay edits' (replay edits m)
  | [], _, _ => rfl
  | _ :: rest, edits', _ => replay_append rest edits' _

theorem Fits.append : ∀ {edits edits' : List (Edit κ ν)} {m : κ → Option ν},
    Fits edits m → Fits edits' (replay edits m) → Fits (edits ++ edits') m
  | [], _, _, _, h' => h'
  | _ :: _, _, _, h, h' => ⟨h.1, Fits.append h.2 h'⟩

/-- **Undoing a journal leads back.** -/
theorem replay_undo : ∀ {edits : List (Edit κ ν)} {m : κ → Option ν}, Fits edits m →
    replay (undo edits) (replay edits m) = m
  | [], _, _ => rfl
  | edit :: rest, m, h => by
    have hback : replay (undo rest) (replay (edit :: rest) m) =
        Function.update m edit.key edit.after := replay_undo h.2
    rw [undo_cons, replay_append, hback]
    show Function.update (Function.update m edit.key edit.after) edit.key edit.before = m
    rw [Function.update_idem, ← h.1, Function.update_eq_self]

/-- **The differences between two maps, each listed once, are a journal from one to the other.** -/
theorem fits_and_replay_of_diff {m' : κ → Option ν} : ∀ {edits : List (Edit κ ν)}
    {m : κ → Option ν}, (edits.map Edit.key).Nodup → (∀ edit ∈ edits, m edit.key = edit.before) →
    (∀ edit ∈ edits, m' edit.key = edit.after) →
    (∀ k, m k ≠ m' k → k ∈ edits.map Edit.key) → Fits edits m ∧ replay edits m = m'
  | [], m, _, _, _, hall => by
    refine ⟨trivial, funext fun k => ?_⟩
    by_contra hne
    exact absurd (hall k hne) List.not_mem_nil
  | edit :: rest, m, hnodup, hbefore, hafter, hall => by
    rw [List.map_cons, List.nodup_cons] at hnodup
    have hother : ∀ other ∈ rest, other.key ≠ edit.key := by
      intro other hmem heq
      exact hnodup.1 (heq ▸ List.mem_map_of_mem hmem)
    obtain ⟨hfits, hreplay⟩ := @fits_and_replay_of_diff m' rest
      (Function.update m edit.key edit.after) hnodup.2
      (fun other hmem => by
        rw [Function.update_of_ne (hother other hmem)]
        exact hbefore other (List.mem_cons_of_mem _ hmem))
      (fun other hmem => hafter other (List.mem_cons_of_mem _ hmem))
      (fun k hne => by
        by_cases hk : k = edit.key
        · rw [hk, Function.update_self] at hne
          exact absurd (hafter edit List.mem_cons_self).symm hne
        · rw [Function.update_of_ne hk] at hne
          exact (List.mem_cons.mp (hall k hne)).resolve_left hk)
    exact ⟨⟨hbefore edit List.mem_cons_self, hfits⟩, hreplay⟩

end Journal
