import Mathlib.Data.List.Basic
import Mathlib.Tactic.Common

/-!
# Chunks of a list

`chunks n l` cuts a list into consecutive pieces of `n` elements, the last one possibly
shorter, as `slice::chunks` does.
-/

namespace Chunks

variable {α : Type*}

/-- The pieces, with the piece under way and the room left in it. -/
def chunksFrom (n : Nat) : Nat → List α → List α → List (List α)
  | _, [], [] => []
  | _, x :: piece, [] => [x :: piece]
  | 0, piece, x :: l => piece :: chunksFrom n (n - 1) [x] l
  | room + 1, piece, x :: l => chunksFrom n room (piece ++ [x]) l

def chunks (n : Nat) (l : List α) : List (List α) := chunksFrom n n [] l

theorem chunksFrom_flatten (n : Nat) : ∀ (l : List α) (room : Nat) (piece : List α),
    (chunksFrom n room piece l).flatten = piece ++ l
  | [], _, [] => by simp [chunksFrom]
  | [], _, x :: piece => by simp [chunksFrom]
  | x :: l, 0, piece => by
    rw [chunksFrom, List.flatten_cons, chunksFrom_flatten n l (n - 1) [x]]
    simp
  | x :: l, room + 1, piece => by
    rw [chunksFrom, chunksFrom_flatten n l room (piece ++ [x])]
    simp

/-- The pieces make up the list. -/
theorem chunks_flatten (n : Nat) (l : List α) : (chunks n l).flatten = l := by
  rw [chunks, chunksFrom_flatten, List.nil_append]

theorem chunksFrom_length_le {n : Nat} (hn : 0 < n) : ∀ (l : List α) (room : Nat) (piece : List α),
    piece.length + room ≤ n → ∀ c ∈ chunksFrom n room piece l, c.length ≤ n
  | [], _, [], _ => by simp [chunksFrom]
  | [], room, x :: piece, h => by
    intro c hc
    rw [chunksFrom, List.mem_singleton] at hc
    rw [hc]
    omega
  | x :: l, 0, piece, h => by
    intro c hc
    rw [chunksFrom, List.mem_cons] at hc
    rcases hc with rfl | hc
    · omega
    · exact chunksFrom_length_le hn l (n - 1) [x] (by simp; omega) c hc
  | x :: l, room + 1, piece, h => by
    rw [chunksFrom]
    refine chunksFrom_length_le hn l room (piece ++ [x]) ?_
    simp only [List.length_append, List.length_singleton]
    omega

/-- No piece is longer than asked for. -/
theorem chunks_length_le {n : Nat} (hn : 0 < n) (l : List α) :
    ∀ c ∈ chunks n l, c.length ≤ n :=
  chunksFrom_length_le hn l n [] (by simp)

end Chunks
