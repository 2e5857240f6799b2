import Mathlib.Tactic.Common

/-!
# Machines that answer

A machine takes one operation after the other, answers each, and moves its state. The rules
here are about whole runs over a list of operations:

* `run_invariant`: what every operation preserves holds after the run
* `run_bisim`: related states give the same answers for ever
* `run_kept`: the operations that leave nothing behind may be left out, and
  `run_kept_upToBad` as long as nothing goes wrong
* `run_chain`: links that fit end to end stay fitted along the run
-/

universe u v w

namespace Machine

variable {Op : Type u} {Ans : Type v} {S T : Type w}

/-- Runs the operations in order and collects the answers. -/
def run (step : Op → S → Ans × S) : List Op → S → List Ans × S
  | [], s => ([], s)
  | op :: ops, s =>
    let (answer, s) := step op s
    let (answers, s) := run step ops s
    (answer :: answers, s)

@[simp] theorem run_nil (step : Op → S → Ans × S) (s : S) : run step [] s = ([], s) := rfl

@[simp] theorem run_cons (step : Op → S → Ans × S) (op : Op) (ops : List Op) (s : S) :
    run step (op :: ops) s
      = ((step op s).1 :: (run step ops (step op s).2).1, (run step ops (step op s).2).2) := rfl

/-- What every operation of the run preserves, the run preserves. -/
theorem run_invariant {step : Op → S → Ans × S} {Inv : S → Prop} :
    ∀ {ops : List Op}, (∀ op ∈ ops, ∀ s, Inv s → Inv (step op s).2) →
      ∀ s, Inv s → Inv (run step ops s).2
  | [], _, _, hs => hs
  | op :: _, h, s, hs =>
    run_invariant (fun op' hop => h op' (List.mem_cons_of_mem _ hop)) _
      (h op List.mem_cons_self s hs)

/-- **Bisimulation.** Related states answer every list of operations alike. -/
theorem run_bisim {step₁ : Op → S → Ans × S} {step₂ : Op → T → Ans × T} {R : S → T → Prop}
    (h : ∀ op s t, R s t → (step₁ op s).1 = (step₂ op t).1 ∧ R (step₁ op s).2 (step₂ op t).2) :
    ∀ (ops : List Op) (s : S) (t : T), R s t →
      (run step₁ ops s).1 = (run step₂ ops t).1 ∧ R (run step₁ ops s).2 (run step₂ ops t).2
  | [], _, _, hst => ⟨rfl, hst⟩
  | op :: ops, s, t, hst => by
    obtain ⟨hans, hr⟩ := h op s t hst
    obtain ⟨hanswers, hr'⟩ := run_bisim h ops _ _ hr
    rw [run_cons, run_cons, hans, hanswers]
    exact ⟨rfl, hr'⟩

/-! ## Operations that leave nothing behind -/

section Kept

/-- The operations of a run that pass a test, each with its answer. -/
def kept (step : Op → S → Ans × S) (keep : Op → Ans → Bool) : List Op → S → List (Op × Ans)
  | [], _ => []
  | op :: ops, s =>
    if keep op (step op s).1 then (op, (step op s).1) :: kept step keep ops (step op s).2
    else kept step keep ops (step op s).2

/-- A test that looks at no answer is a filter. -/
theorem map_fst_kept (step : Op → S → Ans × S) (keep : Op → Bool) :
    ∀ (ops : List Op) (s : S),
      (kept step (fun op _ => keep op) ops s).map Prod.fst = ops.filter keep
  | [], _ => rfl
  | op :: ops, s => by
    rw [kept, List.filter_cons]
    split
    · rw [List.map_cons, map_fst_kept step keep ops]
    · exact map_fst_kept step keep ops _

/--
**A run without its idle operations, up to bad.**

As long as the run is not bad, related states answer the operations that pass the test alike,
and an operation that fails it leaves its state related to the one before. Then the operations
that pass the test get the same answers without the others, and lead to a related state.
-/
theorem run_kept_upToBad {step : Op → S → Ans × S} {keep : Op → Ans → Bool} {R : S → S → Prop}
    {Bad : S → Prop} (hbad : ∀ op s, Bad s → Bad (step op s).2)
    (hagree : ∀ op s t, R s t → keep op (step op s).1 = true → Bad (step op s).2 ∨
      ((step op s).1 = (step op t).1 ∧ R (step op s).2 (step op t).2))
    (hidle : ∀ op s t, R s t → keep op (step op s).1 = false →
      Bad (step op s).2 ∨ R (step op s).2 t) :
    ∀ (ops : List Op) (s t : S), R s t → Bad (run step ops s).2 ∨
      ((run step ((kept step keep ops s).map Prod.fst) t).1
          = (kept step keep ops s).map Prod.snd ∧
        R (run step ops s).2 (run step ((kept step keep ops s).map Prod.fst) t).2)
  | [], _, _, h => Or.inr ⟨rfl, h⟩
  | op :: ops, s, t, h => by
    have hstays : Bad (step op s).2 → Bad (run step ops (step op s).2).2 :=
      run_invariant (fun op' _ s' => hbad op' s') _
    rw [run_cons, kept]
    by_cases hkeep : keep op (step op s).1 = true
    · rw [if_pos hkeep, List.map_cons, List.map_cons, run_cons]
      rcases hagree op s t h hkeep with hb | ⟨hanswer, hr⟩
      · exact Or.inl (hstays hb)
      · refine (run_kept_upToBad hbad hagree hidle ops _ _ hr).imp_right fun hend => ?_
        rw [hend.1, ← hanswer]
        exact ⟨rfl, hend.2⟩
    · rw [if_neg hkeep]
      rcases hidle op s t h (Bool.eq_false_iff.mpr hkeep) with hb | hr
      · exact Or.inl (hstays hb)
      · exact run_kept_upToBad hbad hagree hidle ops _ t hr

/-- **A run without its idle operations**, where nothing goes bad. -/
theorem run_kept {step : Op → S → Ans × S} {keep : Op → Ans → Bool} {R : S → S → Prop}
    (hagree : ∀ op s t, R s t → (step op s).1 = (step op t).1 ∧ R (step op s).2 (step op t).2)
    (hidle : ∀ op s t, R s t → keep op (step op s).1 = false → R (step op s).2 t)
    (ops : List Op) (s t : S) (h : R s t) :
    (run step ((kept step keep ops s).map Prod.fst) t).1 = (kept step keep ops s).map Prod.snd ∧
      R (run step ops s).2 (run step ((kept step keep ops s).map Prod.fst) t).2 :=
  (@run_kept_upToBad _ _ _ step keep R (fun _ => False) (fun _ _ hb => hb)
    (fun op s t hr _ => Or.inr (hagree op s t hr))
    (fun op s t hr hkeep => Or.inr (hidle op s t hr hkeep)) ops s t h).resolve_left id

end Kept

/-! ## Chains -/

section Chain

variable {D : Type*}

/-- Links that lead from one end to the other, each beginning where the last one ended. -/
def Linked (first : D) : List (D × D) → D → Prop
  | [], last => first = last
  | link :: links, last => link.1 = first ∧ Linked link.2 links last

/--
Every answer is worth a link or none, and the operation it answers leads the label of the
state along it. Then the links of a whole run lead from the first label to the last.
-/
theorem run_chain {step : Op → S → Ans × S} {Inv : S → Prop} (label : S → D → Prop)
    {link : Ans → Option (D × D)} :
    ∀ {ops : List Op}, (∀ op ∈ ops, ∀ s, Inv s → Inv (step op s).2) →
      (∀ op ∈ ops, ∀ s d, Inv s → label s d → ∃ d', label (step op s).2 d' ∧
        Linked d (link (step op s).1).toList d') →
      ∀ s d, Inv s → label s d → ∃ d', label (run step ops s).2 d' ∧
        Linked d ((run step ops s).1.filterMap link) d'
  | [], _, _, _, d, _, hd => ⟨d, hd, rfl⟩
  | op :: ops, hinv, hlink, s, d, hs, hd => by
    obtain ⟨d₁, hd₁, hfirst⟩ := hlink op List.mem_cons_self s d hs hd
    obtain ⟨d₂, hd₂, hrest⟩ := run_chain label
      (fun op' hop => hinv op' (List.mem_cons_of_mem _ hop))
      (fun op' hop => hlink op' (List.mem_cons_of_mem _ hop))
      _ d₁ (hinv op List.mem_cons_self s hs) hd₁
    refine ⟨d₂, hd₂, ?_⟩
    rw [run_cons, List.filterMap_cons]
    cases hl : link (step op s).1 with
    | none =>
      rw [hl] at hfirst
      cases hfirst
      exact hrest
    | some l =>
      rw [hl] at hfirst
      obtain ⟨hbegin, hend⟩ := hfirst
      cases hend
      exact ⟨hbegin, hrest⟩

end Chain

end Machine
