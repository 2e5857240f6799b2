import Kanatoko.Capture.Requests

/-!
# The request rate

The limiter reserves the instants at which requests are due, one interval after the other. A
request sent late does not move the reservations behind it, so the next one may follow in less
than an interval. As long as lateness does not shrink from one request to the next, or a
request starts a full interval after the last one was sent, the rate is kept.
-/

namespace Kanatoko

/-! ## Spaced instants -/

/-- Instants at least `gap` apart, the latest first, reach back far. -/
theorem spaced_head {gap from_ : Nat} : ∀ {latest : Nat} {rest : List Nat},
    ((latest :: rest).Pairwise fun later earlier => earlier + gap ≤ later) →
    (∀ s ∈ latest :: rest, from_ ≤ s) → from_ + rest.length * gap ≤ latest
  | latest, [], _, hfrom => by simpa using hfrom latest List.mem_cons_self
  | latest, earlier :: rest, hspaced, hfrom => by
    rw [List.pairwise_cons] at hspaced
    have ih := spaced_head hspaced.2 fun s hs => hfrom s (List.mem_cons_of_mem _ hs)
    have hgap := hspaced.1 earlier List.mem_cons_self
    rw [List.length_cons, Nat.succ_mul]
    omega

/-- A window of `count` gaps holds at most `count` spaced instants. -/
theorem spaced_length_le {gap from_ width count : Nat} {l : List Nat}
    (hspaced : l.Pairwise fun later earlier => earlier + gap ≤ later)
    (hwindow : ∀ s ∈ l, from_ ≤ s ∧ s < from_ + width) (hwidth : width ≤ count * gap) :
    l.length ≤ count := by
  cases l with
  | nil => exact Nat.zero_le count
  | cons latest rest =>
    have hhead := spaced_head hspaced fun s hs => (hwindow s hs).1
    have hlatest := (hwindow latest List.mem_cons_self).2
    have hlt : rest.length * gap < count * gap := by omega
    exact Nat.lt_of_mul_lt_mul_right hlt

/-! ## The interval -/

theorem requestInterval_pos {r : UInt32} (hr : 0 < r.toNat) : 0 < requestInterval r := by
  have hne : r ≠ 0 := by
    rintro rfl
    exact absurd hr (by decide)
  rw [requestInterval, if_neg hne]
  exact Nat.div_pos (by omega) hr

/-- The interval is rounded up: `r` intervals make up a second. -/
theorem second_le_intervals {r : UInt32} (hr : 0 < r.toNat) :
    fromSecs 1 ≤ r.toNat * requestInterval r := by
  have hne : r ≠ 0 := by
    rintro rfl
    exact absurd hr (by decide)
  rw [requestInterval, if_neg hne]
  have hdiv := Nat.lt_mul_div_succ (1000000000 + r.toNat - 1) hr
  rw [Nat.mul_add, Nat.mul_one] at hdiv
  show 1 * 1000000000 ≤ r.toNat * ((1000000000 + r.toNat - 1) / r.toNat)
  omega

/-! ## One request -/

/-- The instant at which a request that starts now is due. -/
def RequestRateLimiter.due (limiter : RequestRateLimiter) (start : Nat) : Nat :=
  match limiter.nextRequest with
  | none => start
  | some nextRequest => max nextRequest start

theorem start_le_due (limiter : RequestRateLimiter) (start : Nat) :
    start ≤ limiter.due start := by
  unfold RequestRateLimiter.due
  split
  · exact Nat.le_refl start
  · exact Nat.le_max_right _ _

/-- **The delay lasts until the request is due, and the next one is due an interval later.** -/
theorem reserveDelay_eq {limiter : RequestRateLimiter} (h : limiter.minInterval ≠ 0)
    (start : Nat) : limiter.reserveDelay start =
      (limiter.due start - start,
        { limiter with nextRequest := some (limiter.due start + limiter.minInterval) }) := by
  unfold RequestRateLimiter.reserveDelay RequestRateLimiter.due
  rw [if_neg h]
  cases limiter.nextRequest with
  | none => simp
  | some nextRequest =>
    dsimp only
    by_cases hle : nextRequest ≤ start
    · rw [if_pos hle, Nat.max_eq_right hle, Nat.sub_self]
    · rw [if_neg hle, Nat.max_eq_left (Nat.le_of_not_le hle)]

/-- What is sent after the delay is sent no earlier than it is due. -/
theorem due_le_sent {limiter : RequestRateLimiter} (h : limiter.minInterval ≠ 0)
    {start slept sent : Nat} (hslept : (limiter.reserveDelay start).1 ≤ slept)
    (hsent : start + slept ≤ sent) : limiter.due start ≤ sent := by
  have hstart := start_le_due limiter start
  rw [reserveDelay_eq h] at hslept
  dsimp only at hslept
  omega

/-! ## Runs -/

/-- A request of a run: when it was due, and when it was sent. -/
structure Sent where
  due : Nat
  sent : Nat
  deriving DecidableEq, Repr

/-- How late a request was sent. -/
def Sent.late (s : Sent) : Nat := s.sent - s.due

/-- What a step of a run may be required to meet: the limiter and the requests before it, and
when it starts and is sent. -/
abbrev StepCondition := RequestRateLimiter → List Sent → Nat → Nat → Prop

/--
Runs of wait and send on one limiter with the limit `r`; the requests are listed latest first.
A step starts no earlier than the previous request was sent, sleeps at least the delay, and
sends after the sleep.
-/
inductive RateRun (r : UInt32) (Q : StepCondition) : RequestRateLimiter → List Sent → Prop
  | new : RateRun r Q (.new r) []
  | set (limiter : RequestRateLimiter) : RateRun r Q (limiter.setRequestsPerSecond r) []
  | request {limiter : RequestRateLimiter} {past : List Sent} (start slept sent : Nat) :
      RateRun r Q limiter past → (∀ last ∈ past.head?, last.sent ≤ start) →
      (limiter.reserveDelay start).1 ≤ slept → start + slept ≤ sent → Q limiter past start sent →
      RateRun r Q (limiter.reserveDelay start).2 (⟨limiter.due start, sent⟩ :: past)

/-- The requests sent in the second from an instant on. -/
def sentWithin (past : List Sent) (from_ : Nat) : List Sent :=
  past.filter fun s => decide (from_ ≤ s.sent ∧ s.sent < from_ + fromSecs 1)

/-- A request is at least as late as the one before, or it starts a full interval after the one
before was sent. -/
def Steady : StepCondition := fun limiter past start sent =>
  ∀ last ∈ past.head?, last.late ≤ sent - limiter.due start ∨
    last.sent + limiter.minInterval ≤ start

instance (limiter : RequestRateLimiter) (past : List Sent) (start sent : Nat) :
    Decidable (Steady limiter past start sent) :=
  inferInstanceAs (Decidable (∀ last ∈ past.head?, last.late ≤ sent - limiter.due start ∨
    last.sent + limiter.minInterval ≤ start))

/-- What holds of the limiter and the requests in every run. -/
structure RateInvariant (r : UInt32) (limiter : RequestRateLimiter) (past : List Sent) : Prop where
  interval : limiter.minInterval = requestInterval r
  reserved : ∀ last ∈ past.head?, limiter.nextRequest = some (last.due + requestInterval r)
  due_le : ∀ s ∈ past, s.due ≤ s.sent

theorem RateInvariant.interval_ne {r : UInt32} {limiter : RequestRateLimiter} {past : List Sent}
    (hr : 0 < r.toNat) (h : RateInvariant r limiter past) : limiter.minInterval ≠ 0 := by
  rw [h.interval]
  exact (requestInterval_pos hr).ne'

theorem RateRun.invariant {r : UInt32} {Q : StepCondition} {limiter : RequestRateLimiter}
    {past : List Sent} (hr : 0 < r.toNat) (h : RateRun r Q limiter past) :
    RateInvariant r limiter past := by
  induction h with
  | new => exact ⟨rfl, by simp, by simp⟩
  | set => exact ⟨rfl, by simp, by simp⟩
  | @request limiter past start slept sent _ _ hslept hsent _ ih =>
    have hne := ih.interval_ne hr
    have hdue := due_le_sent hne hslept hsent
    rw [reserveDelay_eq hne]
    refine ⟨ih.interval, fun last hlast => ?_, List.forall_mem_cons.mpr ⟨hdue, ih.due_le⟩⟩
    cases hlast
    rw [ih.interval]

/-- A steady request is sent a full interval after the one before. -/
theorem RateInvariant.gap {r : UInt32} {limiter : RequestRateLimiter} {past : List Sent}
    (h : RateInvariant r limiter past) {last : Sent} (hlast : last ∈ past.head?)
    {start sent : Nat} (hdue : limiter.due start ≤ sent) (hsteady : Steady limiter past start sent) :
    last.sent + requestInterval r ≤ sent := by
  have hreserved : last.due + requestInterval r ≤ limiter.due start := by
    unfold RequestRateLimiter.due
    rw [h.reserved last hlast]
    exact Nat.le_max_left _ _
  have hlate := h.due_le last (List.mem_of_mem_head? hlast)
  have hstart := start_le_due limiter start
  rcases hsteady last hlast with hsame | hidle
  · unfold Sent.late at hsame
    omega
  · rw [h.interval] at hidle
    omega

/-- The requests of a steady run are an interval apart. -/
theorem RateRun.spaced {r : UInt32} {limiter : RequestRateLimiter} {past : List Sent}
    (hr : 0 < r.toNat) (h : RateRun r Steady limiter past) :
    past.Pairwise fun later earlier => earlier.sent + requestInterval r ≤ later.sent := by
  induction h with
  | new => exact List.Pairwise.nil
  | set => exact List.Pairwise.nil
  | @request limiter past start slept sent hrun _ hslept hsent hsteady ih =>
    have hinv := hrun.invariant hr
    have hdue := due_le_sent (hinv.interval_ne hr) hslept hsent
    refine List.pairwise_cons.mpr ⟨fun earlier hearlier => ?_, ih⟩
    cases past with
    | nil => cases hearlier
    | cons last rest =>
      have hgap : last.sent + requestInterval r ≤ sent := hinv.gap rfl hdue hsteady
      rcases List.mem_cons.mp hearlier with rfl | hrest
      · exact hgap
      · have hbefore := List.rel_of_pairwise_cons ih hrest
        show earlier.sent + requestInterval r ≤ sent
        omega

/--
**A steady run keeps the documented rate.**

No window of one second holds more than `r` requests, after any number of them.
-/
theorem steady_rate_kept {r : UInt32} (hr : 0 < r.toNat) {limiter : RequestRateLimiter}
    {past : List Sent} (h : RateRun r Steady limiter past) (from_ : Nat) :
    (sentWithin past from_).length ≤ r.toNat := by
  have hspaced : ((sentWithin past from_).map Sent.sent).Pairwise
      fun later earlier => earlier + requestInterval r ≤ later :=
    List.pairwise_map.mpr ((h.spaced hr).filter _)
  have hwindow : ∀ s ∈ (sentWithin past from_).map Sent.sent, from_ ≤ s ∧ s < from_ + fromSecs 1 := by
    intro s hs
    obtain ⟨x, hx, rfl⟩ := List.mem_map.mp hs
    exact of_decide_eq_true (List.mem_filter.mp hx).2
  rw [← List.length_map Sent.sent]
  exact spaced_length_le hspaced hwindow (second_le_intervals hr)

end Kanatoko

namespace Kanatoko.Testnet

/-! ## Two runs -/

/-- At two requests a second, the second of two immediate requests waits and the third is free. -/
theorem steady_run : ∃ limiter past, RateRun 2 Steady limiter past ∧ past.length = 3 ∧
    ∀ from_, (sentWithin past from_).length ≤ 2 := by
  have hfirst : RateRun 2 Steady _ _ := .request 0 0 0 .new (by simp) (by decide) (by decide)
    (by simp [Steady])
  have hsecond : RateRun 2 Steady _ _ := .request 0 500000000 500000000 hfirst (by decide)
    (by decide) (by decide) (by decide)
  have hthird : RateRun 2 Steady _ _ := .request 1000000000 0 1000000000 hsecond (by decide)
    (by decide) (by decide) (by decide)
  exact ⟨_, _, hthird, rfl, steady_rate_kept (by decide) hthird⟩

/-- At one request a second, the second request wakes up 900 ms late and the third on time. -/
theorem late_run : ¬ ∀ (r : UInt32) (limiter : RequestRateLimiter) (past : List Sent),
    0 < r.toNat → RateRun r (fun _ _ _ _ => True) limiter past →
      ∀ from_, (sentWithin past from_).length ≤ r.toNat := by
  intro hclaim
  have hfirst : RateRun 1 (fun _ _ _ _ => True) _ _ :=
    .request 0 0 0 .new (by simp) (by decide) (by decide) trivial
  have hsecond : RateRun 1 (fun _ _ _ _ => True) _ _ :=
    .request 0 1900000000 1900000000 hfirst (by decide) (by decide) (by decide) trivial
  have hthird : RateRun 1 (fun _ _ _ _ => True) _ _ :=
    .request 1900000000 100000000 2000000000 hsecond (by decide) (by decide) (by decide) trivial
  have htwo := hclaim 1 _ _ (by decide) hthird 1900000000
  revert htwo
  decide

end Kanatoko.Testnet
