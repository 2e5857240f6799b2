import Kanatoko.Capture.Link
import Kanatoko.Properties.Preserved
import Kanatoko.Properties.RateLimit
import Kanatoko.Properties.Retry

/-!
# The traffic of a run

All requests of a run go through one retry loop and one limiter. Seen from the server, a run is
a sequence of exchanges, each of at most four requests with the pauses of the retry policy
between them; and counted from its start, it never sends more requests than its limit allows.
-/

namespace Kanatoko

open Fallible

/-! ## The retry loop over a state -/

section Attempts

variable {S ρ : Type} {send : S → HttpResult ρ × S} {sleep : Nat → S → S}

/-- Requests with these results, and these pauses between them, lead from one state to another. -/
def Attempts (send : S → HttpResult ρ × S) (sleep : Nat → S → S) :
    (Nat → HttpResult ρ) → List Nat → S → S → Prop
  | results, [], s, s' => send s = (results 0, s')
  | results, delay :: delays, s, s' => ∃ s₁, send s = (results 0, s₁) ∧
      Attempts send sleep (fun n => results (n + 1)) delays (sleep delay s₁) s'

theorem delaysFrom_succ (results : Nat → HttpResult ρ) : ∀ (backoffs : List Nat) (retry : Nat),
    delaysFrom results (retry + 1) backoffs = delaysFrom (fun n => results (n + 1)) retry backoffs
  | [], _ => rfl
  | backoff :: backoffs, retry => by
    rw [delaysFrom, delaysFrom]
    split
    · rfl
    · rw [delaysFrom_succ results backoffs (retry + 1)]

/-- The results of a loop: one now, and those of the turns behind it. -/
def resultsCons (result : HttpResult ρ) (results : Nat → HttpResult ρ) : Nat → HttpResult ρ
  | 0 => result
  | n + 1 => results n

/-- What a turn of the loop does with the result of its request. -/
theorem retryFrom_cons (backoff : Nat) (backoffs : List Nat) (s : S) :
    retryFrom send sleep (backoff :: backoffs) s =
      match delayAfter backoff (send s).1 with
      | none => send s
      | some delay => retryFrom send sleep backoffs (sleep delay (send s).2) := by
  rw [retryFrom]
  obtain ⟨result, s₁⟩ := send s
  cases result with
  | ok response => rfl
  | transport error => rfl
  | status status response =>
    dsimp only [delayAfter]
    by_cases hretryable : isRetryableHttpStatus status = true
    · rewrite [if_pos hretryable, if_pos hretryable]
      cases retryDelay backoff response.retryAfter <;> rfl
    · rw [if_neg hretryable, if_neg hretryable]

/-- **The loop over a state is the retry loop on the results it meets.** -/
theorem retryFrom_attempts : ∀ (backoffs : List Nat) (s : S), ∃ results,
    (retryFrom send sleep backoffs s).1 = results (delaysFrom results 0 backoffs).length ∧
      Attempts send sleep results (delaysFrom results 0 backoffs) s
        (retryFrom send sleep backoffs s).2
  | [], s => ⟨fun _ => (send s).1, rfl, rfl⟩
  | backoff :: backoffs, s => by
    rw [retryFrom_cons]
    cases hdelay : delayAfter backoff (send s).1 with
    | none =>
      refine ⟨fun _ => (send s).1, ?_⟩
      rw [delaysFrom, hdelay]
      exact ⟨rfl, rfl⟩
    | some delay =>
      obtain ⟨results, hresult, hattempts⟩ :=
        retryFrom_attempts backoffs (sleep delay (send s).2)
      refine ⟨resultsCons (send s).1 results, ?_⟩
      have hdelays : delaysFrom (resultsCons (send s).1 results) 0 (backoff :: backoffs)
          = delay :: delaysFrom results 0 backoffs := by
        rw [delaysFrom]
        show (match delayAfter backoff (send s).1 with
          | none => []
          | some delay => delay :: delaysFrom (resultsCons (send s).1 results) (0 + 1) backoffs) = _
        rw [hdelay, delaysFrom_succ]
        rfl
      rw [hdelays]
      exact ⟨hresult, (send s).2, rfl, hattempts⟩

end Attempts

/-! ## Exchanges -/

section Exchanges

variable {τ ρ : Type}

/-- The requests of one call in the order they were sent, with the pauses between them. -/
structure Exchange (request : RpcRequest) (results : Nat → HttpResult ρ) (delays : List Nat)
    (posts : List (Post ρ)) : Prop where
  length_eq : posts.length = delays.length + 1
  answered : ∀ (i : Nat) (p : Post ρ), posts[i]? = some p →
    p.request = request ∧ p.result = results i
  paused : ∀ (i : Nat) (p q : Post ρ) (delay : Nat), posts[i]? = some p → posts[i + 1]? = some q →
    delays[i]? = some delay → p.sent + delay ≤ q.sent

theorem spend_clock (time : Nat) (l : Link τ ρ) : l.clock + time ≤ (l.spend time).clock :=
  Nat.le_add_right _ _

/-- A wait reserves a request, and lasts until it is due. -/
theorem wait_reserves (l : Link τ ρ) :
    l.wait.limiter = (l.limiter.reserveDelay (l.spend 0).clock).2 ∧
      (l.spend 0).clock + (l.limiter.reserveDelay (l.spend 0).clock).1 ≤ l.wait.clock ∧
      l.wait.posts = l.posts := by
  unfold Link.wait
  dsimp only
  split
  · next hnone =>
    refine ⟨rfl, ?_, rfl⟩
    show (l.spend 0).clock + (l.limiter.reserveDelay (l.spend 0).clock).1 ≤ (l.spend 0).clock
    rw [show (l.limiter.reserveDelay (l.spend 0).clock).1 = 0 from hnone, Nat.add_zero]
  · exact ⟨rfl, spend_clock _ _, rfl⟩

/-- A request is the latest one, and sent no earlier than its turn began. -/
theorem send_posts (remote : Remote τ ρ) (request : RpcRequest) (l : Link τ ρ) :
    ∃ sent, l.clock ≤ sent ∧ (l.send remote request).2.clock = sent ∧
      (l.send remote request).2.posts
        = ⟨request, sent, (l.send remote request).1⟩ :: l.posts := by
  obtain ⟨_, hclock, hposts⟩ := wait_reserves l
  have hnow := spend_clock 0 l
  have hsent := spend_clock 0 l.wait
  refine ⟨(l.wait.spend 0).clock, by omega, rfl, ?_⟩
  show (_ :: l.wait.posts) = _
  rw [hposts]
  rfl

/-- **What a loop of requests leaves is an exchange.** -/
theorem Attempts.exchange {remote : Remote τ ρ} {request : RpcRequest} :
    ∀ {delays : List Nat} {results : Nat → HttpResult ρ} {l l' : Link τ ρ},
    Attempts (Link.send remote request) Link.sleep results delays l l' →
      ∃ posts, Exchange request results delays posts ∧ l'.posts = posts.reverse ++ l.posts ∧
        ∀ p ∈ posts.head?, l.clock ≤ p.sent
  | [], results, l, l', h => by
    obtain ⟨sent, hsent, _, hposts⟩ := send_posts remote request l
    have hsend : l.send remote request = (results 0, l') := h
    rw [hsend] at hposts
    refine ⟨[⟨request, sent, results 0⟩], ⟨rfl, fun i p hp => ?_, fun i p q delay _ _ h => ?_⟩,
      hposts, fun p hp => ?_⟩
    · cases i with
      | zero => cases hp; exact ⟨rfl, rfl⟩
      | succ i => cases hp
    · cases h
    · cases hp
      exact hsent
  | delay :: delays, results, l, l', h => by
    obtain ⟨l₁, hsend, hrest⟩ := h
    obtain ⟨sent, hsent, hclock, hposts⟩ := send_posts remote request l
    rw [hsend] at hclock hposts
    replace hclock : l₁.clock = sent := hclock
    obtain ⟨posts, hexchange, hlater, hhead⟩ := hrest.exchange
    refine ⟨⟨request, sent, results 0⟩ :: posts, ⟨?_, fun i p hp => ?_, fun i p q d hp hq hd => ?_⟩,
      ?_, fun p hp => ?_⟩
    · rw [List.length_cons, List.length_cons, hexchange.length_eq]
    · cases i with
      | zero => cases hp; exact ⟨rfl, rfl⟩
      | succ i => exact hexchange.answered i p hp
    · cases i with
      | zero =>
        cases hp
        cases hd
        -- the pause begins when the request has been sent
        have hnext := hhead q (by rw [List.head?_eq_getElem?]; exact hq)
        have hpause : l₁.clock + delay ≤ (l₁.sleep delay).clock := spend_clock delay l₁
        show sent + delay ≤ q.sent
        omega
      | succ i => exact hexchange.paused i p q d hp hq hd
    · rw [hlater, show (l₁.sleep delay).posts = l₁.posts from rfl, hposts, List.reverse_cons,
        List.append_assoc]
      rfl
    · cases hp
      exact hsent

/-- **One call is one exchange**, and ends with the result that the retry loop ends with. -/
theorem sendRead_exchange (remote : Remote τ ρ) (request : RpcRequest) (l : Link τ ρ) :
    ∃ results posts, Exchange request results (delaysFrom results 0 rpcRetryBackoff) posts ∧
      (l.sendRead remote request).2.posts = posts.reverse ++ l.posts ∧
      (l.sendRead remote request).1 = (sendReadRpcWithRetry results).result := by
  obtain ⟨results, hresult, hattempts⟩ := @retryFrom_attempts _ _ (Link.send remote request)
    Link.sleep rpcRetryBackoff l
  obtain ⟨posts, hexchange, hlater, _⟩ := hattempts.exchange
  refine ⟨results, posts, hexchange, hlater, ?_⟩
  rw [sendReadRpcWithRetry, retryLoop_eq, Nat.zero_add]
  exact hresult

/-- An exchange has as many requests as the policy allows. -/
theorem Exchange.length_le {request : RpcRequest} {results : Nat → HttpResult ρ}
    {posts : List (Post ρ)}
    (h : Exchange request results (delaysFrom results 0 rpcRetryBackoff) posts) :
    posts.length ≤ 4 := by
  rw [h.length_eq]
  by_contra hlong
  have hthree := (lt_length_delaysFrom results rpcRetryBackoff 0 3).mp (by omega)
  exact absurd hthree.1 (by decide)

end Exchanges

/-! ## Due requests -/

section Due

variable {r : UInt32} {t₀ : Nat} {limiter : RequestRateLimiter} {past : List Sent}

/-- No wait begins before `t₀`. -/
def BeginsFrom (t₀ : Nat) : StepCondition := fun _ _ start _ => t₀ ≤ start

theorem due_from (h : RateRun r (BeginsFrom t₀) limiter past) : ∀ s ∈ past, t₀ ≤ s.due := by
  induction h with
  | new => simp
  | set => simp
  | @request limiter past start slept sent _ _ _ _ hbegins ih =>
    exact List.forall_mem_cons.mpr ⟨Nat.le_trans hbegins (start_le_due limiter start), ih⟩

/-- **Requests are due an interval apart**, whenever they are sent. -/
theorem due_spaced {Q : StepCondition} (hr : 0 < r.toNat) (h : RateRun r Q limiter past) :
    past.Pairwise fun later earlier => earlier.due + requestInterval r ≤ later.due := by
  induction h with
  | new => exact List.Pairwise.nil
  | set => exact List.Pairwise.nil
  | @request limiter past start slept sent hrun _ _ _ _ ih =>
    refine List.pairwise_cons.mpr ⟨fun earlier hearlier => ?_, ih⟩
    cases past with
    | nil => cases hearlier
    | cons last rest =>
      have hgap : last.due + requestInterval r ≤ limiter.due start := by
        unfold RequestRateLimiter.due
        rw [(hrun.invariant hr).reserved last rfl]
        exact Nat.le_max_left _ _
      rcases List.mem_cons.mp hearlier with rfl | hrest
      · exact hgap
      · have hbefore := List.rel_of_pairwise_cons ih hrest
        show earlier.due + requestInterval r ≤ limiter.due start
        omega

/-- **From its start on, a limiter lets through no more than its rate**, for any span. -/
theorem sent_by_le (hr : 0 < r.toNat) (h : RateRun r (BeginsFrom t₀) limiter past) (seconds : Nat) :
    (past.filter fun s => decide (s.sent < t₀ + fromSecs seconds)).length ≤ seconds * r.toNat := by
  have hspaced : ((past.filter fun s => decide (s.sent < t₀ + fromSecs seconds)).map
      Sent.due).Pairwise fun later earlier => earlier + requestInterval r ≤ later :=
    List.pairwise_map.mpr ((due_spaced hr h).filter _)
  have hwindow : ∀ due ∈ (past.filter fun s => decide (s.sent < t₀ + fromSecs seconds)).map Sent.due,
      t₀ ≤ due ∧ due < t₀ + fromSecs seconds := by
    intro due hdue
    obtain ⟨s, hs, rfl⟩ := List.mem_map.mp hdue
    obtain ⟨hmem, hsent⟩ := List.mem_filter.mp hs
    -- a request is sent no earlier than it is due
    exact ⟨due_from h s hmem,
      Nat.lt_of_le_of_lt ((h.invariant hr).due_le s hmem) (of_decide_eq_true hsent)⟩
  rw [← List.length_map Sent.due]
  refine spaced_length_le hspaced hwindow ?_
  have hsecond := Nat.mul_le_mul_left seconds (second_le_intervals hr)
  rw [Nat.mul_assoc]
  show seconds * 1000000000 ≤ _
  exact hsecond

end Due

/-! ## The traffic of a link -/

section Traffic

variable {τ ρ : Type} {r : UInt32} {t₀ : Nat}

/-- The requests so far are those of a run of waits and sends on the limiter. -/
def Metered (r : UInt32) (t₀ : Nat) (l : Link τ ρ) : Prop :=
  ∃ past, RateRun r (BeginsFrom t₀) l.limiter past ∧
    past.map Sent.sent = l.posts.map Post.sent ∧ (∀ last ∈ past.head?, last.sent ≤ l.clock) ∧
    t₀ ≤ l.clock

theorem Metered.spend {l : Link τ ρ} (h : Metered r t₀ l) (time : Nat) :
    Metered r t₀ (l.spend time) := by
  obtain ⟨past, hrun, hsent, hlast, hstart⟩ := h
  have hclock := spend_clock time l
  exact ⟨past, hrun, hsent, fun last hmem => (hlast last hmem).trans (by omega), by omega⟩

/-- **Every request is a step of the limiter.** -/
theorem Metered.send {remote : Remote τ ρ} {request : RpcRequest} {l : Link τ ρ}
    (h : Metered r t₀ l) : Metered r t₀ (l.send remote request).2 := by
  obtain ⟨past, hrun, hsent, hlast, hstart⟩ := h.spend 0
  obtain ⟨hlimiter, hclock, hposts⟩ := wait_reserves l
  have hspent := spend_clock 0 l.wait
  refine ⟨⟨l.limiter.due (l.spend 0).clock, (l.wait.spend 0).clock⟩ :: past, ?_, ?_, ?_, ?_⟩
  · show RateRun r (BeginsFrom t₀) l.wait.limiter _
    rw [hlimiter]
    exact .request _ (l.limiter.reserveDelay (l.spend 0).clock).1 _ hrun hlast (Nat.le_refl _)
      (by omega) hstart
  · show _ :: past.map Sent.sent = _ :: l.wait.posts.map Post.sent
    rw [hposts]
    exact congrArg _ hsent
  · intro last hmem
    cases hmem
    exact Nat.le_refl _
  · show t₀ ≤ (l.wait.spend 0).clock
    omega

theorem Metered.retryFrom {remote : Remote τ ρ} {request : RpcRequest} :
    ∀ (backoffs : List Nat) {l : Link τ ρ}, Metered r t₀ l →
      Metered r t₀ (retryFrom (Link.send remote request) Link.sleep backoffs l).2
  | [], _, h => h.send
  | backoff :: backoffs, l, h => by
    rw [retryFrom_cons]
    split
    · exact h.send
    · exact Metered.retryFrom backoffs (h.send.spend _)

/-- The requests of a run that has made so many calls: one exchange after the other. -/
def Exchanges (posts : List (Post ρ)) (calls : Nat) : Prop :=
  ∃ exchanges : List (List (Post ρ)), posts.reverse = exchanges.flatten ∧
    exchanges.length ≤ calls ∧ ∀ x ∈ exchanges, ∃ request results,
      Exchange request results (delaysFrom results 0 rpcRetryBackoff) x

theorem Exchanges.length_le {posts : List (Post ρ)} {calls : Nat} (h : Exchanges posts calls) :
    posts.length ≤ calls * 4 := by
  obtain ⟨exchanges, hposts, hcalls, hall⟩ := h
  have hlength : (exchanges.map List.length).sum ≤ exchanges.length * 4 := by
    rw [← List.length_map List.length]
    refine List.sum_le_card_nsmul _ 4 fun n hn => ?_
    obtain ⟨x, hx, rfl⟩ := List.mem_map.mp hn
    obtain ⟨request, results, hexchange⟩ := hall x hx
    exact hexchange.length_le
  rw [← List.length_reverse, hposts, List.length_flatten]
  exact hlength.trans (Nat.mul_le_mul_right 4 hcalls)

/-- One call adds one exchange. -/
theorem sendRead_exchanges {remote : Remote τ ρ} {request : RpcRequest} {l : Link τ ρ} {calls : Nat}
    (h : Exchanges l.posts calls) :
    Exchanges (l.sendRead remote request).2.posts (calls + 1) := by
  obtain ⟨exchanges, hposts, hcalls, hall⟩ := h
  obtain ⟨results, posts, hexchange, hlater, _⟩ := sendRead_exchange remote request l
  refine ⟨exchanges ++ [posts], ?_, ?_, ?_⟩
  · rw [hlater, List.reverse_append, List.reverse_reverse, hposts,
      List.flatten_append, List.flatten_singleton]
  · rw [List.length_append, List.length_singleton]
    omega
  · intro x hx
    rcases List.mem_append.mp hx with hx | hx
    · exact hall x hx
    · cases List.mem_singleton.mp hx
      exact ⟨request, results, hexchange⟩

end Traffic

/-! ## Whole runs -/

section Runs

variable {τ ρ : Type} [Crates] [WireCrates] [BodyCrate ρ]

/-- What the link has sent, against the calls in the log. -/
structure Traffic (r : UInt32) (t₀ : Nat) (w : World (Link τ ρ)) : Prop where
  metered : Metered r t₀ w.transport
  exchanges : Exchanges w.transport.posts (w.log.countP Event.isTransport)

omit [Crates] [WireCrates] [BodyCrate ρ] in
theorem Traffic.call {r : UInt32} {t₀ : Nat} {w w' : World (Link τ ρ)} (h : Traffic r t₀ w)
    {remote : Remote τ ρ} {request : RpcRequest} {e : Event}
    (htransport : w'.transport = (w.transport.sendRead remote request).2)
    (hlog : w'.log = w.log ++ [e]) (he : e.isTransport = true) : Traffic r t₀ w' := by
  refine ⟨htransport ▸ h.metered.retryFrom rpcRetryBackoff, ?_⟩
  rw [htransport, hlog, List.countP_append, List.countP_singleton, if_pos he]
  exact sendRead_exchanges h.exchanges

omit [Crates] [WireCrates] [BodyCrate ρ] in
theorem Traffic.more {r : UInt32} {t₀ : Nat} {w w' : World (Link τ ρ)} (h : Traffic r t₀ w)
    {e : Event} (htransport : w'.transport = w.transport) (hlog : w'.log = w.log ++ [e]) :
    Traffic r t₀ w' := by
  refine ⟨htransport ▸ h.metered, ?_⟩
  obtain ⟨exchanges, hposts, hcalls, hall⟩ := h.exchanges
  rw [htransport, hlog, List.countP_append]
  exact ⟨exchanges, hposts, hcalls.trans (Nat.le_add_right _ _), hall⟩

/-- **Every call of the transport is one exchange of the link, or none.** -/
theorem traffic_preserved (remote : Remote τ ρ) (r : UInt32) (t₀ : Nat) :
    Preserved (some (httpTransport (linkServer remote))) (Traffic r t₀) where
  record := fun w e _ h => h.more rfl rfl
  network := by
    rintro t ⟨⟩ w h
    have hsent : (w.network (httpTransport (linkServer remote))).2.transport
        = (w.transport.sendRead remote ⟨"getNetwork", none⟩).2 := rfl
    exact h.call hsent (World.network_log w _) rfl
  latestLedger := by
    rintro t ⟨⟩ w h
    have hsent : (w.latestLedger (httpTransport (linkServer remote))).2.transport
        = (w.transport.sendRead remote ⟨"getLatestLedger", none⟩).2 := rfl
    exact h.call hsent (World.latestLedger_log w _) rfl
  ledgerEntries := by
    rintro t ⟨⟩ w keys h
    have hlog := World.ledgerEntries_log w (httpTransport (linkServer remote)) keys
    have htransport : (w.ledgerEntries (httpTransport (linkServer remote)) keys).2.transport
        = (httpLedgerEntries (linkServer remote) keys w.transport).2 := rfl
    cases hkeys : keys.mapM ledgerKeyToXdr with
    | none =>
      rw [httpLedgerEntries, hkeys] at htransport
      exact h.more htransport hlog
    | some encoded =>
      rw [httpLedgerEntries, hkeys] at htransport
      have hsent : (w.ledgerEntries (httpTransport (linkServer remote)) keys).2.transport
          = (w.transport.sendRead remote
            ⟨"getLedgerEntries", some (encoded.map base64Encode)⟩).2 := htransport
      exact h.call hsent hlog rfl

omit [Crates] [WireCrates] [BodyCrate ρ] in
theorem traffic_start (r : UInt32) (server : τ) (clock : Nat) (lags : Nat → Nat) :
    Traffic r clock (⟨.start r server clock lags, []⟩ : World (Link τ ρ)) :=
  ⟨⟨[], .set (.new 0), rfl, by simp, Nat.le_refl _⟩, [], rfl, Nat.le_refl _, by simp⟩

/--
**The traffic of a run.**

However a run ends, and whatever the server answers and the clock does, its requests are one
exchange after the other, no more than one for each call in the log: at most four equal
requests, each after a result that is retried, and no earlier than the retry policy says. From
its start on, the run has at no time sent more requests than its rate limit allows.
-/
theorem run_traffic [BundleCrates] (runner : AutoRunner) (remote : String → Remote τ ρ)
    (scenario : Scenario Unit) (r : UInt32) (server : τ) (clock : Nat) (lags : Nat → Nat)
    (files : FileState) :
    let s : RunState (Link τ ρ) := ⟨⟨.start r server clock lags, []⟩, files⟩
    let w := (endWorld (runner.run (fun url => linkServer (remote url)) scenario s)).world
    Exchanges w.transport.posts (w.log.countP Event.isTransport) ∧
      w.transport.posts.length ≤ w.log.countP Event.isTransport * 4 ∧
      (0 < r.toNat → ∀ seconds, (w.transport.posts.filter fun p =>
        decide (p.sent < clock + fromSecs seconds)).length ≤ seconds * r.toNat) := by
  intro s w
  let connect : String → RpcServer (Link τ ρ) := fun url => linkServer (remote url)
  have hpreserved : Preserved (some (httpTransport (connect runner.rpcUrl))) (Traffic r clock) :=
    traffic_preserved _ _ _
  have hw : Traffic r clock w :=
    (hpreserved.run scenario).endWorld (traffic_start r server clock lags)
  refine ⟨hw.exchanges, hw.exchanges.length_le, fun hr seconds => ?_⟩
  obtain ⟨past, hpast, hsent, _⟩ := hw.metered
  have hcount := sent_by_le hr hpast seconds
  -- the requests of the limiter are those of the link
  have hsame := congrArg (fun sent => (sent.filter fun t =>
    decide (t < clock + fromSecs seconds)).length) hsent
  simp only [List.filter_map, List.length_map] at hsame
  exact hsame ▸ hcount

end Runs

end Kanatoko

namespace Kanatoko.Testnet

scoped instance bodyCrate : BodyCrate Unit where
  networkFromJson _ := none
  latestFromJson _ := none
  entriesFromJson _ := none

/-- A server that is never there. -/
def downServer : Remote Unit Unit := fun _ server => (.status 503 ⟨none, ()⟩, server)

/-- Where an online run against it ends that may send one request a second. -/
def downWorld : World (Link Unit Unit) :=
  (Fallible.endWorld (nativeRunner.run (fun _ => linkServer downServer) nativeScenario
    ⟨⟨.start 1 () 0 fun _ => 0, []⟩, ⟨emptyDisk, 1, 0⟩⟩)).world

/-- The run gives up after the four requests of its first call. -/
theorem down_traffic :
    downWorld.transport.posts.map Post.sent = [fromSecs 3, fromSecs 2, fromSecs 1, 0] ∧
      Exchanges downWorld.transport.posts (downWorld.log.countP Event.isTransport) ∧
      ∀ seconds, (downWorld.transport.posts.filter fun p =>
        decide (p.sent < 0 + fromSecs seconds)).length ≤ seconds * 1 := by
  obtain ⟨hexchanges, _, hrate⟩ := run_traffic nativeRunner (fun _ => downServer) nativeScenario 1
    () 0 (fun _ => 0) ⟨emptyDisk, 1, 0⟩
  exact ⟨by decide +kernel, hexchanges, hrate (by decide)⟩

end Kanatoko.Testnet
