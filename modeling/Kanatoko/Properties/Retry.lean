import Kanatoko.Capture.Requests

/-!
# The read retry policy

A read request is sent at most four times, with a pause before each further attempt, and a
pause the server asks for is kept. The loop keeps to that policy exactly when no numeral in a
`Retry-After` header it reaches is too large for 64 bits: such a numeral is taken for no
numeral, and the request is sent again after the plain backoff.
-/

namespace Kanatoko

variable {ρ : Type}

/-! ## The header -/

/-- The header is a decimal numeral, between white space, that denotes `n`. -/
def DenotesSeconds (header : String) (n : Nat) : Prop :=
  ∃ lead digits trail : List Char, header.toList = lead ++ (digits ++ trail) ∧
    (∀ c ∈ lead, isWhitespace c = true) ∧ (∀ c ∈ trail, isWhitespace c = true) ∧
    digits ≠ [] ∧ (∀ c ∈ digits, c.isDigit = true) ∧ decimalValue digits = n

theorem digit_bounds {c : Char} (h : c.isDigit = true) : 48 ≤ c.toNat ∧ c.toNat ≤ 57 := by
  simp only [Char.isDigit, Bool.and_eq_true, decide_eq_true_eq] at h
  exact ⟨UInt32.le_iff_toNat_le.mp h.1, UInt32.le_iff_toNat_le.mp h.2⟩

theorem isWhitespace_digit {c : Char} (h : c.isDigit = true) : isWhitespace c = false := by
  have hbounds := digit_bounds h
  by_contra hc
  rw [Bool.not_eq_false, isWhitespace] at hc
  simp only [Bool.or_eq_true, Bool.and_eq_true, decide_eq_true_eq] at hc
  omega

/-- Trimming takes the white space off both ends of a numeral. -/
theorem trim_eq {header : String} {lead digits trail : List Char}
    (heq : header.toList = lead ++ (digits ++ trail)) (hlead : ∀ c ∈ lead, isWhitespace c = true)
    (htrail : ∀ c ∈ trail, isWhitespace c = true) (hne : digits ≠ [])
    (hdigits : ∀ c ∈ digits, c.isDigit = true) : trim header = String.ofList digits := by
  obtain ⟨first, rest, rfl⟩ := List.exists_cons_of_ne_nil hne
  have hfirst := isWhitespace_digit (hdigits first List.mem_cons_self)
  have hlast : isWhitespace ((first :: rest).getLast hne) = false :=
    isWhitespace_digit (hdigits _ (List.getLast_mem hne))
  have hfront : (header.toList).dropWhile isWhitespace = (first :: rest) ++ trail := by
    rw [heq, List.dropWhile_append_of_pos hlead, List.cons_append, List.dropWhile_cons_of_neg]
    rw [hfirst]
    exact Bool.false_ne_true
  have hback : ((first :: rest) ++ trail).rdropWhile isWhitespace = first :: rest := by
    have hreverse : ∀ c ∈ trail.reverse, isWhitespace c = true :=
      fun c hc => htrail c (List.mem_reverse.mp hc)
    rw [List.rdropWhile, List.reverse_append, List.dropWhile_append_of_pos hreverse,
      ← List.rdropWhile, List.rdropWhile_eq_self_iff]
    intro _
    rw [hlast]
    exact Bool.false_ne_true
  rw [trim, hfront, hback]

/-- A numeral is parsed when its value has 64 bits. -/
theorem parseU64_digits {digits : List Char} (hne : digits ≠ [])
    (hdigits : ∀ c ∈ digits, c.isDigit = true) :
    parseU64 (String.ofList digits) =
      if decimalValue digits < 2 ^ 64 then some (UInt64.ofNat (decimalValue digits)) else none := by
  obtain ⟨first, rest, rfl⟩ := List.exists_cons_of_ne_nil hne
  have hplus : first ≠ '+' := by
    rintro rfl
    have hdigit := hdigits '+' List.mem_cons_self
    simp [Char.isDigit] at hdigit
  have hall : (first :: rest).all Char.isDigit = true := List.all_eq_true.mpr hdigits
  simp [parseU64, hplus, hall]

/-- What a header with a numeral makes of a delay. -/
theorem retryDelay_numeral {header : String} {n : Nat} (h : DenotesSeconds header n)
    (backoff : Nat) : retryDelay backoff (some header) =
      if 2 ^ 64 ≤ n then some backoff
      else if 5 < n then none else some (max backoff (fromSecs n)) := by
  obtain ⟨lead, digits, trail, heq, hlead, htrail, hne, hdigits, rfl⟩ := h
  unfold retryDelay
  dsimp only
  rw [trim_eq heq hlead htrail hne hdigits, parseU64_digits hne hdigits]
  by_cases hlt : decimalValue digits < 2 ^ 64
  · rw [if_pos hlt, if_neg (Nat.not_le.mpr hlt)]
    dsimp only
    rw [UInt64.toNat_ofNat_of_lt' hlt]
    have hlong : fromSecs (decimalValue digits) > rpcMaxRetryAfter ↔ 5 < decimalValue digits := by
      show decimalValue digits * 1000000000 > 5 * 1000000000 ↔ 5 < decimalValue digits
      omega
    simp only [hlong]
  · rw [if_neg hlt, if_pos (Nat.not_lt.mp hlt)]

/-! ## The loop -/

/-- The pause before the next attempt, when there is to be one. -/
def delayAfter (backoff : Nat) : HttpResult ρ → Option Nat
  | .status status response =>
    if isRetryableHttpStatus status then retryDelay backoff response.retryAfter else none
  | _ => none

/-- The pauses of the loop from one of its turns on. -/
def delaysFrom (send : Nat → HttpResult ρ) : Nat → List Nat → List Nat
  | _, [] => []
  | retry, backoff :: backoffs =>
    match delayAfter backoff (send retry) with
    | none => []
    | some delay => delay :: delaysFrom send (retry + 1) backoffs

/-- Requests with one pause between any two of them. -/
def alternating (send : Nat → HttpResult ρ) : Nat → List Nat → List (RetryEvent ρ)
  | retry, [] => [.sent (send retry)]
  | retry, delay :: delays => .sent (send retry) :: .slept delay :: alternating send (retry + 1) delays

/-- **The loop sends and pauses in turn, and returns the result of its last request.** -/
theorem retryLoop_eq (send : Nat → HttpResult ρ) : ∀ (backoffs : List Nat) (retry : Nat),
    retryLoop send retry backoffs =
      ⟨alternating send retry (delaysFrom send retry backoffs),
        send (retry + (delaysFrom send retry backoffs).length)⟩
  | [], retry => rfl
  | backoff :: backoffs, retry => by
    have ih := retryLoop_eq send backoffs (retry + 1)
    unfold retryLoop delaysFrom delayAfter
    cases hsend : send retry with
    | ok response => simp [alternating, hsend]
    | transport error => simp [alternating, hsend]
    | status status response =>
      dsimp only
      by_cases hretryable : isRetryableHttpStatus status = true
      · rw [if_pos hretryable, if_pos hretryable]
        cases hdelay : retryDelay backoff response.retryAfter with
        | none => simp [alternating, hsend]
        | some delay =>
          simp only [ih, alternating, hsend, List.length_cons]
          rw [Nat.add_right_comm, Nat.add_assoc]
      · rw [if_neg hretryable, if_neg hretryable]
        simp [alternating, hsend]

/-- One history of requests and pauses tells the pauses. -/
theorem alternating_injective (send : Nat → HttpResult ρ) : ∀ {a b : List Nat} {retry : Nat},
    alternating send retry a = alternating send retry b → a = b
  | [], [], _, _ => rfl
  | [], _ :: _, _, h => by simp [alternating] at h
  | _ :: _, [], _, h => by simp [alternating] at h
  | x :: a, y :: b, retry, h => by
    rw [alternating, alternating, List.cons.injEq, List.cons.injEq] at h
    obtain ⟨_, hdelay, hrest⟩ := h
    rw [RetryEvent.slept.injEq] at hdelay
    rw [hdelay, alternating_injective send hrest]

/-- The result is one that the loop retries. -/
def Retried (result : HttpResult ρ) : Prop := (delayAfter 0 result).isSome = true

instance : DecidablePred (@Retried ρ) := fun result =>
  inferInstanceAs (Decidable ((delayAfter 0 result).isSome = true))

theorem delayAfter_isSome (backoff : Nat) (result : HttpResult ρ) :
    (delayAfter backoff result).isSome = true ↔ Retried result := by
  unfold Retried delayAfter
  cases result with
  | ok _ => rfl
  | transport _ => rfl
  | status status response =>
    dsimp only
    split
    · unfold retryDelay
      cases response.retryAfter with
      | none => rfl
      | some header =>
        dsimp only
        cases parseU64 (trim header) with
        | none => rfl
        | some seconds =>
          dsimp only
          split <;> simp
    · rfl

/-- The loop pauses once more while what it has received is retried. -/
theorem lt_length_delaysFrom (send : Nat → HttpResult ρ) : ∀ (backoffs : List Nat)
    (retry i : Nat), i < (delaysFrom send retry backoffs).length ↔
      i < backoffs.length ∧ ∀ j ≤ i, Retried (send (retry + j))
  | [], _, i => by simp [delaysFrom]
  | backoff :: backoffs, retry, i => by
    have hfirst := delayAfter_isSome backoff (send retry)
    unfold delaysFrom
    cases hdelay : delayAfter backoff (send retry) with
    | none =>
      rw [hdelay] at hfirst
      simp only [List.length_nil, Nat.not_lt_zero, false_iff, not_and]
      intro _ hall
      have hretried := hall 0 (Nat.zero_le i)
      rw [Nat.add_zero, ← hfirst] at hretried
      cases hretried
    | some delay =>
      have hretried : Retried (send retry) := hfirst.mp (by rw [hdelay]; rfl)
      dsimp only
      cases i with
      | zero =>
        simp only [List.length_cons, Nat.zero_lt_succ, true_and, Nat.le_zero, forall_eq,
          Nat.add_zero, hretried]
      | succ i =>
        rw [List.length_cons, List.length_cons, Nat.add_lt_add_iff_right, Nat.add_lt_add_iff_right,
          lt_length_delaysFrom send backoffs (retry + 1) i]
        refine and_congr_right fun _ => ⟨fun h j hj => ?_, fun h j hj => ?_⟩
        · cases j with
          | zero => exact hretried
          | succ j =>
            rw [← Nat.add_assoc, Nat.add_right_comm]
            exact h j (Nat.le_of_succ_le_succ hj)
        · have hnext := h (j + 1) (Nat.succ_le_succ hj)
          rwa [← Nat.add_assoc, Nat.add_right_comm] at hnext

/-- A pause is the one the loop makes of the result before it. -/
theorem getElem?_delaysFrom (send : Nat → HttpResult ρ) : ∀ {backoffs : List Nat}
    {retry i : Nat} {delay : Nat}, (delaysFrom send retry backoffs)[i]? = some delay →
    ∃ backoff, backoffs[i]? = some backoff ∧ delayAfter backoff (send (retry + i)) = some delay
  | [], _, _, _, h => by simp [delaysFrom] at h
  | backoff :: backoffs, retry, i, delay, h => by
    unfold delaysFrom at h
    cases hdelay : delayAfter backoff (send retry) with
    | none => rw [hdelay] at h; simp at h
    | some first =>
      rw [hdelay] at h
      cases i with
      | zero =>
        cases h
        exact ⟨backoff, rfl, hdelay⟩
      | succ i =>
        obtain ⟨b, hb, hnext⟩ := getElem?_delaysFrom send h
        rw [Nat.add_right_comm] at hnext
        exact ⟨b, hb, hnext⟩

/-! ## The policy -/

/-- The status of the result is retryable. -/
def HttpResult.isRetryable : HttpResult ρ → Bool
  | .status code _ => isRetryableHttpStatus code
  | _ => false

/-- A retryable response with a `Retry-After` numeral that denotes `n` seconds. -/
def AsksFor (result : HttpResult ρ) (n : Nat) : Prop :=
  ∃ status response header, result = .status status response ∧
    isRetryableHttpStatus status = true ∧ response.retryAfter = some header ∧
    DenotesSeconds header n

/-- A run that pauses as `delays` say is as the policy wants it. -/
structure KeepsPolicy (send : Nat → HttpResult ρ) (delays : List Nat) : Prop where
  /-- The requests are sent in turn, with one pause between any two. -/
  events : (sendReadRpcWithRetry send).events = alternating send 0 delays
  result : (sendReadRpcWithRetry send).result = send delays.length
  atMostFour : delays.length + 1 ≤ 4
  /-- Nothing is sent after a result that is not retryable. -/
  retryable : ∀ i < delays.length, (send i).isRetryable = true
  backoff : ∀ (i : Nat) (delay : Nat), delays[i]? = some delay →
    ∃ least, [fromMillis 200, fromMillis 400, fromMillis 800][i]? = some least ∧ least ≤ delay
  short : ∀ i n, AsksFor (send i) n → n ≤ 5 → ∀ delay, delays[i]? = some delay → fromSecs n ≤ delay
  /-- Nothing is sent after a request for a longer pause. -/
  long : ∀ i n, AsksFor (send i) n → 5 < n → delays.length ≤ i

def RetryPolicy (send : Nat → HttpResult ρ) : Prop := ∃ delays, KeepsPolicy send delays

/-- No numeral is too large for 64 bits, among the first three results and as far as every
result before is retried. -/
def NumeralsFit (send : Nat → HttpResult ρ) : Prop :=
  ∀ i < 3, (∀ j < i, Retried (send j)) → ∀ n, AsksFor (send i) n → n < 2 ^ 64

theorem delayAfter_asksFor {result : HttpResult ρ} {n : Nat} (h : AsksFor result n)
    (backoff : Nat) : delayAfter backoff result =
      if 2 ^ 64 ≤ n then some backoff
      else if 5 < n then none else some (max backoff (fromSecs n)) := by
  obtain ⟨status, response, header, rfl, hstatus, hheader, hdenotes⟩ := h
  rw [delayAfter, if_pos hstatus, hheader, retryDelay_numeral hdenotes]

/-- A pause comes after a retryable status, and is no shorter than the backoff. -/
theorem delayAfter_eq_some {result : HttpResult ρ} {backoff delay : Nat}
    (h : delayAfter backoff result = some delay) : result.isRetryable = true ∧ backoff ≤ delay := by
  unfold delayAfter at h
  cases result with
  | ok _ => cases h
  | transport _ => cases h
  | status status response =>
    dsimp only at h
    split at h
    · next hstatus =>
      refine ⟨hstatus, ?_⟩
      unfold retryDelay at h
      split at h
      · exact (Option.some.inj h).le
      · split at h
        · exact (Option.some.inj h).le
        · dsimp only at h
          split at h
          · cases h
          · cases h
            exact le_max_left _ _
    · cases h

/-- **The run keeps to the policy while the numerals fit.** -/
theorem keepsPolicy_of_fit {send : Nat → HttpResult ρ} (hfit : NumeralsFit send) :
    KeepsPolicy send (delaysFrom send 0 rpcRetryBackoff) := by
  have heq := retryLoop_eq send rpcRetryBackoff 0
  have hlength := lt_length_delaysFrom send rpcRetryBackoff 0
  have hget : ∀ {i : Nat} {delay : Nat},
      (delaysFrom send 0 rpcRetryBackoff)[i]? = some delay →
      ∃ backoff, rpcRetryBackoff[i]? = some backoff ∧ delayAfter backoff (send i) = some delay := by
    intro i delay hi
    obtain ⟨backoff, hbackoff, hdelay⟩ := getElem?_delaysFrom send hi
    rw [Nat.zero_add] at hdelay
    exact ⟨backoff, hbackoff, hdelay⟩
  constructor
  · rw [sendReadRpcWithRetry, heq]
  · rw [sendReadRpcWithRetry, heq, Nat.zero_add]
  · by_contra hlong
    have hthree := (hlength 3).mp (by omega)
    exact absurd hthree.1 (by decide)
  · intro i hi
    obtain ⟨backoff, _, hdelay⟩ := hget (List.getElem?_eq_getElem hi)
    exact (delayAfter_eq_some hdelay).1
  · intro i delay hi
    obtain ⟨backoff, hbackoff, hdelay⟩ := hget hi
    exact ⟨backoff, hbackoff, (delayAfter_eq_some hdelay).2⟩
  · intro i n hasks hn delay hi
    obtain ⟨backoff, _, hdelay⟩ := hget hi
    rw [delayAfter_asksFor hasks, if_neg (by omega), if_neg (by omega)] at hdelay
    cases hdelay
    exact le_max_right _ _
  · intro i n hasks hn
    by_contra hlt
    obtain ⟨hthree, hretried⟩ := (hlength i).mp (Nat.not_le.mp hlt)
    have hsmall := hfit i hthree (fun j hj => by simpa using hretried j hj.le) n hasks
    have hhere : Retried (send i) := by simpa using hretried i (Nat.le_refl i)
    rw [Retried, delayAfter_asksFor hasks, if_neg (by omega), if_pos hn] at hhere
    cases hhere

/--
**The read retry policy is kept exactly when the numerals fit.**

A numeral of 2^64 or more is not taken for one: the request is sent again after the backoff.
-/
theorem retry_policy_iff (send : Nat → HttpResult ρ) : RetryPolicy send ↔ NumeralsFit send := by
  constructor
  · rintro ⟨delays, h⟩ i hi hbefore n hasks
    by_contra hlarge
    have hdelays : delaysFrom send 0 rpcRetryBackoff = delays := by
      have hevents := h.events
      rw [sendReadRpcWithRetry, retryLoop_eq] at hevents
      exact alternating_injective send hevents
    have hhere : Retried (send i) := by
      rw [Retried, delayAfter_asksFor hasks, if_pos (Nat.not_lt.mp hlarge)]
      rfl
    -- so the loop goes on behind the numeral
    have hmore : i < delays.length := by
      rw [← hdelays, lt_length_delaysFrom]
      refine ⟨hi, fun j hj => ?_⟩
      rw [Nat.zero_add]
      rcases Nat.lt_or_eq_of_le hj with hlt | rfl
      · exact hbefore j hlt
      · exact hhere
    exact absurd (h.long i n hasks (by omega)) (Nat.not_le.mpr hmore)
  · exact fun hfit => ⟨_, keepsPolicy_of_fit hfit⟩

/-! ## A numeral that is too large -/

def tooLarge : HttpResult Unit := .status 503 ⟨some "18446744073709551616", ()⟩

/-- The server asks for 2^64 seconds, and answers the next request. -/
def longPause : Nat → HttpResult Unit
  | 0 => tooLarge
  | _ => .ok ⟨none, ()⟩

/-- The second request is sent after 200 ms. -/
theorem longPause_not_kept : sendReadRpcWithRetry longPause =
    ⟨[.sent tooLarge, .slept (fromMillis 200), .sent (.ok ⟨none, ()⟩)], .ok ⟨none, ()⟩⟩ ∧
    AsksFor (longPause 0) (2 ^ 64) ∧ ¬ RetryPolicy longPause := by
  have hrun : sendReadRpcWithRetry longPause =
      ⟨[.sent tooLarge, .slept (fromMillis 200), .sent (.ok ⟨none, ()⟩)], .ok ⟨none, ()⟩⟩ := by
    decide +kernel
  have hasks : AsksFor (longPause 0) (2 ^ 64) := by
    have hdenotes : DenotesSeconds "18446744073709551616" (2 ^ 64) := by
      refine ⟨[], ['1', '8', '4', '4', '6', '7', '4', '4', '0', '7', '3', '7', '0', '9', '5', '5',
        '1', '6', '1', '6'], [], ?_, ?_, ?_, ?_, ?_, ?_⟩
      · simp
      · simp
      · simp
      · simp
      · simp
      · simp [decimalValue]
    exact ⟨503, _, _, rfl, by decide, rfl, hdenotes⟩
  refine ⟨hrun, hasks, ?_⟩
  rintro ⟨delays, h⟩
  have hevents := h.events
  have hnone : delays = [] := List.length_eq_zero_iff.mp (Nat.le_zero.mp (h.long 0 _ hasks (by decide)))
  rw [hrun, hnone] at hevents
  simp [alternating] at hevents

end Kanatoko
