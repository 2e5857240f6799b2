import Kanatoko.Capture.Http

/-!
# RPC requests

How a read request is sent: the retries of `send_read_rpc_with_retry`, and the pauses of the
`RequestRateLimiter` in front of every attempt. Durations are numbers of nanoseconds, and so are
instants, counted from a fixed one.
-/

namespace Kanatoko

def fromSecs (seconds : Nat) : Nat := seconds * 1000000000
def fromMillis (millis : Nat) : Nat := millis * 1000000

/-! ## HTTP results -/

/-- A response, as far as its `Retry-After` header; the rest of it is `ρ`. -/
structure HttpResponse (ρ : Type) where
  retryAfter : Option String
  rest : ρ
  deriving DecidableEq, Repr

/-- What `send_json` returns: a response, an error status with its response, or no response. -/
inductive HttpResult (ρ : Type) where
  | ok (response : HttpResponse ρ)
  | status (status : UInt16) (response : HttpResponse ρ)
  | transport (error : ρ)
  deriving DecidableEq, Repr

/-! ## Retries -/

def rpcRetryBackoff : List Nat := [fromMillis 200, fromMillis 400, fromMillis 800]

def rpcMaxRetryAfter : Nat := fromSecs 5

def isRetryableHttpStatus (status : UInt16) : Bool :=
  status = 429 || status = 500 || status = 502 || status = 503 || status = 504

/-- `char::is_whitespace`: the characters with the property White_Space. -/
def isWhitespace (c : Char) : Bool :=
  let n := c.toNat
  (0x9 ≤ n && n ≤ 0xD) || n = 0x20 || n = 0x85 || n = 0xA0 || n = 0x1680
    || (0x2000 ≤ n && n ≤ 0x200A) || n = 0x2028 || n = 0x2029 || n = 0x202F || n = 0x205F
    || n = 0x3000

/-- `str::trim`. -/
def trim (value : String) : String :=
  String.ofList ((value.toList.dropWhile isWhitespace).rdropWhile isWhitespace)

def retryDelay (backoff : Nat) (retryAfter : Option String) : Option Nat :=
  match retryAfter with
  | none => some backoff
  | some retryAfter =>
    match parseU64 (trim retryAfter) with
    | none => some backoff
    | some seconds =>
      let retryAfter := fromSecs seconds.toNat
      -- a pause longer than the bound is not cut short: the request is given up
      if retryAfter > rpcMaxRetryAfter then none else some (max backoff retryAfter)

/-- What a caller of the retry loop can observe, in order. -/
inductive RetryEvent (ρ : Type) where
  | sent (result : HttpResult ρ)
  | slept (delay : Nat)
  deriving DecidableEq, Repr

structure RetryRun (ρ : Type) where
  events : List (RetryEvent ρ)
  result : HttpResult ρ
  deriving DecidableEq, Repr

/--
The loop of `send_read_rpc_with_retry` from its turn `retry` on. `send` yields the results of
the requests in turn, and `backoffs` are the entries of `RPC_RETRY_BACKOFF` from `retry` on, so
`retry < RPC_RETRY_BACKOFF.len()` when there is a first one.
-/
def retryLoop {ρ : Type} (send : Nat → HttpResult ρ) : Nat → List Nat → RetryRun ρ
  | retry, [] => ⟨[.sent (send retry)], send retry⟩
  | retry, backoff :: backoffs =>
    match send retry with
    | .status status response =>
      if isRetryableHttpStatus status then
        match retryDelay backoff response.retryAfter with
        | none => ⟨[.sent (.status status response)], .status status response⟩
        | some delay =>
          let run := retryLoop send (retry + 1) backoffs
          ⟨.sent (.status status response) :: .slept delay :: run.events, run.result⟩
      else ⟨[.sent (.status status response)], .status status response⟩
    | result => ⟨[.sent result], result⟩

def sendReadRpcWithRetry {ρ : Type} (send : Nat → HttpResult ρ) : RetryRun ρ :=
  retryLoop send 0 rpcRetryBackoff

/-! ## The rate limiter -/

def requestInterval (maxRequestsPerSecond : UInt32) : Nat :=
  if maxRequestsPerSecond = 0 then 0
  -- `div_ceil`
  else (1000000000 + maxRequestsPerSecond.toNat - 1) / maxRequestsPerSecond.toNat

structure RequestRateLimiter where
  minInterval : Nat
  nextRequest : Option Nat
  deriving DecidableEq, Repr

namespace RequestRateLimiter

def new (maxRequestsPerSecond : UInt32) : RequestRateLimiter :=
  ⟨requestInterval maxRequestsPerSecond, none⟩

def setRequestsPerSecond (maxRequestsPerSecond : UInt32) (_ : RequestRateLimiter) :
    RequestRateLimiter :=
  ⟨requestInterval maxRequestsPerSecond, none⟩

/-- The delay before a request, and the limiter with the request reserved. -/
def reserveDelay (limiter : RequestRateLimiter) (now : Nat) : Nat × RequestRateLimiter :=
  let interval := limiter.minInterval
  if interval = 0 then (0, { limiter with nextRequest := none })
  else
    match limiter.nextRequest with
    | none => (0, { limiter with nextRequest := some (now + interval) })
    | some nextRequest =>
      if nextRequest ≤ now then (0, { limiter with nextRequest := some (now + interval) })
      else (nextRequest - now, { limiter with nextRequest := some (nextRequest + interval) })

end RequestRateLimiter

end Kanatoko
