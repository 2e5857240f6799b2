import Kanatoko.Capture.Requests

/-!
# The link to an RPC server

`HttpTransport::rpc` with all that stands below it: the clock of the process, the limiter every
attempt waits for, the retries, and a server that may answer anything. Time only passes during
the steps of the link.
-/

namespace Kanatoko

/-- The JSON of a request, as far as requests differ: `params` is `{}`, or holds keys. -/
structure RpcRequest where
  method : String
  keys : Option (List String)
  deriving DecidableEq, Repr

/-- `RpcResponse`: the body of a response, as far as it has the expected form. -/
structure RpcResponse (α : Type) where
  result : Option α
  /-- Whether there is an `error`. -/
  error : Bool

/-- `Response::into_json` for the three kinds of results. -/
class BodyCrate (ρ : Type) where
  networkFromJson : ρ → Option (RpcResponse NetworkWire)
  latestFromJson : ρ → Option (RpcResponse LatestWire)
  entriesFromJson : ρ → Option (RpcResponse EntriesWire)

export BodyCrate (networkFromJson latestFromJson entriesFromJson)

/-- What stands behind the URL: its result for a request. -/
abbrev Remote (τ ρ : Type) := RpcRequest → τ → HttpResult ρ × τ

/-- A request that was sent, when, and with what result. -/
structure Post (ρ : Type) where
  request : RpcRequest
  sent : Nat
  result : HttpResult ρ

structure Link (τ ρ : Type) where
  server : τ
  clock : Nat
  /-- How much longer than it has to a step takes, from the next one on. -/
  lags : Nat → Nat
  limiter : RequestRateLimiter
  /-- The latest one comes first. The program never reads them. -/
  posts : List (Post ρ)

namespace Link

variable {τ ρ : Type}

/-- A step that takes at least `time`. -/
def spend (time : Nat) (l : Link τ ρ) : Link τ ρ :=
  { l with
    clock := l.clock + time + l.lags 0
    lags := fun n => l.lags (n + 1) }

/-- `thread::sleep`. -/
def sleep (duration : Nat) (l : Link τ ρ) : Link τ ρ := l.spend duration

/-- `RequestRateLimiter::wait`. -/
def wait (l : Link τ ρ) : Link τ ρ :=
  let l := l.spend 0
  let (delay, limiter) := l.limiter.reserveDelay l.clock
  let l := { l with limiter := limiter }
  if delay = 0 then l else l.sleep delay

/-- `send_json`. -/
def post (remote : Remote τ ρ) (request : RpcRequest) (l : Link τ ρ) : HttpResult ρ × Link τ ρ :=
  let l := l.spend 0
  let (result, server) := remote request l.server
  (result, { l with server := server, posts := ⟨request, l.clock, result⟩ :: l.posts })

/-- The closure that `rpc` hands to the retry loop. -/
def send (remote : Remote τ ρ) (request : RpcRequest) (l : Link τ ρ) : HttpResult ρ × Link τ ρ :=
  l.wait.post remote request

end Link

/--
`send_read_rpc_with_retry` over the state that its closures work on. `backoffs` are the entries
of `RPC_RETRY_BACKOFF` from the current turn on.
-/
def retryFrom {S ρ : Type} (send : S → HttpResult ρ × S) (sleep : Nat → S → S) :
    List Nat → S → HttpResult ρ × S
  | [], s => send s
  | backoff :: backoffs, s =>
    match send s with
    | (.status status response, s) =>
      if isRetryableHttpStatus status then
        match retryDelay backoff response.retryAfter with
        | none => (.status status response, s)
        | some delay => retryFrom send sleep backoffs (sleep delay s)
      else (.status status response, s)
    | (result, s) => (result, s)

namespace Link

variable {τ ρ : Type} {α : Type}

/-- The requests of one call of `rpc`. -/
def sendRead (remote : Remote τ ρ) (request : RpcRequest) : Link τ ρ → HttpResult ρ × Link τ ρ :=
  retryFrom (send remote request) sleep rpcRetryBackoff

/-- `HttpTransport::rpc` of a result that came back: `none` is a `TransportFailure`. -/
def parse (fromJson : ρ → Option (RpcResponse α)) : HttpResult ρ → Option α
  | .ok response => do
    let body ← fromJson response.rest
    if body.error then none else body.result
  | .status _ _ | .transport _ => none

def rpc (remote : Remote τ ρ) (fromJson : ρ → Option (RpcResponse α)) (request : RpcRequest)
    (l : Link τ ρ) : Option α × Link τ ρ :=
  let (result, l) := l.sendRead remote request
  (parse fromJson result, l)

end Link

/-- The server of `httpTransport` as the link shows it. -/
def linkServer {τ ρ : Type} [BodyCrate ρ] (remote : Remote τ ρ) : RpcServer (Link τ ρ) where
  getNetwork := Link.rpc remote networkFromJson ⟨"getNetwork", none⟩
  getLatestLedger := Link.rpc remote latestFromJson ⟨"getLatestLedger", none⟩
  getLedgerEntries keys := Link.rpc remote entriesFromJson ⟨"getLedgerEntries", some keys⟩

/-- The link of a builder with the given limit, at an instant. -/
def Link.start {τ ρ : Type} (maxRequestsPerSecond : UInt32) (server : τ) (clock : Nat)
    (lags : Nat → Nat) : Link τ ρ where
  server := server
  clock := clock
  lags := lags
  -- `CaptureBuilder::rpc`, and then `rpc_rate_limit`
  limiter := (RequestRateLimiter.new 0).setRequestsPerSecond maxRequestsPerSecond
  posts := []

end Kanatoko
