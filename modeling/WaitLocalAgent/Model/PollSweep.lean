import WaitLocalAgent.Model.IngestionPoller

/-! # The sweep of a poll

`IngestionPoller._sweep` with its retries. What the sweep meets is given by the page and the
attempt at which it meets it: readings of the monotonic clock, answers of the provider, reads of
the lease and what the sink makes of a page. -/

namespace WaitLocalAgent.Polling

open Foundation

def maxPageRetries : ℕ := 3

def maxBackoffSeconds : ℚ := 60

/-- A `retry_after` value: a finite number, or an infinity or NaN. -/
inductive RetryAfter where
  | seconds (value : ℚ)
  | notFinite
  deriving DecidableEq

/-- `ProviderPage`, of records of a type `τ`. The clients read `Retry-After` from responses 429 and
503 only. -/
structure ProviderPage (τ : Type) where
  records : List τ
  providerStatus : String
  rawCount : ℤ
  droppedCount : ℤ
  httpStatus : Option ℤ
  retryAfter : Option RetryAfter
  throttled : httpStatus ≠ some 429 → httpStatus ≠ some 503 → retryAfter = none

inductive FetchExceptionType where
  | readError
  | connectorFactoryError
  | other
  deriving DecidableEq

/-- What `_exception_reason` looks at: `http_status`, and the types of the exception and its
cause. -/
structure FetchException where
  httpStatus : Option ℤ
  isTimeout : Bool
  isConnectError : Bool
  type : FetchExceptionType
  deriving DecidableEq

/-- What a call of `fetch_page` ends with. -/
inductive FetchAnswer (τ : Type) where
  | page (page : ProviderPage τ)
  | raised (exc : FetchException)

def degradedFetchReasons : List String :=
  ["blocked", "rate_limited", "timeout", "connect_fail", "request_timeout", "provider_5xx"]

def degradedPageReasons : List String :=
  ["blocked", "rate_limited", "request_timeout", "provider_5xx"]

def retryableExceptionReasons : List String :=
  ["timeout", "connect_fail", "request_timeout", "provider_5xx", "rate_limited"]

def exceptionReason (exc : FetchException) : String :=
  if exc.httpStatus = some 408 then "request_timeout"
  else if exc.httpStatus = some 429 then "rate_limited"
  else if exc.httpStatus.any fun status => 500 ≤ status && status ≤ 599 then "provider_5xx"
  else if exc.isTimeout then "timeout"
  else if exc.isConnectError then "connect_fail"
  else
    match exc.type with
    | .readError => "provider_failure"
    | .connectorFactoryError => "factory_error"
    | .other => "provider_failure"

def validRetryAfter : Option RetryAfter → Bool
  | none => true
  | some (.seconds value) => 0 ≤ value
  | some .notFinite => false

/-- `_retry_after_value`; `none` stands for `_INVALID_RETRY_AFTER`. -/
def retryAfterValue : Option RetryAfter → Option (Option ℚ)
  | none => some none
  | some (.seconds value) => if 0 ≤ value then some (some (min value maxBackoffSeconds)) else none
  | some .notFinite => none

structure IngestSummary where
  written : ℕ
  quarantined : ℕ

structure FetchOutcome (τ : Type) where
  result : Except String (ProviderPage τ)
  transientSeen : Bool

/-- The local variables of the page loop. -/
structure SweepState where
  pagesFetched : ℕ := 0
  written : ℕ := 0
  quarantined : ℕ := 0
  degradedReason : Option String := none

/-- What a sweep meets. The instance is given by its status and connector type, and `ingest` is
`none` where the sink raises. -/
structure SweepEnv (τ : Type) where
  casefold : String → String
  connectorInstanceId : NormalizedText
  instance? : Option (String × String)
  clientBuilds : Bool
  startedAt : ℚ
  deadlineSeconds : ℚ
  beforePage : ℕ → ℚ
  beforeSleep : ℕ → ℕ → ℚ
  afterSleep : ℕ → ℕ → ℚ → ℚ
  fetchPage : ℕ → ℕ → FetchAnswer τ
  holdsLease : ℕ → Bool
  ingest : ℕ → List τ → Option IngestSummary

def adapterRegistry : List String :=
  ["halopsa", "connectwise", "autotask", "syncro", "servicenow"]

namespace SweepEnv

variable {τ : Type} (env : SweepEnv τ)

def pageStatus (page : ProviderPage τ) : String :=
  env.casefold (Text.strip page.providerStatus)

/-- `500 <= http_status <= 599`. -/
def isServerError (page : ProviderPage τ) : Bool :=
  page.httpStatus.any fun status => 500 ≤ status && status ≤ 599

def pageFailure (page : ProviderPage τ) : Option String :=
  if !validRetryAfter page.retryAfter then some "invalid_retry_after"
  else if page.rawCount < 0 then some "malformed_response"
  else if page.droppedCount < 0 then some "malformed_response"
  else if env.pageStatus page = "blocked" then some "blocked"
  else if page.httpStatus = some 408 then some "request_timeout"
  else if page.httpStatus = some 429 then some "rate_limited"
  else if isServerError page then some "provider_5xx"
  else if env.pageStatus page ≠ "ready" then
    if env.pageStatus page = "configured" ∨ env.pageStatus page = "not_configured" then
      some "malformed_response"
    else some "provider_failure"
  else if !page.httpStatus.any fun status => 200 ≤ status && status ≤ 299 then
    some "provider_failure"
  else none

def transientPage (page : ProviderPage τ) : Bool :=
  env.pageStatus page == "blocked" || page.httpStatus == some 408 ||
    page.httpStatus == some 429 || isServerError page

def remaining (reading : ℚ) : ℚ := env.deadlineSeconds - (reading - env.startedAt)

def sleepForRetry (pageNumber attempt : ℕ) (retryAfter : Option ℚ) : Bool :=
  let remaining := env.remaining (env.beforeSleep pageNumber attempt)
  if remaining ≤ 0 then false
  else
    let backoff := min (2 ^ attempt) maxBackoffSeconds
    let delay := min (min (max backoff (retryAfter.getD 0)) maxBackoffSeconds) remaining
    0 < env.remaining (env.afterSleep pageNumber attempt delay)

/-- The loop of `_fetch_with_retries` from an attempt on, with the answers that it gets. -/
def fetchFrom (pageNumber : ℕ) (transientSeen : Bool) (attempt : ℕ) :
    ℕ → FetchOutcome τ × List (FetchAnswer τ)
  | 0 => (⟨.error "provider_failure", transientSeen⟩, [])
  | left + 1 =>
      let answer := env.fetchPage pageNumber attempt
      match answer with
      | .raised exc =>
          let reason := exceptionReason exc
          if reason ∈ retryableExceptionReasons ∧ attempt < maxPageRetries then
            if env.sleepForRetry pageNumber attempt none then
              let (outcome, answers) := fetchFrom pageNumber true (attempt + 1) left
              (outcome, answer :: answers)
            else (⟨.error "deadline_exhausted", transientSeen⟩, [answer])
          else (⟨.error reason, transientSeen⟩, [answer])
      | .page page =>
          if env.transientPage page ∧ attempt < maxPageRetries then
            match retryAfterValue page.retryAfter with
            | none => (⟨.error "invalid_retry_after", true⟩, [answer])
            | some retryAfter =>
                if env.sleepForRetry pageNumber attempt retryAfter then
                  let (outcome, answers) := fetchFrom pageNumber true (attempt + 1) left
                  (outcome, answer :: answers)
                else (⟨.error "deadline_exhausted", true⟩, [answer])
          else (⟨.ok page, transientSeen⟩, [answer])

def fetchWithRetries (pageNumber : ℕ) : FetchOutcome τ × List (FetchAnswer τ) :=
  env.fetchFrom pageNumber false 0 (maxPageRetries + 1)

def summary (state : SweepState) (status : SweepStatus) (reason : String) : PollSummary where
  connectorInstanceId := env.connectorInstanceId
  pagesFetched := state.pagesFetched
  written := state.written
  quarantined := state.quarantined
  status := status.toPollStatus
  reason := reason

def degradedAfter (state : SweepState) (fetched : FetchOutcome τ) (page : ProviderPage τ) :
    Option String :=
  if page.droppedCount ≠ 0 then some "dropped_rows"
  else if fetched.transientSeen then some "transient_provider"
  else state.degradedReason

/-- The rest of the loop body after a fetch: the summary of a sweep that ends here, or the state
for the next page. -/
def handleFetched (state : SweepState) (pageNumber : ℕ) (fetched : FetchOutcome τ) :
    Except PollSummary SweepState :=
  match fetched.result with
  | .error reason =>
      .error (env.summary state (if reason ∈ degradedFetchReasons then .degraded else .failed)
        reason)
  | .ok page =>
      match env.pageFailure page with
      | some failure =>
          .error (env.summary state
            (if failure ∈ degradedPageReasons then .degraded else .failed) failure)
      | none =>
          let degradedReason := degradedAfter state fetched page
          -- only a valid page without provider rows ends the sweep
          if page.rawCount = 0 then
            .error (env.summary state (if degradedReason.isSome then .degraded else .idle)
              (degradedReason.getD "empty_page"))
          else if page.records.isEmpty then .ok { state with degradedReason }
          else if !env.holdsLease pageNumber then
            .error (env.summary state .degraded "lease_lost")
          else
            match env.ingest pageNumber page.records with
            | none => .error (env.summary state .failed "ingest_invariant")
            | some ingest =>
                .ok { state with
                  written := state.written + ingest.written
                  quarantined := state.quarantined + ingest.quarantined
                  degradedReason }

/-- The page loop, with the answers of the provider in their order. -/
def sweepFrom (pageNumber : ℕ) (state : SweepState) : ℕ → PollSummary × List (FetchAnswer τ)
  | 0 => (env.summary state .degraded "max_pages_exhausted", [])
  | left + 1 =>
      if env.remaining (env.beforePage pageNumber) ≤ 0 then
        (env.summary state .degraded "deadline_exhausted", [])
      else
        let (fetched, answers) := env.fetchWithRetries pageNumber
        match env.handleFetched { state with pagesFetched := state.pagesFetched + 1 } pageNumber
          fetched with
        | .error summary => (summary, answers)
        | .ok state =>
            let (summary, later) := sweepFrom (pageNumber + 1) state left
            (summary, answers ++ later)

/-- The reason for which a sweep fails before its first page. -/
def refusal : Option String :=
  match env.instance? with
  | none => some "instance_missing"
  | some (status, connectorType) =>
      if Text.lower (Text.strip status) ≠ "active" then some "inactive_instance"
      else if env.casefold (Text.strip connectorType) ∉ adapterRegistry then
        some "unsupported_connector"
      else if !env.clientBuilds then some "factory_error"
      else none

def sweep (maxPages : ℕ) : PollSummary × List (FetchAnswer τ) :=
  match env.refusal with
  | some reason => (env.summary {} .failed reason, [])
  | none => env.sweepFrom 1 {} maxPages

end SweepEnv

end WaitLocalAgent.Polling
