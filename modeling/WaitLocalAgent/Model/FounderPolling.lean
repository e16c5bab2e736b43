import WaitLocalAgent.Foundation.Calendar
import WaitLocalAgent.Foundation.Json
import WaitLocalAgent.Foundation.Program
import WaitLocalAgent.Foundation.Table

/-! # Polling of launched scans

`advance_founder_scan_once`, which the scheduler and the watchers of the command line call beside
each other, and the writes of an upload or a launch. -/

namespace WaitLocalAgent.Founder

open Foundation

/-! ## Artifacts -/

inductive PollStatus where
  | queued
  | running
  | retrying
  | unknown
  | completed
  | failed
  | canceled
  | timedOut
  | notAuthorized
  | unavailable
  deriving DecidableEq, Repr

def PollStatus.isTerminal : PollStatus → Bool
  | queued | running | retrying | unknown => false
  | _ => true

/-- `TERMINAL_SCAN_STATES | ACTIVE_SCAN_STATES`. -/
def PollStatus.ofScanState? : String → Option PollStatus
  | "completed" => some completed
  | "failed" => some failed
  | "canceled" => some canceled
  | "queued" => some queued
  | "running" => some running
  | "retrying" => some retrying
  | "unknown" => some unknown
  | _ => none

structure FounderArtifact where
  artifactId : String
  projectId : String
  bundleHash : String
  bundle : JsonValue
  createdAt : String
  previewedAt : String := ""
  uploadedAt : String := ""
  remoteScanId : String := ""
  remoteScanStatus : String := ""
  remoteScan : JsonFields := []
  latestReportReference : String := ""
  latestReport : JsonValue := .object []
  pollingStatus : Option PollStatus := none
  pollingStartedAt : String := ""
  lastPolledAt : String := ""
  nextAttemptAt : String := ""
  pollingAttempts : ℤ := 0
  pollingError : String := ""
  pollingClaimedAt : String := ""

/-- `polling_status in POLL_TERMINAL_STATES`. -/
def FounderArtifact.isTerminal (a : FounderArtifact) : Bool :=
  a.pollingStatus.any PollStatus.isTerminal

/-- Timestamps, and the redaction of payloads. -/
structure Runtime where
  parseTimestamp : String → Option Instant
  isoformat : Instant → String
  /-- `(now + timedelta(seconds=seconds)).isoformat()`. -/
  shifted : Instant → ℚ → String
  redactFields : JsonFields → JsonFields
  redactValue : JsonValue → JsonValue

/-- The keyword arguments of `update_founder_artifact_remote`. -/
structure RemoteFields where
  scanId : Option String := none
  scanStatus : Option String := none
  scan : Option JsonFields := none
  reportReference : Option String := none
  report : Option JsonValue := none
  pollingStatus : Option PollStatus := none
  pollingStartedAt : Option String := none
  lastPolledAt : Option String := none
  nextAttemptAt : Option String := none
  pollingAttempts : Option ℤ := none
  pollingError : Option String := none

/-- `set … = coalesce(?, …)`. -/
def RemoteFields.assign (rt : Runtime) (fields : RemoteFields) (a : FounderArtifact) :
    FounderArtifact :=
  { a with
    remoteScanId := fields.scanId.getD a.remoteScanId
    remoteScanStatus := fields.scanStatus.getD a.remoteScanStatus
    remoteScan := (fields.scan.map rt.redactFields).getD a.remoteScan
    latestReportReference := fields.reportReference.getD a.latestReportReference
    latestReport := (fields.report.map rt.redactValue).getD a.latestReport
    pollingStatus := fields.pollingStatus <|> a.pollingStatus
    pollingStartedAt := fields.pollingStartedAt.getD a.pollingStartedAt
    lastPolledAt := fields.lastPolledAt.getD a.lastPolledAt
    nextAttemptAt := fields.nextAttemptAt.getD a.nextAttemptAt
    pollingAttempts := fields.pollingAttempts.getD a.pollingAttempts
    pollingError := fields.pollingError.getD a.pollingError }

theorem RemoteFields.assign_artifactId (rt : Runtime) (fields : RemoteFields)
    (a : FounderArtifact) : (fields.assign rt a).artifactId = a.artifactId := rfl

/-- The artifacts, with the number of `get_scan` calls made for each since its last launch, and the
number of its launches. -/
structure Desk where
  artifacts : Table FounderArtifact.artifactId
  scans : String → ℤ
  launches : String → ℕ

def Desk.updateRemote (rt : Runtime) (d : Desk) (artifactId : String) (fields : RemoteFields) :
    Desk :=
  { d with
    artifacts := d.artifacts.update (fun a => a.artifactId = artifactId) (fields.assign rt)
      (fields.assign_artifactId rt) }

def FounderArtifact.claim (claimedAt : String) (a : FounderArtifact) : FounderArtifact :=
  { a with pollingClaimedAt := claimedAt }

theorem FounderArtifact.claim_artifactId (claimedAt : String) (a : FounderArtifact) :
    (a.claim claimedAt).artifactId = a.artifactId := rfl

/-- The `where` clause of `claim_founder_artifact_poll`. -/
def FounderArtifact.claimable (artifactId staleBefore : String) (a : FounderArtifact) : Bool :=
  a.artifactId == artifactId && !a.isTerminal &&
    (a.pollingClaimedAt == "" || a.pollingClaimedAt ≤ staleBefore)

/-! ## Payloads -/

def scanState (scan : JsonFields) : String :=
  match (JsonValue.getOr scan "status" "state").bind JsonValue.nonBlank? with
  | some state => Text.lower state
  | none => "unknown"

def scanStatusFromPayload (payload : JsonFields) : String :=
  let candidate := ((JsonValue.get? payload "scan").bind JsonValue.fields?).getD payload
  match JsonValue.getOr candidate "status" "state" with
  | some (.text value) => Text.lower (Text.strip value)
  | _ => ""

def scanIdFromPayload (payload : JsonFields) : String :=
  let nested := (JsonValue.get? payload "scan").bind JsonValue.fields?
  ((nested.bind fun scan => JsonValue.firstText scan ["scanId", "scan_id", "id"]) <|>
    JsonValue.firstText payload ["scanId", "scan_id"]).getD ""

def reportReferenceOf (payload : JsonFields) : String :=
  match JsonValue.firstText payload ["reportId", "report_id", "id"] with
  | some reference => reference
  | none =>
      match _h : JsonValue.get? payload "report" with
      | some (.object report) => reportReferenceOf report
      | _ => ""
termination_by sizeOf payload
decreasing_by
  have hlt := JsonValue.sizeOf_get? _h
  have hsize : sizeOf (JsonValue.object report) = 1 + sizeOf report := by simp
  omega

def reportReference : Option JsonValue → String
  | some (.object payload) => reportReferenceOf payload
  | _ => ""

/-! ## One polling iteration -/

structure PollOutcome where
  status : PollStatus
  scanId : String
  attempts : ℤ
  elapsedSeconds : ℚ
  scan : Option JsonFields := none
  report : Option JsonValue := none
  error : Option String := none
  retryAfter : Option ℚ := none

inductive FounderError where
  | valueError (message : String)
  /-- The database, the vault or the configuration of the client refuses. -/
  | refused (message : String)
  deriving DecidableEq, Repr

/-- What a request to Launch Passport raises. -/
inductive LaunchPassportFailure where
  | rateLimited (retryAfter : Option ℚ)
  | unauthorized
  | forbidden
  | insufficientCredits
  | launchPassportError
  | otherException
  deriving DecidableEq, Repr

/-- The clock readings of one iteration, in the order in which it may take them. -/
structure PollClock where
  startedAt : Instant
  unparsedAt : Instant
  now : Instant
  claimedAt : Instant
  staleAt : Instant
  polledAt : Instant
  persistedAt : Instant

/-- The arguments of `advance_founder_scan_once`, with what it reads of the settings and of the
configuration, and its clock. -/
structure ScanCall where
  demoMode : Bool := false
  offlineMode : Bool := false
  lpProjectId : String
  scanId : String
  artifactId : Option String := none
  maxDuration : ℚ := 3600
  maxAttempts : ℤ := 120
  attempts : ℤ := 0
  pollingStartedAt : Option String := none
  clock : PollClock

def PollOutcome.delay (outcome : PollOutcome) : ℚ :=
  min (max (outcome.retryAfter.getD 0) (30 * 2 ^ (min (outcome.attempts - 1) 5).toNat)) 600

/-- The columns that `_persist_poll_progress` writes. -/
def PollOutcome.fields (rt : Runtime) (outcome : PollOutcome) (startedAt : Option String)
    (now : Instant) : RemoteFields where
  scanId := outcome.scanId
  scanStatus := scanStatusFromPayload (outcome.scan.getD [])
  scan := outcome.scan
  reportReference := reportReference outcome.report
  report := outcome.report
  pollingStatus := outcome.status
  pollingStartedAt := (startedAt.filter (· != "")).getD (rt.isoformat now)
  lastPolledAt := rt.isoformat now
  nextAttemptAt := if outcome.status.isTerminal then "" else rt.shifted now outcome.delay
  pollingAttempts := outcome.attempts
  pollingError := outcome.error.getD ""

/-- The columns that an upload or a launch writes. -/
def queuedFields (rt : Runtime) (result : JsonFields) (queuedAt : Instant) : RemoteFields where
  scanId := scanIdFromPayload result
  scanStatus := scanStatusFromPayload result
  scan := result
  pollingStatus := some .queued
  pollingStartedAt := rt.isoformat queuedAt
  nextAttemptAt := rt.isoformat queuedAt
  pollingAttempts := some 0

/-- What a call does to the artifacts, and the opening of its client; any of it may raise. -/
inductive DeskAction where
  | getFounderArtifact (artifactId : String)
  | listFounderArtifacts (projectId : String)
  | claimFounderArtifactPoll (artifactId claimedAt staleBefore : String)
  | releaseFounderArtifactPoll (artifactId : String)
  | openClient
  /-- The write of `_persist_poll_progress`, by a caller that goes on from so many attempts. -/
  | persistPollProgress (artifactId : String) (attempts : ℤ) (outcome : PollOutcome)
      (startedAt : Option String) (now : Instant)
  /-- The write of an upload or a launch. -/
  | queueScan (artifactId : String) (result : JsonFields) (queuedAt : Instant)

abbrev DeskAction.Value : DeskAction → Type
  | .getFounderArtifact _ => Option FounderArtifact
  | .listFounderArtifacts _ => List FounderArtifact
  | .claimFounderArtifactPoll .. => Bool
  | _ => Unit

/-- A request of `poll_scan_once`, which catches whatever it raises. -/
inductive Request where
  /-- For an artifact, after so many attempts. -/
  | getScan (artifactId : Option String) (attempts : ℤ) (scanId : String)
  | latestReport (artifactId : Option String) (projectId : String)

abbrev Request.Value : Request → Type
  | .getScan .. => JsonFields
  | .latestReport .. => JsonValue

inductive FounderAction where
  | desk (a : DeskAction)
  | request (q : Request)

abbrev FounderAction.Answer : FounderAction → Type
  | .desk a => Except FounderError a.Value
  | .request q => Except LaunchPassportFailure q.Value

/-- What an action meets outside of the artifacts: a refusal, or the answers of Launch Passport. -/
structure FounderInput where
  refusal : Option FounderError := none
  scan : Except LaunchPassportFailure JsonFields := .error .otherException
  report : Except LaunchPassportFailure JsonValue := .error .otherException

/-- `order by created_at desc, artifact_id`. -/
def newerArtifact (a b : FounderArtifact) : Prop :=
  b.createdAt < a.createdAt ∨ a.createdAt = b.createdAt ∧ a.artifactId ≤ b.artifactId

instance : DecidableRel newerArtifact := fun a b =>
  inferInstanceAs (Decidable (b.createdAt < a.createdAt ∨
    a.createdAt = b.createdAt ∧ a.artifactId ≤ b.artifactId))

def Desk.listFounderArtifacts (d : Desk) (projectId : String) : List FounderArtifact :=
  (d.artifacts.rows.filter fun a : FounderArtifact =>
    projectId == "" || a.projectId == projectId).insertionSort newerArtifact

/-- One more call of `get_scan` for an artifact. -/
def Desk.countScan (d : Desk) : Option String → Desk
  | none => d
  | some artifactId =>
      { d with scans := Function.update d.scans artifactId (d.scans artifactId + 1) }

def Desk.countLaunch (d : Desk) (artifactId : String) : Desk :=
  { d with
    scans := Function.update d.scans artifactId 0
    launches := Function.update d.launches artifactId (d.launches artifactId + 1) }

def DeskAction.perform (rt : Runtime) : (a : DeskAction) → Desk → a.Value × Desk
  | .getFounderArtifact artifactId, d => (d.artifacts.find? artifactId, d)
  | .listFounderArtifacts projectId, d => (d.listFounderArtifacts projectId, d)
  | .claimFounderArtifactPoll artifactId claimedAt staleBefore, d =>
      (d.artifacts.rowcount (FounderArtifact.claimable artifactId staleBefore) == 1,
        { d with
          artifacts := d.artifacts.update (FounderArtifact.claimable artifactId staleBefore)
            (FounderArtifact.claim claimedAt) (FounderArtifact.claim_artifactId claimedAt) })
  | .releaseFounderArtifactPoll artifactId, d =>
      ((), { d with
        artifacts := d.artifacts.update (fun a => a.artifactId = artifactId)
          (FounderArtifact.claim "") (FounderArtifact.claim_artifactId "") })
  | .openClient, d => ((), d)
  | .persistPollProgress artifactId _ outcome startedAt now, d =>
      ((), d.updateRemote rt artifactId (outcome.fields rt startedAt now))
  | .queueScan artifactId result queuedAt, d =>
      ((), (d.updateRemote rt artifactId (queuedFields rt result queuedAt)).countLaunch artifactId)

/-- A refused action is rolled back; a request is counted. -/
def FounderAction.answer (rt : Runtime) : (a : FounderAction) → Desk → FounderInput →
    a.Answer × Desk
  | .desk a, d, input =>
      match input.refusal with
      | some e => (.error e, d)
      | none => (.ok (a.perform rt d).1, (a.perform rt d).2)
  | .request (.getScan artifactId _ _), d, input => (input.scan, d.countScan artifactId)
  | .request (.latestReport _ _), d, input => (input.report, d)

/-- A call ends with the first exception that nothing catches. -/
abbrev Polling (α : Type) := ExceptT FounderError (Program FounderAction FounderAction.Answer) α

def act (a : DeskAction) : Polling a.Value := ExceptT.mk (Program.perform (FounderAction.desk a))

def request (q : Request) : Polling (Except LaunchPassportFailure q.Value) :=
  ExceptT.lift (Program.perform (FounderAction.request q))

def raiseIf (p : Prop) [Decidable p] (message : String) : Polling Unit :=
  if p then throw (.valueError message) else return ()

/-- `artifact_id` where it is tested for truth. -/
def ScanCall.artifact? (call : ScanCall) (found : Option FounderArtifact) : Option String :=
  (match call.artifactId with
    | some artifactId => some artifactId
    | none => found.map FounderArtifact.artifactId).filter (· != "")

def findRecord (call : ScanCall) : Polling (Option FounderArtifact) :=
  match call.artifactId with
  | some artifactId =>
      if artifactId = "" then return none else act (.getFounderArtifact artifactId)
  | none => do
      let artifacts ← act (.listFounderArtifacts call.lpProjectId)
      return artifacts.find? fun a => a.remoteScanId = call.scanId

def persistPollProgress (call : ScanCall) (artifactId : Option String) (attempts : ℤ)
    (outcome : PollOutcome) (startedAt : Option String) : Polling Unit :=
  match artifactId with
  | none => return ()
  | some artifactId =>
      act (.persistPollProgress artifactId attempts outcome startedAt call.clock.persistedAt)

def PollOutcome.ofFailure (scanId : String) (attempts : ℤ) (elapsed : ℚ) :
    LaunchPassportFailure → PollOutcome
  | .rateLimited retryAfter =>
      { status := .retrying, scanId, attempts, elapsedSeconds := elapsed,
        error := some "Launch Passport polling was rate limited", retryAfter }
  | .unauthorized | .forbidden =>
      { status := .notAuthorized, scanId, attempts, elapsedSeconds := elapsed,
        error := some "scan polling is not authorized" }
  | .insufficientCredits =>
      { status := .unavailable, scanId, attempts, elapsedSeconds := elapsed,
        error := some "Launch Passport credits are insufficient" }
  | .launchPassportError =>
      { status := .unavailable, scanId, attempts, elapsedSeconds := elapsed,
        error := some "scan polling request failed" }
  | .otherException =>
      { status := .unavailable, scanId, attempts, elapsedSeconds := elapsed,
        error := some "scan polling failed" }

/-- The outcome of a completed scan, with its report or why there is none. -/
def PollOutcome.withReport (outcome : PollOutcome) :
    Except LaunchPassportFailure JsonValue → PollOutcome
  | .ok report => { outcome with report := some report }
  | .error .unauthorized | .error .forbidden =>
      { outcome with error := some "latest report is not authorized" }
  | .error _ => { outcome with error := some "latest report request failed" }

/-- The outcome of a scan in a state, as yet without a report. -/
def PollOutcome.ofScan (scanId : String) (attempts : ℤ) (elapsed : ℚ) (scan : JsonFields) :
    PollOutcome :=
  match PollStatus.ofScanState? (scanState scan) with
  | some status => { status, scanId, attempts, elapsedSeconds := elapsed, scan := some scan }
  | none =>
      { status := .unknown, scanId, attempts, elapsedSeconds := elapsed, scan := some scan
        error := some "Launch Passport returned an unknown scan state" }

/-- The end of `poll_scan_once`, once the scan is there. -/
def scanOutcome (artifactId : Option String) (projectId : String) (outcome : PollOutcome) :
    Polling PollOutcome :=
  if outcome.status = .completed then do
    let report ← request (.latestReport artifactId projectId)
    return outcome.withReport report
  else return outcome

def pollScanOnce (artifactId : Option String) (projectId scanId : String) (attempts : ℤ)
    (elapsedSeconds : ℚ) : Polling PollOutcome := do
  raiseIf (Text.strip projectId = "" ∨ Text.strip scanId = "")
    "project id and scan id are required"
  raiseIf (attempts < 0 ∨ elapsedSeconds < 0) "polling progress must not be negative"
  match ← request (.getScan artifactId attempts scanId) with
  | .error failure => return .ofFailure scanId (attempts + 1) elapsedSeconds failure
  | .ok scan =>
      scanOutcome artifactId projectId (.ofScan scanId (attempts + 1) elapsedSeconds scan)

def elapsedSeconds (started now : Instant) : ℚ := max 0 ((now.val - started.val : ℤ) / 1000000)

/-- An outcome that uses up a bound has timed out. -/
def PollOutcome.bounded (call : ScanCall) (elapsed : ℚ) (outcome : PollOutcome) : PollOutcome :=
  if !outcome.status.isTerminal &&
      (outcome.attempts ≥ call.maxAttempts || elapsed ≥ call.maxDuration) then
    { status := .timedOut, scanId := outcome.scanId, attempts := outcome.attempts,
      elapsedSeconds := elapsed, scan := outcome.scan, error := some "scan polling timed out" }
  else outcome

def pollClaimed (call : ScanCall) (artifactId : Option String) (attempts : ℤ)
    (startedText : String) (started : Instant) (elapsed : ℚ) : Polling PollOutcome := do
  act .openClient
  let polled ← pollScanOnce artifactId call.lpProjectId call.scanId attempts elapsed
  let outcome := polled.bounded call (max elapsed (elapsedSeconds started call.clock.polledAt))
  persistPollProgress call artifactId attempts outcome (some startedText)
  return outcome

/-- `try … finally`, with the release of the claim. -/
def releasing {α : Type} (artifactId : Option String) (body : Polling α) : Polling α :=
  match artifactId with
  | none => body
  | some artifactId => ExceptT.mk do
      let result ← body.run
      match ← (act (.releaseFounderArtifactPoll artifactId)).run with
      | .ok () => return result
      | .error e => return .error e

def claimPoll (rt : Runtime) (call : ScanCall) : Option String → Polling Bool
  | none => return true
  | some artifactId =>
      act (.claimFounderArtifactPoll artifactId (rt.isoformat call.clock.claimedAt)
        (rt.shifted call.clock.staleAt (-120)))

/-- The iteration from the attempts and the start that are known. -/
def advanceFrom (rt : Runtime) (call : ScanCall) (artifactId : Option String) (attempts : ℤ)
    (startedText : String) : Polling (Option PollOutcome) := do
  let started := (rt.parseTimestamp startedText).getD call.clock.unparsedAt
  let elapsed := elapsedSeconds started call.clock.now
  if attempts ≥ call.maxAttempts ∨ elapsed ≥ call.maxDuration then do
    let outcome : PollOutcome :=
      { status := .timedOut, scanId := call.scanId, attempts, elapsedSeconds := elapsed
        error := some "scan polling timed out" }
    persistPollProgress call artifactId attempts outcome (some startedText)
    return some outcome
  else do
    if ← claimPoll rt call artifactId then
      some <$> releasing artifactId
        (pollClaimed call artifactId attempts startedText started elapsed)
    else return none

def storedOutcome (rt : Runtime) (call : ScanCall) (record : FounderArtifact)
    (status : PollStatus) (attempts : ℤ) (startedText : String) : PollOutcome where
  status := status
  scanId := if record.remoteScanId = "" then call.scanId else record.remoteScanId
  attempts := attempts
  elapsedSeconds := elapsedSeconds ((rt.parseTimestamp startedText).getD call.clock.unparsedAt)
    call.clock.now
  scan := some record.remoteScan
  report := match record.latestReport with
    | .object fields => some (.object fields)
    | .array items => some (.array items)
    | _ => none
  error := if record.pollingError = "" then none else some record.pollingError

/-- `str(record["polling_started_at"]) or polling_started_at or utc_now()`. -/
def startText (rt : Runtime) (call : ScanCall) (record : Option FounderArtifact) : String :=
  ((record.map FounderArtifact.pollingStartedAt).filter (· != "") <|>
    call.pollingStartedAt.filter (· != "")).getD (rt.isoformat call.clock.startedAt)

/-- `stored_attempts if stored_attempts >= 0 else 0`. -/
def storedAttempts (call : ScanCall) : Option FounderArtifact → ℤ
  | none => call.attempts
  | some record => max record.pollingAttempts 0

def advanceRecord (rt : Runtime) (call : ScanCall) (record : Option FounderArtifact) :
    Polling (Option PollOutcome) :=
  match record.bind fun a => (a.pollingStatus.filter PollStatus.isTerminal).map (a, ·) with
  | some (a, status) =>
      return some (storedOutcome rt call a status (storedAttempts call record)
        (startText rt call record))
  | none =>
      advanceFrom rt call (call.artifact? record) (storedAttempts call record)
        (startText rt call record)

def advanceFounderScanOnce (rt : Runtime) (call : ScanCall) : Polling (Option PollOutcome) := do
  raiseIf (call.maxDuration ≤ 0 ∨ call.maxAttempts ≤ 0) "polling bounds must be positive"
  if call.demoMode || call.offlineMode then do
    let outcome : PollOutcome :=
      { status := .unavailable, scanId := call.scanId, attempts := call.attempts,
        elapsedSeconds := 0, error := some "scan polling is unavailable in this mode" }
    persistPollProgress call (call.artifact? none) call.attempts outcome call.pollingStartedAt
    return some outcome
  else do
    let record ← findRecord call
    advanceRecord rt call record

/-! ## Uploads and launches -/

/-- The end of `open_founder_upload` and of `open_founder_launch_scan`, with the answer of Launch
Passport. -/
def queueScan (artifactId : Option String) (result : JsonFields) (queuedAt : Instant) :
    Polling (Option PollOutcome) :=
  match artifactId.filter (· != "") with
  | none => return none
  | some artifactId =>
      if scanIdFromPayload result = "" then return none
      else do
        act (.queueScan artifactId result queuedAt)
        return none

inductive FounderCall where
  | advance (call : ScanCall)
  | queue (artifactId : Option String) (result : JsonFields) (queuedAt : Instant)

def FounderCall.program (rt : Runtime) : FounderCall →
    Program FounderAction FounderAction.Answer (Except FounderError (Option PollOutcome))
  | .advance call => (advanceFounderScanOnce rt call).run
  | .queue artifactId result queuedAt => (queueScan artifactId result queuedAt).run

/-- An artifact as `save_founder_artifact` stores it. -/
structure SavedArtifact where
  artifactId : String
  projectId : String
  bundleHash : String
  bundle : JsonValue
  createdAt : String

def SavedArtifact.row (saved : SavedArtifact) : FounderArtifact where
  artifactId := saved.artifactId
  projectId := saved.projectId
  bundleHash := saved.bundleHash
  bundle := saved.bundle
  createdAt := saved.createdAt

/-- Artifacts that are saved under fresh ids. -/
def Desk.withArtifacts (saved : List SavedArtifact) : Desk where
  artifacts := saved.foldl (fun artifacts a => (artifacts.insert? a.row).getD artifacts) .empty
  scans _ := 0
  launches _ := 0

abbrev FounderPool (W : Type) := Program.Pool W FounderCall Desk FounderAction
  FounderAction.Answer (Except FounderError (Option PollOutcome))

/-- Any interleaving of iterations, uploads and launches. -/
def founderPolling (W : Type) [DecidableEq W] (rt : Runtime) (saved : List SavedArtifact) :
    Machine (FounderPool W) (Program.PoolStep W FounderCall FounderInput) :=
  Program.pool (FounderAction.answer rt) (FounderCall.program rt) (Desk.withArtifacts saved)

end WaitLocalAgent.Founder
