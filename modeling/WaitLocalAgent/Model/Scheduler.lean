import WaitLocalAgent.Foundation.Json
import WaitLocalAgent.Foundation.Machine
import WaitLocalAgent.Foundation.Table
import WaitLocalAgent.Model.ClientScope

/-! # Scheduled jobs

`SchedulerManager` persists every schedule and mirrors it in the in-memory jobs of APScheduler.
Moments are microseconds since the epoch. -/

namespace WaitLocalAgent.Scheduling

open Foundation

inductive ScheduleError where
  | valueError (message : String)
  | keyError (jobId : ℕ)
  | quarantinedTicket (message : String)
  /-- The database refuses. -/
  | refused (message : String)
  deriving DecidableEq, Repr

/-- Time zones, timestamps and cron expressions. -/
structure Runtime where
  /-- `ZoneInfo(key)` finds the zone. -/
  zoneInfo : String → Bool
  /-- `datetime.fromisoformat`, with the moment if the text gives its offset. -/
  fromisoformat : String → Option (Option ℤ)
  /-- The message of the `ValueError` of `CronTrigger.from_crontab(cron, timezone)`. -/
  fromCrontab : String → String → Option String
  /-- The cron trigger has a run time after the moment. -/
  cronRunsAfter : String → String → ℤ → Bool
  cronRunsAfter_of_le : ∀ {cron timezone s t}, s ≤ t → cronRunsAfter cron timezone t →
    cronRunsAfter cron timezone s

structure ScheduledJob where
  id : ℕ
  templateId : String
  cron : String
  params : JsonFields
  paused : Bool
  clientId : Option ClientId
  jobKind : String
  agentId : Option String
  entityId : Option String
  scheduleType : String
  intervalSeconds : Option ℤ
  runAt : Option String
  timezone : String

/-! ## Schedules -/

/-- The arguments that describe a schedule. -/
structure Schedule where
  scheduleType : String
  cron : String
  intervalSeconds : Option ℤ
  runAt : Option String
  timezone : String

def validateTimezone (rt : Runtime) (timezone : String) : Except ScheduleError String :=
  if Text.strip timezone = "" then .error (.valueError "timezone must be a valid IANA timezone")
  else if rt.zoneInfo (Text.strip timezone) then .ok (Text.strip timezone)
  else .error (.valueError "timezone must be a valid IANA timezone")

def parseRunAt (rt : Runtime) (runAt : String) : Except ScheduleError ℤ :=
  match rt.fromisoformat runAt with
  | none => .error (.valueError "run_at must be a valid ISO-8601 timestamp")
  | some none => .error (.valueError "run_at must include a timezone")
  | some (some moment) => .ok moment

/-- What `validate_schedule` demands of a schedule beyond its time zone. -/
def Schedule.check (rt : Runtime) (s : Schedule) (timezone : String) (now : ℤ) :
    Except ScheduleError Unit :=
  if s.scheduleType = "cron" then
    if (rt.fromCrontab s.cron timezone).isSome then
      .error (.valueError "invalid cron expression; expected standard 5-field crontab syntax")
    else if s.intervalSeconds.isSome ∨ s.runAt.isSome then
      .error (.valueError "cron schedules cannot include interval_seconds or run_at")
    else .ok ()
  else if s.scheduleType = "interval" then
    match s.intervalSeconds with
    | none => .error (.valueError "interval schedules require interval_seconds")
    | some seconds =>
        if seconds < 1 ∨ seconds > 31536000 then
          .error (.valueError "interval_seconds must be between 1 and 31536000")
        else if s.cron ≠ "" ∨ s.runAt.isSome then
          .error (.valueError "interval schedules cannot include cron or run_at")
        else .ok ()
  else if s.scheduleType = "once" then
    match s.runAt with
    | none => .error (.valueError "one-time schedules require run_at")
    | some runAt =>
        if Text.strip runAt = "" then
          .error (.valueError "one-time schedules require run_at")
        else if s.cron ≠ "" ∨ s.intervalSeconds.isSome then
          .error (.valueError "one-time schedules cannot include cron or interval_seconds")
        else
          match parseRunAt rt runAt with
          | .error e => .error e
          | .ok parsed =>
              if parsed ≤ now then .error (.valueError "run_at must be in the future") else .ok ()
  else .error (.valueError "schedule_type must be cron, interval, or once")

/-- `validate_schedule`: the schedule, with its time zone normalized. -/
def validateSchedule (rt : Runtime) (s : Schedule) (now : ℤ) : Except ScheduleError Schedule :=
  match validateTimezone rt s.timezone with
  | .error e => .error e
  | .ok timezone =>
      match s.check rt timezone now with
      | .error e => .error e
      | .ok () => .ok { s with timezone }

def stringOrNone : Option String → Option String
  | some value => if Text.strip value = "" then none else some value
  | none => none

def scheduledReportTypes : List String :=
  ["qbr", "automation_opportunity", "recurring_service_review"]

/-- The target of `connector_poll`, `graph_sync` and `baseline_snapshot` schedules. -/
def entityTarget (templateId : String) (agentId entityId : Option String) : Bool :=
  templateId == "" && agentId.isNone && (stringOrNone entityId).isSome

/-- `_validate_schedule_target`: the message of its `ValueError`. -/
def targetError (jobKind templateId : String) (agentId entityId : Option String) : Option String :=
  let refuse (valid : Bool) (message : String) : Option String :=
    if valid then none else some message
  match jobKind with
  | "workflow" =>
      refuse (templateId != "" && agentId.isNone && entityId.isNone)
        "workflow schedules require template_id only"
  | "agent" =>
      refuse (templateId == "" && (stringOrNone agentId).isSome && (stringOrNone entityId).isSome)
        "agent schedules require agent_id and entity_id"
  | "report" =>
      refuse (scheduledReportTypes.contains templateId && agentId.isNone && entityId.isNone)
        "report schedules require a supported report type only"
  | "connector_poll" =>
      refuse (entityTarget templateId agentId entityId)
        "connector_poll schedules require entity_id only"
  | "graph_sync" =>
      refuse (entityTarget templateId agentId entityId)
        "graph_sync schedules require entity_id only"
  | "baseline_snapshot" =>
      refuse (entityTarget templateId agentId entityId)
        "baseline_snapshot schedules require entity_id only"
  | "backup" =>
      refuse (templateId == "" && agentId.isNone && entityId.isNone)
        "backup schedules require no target"
  | "playbook" =>
      refuse (templateId != "" && agentId.isNone && entityId.isNone)
        "playbook schedules require playbook_id only"
  | _ => some "unsupported scheduled job kind"

def validateScheduleTarget (jobKind templateId : String) (agentId entityId : Option String) :
    Except ScheduleError Unit :=
  match targetError jobKind templateId agentId entityId with
  | some message => .error (.valueError message)
  | none => .ok ()

/-! ## Live jobs -/

inductive Trigger where
  | cron (expression timezone : String)
  | interval (seconds : ℤ) (timezone : String)
  | date (runDate : ℤ) (timezone : String)
  deriving DecidableEq, Repr

def Trigger.runsAfter (rt : Runtime) (now : ℤ) : Trigger → Bool
  | .cron expression timezone => rt.cronRunsAfter expression timezone now
  | .interval _ _ => true
  | .date runDate _ => now < runDate

def ScheduledJob.schedule (job : ScheduledJob) : Schedule where
  scheduleType := job.scheduleType
  cron := job.cron
  intervalSeconds := job.intervalSeconds
  runAt := job.runAt
  timezone := job.timezone

def Schedule.trigger (rt : Runtime) (s : Schedule) : Except ScheduleError Trigger :=
  if s.scheduleType = "interval" then
    (validateTimezone rt s.timezone).map (.interval (s.intervalSeconds.getD 0))
  else if s.scheduleType = "once" then
    (parseRunAt rt (s.runAt.getD "")).bind fun runDate =>
      (validateTimezone rt s.timezone).map (.date runDate)
  else
    (validateTimezone rt s.timezone).bind fun timezone =>
      match rt.fromCrontab s.cron timezone with
      | some message => .error (.valueError message)
      | none => .ok (.cron s.cron timezone)

/-- A job of APScheduler, which is paused when it has no next run time. It runs the scheduled job
that it was built for. -/
structure LiveJob where
  job : ScheduledJob
  trigger : Trigger
  paused : Bool

/-- The jobs of APScheduler that belong to scheduled jobs, under the ids of these. -/
abbrev LiveJobs := ℕ → Option LiveJob

/-- `add_job(…, replace_existing=True)`. -/
def LiveJobs.addJob (live : LiveJobs) (job : ScheduledJob) (trigger : Trigger) : LiveJobs :=
  Function.update live job.id (some { job, trigger, paused := false })

def LiveJobs.setPaused (live : LiveJobs) (jobId : ℕ) (paused : Bool) : LiveJobs :=
  Function.update live jobId ((live jobId).map fun l => { l with paused })

def LiveJobs.removeJob (live : LiveJobs) (jobId : ℕ) : LiveJobs := Function.update live jobId none

/-- A job whose trigger is exhausted is dropped. -/
def LiveJobs.dropExhausted (rt : Runtime) (now : ℤ) (live : LiveJobs) : LiveJobs :=
  fun jobId => (live jobId).filter fun l => l.trigger.runsAfter rt now

/-- Whether `_register_live_job` passes over a one-time job, which is not in the future. -/
def ScheduledJob.isPast (rt : Runtime) (now : ℤ) (job : ScheduledJob) :
    Except ScheduleError Bool :=
  if job.scheduleType = "once" then
    (parseRunAt rt (job.runAt.getD "")).map fun runDate => decide (runDate ≤ now)
  else .ok false

def LiveJobs.register (rt : Runtime) (now : ℤ) (live : LiveJobs) (job : ScheduledJob) :
    Except ScheduleError LiveJobs :=
  match job.isPast rt now with
  | .error e => .error e
  | .ok true => .ok live
  | .ok false =>
      match job.schedule.trigger rt with
      | .error e => .error e
      | .ok trigger =>
          let added := live.addJob job trigger
          .ok (if job.paused then added.setPaused job.id true else added)

/-! ## The manager -/

/-- An enabled `SchedulerManager`, its store, and the moment of its last call. -/
structure SchedulerManager where
  jobs : AutoTable ScheduledJob.id
  started : Bool
  /-- `_scheduler`. -/
  live : Option LiveJobs
  clock : ℤ

/-- The microseconds until a call validates its schedule, from there until it registers a job, and
from there until it returns. -/
structure CallDelays where
  validated : ℕ := 0
  registered : ℕ → ℕ := fun _ => 0
  finished : ℕ := 0
  registered_le : ∀ jobId, registered jobId ≤ finished := by intro; exact Nat.le_refl _

structure RegisterRequest where
  templateId : String
  schedule : Schedule
  params : JsonFields
  jobKind : String := "workflow"
  agentId : Option String := none
  entityId : Option String := none

inductive SchedulerCall where
  | start
  | shutdown
  | register (request : RegisterRequest)
  | pause (jobId : ℕ)
  | resume (jobId : ℕ)
  | reschedule (jobId : ℕ) (schedule : Schedule)
  | remove (jobId : ℕ)

structure SchedulerStep where
  call : SchedulerCall
  delays : CallDelays := {}
  /-- The tickets in quarantine. -/
  quarantined : String → Bool := fun _ => false
  /-- The database refuses the write. -/
  refusal : Option String := none

def SchedulerManager.validatedAt (m : SchedulerManager) (l : SchedulerStep) : ℤ :=
  m.clock + l.delays.validated

def SchedulerManager.registeredAt (m : SchedulerManager) (l : SchedulerStep) (jobId : ℕ) : ℤ :=
  m.validatedAt l + l.delays.registered jobId

def SchedulerManager.finishedAt (m : SchedulerManager) (l : SchedulerStep) : ℤ :=
  m.validatedAt l + l.delays.finished

/-- `self._register_live_job(job)` for one job after the other, up to the first that raises. -/
def registerAll (rt : Runtime) (now : ℕ → ℤ) : List ScheduledJob → LiveJobs →
    Except ScheduleError Unit × LiveJobs
  | [], live => (.ok (), live)
  | job :: jobs, live =>
      match live.register rt (now job.id) job with
      | .error e => (.error e, live)
      | .ok live' => registerAll rt now jobs live'

/-- `start`; the store lists the jobs by descending id. -/
def SchedulerManager.start (rt : Runtime) (m : SchedulerManager) (l : SchedulerStep) :
    Except ScheduleError (Option ScheduledJob) × SchedulerManager :=
  if m.started then (.ok none, m)
  else
    let (result, live) :=
      registerAll rt (m.registeredAt l) m.jobs.table.rows.reverse fun _ => none
    (result.map fun _ => none, { m with started := true, live := some live })

def SchedulerManager.shutdown (m : SchedulerManager) : SchedulerManager :=
  { m with started := false, live := none }

/-- `if self._scheduler is not None: self._register_live_job(scheduled_job)`. -/
def SchedulerManager.mirror (rt : Runtime) (m : SchedulerManager) (now : ℤ) (job : ScheduledJob) :
    Except ScheduleError (Option ScheduledJob) × SchedulerManager :=
  match m.live with
  | none => (.ok (some job), m)
  | some live =>
      match live.register rt now job with
      | .error e => (.error e, m)
      | .ok live' => (.ok (some job), { m with live := some live' })

def scheduledTicketIdForJob (jobKind : String) (entityId : Option String) (params : JsonFields) :
    Option String :=
  if jobKind = "agent" then (stringOrNone entityId).map Text.strip
  else if jobKind = "workflow" ∨ jobKind = "playbook" then
    (JsonValue.get? params "ticket_id").bind JsonValue.nonBlank?
  else none

def RegisterRequest.client (r : RegisterRequest) : Except ScheduleError (Option String) :=
  let clientId := stringOrNone ((JsonValue.get? r.params "client_id").bind JsonValue.text?)
  if r.jobKind = "backup" ∧ clientId.isSome then
    .error (.valueError "backup schedules must be appliance-level")
  else if r.jobKind = "graph_sync" ∨ r.jobKind = "baseline_snapshot" then
    if clientId.isSome ∧ clientId ≠ stringOrNone r.entityId then
      .error (.valueError s!"{r.jobKind} schedule client scope must match entity_id")
    else .ok (stringOrNone r.entityId)
  else .ok clientId

def RegisterRequest.row (r : RegisterRequest) (schedule : Schedule) (clientId : Option String)
    (id : ℕ) : ScheduledJob where
  id := id
  templateId := r.templateId
  cron := schedule.cron
  params := r.params
  paused := false
  clientId := normalizeClientId clientId
  jobKind := r.jobKind
  agentId := r.agentId
  entityId := r.entityId
  scheduleType := schedule.scheduleType
  intervalSeconds := schedule.intervalSeconds
  runAt := schedule.runAt
  timezone := schedule.timezone

theorem RegisterRequest.row_id (r : RegisterRequest) (schedule : Schedule)
    (clientId : Option String) (id : ℕ) : (r.row schedule clientId id).id = id := rfl

def SchedulerManager.createScheduledJob (m : SchedulerManager) (l : SchedulerStep)
    (r : RegisterRequest) (schedule : Schedule) (clientId : Option String) :
    Except ScheduleError (ScheduledJob × SchedulerManager) :=
  match l.refusal, scheduledTicketIdForJob r.jobKind r.entityId r.params with
  | some message, _ => .error (.refused message)
  | none, some ticketId =>
      if l.quarantined ticketId then
        .error (.quarantinedTicket s!"ticket {ticketId} is quarantined pending client mapping")
      else .ok (r.row schedule clientId (m.jobs.lastKey + 1),
        { m with jobs := m.jobs.insert (r.row schedule clientId) (r.row_id schedule clientId) })
  | none, none =>
      .ok (r.row schedule clientId (m.jobs.lastKey + 1),
        { m with jobs := m.jobs.insert (r.row schedule clientId) (r.row_id schedule clientId) })

/-- The checks of `register`: the schedule and the client to persist. -/
def RegisterRequest.validate (rt : Runtime) (r : RegisterRequest) (now : ℤ) :
    Except ScheduleError (Schedule × Option String) := do
  let schedule ← validateSchedule rt r.schedule now
  validateScheduleTarget r.jobKind r.templateId r.agentId r.entityId
  let clientId ← r.client
  return (schedule, clientId)

def SchedulerManager.register (rt : Runtime) (m : SchedulerManager) (l : SchedulerStep)
    (r : RegisterRequest) : Except ScheduleError (Option ScheduledJob) × SchedulerManager :=
  match r.validate rt (m.validatedAt l) with
  | .error e => (.error e, m)
  | .ok (schedule, clientId) =>
      match m.createScheduledJob l r schedule clientId with
      | .error e => (.error e, m)
      | .ok (job, m') => m'.mirror rt (m.registeredAt l job.id) job

def ScheduledJob.setPaused (paused : Bool) (job : ScheduledJob) : ScheduledJob :=
  { job with paused }

theorem ScheduledJob.setPaused_id (paused : Bool) (job : ScheduledJob) :
    (job.setPaused paused).id = job.id := rfl

def ScheduledJob.setSchedule (s : Schedule) (job : ScheduledJob) : ScheduledJob :=
  { job with
    cron := s.cron
    scheduleType := s.scheduleType
    intervalSeconds := s.intervalSeconds
    runAt := s.runAt
    timezone := s.timezone }

theorem ScheduledJob.setSchedule_id (s : Schedule) (job : ScheduledJob) :
    (job.setSchedule s).id = job.id := rfl

def SchedulerManager.updateRow (m : SchedulerManager) (l : SchedulerStep) (jobId : ℕ)
    (f : ScheduledJob → ScheduledJob) (hf : ∀ job, (f job).id = job.id) :
    Except ScheduleError (ScheduledJob × SchedulerManager) :=
  match l.refusal, m.jobs.find? jobId with
  | some message, _ => .error (.refused message)
  | none, none => .error (.keyError jobId)
  | none, some job =>
      .ok (f job, { m with jobs := m.jobs.update (fun job => job.id = jobId) f hf })

/-- `pause` and `resume`: `update_scheduled_job_paused`, then the same of the live job. -/
def SchedulerManager.setPaused (m : SchedulerManager) (l : SchedulerStep) (jobId : ℕ)
    (paused : Bool) : Except ScheduleError (Option ScheduledJob) × SchedulerManager :=
  match m.updateRow l jobId (ScheduledJob.setPaused paused) (ScheduledJob.setPaused_id paused) with
  | .error e => (.error e, m)
  | .ok (job, m') =>
      (.ok (some job), { m' with live := m'.live.map fun live => live.setPaused jobId paused })

def SchedulerManager.reschedule (rt : Runtime) (m : SchedulerManager) (l : SchedulerStep)
    (jobId : ℕ) (schedule : Schedule) :
    Except ScheduleError (Option ScheduledJob) × SchedulerManager :=
  match m.jobs.find? jobId with
  | none => (.error (.keyError jobId), m)
  | some existing =>
      match validateSchedule rt schedule (m.validatedAt l) with
      | .error e => (.error e, m)
      | .ok normalized =>
          match validateScheduleTarget existing.jobKind existing.templateId existing.agentId
            existing.entityId with
          | .error e => (.error e, m)
          | .ok () =>
              match m.updateRow l jobId (ScheduledJob.setSchedule normalized)
                (ScheduledJob.setSchedule_id normalized) with
              | .error e => (.error e, m)
              | .ok (job, m') => m'.mirror rt (m.registeredAt l jobId) job

def SchedulerManager.remove (m : SchedulerManager) (l : SchedulerStep) (jobId : ℕ) :
    Except ScheduleError (Option ScheduledJob) × SchedulerManager :=
  match l.refusal, m.jobs.find? jobId with
  | some message, _ => (.error (.refused message), m)
  | none, none => (.error (.keyError jobId), m)
  | none, some job =>
      (.ok (some job),
        { m with
          jobs := m.jobs.delete fun job => job.id = jobId
          live := m.live.map fun live => live.removeJob jobId })

def SchedulerManager.perform (rt : Runtime) (m : SchedulerManager) (l : SchedulerStep) :
    Except ScheduleError (Option ScheduledJob) × SchedulerManager :=
  match l.call with
  | .start => m.start rt l
  | .shutdown => (.ok none, m.shutdown)
  | .register request => m.register rt l request
  | .pause jobId => m.setPaused l jobId true
  | .resume jobId => m.setPaused l jobId false
  | .reschedule jobId schedule => m.reschedule rt l jobId schedule
  | .remove jobId => m.remove l jobId

/-- By the end of a call, the jobs that are exhausted are gone. -/
def SchedulerManager.elapse (rt : Runtime) (now : ℤ) (m : SchedulerManager) : SchedulerManager :=
  { m with live := m.live.map (LiveJobs.dropExhausted rt now), clock := now }

def SchedulerManager.step (rt : Runtime) (m : SchedulerManager) (l : SchedulerStep) :
    SchedulerManager :=
  (m.perform rt l).2.elapse rt (m.finishedAt l)

/-- Persisted jobs whose triggers can be built. -/
abbrev ScheduledJobs (rt : Runtime) :=
  { jobs : AutoTable ScheduledJob.id //
    ∀ job ∈ jobs, ∃ trigger, job.schedule.trigger rt = .ok trigger }

/-- An enabled manager that has not been started. -/
def schedulerMachine (rt : Runtime) (jobs : ScheduledJobs rt) (clock : ℤ) :
    Machine SchedulerManager SchedulerStep where
  init := { jobs := jobs.val, started := false, live := none, clock }
  step := SchedulerManager.step rt

end WaitLocalAgent.Scheduling
