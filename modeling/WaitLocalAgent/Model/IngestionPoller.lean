import WaitLocalAgent.Model.PollLeases

/-! # Ingestion pollers

Any number of `poll_instance` runs on one connector instance. A run reads the cursor, claims the
lease and finishes it in three store calls; what its sweep finds in between is arbitrary. -/

namespace WaitLocalAgent.Polling

open Foundation

inductive PollStatus where
  | idle
  | degraded
  | failed
  | skippedLocked
  deriving DecidableEq, Repr

def PollStatus.label : PollStatus → String
  | idle => "idle"
  | degraded => "degraded"
  | failed => "failed"
  | skippedLocked => "skipped_locked"

/-- The statuses that a sweep ends with. -/
inductive SweepStatus where
  | idle
  | degraded
  | failed
  deriving DecidableEq, Repr

def SweepStatus.toPollStatus : SweepStatus → PollStatus
  | idle => .idle
  | degraded => .degraded
  | failed => .failed

structure PollSummary where
  connectorInstanceId : NormalizedText
  pagesFetched : ℕ
  written : ℕ
  quarantined : ℕ
  status : PollStatus
  reason : String
  deriving DecidableEq

def pollCursorType : NormalizedText := ⟨"connector_poll", by decide, by decide⟩

def cursorValue (cursor : Option SyncCursor) : Option NormalizedText :=
  cursor.bind SyncCursor.cursorValue

def lastSynced (cursor : Option SyncCursor) : Option NormalizedText :=
  cursor.bind SyncCursor.lastSyncedAt

/-- `IngestionPoller._read_cursor`; a read that raises gives `None`. -/
def readCursor (s : Store) (instanceId : NormalizedText) (raises : Bool) : Option SyncCursor :=
  if raises then none else getSyncCursor s instanceId.val pollCursorType.val

/-- The request of `IngestionPoller._finish`, with the two moments at which it reads the clock. -/
def finishRequest (cal : Calendar) (token : NormalizedText) (previousCursor : Option SyncCursor)
    (summary : PollSummary) (recordedAt now : Instant) : FinishRequest where
  connectorInstanceId := summary.connectorInstanceId.val
  cursorType := pollCursorType.val
  token := token.val
  status := summary.status.label
  cursorValue :=
    if summary.pagesFetched ≠ 0 then some (toString summary.pagesFetched)
    else (cursorValue previousCursor).map Subtype.val
  lastSyncedAt :=
    if summary.status = .idle then some (cal.isoformat recordedAt).val
    else (lastSynced previousCursor).map Subtype.val
  now := (cal.isoformat now).val

def finish (cal : Calendar) (s : Store) (token : NormalizedText)
    (previousCursor : Option SyncCursor) (summary : PollSummary) (recordedAt now : Instant) :
    PollSummary × Store :=
  match finishPollLease cal s (finishRequest cal token previousCursor summary recordedAt now) with
  | .error _ => ({ summary with status := .failed, reason := "lease_finish_error" }, s)
  | .ok (true, s') => (summary, s')
  | .ok (false, s') =>
      if s'.instances.contains summary.connectorInstanceId then
        ({ summary with status := .degraded, reason := "lease_lost" }, s')
      else (summary, s')

/-- Where a run stands. The last component of `sweeping` records the sync time that the cursor had
when the lease was granted. -/
inductive Phase where
  | ready
  | read (previousCursor : Option SyncCursor)
  | sweeping (previousCursor : Option SyncCursor) (granted : Option NormalizedText)
  | done (summary : PollSummary)

/-- The runs on one instance, each with a token of its own, and the store that they start on. -/
structure Fleet (W : Type) where
  calendar : Calendar
  instanceId : NormalizedText
  token : W → NormalizedText
  distinct : Function.Injective token
  store : Store
  unleased : ∀ row ∈ store.cursors, row.leaseToken = none

/-- The store, the runs, and every sync time that a sweep has recorded on finishing idle, in
order. -/
structure Pollers (W : Type) where
  store : Store
  phases : W → Phase
  synced : List NormalizedText

inductive PollStep (W : Type) where
  | read (w : W) (raises : Bool)
  | claim (w : W) (ttlSeconds : Option ℚ) (now : Instant)
  | finish (w : W) (pagesFetched written quarantined : ℕ) (status : SweepStatus) (reason : String)
      (recordedAt now : Instant)

def PollStep.clock {W : Type} : PollStep W → List Instant
  | .read _ _ => []
  | .claim _ _ now => [now]
  | .finish _ _ _ _ _ _ recordedAt now => [recordedAt, now]

namespace Fleet

variable {W : Type} [DecidableEq W] (fleet : Fleet W)

def key : CursorKey := (fleet.instanceId, pollCursorType)

def cursor? (s : Store) : Option SyncCursor := s.cursors.find? fleet.key

def enter (p : Pollers W) (w : W) (phase : Phase) (store : Store) : Pollers W where
  store := store
  phases := Function.update p.phases w phase
  synced := p.synced

/-- The summary of a run that was not granted the lease. -/
def refused (status : PollStatus) (reason : String) : PollSummary :=
  { connectorInstanceId := fleet.instanceId, pagesFetched := 0, written := 0, quarantined := 0,
    status, reason }

def claim (p : Pollers W) (w : W) (previousCursor : Option SyncCursor)
    (ttlSeconds : Option ℚ) (now : Instant) : Pollers W :=
  match claimPollLease fleet.calendar p.store
    { connectorInstanceId := fleet.instanceId.val, cursorType := pollCursorType.val,
      token := (fleet.token w).val, ttlSeconds, now := (fleet.calendar.isoformat now).val } with
  | .error _ => enter p w (.done (fleet.refused .failed "poll_error")) p.store
  | .ok (.granted, s') =>
      enter p w (.sweeping previousCursor (lastSynced (fleet.cursor? p.store))) s'
  | .ok (.locked, s') => enter p w (.done (fleet.refused .skippedLocked "lease_locked")) s'
  | .ok (.instanceMissing, s') => enter p w (.done (fleet.refused .failed "instance_missing")) s'

/-- The sync time that a finish records: that of an idle sweep which still has the lease. -/
def recorded (p : Pollers W) (w : W) (previousCursor : Option SyncCursor)
    (summary : PollSummary) (recordedAt now : Instant) : List NormalizedText :=
  match finishPollLease fleet.calendar p.store
    (finishRequest fleet.calendar (fleet.token w) previousCursor summary recordedAt now) with
  | .ok (true, _) =>
      if summary.status = .idle then [fleet.calendar.isoformat recordedAt] else []
  | _ => []

def finishSweep (p : Pollers W) (w : W) (previousCursor : Option SyncCursor)
    (summary : PollSummary) (recordedAt now : Instant) : Pollers W :=
  let (summary', s') := finish fleet.calendar p.store (fleet.token w) previousCursor summary
    recordedAt now
  { enter p w (.done summary') s' with
    synced := p.synced ++ fleet.recorded p w previousCursor summary recordedAt now }

def step (p : Pollers W) : PollStep W → Pollers W
  | .read w raises =>
      match p.phases w with
      | .ready => enter p w (.read (readCursor p.store fleet.instanceId raises)) p.store
      | _ => p
  | .claim w ttlSeconds now =>
      match p.phases w with
      | .read previousCursor => fleet.claim p w previousCursor ttlSeconds now
      | _ => p
  | .finish w pagesFetched written quarantined status reason recordedAt now =>
      match p.phases w with
      | .sweeping previousCursor _ =>
          fleet.finishSweep p w previousCursor
            { connectorInstanceId := fleet.instanceId, pagesFetched, written, quarantined,
              status := status.toPollStatus, reason } recordedAt now
      | _ => p

def machine : Machine (Pollers W) (PollStep W) where
  init := { store := fleet.store, phases := fun _ => .ready, synced := [] }
  step := fleet.step

end Fleet

end WaitLocalAgent.Polling
