import WaitLocalAgent.Foundation.Calendar
import WaitLocalAgent.Foundation.Fallible
import WaitLocalAgent.Foundation.Lease
import WaitLocalAgent.Foundation.Machine
import WaitLocalAgent.Foundation.Table
import WaitLocalAgent.Model.ClientScope

/-! # Sync cursors and their poll leases

The three writers of `sync_cursors`. Each runs in one `begin immediate` transaction. -/

namespace WaitLocalAgent.Polling

open Foundation

inductive CursorStatus where
  | idle
  | syncing
  | degraded
  | failed
  deriving DecidableEq, Repr

/-- `status.strip().lower()`, checked. -/
def CursorStatus.parse? (status : String) : Option CursorStatus :=
  match Text.lower (Text.strip status) with
  | "idle" => some .idle
  | "syncing" => some .syncing
  | "degraded" => some .degraded
  | "failed" => some .failed
  | _ => none

/-- The statuses of a sweep that has ended. -/
def CursorStatus.isTerminal (status : CursorStatus) : Bool := status != .syncing

abbrev CursorKey : Type := NormalizedText × NormalizedText

/-- A row of `sync_cursors`. -/
structure SyncCursor where
  connectorInstanceId : NormalizedText
  cursorType : NormalizedText
  cursorValue : Option NormalizedText
  status : CursorStatus
  lastSyncedAt : Option NormalizedText
  updatedAt : String
  leaseToken : Option NormalizedText
  leaseExpiresAt : Option String
  deriving DecidableEq

def SyncCursor.key (row : SyncCursor) : CursorKey := (row.connectorInstanceId, row.cursorType)

structure Store where
  instances : List NormalizedText
  cursors : Table SyncCursor.key

inductive LeaseError where
  | valueError (message : String)
  | keyError (key : String)
  | leaseConflict (message : String)
  | overflowError
  deriving DecidableEq, Repr

inductive PollLeaseClaimResult where
  | granted
  | locked
  | instanceMissing
  deriving DecidableEq, Repr

/-- `_normalize_client_id(value)`, raising when nothing is left. -/
def required (value message : String) : Except LeaseError NormalizedText :=
  match normalizeClientId (some value) with
  | some text => .ok text
  | none => .error (.valueError message)

def parseLeaseTimestamp (cal : Calendar) (value : String) : Except LeaseError Instant :=
  if Text.strip value = "" then
    .error (.valueError "timestamp must be a non-empty ISO timestamp")
  else
    match cal.fromisoformat value with
    | some moment => .ok moment
    | none => .error (.valueError "timestamp must be a valid ISO timestamp")

def requireStatus (status : String) (allowed : CursorStatus → Bool) (message : String) :
    Except LeaseError CursorStatus :=
  match (CursorStatus.parse? status).filter allowed with
  | some parsed => .ok parsed
  | none => .error (.valueError message)

/-- The checks on `ttl_seconds`, which is `none` when it is no finite number, and the end of the
lease. -/
def leaseExpiry (now : Instant) (ttlSeconds : Option ℚ) : Except LeaseError Instant :=
  match ttlSeconds.filter fun ttl => 0 < ttl with
  | none => .error (.valueError "ttl_seconds must be a finite positive number")
  | some ttl =>
      match now.add? ttl with
      | some expiresAt => .ok expiresAt
      | none => .error .overflowError

def leaseIsActive (cal : Calendar) (row : SyncCursor) (now : Instant) : Bool :=
  row.status == .syncing &&
    match row.leaseExpiresAt with
    | none => false
    | some text =>
        match parseLeaseTimestamp cal text with
        | .ok expiresAt => decide (now ≤ expiresAt)
        | .error _ => false

structure ClaimRequest where
  connectorInstanceId : String
  cursorType : String
  token : String
  ttlSeconds : Option ℚ
  now : String

/-- `set status = 'syncing', lease_token = ?, lease_expires_at = ?, updated_at = ?`. -/
def SyncCursor.lease (token : NormalizedText) (expiresAt now : String) (row : SyncCursor) :
    SyncCursor :=
  { row with
    status := .syncing, leaseToken := some token, leaseExpiresAt := some expiresAt,
    updatedAt := now }

theorem SyncCursor.lease_key (token : NormalizedText) (expiresAt now : String) (row : SyncCursor) :
    (row.lease token expiresAt now).key = row.key := rfl

/-- The row that a claim inserts. -/
def SyncCursor.leased (key : CursorKey) (token : NormalizedText) (expiresAt now : String) :
    SyncCursor where
  connectorInstanceId := key.1
  cursorType := key.2
  cursorValue := none
  status := .syncing
  lastSyncedAt := none
  updatedAt := now
  leaseToken := some token
  leaseExpiresAt := some expiresAt

@[simp] theorem SyncCursor.leased_key (key : CursorKey) (token : NormalizedText)
    (expiresAt now : String) : (SyncCursor.leased key token expiresAt now).key = key := rfl

def claimPollLease (cal : Calendar) (s : Store) (request : ClaimRequest) :
    Except LeaseError (PollLeaseClaimResult × Store) := do
  let token ← required request.token "token must be a non-empty string"
  let instanceId ←
    required request.connectorInstanceId "connector_instance_id must be non-empty"
  let cursorType ← required request.cursorType "cursor_type must be non-empty"
  let now ← parseLeaseTimestamp cal request.now
  let expiresAt ← leaseExpiry now request.ttlSeconds
  let text := (cal.isoformat expiresAt).val
  if !s.instances.contains instanceId then
    return (.instanceMissing, s)
  else if (s.cursors.find? (instanceId, cursorType)).any fun row => leaseIsActive cal row now then
    return (.locked, s)
  else
    let leased := SyncCursor.leased (instanceId, cursorType) token text request.now
    return (.granted, { s with
      cursors := s.cursors.upsert leased (SyncCursor.lease token text request.now)
        (SyncCursor.lease_key token text request.now) })

structure FinishRequest where
  connectorInstanceId : String
  cursorType : String
  token : String
  status : String
  cursorValue : Option String
  lastSyncedAt : Option String
  now : String

def SyncCursor.finish (status : CursorStatus) (cursorValue lastSyncedAt : Option NormalizedText)
    (now : String) (row : SyncCursor) : SyncCursor :=
  { row with
    status, cursorValue, lastSyncedAt, updatedAt := now, leaseToken := none,
    leaseExpiresAt := none }

theorem SyncCursor.finish_key (status : CursorStatus)
    (cursorValue lastSyncedAt : Option NormalizedText) (now : String) (row : SyncCursor) :
    (row.finish status cursorValue lastSyncedAt now).key = row.key := rfl

/-- The `where` clause of `finish_poll_lease`. -/
def SyncCursor.isHeldBy (key : CursorKey) (token : NormalizedText) (row : SyncCursor) : Bool :=
  row.key = key && row.status == .syncing && row.leaseToken == some token

def finishPollLease (cal : Calendar) (s : Store) (request : FinishRequest) :
    Except LeaseError (Bool × Store) := do
  let token ← required request.token "token must be a non-empty string"
  let instanceId ←
    required request.connectorInstanceId "connector_instance_id must be non-empty"
  let cursorType ← required request.cursorType "cursor_type must be non-empty"
  let status ← requireStatus request.status CursorStatus.isTerminal
    "unsupported terminal sync cursor status"
  let _ ← parseLeaseTimestamp cal request.now
  let cursorValue := normalizeClientId request.cursorValue
  let lastSyncedAt := normalizeClientId request.lastSyncedAt
  if !s.instances.contains instanceId then
    return (false, s)
  else
    let held := SyncCursor.isHeldBy (instanceId, cursorType) token
    return (s.cursors.rowcount held == 1, { s with
      cursors := s.cursors.update held
        (SyncCursor.finish status cursorValue lastSyncedAt request.now)
        (SyncCursor.finish_key status cursorValue lastSyncedAt request.now) })

structure UpsertRequest where
  connectorInstanceId : String
  cursorType : String
  cursorValue : Option String
  status : String := "idle"
  lastSyncedAt : Option String := none

/-- The row that `upsert_sync_cursor` writes. -/
def SyncCursor.unleased (key : CursorKey) (status : CursorStatus)
    (cursorValue lastSyncedAt : Option NormalizedText) (now : String) : SyncCursor where
  connectorInstanceId := key.1
  cursorType := key.2
  cursorValue := cursorValue
  status := status
  lastSyncedAt := lastSyncedAt
  updatedAt := now
  leaseToken := none
  leaseExpiresAt := none

@[simp] theorem SyncCursor.unleased_key (key : CursorKey) (status : CursorStatus)
    (cursorValue lastSyncedAt : Option NormalizedText) (now : String) :
    (SyncCursor.unleased key status cursorValue lastSyncedAt now).key = key := rfl

def upsertSyncCursor (cal : Calendar) (s : Store) (request : UpsertRequest) (now : Instant) :
    Except LeaseError (SyncCursor × Store) := do
  let instanceId ←
    required request.connectorInstanceId "connector_instance_id must be non-empty"
  let cursorType ← required request.cursorType "cursor_type must be non-empty"
  let status ← requireStatus request.status (fun _ => true) "unsupported sync cursor status"
  let cursorValue := normalizeClientId request.cursorValue
  let lastSyncedAt := normalizeClientId request.lastSyncedAt
  raiseIf (!s.instances.contains instanceId) (.keyError instanceId.val)
  raiseIf ((s.cursors.find? (instanceId, cursorType)).any fun row => leaseIsActive cal row now)
    (.leaseConflict "cannot overwrite sync cursor while an active poll lease is held")
  let text := (cal.isoformat now).val
  let row := SyncCursor.unleased (instanceId, cursorType) status cursorValue lastSyncedAt text
  return (row, { s with
    cursors := s.cursors.upsert row (SyncCursor.finish status cursorValue lastSyncedAt text)
      (SyncCursor.finish_key status cursorValue lastSyncedAt text) })

def getSyncCursor (s : Store) (connectorInstanceId cursorType : String) : Option SyncCursor :=
  (normalizeClientId (some connectorInstanceId)).bind fun instanceId =>
    (normalizeClientId (some cursorType)).bind fun cursorType =>
      s.cursors.find? (instanceId, cursorType)

inductive LeaseCall where
  | claimPollLease (request : ClaimRequest)
  | finishPollLease (request : FinishRequest)
  | upsertSyncCursor (request : UpsertRequest) (now : Instant)

def LeaseCall.apply (cal : Calendar) (s : Store) : LeaseCall → Store
  | .claimPollLease request => committed s ((Polling.claimPollLease cal s request).map Prod.snd)
  | .finishPollLease request => committed s ((Polling.finishPollLease cal s request).map Prod.snd)
  | .upsertSyncCursor request now =>
      committed s ((Polling.upsertSyncCursor cal s request now).map Prod.snd)

def LeaseCall.clock? (cal : Calendar) : LeaseCall → Option Instant
  | .claimPollLease request => cal.fromisoformat request.now
  | .finishPollLease request => cal.fromisoformat request.now
  | .upsertSyncCursor _ now => some now

/-- The row that these arguments name. -/
def cursorKey? (connectorInstanceId cursorType : String) : Option CursorKey :=
  (normalizeClientId (some connectorInstanceId)).bind fun instanceId =>
    (normalizeClientId (some cursorType)).map fun cursorType => (instanceId, cursorType)

/-- What a call does to the lease of a row, by the result that it returns. -/
def LeaseCall.event? (cal : Calendar) (s : Store) (key : CursorKey) :
    LeaseCall → Option (LeaseEvent NormalizedText Instant)
  | .claimPollLease request =>
      match Polling.claimPollLease cal s request with
      | .ok (.granted, _) =>
          if cursorKey? request.connectorInstanceId request.cursorType = some key then
            (normalizeClientId (some request.token)).bind fun token =>
              (cal.fromisoformat request.now).bind fun now =>
                (request.ttlSeconds.bind now.add?).map fun expiresAt =>
                  .granted token expiresAt now
          else none
      | _ => none
  | .finishPollLease request =>
      match Polling.finishPollLease cal s request with
      | .ok (true, _) =>
          if cursorKey? request.connectorInstanceId request.cursorType = some key then
            (normalizeClientId (some request.token)).map .finished
          else none
      | _ => none
  | .upsertSyncCursor request now =>
      match Polling.upsertSyncCursor cal s request now with
      | .ok _ =>
          if cursorKey? request.connectorInstanceId request.cursorType = some key then
            some (.overwritten now)
          else none
      | .error _ => none

/-- The granted claims, the finishes that return true and the upserts that go through, in order, of
one row. -/
def leaseEvents (cal : Calendar) (key : CursorKey) :
    Store → List LeaseCall → List (LeaseEvent NormalizedText Instant)
  | _, [] => []
  | s, l :: ls => (l.event? cal s key).toList ++ leaseEvents cal key (l.apply cal s) ls

end WaitLocalAgent.Polling
