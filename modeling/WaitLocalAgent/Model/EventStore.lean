import WaitLocalAgent.Foundation.Table
import WaitLocalAgent.Model.ClientScope

/-! # Event deliveries

The rows of `event_deliveries` and the store operations on them. Audit events and the event
history are written next to these rows and read by none of the operations. -/

namespace WaitLocalAgent.Events

open Foundation

inductive DeliveryStatus where
  | received
  | retrying
  | completed
  | failed
  deriving DecidableEq, Repr

inductive AttemptStatus where
  | running
  | completed
  | pending
  | failed
  | blocked
  deriving DecidableEq, Repr

/-- The statuses that a retry takes up again. -/
def AttemptStatus.retryable : AttemptStatus → Bool
  | failed | blocked => true
  | running | completed | pending => false

/-- One entry of an attempts map; `ρ` is the type of run ids. -/
structure Attempt (ρ : Type) where
  status : AttemptStatus
  error : String := ""
  runIds : List ρ := []
  deriving DecidableEq, Repr

abbrev Attempts (ρ : Type) := AList fun _ : String => Attempt ρ

namespace Attempts

variable {ρ : Type}

def status? (attempts : Attempts ρ) (id : String) : Option AttemptStatus :=
  (attempts.lookup id).map Attempt.status

def retryable (attempts : Attempts ρ) (id : String) : Bool :=
  (attempts.status? id).any AttemptStatus.retryable

def idsWith (attempts : Attempts ρ) (p : AttemptStatus → Bool) : List String :=
  attempts.keys.filter fun id => (attempts.status? id).any p

/-- `_json_dumps_value` of an attempts map: error texts are redacted. -/
def redactErrors (redact : String → String) (attempts : Attempts ρ) : Attempts ρ where
  entries := attempts.entries.map fun e => ⟨e.1, { e.2 with error := redact e.2.error }⟩
  nodupKeys := by
    have h := attempts.nodupKeys
    simpa [List.NodupKeys, List.keys, Function.comp_def] using h

end Attempts

/-- A value of an event payload. Filters and mappings only ever look at text; any other value
is kept as its JSON source. -/
inductive JsonValue where
  | text (value : String)
  | other (source : String)
  deriving DecidableEq, Repr

abbrev Payload := AList fun _ : String => JsonValue

/-- `redact_text` and `redact_mapping`. -/
structure Redactor where
  text : String → String
  payload : Payload → Payload

/-- `utc_now`, and the ISO text of a moment some seconds later, which is never empty. -/
structure Clock where
  now : String
  after : ℕ → String
  after_ne : ∀ seconds, after seconds ≠ ""

def maxEventRetries : ℕ := 10

def maxEventRetryDelaySeconds : ℕ := 60 * 60

def eventRetryBatchSize : ℕ := 10

structure RetryPolicy where
  maxRetries : ℕ
  retryDelaySeconds : ℕ
  maxRetries_le : maxRetries ≤ maxEventRetries
  retryDelaySeconds_pos : 1 ≤ retryDelaySeconds
  retryDelaySeconds_le : retryDelaySeconds ≤ maxEventRetryDelaySeconds

inductive EventError where
  | eventDispatchError (message : String)
  | lookupError (entityId : String)
  | quarantinedTicketError (ticketId : String)
  | valueError (message : String)
  | keyError (deliveryId : ℕ)
  deriving DecidableEq, Repr

def validateEventRetryPolicy (maxRetries retryDelaySeconds : ℤ) :
    Except EventError RetryPolicy :=
  if hr : maxRetries < 0 ∨ maxRetries > maxEventRetries then
    .error (.valueError s!"event max_retries must be between 0 and {maxEventRetries}")
  else if hd : retryDelaySeconds < 1 ∨ retryDelaySeconds > maxEventRetryDelaySeconds then
    .error (.valueError
      s!"event retry_delay_seconds must be between 1 and {maxEventRetryDelaySeconds} seconds")
  else
    .ok ⟨maxRetries.toNat, retryDelaySeconds.toNat, by omega, by omega, by omega⟩

structure EventDelivery where
  id : ℕ
  idempotencyKey : String
  eventType : String
  entityType : String
  entityId : String
  payload : Payload
  status : DeliveryStatus
  matchedAgentCount : ℕ
  agentIds : List String
  runIds : List ℕ
  matchedPlaybookCount : ℕ
  playbookIds : List String
  playbookRunIds : List String
  playbookAttempts : Attempts String
  errorDetail : String
  receivedAt : String
  processedAt : String
  clientId : Option ClientId
  agentAttempts : Attempts ℕ
  retryCount : ℕ
  policy : RetryPolicy
  nextRetryAt : String

/-- `event_deliveries`: ids count up and the idempotency key is unique. -/
structure DeliveryTable where
  table : AutoTable EventDelivery.id
  idempotencyKey_unique : ∀ r ∈ table, ∀ s ∈ table,
    r.idempotencyKey = s.idempotencyKey → r = s

namespace DeliveryTable

instance : Membership EventDelivery DeliveryTable := ⟨fun t r => r ∈ t.table⟩

def empty : DeliveryTable := ⟨.empty, by simp⟩

def rows (t : DeliveryTable) : List EventDelivery := t.table.table.rows

def find? (t : DeliveryTable) (id : ℕ) : Option EventDelivery := t.table.find? id

def findByKey? (t : DeliveryTable) (key : String) : Option EventDelivery :=
  t.rows.find? fun r => r.idempotencyKey = key

variable {t : DeliveryTable}

theorem mem_def {r : EventDelivery} : r ∈ t ↔ r ∈ t.table := Iff.rfl

theorem findByKey?_eq_none {key : String} (h : t.findByKey? key = none) :
    ∀ r ∈ t, r.idempotencyKey ≠ key := by
  intro r hr
  simpa using List.find?_eq_none.mp h r hr

theorem findByKey?_eq_some {key : String} {r : EventDelivery}
    (h : t.findByKey? key = some r) : r ∈ t ∧ r.idempotencyKey = key :=
  ⟨List.mem_of_find?_eq_some h, by simpa using List.find?_some h⟩

theorem find?_eq_some_iff {id : ℕ} {r : EventDelivery} :
    t.find? id = some r ↔ r ∈ t ∧ r.id = id :=
  AutoTable.find?_eq_some_iff

theorem eq_of_id_eq {r s : EventDelivery} (hr : r ∈ t) (hs : s ∈ t)
    (h : r.id = s.id) : r = s :=
  AutoTable.eq_of_key_eq hr hs h

/-- The row of an insert statement before the store has given it an id. -/
structure NewDelivery where
  idempotencyKey : String
  eventType : String
  entityType : String
  entityId : String
  payload : Payload
  receivedAt : String
  clientId : Option ClientId
  policy : RetryPolicy

def NewDelivery.row (new : NewDelivery) (id : ℕ) : EventDelivery where
  id := id
  idempotencyKey := new.idempotencyKey
  eventType := new.eventType
  entityType := new.entityType
  entityId := new.entityId
  payload := new.payload
  status := .received
  matchedAgentCount := 0
  agentIds := []
  runIds := []
  matchedPlaybookCount := 0
  playbookIds := []
  playbookRunIds := []
  playbookAttempts := ∅
  errorDetail := ""
  receivedAt := new.receivedAt
  processedAt := ""
  clientId := new.clientId
  agentAttempts := ∅
  retryCount := 0
  policy := new.policy
  nextRetryAt := ""

/-- `insert or ignore`, then the row with the key, and whether the insert took effect. -/
def insertOrIgnore (t : DeliveryTable) (new : NewDelivery) :
    DeliveryTable × EventDelivery × Bool :=
  match h : t.findByKey? new.idempotencyKey with
  | some existing => (t, existing, false)
  | none =>
      let fresh := findByKey?_eq_none h
      (⟨t.table.insert new.row fun _ => rfl, by
        intro r hr s hs hkey
        rcases AutoTable.mem_insert.mp hr with hr | rfl <;>
          rcases AutoTable.mem_insert.mp hs with hs | rfl
        · exact t.idempotencyKey_unique r hr s hs hkey
        · exact absurd hkey (fresh r hr)
        · exact absurd hkey.symm (fresh s hs)
        · rfl⟩, new.row (t.table.lastKey + 1), true)

/-- `update event_deliveries set … where id = …`; neither key is assigned. -/
def updateRow (t : DeliveryTable) (id : ℕ) (f : EventDelivery → EventDelivery)
    (hid : ∀ r, (f r).id = r.id) (hkey : ∀ r, (f r).idempotencyKey = r.idempotencyKey) :
    DeliveryTable where
  table := t.table.update (fun r => r.id = id) f hid
  idempotencyKey_unique := by
    intro r hr s hs h
    obtain ⟨r', hr', rfl⟩ := AutoTable.mem_update.mp hr
    obtain ⟨s', hs', rfl⟩ := AutoTable.mem_update.mp hs
    have hkept : ∀ q : EventDelivery,
        (if decide (q.id = id) = true then f q else q).idempotencyKey = q.idempotencyKey := by
      intro q
      split
      · exact hkey q
      · rfl
    rw [hkept, hkept] at h
    rw [t.idempotencyKey_unique r' hr' s' hs' h]

end DeliveryTable

open DeliveryTable (NewDelivery)

def requireTicketNotQuarantined (ticketClient : Option (Option ClientId)) (ticketId : String) :
    Except EventError Unit :=
  if ticketClient = some (some quarantineClientId) then
    .error (.quarantinedTicketError ticketId)
  else .ok ()

/-- `entity_type.strip().lower() == "ticket"`. -/
def isTicketEntity (entityType : String) : Bool :=
  Text.lower (Text.strip entityType) == "ticket"

def createEventDelivery (redact : Redactor) (now : String)
    (ticketClient : Option (Option ClientId)) (t : DeliveryTable)
    (idempotencyKey eventType entityType entityId : String) (payload : Payload)
    (clientId : Option ClientId) (maxRetries retryDelaySeconds : ℤ) :
    Except EventError (DeliveryTable × EventDelivery × Bool) := do
  let policy ← validateEventRetryPolicy maxRetries retryDelaySeconds
  if isTicketEntity entityType then
    requireTicketNotQuarantined ticketClient entityId
  return t.insertOrIgnore
    { idempotencyKey, eventType, entityType, entityId, payload := redact.payload payload,
      receivedAt := now, clientId, policy }

/-- The arguments of `Store.update_event_delivery`; `none` keeps the stored value. -/
structure DeliveryUpdate where
  status : DeliveryStatus
  matchedAgentCount : ℕ
  agentIds : List String
  runIds : List ℕ
  matchedPlaybookCount : ℕ := 0
  playbookIds : Option (List String) := none
  playbookRunIds : Option (List String) := none
  playbookAttempts : Option (Attempts String) := none
  errorDetail : String := ""
  agentAttempts : Option (Attempts ℕ) := none
  retryCount : Option ℕ := none
  nextRetryAt : Option String := none

def DeliveryUpdate.assign (redact : Redactor) (now : String) (u : DeliveryUpdate)
    (r : EventDelivery) : EventDelivery :=
  { r with
    status := u.status
    matchedAgentCount := u.matchedAgentCount
    agentIds := u.agentIds
    runIds := u.runIds
    errorDetail := redact.text u.errorDetail
    processedAt := now
    matchedPlaybookCount := u.matchedPlaybookCount
    playbookIds := u.playbookIds.getD r.playbookIds
    playbookRunIds := u.playbookRunIds.getD r.playbookRunIds
    playbookAttempts :=
      (u.playbookAttempts.map (Attempts.redactErrors redact.text)).getD r.playbookAttempts
    agentAttempts :=
      (u.agentAttempts.map (Attempts.redactErrors redact.text)).getD r.agentAttempts
    retryCount := u.retryCount.getD r.retryCount
    nextRetryAt := u.nextRetryAt.getD r.nextRetryAt }

theorem DeliveryUpdate.assign_id (redact : Redactor) (now : String) (u : DeliveryUpdate)
    (r : EventDelivery) : (u.assign redact now r).id = r.id := rfl

theorem DeliveryUpdate.assign_idempotencyKey (redact : Redactor) (now : String)
    (u : DeliveryUpdate) (r : EventDelivery) :
    (u.assign redact now r).idempotencyKey = r.idempotencyKey := rfl

def updateEventDelivery (redact : Redactor) (now : String) (t : DeliveryTable) (id : ℕ)
    (u : DeliveryUpdate) : Except EventError (DeliveryTable × EventDelivery) :=
  match t.find? id with
  | none => .error (.keyError id)
  | some r =>
      .ok (t.updateRow id (u.assign redact now) (u.assign_id redact now)
        (u.assign_idempotencyKey redact now), u.assign redact now r)

def getEventDelivery (t : DeliveryTable) (id : ℕ) (scope : Option ClientId) :
    Option EventDelivery :=
  (t.find? id).filter fun r => withinScope scope r.clientId

def EventDelivery.claimed (r : EventDelivery) : EventDelivery :=
  { r with
    status := .retrying
    retryCount := r.retryCount + 1
    errorDetail := ""
    nextRetryAt := "" }

theorem EventDelivery.claimed_id (r : EventDelivery) : r.claimed.id = r.id := rfl

theorem EventDelivery.claimed_idempotencyKey (r : EventDelivery) :
    r.claimed.idempotencyKey = r.idempotencyKey := rfl

/-- `Store.claim_event_delivery_retry`: one guarded update, and the reason when it matched
no row. -/
def claimEventDeliveryRetry (t : DeliveryTable) (id : ℕ) (scope : Option ClientId) :
    Except EventError (DeliveryTable × EventDelivery) :=
  match getEventDelivery t id scope with
  | none => .error (.keyError id)
  | some r =>
      if r.status = .failed ∧ r.retryCount < r.policy.maxRetries then
        .ok (t.updateRow id EventDelivery.claimed EventDelivery.claimed_id
          EventDelivery.claimed_idempotencyKey, r.claimed)
      else if r.status ≠ .failed then
        .error (.valueError "only failed event deliveries can be retried")
      else
        .error (.valueError "event delivery retry limit reached")

/-- `order by next_retry_at, id`. -/
def dueBefore (r s : EventDelivery) : Prop :=
  r.nextRetryAt < s.nextRetryAt ∨ (r.nextRetryAt = s.nextRetryAt ∧ r.id ≤ s.id)

instance : DecidableRel dueBefore := fun r s =>
  inferInstanceAs (Decidable (r.nextRetryAt < s.nextRetryAt ∨
    (r.nextRetryAt = s.nextRetryAt ∧ r.id ≤ s.id)))

/-- `Store.list_due_event_delivery_ids` over all clients. -/
def listDueEventDeliveryIds (t : DeliveryTable) (now : String) (limit : ℕ) : List ℕ :=
  (((t.rows.filter fun r =>
    r.status == .failed && r.retryCount < r.policy.maxRetries && r.nextRetryAt != "" &&
      r.nextRetryAt ≤ now).insertionSort dueBefore).take limit).map EventDelivery.id

def hasEventAgentRun (t : DeliveryTable) (agentId eventType entityId : String)
    (scope : Option ClientId) : Bool :=
  t.rows.any fun r =>
    r.eventType == eventType && r.entityId == entityId &&
      (r.status == .completed || r.status == .failed) && withinScope scope r.clientId &&
      r.agentIds.contains agentId

def hasCompletedEventAgentRun (t : DeliveryTable) (agentId eventType entityId : String)
    (scope : Option ClientId) : Bool :=
  t.rows.any fun r =>
    r.eventType == eventType && r.entityId == entityId && r.status == .completed &&
      withinScope scope r.clientId && r.agentIds.contains agentId

end WaitLocalAgent.Events
