import WaitLocalAgent.Foundation.Worklist
import WaitLocalAgent.Model.EventStore

/-! # The event dispatcher

`EventDispatcher` over the delivery store. The agent runtime, the playbook runner and the
tables a call reads are the environment of that call. -/

namespace WaitLocalAgent.Events

open Foundation

inductive AgentTrigger where
  | manual
  | scheduled
  | event
  deriving DecidableEq, Repr

structure AgentDefinition where
  id : String
  name : String
  enabled : Bool
  trigger : AgentTrigger
  entityType : String
  filters : List (String × String)
  clientId : Option ClientId
  runOncePerEntity : Bool
  dependsOnAgentIds : List String
  deriving DecidableEq

structure MspPlaybookSubscription where
  id : String
  playbookId : String
  eventType : String
  clientId : ClientId
  inputMapping : List (String × String)
  enabled : Bool
  deriving DecidableEq

inductive AgentRunStatus where
  | queued
  | pendingApproval
  | completed
  | failed
  | rejected
  | cancelled
  deriving DecidableEq, Repr

structure AgentRunResult where
  runId : ℕ
  status : AgentRunStatus
  deriving DecidableEq

/-- The arguments of `agent_service.run`. -/
structure AgentRequest where
  definition : AgentDefinition
  entityId : String
  actor : String
  inputPayload : Payload

structure PlaybookResult where
  runId : String
  status : String

/-- The arguments of `run_msp_playbook`. -/
structure PlaybookRequest where
  playbookId : String
  ticketId : String
  clientId : Option ClientId
  actor : String
  triggerSource : String
  inputPayload : List (String × JsonValue)

/-- What a call reads besides the deliveries; `.error` is the text of a raised exception. -/
structure DispatchEnv where
  redact : Redactor
  clock : Clock
  tickets : String → Option (Option ClientId)
  definitions : Table AgentDefinition.id
  subscriptions : Table MspPlaybookSubscription.id
  runAgent : AgentRequest → Except String AgentRunResult
  runMspPlaybook : PlaybookRequest → Except String PlaybookResult

/-- A call of `agent_service.run` made for a delivery, with what it returned. -/
structure AgentCall where
  definition : AgentDefinition
  eventType : String
  entityId : String
  clientId : Option ClientId
  outcome : Except String AgentRunResult

def AgentCall.completed (c : AgentCall) : Bool :=
  match c.outcome with
  | .ok result => result.status == .completed
  | .error _ => false

/-- The deliveries, and every `agent_service.run` made so far, in order. -/
structure World where
  deliveries : DeliveryTable
  calls : List AgentCall

/-! ## Lists of the environment -/

/-- `order by name, id`. -/
def definitionBefore (d e : AgentDefinition) : Prop :=
  d.name < e.name ∨ (d.name = e.name ∧ d.id ≤ e.id)

instance : DecidableRel definitionBefore := fun d e =>
  inferInstanceAs (Decidable (d.name < e.name ∨ (d.name = e.name ∧ d.id ≤ e.id)))

/-- `order by playbook_id, id`, for the subscriptions of one client. -/
def subscriptionBefore (s u : MspPlaybookSubscription) : Prop :=
  s.playbookId < u.playbookId ∨ (s.playbookId = u.playbookId ∧ s.id ≤ u.id)

instance : DecidableRel subscriptionBefore := fun s u =>
  inferInstanceAs (Decidable (s.playbookId < u.playbookId ∨
    (s.playbookId = u.playbookId ∧ s.id ≤ u.id)))

def DispatchEnv.listAgentDefinitions (env : DispatchEnv) : List AgentDefinition :=
  env.definitions.rows.insertionSort definitionBefore

def DispatchEnv.listMspPlaybookSubscriptions (env : DispatchEnv) (clientId : ClientId)
    (eventType : String) : List MspPlaybookSubscription :=
  (env.subscriptions.rows.filter fun s =>
    s.clientId == clientId && s.eventType == eventType).insertionSort subscriptionBefore

/-! ## Processing one delivery -/

/-- The arguments of `_process_delivery`, with the store it reads. -/
structure Processing where
  env : DispatchEnv
  deliveries : DeliveryTable
  delivery : EventDelivery
  payload : Payload
  clientId : Option ClientId
  actor : String
  retryOnly : Bool

def matchesFilters (filters : List (String × String)) (eventContext : Payload) : Bool :=
  filters.all fun (key, expected) => eventContext.lookup key == some (.text expected)

def mspPlaybookSubscriptionInput (s : MspPlaybookSubscription) (eventContext : Payload) :
    List (String × JsonValue) :=
  s.inputMapping.filterMap fun (target, source) =>
    (eventContext.lookup source).map fun value => (target, value)

/-- The local variables of the agent loop, and the calls it made. -/
structure AgentPass where
  attempts : Attempts ℕ
  runIds : List ℕ
  errors : List String
  completedAgents : List String
  calls : List AgentCall

structure PlaybookPass where
  attempts : Attempts String
  matchedIds : List String
  runIds : List String
  errors : List String

namespace Processing

variable (p : Processing)

def eventContext : Payload :=
  let context := ((((p.payload.insert "event_type" (.text p.delivery.eventType)).insert
    "entity_type" (.text p.delivery.entityType)).insert
    "entity_id" (.text p.delivery.entityId)).insert
    "ticket_id" (.text p.delivery.entityId))
  match p.clientId with
  | some c => context.insert "client_id" (.text c.val)
  | none => context

/-- Enabled event definitions for the entity type, the client and the filters. -/
def eligible (d : AgentDefinition) : Bool :=
  d.enabled && d.trigger == .event && d.entityType == p.delivery.entityType &&
    (d.clientId.isNone || d.clientId == p.clientId) && matchesFilters d.filters p.eventContext

/-- A retry of a delivery without attempts takes every matched id for a failed one. -/
def startAttempts : Attempts ℕ :=
  if p.retryOnly && p.delivery.agentAttempts.keys.isEmpty then
    p.delivery.agentIds.foldl (fun attempts id => attempts.insert id { status := .failed }) ∅
  else p.delivery.agentAttempts

def candidates : List AgentDefinition :=
  p.env.listAgentDefinitions.filter fun d =>
    p.eligible d && (!p.retryOnly || p.startAttempts.retryable d.id)

def matchedAgentIds : List String :=
  if p.retryOnly && !p.delivery.agentIds.isEmpty then p.delivery.agentIds
  else p.candidates.map AgentDefinition.id

/-- `sorted(retryable_ids - found_retryable_ids)`. -/
def ineligibleIds : List String :=
  if p.retryOnly then
    ((p.startAttempts.idsWith AttemptStatus.retryable).filter fun id =>
      !(p.candidates.map AgentDefinition.id).contains id).insertionSort (· ≤ ·)
  else []

def ineligibleError (agentId : String) : String :=
  s!"{agentId}: agent is no longer eligible for retry"

def startPass : AgentPass :=
  let attempts := p.ineligibleIds.foldl (fun attempts id =>
    attempts.insert id { status := .failed, error := ineligibleError id }) p.startAttempts
  { attempts
    runIds := if p.retryOnly then p.delivery.runIds else []
    errors := p.ineligibleIds.map ineligibleError
    completedAgents := attempts.idsWith (· == .completed)
    calls := [] }

def hasRun (agentId : String) : Bool :=
  hasEventAgentRun p.deliveries agentId p.delivery.eventType p.delivery.entityId p.clientId

def hasCompletedRun (agentId : String) : Bool :=
  hasCompletedEventAgentRun p.deliveries agentId p.delivery.eventType p.delivery.entityId
    p.clientId

/-- The run-once test, which a retry does not make. -/
def alreadyRun (d : AgentDefinition) : Bool :=
  !p.retryOnly && d.runOncePerEntity && p.hasRun d.id

def unmet (completedAgents : List String) (d : AgentDefinition) : List String :=
  d.dependsOnAgentIds.filter fun dependencyId =>
    !completedAgents.contains dependencyId && !p.hasCompletedRun dependencyId

def scopedDefinition (d : AgentDefinition) : AgentDefinition :=
  if d.clientId.isNone && p.clientId.isSome then { d with clientId := p.clientId } else d

def request (d : AgentDefinition) : AgentRequest where
  definition := p.scopedDefinition d
  entityId := p.delivery.entityId
  actor := p.actor
  inputPayload := p.eventContext

def call (d : AgentDefinition) : AgentCall where
  definition := p.scopedDefinition d
  eventType := p.delivery.eventType
  entityId := p.delivery.entityId
  clientId := p.clientId
  outcome := p.env.runAgent (p.request d)

/-- The body of the `try` statement around `agent_service.run`. -/
def runDefinition (s : AgentPass) (d : AgentDefinition) : AgentPass :=
  match p.env.runAgent (p.request d) with
  | .ok result =>
      { attempts := s.attempts.insert d.id
          { status := if result.status = .completed then .completed else .pending
            runIds := [result.runId] }
        runIds := s.runIds ++ [result.runId]
        errors := s.errors
        completedAgents :=
          if result.status = .completed then d.id :: s.completedAgents else s.completedAgents
        calls := s.calls ++ [p.call d] }
  | .error message =>
      let error := p.env.redact.text s!"{d.id}: {message}"
      { s with
        attempts := s.attempts.insert d.id { status := .failed, error }
        errors := s.errors ++ [error]
        calls := s.calls ++ [p.call d] }

/-- The agent loop as a worklist: a definition waits for its unmet dependencies, and what
waits at the end is blocked. -/
def worklist : Worklist AgentPass AgentDefinition (List String) where
  waits s d :=
    if p.alreadyRun d then none
    else if p.unmet s.completedAgents d = [] then none
    else some (p.unmet s.completedAgents d)
  settle s d :=
    if p.alreadyRun d then
      if p.hasCompletedRun d.id then { s with completedAgents := d.id :: s.completedAgents }
      else s
    else p.runDefinition s d
  giveUp s d unmet :=
    let error := p.env.redact.text
      (s!"{d.id}: dependency not completed: " ++ ", ".intercalate unmet)
    { s with
      attempts := s.attempts.insert d.id { status := .blocked, error }
      errors := s.errors ++ [error] }

def agentPass : AgentPass := p.worklist.drain p.candidates.length p.startPass p.candidates

def runSubscription (s : PlaybookPass) (sub : MspPlaybookSubscription) : PlaybookPass :=
  if !sub.enabled then s
  else if p.retryOnly && !s.attempts.retryable sub.id then s
  else
    let matchedIds :=
      if s.matchedIds.contains sub.id then s.matchedIds else s.matchedIds ++ [sub.id]
    match p.env.runMspPlaybook
      { playbookId := sub.playbookId
        ticketId := p.delivery.entityId
        clientId := p.clientId
        actor := p.actor
        triggerSource := s!"event:{p.delivery.eventType}"
        inputPayload := mspPlaybookSubscriptionInput sub p.eventContext } with
    | .ok result =>
        { matchedIds
          attempts := s.attempts.insert sub.id
            { status := if result.status = "completed" then .completed else .pending
              error := if result.status = "completed" then "" else "playbook requires review"
              runIds := [result.runId] }
          runIds := s.runIds ++ [result.runId]
          errors := s.errors }
    | .error message =>
        let error := p.env.redact.text s!"{sub.id}: {message}"
        { matchedIds
          attempts := s.attempts.insert sub.id { status := .failed, error }
          runIds := s.runIds
          errors := s.errors ++ [error] }

def subscriptions : List MspPlaybookSubscription :=
  match p.clientId with
  | some c => p.env.listMspPlaybookSubscriptions c p.delivery.eventType
  | none => []

def startPlaybooks : PlaybookPass where
  attempts := p.delivery.playbookAttempts
  matchedIds := if p.retryOnly then p.delivery.playbookIds else []
  runIds := if p.retryOnly then p.delivery.playbookRunIds else []
  errors := []

def playbookPass : PlaybookPass := p.subscriptions.foldl p.runSubscription p.startPlaybooks

end Processing

/-- What the two loops leave behind for the final update of the delivery. -/
structure PassReport where
  matchedAgentIds : List String
  runIds : List ℕ
  matchedPlaybookIds : List String
  playbookRunIds : List String
  attempts : Attempts ℕ
  playbookAttempts : Attempts String
  errors : List String

def Processing.report (p : Processing) : PassReport where
  matchedAgentIds := p.matchedAgentIds
  runIds := p.agentPass.runIds
  matchedPlaybookIds := p.playbookPass.matchedIds
  playbookRunIds := p.playbookPass.runIds
  attempts := p.agentPass.attempts
  playbookAttempts := p.playbookPass.attempts
  errors := p.agentPass.errors ++ p.playbookPass.errors

def nextRetryAt (clock : Clock) (retryCount retryDelaySeconds : ℕ) : String :=
  clock.after (min (retryDelaySeconds * 2 ^ retryCount) maxEventRetryDelaySeconds)

def PassReport.update (report : PassReport) (clock : Clock) (delivery : EventDelivery) :
    DeliveryUpdate :=
  let status : DeliveryStatus := if report.errors = [] then .completed else .failed
  { status
    matchedAgentCount := report.matchedAgentIds.length
    agentIds := report.matchedAgentIds
    runIds := report.runIds
    matchedPlaybookCount := report.matchedPlaybookIds.length
    playbookIds := some report.matchedPlaybookIds
    playbookRunIds := some report.playbookRunIds
    playbookAttempts := some report.playbookAttempts
    errorDetail := "; ".intercalate report.errors
    agentAttempts := some report.attempts
    nextRetryAt := some (
      if status = .failed ∧ delivery.retryCount < delivery.policy.maxRetries then
        nextRetryAt clock delivery.retryCount delivery.policy.retryDelaySeconds
      else "") }

/-- The unsaved delivery of a skipped event. -/
structure SkippedDelivery where
  idempotencyKey : String
  eventType : String
  entityType : String
  entityId : String
  payload : Payload
  errorDetail : String := "ticket is quarantined pending client mapping"
  receivedAt : String
  clientId : Option ClientId

structure EventDispatchResult where
  delivery : SkippedDelivery ⊕ EventDelivery
  duplicate : Bool := false
  matchedAgentIds : List String := []
  runIds : List ℕ := []
  matchedPlaybookIds : List String := []
  playbookRunIds : List String := []
  errors : List String := []

/-- `_process_delivery`: an exception of the final update leaves the runs made. -/
def Processing.processDelivery (p : Processing) (calls : List AgentCall) :
    World × Except EventError EventDispatchResult :=
  let calls := calls ++ p.agentPass.calls
  match updateEventDelivery p.env.redact p.env.clock.now p.deliveries p.delivery.id
    (p.report.update p.env.clock p.delivery) with
  | .error e => (⟨p.deliveries, calls⟩, .error e)
  | .ok (deliveries, delivery) =>
      (⟨deliveries, calls⟩, .ok
        { delivery := .inr delivery
          matchedAgentIds := p.report.matchedAgentIds
          runIds := p.report.runIds
          matchedPlaybookIds := p.report.matchedPlaybookIds
          playbookRunIds := p.report.playbookRunIds
          errors := p.report.errors })

/-! ## The entry points -/

structure DispatchRequest where
  eventType : String
  entityType : String
  entityId : String
  payload : Payload
  idempotencyKey : String
  clientId : Option String := none
  actor : String := "webhook"
  maxRetries : ℤ := 3
  retryDelaySeconds : ℤ := 60

/-- `_quarantine_result` without a stored delivery. -/
def DispatchRequest.skipped (request : DispatchRequest) (now : String)
    (clientId : Option ClientId) : SkippedDelivery where
  idempotencyKey := request.idempotencyKey
  eventType := request.eventType
  entityType := request.entityType
  entityId := request.entityId
  payload := request.payload
  receivedAt := now
  clientId := clientId

def supportedEventTypes : List String :=
  ["ticket.created", "ticket.updated", "ticket.unassigned", "ticket.priority_changed",
    "ticket.status_changed", "ticket.closed", "time_entry.added", "workflow.completed"]

def validateRequest (request : DispatchRequest) : Except EventError Unit :=
  if request.eventType ∉ supportedEventTypes then
    .error (.eventDispatchError "unsupported event_type")
  else if request.entityType ≠ "ticket" then
    .error (.eventDispatchError "only ticket event entities are supported")
  else if Text.strip request.entityId = "" ∨ request.entityId.length > 200 then
    .error (.eventDispatchError "entity_id must contain 1-200 characters")
  else if Text.strip request.idempotencyKey = "" ∨ request.idempotencyKey.length > 200 then
    .error (.eventDispatchError "idempotency_key must contain 1-200 characters")
  else .ok ()

def resultFromDelivery (delivery : EventDelivery) (duplicate : Bool) : EventDispatchResult where
  delivery := .inr delivery
  duplicate := duplicate
  matchedAgentIds := delivery.agentIds
  runIds := delivery.runIds
  matchedPlaybookIds := delivery.playbookIds
  playbookRunIds := delivery.playbookRunIds
  errors := if delivery.errorDetail = "" then [] else [delivery.errorDetail]

def dispatch (env : DispatchEnv) (request : DispatchRequest) (w : World) :
    World × Except EventError EventDispatchResult :=
  match validateRequest request with
  | .error e => (w, .error e)
  | .ok () =>
      let requestedClientId := normalizeClientId request.clientId
      match (env.tickets request.entityId).filter (withinScope requestedClientId) with
      | none => (w, .error (.lookupError request.entityId))
      | some ticketClient =>
          if ticketClient = some quarantineClientId then
            (w, .ok { delivery := .inl (request.skipped env.clock.now ticketClient) })
          else
            let effectiveClientId := requestedClientId <|> ticketClient
            match createEventDelivery env.redact env.clock.now (env.tickets request.entityId)
              w.deliveries request.idempotencyKey request.eventType request.entityType
              request.entityId request.payload effectiveClientId request.maxRetries
              request.retryDelaySeconds with
            | .error e => (w, .error e)
            | .ok (deliveries, delivery, true) =>
                Processing.processDelivery
                  { env, deliveries, delivery, payload := request.payload,
                    clientId := effectiveClientId, actor := request.actor,
                    retryOnly := false } w.calls
            | .ok (deliveries, delivery, false) =>
                if delivery.eventType ≠ request.eventType ∨
                    delivery.entityType ≠ request.entityType ∨
                    delivery.entityId ≠ request.entityId ∨
                    delivery.clientId ≠ effectiveClientId then
                  (⟨deliveries, w.calls⟩, .error (.eventDispatchError
                    "idempotency_key is already used for a different event"))
                else (⟨deliveries, w.calls⟩, .ok (resultFromDelivery delivery true))

def retryScope : Option String → Except EventError (Option ClientId)
  | none => .ok none
  | some s =>
      match normalizeClientId (some s) with
      | some c => .ok (some c)
      | none => .error (.valueError "client_id must be non-empty")

def retry (env : DispatchEnv) (deliveryId : ℕ) (clientId : Option String) (actor : String)
    (w : World) : World × Except EventError EventDispatchResult :=
  match retryScope clientId with
  | .error e => (w, .error e)
  | .ok scope =>
      match getEventDelivery w.deliveries deliveryId scope with
      | none => (w, .error (.keyError deliveryId))
      | some existing =>
          if isTicketEntity existing.entityType ∧
              env.tickets existing.entityId = some (some quarantineClientId) then
            (w, .ok { delivery := .inr existing })
          else
            match claimEventDeliveryRetry w.deliveries deliveryId scope with
            | .error e => (w, .error e)
            | .ok (deliveries, delivery) =>
                Processing.processDelivery
                  { env, deliveries, delivery, payload := delivery.payload,
                    clientId := delivery.clientId, actor, retryOnly := true } w.calls

/-- The body of the loop of `retry_due`: a retry that raises is skipped. -/
def retryDueBody (env : ℕ → DispatchEnv) (state : World × List EventDispatchResult)
    (deliveryId : ℕ) : World × List EventDispatchResult :=
  match retry (env deliveryId) deliveryId none "event-retry-worker" state.1 with
  | (w, .ok result) => (w, state.2 ++ [result])
  | (w, .error _) => (w, state.2)

/-- `EventDispatcher.retry_due`. Each retry of the batch has its own environment. -/
def retryDue (env : ℕ → DispatchEnv) (now : String) (w : World) :
    World × List EventDispatchResult :=
  (listDueEventDeliveryIds w.deliveries now eventRetryBatchSize).foldl (retryDueBody env) (w, [])

/-! ## Sequences of calls -/

/-- The calls of the dispatcher, each with the environment it meets. -/
inductive DispatcherCall where
  | dispatch (env : DispatchEnv) (request : DispatchRequest)
  | retry (env : DispatchEnv) (deliveryId : ℕ) (clientId : Option String) (actor : String)
  | retryDue (env : ℕ → DispatchEnv) (now : String)

def DispatcherCall.apply (w : World) : DispatcherCall → World
  | .dispatch env request => (Events.dispatch env request w).1
  | .retry env deliveryId clientId actor => (Events.retry env deliveryId clientId actor w).1
  | .retryDue env now => (Events.retryDue env now w).1

/-- Calls made one after another on an empty store. -/
def dispatcher : Machine World DispatcherCall where
  init := ⟨.empty, []⟩
  step := DispatcherCall.apply

end WaitLocalAgent.Events

/-! ## Callers in parallel

Any number of dispatch calls, operator retries and retry workers over one store. A step is one
committed store call; what a caller computes between two of its steps is arbitrary. -/

namespace WaitLocalAgent.Events

open Foundation

/-- Where a caller stands between two store calls. -/
inductive Caller where
  | idle
  | processing (delivery : EventDelivery)

/-- The store, the callers, and every delivery whose processing was started, in order. -/
structure Shared where
  deliveries : DeliveryTable
  callers : ℕ → Caller
  started : List ℕ

inductive StoreCall where
  /-- `create_event_delivery` of a dispatch. -/
  | create (caller : ℕ) (env : DispatchEnv) (request : DispatchRequest)
      (clientId : Option ClientId)
  /-- `claim_event_delivery_retry` of an operator or a worker. -/
  | claim (caller : ℕ) (deliveryId : ℕ) (scope : Option ClientId)
  /-- `update_event_delivery` at the end of the processing, after whatever passes. -/
  | finish (caller : ℕ) (env : DispatchEnv) (report : PassReport)
  /-- The caller dies or raises before its final update. -/
  | abandon (caller : ℕ)

namespace Shared

/-- The caller lets go of what it was processing. -/
def release (s : Shared) (caller : ℕ) (deliveries : DeliveryTable) : Shared where
  deliveries := deliveries
  callers := Function.update s.callers caller .idle
  started := s.started

/-- The caller takes up a delivery that it has created or claimed. -/
def start (s : Shared) (caller : ℕ) (deliveries : DeliveryTable) (delivery : EventDelivery) :
    Shared where
  deliveries := deliveries
  callers := Function.update s.callers caller (.processing delivery)
  started := s.started ++ [delivery.id]

def step (s : Shared) : StoreCall → Shared
  | .create caller env request clientId =>
      match s.callers caller with
      | .processing _ => s
      | .idle =>
          match createEventDelivery env.redact env.clock.now (env.tickets request.entityId)
            s.deliveries request.idempotencyKey request.eventType request.entityType
            request.entityId request.payload clientId request.maxRetries
            request.retryDelaySeconds with
          | .ok (deliveries, delivery, true) => s.start caller deliveries delivery
          | .ok (deliveries, _, false) => { s with deliveries }
          | .error _ => s
  | .claim caller deliveryId scope =>
      match s.callers caller with
      | .processing _ => s
      | .idle =>
          match claimEventDeliveryRetry s.deliveries deliveryId scope with
          | .ok (deliveries, delivery) => s.start caller deliveries delivery
          | .error _ => s
  | .finish caller env report =>
      match s.callers caller with
      | .idle => s
      | .processing delivery =>
          match updateEventDelivery env.redact env.clock.now s.deliveries delivery.id
            (report.update env.clock delivery) with
          | .ok (deliveries, _) => s.release caller deliveries
          | .error _ => s.release caller s.deliveries
  | .abandon caller => s.release caller s.deliveries

end Shared

/-- Interleavings of store calls over an empty store. -/
def callers : Machine Shared StoreCall where
  init := ⟨.empty, fun _ => .idle, []⟩
  step := Shared.step

end WaitLocalAgent.Events
