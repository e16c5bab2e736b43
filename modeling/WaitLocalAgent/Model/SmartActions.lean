import WaitLocalAgent.Foundation.Program
import WaitLocalAgent.Model.Approvals
import WaitLocalAgent.Model.Principals

/-! # Smart-action approvals

`SmartActionService` as programs whose atomic actions are its statements on the store and the runs
of the actions themselves. -/

namespace WaitLocalAgent.SmartActions

open Foundation Approvals

abbrev ActionPayload := AList fun _ : String => NestedValue

structure ActionResult where
  status : ActionStatus
  output : JsonObject := ∅
  evidence : List JsonObject := []
  errorDetail : String := ""
  runId : Option ℕ := none
  approvalId : Option ℕ := none
  deriving DecidableEq

/-- The fields of a manifest that approvals depend on. -/
structure SmartActionManifest where
  actionId : String
  requiredRole : String := "technician"

/-- `SmartActionRegistry.get`; `none` is its `KeyError`. -/
abbrev Registry := String → Option SmartActionManifest

/-- A run of an action with `_approval_completed`. -/
structure ActionCall where
  actionId : String
  actor : String
  clientId : Option NormalizedText
  payload : ActionPayload

/-- What the service acts on: the store, and the calls of actions so far, each with the request as
it was stored then. -/
structure Workspace where
  store : Approvals.Store
  calls : List (ActionCall × Option ApprovalRequest)

inductive ServiceError where
  | approval (error : ApprovalError)
  | missingRun (message : String)
  | agentDefinition (message : String)
  deriving DecidableEq, Repr

/-! ## Atomic actions -/

/-- Where a ticket is looked up. -/
inductive CallSite where
  | update
  | completion
  | resume
  deriving DecidableEq, Repr

inductive ServiceAction where
  | selectRequest (approvalId : ℕ)
  | expireRequest (row : ApprovalRequest)
  | getTicket (site : CallSite) (ticketId : String)
  | decideRequest (row : ApprovalRequest) (update : UpdateRequest)
  | listRuns (approvalId : ℕ)
  | runAction (approvalId : ℕ) (call : ActionCall)
  | selectRun (runId : ℕ)
  | selectApproval (approvalId : ℕ)
  | finishRun (runId : ℕ) (result : ActionResult)

abbrev ServiceAction.Answer : ServiceAction → Type
  | .selectRequest _ => Option ApprovalRequest
  | .expireRequest _ => ApprovalRequest
  | .getTicket _ _ => Bool
  | .decideRequest _ _ => Except ApprovalError Unit
  | .listRuns _ => Option SmartActionRun
  | .runAction _ _ => ActionResult
  | .selectRun _ => Option SmartActionRun
  | .selectApproval _ => Option ApprovalRequest
  | .finishRun _ _ => Bool

/-- The clock and the tickets of a statement, and what an action returns. -/
structure ServiceInput where
  context : CallContext
  result : ActionResult

/-- The first of `list_smart_action_runs`, which come in descending order, for an approval. -/
def newestRun (s : Approvals.Store) (approvalId : ℕ) : Option SmartActionRun :=
  s.actionRuns.table.rows.reverse.find? fun run => run.approvalId == some approvalId

/-- `update smart_action_runs set status = ?, output_json = ?, …`. -/
def finishSmartActionRun (rt : Runtime) (result : ActionResult) (now : String)
    (run : SmartActionRun) : SmartActionRun :=
  { run with
    status := result.status, output := rt.redactValue result.output,
    evidence := result.evidence.map rt.redactValue,
    errorDetail := rt.redactText result.errorDetail, updatedAt := now }

theorem finishSmartActionRun_id (rt : Runtime) (result : ActionResult) (now : String)
    (run : SmartActionRun) : (finishSmartActionRun rt result now run).id = run.id := rfl

def ServiceAction.answer (rt : Runtime) :
    (a : ServiceAction) → Workspace → ServiceInput → a.Answer × Workspace
  | .selectRequest approvalId, s, _ => (s.store.requests.find? approvalId, s)
  | .expireRequest row, s, input =>
      let (row, store) := expireApprovalRequest rt s.store row input.context.expiry
      (row, { s with store })
  | .getTicket _ ticketId, s, input =>
      ((input.context.tenancy.tickets.find? ticketId).any fun ticket =>
        ticket.clientId == quarantineClientId, s)
  | .decideRequest row update, s, input =>
      match decideSelected rt s.store row update input.context with
      | .ok store => (.ok (), { s with store })
      | .error e => (.error e, s)
  | .listRuns approvalId, s, _ => (newestRun s.store approvalId, s)
  | .runAction approvalId call, s, input =>
      (input.result, { s with calls := s.calls ++ [(call, s.store.requests.find? approvalId)] })
  | .selectRun runId, s, _ => (s.store.actionRuns.find? runId, s)
  | .selectApproval approvalId, s, _ => (s.store.requests.find? approvalId, s)
  | .finishRun runId result, s, input =>
      let now := rt.text input.context.now
      (s.store.actionRuns.table.rowcount (fun run => run.id == runId) == 1,
        { s with
          store := { s.store with
            actionRuns := s.store.actionRuns.update (fun run => run.id == runId)
              (finishSmartActionRun rt result now) (finishSmartActionRun_id rt result now) } })

abbrev Service := ExceptT ServiceError (Program ServiceAction ServiceAction.Answer)

def ask (a : ServiceAction) : Service a.Answer := ExceptT.lift (Program.perform a)

def raise {α : Type} (error : ApprovalError) : Service α := throw (.approval error)

def check (condition : Prop) [Decidable condition] (error : ApprovalError) : Service Unit :=
  if condition then raise error else pure ()

/-! ## Pending actions -/

/-- The arguments of `create_pending_smart_action`. -/
structure PendingAction where
  actionId : String
  actor : String
  payloadDigest : String
  output : JsonObject
  evidence : List JsonObject
  approvalPayload : JsonObject
  clientId : Option String := none
  expiresInSeconds : ℤ := defaultApprovalExpirySeconds

/-- The run of a pending action, before it is linked to its approval. -/
def PendingAction.run (rt : Runtime) (pending : PendingAction) (now : String) (id : ℕ) :
    SmartActionRun where
  id := id
  actionId := pending.actionId
  actor := pending.actor
  status := .pendingApproval
  payloadDigest := pending.payloadDigest
  output := rt.redactValue pending.output
  evidence := pending.evidence.map rt.redactValue
  approvalId := none
  createdAt := now
  updatedAt := now
  clientId := normalizeClientId pending.clientId

theorem PendingAction.run_id (rt : Runtime) (pending : PendingAction) (now : String) (id : ℕ) :
    (pending.run rt now id).id = id := rfl

def withRunId (payload : JsonObject) (runId : ℕ) : JsonObject :=
  if (payload.lookup "run_id").isSome then payload
  else payload.insert "run_id" (.other (toString runId))

def PendingAction.request (rt : Runtime) (pending : PendingAction) (runId : ℕ)
    (now expiresAt : String) (id : ℕ) : ApprovalRequest where
  id := id
  subjectId := toString runId
  actionType := "smart_action:" ++ pending.actionId
  payload := rt.redactValue (withRunId pending.approvalPayload runId)
  status := .pending
  comment := ""
  createdAt := now
  updatedAt := now
  clientId := normalizeClientId pending.clientId
  expiresAt := some expiresAt

theorem PendingAction.request_id (rt : Runtime) (pending : PendingAction) (runId : ℕ)
    (now expiresAt : String) (id : ℕ) :
    (pending.request rt runId now expiresAt id).id = id := rfl

/-- `set approval_id = ?, updated_at = ?`. -/
def linkApproval (approvalId : ℕ) (now : String) (run : SmartActionRun) : SmartActionRun :=
  { run with approvalId := some approvalId, updatedAt := now }

theorem linkApproval_id (approvalId : ℕ) (now : String) (run : SmartActionRun) :
    (linkApproval approvalId now run).id = run.id := rfl

def createPendingSmartAction (rt : Runtime) (s : Approvals.Store) (pending : PendingAction)
    (context : CallContext) : Except ApprovalError Approvals.Store := do
  let expiresAt ← approvalExpiryAt rt context.now pending.expiresInSeconds
  requireNotQuarantined context.tenancy (ticketIdFromPayload pending.approvalPayload)
  let now := rt.text context.now
  let runId := s.actionRuns.lastKey + 1
  let approvalId := s.requests.lastKey + 1
  let inserted := s.actionRuns.insert (pending.run rt now) (pending.run_id rt now)
  return { s with
    requests := s.requests.insert (pending.request rt runId now expiresAt)
      (pending.request_id rt runId now expiresAt)
    actionRuns := inserted.update (fun run => run.id == runId) (linkApproval approvalId now)
      (linkApproval_id approvalId now) }

/-! ## Authority -/

def isQuarantined (site : CallSite) (ticketId : Option String) : Service Bool :=
  match ticketId with
  | none => pure false
  | some ticketId => ask (.getTicket site ticketId)

/-- The approver, once it is named and is a technician or more. -/
def requireApprover (approver : Option String) (role : Option Access.Role) : Service String :=
  match approver.filter fun name => Text.strip name != "" with
  | none => raise (.permissionError "approver is required")
  | some name =>
      if role.any fun r => Access.Role.technician ≤ r then pure name
      else raise (.permissionError "approver must have technician or admin authority")

def SmartActionManifest.role (manifest : SmartActionManifest) : Access.Role :=
  if Text.lower (Text.strip manifest.requiredRole) = "admin" then .admin else .technician

def requireActionRole (manifest : SmartActionManifest) (role : Option Access.Role) :
    Service Unit :=
  check (¬ role.any fun r => manifest.role ≤ r) (.permissionError
    s!"{manifest.actionId} approval requires {manifest.role.label} authority")

def requireRegisteredRole (registry : Registry) (actionId : String) (role : Option Access.Role) :
    Service Unit :=
  match registry actionId with
  | some manifest => requireActionRole manifest role
  | none => pure ()

/-- The role that a decision takes: only an approval asks for that of the action. -/
def requireDecisionRole (registry : Registry) (actionId status : String)
    (role : Option Access.Role) : Service Unit :=
  if status = "approved" then requireRegisteredRole registry actionId role else pure ()

def actionIdOf (row : ApprovalRequest) : String :=
  String.ofList (row.actionType.toList.drop "smart_action:".toList.length)

/-! ## Completion -/

def getApproval (rt : Runtime) (approvalId : ℕ) : Service (Option ApprovalRequest) := do
  match ← ask (.selectRequest approvalId) with
  | none => return none
  | some row => do
      let row ← ask (.expireRequest row)
      return some (row.redacted rt)

/-- The statuses that `complete_smart_action_run` accepts. -/
def completable : ActionStatus → Bool
  | .success | .providerNotConfigured | .failed | .rejected => true
  | .notAuthorized | .pendingApproval => false

/-- The part of `complete_smart_action_run` that looks at the approval and finishes the run. -/
def finishUnderApproval (runId : ℕ) (result : ActionResult) (approvalId : ℕ)
    (approverId : String) : Service Unit := do
  match ← ask (.selectApproval approvalId) with
  | none => raise (.permissionError
      "smart action completion requires a linked smart-action approval")
  | some approval => do
      check (¬ approval.isSmartAction) (.permissionError
        "smart action completion requires a linked smart-action approval")
      check (approval.status ≠ .approved ∧ approval.status ≠ .rejected)
        (.permissionError "smart action completion requires a completed approval")
      check (approval.approverId.getD "" ≠ approverId)
        (.permissionError "smart action completion requires the approval approver")
      let updated ← ask (.finishRun runId result)
      check (¬ updated) (.keyError runId)

/-- `Store.complete_smart_action_run`, up to its closing read of the run. -/
def completeSmartActionRun (runId : ℕ) (result : ActionResult) (approvalId : ℕ)
    (approverId : String) : Service Unit := do
  match ← ask (.selectRun runId) with
  | none => raise (.keyError runId)
  | some current => do
      check (current.status ≠ .pendingApproval)
        (.permissionError "smart action run has already completed")
      check (¬ completable result.status)
        (.valueError "invalid smart action run completion status")
      check (current.approvalId ≠ some approvalId ∨ approverId = "") (.permissionError
        "smart action completion requires its linked approval and approver")
      finishUnderApproval runId result approvalId approverId

def failed (detail : String) : ActionResult := { status := .failed, errorDetail := detail }

def storedActionStatus : ActionStatus → ActionStatus
  | .success => .success
  | .failed => .failed
  | .providerNotConfigured => .providerNotConfigured
  | .rejected => .rejected
  | _ => .failed

/-- The stored output of a run under some status. -/
def storedResult (run : SmartActionRun) (status : ActionStatus) (approvalId : ℕ)
    (errorDetail : String) : ActionResult where
  status := status
  output := run.output
  evidence := run.evidence
  errorDetail := errorDetail
  runId := some run.id
  approvalId := some approvalId

/-- `_redact_result`, after the mark of an approved success. -/
def approvedResult (rt : Runtime) (result : ActionResult) : ActionResult :=
  let output :=
    if result.status = .success then result.output.insert "approved" (.other "true")
    else result.output
  { result with
    output := rt.redactValue output, evidence := result.evidence.map rt.redactValue }

def approvedPayload (approval : ApprovalRequest) : Option ActionPayload :=
  match approval.payload.lookup "payload" with
  | some (.object payload) => some (payload.insert "_approval_completed" (.other "true"))
  | _ => none

/-- The call of the action: none, when its payload is malformed or the action not registered. -/
def callAction (registry : Registry) (approvalId : ℕ) (approval : ApprovalRequest)
    (run : SmartActionRun) : Service ActionResult :=
  let actionId := actionIdOf approval
  match approvedPayload approval, registry actionId with
  | none, _ => pure (failed "smart action approval payload is malformed")
  | some _, none => pure (failed s!"smart action {actionId} is not registered")
  | some payload, some _ => ask (.runAction approvalId
      { actionId, actor := run.actor, clientId := approval.clientId, payload })

def runApproved (rt : Runtime) (registry : Registry) (approvalId : ℕ)
    (approval : ApprovalRequest) (run : SmartActionRun) (approver : String)
    (role : Option Access.Role) : Service ActionResult := do
  requireRegisteredRole registry (actionIdOf approval) role
  let result ← callAction registry approvalId approval run
  let result := approvedResult rt result
  completeSmartActionRun run.id result approvalId approver
  return { result with runId := some run.id, approvalId := some approvalId }

def completeApproval (rt : Runtime) (registry : Registry) (approvalId : ℕ)
    (approver : Option String) (role : Option Access.Role) : Service (Option ActionResult) := do
  match (← getApproval rt approvalId).filter ApprovalRequest.isSmartAction with
  | none => return none
  | some approval => do
      match ← ask (.listRuns approvalId) with
      | none => throw (.missingRun s!"smart action run for approval {approvalId} not found")
      | some run => do
          if ← isQuarantined .completion (ticketIdFromPayload approval.payload) then
            return none
          else
            let approver ← requireApprover approver role
            check (approver = run.actor)
              (.permissionError "requesting actor cannot approve its own smart action")
            match approval.status with
            | .expired => return some (storedResult run .rejected approvalId "approval expired")
            | .rejected => do
                completeSmartActionRun run.id (storedResult run .rejected approvalId "") approvalId
                  approver
                return some (storedResult run .rejected approvalId "")
            | .pending => return some (storedResult run .pendingApproval approvalId "")
            | .approved =>
                if run.status ≠ .pendingApproval then
                  return some (storedResult run (storedActionStatus run.status) approvalId "")
                else
                  return some (← runApproved rt registry approvalId approval run approver role)

/-! ## Decisions -/

def storeUpdate (rt : Runtime) (update : UpdateRequest) : Service ApprovalRequest := do
  match ← ask (.selectRequest update.requestId) with
  | none => raise (.keyError update.requestId)
  | some row => do
      match ← ask (.decideRequest row update) with
      | .error e => raise e
      | .ok () => do
          match ← getApproval rt update.requestId with
          | some request => return request
          | none => raise (.runtimeError "approval request was not persisted")

/-- What `update_approval` does before it turns to the completion: the request, and whether it is
that of a smart action. -/
def decideApproval (rt : Runtime) (registry : Registry) (approvalId : ℕ) (status comment : String)
    (approver : Option String) (role : Option Access.Role) : Service (ApprovalRequest × Bool) := do
  match ← getApproval rt approvalId with
  | none => raise (.keyError approvalId)
  | some approval => do
      let ticketId := ticketIdFromPayload approval.payload
      let ticket := ticketId.getD ""
      let quarantined ← isQuarantined .update ticketId
      check quarantined
        (.quarantinedTicket s!"ticket {ticket} is quarantined pending client mapping")
      if approval.isSmartAction then
        let approver ← requireApprover approver role
        requireDecisionRole registry (actionIdOf approval) status role
        let updated ← storeUpdate rt
          { requestId := approvalId, status, comment, approverId := some approver,
            smartActionCapability := true }
        return (updated, true)
      else
        let updated ← storeUpdate rt
          { requestId := approvalId, status, comment, approverId := approver }
        return (updated, false)

def updateApproval (rt : Runtime) (registry : Registry) (approvalId : ℕ) (status comment : String)
    (approver : Option String) (role : Option Access.Role) : Service ApprovalRequest := do
  let (updated, smartAction) ←
    decideApproval rt registry approvalId status comment approver role
  if smartAction then
    let _ ← completeApproval rt registry approvalId approver role
    return (← getApproval rt approvalId).getD updated
  else return updated

/-! ## Resumption of an agent run -/

/-- What `AgentService.resume` reads of the run, whose pending step waits for the approval. -/
structure PausedRun where
  pendingApproval : Bool
  entityId : String
  actor : String

/-- The decision that `resume` takes on an approval that it finds pending. -/
def approvePending (rt : Runtime) (registry : Registry) (approval : ApprovalRequest)
    (approvalId : ℕ) (approver : String) (role : Access.Role) : Service Unit :=
  if approval.status = .pending then do
    let _ ← updateApproval rt registry approvalId "approved" "" (some approver) (some role)
  else pure ()

/-- `AgentService.resume`, up to the result of the approved action. The steps after it invoke other
tools. -/
def resume (rt : Runtime) (registry : Registry) (run : PausedRun) (approvalId : ℕ)
    (approver : String) (role : Access.Role) : Service (Option ActionResult) := do
  if !run.pendingApproval then return none
  else if ← isQuarantined .resume (some run.entityId) then return none
  else
    check (approver = run.actor)
      (.permissionError "approver cannot approve the requesting actor's run")
    match ← getApproval rt approvalId with
    | none => throw (.agentDefinition "agent approval could not be found")
    | some approval => do
        approvePending rt registry approval approvalId approver role
        match ← completeApproval rt registry approvalId (some approver) (some role) with
        | none => throw (.agentDefinition "agent approval could not be completed")
        | some result => return some result

/-! ## Callers of one approval -/

inductive ServiceCall where
  | updateApproval (status comment : String) (approver : Option String)
      (role : Option Access.Role)
  | completeApproval (approver : Option String) (role : Option Access.Role)
  | resume (run : PausedRun) (approver : String) (role : Access.Role)

def ServiceCall.approver : ServiceCall → Option String
  | .updateApproval _ _ approver _ => approver
  | .completeApproval approver _ => approver
  | .resume _ approver _ => some approver

def ServiceCall.program (rt : Runtime) (registry : Registry) (approvalId : ℕ) :
    ServiceCall → Service Unit
  | .updateApproval status comment approver role => do
      let _ ← SmartActions.updateApproval rt registry approvalId status comment approver role
  | .completeApproval approver role => do
      let _ ← SmartActions.completeApproval rt registry approvalId approver role
  | .resume run approver role => do
      let _ ← SmartActions.resume rt registry run approvalId approver role

/-- Any interleaving of calls on an approval, from a store on which its action has not been run. -/
def approvalPool {W : Type} [DecidableEq W] (rt : Runtime) (registry : Registry)
    (store : Approvals.Store) (approvalId : ℕ) :
    Machine (Program.Pool W ServiceCall Workspace ServiceAction ServiceAction.Answer
      (Except ServiceError Unit)) (Program.PoolStep W ServiceCall ServiceInput) :=
  Program.pool (ServiceAction.answer rt) (fun call => call.program rt registry approvalId)
    { store, calls := [] }

end WaitLocalAgent.SmartActions
