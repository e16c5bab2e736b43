import WaitLocalAgent.Model.AgentRuns

/-! # Calls on agent runs

`AgentService.run`, `resume` and `cancel`, and any interleaving of them. -/

namespace WaitLocalAgent.AgentRuns

open Foundation Approvals Agents
open SmartActions (ActionResult ServiceError)

/-- `_window_minutes`, of a window in the normalized form `HH:MM`. -/
def windowMinutes (value : String) : Option ℕ :=
  match value.toList with
  | [h, h', ':', m, m'] =>
      if h.isDigit ∧ h'.isDigit ∧ m.isDigit ∧ m'.isDigit ∧ [h, h'] < ['2', '4'] ∧
        [m, m'] < ['6', '0'] then
        some (((h.toNat - 48) * 10 + (h'.toNat - 48)) * 60 + (m.toNat - 48) * 10 + (m'.toNat - 48))
      else none
  | _ => none

/-- `execution_window_open`, up to the clock. -/
def windowOpen (start stop minutes : ℕ) : Bool :=
  if start < stop then start ≤ minutes ∧ minutes < stop else start ≤ minutes ∨ minutes < stop

def executionWindowOpen (definition : AgentDefinition) : Call Bool := do
  match definition.executionWindowStart with
  | none => return true
  | some start => do
      let minutes ← query (.localMinutes definition.executionWindowTimezone)
      match minutes, windowMinutes start, definition.executionWindowEnd.bind windowMinutes with
      | some minutes, some start, some stop => return windowOpen start stop minutes
      | _, _, _ => throw (.definition "agent execution window is invalid")

def RunState.correlated (rt : RunRuntime) (state : RunState) (correlationId : Option String) :
    RunState :=
  { state with
    correlationId := (correlationId.filter rt.validCorrelationId).or state.correlationId }

def newRun (rt : RunRuntime) (definition : AgentDefinition) (request : RunRequest)
    (state : RunState) (now : String) (id : ℕ) : AgentRun where
  id := id
  agentId := definition.id
  entityId := request.entityId
  actor := request.actor
  status := .queued
  currentStep := 0
  state := state.redacted rt.toAgentRuntime
  startedAt := now
  finishedAt := now
  revisionVersion := some definition.version
  clientId := definition.clientId

theorem newRun_id (rt : RunRuntime) (definition : AgentDefinition) (request : RunRequest)
    (state : RunState) (now : String) (id : ℕ) :
    (newRun rt definition request state now id).id = id := rfl

def createAgentRun (rt : RunRuntime) (definition : AgentDefinition) (request : RunRequest)
    (state : RunState) : Call AgentRun := do
  let now ← query .now
  match ← ask (.insertRun (newRun rt definition request state now)
    (newRun_id rt definition request state now)) with
  | .error e => throw e
  | .ok id => readBack (newRun rt definition request state now id)

/-- The ticket of a run, once it is found outside quarantine. -/
def requireTicket (definition : AgentDefinition) (entityId : String) : Call Unit := do
  match ← query (.ticket entityId definition.clientId) with
  | none => throw (.definition "ticket was not found in the agent scope")
  | some ticket =>
      check (ticket.clientId = quarantineClientId)
        (.quarantinedTicket s!"ticket {entityId} is quarantined pending client mapping")

def buildContext (definition : AgentDefinition) (entityId : String) : Call JsonObject := do
  match ← query (.context definition entityId) with
  | .ok context => return context
  | .error e => throw e

/-- What `run` does before the loop: its checks, and the new run with its state. -/
def beginRun (rt : RunRuntime) (definition : AgentDefinition) (request : RunRequest) :
    Call (AgentRun × RunState) := do
  check (¬ definition.enabled) (.definition "agent is disabled")
  let windowOpen ← executionWindowOpen definition
  check (¬ windowOpen) (.definition "agent execution window is closed")
  check (definition.entityType ≠ supportedEntityType)
    (.definition "agent entity_type is not supported")
  requireTicket definition request.entityId
  let context ← buildContext definition request.entityId
  let state : RunState :=
    { entityId := request.entityId
      input := rt.redactValue request.input
      context := context
      retryCount := request.retryCount
      actorRole := request.actorRole
      retryOfRunId := request.retryOfRunId }
  let state := state.correlated rt request.correlationId
  let run ← createAgentRun rt definition request state
  return (run, state)

def run (rt : RunRuntime) (definition : AgentDefinition) (request : RunRequest) :
    Call AgentExecutionResult := do
  let (run, state) ← beginRun rt definition request
  continueRun rt definition request.actor request.actorRole 0 run state

/-- The definition that a revision describes, for a run that was started under it. -/
def definitionOfRevision (definition : AgentDefinition) (run : AgentRun) (version : ℕ)
    (revision : AgentDefinitionRevision) : AgentDefinition :=
  { revision.definition with
    id := definition.id
    clientId := run.clientId
    version := version
    createdAt := definition.createdAt
    updatedAt := revision.createdAt
    approvalExpirySeconds :=
      revision.definition.approvalExpirySeconds.or definition.approvalExpirySeconds }

def selectRevision (definition : AgentDefinition) (run : AgentRun) (version : ℕ) :
    Call (Option AgentDefinitionRevision) := do
  match ← query (.revision run.agentId version run.clientId) with
  | some revision => return some revision
  | none =>
      if definition.clientId = run.clientId then query (.revision run.agentId version none)
      else return none

def definitionForRun (definition : AgentDefinition) (run : AgentRun) : Call AgentDefinition := do
  match run.revisionVersion.filter (· ≠ definition.version) with
  | none => return definition
  | some version =>
      match ← selectRevision definition run version with
      | some revision => return definitionOfRevision definition run version revision
      | none => throw (.definition "agent run definition revision is no longer available")

def pendingStep (state : RunState) : Call (ℕ × StepRecord × ℕ) :=
  match state.pendingApprovalStep with
  | none => throw (.definition "agent approval state is malformed")
  | some index =>
      match state.steps[index]? with
      | none => throw (.definition "agent approval state is malformed")
      | some record =>
          match record.approvalId with
          | none => throw (.definition "agent approval id is missing")
          | some approvalId => pure (index, record, approvalId)

/-- `smart_actions.update_approval`. -/
def decideApproval (run : AgentRun) (decision : ApprovalDecision) : Call Unit := do
  match ← ask (.decideApproval run decision) with
  | .ok () => return ()
  | .error e => throw (.service e)

def completeApproval (run : AgentRun) (approvalId : ℕ) (approver : String) (role : Access.Role) :
    Call ActionResult := do
  match ← ask (.completeApproval run approvalId approver role) with
  | .ok (some result) => return result
  | .ok none => throw (.definition "agent approval could not be completed")
  | .error e => throw (.service e)

/-- The result of the approved action, which is approved first when nobody has decided on it. -/
def approvedResult (run : AgentRun) (approvalId : ℕ) (approver : String) (role : Access.Role) :
    Call ActionResult := do
  match ← query (.approvalStatus approvalId) with
  | none => throw (.definition "agent approval could not be found")
  | some status => do
      if status = .pending then
        decideApproval run { approvalId, status := "approved", approver, approverRole := role }
        completeApproval run approvalId approver role
      else completeApproval run approvalId approver role

/-- The state once the pending step has its result. -/
def RunState.settle (rt : RunRuntime) (state : RunState) (index : ℕ) (record : StepRecord)
    (result : ActionResult) : RunState :=
  { state with
    steps := state.steps.set index (record.applyResult rt.toAgentRuntime result)
    pendingApprovalStep := none }

/-- What `resume` does once it has the result of the approved action. -/
def resumeWith (rt : RunRuntime) (definition : AgentDefinition) (run : AgentRun)
    (state : RunState) (result : ActionResult) : Call AgentExecutionResult :=
  if result.status = .success then
    continueRun rt definition run.actor state.actorRole (run.currentStep + 1) run state
  else
    finish rt run (if result.status = .rejected then .rejected else .failed) run.currentStep state

/-- `resume` for a run that waits for an approval, on a ticket outside quarantine. -/
def resumePending (rt : RunRuntime) (definition : AgentDefinition) (run : AgentRun)
    (approver : String) (role : Access.Role) (correlationId : Option String) :
    Call AgentExecutionResult := do
  let definition ← definitionForRun definition run
  check (approver = run.actor)
    (.permissionError "approver cannot approve the requesting actor's run")
  let state := run.state.correlated rt correlationId
  let (index, record, approvalId) ← pendingStep state
  let result ← approvedResult run approvalId approver role
  resumeWith rt definition run (state.settle rt index record result) result

def isQuarantined (ticket : Option Tenancy.Ticket) : Bool :=
  ticket.any fun ticket => ticket.clientId == quarantineClientId

def resume (rt : RunRuntime) (definition : AgentDefinition) (run : AgentRun) (approver : String)
    (role : Access.Role) (correlationId : Option String) : Call AgentExecutionResult := do
  if run.status ≠ .pendingApproval then return resultOf run
  else
    let ticket ← query (.ticket run.entityId none)
    if isQuarantined ticket then return resultOf run
    else resumePending rt definition run approver role correlationId

/-- The rejection that `cancel` sends for an approval that is still pending. -/
def withdrawApproval (run : AgentRun) (approvalId : Option ℕ) (actor : String)
    (role : Access.Role) : Call Unit := do
  match approvalId with
  | none => return ()
  | some approvalId =>
      let status ← query (.approvalStatus approvalId)
      if status = some .pending then
        decideApproval run
          { approvalId, status := "rejected", comment := "Agent run cancelled",
            approver := if actor ≠ run.actor then actor else "system:cancellation",
            approverRole := role }
      else return ()

def RunState.cancelled (state : RunState) : RunState :=
  { state with
    steps := match state.pendingApprovalStep with
      | none => state.steps
      | some index => state.steps.modify index fun record =>
          { record with status := .cancelled, errorDetail := "agent run cancelled" }
    pendingApprovalStep := none
    errorDetail := some "agent run cancelled" }

def cancel (rt : RunRuntime) (definition : AgentDefinition) (run : AgentRun) (actor : String)
    (role : Access.Role) (correlationId : Option String) : Call AgentExecutionResult := do
  if run.status = .cancelled then return resultOf run
  else
    check (run.status ≠ .queued ∧ run.status ≠ .pendingApproval)
      (.definition "only queued or approval-paused runs can be cancelled")
    let _ ← definitionForRun definition run
    let state := run.state.correlated rt correlationId
    withdrawApproval run
      (do (← state.steps[← state.pendingApprovalStep]?).approvalId) actor role
    finish rt run .cancelled run.currentStep state.cancelled

/-- A call of the agent service. `resume` and `cancel` read the run before they are called. -/
inductive RunCall where
  | run (definition : AgentDefinition) (request : RunRequest)
  | resume (definition : AgentDefinition) (runId : ℕ) (approver : String) (role : Access.Role)
      (correlationId : Option String)
  | cancel (definition : AgentDefinition) (runId : ℕ) (actor : String) (role : Access.Role)
      (correlationId : Option String)

def getAgentRun (runId : ℕ) : Call AgentRun := do
  match ← ask (.selectRun runId) with
  | some run => return run
  | none => throw (.notFound "agent run not found")

def RunCall.program (rt : RunRuntime) : RunCall → Call AgentExecutionResult
  | .run definition request => AgentRuns.run rt definition request
  | .resume definition runId approver role correlationId => do
      AgentRuns.resume rt definition (← getAgentRun runId) approver role correlationId
  | .cancel definition runId actor role correlationId => do
      AgentRuns.cancel rt definition (← getAgentRun runId) actor role correlationId

/-- A call that may execute a tool of a run, as it was answered. -/
inductive ToolEvent where
  | invoked (runId : ℕ) (call : ToolCall) (result : Except InvokeError ActionResult)
  | decided (runId : ℕ) (decision : ApprovalDecision) (result : Except ServiceError Unit)
  | completed (runId approvalId : ℕ) (result : Except ServiceError (Option ActionResult))

def ToolEvent.runId : ToolEvent → ℕ
  | .invoked runId _ _ => runId
  | .decided runId _ _ => runId
  | .completed runId _ _ => runId

/-- What the calls share: the runs, and the tools that were called so far. -/
structure Workspace where
  runs : AutoTable AgentRun.id
  events : List ToolEvent

/-- What an action finds outside the runs. -/
structure Surroundings where
  answer : (q : Query) → q.Answer
  invoked : Except InvokeError ActionResult
  decided : Except ServiceError Unit
  completed : Except ServiceError (Option ActionResult)

/-- `insert into agent_runs …`, in the transaction that checks the ticket. -/
def insertRow (runs : AutoTable AgentRun.id) (draft : ℕ → AgentRun) (h : ∀ n, (draft n).id = n)
    (quarantined : Bool) : Except RunError ℕ × AutoTable AgentRun.id :=
  let ticketId := (draft 0).entityId
  if quarantined then
    (.error (.quarantinedTicket s!"ticket {ticketId} is quarantined pending client mapping"), runs)
  else (.ok (runs.lastKey + 1), runs.insert draft h)

/-- `update agent_runs set … where id = ?`. -/
def updateRow (runs : AutoTable AgentRun.id) (runId : ℕ) (write : RunWrite) :
    Bool × AutoTable AgentRun.id :=
  (runs.table.rowcount (fun run => run.id == runId) == 1,
    runs.update (fun run => run.id == runId) write.apply write.apply_id)

def RunAction.answer :
    (a : RunAction) → Workspace → Surroundings → a.Answer × Workspace
  | .query q, s, env => (env.answer q, s)
  | .selectRun runId, s, _ => (s.runs.find? runId, s)
  | .insertRun draft h, s, env =>
      let (id, runs) := insertRow s.runs draft h
        (isQuarantined (env.answer (.ticket (draft 0).entityId none)))
      (id, { s with runs })
  | .invoke run call, s, env =>
      (env.invoked, { s with events := s.events ++ [.invoked run.id call env.invoked] })
  | .decideApproval run decision, s, env =>
      (env.decided, { s with events := s.events ++ [.decided run.id decision env.decided] })
  | .completeApproval run approvalId _ _, s, env =>
      (env.completed,
        { s with events := s.events ++ [.completed run.id approvalId env.completed] })
  | .updateRun run write, s, _ =>
      let (updated, runs) := updateRow s.runs run.id write
      (updated, { s with runs })
  | .readBack written, s, _ => (s.runs.find? written.id, s)

/-- Any interleaving of calls of the service, from any stored runs. -/
def runPool (W : Type) [DecidableEq W] (rt : RunRuntime) (runs : AutoTable AgentRun.id) :
    Machine (Program.Pool W RunCall Workspace RunAction RunAction.Answer
      (Except RunError AgentExecutionResult)) (Program.PoolStep W RunCall Surroundings) :=
  Program.pool RunAction.answer (RunCall.program rt) { runs, events := [] }

end WaitLocalAgent.AgentRuns
