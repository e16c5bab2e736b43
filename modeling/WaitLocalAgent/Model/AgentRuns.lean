import WaitLocalAgent.Model.Agents
import WaitLocalAgent.Model.SmartActions

/-! # Agent runs

The rows of `agent_runs` and the loops that execute the steps of a definition, as programs. Their
atomic actions are the statements on the rows, the calls of tools and of approvals, and what they
read elsewhere. -/

namespace WaitLocalAgent.AgentRuns

open Foundation Approvals Agents
open SmartActions (ActionResult ServiceError)

/-! ## Rows -/

inductive RunStatus where
  | queued
  | pendingApproval
  | completed
  | failed
  | rejected
  | cancelled
  deriving DecidableEq, Repr

def RunStatus.isTerminal : RunStatus → Bool
  | .queued | .pendingApproval => false
  | .completed | .failed | .rejected | .cancelled => true

/-- The status of a step: that of its action, until the run is cancelled. -/
inductive StepStatus where
  | action (status : ActionStatus)
  | cancelled
  deriving DecidableEq, Repr

inductive ApprovalPolicy where
  | always
  | conditional (rule : ApprovalRule)
  deriving DecidableEq

structure StepRecord where
  index : ℕ
  toolId : String
  input : JsonObject
  agentContext : Option JsonObject
  approvalPolicy : Option ApprovalPolicy
  failurePolicy : Option FailurePolicy
  attempt : ℕ
  status : StepStatus
  output : JsonObject
  evidence : List JsonObject
  errorDetail : String
  actionRunId : Option ℕ
  approvalId : Option ℕ
  deriving DecidableEq

/-- `state_json`. -/
structure RunState where
  entityId : String
  input : JsonObject
  context : JsonObject
  steps : List StepRecord := []
  pendingApprovalStep : Option ℕ := none
  retryCount : ℕ := 0
  actorRole : Option Access.Role := none
  correlationId : Option String := none
  retryOfRunId : Option ℕ := none
  errorDetail : Option String := none
  failurePolicyTerminal : Option String := none
  deriving DecidableEq

structure AgentRun where
  id : ℕ
  agentId : String
  entityId : String
  actor : String
  status : RunStatus
  currentStep : ℕ
  state : RunState
  startedAt : String
  finishedAt : String
  revisionVersion : Option ℕ
  clientId : Option ClientId
  deriving DecidableEq

structure AgentExecutionResult where
  runId : ℕ
  agentId : String
  status : RunStatus
  currentStep : ℕ
  steps : List StepRecord
  approvalId : Option ℕ := none
  errorDetail : String := ""
  revisionVersion : Option ℕ := none
  deriving DecidableEq

/-- The arguments of `run`. -/
structure RunRequest where
  entityId : String
  actor : String
  input : JsonObject := ∅
  retryCount : ℕ := 0
  retryOfRunId : Option ℕ := none
  actorRole : Option Access.Role := none
  correlationId : Option String := none

/-- What surrounds a run: `valid_correlation_id` beside the rest. -/
structure RunRuntime extends AgentRuntime where
  validCorrelationId : String → Bool

inductive RunError where
  | definition (message : String)
  | agent (error : AgentError)
  | quarantinedTicket (message : String)
  | permissionError (message : String)
  | keyError (runId : ℕ)
  | runtimeError (message : String)
  | notFound (message : String)
  | service (error : ServiceError)
  | raised (message : String)
  deriving DecidableEq, Repr

/-! ## Atomic actions -/

/-- A call of `SmartActionService.invoke`, and which attempt of its step it is. -/
structure ToolCall where
  toolId : String
  payload : JsonObject
  agentContext : Option JsonObject
  actor : String
  clientId : Option ClientId
  approvalExpirySeconds : Option ℤ
  requireApproval : Bool
  correlationId : Option String
  attempt : ℕ

/-- What `invoke` raises: `KeyError` for a tool that is not registered, and anything else. -/
inductive InvokeError where
  | notRegistered
  | raised (message : String)
  deriving DecidableEq, Repr

/-- A call of `SmartActionService.update_approval`. -/
structure ApprovalDecision where
  approvalId : ℕ
  status : String
  comment : String := ""
  approver : String
  approverRole : Access.Role

/-- The columns that `update_agent_run` sets. -/
structure RunWrite where
  status : RunStatus
  currentStep : ℕ
  state : RunState
  finishedAt : String

/-- What a call reads that is neither a run nor a tool. -/
inductive Query where
  | ticket (entityId : String) (clientId : Option ClientId)
  | context (definition : AgentDefinition) (entityId : String)
  | localMinutes (zone : String)
  | elapsed
  | now
  | revision (agentId : String) (version : ℕ) (clientId : Option ClientId)
  | approvalStatus (approvalId : ℕ)
  | nextTool (definition : AgentDefinition) (candidates completed : List String)

abbrev Query.Answer : Query → Type
  | .ticket _ _ => Option Tenancy.Ticket
  | .context _ _ => Except RunError JsonObject
  | .localMinutes _ => Option ℕ
  | .elapsed => ℚ
  | .now => String
  | .revision _ _ _ => Option AgentDefinitionRevision
  | .approvalStatus _ => Option ApprovalStatus
  | .nextTool _ _ _ => Option String

/-- An action on behalf of a run carries the run as its caller holds it. -/
inductive RunAction where
  | query (q : Query)
  | selectRun (runId : ℕ)
  | insertRun (draft : ℕ → AgentRun) (h : ∀ n, (draft n).id = n)
  | invoke (run : AgentRun) (call : ToolCall)
  | decideApproval (run : AgentRun) (decision : ApprovalDecision)
  | completeApproval (run : AgentRun) (approvalId : ℕ) (approver : String) (role : Access.Role)
  | updateRun (run : AgentRun) (write : RunWrite)
  | readBack (written : AgentRun)

abbrev RunAction.Answer : RunAction → Type
  | .query q => q.Answer
  | .selectRun _ => Option AgentRun
  | .insertRun _ _ => Except RunError ℕ
  | .invoke _ _ => Except InvokeError ActionResult
  | .decideApproval _ _ => Except ServiceError Unit
  | .completeApproval _ _ _ _ => Except ServiceError (Option ActionResult)
  | .updateRun _ _ => Bool
  | .readBack _ => Option AgentRun

abbrev Call := ExceptT RunError (Program RunAction RunAction.Answer)

def ask (a : RunAction) : Call a.Answer := ExceptT.lift (Program.perform a)

def query (q : Query) : Call q.Answer := ask (.query q)

def check (condition : Prop) [Decidable condition] (error : RunError) : Call Unit :=
  if condition then throw error else pure ()

/-! ## Redaction -/

def ApprovalPolicy.redacted (rt : AgentRuntime) : ApprovalPolicy → ApprovalPolicy
  | .always => .always
  | .conditional rule => .conditional (rule.redacted rt)

def StepRecord.redacted (rt : AgentRuntime) (step : StepRecord) : StepRecord :=
  { step with
    toolId := rt.redactText step.toolId
    input := rt.redactValue step.input
    agentContext := step.agentContext.map rt.redactValue
    approvalPolicy := step.approvalPolicy.map (ApprovalPolicy.redacted rt)
    failurePolicy := step.failurePolicy.map fun policy =>
      { policy with
        mode := rt.redactText policy.mode
        fallbackToolId := policy.fallbackToolId.map rt.redactText }
    output := rt.redactValue step.output
    evidence := step.evidence.map rt.redactValue
    errorDetail := rt.redactText step.errorDetail }

/-- `redact_value` of the state, which every write makes. -/
def RunState.redacted (rt : AgentRuntime) (state : RunState) : RunState :=
  { state with
    entityId := rt.redactText state.entityId
    input := rt.redactValue state.input
    context := rt.redactValue state.context
    steps := state.steps.map (StepRecord.redacted rt)
    correlationId := state.correlationId.map rt.redactText
    errorDetail := state.errorDetail.map rt.redactText
    failurePolicyTerminal := state.failurePolicyTerminal.map rt.redactText }

/-! ## Writes of a run -/

/-- `update agent_runs set status = ?, current_step = ?, state_json = ?, finished_at = ?`. -/
def RunWrite.apply (write : RunWrite) (run : AgentRun) : AgentRun :=
  { run with
    status := write.status, currentStep := write.currentStep, state := write.state,
    finishedAt := write.finishedAt }

theorem RunWrite.apply_id (write : RunWrite) (run : AgentRun) : (write.apply run).id = run.id := rfl

def readBack (written : AgentRun) : Call AgentRun := do
  match ← ask (.readBack written) with
  | some run => return run
  | none => throw (.runtimeError "agent run was not persisted")

def updateAgentRun (rt : RunRuntime) (run : AgentRun) (status : RunStatus) (currentStep : ℕ)
    (state : RunState) : Call AgentRun := do
  let finishedAt ← query .now
  let write : RunWrite :=
    { status, currentStep, state := state.redacted rt.toAgentRuntime, finishedAt }
  let updated ← ask (.updateRun run write)
  check (¬ updated) (.keyError run.id)
  readBack (write.apply run)

def resultOf (run : AgentRun) : AgentExecutionResult where
  runId := run.id
  agentId := run.agentId
  status := run.status
  currentStep := run.currentStep
  steps := run.state.steps
  approvalId := do (← run.state.steps[← run.state.pendingApprovalStep]?).approvalId
  errorDetail := run.state.errorDetail.getD ""
  revisionVersion := run.revisionVersion

def finish (rt : RunRuntime) (run : AgentRun) (status : RunStatus) (currentStep : ℕ)
    (state : RunState) : Call AgentExecutionResult := do
  let final ← updateAgentRun rt run status currentStep (state.redacted rt.toAgentRuntime)
  return resultOf final

/-! ## Steps -/

def stepFailurePolicy (step : AgentStep) : FailurePolicy := step.failurePolicy.getD {}

/-- What a failed step leads to. -/
inductive Directive where
  | fallback (toolId : String)
  | terminal (mode : String)
  deriving DecidableEq, Repr

/-- The directive of a step that has failed for the last time. -/
def directiveOf (policy : FailurePolicy) : Option Directive :=
  if policy.mode = "fallback" then some (.fallback (policy.fallbackToolId.getD "None"))
  else if policy.mode ≠ "stop" then some (.terminal policy.mode)
  else none

/-- What `_execute_step_attempts` returns: a record for every attempt. -/
structure StepAttempts where
  records : List StepRecord
  nonempty : records ≠ []
  result : ActionResult
  directive : Option Directive

def ticketField (ticket : Tenancy.Ticket) : String → String
  | "priority" => ticket.priority
  | "status" => ticket.status
  | _ => ""

/-- The conditions of a rule hold of the ticket and the actor. -/
def ApprovalRule.applies (rt : AgentRuntime) (ticket : Tenancy.Ticket)
    (actorRole : Option Access.Role) (rule : ApprovalRule) : Bool :=
  rule.conditions.all fun (field, values) =>
    if field = "actor_role" then actorRole.any fun role => values.contains role.label
    else values.contains (rt.casefold (Text.strip (ticketField ticket field)))

section Steps

variable (rt : RunRuntime) (definition : AgentDefinition) (actor : String)
  (actorRole : Option Access.Role)

def approvalPolicyForTicket (toolId entityId : String) : Call (Option ApprovalPolicy) := do
  if toolId ∈ definition.approvalRequiredTools then return some .always
  else if definition.approvalRules = [] then return none
  else
    match ← query (.ticket entityId definition.clientId) with
    | none => return none
    | some ticket =>
        match normalizeApprovalRules rt.toAgentRuntime definition.approvalRules none with
        | .error e => throw (.agent e)
        | .ok rules => return (rules.find? fun rule => rule.toolId == toolId &&
            ApprovalRule.applies rt.toAgentRuntime ticket actorRole rule).map .conditional

/-- The payload of a step: the input, overwritten by what the step configures. -/
def stepPayload (step : AgentStep) (run : AgentRun) (state : RunState) : JsonObject :=
  let payload := step.payload.union state.input
  if (payload.lookup "ticket_id").isSome then payload
  else payload.insert "ticket_id" (.text run.entityId)

/-- `if state.get("context"): payload["_agent_context"] = …`. -/
def stepContext (state : RunState) : Option JsonObject :=
  if state.context.entries = [] then none else some state.context

def stepCall (step : AgentStep) (run : AgentRun) (state : RunState)
    (approvalPolicy : Option ApprovalPolicy) (attempt : ℕ) : ToolCall where
  toolId := step.toolId
  payload := stepPayload step run state
  agentContext := stepContext state
  actor := actor
  clientId := definition.clientId
  approvalExpirySeconds := definition.approvalExpirySeconds
  requireApproval := approvalPolicy.isSome
  correlationId := state.correlationId.filter rt.validCorrelationId
  attempt := attempt

/-- `invoke`, with its `KeyError` caught. -/
def invokeTool (run : AgentRun) (call : ToolCall) : Call ActionResult := do
  match ← ask (.invoke run call) with
  | .ok result => return result
  | .error .notRegistered =>
      return { status := .failed, errorDetail := s!"tool {call.toolId} is not registered" }
  | .error (.raised message) => throw (.raised message)

def StepRecord.applyResult (rt : AgentRuntime) (record : StepRecord) (result : ActionResult) :
    StepRecord :=
  { record with
    status := .action result.status
    output := rt.redactValue result.output
    evidence := result.evidence.map rt.redactValue
    errorDetail := result.errorDetail
    actionRunId := result.runId
    approvalId := result.approvalId }

def stepRecord (step : AgentStep) (recordIndex attempt : ℕ) (call : ToolCall)
    (approvalPolicy : Option ApprovalPolicy) (result : ActionResult) : StepRecord :=
  StepRecord.applyResult rt.toAgentRuntime
    { index := recordIndex + attempt
      toolId := step.toolId
      input := rt.redactValue call.payload
      agentContext := call.agentContext.map rt.redactValue
      approvalPolicy := approvalPolicy
      failurePolicy :=
        if (stepFailurePolicy step).mode = "stop" then none else some (stepFailurePolicy step)
      attempt := attempt
      status := .action .failed
      output := ∅
      evidence := []
      errorDetail := ""
      actionRunId := none
      approvalId := none } result

def executeStepAttempts (run : AgentRun) (step : AgentStep) (recordIndex : ℕ) (state : RunState)
    (attempt : ℕ) (records : List StepRecord) : Call StepAttempts := do
  let approvalPolicy ←
    approvalPolicyForTicket rt definition actorRole step.toolId run.entityId
  let call := stepCall rt definition actor step run state approvalPolicy attempt
  let result ← invokeTool run call
  let record := stepRecord rt step recordIndex attempt call approvalPolicy result
  if result.status = .success ∨ result.status = .pendingApproval then
    return { records := records ++ [record], nonempty := by simp, result, directive := none }
  else if _hretry : (stepFailurePolicy step).mode = "retry" ∧
      (attempt : ℤ) < (stepFailurePolicy step).maxRetries then
    executeStepAttempts run step recordIndex state (attempt + 1) (records ++ [record])
  else
    return { records := records ++ [record], nonempty := by simp, result,
             directive := directiveOf (stepFailurePolicy step) }
termination_by ((stepFailurePolicy step).maxRetries - attempt).toNat

/-! ## The loop over the steps -/

/-- The first step with a tool: `next(… enumerate(definition.steps) …)`. -/
def stepOfTool (toolId : String) : Option (Fin definition.steps.length) :=
  (List.finRange definition.steps.length).find? fun i =>
    (definition.steps.get i).toolId = toolId

def queuedSteps (startStep : ℕ) : List (Fin definition.steps.length) :=
  (List.finRange definition.steps.length).filter fun i =>
    startStep ≤ i ∧ (i : ℤ) < definition.maxSteps

/-- The steps whose tools are still to be attempted. -/
def unattempted (attempted : List String) : List AgentStep :=
  definition.steps.filter fun step => step.toolId ∉ attempted

variable {definition} in
theorem length_unattempted_lt {index : Fin definition.steps.length} {attempted : List String}
    (h : (definition.steps.get index).toolId ∉ attempted) :
    (unattempted definition ((definition.steps.get index).toolId :: attempted)).length <
      (unattempted definition attempted).length := by
  have hfilter : unattempted definition ((definition.steps.get index).toolId :: attempted) =
      (unattempted definition attempted).filter fun step =>
        step.toolId ≠ (definition.steps.get index).toolId := by
    simp only [unattempted, List.filter_filter, List.mem_cons, not_or, Bool.decide_and]
  have hmem : definition.steps.get index ∈ unattempted definition attempted := by
    simpa [unattempted] using h
  rw [hfilter, List.length_filter_lt_length_iff_exists]
  exact ⟨_, hmem, by simp⟩

/-- `state["error_detail"]` and `state["failure_policy_terminal"]` of a fallback that is not
available. -/
def blocked (state : RunState) (toolId : String) : RunState :=
  { state with
    errorDetail :=
      some s!"configured fallback {toolId} was already attempted or unavailable"
    failurePolicyTerminal := some "blocked" }

def timedOut (state : RunState) : RunState :=
  { state with errorDetail := some "agent execution timed out" }

def notEnabled (state : RunState) (toolId : String) : RunState :=
  { state with errorDetail := some s!"tool {toolId} is not enabled for this agent" }

def RunState.extend (state : RunState) (attempts : StepAttempts) : RunState :=
  { state with steps := state.steps ++ attempts.records }

/-- The state of a run that waits for the approval of its last record. -/
def RunState.paused (state : RunState) : RunState :=
  { state with pendingApprovalStep := some (state.steps.length - 1) }

def RunState.resumed (state : RunState) : RunState := { state with pendingApprovalStep := none }

/-- How a run ends after a failed step without a fallback. -/
def finishFailed (run : AgentRun) (index : ℕ) (state : RunState) :
    Option Directive → Call AgentExecutionResult
  | some (.terminal mode) =>
      finish rt run .failed index { state with failurePolicyTerminal := some mode }
  | some (.fallback toolId) => finish rt run .failed index (blocked state toolId)
  | none => finish rt run .failed index state

/-- The step that a failed step falls back to, if it is there and has not been attempted. -/
def fallbackStep (attempted : List String) :
    Option Directive → Option (Fin definition.steps.length)
  | some (.fallback toolId) =>
      if toolId ∈ attempted then none else stepOfTool definition toolId
  | _ => none

/-- The loop of `_continue`, for a definition that is not result-aware. -/
def continueSteps (queued : List (Fin definition.steps.length)) (attempted : List String)
    (run : AgentRun) (state : RunState) : Call AgentExecutionResult :=
  match queued with
  | [] => finish rt run .completed definition.steps.length state
  | index :: queued => do
      let elapsed ← query .elapsed
      if definition.executionTimeoutSeconds ≤ elapsed then
        finish rt run .failed index (timedOut state)
      else if (definition.steps.get index).toolId ∉ definition.enabledTools then
        finish rt run .failed index (notEnabled state (definition.steps.get index).toolId)
      else if _hattempted : (definition.steps.get index).toolId ∈ attempted then
        continueSteps queued attempted run state
      else do
        let step := definition.steps.get index
        let attempts ←
          executeStepAttempts rt definition actor actorRole run step index state 0 []
        let state := state.extend attempts
        if attempts.result.status = .pendingApproval then
          finish rt run .pendingApproval index state.paused
        else if attempts.result.status = .success then do
          let run ← updateAgentRun rt run .queued (index + 1) state.resumed
          continueSteps queued ((definition.steps.get index).toolId :: attempted) run state.resumed
        else
          match fallbackStep definition (step.toolId :: attempted) attempts.directive with
          | none => finishFailed rt run index state attempts.directive
          | some fallback => do
              let run ← updateAgentRun rt run .queued index state
              continueSteps (fallback :: queued)
                ((definition.steps.get index).toolId :: attempted) run state
termination_by (unattempted definition attempted).length + queued.length
decreasing_by
  · simp
  · have := length_unattempted_lt _hattempted
    simp only [List.length_cons]
    omega
  · have := length_unattempted_lt _hattempted
    simp only [List.length_cons]
    omega

/-! ## The result-aware loop -/

/-- The steps that `_select_result_aware_step` chooses from. -/
def candidateSteps (state : RunState) : List AgentStep :=
  definition.steps.filter fun step =>
    step.toolId ∈ definition.enabledTools ∧ step.toolId ∉ state.steps.map StepRecord.toolId

/-- `_select_result_aware_step`: the model's choice, or else the first candidate. -/
def selectResultAwareStep (state : RunState) : Call (Option AgentStep) := do
  match candidateSteps definition state with
  | [] => return none
  | first :: others => do
      let selected ← query (.nextTool definition ((first :: others).map AgentStep.toolId)
        (state.steps.map StepRecord.toolId))
      return some (((selected.filter (· ≠ "")).bind fun toolId =>
        (first :: others).find? fun step => step.toolId == toolId).getD first)

/-- The step of a round: the fallback of the last one, or a selected one. -/
def nextResultAwareStep (fallback : Option AgentStep) (state : RunState) :
    Call (Option AgentStep) :=
  match fallback with
  | some step => pure (some step)
  | none => selectResultAwareStep definition state

def exceeded (state : RunState) (toolId : String) : RunState :=
  { state with
    errorDetail := some s!"configured fallback {toolId} exceeded the bounded step limit"
    failurePolicyTerminal := some "blocked" }

def resultAwareFallback (state : RunState) : Option Directive → AgentStep ⊕ RunState
  | some (.fallback toolId) =>
      if definition.maxSteps ≤ state.steps.length then .inr (exceeded state toolId)
      else if toolId ∈ state.steps.map StepRecord.toolId then .inr (blocked state toolId)
      else
        match definition.steps.find? fun step => step.toolId == toolId with
        | some step => .inl step
        | none => .inr (blocked state toolId)
  | some (.terminal mode) => .inr { state with failurePolicyTerminal := some mode }
  | none => .inr state

def continueResultAware (fallback : Option AgentStep) (run : AgentRun) (state : RunState) :
    Call AgentExecutionResult :=
  if _hsteps : (state.steps.length : ℤ) < definition.maxSteps then do
    let ordinal := state.steps.length
    let elapsed ← query .elapsed
    if definition.executionTimeoutSeconds ≤ elapsed then
      finish rt run .failed ordinal (timedOut state)
    else
      match ← nextResultAwareStep definition fallback state with
      | none => finish rt run .completed ordinal state
      | some step =>
          if step.toolId ∉ definition.enabledTools then
            finish rt run .failed ordinal (notEnabled state step.toolId)
          else do
            let attempts ←
              executeStepAttempts rt definition actor actorRole run step ordinal state 0 []
            if attempts.result.status = .pendingApproval then
              finish rt run .pendingApproval ordinal (state.extend attempts).paused
            else if attempts.result.status = .success then do
              let run ← updateAgentRun rt run .queued (state.extend attempts).steps.length
                (state.extend attempts).resumed
              continueResultAware none run (state.extend attempts).resumed
            else
              match resultAwareFallback definition (state.extend attempts) attempts.directive with
              | .inr failed => finish rt run .failed ordinal failed
              | .inl step => do
                  let run ← updateAgentRun rt run .queued (state.extend attempts).steps.length
                    (state.extend attempts)
                  continueResultAware (some step) run (state.extend attempts)
  else finish rt run .completed state.steps.length state
termination_by (definition.maxSteps - state.steps.length).toNat
decreasing_by
  all_goals
    have hlength := List.length_pos_of_ne_nil attempts.nonempty
    simp only [RunState.resumed, RunState.extend, List.length_append]
    omega

def continueRun (startStep : ℕ) (run : AgentRun) (state : RunState) : Call AgentExecutionResult :=
  if definition.resultAware then
    continueResultAware rt definition actor actorRole none run state
  else
    continueSteps rt definition actor actorRole (queuedSteps definition startStep) [] run state

end Steps

end WaitLocalAgent.AgentRuns
