import WaitLocalAgent.Foundation.Json
import WaitLocalAgent.Foundation.Postorder
import WaitLocalAgent.Model.AgentRuns

/-! # The supervisor

`execute_supervisor_delegation`: the checks on a delegation as a function of the request and the
stored runs, then the loop over the children as a program of calls of the agent service. -/

namespace WaitLocalAgent.Supervisor

open Foundation
open Agents (AgentDefinition)
open AgentRuns (RunStatus)

def maxChildAgents : ℕ := 8

def maxTaskText : ℕ := 2000

def maxInputKeys : ℕ := 16

def maxInputBytes : ℕ := 16000

def maxPriorResults : ℕ := 3

def maxResultBytes : ℕ := 8000

def maxSupervisorRetries : ℕ := 3

/-- `str.casefold`, redaction, and the length of `json.dumps` with sorted keys and no blanks. -/
structure SupervisorRuntime where
  casefold : String → String
  redactText : String → String
  redactValue : JsonFields → JsonFields
  dumpsLength : JsonFields → ℕ

/-- `SupervisorPlanError`, by its message. -/
inductive SupervisorPlanError where
  | authority
  | text (field : String) (maximum : ℕ)
  | controlCharacters (field : String)
  | identifier (field : String)
  | retryLimit
  | inputFields
  | inputFieldName
  | inputBytes
  | childCount
  | duplicateChildren
  | childNotFound (agentId : String)
  | childOutOfScope
  | dependencyCycle
  | dependencyDepth
  | dependencyNotSelected (agentId : String)
  | childDisabled (agentId : String)
  | cancelRunId
  | cancellationScope
  | cancellationStatus
  | completedRunIds
  | duplicateCompletedRuns
  | completedRunScope
  | completedRunStatus
  | completedRunRevision
  | completedRunState
  deriving DecidableEq, Repr

/-! ## Texts, limits and payloads -/

def text (value field : String) (maximum : ℕ) : Except SupervisorPlanError NormalizedText :=
  if h : Text.strip value = "" then .error (.text field maximum)
  else if (Text.strip value).length > maximum then .error (.text field maximum)
  else if (Text.strip value).toList.any fun character => character.toNat < 32 then
    .error (.controlCharacters field)
  else .ok ⟨Text.strip value, Text.strip_proper h⟩

def isIdentifierStart (c : Char) : Bool := c.isLower || c.isDigit

def isIdentifierPart (c : Char) : Bool :=
  isIdentifierStart c || c == '_' || c == '.' || c == ':' || c == '-'

def isIdentifier (value : String) : Bool :=
  match value.toList with
  | [] => false
  | c :: cs => isIdentifierStart c && cs.all isIdentifierPart && cs.length ≤ 63

def identifier (rt : SupervisorRuntime) (value field : String) :
    Except SupervisorPlanError String := do
  let normalized ← text value field 64
  if isIdentifier (rt.casefold normalized.val) then return rt.casefold normalized.val
  else throw (.identifier field)

def retryLimit (value : ℤ) : Except SupervisorPlanError ℕ :=
  if value < 0 ∨ (maxSupervisorRetries : ℤ) < value then .error .retryLimit
  else .ok value.toNat

def boundedPayload (rt : SupervisorRuntime) (payload : JsonFields) :
    Except SupervisorPlanError JsonFields := do
  raiseIf (payload.length > maxInputKeys) .inputFields
  raiseIf (payload.any fun (key, _) => Text.strip key == "" || key.length > 80) .inputFieldName
  let safe := rt.redactValue payload
  raiseIf (rt.dumpsLength safe > maxInputBytes) .inputBytes
  return safe

def boundedFinalResult (rt : SupervisorRuntime) (value : JsonValue) : JsonFields :=
  let safe := (value.fields?.map rt.redactValue).getD []
  if rt.dumpsLength safe ≤ maxResultBytes then safe else [("truncated", .bool true)]

/-! ## Plans -/

structure PlannedChild where
  id : String
  name : String
  enabled : Bool
  toolIds : List String
  dependsOnAgentIds : List String

structure Assignment where
  sequence : ℕ
  childAgentId : String
  clientId : ClientId

/-- What varies in a plan. -/
structure DelegationPlan where
  clientId : ClientId
  task : NormalizedText
  children : List PlannedChild
  assignments : List Assignment
  maxRetriesPerChild : ℕ

def available (definitions : List AgentDefinition) (agentId : String) : Option AgentDefinition :=
  definitions.reverse.find? fun d => d.id = agentId

/-- The body of the loop over the selected ids. -/
def planChild (tenant : ClientId) (definitions : List AgentDefinition) (selectedIds : List String)
    (childId : String) : Except SupervisorPlanError PlannedChild :=
  match available definitions childId with
  | none => .error (.childNotFound childId)
  | some definition =>
      if definition.clientId.isNone ∨ definition.clientId = some tenant then
        .ok
          { id := definition.id
            name := definition.name
            enabled := definition.enabled
            toolIds := definition.enabledTools
            dependsOnAgentIds :=
              definition.dependsOnAgentIds.filter fun id => selectedIds.contains id }
      else .error .childOutOfScope

def buildSupervisorDelegationPlan (rt : SupervisorRuntime) (clientId task : String)
    (childAgentIds : List String) (definitions : List AgentDefinition) (maxRetries : ℤ) :
    Except SupervisorPlanError DelegationPlan := do
  let tenant ← text clientId "client_id" 128
  let normalizedTask ← text task "task" maxTaskText
  let maxRetriesPerChild ← retryLimit maxRetries
  raiseIf (¬ (1 ≤ childAgentIds.length ∧ childAgentIds.length ≤ maxChildAgents)) .childCount
  let normalizedIds ← childAgentIds.mapM fun value => identifier rt value "child_agent_id"
  raiseIf (¬ normalizedIds.Nodup) .duplicateChildren
  let children ← normalizedIds.mapM (planChild tenant definitions normalizedIds)
  return {
    clientId := tenant
    task := normalizedTask
    children
    assignments := children.mapIdx fun index child => ⟨index + 1, child.id, tenant⟩
    maxRetriesPerChild }

def dependencies (definitions : List AgentDefinition) (agentId : String) :
    Except SupervisorPlanError (List String) :=
  match available definitions agentId with
  | none => .error (.childNotFound agentId)
  | some definition => .ok definition.dependsOnAgentIds

/-- `_dependency_order`; a visit takes a frame for every agent under way. -/
def dependencyOrder (selectedIds : List String) (definitions : List AgentDefinition) :
    Except SupervisorPlanError (List String) :=
  let selected agentId := raiseIf (agentId ∉ selectedIds) (.dependencyNotSelected agentId)
  match Postorder.postorder (dependencies definitions) selected (selectedIds.length + 1)
    selectedIds with
  | .ok order => .ok order
  | .error .cycle => .error .dependencyCycle
  | .error .depth => .error .dependencyDepth
  | .error (.raised e) => .error e

def scopedDefinition (definition : AgentDefinition) (clientId : ClientId) :
    Except SupervisorPlanError AgentDefinition :=
  match definition.clientId with
  | none => .ok { definition with clientId := some clientId }
  | some c => if c = clientId then .ok definition else .error .childOutOfScope

/-! ## Runs that are resumed or cancelled -/

/-- The columns of `agent_runs` that the supervisor reads; `state` is the value of `state_json`, if
that is JSON. -/
structure AgentRun where
  id : ℕ
  agentId : String
  entityId : String
  status : RunStatus
  currentStep : ℕ
  state : Option JsonValue
  revisionVersion : Option ℕ
  clientId : Option ClientId

def getAgentRun (runs : Table AgentRun.id) (runId : ℕ) (clientId : ClientId) : Option AgentRun :=
  (runs.find? runId).filter fun run => run.clientId = some clientId

structure Lineage where
  childAgentId : String
  sequence : ℕ
  attempt : ℕ
  retryOfRunId : Option ℕ := none

/-- A summary of one attempt; `none` is a missing key. -/
structure AttemptSummary where
  agentId : String
  runId : Option ℕ := none
  sequence : ℕ
  status : RunStatus
  currentStep : Option ℕ := none
  finalResult : Option JsonFields := none
  approvalId : Option ℕ := none
  errorDetail : Option String := none
  resumed : Bool := false
  attempt : Option ℕ := none
  retryOfRunId : Option ℕ := none
  lineage : Lineage

/-- An entry of `children`; the retry count is the number of attempts less one. -/
structure ChildSummary extends AttemptSummary where
  attempts : Option (List AttemptSummary) := none

/-- A summary of `_load_completed_runs`. -/
structure CompletedRun where
  agentId : String
  runId : ℕ
  currentStep : ℕ
  finalResult : JsonFields

def loadCompletedRun (rt : SupervisorRuntime) (runs : Table AgentRun.id)
    (definitions : List AgentDefinition) (entityId clientId : NormalizedText) (runId : ℕ) :
    Except SupervisorPlanError CompletedRun :=
  match getAgentRun runs runId clientId with
  | none => .error .completedRunScope
  | some run =>
      match definitions.find? fun d => d.id = run.agentId with
      | none => .error .completedRunScope
      | some definition =>
          if run.entityId ≠ entityId.val then .error .completedRunScope
          else if run.status ≠ .completed then .error .completedRunStatus
          else if run.revisionVersion.any fun version => version ≠ definition.version then
            .error .completedRunRevision
          else
            match run.state with
            | none => .error .completedRunState
            | some state =>
                let finalResult :=
                  (state.fields?.bind fun fields => JsonValue.get? fields "final_result").getD
                    (.object [])
                .ok
                  { agentId := run.agentId
                    runId := run.id
                    currentStep := run.currentStep
                    finalResult := boundedFinalResult rt finalResult }

/-- `_load_completed_runs`, over the scoped definitions of the selected agents; a later run of an
agent takes the place of an earlier one. -/
def loadCompletedRuns (rt : SupervisorRuntime) (runs : Table AgentRun.id) (runIds : List ℤ)
    (definitions : List AgentDefinition) (entityId clientId : NormalizedText) :
    Except SupervisorPlanError (List CompletedRun) := do
  raiseIf (runIds.length > maxChildAgents ∨ ∃ runId ∈ runIds, runId < 1) .completedRunIds
  raiseIf (¬ runIds.Nodup) .duplicateCompletedRuns
  runIds.mapM fun runId =>
    loadCompletedRun rt runs definitions entityId clientId runId.toNat

/-! ## Requests -/

/-- The arguments of `execute_supervisor_delegation`. -/
structure DelegationRequest where
  clientId : String
  entityId : String
  task : String
  childAgentIds : List String
  definitions : List AgentDefinition
  actor : String
  actorRole : Access.Role
  inputPayload : JsonFields := []
  completedRunIds : List ℤ := []
  maxRetries : ℤ := 0
  cancelRunId : Option ℤ := none

/-- The local variables with which the loop over the children starts: the scoped definitions in the
order of the selection, and the completed runs in the order of their ids. -/
structure Delegation where
  tenant : ClientId
  entityId : NormalizedText
  task : NormalizedText
  retryLimit : ℕ
  payload : JsonFields
  actor : String
  actorRole : Access.Role
  selectedIds : List String
  orderedIds : List String
  scopedDefinitions : List AgentDefinition
  cancellationTarget : Option AgentRun
  completed : List CompletedRun

def checkCancellation (runs : Table AgentRun.id) (selectedIds : List String)
    (entityId tenant : NormalizedText) (cancelRunId : ℤ) : Except SupervisorPlanError AgentRun :=
  if cancelRunId < 1 then .error .cancelRunId
  else
    match getAgentRun runs cancelRunId.toNat tenant with
    | none => .error .cancellationScope
    | some target =>
        if target.entityId ≠ entityId.val ∨ target.agentId ∉ selectedIds then
          .error .cancellationScope
        else if target.status ≠ .queued ∧ target.status ≠ .pendingApproval then
          .error .cancellationStatus
        else .ok target

/-- `execute_supervisor_delegation` up to its loop over the children. -/
def prepare (rt : SupervisorRuntime) (runs : Table AgentRun.id) (request : DelegationRequest) :
    Except SupervisorPlanError Delegation := do
  raiseIf (request.actorRole < .technician) .authority
  let tenant ← text request.clientId "client_id" 128
  let entityId ← text request.entityId "entity_id" 100
  let task ← text request.task "task" maxTaskText
  let maxRetries ← retryLimit request.maxRetries
  let payload ← boundedPayload rt request.inputPayload
  let plan ← buildSupervisorDelegationPlan rt tenant.val task.val request.childAgentIds
    request.definitions maxRetries
  let selectedIds := plan.children.map PlannedChild.id
  let orderedIds ← dependencyOrder selectedIds request.definitions
  let scopedDefinitions ← (selectedIds.filterMap (available request.definitions)).mapM
    fun definition => scopedDefinition definition tenant
  match scopedDefinitions.find? fun definition => !definition.enabled with
  | some definition => throw (.childDisabled definition.id)
  | none =>
      let cancellationTarget ← request.cancelRunId.mapM
        (checkCancellation runs selectedIds entityId tenant)
      let completed ← loadCompletedRuns rt runs request.completedRunIds scopedDefinitions
        entityId tenant
      return {
        tenant, entityId, task, retryLimit := maxRetries, payload, actor := request.actor
        actorRole := request.actorRole, selectedIds, orderedIds, scopedDefinitions
        cancellationTarget, completed }

/-! ## Calls of the agent service -/

/-- The `supervisor_context` of a child. -/
structure SupervisorContext where
  clientId : ClientId
  task : NormalizedText
  childAgentId : String
  sequence : ℕ
  attempt : ℕ
  priorResults : List ChildSummary
  retryOfRunId : Option ℕ := none

structure AgentExecutionResult where
  runId : ℕ
  status : RunStatus
  currentStep : ℕ
  finalResult : JsonValue
  approvalId : Option ℕ
  errorDetail : String

/-- The calls that the loop makes: the agent service's, which may raise, and a read of the store. -/
inductive SupervisorAction where
  | run (definition : AgentDefinition) (entityId : NormalizedText) (actor : String)
      (inputPayload : JsonFields) (context : SupervisorContext) (actorRole : Access.Role)
  | retry (definition : AgentDefinition) (priorRun : AgentRun) (actor : String)
      (actorRole : Access.Role) (context : SupervisorContext)
  | cancel (definition : AgentDefinition) (run : AgentRun) (actor : String)
      (approverRole : Access.Role)
  | getAgentRun (runId : ℕ) (clientId : ClientId)

/-- The outcome of a call, or the text of the exception that it raises. -/
abbrev SupervisorAction.Answer : SupervisorAction → Type
  | .run .. | .retry .. | .cancel .. => Except String AgentExecutionResult
  | .getAgentRun .. => Option AgentRun

abbrev Supervising := Program SupervisorAction SupervisorAction.Answer

def executionSummary (rt : SupervisorRuntime) (agentId : String) (result : AgentExecutionResult)
    (sequence attempt : ℕ) (retryOfRunId : Option ℕ) : AttemptSummary where
  agentId := agentId
  runId := some result.runId
  sequence := sequence
  status := result.status
  currentStep := some result.currentStep
  finalResult := some (boundedFinalResult rt result.finalResult)
  approvalId := result.approvalId
  errorDetail := some (String.ofList ((rt.redactText result.errorDetail).toList.take 500))
  attempt := some attempt
  retryOfRunId := retryOfRunId
  lineage := ⟨agentId, sequence, attempt, retryOfRunId⟩

def failureSummary (agentId : String) (sequence : ℕ) (attempt : Option ℕ)
    (runId retryOfRunId : Option ℕ) (message : String) : AttemptSummary where
  agentId := agentId
  runId := runId
  sequence := sequence
  status := .failed
  errorDetail := some (String.ofList (message.toList.take 500))
  attempt := attempt
  retryOfRunId := retryOfRunId
  lineage := ⟨agentId, sequence, attempt.getD 1, runId⟩

/-- The variables of the retry loop of a child. -/
structure Attempts where
  result : AgentExecutionResult
  summaries : List AttemptSummary
  executedCount : ℕ
  approvalRequestsCreated : Bool

namespace Delegation

variable (d : Delegation)

def ordered : List AgentDefinition :=
  d.orderedIds.filterMap fun id => d.scopedDefinitions.find? fun definition => definition.id = id

def completed? (agentId : String) : Option CompletedRun :=
  d.completed.reverse.find? fun run => run.agentId = agentId

def run (definition : AgentDefinition) (context : SupervisorContext) :
    Supervising (Except String AgentExecutionResult) :=
  Program.perform (SupervisorAction.run definition d.entityId d.actor d.payload context d.actorRole)

def retry (definition : AgentDefinition) (priorRun : AgentRun) (context : SupervisorContext) :
    Supervising (Except String AgentExecutionResult) :=
  Program.perform (SupervisorAction.retry definition priorRun d.actor d.actorRole context)

def cancel (definition : AgentDefinition) (target : AgentRun) :
    Supervising (Except String AgentExecutionResult) :=
  Program.perform (SupervisorAction.cancel definition target d.actor d.actorRole)

def storedRun (runId : ℕ) : Supervising (Option AgentRun) :=
  Program.perform (SupervisorAction.getAgentRun runId d.tenant)

/-- `while result.status == "failed" and len(attempts) <= retry_limit`; `remaining` is the number of
retries that the limit still allows. -/
def retries (rt : SupervisorRuntime) (definition : AgentDefinition) (context : SupervisorContext) :
    ℕ → Attempts → Supervising Attempts
  | 0, attempts => pure attempts
  | remaining + 1, attempts =>
      if attempts.result.status ≠ .failed then pure attempts
      else do
        let attempt := attempts.summaries.length + 1
        let summary := failureSummary definition.id context.sequence (some attempt)
        match ← d.storedRun attempts.result.runId with
        | none =>
            return { attempts with
              summaries := attempts.summaries ++ [summary (some attempts.result.runId) none
                "failed child run was not found for retry"] }
        | some priorRun =>
            match ← d.retry definition priorRun
              { context with attempt, retryOfRunId := some priorRun.id } with
            | .error message =>
                return { attempts with
                  summaries := attempts.summaries ++ [summary (some priorRun.id)
                    (some priorRun.id) (rt.redactText message)] }
            | .ok result =>
                retries rt definition context remaining
                  { result
                    summaries := attempts.summaries ++
                      [executionSummary rt definition.id result context.sequence attempt
                        (some priorRun.id)]
                    executedCount := attempts.executedCount + 1
                    approvalRequestsCreated :=
                      attempts.approvalRequestsCreated || result.approvalId.isSome }

end Delegation

/-- The variables of the loop over the children. -/
structure Progress where
  children : List ChildSummary := []
  priorByAgent : List (String × ChildSummary) := []
  executedCount : ℕ := 0
  approvalRequestsCreated : Bool := false

/-- What varies in the result of a delegation. -/
structure SupervisorExecution where
  status : RunStatus
  orderedChildAgentIds : List String
  children : List ChildSummary
  completedRunIds : List ℕ
  pendingRunId : Option ℕ
  nextChildAgentId : Option String
  executionStarted : Bool
  approvalRequestsCreated : Bool
  maxRetriesPerChild : ℕ

namespace Delegation

variable (d : Delegation)

/-- The result after the loop. -/
def finish (s : Progress) (status : RunStatus) (pendingRunId : Option ℕ)
    (nextChildAgentId : Option String) : SupervisorExecution where
  status := status
  orderedChildAgentIds := d.orderedIds
  children := s.children
  completedRunIds := s.children.filterMap fun child =>
    if child.status = .completed then child.runId else none
  pendingRunId := pendingRunId
  nextChildAgentId := nextChildAgentId
  executionStarted := s.executedCount ≠ 0 || !d.completed.isEmpty
  approvalRequestsCreated := s.approvalRequestsCreated
  maxRetriesPerChild := d.retryLimit

/-- A child whose run was completed before. -/
def resume (s : Progress) (sequence : ℕ) (run : CompletedRun) : Progress :=
  let summary : ChildSummary :=
    { agentId := run.agentId
      runId := some run.runId
      sequence
      status := .completed
      currentStep := some run.currentStep
      finalResult := some run.finalResult
      resumed := true
      attempt := some 1
      lineage := ⟨run.agentId, sequence, 1, none⟩ }
  { s with
    children := s.children ++ [summary]
    priorByAgent := (run.agentId, summary) :: s.priorByAgent }

/-- The branch of the loop for the agent whose run is to be cancelled. -/
def cancelChild (rt : SupervisorRuntime) (s : Progress) (sequence : ℕ)
    (definition : AgentDefinition) (target : AgentRun) : Supervising SupervisorExecution := do
  match ← d.cancel definition target with
  | .error message =>
      let summary := failureSummary definition.id sequence none none none (rt.redactText message)
      return d.finish { s with children := s.children ++ [{ summary with }] } .failed none
        (some definition.id)
  | .ok result =>
      let summary := executionSummary rt definition.id result sequence 1 none
      return d.finish
        { s with
          children := s.children ++ [{ summary with attempts := some [summary] }]
          executedCount := s.executedCount + 1
          approvalRequestsCreated := s.approvalRequestsCreated || result.approvalId.isSome }
        (if result.status = .cancelled then .cancelled else .failed)
        (if result.status = .pendingApproval then some result.runId else none)
        (some definition.id)

def context (s : Progress) (sequence : ℕ) (definition : AgentDefinition) : SupervisorContext where
  clientId := d.tenant
  task := d.task
  childAgentId := definition.id
  sequence := sequence
  attempt := 1
  priorResults := (definition.dependsOnAgentIds.filterMap fun id =>
    s.priorByAgent.lookup id).take maxPriorResults

/-- The rest of the loop body after a child that was run: its summary, and how it ended. -/
def record (s : Progress) (definition : AgentDefinition) (attempts : Attempts) : Progress :=
  let children := attempts.summaries.getLast?.toList.map fun last =>
    ({ last with attempts := some attempts.summaries } : ChildSummary)
  { children := s.children ++ children
    priorByAgent :=
      if attempts.result.status = .completed then
        children.map (fun child => (definition.id, child)) ++ s.priorByAgent
      else s.priorByAgent
    executedCount := s.executedCount + attempts.executedCount
    approvalRequestsCreated := s.approvalRequestsCreated || attempts.approvalRequestsCreated }

/-- The status of a delegation that stops at a child with this result. -/
def stopStatus (status : RunStatus) : RunStatus :=
  if status = .cancelled then .cancelled
  else if status = .pendingApproval then .pendingApproval
  else .failed

/-- The loop over the children that are left. -/
def delegate (rt : SupervisorRuntime) :
    List AgentDefinition → ℕ → Progress → Supervising SupervisorExecution
  | [], _, s => pure (d.finish s .completed none none)
  | definition :: rest, sequence, s =>
      match d.completed? definition.id with
      | some run => delegate rt rest (sequence + 1) (resume s sequence run)
      | none =>
          match d.cancellationTarget.filter fun target => target.agentId = definition.id with
          | some target => d.cancelChild rt s sequence definition target
          | none => do
              let context := d.context s sequence definition
              match ← d.run definition context with
              | .error message =>
                  let summary := failureSummary definition.id sequence (some 1) none none
                    (rt.redactText message)
                  return d.finish { s with children := s.children ++ [{ summary with }] } .failed
                    none (some definition.id)
              | .ok result =>
                  let attempts ← d.retries rt definition context d.retryLimit
                    { result
                      summaries := [executionSummary rt definition.id result sequence 1 none]
                      executedCount := 1
                      approvalRequestsCreated := result.approvalId.isSome }
                  let s := record s definition attempts
                  if attempts.result.status = .completed then delegate rt rest (sequence + 1) s
                  else
                    return d.finish s (stopStatus attempts.result.status)
                      (if attempts.result.status = .pendingApproval then
                        some attempts.result.runId else none)
                      (some definition.id)

end Delegation

def executeSupervisorDelegation (rt : SupervisorRuntime) (runs : Table AgentRun.id)
    (request : DelegationRequest) : Supervising (Except SupervisorPlanError SupervisorExecution) :=
  match prepare rt runs request with
  | .error e => pure (.error e)
  | .ok d => return .ok (← d.delegate rt d.ordered 1 {})

end WaitLocalAgent.Supervisor
