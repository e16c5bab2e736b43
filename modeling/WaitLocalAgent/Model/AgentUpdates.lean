import WaitLocalAgent.Foundation.Ledger
import WaitLocalAgent.Model.AgentCalls

/-! # Concurrent updates of agent definitions

`AgentService.create` and `AgentService.update` statement by statement: the definition is read by
the caller, then validated, and written in one transaction later. -/

namespace WaitLocalAgent.Agents

open Foundation Approvals

inductive AgentRead where
  | definition (agentId : String) (clientId : Option String)
  | validate (agentId : String) (clientId : Option ClientId) (request : DefinitionRequest)

abbrev AgentRead.Answer : AgentRead → Type
  | .definition _ _ => Option AgentDefinition
  | .validate _ _ _ => Except AgentError Unit

/-- The transactions of `create_agent_definition` and `update_agent_definition`. -/
inductive AgentWrite where
  | create (definition : AgentDefinition) (h : definition.version = 1)
  | update (existing definition : AgentDefinition) (h : definition.version = existing.version + 1)

def AgentRead.answer (rt : AgentRuntime) (s : Store) : (q : AgentRead) → q.Answer
  | .definition agentId clientId => getAgentDefinition s agentId clientId
  | .validate agentId clientId request => validateDefinition rt s agentId clientId request

def insertDefinition (rt : AgentRuntime) (s : Store) (definition : AgentDefinition) :
    Except AgentError Store :=
  match s.definitions.insert? (definition.stored rt) with
  | none => .error .integrityError
  | some definitions => insertAgentRevision rt { s with definitions } definition

def updateDefinition (rt : AgentRuntime) (s : Store) (definition : AgentDefinition) :
    Except AgentError Store := do
  raiseIf (s.definitions.rowcount (fun d => d.id == definition.id) ≠ 1) (.keyError definition.id)
  let definitions := s.definitions.update (fun d => d.id == definition.id)
    (definition.overwrite rt) (definition.overwrite_id rt)
  insertAgentRevision rt { s with definitions } definition

def AgentWrite.commit (rt : AgentRuntime) (s : Store) : AgentWrite → Except AgentError Store
  | .create definition _ => insertDefinition rt s definition
  | .update _ definition _ => updateDefinition rt s definition

abbrev AgentCall :=
  ExceptT AgentError (Program (LedgerAction AgentRead AgentWrite)
    (LedgerAction.Answer AgentError AgentRead.Answer))

def readAgents (q : AgentRead) : AgentCall q.Answer :=
  ExceptT.lift (Program.perform (LedgerAction.read q))

def writeAgents (write : AgentWrite) : AgentCall Unit :=
  ExceptT.mk (Program.perform (LedgerAction.write write))

def readBackAgent (agentId : String) : AgentCall AgentDefinition := do
  match ← readAgents (.definition agentId none) with
  | some definition => return definition
  | none => throw (.runtimeError "agent definition was not persisted")

def validateAgent (agentId : String) (clientId : Option ClientId) (request : DefinitionRequest) :
    AgentCall Unit := do
  match ← readAgents (.validate agentId clientId request) with
  | .ok () => return ()
  | .error e => throw e

theorem version_of_definition_eq_ok {rt : AgentRuntime} {request : DefinitionRequest}
    {id createdAt updatedAt : String} {clientId : Option ClientId} {version : ℕ}
    {definition : AgentDefinition}
    (h : request.definition rt id clientId version createdAt updatedAt = .ok definition) :
    definition.version = version := by
  simp only [DefinitionRequest.definition, bind_eq_ok, pure_eq_ok] at h
  obtain ⟨_, _, _, _, rfl⟩ := h
  rfl

def createAgent (rt : AgentRuntime) (request : DefinitionRequest) (clientId : Option String)
    (uuid : BitVec 128) (now : Instant) : AgentCall AgentDefinition := do
  let agentId := newAgentId uuid
  validateAgent agentId (normalizeClientId clientId) request
  match h : request.definition rt agentId (normalizeClientId clientId) 1 (rt.text now)
    (rt.text now) with
  | .error e => throw e
  | .ok definition => do
      writeAgents (.create definition (version_of_definition_eq_ok h))
      readBackAgent definition.id

/-- `AgentService.update`, for the definition that its caller has read. -/
def updateAgent (rt : AgentRuntime) (existing : AgentDefinition) (request : DefinitionRequest)
    (now : Instant) : AgentCall AgentDefinition := do
  validateAgent existing.id existing.clientId request
  match h : request.definition rt existing.id existing.clientId (existing.version + 1)
    existing.createdAt (rt.text now) with
  | .error e => throw e
  | .ok definition => do
      writeAgents (.update existing definition (version_of_definition_eq_ok h))
      readBackAgent definition.id

/-- A call on the agents; an update reads the definition first. -/
inductive AgentOperation where
  | create (request : DefinitionRequest) (clientId : Option String) (uuid : BitVec 128)
      (now : Instant)
  | update (agentId : String) (clientId : Option String) (request : DefinitionRequest)
      (now : Instant)

def AgentOperation.program (rt : AgentRuntime) : AgentOperation → AgentCall AgentDefinition
  | .create request clientId uuid now => createAgent rt request clientId uuid now
  | .update agentId clientId request now => do
      match ← readAgents (.definition agentId clientId) with
      | none => throw (.keyError agentId)
      | some existing => updateAgent rt existing request now

/-- The calls under way on the agents, with those that have changed a definition. -/
abbrev AgentPool (W : Type) :=
  Program.Watched W AgentOperation Store (LedgerAction AgentRead AgentWrite)
    (LedgerAction.Answer AgentError AgentRead.Answer) (Except AgentError AgentDefinition)

/-- Any interleaving of calls, from a store without definitions. -/
def agentCalls (W : Type) [DecidableEq W] (rt : AgentRuntime) :
    Machine (AgentPool W) (Program.PoolStep W AgentOperation Unit) :=
  Program.watched (LedgerAction.respond (fun q s => AgentRead.answer rt s q)
    fun write s => write.commit rt s) (fun call => (call.program rt).run) ⟨.empty, .empty⟩

end WaitLocalAgent.Agents

/-! ## The revisions that runs are resumed under

How a revision is read, the definition that a caller passes on for a run, and what the execution
of a run reads of its definition. -/

namespace WaitLocalAgent.AgentRuns

open Foundation Approvals Agents

/-- `_agent_definition_revision_from_row`, which redacts the snapshot once more. -/
def revisionFromRow (rt : AgentRuntime) (row : AgentDefinitionRevision) :
    AgentDefinitionRevision :=
  { row with definition := row.definition.snapshot rt }

def selectDefinitionRevision (s : Agents.Store) (agentId : String) (version : ℕ) :
    Option AgentDefinitionRevision :=
  s.revisions.table.rows.find? fun r => r.agentId == agentId && r.version == version

def getAgentDefinitionRevision (rt : AgentRuntime) (s : Agents.Store) (agentId : String)
    (version : ℕ) (clientId : Option ClientId) : Option AgentDefinitionRevision :=
  match clientId with
  | none => (selectDefinitionRevision s agentId version).map (revisionFromRow rt)
  | some c => (s.revisions.table.rows.find? fun r =>
      r.agentId == agentId && r.version == version && r.clientId == some c).map
        (revisionFromRow rt)

def Surroundings.reading (env : Surroundings) (rt : AgentRuntime) (s : Agents.Store) :
    Surroundings :=
  { env with
    answer := fun
      | .revision agentId version clientId =>
          getAgentDefinitionRevision rt s agentId version clientId
      | q => env.answer q }

def scopedDefinition (clientId : Option ClientId) (definition : AgentDefinition) :
    AgentDefinition :=
  { definition with clientId := definition.clientId.or clientId }

/-- What `_continue`, `_continue_result_aware` and `_execute_step_attempts` read of a definition,
with the approval rules and the selection of the next tool. -/
structure ExecutionFields where
  clientId : Option ClientId
  description : String
  enabledTools : List String
  steps : List AgentStep
  maxSteps : ℤ
  executionTimeoutSeconds : ℚ
  approvalExpirySeconds : Option ℤ
  resultAware : Bool
  approvalRequiredTools : List String
  approvalRules : List ApprovalRule
  deriving DecidableEq

def executionFields (definition : AgentDefinition) : ExecutionFields where
  clientId := definition.clientId
  description := definition.description
  enabledTools := definition.enabledTools
  steps := definition.steps
  maxSteps := definition.maxSteps
  executionTimeoutSeconds := definition.executionTimeoutSeconds
  approvalExpirySeconds := definition.approvalExpirySeconds
  resultAware := definition.resultAware
  approvalRequiredTools := definition.approvalRequiredTools
  approvalRules := definition.approvalRules

/-- `_definition_for_run`, for a definition that the caller has read, as what it returns with the
revisions of a store. -/
def definitionForRunIn (env : Surroundings) (rt : AgentRuntime) (s : Agents.Store)
    (runs : Workspace) (definition : AgentDefinition) (run : AgentRun) :
    Except RunError AgentDefinition :=
  ((definitionForRun definition run).run.exec
    (fun action state => action.answer state (env.reading rt s)) runs).1

end WaitLocalAgent.AgentRuns
