import WaitLocalAgent.Model.AgentCalls

/-! # Sessions of an agent run

A run, and the calls that resume it, one after the other. What the tools return and which of their
calls wait for an approval is fixed beforehand, and every approval is granted. -/

namespace WaitLocalAgent.AgentRuns

open Foundation Approvals Agents
open SmartActions (ActionResult ServiceError)

/-- What surrounds a session. An outcome depends on the tools executed before, and is missing for a
tool that is not registered. `elapsed n` is what the time check after `n` others measures since the
call began. -/
structure Scenario where
  outcome : List String → String → Option ActionResult
  needsApproval : List String → String → Bool
  elapsed : ℕ → ℚ
  ticket : Option Tenancy.Ticket
  context : Except RunError JsonObject
  minutes : Option ℕ
  now : String
  outcome_status : ∀ executed toolId result, outcome executed toolId = some result →
    result.status ≠ .pendingApproval

/-- The same outcomes, with no approvals required and other measurements of time. -/
def Scenario.withoutApprovals (s : Scenario) (elapsed : ℕ → ℚ) : Scenario :=
  { s with needsApproval := fun _ _ => false, elapsed }

/-- A tool that waits for its approval, or was executed under it. -/
structure AwaitedTool where
  toolId : String
  result : Option ActionResult
  deriving DecidableEq

/-- The stored runs, the tools executed so far, those that approvals were asked for, and how often
the time was checked. -/
structure World where
  runs : AutoTable AgentRun.id
  executed : List String
  requests : List AwaitedTool
  checks : ℕ

/-- The results of `invoke` and `complete_approval` for a tool that waits. -/
def awaitingResult (approvalId : ℕ) : ActionResult :=
  { status := .pendingApproval, approvalId := some approvalId }

def AwaitedTool.status (request : AwaitedTool) : ApprovalStatus :=
  if request.result = none then .pending else .approved

def Scenario.query (s : Scenario) (w : World) : (q : Query) → q.Answer
  | .ticket _ _ => s.ticket
  | .context _ _ => s.context
  | .localMinutes _ => s.minutes
  | .elapsed => s.elapsed w.checks
  | .now => s.now
  | .revision _ _ _ => none
  | .approvalStatus approvalId => w.requests[approvalId]?.map AwaitedTool.status
  | .nextTool _ _ _ => none

/-- The world after a query. -/
def World.asked (w : World) : Query → World
  | .elapsed => { w with checks := w.checks + 1 }
  | _ => w

/-- `invoke`: the tool is executed, unless it waits for an approval. -/
def Scenario.invoke (s : Scenario) (w : World) (toolId : String) :
    Except InvokeError ActionResult × World :=
  match s.outcome w.executed toolId with
  | none => (.error .notRegistered, { w with executed := w.executed ++ [toolId] })
  | some result =>
      if s.needsApproval w.executed toolId then
        (.ok (awaitingResult w.requests.length),
          { w with requests := w.requests ++ [{ toolId, result := none }] })
      else (.ok result, { w with executed := w.executed ++ [toolId] })

/-- `update_approval`: the tool is executed once it is approved. -/
def Scenario.decide (s : Scenario) (w : World) (decision : ApprovalDecision) : World :=
  match w.requests[decision.approvalId]? with
  | some { toolId, result := none } =>
      if decision.status = "approved" then
        { w with
          executed := w.executed ++ [toolId]
          requests := w.requests.set decision.approvalId
            { toolId, result := s.outcome w.executed toolId } }
      else w
  | _ => w

def World.complete (w : World) (approvalId : ℕ) : Option ActionResult :=
  w.requests[approvalId]?.map fun request => request.result.getD (awaitingResult approvalId)

def Scenario.answer (s : Scenario) : (a : RunAction) → World → a.Answer × World
  | .query q, w => (s.query w q, w.asked q)
  | .selectRun runId, w => (w.runs.find? runId, w)
  | .insertRun draft h, w =>
      let (id, runs) := insertRow w.runs draft h (isQuarantined s.ticket)
      (id, { w with runs })
  | .invoke _ call, w => s.invoke w call.toolId
  | .decideApproval _ decision, w => (.ok (), s.decide w decision)
  | .completeApproval _ approvalId _ _, w => (.ok (w.complete approvalId), w)
  | .updateRun run write, w =>
      let (updated, runs) := updateRow w.runs run.id write
      (updated, { w with runs })
  | .readBack written, w => (w.runs.find? written.id, w)

/-- The world, and the run that the session is about. -/
structure Session where
  world : World
  runId : Option ℕ

inductive SessionCall where
  | run (request : RunRequest)
  | resume (approver : String) (role : Access.Role) (correlationId : Option String)

/-- The program of a call; there is nothing to resume when the run was refused. -/
def SessionCall.program (rt : RunRuntime) (definition : AgentDefinition) (runId : Option ℕ) :
    SessionCall → Call AgentExecutionResult
  | .run request => AgentRuns.run rt definition request
  | .resume approver role correlationId =>
      match runId with
      | some runId => RunCall.program rt (.resume definition runId approver role correlationId)
      | none => throw (.notFound "agent run not found")

def startedRun : Except RunError AgentExecutionResult → Option ℕ
  | .ok result => some result.runId
  | .error _ => none

def Session.step (rt : RunRuntime) (s : Scenario) (definition : AgentDefinition)
    (session : Session) (call : SessionCall) : Session :=
  let (result, world) := (call.program rt definition session.runId).run.exec s.answer session.world
  { world, runId := session.runId.or (startedRun result) }

def sessions (rt : RunRuntime) (s : Scenario) (definition : AgentDefinition)
    (runs : AutoTable AgentRun.id) : Machine Session SessionCall where
  init := { world := { runs, executed := [], requests := [], checks := 0 }, runId := none }
  step := Session.step rt s definition

def Session.status (session : Session) : Option RunStatus := do
  return (← session.world.runs.find? (← session.runId)).status

end WaitLocalAgent.AgentRuns

/-! ## The life of an agent run

A run and the calls that resume it, one after the other, whatever the model selects, the tools
return and the approvals bring. -/

namespace WaitLocalAgent.AgentRuns

open Foundation Agents

/-- What a run has shared so far, how often a tool was selected for it by calls that returned, and
the most that this came to while a call was under way. -/
structure Life where
  workspace : Workspace
  selections : ℕ
  most : ℕ

/-- The selections that an action makes: `_model_next_tool_id`. -/
def RunAction.selections : RunAction → ℕ
  | .query (.nextTool _ _ _) => 1
  | _ => 0

section Life

variable (rt : RunRuntime) (definition : AgentDefinition)

/-- The revision of a definition describes it, with the name and the description redacted. -/
def describing (revision : AgentDefinitionRevision) : AgentDefinitionRevision :=
  { revision with
    definition :=
      { definition with
        name := rt.redactText definition.name
        description := rt.redactText definition.description } }

/-- The surroundings of a run that was started under the definition: a revision is its own. -/
def Surroundings.under (env : Surroundings) : Surroundings :=
  { env with
    answer := fun
      | .revision agentId version clientId =>
          (env.answer (.revision agentId version clientId)).map (describing rt definition)
      | q => env.answer q }

def lifeAnswer (a : RunAction) (life : Life) (env : Surroundings) : a.Answer × Life :=
  let (answer, workspace) := a.answer life.workspace (env.under rt definition)
  (answer,
    { workspace
      selections := life.selections + a.selections
      most := max life.most (life.selections + a.selections) })

/-- A call that resumes the run, with the definition as it is stored by then. -/
structure ResumeCall where
  stored : AgentDefinition
  unchanged : stored.version = definition.version → stored = definition
  approver : String
  role : Access.Role
  correlationId : Option String

/-- The life after a call. One that raises leaves its last selections to the next call. -/
def Life.after (life : Life) (call : Call AgentExecutionResult) (inputs : ℕ → Surroundings) :
    Life :=
  match call.run.run (lifeAnswer rt definition) inputs life with
  | (.ok _, life', _) => life'
  | (.error _, life', _) => { life' with selections := life.selections }

/-- A run of the definition, and the calls that resume it. Its row is the next one of `runs`. -/
def lives (runs : AutoTable AgentRun.id) (request : RunRequest) (inputs : ℕ → Surroundings) :
    Machine Life (ResumeCall definition × (ℕ → Surroundings)) where
  init := Life.after rt definition
    { workspace := { runs, events := [] }, selections := 0, most := 0 }
    (run rt definition request) inputs
  step life := fun (call, inputs) => life.after rt definition
    (RunCall.program rt (.resume call.stored (runs.lastKey + 1) call.approver call.role
      call.correlationId)) inputs

end Life

end WaitLocalAgent.AgentRuns
