import WaitLocalAgent.Model.AgentCalls
import WaitLocalAgent.Model.ExecutionRecords

/-! # Recorded agent runs

`_finish` hands the steps of the run to the recorder, at every pause and at the end. -/

namespace WaitLocalAgent

open Foundation

namespace Observability

/-- `order by ordinal, id`. -/
def ExecutionStep.before (p q : ExecutionStep) : Prop :=
  p.ordinal < q.ordinal ∨ p.ordinal = q.ordinal ∧ p.id ≤ q.id

instance : DecidableRel ExecutionStep.before := fun p q =>
  inferInstanceAs (Decidable (p.ordinal < q.ordinal ∨ p.ordinal = q.ordinal ∧ p.id ≤ q.id))

def Store.listExecutionSteps (s : Store) (executionRunId : ℕ) : List ExecutionStep :=
  (s.steps.table.rows.filter fun p : ExecutionStep =>
    p.executionRunId == executionRunId).insertionSort ExecutionStep.before

def Store.agentSteps (s : Store) (runId : ℕ) : List ExecutionStep :=
  (s.findExecutionRun .agent runId).elim [] fun run => s.listExecutionSteps run.id

/-- What a row says of its step. -/
structure StepContent where
  kind : String
  name : String
  status : String
  inputDigest : String
  outputDigest : String
  inputJson : String
  outputJson : String
  errorDetail : String
  deriving DecidableEq

def ExecutionStep.content (p : ExecutionStep) : StepContent where
  kind := p.kind
  name := p.name
  status := p.status
  inputDigest := p.inputDigest
  outputDigest := p.outputDigest
  inputJson := p.inputJson
  outputJson := p.outputJson
  errorDetail := p.errorDetail

def StepRecord.content (rt : Runtime) (step : StepRecord) : StepContent where
  kind := step.kind
  name := step.name
  status := step.status
  inputDigest := (rt.cappedPayloadJson step.input).2
  outputDigest := (rt.cappedPayloadJson step.output).2
  inputJson := (rt.cappedPayloadJson step.input).1
  outputJson := (rt.cappedPayloadJson step.output).1
  errorDetail := rt.redactText step.errorDetail

/-- A worker that nothing overlaps, on a database that refuses nothing. -/
def Store.record (rt : Runtime) (s : Store) (call : RecordCall) : Store :=
  ((recordExecution rt call).run.run (RecorderAction.answer rt) (fun _ => none) s).2.1

end Observability

namespace AgentRuns

open Approvals (ActionStatus JsonObject)
open Observability (RecordCall)

/-- A redaction that leaves what it has redacted as it is, beside what surrounds the recorder. -/
structure RecordingRuntime extends RunRuntime where
  recorder : Observability.Runtime

def RunStatus.text : RunStatus → String
  | queued => "queued"
  | pendingApproval => "pending_approval"
  | completed => "completed"
  | failed => "failed"
  | rejected => "rejected"
  | cancelled => "cancelled"

def StepStatus.text : StepStatus → String
  | action .success => "success"
  | action .providerNotConfigured => "provider_not_configured"
  | action .notAuthorized => "not_authorized"
  | action .failed => "failed"
  | action .pendingApproval => "pending_approval"
  | action .rejected => "rejected"
  | cancelled => "cancelled"

/-- The record that `_finish` makes of a step. Its payloads are given by their JSON. -/
def StepRecord.recorded (rt : RecordingRuntime) (step : StepRecord) : Observability.StepRecord where
  kind := "agent.tool"
  name := step.toolId
  status := step.status.text
  input := .other (rt.recorder.jsonDumpsValue step.input)
  output := .other (rt.recorder.jsonDumpsValue step.output)
  errorDetail := step.errorDetail

/-- What `_finish` passes to the recorder beside the run, its status and its steps. -/
structure RecorderContext where
  actor : String
  triggerSource : String
  clientId : Option String := none
  correlationId : Option String := none
  metadata : Option JsonObject := none
  now : String

/-- The call of the recorder for a run as `_finish` has written it. -/
def RunWrite.recordCall (rt : RecordingRuntime) (write : RunWrite) (runId : ℕ)
    (context : RecorderContext) : RecordCall where
  runKind := .agent
  sourceRunId := some runId
  actor := context.actor
  status := write.status.text
  triggerSource := context.triggerSource
  clientId := context.clientId
  correlationId := context.correlationId
  metadata := context.metadata
  steps := write.state.steps.map (StepRecord.recorded rt)
  now := context.now

/-- The write of `_finish`: the other ones leave a run queued between two steps. -/
def RunAction.finishing : RunAction → Option (ℕ × RunWrite)
  | .updateRun run write => if write.status = .queued then none else some (run.id, write)
  | _ => none

/-- The workspace of a call, with the write of its `_finish`. -/
structure FinishingCall where
  workspace : Workspace
  finished : Option (ℕ × RunWrite) := none

def finishingAnswer (a : RunAction) (c : FinishingCall) (env : Surroundings) :
    a.Answer × FinishingCall :=
  let (answer, workspace) := a.answer c.workspace env
  (answer, { workspace, finished := a.finishing.or c.finished })

/-- The runs, and what the recorder has kept of them. -/
structure RecordedRuns where
  workspace : Workspace
  records : Observability.Store

/-- A call of the service, and what it meets. -/
structure RecordedCall where
  call : RunCall
  inputs : ℕ → Surroundings
  context : RecorderContext

def RecordedRuns.after (rt : RecordingRuntime) (s : RecordedRuns) (c : RecordedCall) :
    RecordedRuns :=
  match (c.call.program rt.toRunRuntime).run.run finishingAnswer c.inputs
      { workspace := s.workspace } with
  | (.ok _, ⟨workspace, some (runId, write)⟩, _) =>
      { workspace
        records := s.records.record rt.recorder (write.recordCall rt runId c.context) }
  | (_, ⟨workspace, _⟩, _) => { s with workspace }

/-- The calls of the service one after the other, from an empty store. -/
def recordedRuns (rt : RecordingRuntime) : Machine RecordedRuns RecordedCall where
  init := { workspace := { runs := .empty, events := [] }, records := .fresh }
  step := RecordedRuns.after rt

/-- The steps that are listed of a run are those of its state, in this order. -/
def LogsEachStep (rt : RecordingRuntime) (s : RecordedRuns) (run : AgentRun) : Prop :=
  (s.records.agentSteps run.id).map Observability.ExecutionStep.content =
    run.state.steps.map fun step => (step.recorded rt).content rt.recorder

end AgentRuns

end WaitLocalAgent
