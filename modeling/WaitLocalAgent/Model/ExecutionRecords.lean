import WaitLocalAgent.Foundation.Crew
import WaitLocalAgent.Model.Approvals

/-! # Execution records

The worker of `ExecutionRecorder.record_execution`, with a transaction for each store operation,
and the counts that are read from the records. -/

namespace WaitLocalAgent.Observability

open Foundation
open Approvals (JsonObject)

inductive RunKind where
  | workflow
  | smartAction
  | agent
  deriving DecidableEq, Repr

def RunKind.text : RunKind → String
  | workflow => "workflow"
  | smartAction => "smart_action"
  | agent => "agent"

structure ExecutionRun where
  id : ℕ
  runKind : RunKind
  sourceRunId : Option ℤ
  actor : String
  clientId : Option ClientId
  status : String
  startedAt : String
  finishedAt : String
  triggerSource : String
  metadataJson : String
  deriving DecidableEq

structure ExecutionStep where
  id : ℕ
  executionRunId : ℕ
  ordinal : ℕ
  kind : String
  name : String
  status : String
  startedAt : String
  finishedAt : String
  inputDigest : String
  outputDigest : String
  inputJson : String
  outputJson : String
  errorDetail : String
  deriving DecidableEq

structure ExecutionArtifact where
  id : ℕ
  executionRunId : ℕ
  stepOrdinal : Option ℕ
  name : String
  mediaType : String
  byteSize : ℕ
  sha256 : String
  storagePath : String
  deriving DecidableEq

structure Store where
  runs : AutoTable ExecutionRun.id
  steps : AutoTable ExecutionStep.id
  artifacts : AutoTable ExecutionArtifact.id

def Store.fresh : Store where
  runs := .empty
  steps := .empty
  artifacts := .empty

inductive RecordError where
  | keyError (id : ℕ)
  | runtimeError (message : String)
  /-- The database or the file system refuses. -/
  | storageError (message : String)
  deriving DecidableEq, Repr

structure StepRecord where
  kind : String
  name : String
  status : String
  input : Approvals.JsonValue
  output : Approvals.JsonValue
  errorDetail : String := ""
  startedAt : String := ""
  finishedAt : String := ""

structure ArtifactRecord where
  name : String
  mediaType : String
  content : List UInt8
  stepOrdinal : Option ℕ := none

/-- The arguments of `record_execution`, and the clock reading of its worker. -/
structure RecordCall where
  runKind : RunKind
  sourceRunId : Option ℤ
  actor : String
  status : String
  triggerSource : String
  clientId : Option String := none
  correlationId : Option String := none
  metadata : Option JsonObject := none
  steps : List StepRecord := []
  artifacts : List ArtifactRecord := []
  now : String

/-- Redaction with serialization, the check of correlation ids, the digest of an artifact with its
path, and `date` of the database. -/
structure Runtime where
  validCorrelationId : String → Bool
  jsonDumpsValue : JsonObject → String
  cappedPayloadJson : Approvals.JsonValue → String × String
  redactText : String → String
  sha256 : List UInt8 → String
  artifactPath : String → String
  date : String → Option String

/-- The row that `create_execution_run` inserts under `id`. -/
def RecordCall.row (rt : Runtime) (call : RecordCall) (metadata : Option JsonObject) (id : ℕ) :
    ExecutionRun where
  id := id
  runKind := call.runKind
  sourceRunId := call.sourceRunId
  actor := if Text.strip call.actor = "" then "system" else Text.strip call.actor
  clientId := normalizeClientId call.clientId
  status := call.status
  startedAt := call.now
  finishedAt := call.now
  triggerSource := call.triggerSource
  metadataJson := rt.jsonDumpsValue (metadata.getD ∅)

theorem RecordCall.row_id (rt : Runtime) (call : RecordCall) (metadata : Option JsonObject)
    (id : ℕ) : (call.row rt metadata id).id = id := rfl

def Store.findExecutionRun (s : Store) (runKind : RunKind) (sourceRunId : ℤ) :
    Option ExecutionRun :=
  s.runs.table.rows.reverse.find? fun r : ExecutionRun =>
    r.runKind == runKind && r.sourceRunId == some sourceRunId

/-- `set status = ?, finished_at = ?`. -/
def ExecutionRun.finish (status finishedAt : String) (r : ExecutionRun) : ExecutionRun :=
  { r with status, finishedAt }

theorem ExecutionRun.finish_id (status finishedAt : String) (r : ExecutionRun) :
    (r.finish status finishedAt).id = r.id := rfl

def Store.updateExecutionRun (s : Store) (id : ℕ) (status finishedAt : String) :
    Except RecordError Store :=
  if (s.runs.find? id).isSome then
    .ok { s with
      runs := s.runs.update (fun r => r.id = id) (ExecutionRun.finish status finishedAt)
        (ExecutionRun.finish_id status finishedAt) }
  else .error (.keyError id)

def Store.nextExecutionStepOrdinal (s : Store) (executionRunId : ℕ) : ℕ :=
  (((s.steps.table.rows.filter fun p : ExecutionStep =>
    p.executionRunId == executionRunId).map ExecutionStep.ordinal).max?.map (· + 1)).getD 0

/-- What a worker does to the store and to the artifact files, one transaction each. -/
inductive RecorderAction where
  | findExecutionRun (runKind : RunKind) (sourceRunId : ℤ)
  | updateExecutionRun (id : ℕ) (status finishedAt : String)
  | createExecutionRun (call : RecordCall) (metadata : Option JsonObject)
  | getExecutionRun (id : ℕ)
  | nextExecutionStepOrdinal (executionRunId : ℕ)
  | addExecutionStep (executionRunId ordinal : ℕ) (step : StepRecord) (now : String)
  | publishArtifact (content : List UInt8)
  | addExecutionArtifact (executionRunId : ℕ) (artifact : ArtifactRecord)
  | getExecutionArtifact (id : ℕ)

abbrev RecorderAction.Value : RecorderAction → Type
  | .findExecutionRun .. => Option ExecutionRun
  | .updateExecutionRun .. => Unit
  | .createExecutionRun .. => ℕ
  | .getExecutionRun _ => Option ExecutionRun
  | .nextExecutionStepOrdinal _ => ℕ
  | .addExecutionStep .. => Unit
  | .publishArtifact _ => Unit
  | .addExecutionArtifact .. => ℕ
  | .getExecutionArtifact _ => Option ExecutionArtifact

abbrev RecorderAction.Answer (a : RecorderAction) : Type := Except RecordError a.Value

def StepRecord.row (rt : Runtime) (step : StepRecord) (executionRunId ordinal : ℕ) (now : String)
    (id : ℕ) : ExecutionStep where
  id := id
  executionRunId := executionRunId
  ordinal := ordinal
  kind := step.kind
  name := step.name
  status := step.status
  startedAt := if step.startedAt = "" then now else step.startedAt
  finishedAt := if step.finishedAt = "" then now else step.finishedAt
  inputDigest := (rt.cappedPayloadJson step.input).2
  outputDigest := (rt.cappedPayloadJson step.output).2
  inputJson := (rt.cappedPayloadJson step.input).1
  outputJson := (rt.cappedPayloadJson step.output).1
  errorDetail := rt.redactText step.errorDetail

theorem StepRecord.row_id (rt : Runtime) (step : StepRecord) (executionRunId ordinal : ℕ)
    (now : String) (id : ℕ) : (step.row rt executionRunId ordinal now id).id = id := rfl

def ArtifactRecord.row (rt : Runtime) (artifact : ArtifactRecord) (executionRunId id : ℕ) :
    ExecutionArtifact where
  id := id
  executionRunId := executionRunId
  stepOrdinal := artifact.stepOrdinal
  name := artifact.name
  mediaType := artifact.mediaType
  byteSize := artifact.content.length
  sha256 := rt.sha256 artifact.content
  storagePath := rt.artifactPath (rt.sha256 artifact.content)

theorem ArtifactRecord.row_id (rt : Runtime) (artifact : ArtifactRecord)
    (executionRunId id : ℕ) : (artifact.row rt executionRunId id).id = id := rfl

def RecorderAction.perform (rt : Runtime) : (a : RecorderAction) → Store → a.Answer × Store
  | .findExecutionRun runKind sourceRunId, s => (.ok (s.findExecutionRun runKind sourceRunId), s)
  | .updateExecutionRun id status finishedAt, s =>
      match s.updateExecutionRun id status finishedAt with
      | .ok s' => (.ok (), s')
      | .error e => (.error e, s)
  | .createExecutionRun call metadata, s =>
      (.ok (s.runs.lastKey + 1),
        { s with runs := s.runs.insert (call.row rt metadata) (call.row_id rt metadata) })
  | .getExecutionRun id, s => (.ok (s.runs.find? id), s)
  | .nextExecutionStepOrdinal executionRunId, s =>
      (.ok (s.nextExecutionStepOrdinal executionRunId), s)
  | .addExecutionStep executionRunId ordinal step now, s =>
      (.ok (), { s with
        steps := s.steps.insert (step.row rt executionRunId ordinal now)
          (step.row_id rt executionRunId ordinal now) })
  | .publishArtifact _, s => (.ok (), s)
  | .addExecutionArtifact executionRunId artifact, s =>
      (.ok (s.artifacts.lastKey + 1), { s with
        artifacts := s.artifacts.insert (artifact.row rt executionRunId)
          (artifact.row_id rt executionRunId) })
  | .getExecutionArtifact id, s => (.ok (s.artifacts.find? id), s)

/-- Any action may be refused, and is then rolled back. -/
def RecorderAction.answer (rt : Runtime) (a : RecorderAction) (s : Store)
    (refusal : Option RecordError) : a.Answer × Store :=
  match refusal with
  | some e => (.error e, s)
  | none => a.perform rt s

abbrev RecorderProgram (α : Type) := Program RecorderAction RecorderAction.Answer α

/-- A worker ends with the first exception. -/
abbrev Recording (α : Type) := ExceptT RecordError (Program RecorderAction RecorderAction.Answer) α

def act (a : RecorderAction) : Recording a.Value := ExceptT.mk (Program.perform a)

/-- The end of `update_execution_run` and of `create_execution_run`. -/
def persisted (id : ℕ) : Recording ExecutionRun := do
  match ← act (.getExecutionRun id) with
  | some run => return run
  | none => throw (.runtimeError "execution run was not persisted")

def updateExecutionRun (id : ℕ) (status finishedAt : String) : Recording ExecutionRun := do
  act (.updateExecutionRun id status finishedAt)
  persisted id

def createExecutionRun (call : RecordCall) (metadata : Option JsonObject) :
    Recording ExecutionRun := do
  let id ← act (.createExecutionRun call metadata)
  persisted id

def recordSteps (executionRunId : ℕ) (now : String) : ℕ → List StepRecord → Recording Unit
  | _, [] => return ()
  | ordinal, step :: steps => do
      act (.addExecutionStep executionRunId ordinal step now)
      recordSteps executionRunId now (ordinal + 1) steps

def executionArtifactMaxBytes : ℕ := 4 * 1024 * 1024

def recordArtifact (executionRunId : ℕ) (artifact : ArtifactRecord) : Recording Unit :=
  if artifact.content.length > executionArtifactMaxBytes then return ()
  else do
    act (.publishArtifact artifact.content)
    let id ← act (.addExecutionArtifact executionRunId artifact)
    match ← act (.getExecutionArtifact id) with
    | some _ => return ()
    | none => throw (.runtimeError "execution artifact was not persisted")

def recordArtifacts (executionRunId : ℕ) : List ArtifactRecord → Recording Unit
  | [] => return ()
  | artifact :: artifacts => do
      recordArtifact executionRunId artifact
      recordArtifacts executionRunId artifacts

def RecordCall.effectiveMetadata (rt : Runtime) (call : RecordCall) : Option JsonObject :=
  let metadata := call.metadata.getD ∅
  let effective :=
    match call.correlationId.filter rt.validCorrelationId with
    | some correlationId => metadata.insert "correlation_id" (.text correlationId)
    | none => metadata
  if effective.entries = [] then none else some effective

def findExisting (call : RecordCall) : Recording (Option ExecutionRun) :=
  match call.sourceRunId with
  | some sourceRunId => act (.findExecutionRun call.runKind sourceRunId)
  | none => return none

/-- The record of the run, with the ordinal of its next step. -/
def recordRun (rt : Runtime) (call : RecordCall) : Option ExecutionRun → Recording (ℕ × ℕ)
  | some existing => do
      let run ← updateExecutionRun existing.id call.status call.now
      let ordinal ← act (.nextExecutionStepOrdinal existing.id)
      return (run.id, ordinal)
  | none => do
      let run ← createExecutionRun call (call.effectiveMetadata rt)
      return (run.id, 0)

def recordExecution (rt : Runtime) (call : RecordCall) : Recording ℕ := do
  let existing ← findExisting call
  let (runId, ordinal) ← recordRun rt call existing
  recordSteps runId call.now ordinal call.steps
  recordArtifacts runId call.artifacts
  return runId

abbrev Recorder := Crew RecordCall Store RecorderAction RecorderAction.Answer
  (Except RecordError ℕ)

abbrev RecorderStep := CrewStep RecordCall (Option RecordError)

/-- Any interleaving of the workers of `record_execution`: a caller waits for its worker at most
half a second, whatever that has done by then. -/
def recorder (rt : Runtime) : Machine Recorder RecorderStep :=
  Crew.machine (RecorderAction.answer rt) (fun call => (recordExecution rt call).run) .fresh

/-- The columns of `workflow_runs` and `smart_action_runs` that the counts read. -/
structure SourceRun where
  id : ℤ
  status : String
  createdAt : String
  clientId : Option ClientId
  deriving DecidableEq

structure SourceRuns where
  workflowRuns : Table SourceRun.id
  smartActionRuns : Table SourceRun.id

/-- A row of `all_runs`. -/
structure CountedRun where
  runKind : RunKind
  sourceRunId : Option ℤ
  status : String
  startedAt : String
  clientId : Option ClientId
  triggerSource : String
  deriving DecidableEq

def CountedRun.run (r : CountedRun) : RunKind × Option ℤ := (r.runKind, r.sourceRunId)

def ExecutionRun.run (r : ExecutionRun) : RunKind × Option ℤ := (r.runKind, r.sourceRunId)

def RecordCall.run (call : RecordCall) : RunKind × Option ℤ := (call.runKind, call.sourceRunId)

def ExecutionRun.counted (r : ExecutionRun) : CountedRun where
  runKind := r.runKind
  sourceRunId := r.sourceRunId
  status := r.status
  startedAt := r.startedAt
  clientId := r.clientId
  triggerSource := r.triggerSource

def SourceRun.counted (runKind : RunKind) (r : SourceRun) : CountedRun where
  runKind := runKind
  sourceRunId := some r.id
  status := r.status
  startedAt := r.createdAt
  clientId := r.clientId
  triggerSource := "source"

def SourceRuns.rows (sources : SourceRuns) : List CountedRun :=
  sources.workflowRuns.rows.map (SourceRun.counted .workflow) ++
    sources.smartActionRuns.rows.map (SourceRun.counted .smartAction)

def Store.allRuns (s : Store) (sources : SourceRuns) : List CountedRun :=
  s.runs.table.rows.map ExecutionRun.counted ++
    sources.rows.filter fun r => !s.runs.table.rows.any fun recorded => recorded.run == r.run

/-- A bound on `date(started_at)`; a date that is null meets none. -/
def withinBound (rt : Runtime) (le : String → String → Bool) (bound : Option String)
    (startedAt : String) : Bool :=
  match bound.filter (· != "") with
  | none => true
  | some bound =>
      match rt.date startedAt, rt.date bound with
      | some started, some bound => le started bound
      | _, _ => false

/-- `_execution_range_filters`, or the message of its `ValueError`. -/
def executionRangeFilters (rt : Runtime) (startedFrom startedTo : Option String)
    (clientId : ScopeArgument) : Except String (CountedRun → Bool) := do
  let admits ← clientId.admits
  return fun r => admits r.clientId &&
    withinBound rt (fun started bound => bound ≤ started) startedFrom r.startedAt &&
    withinBound rt (fun started bound => started ≤ bound) startedTo r.startedAt

structure ActivityCount where
  runKind : String
  triggerSource : String
  status : String
  count : ℕ
  deriving DecidableEq

/-- `group by run_kind, trigger_source, status`. -/
def CountedRun.activity (r : CountedRun) : String × String × String :=
  (r.runKind.text, r.triggerSource, r.status)

/-- `order by run_kind, trigger_source, status`. -/
def earlierActivity (a b : String × String × String) : Prop :=
  a.1 < b.1 ∨ a.1 = b.1 ∧ (a.2.1 < b.2.1 ∨ a.2.1 = b.2.1 ∧ a.2.2 ≤ b.2.2)

instance : DecidableRel earlierActivity := fun a b =>
  inferInstanceAs (Decidable (a.1 < b.1 ∨ a.1 = b.1 ∧ (a.2.1 < b.2.1 ∨
    a.2.1 = b.2.1 ∧ a.2.2 ≤ b.2.2)))

def activityCounts (rows : List CountedRun) : List ActivityCount :=
  ((rows.map CountedRun.activity).dedup.insertionSort earlierActivity).map fun activity =>
    { runKind := activity.1
      triggerSource := activity.2.1
      status := activity.2.2
      count := rows.countP fun r => r.activity = activity }

def executionActivityCounts (rt : Runtime) (s : Store) (sources : SourceRuns)
    (startedFrom startedTo : Option String) (clientId : ScopeArgument) :
    Except String (List ActivityCount) := do
  let filters ← executionRangeFilters rt startedFrom startedTo clientId
  return activityCounts ((s.allRuns sources).filter filters)

end WaitLocalAgent.Observability
