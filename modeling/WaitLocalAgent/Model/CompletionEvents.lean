import WaitLocalAgent.Model.EventDispatch

/-! # Completion events

A workflow run or scheduled agent run that ended completed is continued by an event on its ticket.
The runs themselves are outside: a start takes the next id of its table, and the producer that
started it gets the finished run back once. A run without an id, which a quarantined ticket
leaves, is turned away by every producer. -/

namespace WaitLocalAgent.Events

open Foundation

/-- The tables whose rows are runs; each counts its own ids. -/
inductive RunTable where
  | workflowRuns
  | agentRuns
  deriving DecidableEq, Repr

/-- `WorkflowRunStatus` and `AgentRunStatus`. -/
inductive RunStatus where
  | queued
  | pendingApproval
  | approved
  | completed
  | failed
  | rejected
  | cancelled
  deriving DecidableEq, Repr

/-- What a producer knows of a run that it got back. -/
structure FinishedRun where
  id : ℕ
  ticketId : String
  templateId : String
  status : RunStatus
  clientId : Option String

def completionKey (runId : ℕ) : String := s!"workflow-completed:{runId}"

def FinishedRun.event (run : FinishedRun) (actor : String) : DispatchRequest where
  eventType := "workflow.completed"
  entityType := "ticket"
  entityId := run.ticketId
  payload := (((∅ : Payload).insert "status" (.text "completed")).insert
    "workflow_template_id" (.text run.templateId)).insert
    "workflow_run_id" (.text (toString run.id))
  idempotencyKey := completionKey run.id
  clientId := run.clientId
  actor := actor

def dispatchCompletion (run : FinishedRun) : Option DispatchRequest :=
  if run.status ≠ .completed then none else some (run.event "scheduler")

/-- `_dispatch_workflow_completion_event` of the API, and that of the command line. -/
def dispatchWorkflowCompletionEvent (run : FinishedRun) (actor : String) :
    Option DispatchRequest :=
  if run.status ≠ .completed ∨ Text.strip run.ticketId = "" then none
  else some (run.event actor)

/-- Who waits for a run: a route, command or playbook route that runs workflows, a scheduled
workflow or playbook, or a scheduled agent. -/
inductive Producer where
  | api (actor : String)
  | scheduledWorkflow
  | scheduledAgent
  deriving DecidableEq

def Producer.table : Producer → RunTable
  | api _ | scheduledWorkflow => .workflowRuns
  | scheduledAgent => .agentRuns

def Producer.event? (producer : Producer) (run : FinishedRun) : Option DispatchRequest :=
  match producer with
  | api actor => dispatchWorkflowCompletionEvent run actor
  | scheduledWorkflow | scheduledAgent => dispatchCompletion run

/-- A run that ended completed, with the answer to its dispatch, if one was made. -/
structure Completion where
  table : RunTable
  runId : ℕ
  answer : Option (Except EventError EventDispatchResult)

def EventDispatchResult.createdId? (result : EventDispatchResult) : Option ℕ :=
  match result.delivery with
  | .inl _ => none
  | .inr delivery => if result.duplicate then none else some delivery.id

def Completion.deliveryId? (c : Completion) : Option ℕ :=
  match c.answer with
  | some (.ok result) => result.createdId?
  | some (.error _) => none
  | none => none

/-- The dispatcher, the counters of the run tables, the runs still out, and every run that ended
completed, in order. -/
structure Runs where
  world : World
  lastId : RunTable → ℕ
  running : List (RunTable × ℕ)
  completions : List Completion

inductive RunsCall where
  /-- A run is inserted into its table. -/
  | start (table : RunTable)
  /-- A producer gets its run back. -/
  | finish (env : DispatchEnv) (producer : Producer) (run : FinishedRun)
  | other (call : DispatcherCall)

namespace Runs

def start (s : Runs) (table : RunTable) : Runs :=
  let id := s.lastId table + 1
  { s with lastId := Function.update s.lastId table id, running := (table, id) :: s.running }

def complete (s : Runs) (env : DispatchEnv) (producer : Producer) (run : FinishedRun) : Runs :=
  match producer.event? run with
  | none => { s with completions := s.completions ++ [⟨producer.table, run.id, none⟩] }
  | some request =>
      let (world, answer) := dispatch env request s.world
      { s with
        world
        completions := s.completions ++ [⟨producer.table, run.id, some answer⟩] }

def finish (s : Runs) (env : DispatchEnv) (producer : Producer) (run : FinishedRun) : Runs :=
  if (producer.table, run.id) ∈ s.running then
    let s := { s with running := s.running.erase (producer.table, run.id) }
    if run.status = .completed then s.complete env producer run else s
  else s

def step (s : Runs) : RunsCall → Runs
  | .start table => s.start table
  | .finish env producer run => s.finish env producer run
  | .other call => { s with world := call.apply s.world }

end Runs

/-- Histories over an empty store. -/
def runs : Machine Runs RunsCall where
  init := ⟨⟨.empty, []⟩, fun _ => 0, [], []⟩
  step := Runs.step

end WaitLocalAgent.Events
