import WaitLocalAgent.Model.PlaybookDefinitions

/-! # Running a playbook

`run_msp_playbook`: the checks before a run as functions of the request and of what the store
answers, then the steps as a program over the store, the tools and the reports. -/

namespace WaitLocalAgent.Playbooks

open Foundation
open PlaybookDefinitions (Library MspPlaybookEntry ResolveError resolveEntry)

/-- Python tells `5` from `5.0`, and `True` from `1`. -/
abbrev Payload := List (String × JsonValue)

namespace Payload

def keys (payload : Payload) : List String := payload.map Prod.fst

def setDefault (payload : Payload) (key : String) (value : JsonValue) : Payload :=
  if key ∈ payload.keys then payload else payload ++ [(key, value)]

end Payload

/-- Redaction, which keeps the keys, the bytes of `json.dumps` with sorted keys and no blanks, and
the day of `date.fromisoformat`. -/
structure Runtime extends Library where
  redactValue : Payload → Payload
  keys_redactValue : ∀ payload, (redactValue payload).keys = payload.keys
  dumpsBytes : Payload → ℕ
  isoDate : String → Option ℤ

def Runtime.redactText (rt : Runtime) : String → String := Redaction.redactText rt.words

/-- An exception of the store, of a tool or of a report. -/
structure Raised where
  className : String
  message : String
  deriving DecidableEq, Repr

/-- What a call raises. `input` is the `ValueError` of a check on the payload. -/
inductive PlaybookError where
  | input (message : String)
  | valueError (message : String)
  | lookupError (id : String)
  | keyError (id : String)
  | permissionError (message : String)
  | runtimeError (message : String)
  | raised (exception : Raised)
  deriving DecidableEq, Repr

def PlaybookError.message : PlaybookError → String
  | keyError id => s!"'{id}'"
  | raised exception => exception.message
  | input message | valueError message | permissionError message | runtimeError message
  | lookupError message => message

def PlaybookError.className : PlaybookError → String
  | input _ | valueError _ => "ValueError"
  | lookupError _ => "LookupError"
  | keyError _ => "KeyError"
  | permissionError _ => "PermissionError"
  | runtimeError _ => "RuntimeError"
  | raised exception => exception.className

def PlaybookError.ofResolve : ResolveError → PlaybookError
  | .raised (.keyError id) => keyError id
  | .raised (.valueError message) => valueError message
  | .raised (.runtimeError message) => runtimeError message
  | .raised .integrityError => raised ⟨"IntegrityError", "UNIQUE constraint failed"⟩
  | .permissionError message => permissionError message

def resolveMspPlaybook (rt : Runtime) (playbookId : String) (entry : Option MspPlaybookEntry) :
    Except PlaybookError MspPlaybookDefinition :=
  (resolveEntry rt.toLibrary playbookId entry).mapError PlaybookError.ofResolve

/-! ## Checks on the payload -/

def boundedPlaybookPayload (rt : Runtime) (payload : Payload) : Except PlaybookError Payload := do
  raiseIf (payload.length > 24) (.input "playbook input may contain at most 24 fields")
  let safe := rt.redactValue payload
  raiseIf (rt.dumpsBytes safe > 12000) (.input "playbook input must be at most 12000 bytes")
  return safe

def int? : JsonValue → Option ℤ
  | .int value => some value
  | _ => none

/-- The field is an integer from `low` up to `high`, or missing where it has a default. -/
def integerBetween (payload : Payload) (key : String) (default low high : ℤ) : Bool :=
  match int? ((JsonValue.get? payload key).getD (.int default)) with
  | some value => decide (low ≤ value ∧ value ≤ high)
  | none => false

/-- `thresholds_minutes` maps priorities to positive minutes. -/
def thresholdsMinutes : Option JsonValue → Bool
  | some (.object thresholds) =>
      thresholds ≠ [] && thresholds.all fun (priority, minutes) =>
        Text.strip priority != "" && ((int? minutes).any fun value => decide (0 < value))
  | _ => false

/-- The check of `_bounded_workflow_payload` that is the template's own. -/
def checkTemplateInput (templateId : String) (payload : Payload) : Except PlaybookError Unit :=
  if templateId = "ticket-sla-risk-review" then
    raiseIf (thresholdsMinutes (JsonValue.get? payload "thresholds_minutes") = false)
      (.input "thresholds_minutes must map priorities to positive minutes")
  else if templateId = "stale-ticket-sweep-review" then
    raiseIf (((JsonValue.get? payload "stale_after_minutes").bind int?).any
        (fun value => decide (0 < value)) = false)
      (.input "stale_after_minutes must be a positive integer")
  else if templateId = "recurring-service-review" then
    raiseIf (integerBetween payload "follow_up_after_days" 14 1 90 = false)
      (.input "follow_up_after_days must be an integer between 1 and 90")
  else if templateId = "m365-compliance-review" ∨ templateId = "m365-inactive-license-review" then
    raiseIf (integerBetween payload "limit" 50 1 50 = false)
      (.input "limit must be an integer between 1 and 50")
  else .ok ()

def boundedWorkflowPayload (rt : Runtime) (template : WorkflowTemplate) (payload : Payload) :
    Except PlaybookError Payload := do
  raiseIf (payload.length > 16) (.input "workflow payload may contain at most 16 fields")
  let safe := rt.redactValue payload
  raiseIf (rt.dumpsBytes safe > 8000) (.input "workflow payload must be at most 8000 bytes")
  let missing := template.required.filter fun field => field ∉ safe.keys
  let names := ", ".intercalate missing
  raiseIf (missing ≠ []) (.input s!"workflow payload is missing required field(s): {names}")
  checkTemplateInput template.id safe
  return safe

def validateWorkflowInput (rt : Runtime) (templateId : String) (payload : Payload) :
    Except PlaybookError Payload :=
  match getWorkflowTemplate templateId with
  | some template => boundedWorkflowPayload rt template payload
  | none => .error (.keyError templateId)

def Payload.text? (payload : Payload) (key : String) : Option String :=
  match JsonValue.get? payload key with
  | some (.text value) => some value
  | _ => none

def isoPeriod (rt : Runtime) (periodStart periodEnd : String) : Except PlaybookError (ℤ × ℤ) :=
  match rt.isoDate periodStart, rt.isoDate periodEnd with
  | some first, some last => .ok (first, last)
  | _, _ => .error (.input "period_start and period_end must be ISO dates")

def periodTexts (stepId : String) (payload : Payload) : Except PlaybookError (String × String) :=
  match payload.text? "period_start", payload.text? "period_end" with
  | some periodStart, some periodEnd => .ok (periodStart, periodEnd)
  | _, _ => .error (.input s!"playbook step {stepId} requires period_start and period_end")

def validateReportInput (rt : Runtime) (stepId : String) (reportType : ReportType)
    (payload : Payload) : Except PlaybookError Unit := do
  let (periodStart, periodEnd) ← periodTexts stepId payload
  let (first, last) ← isoPeriod rt periodStart periodEnd
  raiseIf (last < first) (.input "period_start must not be after period_end")
  raiseIf (reportType = .recurringServiceReview ∧
      integerBetween payload "follow_up_after_days" 14 1 90 = false)
    (.input "follow_up_after_days must be an integer between 1 and 90")

/-- A step of the preview. -/
structure PlannedStep where
  id : String
  kind : StepKind
  approvalRequired : Bool
  riskLevel : RiskLevel
  toolId : Option String
  requiredInputs : List String

def previewStep (rt : Runtime) (riskLevel : RiskLevel) (payload : Payload)
    (step : MspPlaybookStep) : Except PlaybookError PlannedStep :=
  match step.kind with
  | .workflow templateId => do
      let _ ← validateWorkflowInput rt templateId payload
      match getWorkflowTemplate templateId with
      | some template =>
          return {
            id := step.id, kind := step.kind, approvalRequired := template.approvalRequired
            riskLevel := template.riskLevel, toolId := template.toolId
            requiredInputs := step.requiredInputs }
      | none => throw (.keyError templateId)
  | .report reportType => do
      validateReportInput rt step.id reportType payload
      return {
        id := step.id, kind := step.kind, approvalRequired := false, riskLevel, toolId := none
        requiredInputs := step.requiredInputs }

def previewSteps (rt : Runtime) (playbook : MspPlaybookDefinition) (payload : Payload) :
    Except PlaybookError (List PlannedStep) :=
  playbook.steps.mapM (previewStep rt playbook.riskLevel payload)

/-! ## Before a run -/

/-- What a run reads of a ticket. -/
structure PlaybookTicket where
  clientId : Option ClientId
  subject : String
  body : String

/-- The arguments of `run_msp_playbook`. -/
structure PlaybookRunRequest where
  playbookId : String
  ticketId : Option String := none
  clientId : Option String := none
  actor : String := "playbook"
  inputPayload : Payload := []
  /-- `tool_executor is not None`. -/
  toolExecutor : Bool := true

/-- What the store answers before a run: the entry under the id of the playbook, and the ticket in
the scope of the client. -/
structure StoreView where
  entry : Option MspPlaybookEntry := none
  ticket : Option PlaybookTicket := none

def validateScopeAndTicket (playbook : MspPlaybookDefinition) (ticketId clientId : Option String)
    (ticket : Option PlaybookTicket) : Except PlaybookError (Option ClientId) :=
  let clientId := normalizeClientId clientId
  match ticketId.filter fun id => id ≠ "" with
  | some ticketId =>
      match ticket with
      | none => .error (.lookupError ticketId)
      | some ticket =>
          if clientId.isSome ∧ ticket.clientId ≠ clientId then .error (.lookupError ticketId)
          else .ok (clientId <|> ticket.clientId)
  | none =>
      if playbook.steps.any fun step => step.kind.isWorkflow then
        .error (.valueError "this playbook requires ticket_id")
      else if clientId = none then .error (.valueError "report playbooks require client_id")
      else .ok clientId

/-- The local variables with which the loop over the steps starts. -/
structure PreparedRun where
  playbook : MspPlaybookDefinition
  payload : Payload
  ticketId : Option String
  clientId : Option ClientId
  actor : String
  toolExecutor : Bool

/-- `run_msp_playbook` up to its first audit event. -/
def prepare (rt : Runtime) (request : PlaybookRunRequest) (view : StoreView) :
    Except PlaybookError PreparedRun := do
  let playbook ← resolveMspPlaybook rt request.playbookId view.entry
  let payload ← boundedPlaybookPayload rt request.inputPayload
  let clientId ← validateScopeAndTicket playbook request.ticketId request.clientId view.ticket
  let _ ← previewSteps rt playbook payload
  return {
    playbook, payload, clientId, ticketId := request.ticketId, actor := request.actor
    toolExecutor := request.toolExecutor }

/-! ## The actions of a run -/

inductive WorkflowStatus where
  | completed
  | pendingApproval
  | failed
  deriving DecidableEq, Repr

/-- What a run reads of an `ActionResult`. -/
structure ToolResult where
  status : String
  approvalId : Option ℕ := none
  errorDetail : String := ""

structure WorkflowRun where
  id : ℕ
  status : WorkflowStatus
  approvalRequestId : Option ℕ
  message : String

structure CreatedReport where
  id : String
  evidenceStatus : String

/-- What a report is built from. -/
structure ReportInput where
  reportType : ReportType
  clientId : ClientId
  periodStart : String
  periodEnd : String
  followUpAfterDays : Option ℤ := none

/-- The calls that a step makes of the store, of the tool executor and of the reports. -/
inductive StepAction where
  | getTicket (ticketId : String) (clientId : Option ClientId)
  | invoke (toolId : String) (payload : Payload) (actor : String) (clientId : Option ClientId)
  | createApprovalRequest (ticketId actionType templateId message : String)
      (clientId : Option ClientId)
  | createWorkflowRun (templateId ticketId : String) (status : WorkflowStatus) (message : String)
      (approvalRequestId : Option ℕ) (clientId : Option ClientId) (templateVersion : ℕ)
  | onWorkflowRun (run : WorkflowRun)
  | createReport (input : ReportInput) (createdBy : String)

/-- What a call that does not raise returns. -/
abbrev StepAction.Returns : StepAction → Type
  | .getTicket .. => Option PlaybookTicket
  | .invoke .. => ToolResult
  | .createApprovalRequest .. | .createWorkflowRun .. => ℕ
  | .onWorkflowRun .. => Unit
  | .createReport .. => CreatedReport

inductive PlaybookAction where
  | addAuditEvent (eventType subjectId message : String) (clientId : Option ClientId)
  | call (a : StepAction)

/-- The calls of a step may raise. -/
abbrev PlaybookAction.Answer : PlaybookAction → Type
  | .addAuditEvent .. => Unit
  | .call a => Except Raised a.Returns

abbrev PlaybookProgram := Program PlaybookAction PlaybookAction.Answer

abbrev PlaybookCall := ExceptT PlaybookError PlaybookProgram

def answered {α : Type} (answer : Except Raised α) : Except PlaybookError α :=
  answer.mapError PlaybookError.raised

def ask (a : StepAction) : PlaybookCall a.Returns :=
  ExceptT.mk (Program.perform (PlaybookAction.call a) >>= fun answer =>
    (pure (answered answer) : PlaybookProgram (Except PlaybookError a.Returns)))

def addAuditEvent (eventType subjectId message : String) (clientId : Option ClientId) :
    PlaybookCall Unit :=
  ExceptT.lift (Program.perform (PlaybookAction.addAuditEvent eventType subjectId message clientId))

def compute {α : Type} (x : Except PlaybookError α) : PlaybookCall α := ExceptT.mk (pure x)

/-! ## Workflow steps -/

def classifyTicket (subject body : String) : String :=
  let text := Text.lower s!"{subject} {body}"
  let mentions (words : List String) :=
    words.any fun word => decide (word.toList <:+: text.toList)
  if mentions ["mfa", "password", "sign-in"] then "identity-access"
  else if mentions ["mailbox", "distribution"] then "collaboration-change"
  else if mentions ["disk", "printer"] then "endpoint-triage"
  else "general-service-desk"

def workflowMessage (rt : Runtime) (template : WorkflowTemplate) (ticketId : String)
    (ticket : PlaybookTicket) : Option ToolResult → String
  | some result =>
      let name := Text.lower template.name
      let detail := Text.strip (rt.redactText result.errorDetail)
      let suffix := if detail = "" then "." else s!": {detail}"
      if result.status = "success" then s!"Completed {name} for {ticketId}."
      else if result.status = "pending_approval" then
        s!"Prepared {name} for {ticketId}; approval required before execution."
      else s!"{template.name} for {ticketId} {result.status}{suffix}"
  | none =>
      if template.id = "ticket-triage" then
        s!"Classified {ticketId} as {classifyTicket ticket.subject ticket.body}."
      else if template.id = "assign-technician" then
        s!"Drafted technician assignment for {ticketId}; approval required before PSA update."
      else if template.id = "inactive-ticket-follow-up" then
        s!"Drafted inactive ticket follow-up for {ticketId}; approval required before sending."
      else if template.id = "p1-alert" then
        s!"Prepared priority alert for {ticketId}; approval required before notification."
      else
        s!"Drafted documentation-assisted response for {ticketId}; " ++
          "approval required before posting."

def workflowStatusForTool (result : ToolResult) : WorkflowStatus :=
  if result.status = "success" then .completed
  else if result.status = "pending_approval" then .pendingApproval
  else .failed

/-- The body that a message has when the payload gives none. -/
def defaultBody (templateId : String) (ticket : PlaybookTicket) : String :=
  if templateId = "p1-alert" then
    s!"P1 alert for ticket \"{ticket.subject}\". Review and acknowledge this urgent ticket."
  else
    s!"Following up on inactive ticket \"{ticket.subject}\". " ++
      "Please reply with an update or let us know if assistance is still needed."

/-- The payload that `_run_template_tool` hands over. -/
def toolPayload (templateId ticketId : String) (ticket : PlaybookTicket) (payload : Payload) :
    Payload :=
  let payload :=
    if templateId = "inactive-ticket-follow-up" ∨ templateId = "p1-alert" then
      (payload.setDefault "channel" (.text "ticket_note")).setDefault "body"
        (.text (defaultBody templateId ticket))
    else payload
  JsonValue.set payload "ticket_id" (.text ticketId)

def runTemplateTool (run : PreparedRun) (template : WorkflowTemplate) (ticketId : String)
    (ticket : PlaybookTicket) (clientId : Option ClientId) (payload : Payload) :
    PlaybookCall (Option ToolResult) :=
  match template.toolId with
  | none => pure none
  | some toolId =>
      if run.toolExecutor then
        some <$> ask (.invoke toolId (toolPayload template.id ticketId ticket payload)
          (if run.actor = "" then "workflow" else run.actor) clientId)
      else throw (.runtimeError s!"workflow tool {toolId} is not configured")

/-- The status of a run and the approval that it waits for. -/
def gate (template : WorkflowTemplate) (ticketId message : String) (clientId : Option ClientId) :
    Option ToolResult → PlaybookCall (WorkflowStatus × Option ℕ)
  | some result => pure (workflowStatusForTool result, result.approvalId)
  | none =>
      if template.approvalRequired then do
        let approvalId ← ask
          (.createApprovalRequest ticketId template.actionType template.id message clientId)
        return (.pendingApproval, some approvalId)
      else return (.completed, none)

def runOnTicket (rt : Runtime) (run : PreparedRun) (template : WorkflowTemplate)
    (ticketId : String) (ticket : PlaybookTicket) : PlaybookCall WorkflowRun := do
  let clientId := run.clientId <|> ticket.clientId
  let payload ← compute (boundedWorkflowPayload rt template run.payload)
  let result ← runTemplateTool run template ticketId ticket clientId payload
  let message := workflowMessage rt template ticketId ticket result
  let (status, approvalRequestId) ← gate template ticketId message clientId result
  let id ← ask (.createWorkflowRun template.id ticketId status message approvalRequestId clientId
    run.playbook.version)
  return { id, status, approvalRequestId, message }

def runWorkflowTemplate (rt : Runtime) (run : PreparedRun) (templateId ticketId : String) :
    PlaybookCall (Option WorkflowRun) :=
  match getWorkflowTemplate templateId with
  | none => throw (.keyError templateId)
  | some template => do
      match ← ask (.getTicket ticketId run.clientId) with
      | none => throw (.lookupError ticketId)
      | some ticket =>
          if ticket.clientId = some quarantineClientId then return none
          else some <$> runOnTicket rt run template ticketId ticket

/-! ## Report steps -/

def period (rt : Runtime) (periodStart periodEnd : String) : Except PlaybookError Unit := do
  let (first, last) ← isoPeriod rt periodStart periodEnd
  raiseIf (last < first) (.input "period_end must be on or after period_start")

/-- What `_run_report_step` and the builder of the report check and read: every type but two is
built as a service review. -/
def reportInput (rt : Runtime) (stepId : String) (reportType : ReportType) (clientId : ClientId)
    (payload : Payload) : Except PlaybookError ReportInput := do
  let (periodStart, periodEnd) ← periodTexts stepId payload
  if reportType = .qbr ∨ reportType = .automationOpportunity then
    period rt periodStart periodEnd
    return { reportType, clientId, periodStart, periodEnd }
  else
    match int? ((JsonValue.get? payload "follow_up_after_days").getD (.int 14)) with
    | none => throw (.input "follow_up_after_days must be an integer between 1 and 90")
    | some days =>
        period rt periodStart periodEnd
        raiseIf (¬ (1 ≤ days ∧ days ≤ 90))
          (.input "follow_up_after_days must be an integer between 1 and 90")
        return { reportType, clientId, periodStart, periodEnd, followUpAfterDays := some days }

def runReportStep (rt : Runtime) (run : PreparedRun) (stepId : String) (reportType : ReportType) :
    PlaybookCall CreatedReport :=
  match run.clientId with
  | none => throw (.valueError
      s!"playbook step {stepId} requires a client scope and report type")
  | some clientId => do
      compute (validateReportInput rt stepId reportType run.payload)
      let input ← compute (reportInput rt stepId reportType clientId run.payload)
      ask (.createReport input (if run.actor = "" then "playbook" else run.actor))

/-! ## The loop over the steps -/

/-- How a step that does not raise ends. -/
inductive StepOutcome where
  | workflow (run : WorkflowRun)
  | skipped
  | report (reportType : ReportType) (report : CreatedReport)

def runStep (rt : Runtime) (run : PreparedRun) (step : MspPlaybookStep) :
    PlaybookCall StepOutcome :=
  match step.kind with
  | .workflow templateId =>
      match run.ticketId with
      | none => throw (.valueError s!"playbook step {step.id} requires a ticket")
      | some ticketId => do
          match ← runWorkflowTemplate rt run templateId ticketId with
          | none => return .skipped
          | some workflowRun => do
              ask (.onWorkflowRun workflowRun)
              return .workflow workflowRun
  | .report reportType => .report reportType <$> runReportStep rt run step.id reportType

/-- A step that has been started, and its outcome or the exception that it has raised. -/
structure StartedStep where
  step : MspPlaybookStep
  ending : Except PlaybookError StepOutcome

def goesOn : Except PlaybookError StepOutcome → Bool
  | .ok (.workflow workflowRun) => workflowRun.status = .completed
  | .ok (.report ..) => true
  | .ok .skipped | .error _ => false

/-- The loop over the steps, and every step that it starts. -/
def runSteps (rt : Runtime) (run : PreparedRun) :
    List MspPlaybookStep → PlaybookProgram (List StartedStep)
  | [] => pure []
  | step :: steps => do
      let ending ← (runStep rt run step).run
      if goesOn ending then
        let later ← runSteps rt run steps
        return { step, ending } :: later
      else return [{ step, ending }]

/-! ## Results -/

inductive PlaybookStatus where
  | completed
  | pendingApproval
  | failed
  | skipped
  deriving DecidableEq, Repr

inductive StepResult where
  | workflow (id : String) (status : WorkflowStatus) (workflowRunId : ℕ)
      (approvalRequestId : Option ℕ) (message : String)
  | report (id : String) (reportId : String) (reportType : ReportType) (evidenceStatus : String)
  | error (id : String) (error : String)

/-- What `run_msp_playbook` returns. -/
structure PlaybookResult where
  executionStarted : Bool
  playbookId : String
  playbookVersion : ℕ
  outputEvidence : List String
  ticketId : Option String
  clientId : Option ClientId
  status : PlaybookStatus
  stoppedAfterStep : Option String
  steps : List StepResult

def WorkflowStatus.playbookStatus : WorkflowStatus → PlaybookStatus
  | completed => .completed
  | pendingApproval => .pendingApproval
  | failed => .failed

def StartedStep.result (rt : Runtime) (started : StartedStep) : Option StepResult :=
  match started.ending with
  | .ok (.workflow run) => some (.workflow started.step.id run.status run.id run.approvalRequestId
      (rt.redactText run.message))
  | .ok (.report reportType report) =>
      some (.report started.step.id report.id reportType report.evidenceStatus)
  | .ok .skipped => none
  | .error e =>
      let text := ((rt.redactText e.message).take 240).toString
      some (.error started.step.id (if text = "" then e.className else text))

def StartedStep.isSkipped (started : StartedStep) : Bool :=
  match started.ending with
  | .ok .skipped => true
  | _ => false

def StartedStep.status (started : StartedStep) : PlaybookStatus :=
  match started.ending with
  | .ok (.workflow run) => run.status.playbookStatus
  | .ok (.report ..) => .completed
  | .ok .skipped => .skipped
  | .error _ => .failed

def emptyPlaybookResult (run : PreparedRun) : PlaybookResult where
  executionStarted := false
  playbookId := run.playbook.id
  playbookVersion := run.playbook.version
  outputEvidence := run.playbook.outputEvidence
  ticketId := run.ticketId
  clientId := run.clientId
  status := .skipped
  stoppedAfterStep := none
  steps := []

def playbookResult (rt : Runtime) (run : PreparedRun) (started : List StartedStep) :
    PlaybookResult where
  executionStarted := true
  playbookId := run.playbook.id
  playbookVersion := run.playbook.version
  outputEvidence := run.playbook.outputEvidence
  ticketId := run.ticketId
  clientId := run.clientId
  status := (started.getLast?.map StartedStep.status).getD .completed
  stoppedAfterStep := (started.find? fun s => !goesOn s.ending).map fun s => s.step.id
  steps := started.filterMap (StartedStep.result rt)

def PlaybookStatus.text : PlaybookStatus → String
  | completed => "completed"
  | pendingApproval => "pending_approval"
  | failed => "failed"
  | skipped => "skipped"

/-- A run: the steps that it has started, and what it returns. -/
structure PlaybookRun where
  started : List StartedStep
  result : PlaybookResult

def PreparedRun.subjectId (run : PreparedRun) : String :=
  let scope := (run.ticketId.filter fun id => id ≠ "") <|> run.clientId.map Subtype.val
  run.playbook.id ++ ":" ++ scope.getD "scope"

/-- `run_msp_playbook` from its first audit event on. -/
def runPrepared (rt : Runtime) (run : PreparedRun) (runId : String) : PlaybookCall PlaybookRun := do
  let subject := s!"{run.playbook.id} version {run.playbook.version} run {runId}"
  addAuditEvent "msp.playbook.started" run.subjectId subject run.clientId
  let started ← ExceptT.lift (runSteps rt run run.playbook.steps)
  if started.any StartedStep.isSkipped then
    return { started, result := emptyPlaybookResult run }
  else
    let result := playbookResult rt run started
    let eventType :=
      if result.status = .completed then "msp.playbook.completed" else "msp.playbook.stopped"
    addAuditEvent eventType run.subjectId s!"{subject} status={result.status.text}" run.clientId
    return { started, result }

def runMspPlaybook (rt : Runtime) (request : PlaybookRunRequest) (view : StoreView)
    (runId : String) : PlaybookCall PlaybookRun := do
  let run ← compute (prepare rt request view)
  runPrepared rt run runId

end WaitLocalAgent.Playbooks
