import WaitLocalAgent.Foundation.Calendar
import WaitLocalAgent.Model.Tickets

/-! # Approval requests

The store calls on `approval_requests`. Each selects the row and runs its other statements in one
transaction, which an exception rolls back. -/

namespace WaitLocalAgent.Approvals

open Foundation Tenancy

inductive ApprovalStatus where
  | pending
  | approved
  | rejected
  | expired
  deriving DecidableEq, Repr

/-- A value that no call looks into is kept as its JSON source. -/
inductive NestedValue where
  | text (value : String)
  | other (source : String)
  deriving DecidableEq, Repr

inductive JsonValue where
  | text (value : String)
  | object (fields : AList fun _ : String => NestedValue)
  | other (source : String)
  deriving DecidableEq

abbrev JsonObject := AList fun _ : String => JsonValue

structure ApprovalRequest where
  id : ℕ
  subjectId : String
  actionType : String
  payload : JsonObject
  status : ApprovalStatus
  comment : String
  createdAt : String
  updatedAt : String
  executionStatus : String := "not_started"
  executionMessage : String := ""
  executedAt : String := ""
  executionResult : JsonObject := ∅
  clientId : Option NormalizedText := none
  approverId : Option String := none
  expiresAt : Option String := none
  deriving DecidableEq

/-- The columns of `workflow_runs` that a decision touches. -/
structure WorkflowRun where
  id : ℕ
  status : String
  approvalRequestId : Option ℕ
  updatedAt : String
  deriving DecidableEq

inductive ActionStatus where
  | success
  | providerNotConfigured
  | notAuthorized
  | failed
  | pendingApproval
  | rejected
  deriving DecidableEq, Repr

structure SmartActionRun where
  id : ℕ
  actionId : String
  actor : String
  status : ActionStatus
  payloadDigest : String
  output : JsonObject
  evidence : List JsonObject
  approvalId : Option ℕ
  createdAt : String
  updatedAt : String
  clientId : Option NormalizedText
  errorDetail : String := ""
  deriving DecidableEq

structure Store where
  requests : AutoTable ApprovalRequest.id
  workflowRuns : AutoTable WorkflowRun.id
  actionRuns : AutoTable SmartActionRun.id

inductive ApprovalError where
  | keyError (id : ℕ)
  | permissionError (message : String)
  | valueError (message : String)
  | quarantinedTicket (message : String)
  | runtimeError (message : String)
  | overflowError
  deriving DecidableEq, Repr

/-- `datetime` texts and redaction. -/
structure Runtime where
  calendar : Calendar
  redactText : String → String
  redactValue : JsonObject → JsonObject

/-- `utc_now()` at a moment. -/
def Runtime.text (rt : Runtime) (t : Instant) : String := (rt.calendar.isoformat t).val

/-- The clock readings of `_expire_approval_request`. -/
structure ExpiryClock where
  checkedAt : Instant
  expiredAt : Instant

/-- What a call finds: the tickets, the clock, and the clock of its closing read. -/
structure CallContext where
  tenancy : Tenancy.Store
  now : Instant
  expiry : ExpiryClock
  after : ExpiryClock

/-! ## Payloads and deadlines -/

def nonBlank? (value : String) : Option String :=
  if Text.strip value = "" then none else some (Text.strip value)

def ticketIdFromPayload (payload : JsonObject) : Option String :=
  let direct := match payload.lookup "ticket_id" with
    | some (.text ticketId) => nonBlank? ticketId
    | _ => none
  direct.or <| match payload.lookup "payload" with
    | some (.object nested) =>
        match nested.lookup "ticket_id" with
        | some (.text ticketId) => nonBlank? ticketId
        | _ => none
    | _ => none

def requireNotQuarantined (tenancy : Tenancy.Store) (ticketId : Option String) :
    Except ApprovalError Unit :=
  match ticketId with
  | none => .ok ()
  | some ticketId =>
      match requireTicketNotQuarantined tenancy ticketId with
      | .ok () => .ok ()
      | .error _ => .error
          (.quarantinedTicket s!"ticket {ticketId} is quarantined pending client mapping")

def defaultApprovalExpirySeconds : ℤ := 24 * 60 * 60

def maxApprovalExpirySeconds : ℤ := 30 * 24 * 60 * 60

def approvalExpiryAt (rt : Runtime) (createdAt : Instant) (expiresInSeconds : ℤ) :
    Except ApprovalError String := do
  raiseIf (expiresInSeconds < 1 ∨ maxApprovalExpirySeconds < expiresInSeconds)
    (.valueError s!"approval expiry must be between 1 and {maxApprovalExpirySeconds} seconds")
  match createdAt.add? expiresInSeconds with
  | some expiresAt => return rt.text expiresAt
  | none => .error .overflowError

def approvalExpired (cal : Calendar) (expiresAt : Option String) (now : Instant) : Bool :=
  match expiresAt.filter fun text => Text.strip text != "" with
  | none => false
  | some text =>
      match cal.fromisoformat text with
      | none => true
      | some deadline => decide (deadline ≤ now)

/-- `row["action_type"].startswith("smart_action:")`. -/
def ApprovalRequest.isSmartAction (row : ApprovalRequest) : Bool :=
  "smart_action:".toList.isPrefixOf row.actionType.toList

def ApprovalRequest.isDue (cal : Calendar) (row : ApprovalRequest) (now : Instant) : Bool :=
  row.status == .pending && approvalExpired cal row.expiresAt now

/-! ## Statements -/

/-- `set status = 'expired', …`. -/
def ApprovalRequest.expire (now : String) (row : ApprovalRequest) : ApprovalRequest :=
  { row with
    status := .expired, comment := "Approval expired", updatedAt := now,
    approverId := some "system:approval-expiry" }

theorem ApprovalRequest.expire_id (now : String) (row : ApprovalRequest) :
    (row.expire now).id = row.id := rfl

/-- `set status = ?, comment = ?, updated_at = ?, approver_id = coalesce(?, approver_id)`. -/
def ApprovalRequest.settle (status : ApprovalStatus) (comment now : String)
    (approverId : Option String) (row : ApprovalRequest) : ApprovalRequest :=
  { row with status, comment, updatedAt := now, approverId := approverId.or row.approverId }

theorem ApprovalRequest.settle_id (status : ApprovalStatus) (comment now : String)
    (approverId : Option String) (row : ApprovalRequest) :
    (row.settle status comment now approverId).id = row.id := rfl

/-- `set payload_json = ?, comment = ?, updated_at = ?`. -/
def ApprovalRequest.edit (payload : JsonObject) (comment now : String) (row : ApprovalRequest) :
    ApprovalRequest :=
  { row with payload, comment, updatedAt := now }

theorem ApprovalRequest.edit_id (payload : JsonObject) (comment now : String)
    (row : ApprovalRequest) : (row.edit payload comment now).id = row.id := rfl

/-- `set execution_status = ?, …, updated_at = ?`. -/
def ApprovalRequest.execute (status message executedAt : String) (result : JsonObject)
    (now : String) (row : ApprovalRequest) : ApprovalRequest :=
  { row with
    executionStatus := status, executionMessage := message, executedAt,
    executionResult := result, updatedAt := now }

theorem ApprovalRequest.execute_id (status message executedAt : String) (result : JsonObject)
    (now : String) (row : ApprovalRequest) :
    (row.execute status message executedAt result now).id = row.id := rfl

/-- `set status = ?, updated_at = ?`, on a workflow run and on a smart-action run. -/
def WorkflowRun.become (status now : String) (run : WorkflowRun) : WorkflowRun :=
  { run with status, updatedAt := now }

theorem WorkflowRun.become_id (status now : String) (run : WorkflowRun) :
    (run.become status now).id = run.id := rfl

def SmartActionRun.become (status : ActionStatus) (now : String) (run : SmartActionRun) :
    SmartActionRun :=
  { run with status, updatedAt := now }

theorem SmartActionRun.become_id (status : ActionStatus) (now : String) (run : SmartActionRun) :
    (run.become status now).id = run.id := rfl

/-- `update workflow_runs set status = ?, … where approval_request_id = ?`. -/
def Store.settleWorkflowRuns (s : Store) (requestId : ℕ) (status now : String) : Store :=
  { s with
    workflowRuns := s.workflowRuns.update (fun run => run.approvalRequestId == some requestId)
      (WorkflowRun.become status now) (WorkflowRun.become_id status now) }

def expireApprovalRequest (rt : Runtime) (s : Store) (row : ApprovalRequest)
    (clock : ExpiryClock) : ApprovalRequest × Store :=
  if !row.isDue rt.calendar clock.checkedAt then (row, s)
  else
    let now := rt.text clock.expiredAt
    let requests := s.requests.update (fun r => r.id == row.id && r.status == .pending)
      (ApprovalRequest.expire now) (ApprovalRequest.expire_id now)
    let actionRuns :=
      if row.isSmartAction then
        s.actionRuns.update
          (fun run => run.approvalId == some row.id && run.status == .pendingApproval)
          (SmartActionRun.become .rejected now) (SmartActionRun.become_id .rejected now)
      else s.actionRuns
    let s' := { s.settleWorkflowRuns row.id "rejected" now with requests, actionRuns }
    ((requests.find? row.id).getD row, s')

/-! ## Calls -/

def workflowStatusForApproval : ApprovalStatus → String
  | .approved => "approved"
  | .rejected => "rejected"
  | _ => "pending_approval"

/-- The statuses that an update may ask for. -/
def requestedStatus? (status : String) : Option ApprovalStatus :=
  match status with
  | "pending" => some .pending
  | "approved" => some .approved
  | "rejected" => some .rejected
  | _ => none

/-- The row as `get_approval_request` hands it out. -/
def ApprovalRequest.redacted (rt : Runtime) (row : ApprovalRequest) : ApprovalRequest :=
  { row with
    comment := rt.redactText row.comment, payload := rt.redactValue row.payload,
    executionResult := rt.redactValue row.executionResult }

def getApprovalRequest (rt : Runtime) (s : Store) (requestId : ℕ) (clock : ExpiryClock) :
    Option ApprovalRequest × Store :=
  match s.requests.find? requestId with
  | none => (none, s)
  | some row =>
      let (row, s) := expireApprovalRequest rt s row clock
      (some (row.redacted rt), s)

/-- The closing read of a call whose transaction has ended so. -/
def closingRead (rt : Runtime) (s : Store) (requestId : ℕ) (clock : ExpiryClock)
    (transaction : Except ApprovalError Store) : Except ApprovalError ApprovalRequest × Store :=
  match transaction with
  | .error e => (.error e, s)
  | .ok s' =>
      match getApprovalRequest rt s' requestId clock with
      | (some request, s'') => (.ok request, s'')
      | (none, s'') => (.error (.runtimeError "approval request was not persisted"), s'')

def selectRequest (s : Store) (requestId : ℕ) : Except ApprovalError ApprovalRequest :=
  match s.requests.find? requestId with
  | none => .error (.keyError requestId)
  | some row => .ok row

structure CreateRequest where
  subjectId : String
  actionType : String
  payload : JsonObject
  clientId : Option String := none
  expiresInSeconds : ℤ := defaultApprovalExpirySeconds

def CreateRequest.row (rt : Runtime) (request : CreateRequest) (now expiresAt : String) (id : ℕ) :
    ApprovalRequest where
  id := id
  subjectId := request.subjectId
  actionType := request.actionType
  payload := rt.redactValue request.payload
  status := .pending
  comment := ""
  createdAt := now
  updatedAt := now
  clientId := normalizeClientId request.clientId
  expiresAt := some expiresAt

theorem CreateRequest.row_id (rt : Runtime) (request : CreateRequest) (now expiresAt : String)
    (id : ℕ) : (request.row rt now expiresAt id).id = id := rfl

/-- The ticket of a new request: that of its payload, or else its subject. -/
def CreateRequest.ticketId (request : CreateRequest) (tenancy : Tenancy.Store) : Option String :=
  (ticketIdFromPayload request.payload).or
    ((tenancy.tickets.find? request.subjectId).map Ticket.id)

def insertRequest (rt : Runtime) (s : Store) (request : CreateRequest) (context : CallContext) :
    Except ApprovalError Store := do
  let expiresAt ← approvalExpiryAt rt context.now request.expiresInSeconds
  requireNotQuarantined context.tenancy (request.ticketId context.tenancy)
  return { s with
    requests := s.requests.insert (request.row rt (rt.text context.now) expiresAt)
      (request.row_id rt (rt.text context.now) expiresAt) }

def createApprovalRequest (rt : Runtime) (s : Store) (request : CreateRequest)
    (context : CallContext) : Except ApprovalError ApprovalRequest × Store :=
  closingRead rt s (s.requests.lastKey + 1) context.after (insertRequest rt s request context)

structure UpdateRequest where
  requestId : ℕ
  status : String
  comment : String := ""
  approverId : Option String := none
  allowCompleted : Bool := false
  smartActionCapability : Bool := false

def decideSelected (rt : Runtime) (s : Store) (row : ApprovalRequest) (update : UpdateRequest)
    (context : CallContext) : Except ApprovalError Store := do
  requireNotQuarantined context.tenancy (ticketIdFromPayload row.payload)
  let (row, s) := expireApprovalRequest rt s row context.expiry
  raiseIf (row.isSmartAction ∧ !update.smartActionCapability) (.permissionError
    "smart-action approvals must be updated through SmartActionService")
  match requestedStatus? update.status with
  | none => .error (.valueError "approval status must be pending, approved, or rejected")
  | some status => do
      raiseIf (row.status = .expired) (.permissionError "approval request has expired")
      raiseIf (row.status ≠ .pending ∧ !update.allowCompleted)
        (.permissionError "approval request has already completed")
      let now := rt.text context.now
      let requests := s.requests.update (fun r => r.id == update.requestId)
        (ApprovalRequest.settle status (rt.redactText update.comment) now update.approverId)
        (ApprovalRequest.settle_id status (rt.redactText update.comment) now update.approverId)
      return { s.settleWorkflowRuns update.requestId (workflowStatusForApproval status) now with
        requests }

def updateApprovalRequest (rt : Runtime) (s : Store) (update : UpdateRequest)
    (context : CallContext) : Except ApprovalError ApprovalRequest × Store :=
  closingRead rt s update.requestId context.after do
    decideSelected rt s (← selectRequest s update.requestId) update context

structure PayloadRequest where
  requestId : ℕ
  payload : JsonObject
  comment : String := ""

def editSelected (rt : Runtime) (s : Store) (row : ApprovalRequest) (edit : PayloadRequest)
    (context : CallContext) : Except ApprovalError Store := do
  requireNotQuarantined context.tenancy (ticketIdFromPayload row.payload)
  let (row, s) := expireApprovalRequest rt s row context.expiry
  raiseIf (row.status = .expired) (.permissionError "approval request has expired")
  raiseIf (row.status ≠ .pending)
    (.permissionError "approval payload can only be edited while pending")
  let payload := rt.redactValue edit.payload
  let comment := rt.redactText edit.comment
  let now := rt.text context.now
  return { s with
    requests := s.requests.update (fun r => r.id == edit.requestId)
      (ApprovalRequest.edit payload comment now) (ApprovalRequest.edit_id payload comment now) }

def updateApprovalRequestPayload (rt : Runtime) (s : Store) (edit : PayloadRequest)
    (context : CallContext) : Except ApprovalError ApprovalRequest × Store :=
  closingRead rt s edit.requestId context.after do
    editSelected rt s (← selectRequest s edit.requestId) edit context

structure ExecutionRecord where
  requestId : ℕ
  status : String
  message : String
  result : JsonObject

def recordSelected (rt : Runtime) (s : Store) (row : ApprovalRequest) (record : ExecutionRecord)
    (context : CallContext) : Except ApprovalError Store := do
  requireNotQuarantined context.tenancy (ticketIdFromPayload row.payload)
  let (row, s) := expireApprovalRequest rt s row context.expiry
  raiseIf (row.status = .expired) (.permissionError "approval request has expired")
  let result := rt.redactValue record.result
  let now := rt.text context.now
  return { s with
    requests := s.requests.update (fun r => r.id == record.requestId)
      (ApprovalRequest.execute record.status record.message now result now)
      (ApprovalRequest.execute_id record.status record.message now result now) }

def recordApprovalExecution (rt : Runtime) (s : Store) (record : ExecutionRecord)
    (context : CallContext) : Except ApprovalError ApprovalRequest × Store :=
  closingRead rt s record.requestId context.after do
    recordSelected rt s (← selectRequest s record.requestId) record context

def terminalStatuses : List String :=
  ["succeeded", "verified", "unverified", "submitted", "running"]

/-- The `where` clause of a claim. -/
def ApprovalRequest.isClaimable (requestId : ℕ) (row : ApprovalRequest) : Bool :=
  row.id == requestId && row.status == .approved && !terminalStatuses.contains row.executionStatus

def claimSelected (rt : Runtime) (s : Store) (row : ApprovalRequest) (requestId : ℕ)
    (context : CallContext) : Except ApprovalError (Bool × Store) := do
  requireNotQuarantined context.tenancy (ticketIdFromPayload row.payload)
  let (row, s) := expireApprovalRequest rt s row context.expiry
  raiseIf (row.status = .expired) (.permissionError "approval request has expired")
  let now := rt.text context.now
  let claimable := ApprovalRequest.isClaimable requestId
  return (s.requests.table.rowcount claimable == 1, { s with
    requests := s.requests.update claimable
      (ApprovalRequest.execute "running" "" "" ∅ now)
      (ApprovalRequest.execute_id "running" "" "" ∅ now) })

def claimApprovalExecution (rt : Runtime) (s : Store) (requestId : ℕ) (context : CallContext) :
    Except ApprovalError (Bool × Store) := do
  claimSelected rt s (← selectRequest s requestId) requestId context

/-! ## Calls one after another -/

inductive ApprovalCall where
  | createApprovalRequest (request : CreateRequest) (context : CallContext)
  | updateApprovalRequest (update : UpdateRequest) (context : CallContext)
  | updateApprovalRequestPayload (edit : PayloadRequest) (context : CallContext)
  | claimApprovalExecution (requestId : ℕ) (context : CallContext)
  | recordApprovalExecution (record : ExecutionRecord) (context : CallContext)
  | getApprovalRequest (requestId : ℕ) (clock : ExpiryClock)

def ApprovalCall.apply (rt : Runtime) (s : Store) : ApprovalCall → Store
  | .createApprovalRequest request context =>
      (Approvals.createApprovalRequest rt s request context).2
  | .updateApprovalRequest update context =>
      (Approvals.updateApprovalRequest rt s { update with allowCompleted := false } context).2
  | .updateApprovalRequestPayload edit context =>
      (Approvals.updateApprovalRequestPayload rt s edit context).2
  | .claimApprovalExecution requestId context =>
      committed s ((Approvals.claimApprovalExecution rt s requestId context).map Prod.snd)
  | .recordApprovalExecution record context =>
      (Approvals.recordApprovalExecution rt s record context).2
  | .getApprovalRequest requestId clock => (Approvals.getApprovalRequest rt s requestId clock).2

/-- Any interleaving of the calls, from a store without requests. -/
def approvals (rt : Runtime) (workflowRuns : AutoTable WorkflowRun.id)
    (actionRuns : AutoTable SmartActionRun.id) : Machine Store ApprovalCall where
  init := { requests := .empty, workflowRuns, actionRuns }
  step := ApprovalCall.apply rt

/-! ## One morning -/

/-- Nothing to redact, and the texts of `morningCalendar`. -/
def morningRuntime : Runtime := ⟨morningCalendar, id, id⟩

/-- A call at some minute, on a store without tickets. -/
def morningContext (minute : Fin 60) : CallContext :=
  let t := Instant.morning minute
  ⟨Tenancy.Store.fresh, t, ⟨t, t⟩, ⟨t, t⟩⟩

end WaitLocalAgent.Approvals

/-! ## Callers of one request

Any number of callers on one approval request. A call selects the row in one step, outside of any
transaction, and runs its other statements in a later one. -/

namespace WaitLocalAgent.Approvals

open Foundation

def linkedStatus : ApprovalStatus → String
  | .pending => "pending_approval"
  | .approved => "approved"
  | .rejected => "rejected"
  | .expired => "rejected"

/-- The workflow runs that are linked to request `k` have its status. -/
def Agrees (k : ℕ) (s : Store) : Prop :=
  ∀ row, s.requests.find? k = some row → ∀ run ∈ s.workflowRuns,
    run.approvalRequestId = some k → run.status = linkedStatus row.status

/-- The arguments of a call on the request. Its closing read is a `read` of its own. -/
inductive RequestCall where
  | update (status comment : String) (approverId : Option String) (smartActionCapability : Bool)
  | edit (payload : JsonObject) (comment : String)
  | claim
  | read

/-- What a call does after its `select`. -/
def RequestCall.finish (rt : Runtime) (k : ℕ) (s : Store) (row : ApprovalRequest)
    (context : CallContext) : RequestCall → Store
  | .update status comment approverId smartActionCapability =>
      committed s (decideSelected rt s row
        { requestId := k, status, comment, approverId, smartActionCapability } context)
  | .edit payload comment =>
      committed s (editSelected rt s row { requestId := k, payload, comment } context)
  | .claim => committed s ((claimSelected rt s row k context).map Prod.snd)
  | .read => (expireApprovalRequest rt s row context.expiry).2

/-- A request and its linked runs as the callers find them. -/
structure Desk where
  runtime : Runtime
  requestId : ℕ
  store : Store
  agrees : Agrees requestId store

/-- The store, and the calls that are under way with the rows that they have selected. -/
structure Callers (W : Type) where
  store : Store
  selected : W → Option (RequestCall × ApprovalRequest)

inductive CallerStep (W : Type) where
  | select (w : W) (call : RequestCall)
  | finish (w : W) (context : CallContext)

namespace Desk

variable {W : Type} [DecidableEq W] (desk : Desk)

def step (p : Callers W) : CallerStep W → Callers W
  | .select w call =>
      match p.selected w, p.store.requests.find? desk.requestId with
      | none, some row => { p with selected := Function.update p.selected w (some (call, row)) }
      | _, _ => p
  | .finish w context =>
      match p.selected w with
      | none => p
      | some (call, row) =>
          { store := call.finish desk.runtime desk.requestId p.store row context
            selected := Function.update p.selected w none }

def machine : Machine (Callers W) (CallerStep W) where
  init := { store := desk.store, selected := fun _ => none }
  step := desk.step

end Desk

end WaitLocalAgent.Approvals
