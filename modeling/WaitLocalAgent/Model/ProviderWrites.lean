import WaitLocalAgent.Foundation.Program
import WaitLocalAgent.Model.Approvals

/-! # Provider writes

Any number of callers on one approval request of a PSA connector: the executors, and the route
that decides the request and executes it. A call to the store or to the provider is one step. -/

namespace WaitLocalAgent.ProviderWrites

open Foundation Approvals

/-- `HaloWriteRequest` and `ConnectWiseWriteRequest`. -/
structure WriteRequest where
  ticketId : String
  actionType : String
  fields : AList fun _ : String => NestedValue
  approvalRequestId : ℕ
  deriving DecidableEq

/-- `HaloWriteResult` and `ConnectWiseWriteResult`. -/
structure WriteResult where
  status : String
  message : String
  actionType : String
  ticketId : String
  endpoint : String := ""
  statusCode : Option ℤ := none
  remoteId : String := ""
  deriving DecidableEq, Repr

/-- What `verify_write` returns. -/
inductive Verification where
  | verified
  | unverified
  | submitted
  deriving DecidableEq, Repr

def Verification.label : Verification → String
  | verified => "verified"
  | unverified => "unverified"
  | submitted => "submitted"

def executedStatuses : List String := ["succeeded", "verified", "unverified", "submitted"]

/-- `bool(value)` of a value in its JSON source, as `json.dumps` writes it. -/
def sourceTruthy (source : String) : Bool :=
  !(["null", "false", "0", "0.0", "-0.0", "[]", "{}"].contains source)

def isTruthy : Approvals.JsonValue → Bool
  | .text value => value != ""
  | .object fields => fields.entries != []
  | .other source => sourceTruthy source

/-- `isinstance(value, (int, float))`, but not a bool, of a value in its JSON source. -/
def sourceIsNumber (source : String) : Bool :=
  source == "NaN" || source == "Infinity" ||
    (source.toList.head?.any fun c => c.isDigit || c == '-')

/-- A PSA connector. -/
structure Provider where
  name : String
  connector : String
  actionTypes : List String
  /-- The message of the `ValueError` for the fields of an action. -/
  fieldsError : String → (AList fun _ : String => NestedValue) → Option String

def Provider.actionPrefix (p : Provider) : String := p.connector ++ "."

def halopsa : Provider where
  name := "HaloPSA"
  connector := "halopsa"
  actionTypes :=
    ["add_note", "draft_response", "update_status", "assign_technician", "update_ticket_fields"]
  fieldsError _ _ := none

/-- The fields of a ConnectWise action. -/
def connectwiseAllowed (actionType : String) : List String :=
  if actionType = "update_status" then ["status_id"]
  else if actionType = "assign_technician" then ["owner_id", "team_id"]
  else ["summary", "description", "status_id", "priority_id", "board_id", "owner_id", "team_id"]

def fieldGiven (fields : AList fun _ : String => NestedValue) (name : String) : Bool :=
  match fields.lookup name with
  | some (.text value) => value != ""
  | some (.other source) => sourceTruthy source
  | none => false

def connectwiseFieldError (field : String) : NestedValue → Option String
  | .other source =>
      if sourceIsNumber source then none
      else some s!"ConnectWise PSA field {field} must be text or a number"
  | .text value =>
      if Text.strip value = "" ∨ 2000 < (Text.strip value).length ∨
          value.toList.any fun c => c.toNat < 32 then
        some s!"ConnectWise PSA field {field} is invalid"
      else none

def connectwiseFieldsError (actionType : String) (fields : AList fun _ : String => NestedValue) :
    Option String :=
  if fields.entries = [] then some s!"ConnectWise PSA {actionType} requires ticket fields"
  else if fields.keys.any fun name => !(connectwiseAllowed actionType).contains name then
    some "ConnectWise PSA ticket fields contain unsupported keys"
  else if actionType = "assign_technician" ∧ !(fieldGiven fields "owner_id") ∧
      !(fieldGiven fields "team_id") then
    some "ConnectWise PSA assign_technician requires owner_id or team_id"
  else if actionType = "update_status" ∧ !(fieldGiven fields "status_id") then
    some "ConnectWise PSA update_status requires status_id"
  else fields.entries.findSome? fun entry => connectwiseFieldError entry.1 entry.2

def connectwise : Provider where
  name := "ConnectWise PSA"
  connector := "connectwise"
  actionTypes := ["update_status", "assign_technician", "update_ticket_fields"]
  fieldsError := connectwiseFieldsError

/-- The store calls and texts that the executors lean on. -/
structure WriteRuntime extends Runtime where
  /-- `str(value)` of a value that is not a text. -/
  str : Approvals.JsonValue → String

def WriteRuntime.text (rt : WriteRuntime) : Approvals.JsonValue → String
  | .text value => value
  | value => rt.str value

def textOr (rt : WriteRuntime) (payload : JsonObject) (key fallback : String) : String :=
  match (payload.lookup key).filter isTruthy with
  | some value => rt.text value
  | none => fallback

def startsWith (text start : String) : Bool := start.toList.isPrefixOf text.toList

def withoutPrefix (text start : String) : String :=
  String.ofList (text.toList.drop start.length)

def Provider.checkApproval (p : Provider) (approval : ApprovalRequest) :
    Except ApprovalError Unit := do
  raiseIf (!startsWith approval.actionType p.actionPrefix)
    (.valueError s!"approval request is not a {p.name} action")
  raiseIf (approval.status ≠ .approved)
    (.permissionError s!"{p.name} writes require approved approval requests")
  raiseIf (approval.executionStatus ∈ executedStatuses)
    (.runtimeError s!"{p.name} approval request has already executed successfully")

def approvalTicket (rt : WriteRuntime) (approval : ApprovalRequest) : Option String :=
  let ticketId := Text.strip (textOr rt approval.payload "ticket_id" approval.subjectId)
  if ticketId = "" then none else some ticketId

/-- The checks of an executor on the payload, and the write that it asks for. -/
def Provider.writeRequest (rt : WriteRuntime) (p : Provider) (approval : ApprovalRequest) :
    Except ApprovalError WriteRequest := do
  raiseIf (approval.payload.lookup "connector" ≠ some (.text p.connector))
    (.valueError s!"approval payload connector does not match {p.name}")
  let actionType := textOr rt approval.payload "action_type"
    (withoutPrefix approval.actionType p.actionPrefix)
  raiseIf (actionType ∉ p.actionTypes)
    (.valueError s!"unsupported {p.name} action type: {actionType}")
  raiseIf (approval.actionType ≠ p.actionPrefix ++ actionType)
    (.valueError "approval payload action does not match approval request")
  let ticketId := textOr rt approval.payload "ticket_id" approval.subjectId
  raiseIf (ticketId ≠ approval.subjectId)
    (.valueError "approval payload ticket does not match approval request")
  let fields := match approval.payload.lookup "fields" with
    | some (.object fields) => fields
    | _ => ∅
  match p.fieldsError actionType fields with
  | some message => .error (.valueError message)
  | none => return { ticketId, actionType, fields, approvalRequestId := approval.id }

/-- One step of a call; any of them may raise. -/
inductive ProviderAction where
  | getApprovalRequest
  /-- The scope and role checks of the route. -/
  | authorize
  | requireNotQuarantined (ticketId : Option String)
  | hasWorkflowRun
  | updateApprovalRequest (status comment : String) (approverId : Option String)
      (allowCompleted : Bool)
  | executeWrite (p : Provider) (request : WriteRequest)
  | verifyWrite (p : Provider) (request : WriteRequest) (result : WriteResult)
  | recordApprovalExecution (succeeded : Bool) (status message : String) (result : JsonObject)

abbrev ProviderAction.Value : ProviderAction → Type
  | .getApprovalRequest => Option ApprovalRequest
  | .hasWorkflowRun => Bool
  | .updateApprovalRequest .. => ApprovalRequest
  | .executeWrite .. => WriteResult
  | .verifyWrite .. => Verification × AList fun _ : String => NestedValue
  | .recordApprovalExecution .. => ApprovalRequest
  | _ => Unit

abbrev ProviderAction.Answer (a : ProviderAction) : Type := Except ApprovalError a.Value

/-- What a step meets outside of the store. -/
structure ProviderInput where
  /-- The step raises, and has done nothing. -/
  refusal : Option ApprovalError := none
  /-- The step raises once it is done. -/
  lateRefusal : Option ApprovalError := none
  context : CallContext
  written : WriteResult := ⟨"failed", "", "", "", "", none, ""⟩
  verification : Verification × AList (fun _ : String => NestedValue) := (.unverified, ∅)

/-- The store, and for each `execute_write` of the request whether it returned `succeeded`. -/
structure Ledger where
  store : Store
  writes : List Bool

def ProviderAction.perform (rt : WriteRuntime) (requestId : ℕ) : (a : ProviderAction) → Ledger →
    ProviderInput → a.Answer × Ledger
  | .getApprovalRequest, s, input =>
      let (request, store) :=
        Approvals.getApprovalRequest rt.toRuntime s.store requestId input.context.after
      (.ok request, { s with store })
  | .authorize, s, _ => (.ok (), s)
  | .requireNotQuarantined ticketId, s, input =>
      (Approvals.requireNotQuarantined input.context.tenancy ticketId, s)
  | .hasWorkflowRun, s, _ =>
      (.ok (s.store.workflowRuns.table.rows.any fun run => run.approvalRequestId == some requestId),
        s)
  | .updateApprovalRequest status comment approverId allowCompleted, s, input =>
      let (result, store) := Approvals.updateApprovalRequest rt.toRuntime s.store
        { requestId, status, comment, approverId, allowCompleted } input.context
      (result, { s with store })
  | .executeWrite _ _, s, input =>
      (.ok input.written, { s with writes := s.writes ++ [input.written.status == "succeeded"] })
  | .verifyWrite _ _ _, s, input => (.ok input.verification, s)
  | .recordApprovalExecution _ status message result, s, input =>
      let (answer, store) := Approvals.recordApprovalExecution rt.toRuntime s.store
        { requestId, status, message, result } input.context
      (answer, { s with store })

/-- A refused `execute_write` has been started all the same. -/
def ProviderAction.refuse : ProviderAction → Ledger → Ledger
  | .executeWrite _ _, s => { s with writes := s.writes ++ [false] }
  | _, s => s

def ProviderAction.answer (rt : WriteRuntime) (requestId : ℕ) (a : ProviderAction) (s : Ledger)
    (input : ProviderInput) : a.Answer × Ledger :=
  match a, input.refusal, input.lateRefusal with
  | a, some e, _ => (.error e, a.refuse s)
  | .recordApprovalExecution succeeded status message result, none, some e =>
      (.error e, ((ProviderAction.recordApprovalExecution succeeded status message result).perform
        rt requestId s input).2)
  | a, none, _ => a.perform rt requestId s input

abbrev Writing (α : Type) := ExceptT ApprovalError (Program ProviderAction ProviderAction.Answer) α

def act (a : ProviderAction) : Writing a.Value := ExceptT.mk (Program.perform a)

def WriteResult.sanitized (r : WriteResult) : JsonObject :=
  [⟨"action_type", .text r.actionType⟩, ⟨"ticket_id", .text r.ticketId⟩,
    ⟨"endpoint", .text r.endpoint⟩, ⟨"status", .text r.status⟩,
    ⟨"status_code", .other ((r.statusCode.map toString).getD "null")⟩,
    ⟨"remote_id", .text r.remoteId⟩].toAList

def recordWrite (p : Provider) (request : WriteRequest) (result : WriteResult) :
    Writing ApprovalRequest :=
  if result.status = "succeeded" then do
    let verification ← act (.verifyWrite p request result)
    act (.recordApprovalExecution true verification.1.label
      s!"{result.message} Read-back verification: {verification.1.label}."
      (result.sanitized.insert "verification" (.object verification.2)))
  else act (.recordApprovalExecution false result.status result.message result.sanitized)

def executeApproval (rt : WriteRuntime) (p : Provider) (approval : ApprovalRequest) :
    Writing ApprovalRequest := do
  liftExcept (p.checkApproval approval)
  act (.requireNotQuarantined (approvalTicket rt approval))
  let request ← liftExcept (p.writeRequest rt approval)
  let result ← act (.executeWrite p request)
  recordWrite p request result
where
  liftExcept {α : Type} (x : Except ApprovalError α) : Writing α := ExceptT.mk (pure x)

def executeApprovalRequest (rt : WriteRuntime) (requestId : ℕ) (p : Provider) :
    Writing ApprovalRequest := do
  match ← act .getApprovalRequest with
  | none => throw (.keyError requestId)
  | some approval => executeApproval rt p approval

def executeHalopsaApprovalRequest (rt : WriteRuntime) (requestId : ℕ) : Writing ApprovalRequest :=
  executeApprovalRequest rt requestId halopsa

def executeConnectwiseApprovalRequest (rt : WriteRuntime) (requestId : ℕ) :
    Writing ApprovalRequest :=
  executeApprovalRequest rt requestId connectwise

/-- `except RuntimeError: approval = store.get_approval_request(request_id) or approval`. -/
def orStored (approval : ApprovalRequest) (execute : Writing ApprovalRequest) :
    Writing ApprovalRequest :=
  ExceptT.mk do
    match ← execute.run with
    | .error (.runtimeError _) => ((·.getD approval) <$> act .getApprovalRequest).run
    | result => return result

/-- `if payload.status == "approved" and approval.action_type.startswith(…)`. -/
def executeIfApproved (p : Provider) (execute : Writing ApprovalRequest) (status : String)
    (approval : ApprovalRequest) : Writing ApprovalRequest :=
  if status = "approved" ∧ startsWith approval.actionType p.actionPrefix then
    orStored approval execute
  else return approval

/-- The route on a request of a PSA connector. Requests of other kinds have branches of their own,
which are not followed. -/
def decideAndExecute (rt : WriteRuntime) (requestId : ℕ) (status comment : String)
    (approverId : Option String) (existing : ApprovalRequest) : Writing ApprovalRequest :=
  if startsWith existing.actionType halopsa.actionPrefix ∨
      startsWith existing.actionType connectwise.actionPrefix then do
    let linked ← act .hasWorkflowRun
    let approval ← act (.updateApprovalRequest status comment approverId linked)
    let approval ← executeIfApproved halopsa (executeHalopsaApprovalRequest rt requestId) status
      approval
    executeIfApproved connectwise (executeConnectwiseApprovalRequest rt requestId) status approval
  else return existing

def updateRoute (rt : WriteRuntime) (requestId : ℕ) (status comment : String)
    (approverId : Option String) : Writing ApprovalRequest := do
  match ← act .getApprovalRequest with
  | none => throw (.keyError requestId)
  | some existing => do
      act .authorize
      decideAndExecute rt requestId status comment approverId existing

inductive WriteCall where
  | executeHalopsaApprovalRequest
  | executeConnectwiseApprovalRequest
  | updateApprovalRequest (status comment : String) (approverId : Option String)

def WriteCall.program (rt : WriteRuntime) (requestId : ℕ) : WriteCall →
    Program ProviderAction ProviderAction.Answer (Except ApprovalError ApprovalRequest)
  | .executeHalopsaApprovalRequest =>
      (ProviderWrites.executeHalopsaApprovalRequest rt requestId).run
  | .executeConnectwiseApprovalRequest =>
      (ProviderWrites.executeConnectwiseApprovalRequest rt requestId).run
  | .updateApprovalRequest status comment approverId =>
      (updateRoute rt requestId status comment approverId).run

/-- A request that nobody has executed yet. -/
structure WriteDesk where
  runtime : WriteRuntime
  requestId : ℕ
  store : Store

abbrev WritePool (W : Type) := Program.Pool W WriteCall Ledger ProviderAction ProviderAction.Answer
  (Except ApprovalError ApprovalRequest)

def providerWrites (W : Type) [DecidableEq W] (desk : WriteDesk) :
    Machine (WritePool W) (Program.PoolStep W WriteCall ProviderInput) :=
  Program.pool (ProviderAction.answer desk.runtime desk.requestId)
    (WriteCall.program desk.runtime desk.requestId) { store := desk.store, writes := [] }

end WaitLocalAgent.ProviderWrites
