import WaitLocalAgent.Model.Redaction
import WaitLocalAgent.Model.SmartActions

/-! # Payloads of smart-action approvals

`SmartActionService` with the JSON texts that the store keeps: what a draft run checks, what is
stored of it, and what the approved run is handed. -/

namespace WaitLocalAgent.ActionPayloads

open Foundation Redaction
open Approvals (ApprovalStatus ActionStatus defaultApprovalExpirySeconds maxApprovalExpirySeconds
  nonBlank?)

/-- Library functions: `\w`, `float.__repr__` and the hexadecimal SHA-256 digest of bytes. -/
structure Library where
  words : WordClass
  floats : JsonValue.FloatRepr
  sha256 : ByteArray → String

abbrev Fields := List (String × JsonValue)

/-- A payload, whose floats are given by their `repr`. -/
structure Payload (lib : Library) where
  fields : Fields
  exact : (JsonValue.object fields).exact lib.floats = true

/-- `_payload_digest`, of a payload that `default=str` does not touch. -/
def payloadDigest (lib : Library) (payload : Fields) : String :=
  lib.sha256 (String.ofList ((JsonValue.object payload).sortKeys.write
    ⟨[','], [':']⟩)).toUTF8

structure RequestRow where
  id : ℕ
  actionType : String
  payloadJson : String
  status : ApprovalStatus
  approverId : Option String := none

structure RunRow where
  id : ℕ
  actionId : String
  actor : String
  status : ActionStatus
  payloadDigest : String
  approvalId : Option ℕ

structure Store where
  requests : AutoTable RequestRow.id
  runs : AutoTable RunRow.id

/-- A draft run that waits for an approval. -/
structure Draft (lib : Library) where
  approvalId : ℕ
  payload : Payload lib

/-- An approved run, with the digest that its row has. -/
structure ApprovedRun where
  approvalId : ℕ
  actionId : String
  payload : Fields
  payloadDigest : String

structure Service (lib : Library) where
  store : Store
  drafts : List (Draft lib)
  approvedRuns : List ApprovedRun

/-- The fields of a manifest that an approval depends on. -/
structure Manifest extends SmartActions.SmartActionManifest where
  requiresApproval : Bool
  approvalExpirySeconds : ℤ := defaultApprovalExpirySeconds

abbrev Registry := String → Option Manifest

inductive ServiceError where
  | valueError (message : String)
  | keyError (message : String)
  | permissionError (message : String)
  | quarantinedTicket (message : String)
  deriving DecidableEq, Repr

def isQuarantined (tenancy : Tenancy.Store) (ticketId : Option String) : Bool :=
  ticketId.any fun ticketId => (tenancy.tickets.find? ticketId).any fun ticket =>
    ticket.clientId == quarantineClientId

/-- The text of a field, unless it is blank. -/
def ticketIdOf (payload : Fields) : Option String :=
  match JsonValue.get? payload "ticket_id" with
  | some (.text ticketId) => nonBlank? ticketId
  | _ => none

def approvalTicketId (payload : Fields) : Option String :=
  (ticketIdOf payload).or <| match JsonValue.get? payload "payload" with
    | some (.object nested) => ticketIdOf nested
    | _ => none

/-- A value of a field as the calls on approvals see it, one level deep. -/
def nestedView : JsonValue → Approvals.NestedValue
  | .text value => .text value
  | value => .other value.dumps

def fieldsView {α : Type} (view : JsonValue → α) (fields : Fields) : AList fun _ : String => α :=
  (fields.map fun f => (⟨f.1, view f.2⟩ : Σ _ : String, α)).toAList

def valueView : JsonValue → Approvals.JsonValue
  | .text value => .text value
  | .object fields => .object (fieldsView nestedView fields)
  | value => .other value.dumps

/-- A call of `invoke`, with what the draft run of the action comes to. -/
structure Invocation (lib : Library) where
  actionId : String
  payload : Payload lib
  actor : Option String
  requireApproval : Bool := false
  approvalExpirySeconds : Option ℤ := none
  tenancy : Tenancy.Store
  result : ActionStatus

def Store.createRun (s : Store) (actionId actor : String) (status : ActionStatus)
    (digest : String) : Store :=
  { s with
    runs := s.runs.insert (fun id =>
      { id, actionId, actor, status, payloadDigest := digest, approvalId := none }) fun _ => rfl }

def approvalPayload (actionId : String) (payload : Fields) (runId : ℕ) : Fields :=
  [("action_id", .text actionId), ("payload", .object payload), ("run_id", .int runId)]

/-- `create_pending_smart_action`. The run is linked to its approval in the same transaction. -/
def Store.createPending (lib : Library) (s : Store) (actionId actor digest : String)
    (payload : Fields) : Store where
  requests := s.requests.insert (fun id =>
    { id, actionType := "smart_action:" ++ actionId
      payloadJson := jsonDumpsValue lib.words
        (.object (approvalPayload actionId payload (s.runs.lastKey + 1)))
      status := .pending }) fun _ => rfl
  runs := s.runs.insert (fun id =>
    { id, actionId, actor, status := .pendingApproval, payloadDigest := digest
      approvalId := some (s.requests.lastKey + 1) }) fun _ => rfl

/-- What `invoke` refuses before the action runs. -/
def checkInvocation {lib : Library} (registry : Registry) (call : Invocation lib) :
    Except ServiceError Manifest := do
  raiseIf (JsonValue.get? call.payload.fields "_approval_completed" |>.isSome)
    (.valueError "reserved payload field '_approval_completed' is not permitted")
  match registry call.actionId with
  | none => .error (.keyError call.actionId)
  | some manifest => do
      raiseIf (call.approvalExpirySeconds.any fun seconds =>
          seconds < 1 || maxApprovalExpirySeconds < seconds)
        (.valueError
          s!"approval expiry must be between 1 and {maxApprovalExpirySeconds} seconds")
      raiseIf (isQuarantined call.tenancy (ticketIdOf call.payload.fields))
        (.quarantinedTicket "ticket is quarantined pending client mapping")
      return manifest

def Service.invoke {lib : Library} (registry : Registry) (s : Service lib)
    (call : Invocation lib) : Except ServiceError (Service lib) := do
  let manifest ← checkInvocation registry call
  let digest := payloadDigest lib call.payload.fields
  match call.actor.filter fun name => Text.strip name != "" with
  | none => return { s with store := s.store.createRun manifest.actionId "" .notAuthorized digest }
  | some actor =>
      if (manifest.requiresApproval || call.requireApproval) && call.result == .success then
        raiseIf (isQuarantined call.tenancy (ticketIdOf call.payload.fields))
          (.quarantinedTicket "ticket is quarantined pending client mapping")
        return { s with
          store := s.store.createPending lib manifest.actionId actor digest call.payload.fields
          drafts := s.drafts ++ [⟨s.store.requests.lastKey + 1, call.payload⟩] }
      else
        return { s with store := s.store.createRun manifest.actionId actor call.result digest }

/-- `row["action_type"].startswith(prefix)`. -/
def RequestRow.hasType (row : RequestRow) (start : String) : Bool :=
  start.toList.isPrefixOf row.actionType.toList

/-- `approval.payload_json`, as `get_approval_request` hands it out. -/
def RequestRow.payload (lib : Library) (row : RequestRow) : Fields :=
  jsonObject lib.floats.repr (redactJsonText lib.words lib.floats.repr row.payloadJson)

/-- `_expire_approval_request`, of a row that is due. -/
def Store.expire (s : Store) (requestId : ℕ) : Store where
  requests := s.requests.update (fun row => row.id == requestId && row.status == .pending)
    (fun row => { row with status := .expired, approverId := some "system:approval-expiry" })
    fun _ => rfl
  runs := s.runs.update
    (fun run => run.approvalId == some requestId && run.status == .pendingApproval &&
      (s.requests.find? requestId).any (RequestRow.hasType · "smart_action:"))
    (fun run => { run with status := .rejected }) fun _ => rfl

/-- `update_approval_request`, of a row that is pending. -/
def Store.decide (s : Store) (requestId : ℕ) (status : ApprovalStatus) (approver : Option String) :
    Store :=
  { s with
    requests := s.requests.update (fun row => row.id == requestId && row.status == .pending)
      (fun row => { row with status, approverId := approver.or row.approverId }) fun _ => rfl }

def Store.createRequest (lib : Library) (s : Store) (actionType : String) (payload : Fields) :
    Store :=
  { s with
    requests := s.requests.insert (fun id =>
      { id, actionType, payloadJson := jsonDumpsValue lib.words (.object payload)
        status := .pending }) fun _ => rfl }

/-- `update_approval_request_payload`, whose callers edit HaloPSA and ConnectWise drafts. -/
def Store.editPayload (lib : Library) (s : Store) (requestId : ℕ) (payload : Fields) : Store :=
  { s with
    requests := s.requests.update
      (fun row => row.id == requestId && row.status == .pending &&
        (row.hasType "halopsa." || row.hasType "connectwise."))
      (fun row => { row with payloadJson := jsonDumpsValue lib.words (.object payload) })
      fun _ => rfl }

/-- A call of `complete_approval`, with what the approved run comes to. -/
structure Completion where
  approvalId : ℕ
  approver : Option String
  role : Option Access.Role
  tenancy : Tenancy.Store
  result : ActionStatus

/-- The first of `list_smart_action_runs`, which come in descending order, for an approval. -/
def Store.newestRun (s : Store) (approvalId : ℕ) : Option RunRow :=
  s.runs.table.rows.reverse.find? fun run => run.approvalId == some approvalId

def Store.completeRun (s : Store) (run : RunRow) (approval : RequestRow) (approver : String)
    (status : ActionStatus) : Store :=
  if run.status = .pendingApproval ∧ SmartActions.completable status ∧
      (approval.status = .approved ∨ approval.status = .rejected) ∧
      approval.approverId.getD "" = approver then
    { s with
      runs := s.runs.update (fun r => r.id == run.id) (fun r => { r with status }) fun _ => rfl }
  else s

/-- What `complete_approval` refuses: the approver, once it may complete the run. -/
def checkApprover (run : RunRow) (approver : Option String) (role : Option Access.Role) :
    Except ServiceError String :=
  match approver.filter fun name => Text.strip name != "" with
  | none => .error (.permissionError "approver is required")
  | some name => do
      raiseIf (¬ role.any fun r => Access.Role.technician ≤ r)
        (.permissionError "approver must have technician or admin authority")
      raiseIf (name = run.actor)
        (.permissionError "requesting actor cannot approve its own smart action")
      return name

/-- `approval.action_type.removeprefix("smart_action:")`. -/
def RequestRow.actionId (row : RequestRow) : String :=
  .ofList (row.actionType.toList.drop "smart_action:".toList.length)

/-- `{**payload, "_approval_completed": True}`, of the stored payload. -/
def approvedPayload (payload : Fields) : Option Fields :=
  match JsonValue.get? payload "payload" with
  | some (.object payload) =>
      some (JsonValue.set payload "_approval_completed" (.bool true))
  | _ => none

def Service.runApproved {lib : Library} (registry : Registry) (s : Service lib) (run : RunRow)
    (approval : RequestRow) (approver : String) (call : Completion) :
    Except ServiceError (Service lib) := do
  let manifest := registry approval.actionId
  raiseIf (manifest.any fun manifest => ¬ call.role.any fun r => manifest.role ≤ r)
    (.permissionError s!"{approval.actionId} approval requires more authority")
  match approvedPayload (approval.payload lib), manifest with
  | some payload, some _ =>
      return { s with
        store := s.store.completeRun run approval approver call.result
        approvedRuns := s.approvedRuns ++
          [⟨call.approvalId, approval.actionId, payload, run.payloadDigest⟩] }
  | _, _ => return { s with store := s.store.completeRun run approval approver .failed }

def Service.completeApproval {lib : Library} (registry : Registry) (s : Service lib)
    (call : Completion) : Except ServiceError (Service lib) :=
  match (s.store.requests.find? call.approvalId).filter (RequestRow.hasType · "smart_action:") with
  | none => .ok s
  | some approval =>
      match s.store.newestRun call.approvalId with
      | none => .error (.keyError s!"smart action run for approval {call.approvalId} not found")
      | some run =>
          if isQuarantined call.tenancy (approvalTicketId (approval.payload lib)) then .ok s
          else do
            let approver ← checkApprover run call.approver call.role
            match approval.status with
            | .rejected =>
                return { s with store := s.store.completeRun run approval approver .rejected }
            | .approved =>
                if run.status ≠ .pendingApproval then return s
                else s.runApproved registry run approval approver call
            | _ => return s

inductive Call (lib : Library) where
  | invoke (call : Invocation lib)
  | createRequest (actionType : String) (payload : Fields)
  | editPayload (requestId : ℕ) (payload : Fields)
  | expire (requestId : ℕ)
  | decide (requestId : ℕ) (status : ApprovalStatus) (approver : Option String)
  | complete (call : Completion)

/-- A call that raises leaves the service as it was. -/
def Service.step {lib : Library} (registry : Registry) (s : Service lib) :
    Call lib → Service lib
  | .invoke call => ((s.invoke registry call).toOption).getD s
  | .createRequest actionType payload =>
      { s with store := s.store.createRequest lib actionType payload }
  | .editPayload requestId payload => { s with store := s.store.editPayload lib requestId payload }
  | .expire requestId => { s with store := s.store.expire requestId }
  | .decide requestId status approver =>
      { s with store := s.store.decide requestId status approver }
  | .complete call => ((s.completeApproval registry call).toOption).getD s

def service (lib : Library) (registry : Registry) : Machine (Service lib) (Call lib) where
  init := { store := ⟨.empty, .empty⟩, drafts := [], approvedRuns := [] }
  step := Service.step registry

end WaitLocalAgent.ActionPayloads
