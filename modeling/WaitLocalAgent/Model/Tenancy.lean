import WaitLocalAgent.Foundation.Table
import WaitLocalAgent.Foundation.Fallible
import WaitLocalAgent.Foundation.Machine
import WaitLocalAgent.Model.ClientScope

/-! # Clients, connectors and the unmapped ledger

The tables behind ticket ownership, and the store operations that set them up. A call that
raises rolls its transaction back. -/

namespace WaitLocalAgent.Tenancy

open Foundation

inductive ClientStatus where
  | active
  | archived
  | quarantine
  deriving DecidableEq, Repr

/-- `_CLIENT_STATUSES`, after `strip` and `lower`. -/
def ClientStatus.parse? (status : String) : Option ClientStatus :=
  match Text.lower (Text.strip status) with
  | "active" => some .active
  | "archived" => some .archived
  | "quarantine" => some .quarantine
  | _ => none

inductive ConnectorInstanceStatus where
  | inactive
  | active
  | error
  | disabled
  deriving DecidableEq, Repr

/-- `_CONNECTOR_INSTANCE_STATUSES`, after `strip` and `lower`. -/
def ConnectorInstanceStatus.parse? (status : String) : Option ConnectorInstanceStatus :=
  match Text.lower (Text.strip status) with
  | "inactive" => some .inactive
  | "active" => some .active
  | "error" => some .error
  | "disabled" => some .disabled
  | _ => none

structure Client where
  clientId : ClientId
  name : String
  status : ClientStatus
  deriving DecidableEq

structure ConnectorInstance where
  connectorInstanceId : NormalizedText
  connectorType : String
  displayName : String
  clientId : Option ClientId
  status : ConnectorInstanceStatus
  deriving DecidableEq

structure ClientConnectorMapping where
  mappingId : NormalizedText
  connectorInstanceId : NormalizedText
  externalCompanyId : NormalizedText
  externalCompanyName : Option String
  clientId : ClientId
  verified : Bool
  deriving DecidableEq

structure UnmappedRecord where
  recordId : NormalizedText
  connectorInstanceId : NormalizedText
  externalCompanyId : Option NormalizedText
  externalId : Option NormalizedText
  recordType : String
  payloadDigest : Option String
  reason : String
  createdAt : String
  lastSeenAt : String
  occurrenceCount : ℕ
  resolvedAt : Option String
  deriving DecidableEq

structure Ticket where
  id : String
  client : String
  subject : String
  body : String
  priority : String
  status : String
  clientId : ClientId
  requesterId : Option String
  createdAt : String
  updatedAt : String
  sourceSystem : Option String
  connectorInstanceId : Option NormalizedText
  externalId : Option NormalizedText
  externalClientId : Option NormalizedText
  deriving DecidableEq

/-- A row of `ticket_status_history`. -/
structure TicketStatusChange where
  ticketId : String
  clientId : ClientId
  fromStatus : String
  toStatus : String
  changedAt : String
  source : String
  deriving DecidableEq

structure Store where
  clients : Table Client.clientId
  instances : Table ConnectorInstance.connectorInstanceId
  mappings : Table ClientConnectorMapping.mappingId
  unmapped : Table UnmappedRecord.recordId
  tickets : Table Ticket.id
  history : List TicketStatusChange

/-- A fresh store holds the reserved client alone. -/
def Store.fresh : Store where
  clients := .singleton
    { clientId := quarantineClientId, name := "Unmapped / Quarantine", status := .quarantine }
  instances := .empty
  mappings := .empty
  unmapped := .empty
  tickets := .empty
  history := []

inductive TenancyError where
  | valueError (message : String)
  | keyError (key : String)
  | integrityError
  | mappingConflict (message : String)
  | retenantState (message : String)
  | retenantTarget (message : String)
  | quarantinedTicket (message : String)
  | runtimeError (message : String)
  deriving DecidableEq, Repr

/-- Library functions that the store leans on: `uuid5` over the connector identity, `str.lower`,
the digest of a provider record, and `redact_text`. -/
structure Runtime (ρ : Type) where
  ticketUuid : NormalizedText → NormalizedText → String
  lower : String → String
  payloadDigest : ρ → String
  redactText : String → String

/-- `AllClients` or `BoundClients`. -/
inductive ClientScope where
  | allClients
  | boundClients (clientIds : List String)

def ClientScope.admits : ClientScope → ClientId → Bool
  | allClients, _ => true
  | boundClients clientIds, clientId => clientIds.contains clientId.val

def rejectReservedClientId (clientId : Option ClientId) : Except TenancyError Unit :=
  if clientId = some quarantineClientId then
    .error (.valueError "__quarantine__ is reserved")
  else .ok ()

/-- `_normalize_client_id`, raising when nothing is left. -/
def required (value : Option String) (message : String) : Except TenancyError NormalizedText :=
  match normalizeClientId value with
  | some text => .ok text
  | none => .error (.valueError message)

def Store.isActive (s : Store) (clientId : ClientId) : Bool :=
  (s.clients.find? clientId).any fun c => c.status == .active

def requireActiveClient (s : Store) (clientId : ClientId) : Except TenancyError Unit :=
  if s.isActive clientId then .ok ()
  else .error (.valueError "client_id must refer to an active client")

def createClient {ρ : Type} (rt : Runtime ρ) (s : Store) (clientId name : String) :
    Except TenancyError Store := do
  let normalizedId ← required (some clientId) "client_id must be non-empty"
  rejectReservedClientId (some normalizedId)
  raiseIf (Text.strip name = "") (.valueError "client name must be non-empty")
  match s.clients.insert?
    { clientId := normalizedId, name := rt.redactText (Text.strip name), status := .active } with
  | some clients => .ok { s with clients }
  | none => .error .integrityError

/-- `Store.set_client_status`; an unknown client changes nothing. -/
def setClientStatus (s : Store) (scope : ClientScope) (clientId status : String) :
    Except TenancyError Store :=
  match normalizeClientId (some clientId) with
  | none => .ok s
  | some normalizedId => do
      rejectReservedClientId (some normalizedId)
      match ClientStatus.parse? status with
      | none => .error (.valueError "unsupported client status")
      | some normalizedStatus =>
          .ok { s with
            clients := s.clients.update
              (fun c => c.clientId = normalizedId && scope.admits c.clientId)
              (fun c => { c with status := normalizedStatus }) (fun _ => rfl) }

def Store.nameTaken (s : Store) (id : NormalizedText) (connectorType displayName : String) :
    Bool :=
  s.instances.rows.any fun i =>
    i.connectorInstanceId != id && i.connectorType == connectorType &&
      i.displayName == displayName

def requireClient (s : Store) (clientId : Option ClientId) : Except TenancyError Unit :=
  match clientId with
  | none => .ok ()
  | some c =>
      if (s.clients.find? c).isSome then .ok () else .error (.keyError c.val)

def createConnectorInstance {ρ : Type} (rt : Runtime ρ) (s : Store) (id : NormalizedText)
    (connectorType displayName : String) (clientId : Option String) :
    Except TenancyError Store := do
  raiseIf (Text.strip connectorType = "") (.valueError "connector_type must be non-empty")
  raiseIf (Text.strip displayName = "") (.valueError "display_name must be non-empty")
  rejectReservedClientId (normalizeClientId clientId)
  requireClient s (normalizeClientId clientId)
  let row : ConnectorInstance :=
    { connectorInstanceId := id
      connectorType := rt.redactText (Text.strip connectorType)
      displayName := rt.redactText (Text.strip displayName)
      clientId := normalizeClientId clientId
      status := .inactive }
  raiseIf (s.nameTaken id row.connectorType row.displayName) .integrityError
  match s.instances.insert? row with
  | some instances => .ok { s with instances }
  | none => .error .integrityError

/-- The keyword arguments of `update_connector_instance`: absent, `None` or text. -/
structure InstanceFields where
  connectorType : Option (Option String) := none
  displayName : Option (Option String) := none
  clientId : Option (Option String) := none
  status : Option String := none

/-- A text field that may be left alone but not emptied. -/
def checkedText (field : Option (Option String)) (message : String) :
    Except TenancyError (Option String) :=
  match field with
  | none => .ok none
  | some value => (required value message).map fun text => some text.val

def checkedStatus (field : Option String) :
    Except TenancyError (Option ConnectorInstanceStatus) :=
  match field with
  | none => .ok none
  | some status =>
      match ConnectorInstanceStatus.parse? status with
      | some parsed => .ok (some parsed)
      | none => .error (.valueError "unsupported connector instance status")

/-- `Store.update_connector_instance`; an unknown instance changes nothing. -/
def updateConnectorInstance (s : Store) (connectorInstanceId : String) (fields : InstanceFields) :
    Except TenancyError Store :=
  match normalizeClientId (some connectorInstanceId) with
  | none => .ok s
  | some id => do
      let connectorType ← checkedText fields.connectorType "connector_type must be non-empty"
      let displayName ← checkedText fields.displayName "display_name must be non-empty"
      rejectReservedClientId (fields.clientId.bind normalizeClientId)
      let status ← checkedStatus fields.status
      requireClient s (fields.clientId.bind normalizeClientId)
      match s.instances.find? id with
      | none => .ok s
      | some stored => do
          let assigned : ConnectorInstance :=
            { stored with
              connectorType := connectorType.getD stored.connectorType
              displayName := displayName.getD stored.displayName
              clientId := (fields.clientId.map normalizeClientId).getD stored.clientId
              status := status.getD stored.status }
          raiseIf (s.nameTaken id assigned.connectorType assigned.displayName) .integrityError
          return { s with
            instances := s.instances.update (fun i => i.connectorInstanceId = id)
              (fun i => { assigned with connectorInstanceId := i.connectorInstanceId })
              (fun _ => rfl) }

/-- `Store.create_client_connector_mapping` under the generated id. -/
def createClientConnectorMapping {ρ : Type} (rt : Runtime ρ) (s : Store) (scope : ClientScope)
    (mappingId : NormalizedText) (connectorInstanceId externalCompanyId clientId : String)
    (externalCompanyName : Option String) : Except TenancyError Store := do
  let instanceId ← required (some connectorInstanceId) "connector_instance_id must be non-empty"
  let companyId ← required (some externalCompanyId) "external_company_id must be non-empty"
  let client ← required (some clientId) "client_id must be non-empty"
  rejectReservedClientId (some client)
  raiseIf ((s.clients.find? client).isNone || !scope.admits client) (.keyError client.val)
  raiseIf (s.instances.find? instanceId).isNone (.keyError instanceId.val)
  match s.mappings.insert?
    { mappingId, connectorInstanceId := instanceId, externalCompanyId := companyId,
      externalCompanyName := (normalizeClientId externalCompanyName).map fun n =>
        rt.redactText n.val,
      clientId := client, verified := false } with
  | some mappings => .ok { s with mappings }
  | none => .error .integrityError

/-- `order by created_at, record_id`. -/
def earlierRecord (r q : UnmappedRecord) : Prop :=
  r.createdAt < q.createdAt ∨ (r.createdAt = q.createdAt ∧ r.recordId.val ≤ q.recordId.val)

instance : DecidableRel earlierRecord := fun r q =>
  inferInstanceAs (Decidable (r.createdAt < q.createdAt ∨
    (r.createdAt = q.createdAt ∧ r.recordId.val ≤ q.recordId.val)))

def UnmappedRecord.openFor (r : UnmappedRecord) (instanceId : NormalizedText)
    (externalId : Option NormalizedText) (recordType : String) : Bool :=
  r.connectorInstanceId == instanceId && r.externalId == externalId &&
    r.recordType == recordType && r.resolvedAt.isNone

/-- What a sighting of an unmapped record says. -/
structure Sighting where
  connectorInstanceId : NormalizedText
  externalCompanyId : Option NormalizedText
  externalId : Option NormalizedText
  recordType : String
  payloadDigest : Option String
  reason : String

def Sighting.overwrite (seen : Sighting) (seenAt : String) (r : UnmappedRecord) :
    UnmappedRecord :=
  { r with
    externalCompanyId := seen.externalCompanyId
    payloadDigest := seen.payloadDigest
    reason := seen.reason
    lastSeenAt := seenAt
    occurrenceCount := r.occurrenceCount + 1 }

def Store.openRecord? (s : Store) (seen : Sighting) : Option UnmappedRecord :=
  ((s.unmapped.rows.filter fun r : UnmappedRecord =>
    r.openFor seen.connectorInstanceId seen.externalId seen.recordType).insertionSort
      earlierRecord).head?

/-- `_record_unmapped`: one open row for each record, which every sighting overwrites. -/
def recordUnmapped (s : Store) (seen : Sighting) (createdAt : String) (recordId : NormalizedText) :
    Except TenancyError Store :=
  if (s.instances.find? seen.connectorInstanceId).isNone then
    .error (.keyError seen.connectorInstanceId.val)
  else
    match s.openRecord? seen with
    | some existing =>
        .ok { s with
          unmapped := s.unmapped.update (fun r => r.recordId = existing.recordId)
            (seen.overwrite createdAt) (fun _ => rfl) }
    | none =>
        match s.unmapped.insert?
          { recordId
            connectorInstanceId := seen.connectorInstanceId
            externalCompanyId := seen.externalCompanyId
            externalId := seen.externalId
            recordType := seen.recordType
            payloadDigest := seen.payloadDigest
            reason := seen.reason
            createdAt
            lastSeenAt := createdAt
            occurrenceCount := 1
            resolvedAt := none } with
        | some unmapped => .ok { s with unmapped }
        | none => .error .integrityError

def recordUnmappedRecord (s : Store) (connectorInstanceId : String)
    (externalCompanyId externalId : Option String) (recordType : String)
    (payloadDigest : Option String) (reason createdAt : String) (recordId : NormalizedText) :
    Except TenancyError Store := do
  let instanceId ← required (some connectorInstanceId) "connector_instance_id must be non-empty"
  let normalizedType ← required (some recordType) "record_type must be non-empty"
  let normalizedReason ← required (some reason) "reason must be non-empty"
  recordUnmapped s
    { connectorInstanceId := instanceId
      externalCompanyId := normalizeClientId externalCompanyId
      externalId := normalizeClientId externalId
      recordType := normalizedType.val
      payloadDigest := (normalizeClientId payloadDigest).map Subtype.val
      reason := normalizedReason.val } createdAt recordId

/-- `resolved_at = coalesce(resolved_at, ?)`. -/
def UnmappedRecord.resolve (now : String) (r : UnmappedRecord) : UnmappedRecord :=
  { r with resolvedAt := r.resolvedAt <|> some now }

theorem UnmappedRecord.resolve_recordId (now : String) (r : UnmappedRecord) :
    (r.resolve now).recordId = r.recordId := rfl

def resolveUnmappedRecord (s : Store) (recordId now : String) : Except TenancyError Store :=
  match normalizeClientId (some recordId) with
  | none => .ok s
  | some id =>
      .ok { s with
        unmapped := s.unmapped.update (fun r => r.recordId = id)
          (UnmappedRecord.resolve now) (UnmappedRecord.resolve_recordId now) }

def Store.verifiedClients (s : Store) (instanceId companyId : NormalizedText) : List ClientId :=
  (s.mappings.rows.filter fun m =>
    m.connectorInstanceId == instanceId && m.externalCompanyId == companyId && m.verified &&
      (s.clients.find? m.clientId).isSome).map ClientConnectorMapping.clientId

end WaitLocalAgent.Tenancy
