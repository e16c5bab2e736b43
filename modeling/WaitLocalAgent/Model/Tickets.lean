import WaitLocalAgent.Model.Tenancy

/-! # Ticket writers

The store operations that write tickets: local and provider ingestion, end-user tickets, mapping
verification and the operator's way out of quarantine. -/

namespace WaitLocalAgent.Tenancy

open Foundation

/-- A ticket as a caller hands it over. -/
structure TicketInput where
  id : String
  client : String
  subject : String
  body : String
  priority : String
  status : String
  clientId : Option String := none
  requesterId : Option String := none
  createdAt : String := ""
  updatedAt : String := ""
  sourceSystem : Option String := none
  connectorInstanceId : Option String := none
  externalId : Option String := none
  externalClientId : Option String := none

structure IngestSummary where
  written : ℕ
  quarantined : ℕ
  deriving DecidableEq

/-- The clock readings and the generated id that the handling of one provider record uses. -/
structure Stamp where
  upsertedAt : String
  recordedAt : String
  recordId : NormalizedText

def orText (a b : String) : String := if a = "" then b else a

def recordTicketStatusHistory (rt : Runtime TicketInput) (s : Store) (ticketId : String)
    (clientId : ClientId) (fromStatus toStatus changedAt source : String) : Store :=
  { s with
    history := s.history ++
      [{ ticketId := rt.redactText ticketId, clientId, fromStatus := rt.redactText fromStatus,
         toStatus := rt.redactText toStatus, changedAt, source := rt.redactText source }] }

/-- `a.strip().lower() != b.strip().lower()`. -/
def statusChanged (rt : Runtime TicketInput) (previous status : String) : Bool :=
  rt.lower (Text.strip previous) != rt.lower (Text.strip status)

def requireTicketNotQuarantined (s : Store) (ticketId : String) : Except TenancyError Unit :=
  if (s.tickets.find? ticketId).any fun t => t.clientId == quarantineClientId then
    .error (.quarantinedTicket s!"ticket {ticketId} is quarantined pending client mapping")
  else .ok ()

/-- `seed_ticket_requester`, which writes to the operational graph alone; a ticket whose id is
blank has no reference there. -/
def seedTicketRequester (s : Store) (clientId : ClientId) (ticketId : String) :
    Except TenancyError Unit :=
  match (s.tickets.find? (Text.strip ticketId)).filter fun t =>
    t.clientId == clientId && t.clientId != quarantineClientId with
  | none => .ok ()
  | some t =>
      if t.requesterId.all fun requester => Text.strip requester = "" then .ok ()
      else raiseIf (Text.strip t.id = "") (.valueError "external_id must be non-empty")

/-! ## Local ingestion -/

def TicketInput.localRow (t : TicketInput) (now : String) (clientId : ClientId) : Ticket where
  id := t.id
  client := t.client
  subject := t.subject
  body := t.body
  priority := t.priority
  status := t.status
  clientId := clientId
  requesterId := t.requesterId
  createdAt := orText (Text.strip t.createdAt) now
  updatedAt := orText (Text.strip t.updatedAt) (orText (Text.strip t.createdAt) now)
  sourceSystem := some "local"
  connectorInstanceId := none
  externalId := none
  externalClientId := none

def Ticket.overwriteById (new old : Ticket) : Ticket :=
  { new with
    id := old.id
    createdAt := if old.createdAt = "" then new.createdAt else old.createdAt }

theorem Ticket.overwriteById_id (new old : Ticket) : (new.overwriteById old).id = old.id := rfl

def Ticket.hasProvenance (t : Ticket) : Bool :=
  t.connectorInstanceId.isSome || t.externalId.isSome || t.externalClientId.isSome

/-- The upsert of `_write_ingested_ticket`, after its ownership checks. -/
def upsertLocalTicket (s : Store) (row : Ticket) : Except TenancyError Store :=
  match s.tickets.find? row.id with
  | some existing =>
      if existing.hasProvenance then
        .error (.valueError "local ingestion cannot take over a connector ticket")
      else if existing.clientId ≠ row.clientId then
        .error (.valueError "local ingestion cannot take over a ticket owned by another client")
      else
        .ok { s with
          tickets := s.tickets.update (fun t => t.id = row.id) row.overwriteById
            row.overwriteById_id }
  | none =>
      match s.tickets.insert? row with
      | some tickets => .ok { s with tickets }
      | none => .error .integrityError

def writeIngestedTicket (rt : Runtime TicketInput) (now : String) (clientId : ClientId)
    (s : Store) (t : TicketInput) : Except TenancyError Store := do
  let row := t.localRow now clientId
  let previousStatus := (s.tickets.find? row.id).map Ticket.status
  let written ← upsertLocalTicket s row
  if previousStatus.isNone || statusChanged rt (previousStatus.getD "") t.status then
    return recordTicketStatusHistory rt written t.id clientId (previousStatus.getD "") t.status
      (orText row.updatedAt now) "ticket_ingest"
  else return written

def checkLocalTicket (clientId : ClientId) (t : TicketInput) : Except TenancyError Unit :=
  if t.connectorInstanceId.isSome || t.externalId.isSome || t.externalClientId.isSome then
    .error (.valueError "connector provenance must use ingest_provider_tickets")
  else if (normalizeClientId t.clientId).any (· != clientId) then
    .error (.valueError "ticket client_id conflicts with the local ingestion tenant")
  else .ok ()

/-- The loop of `ingest_tickets`: every ticket is its own transaction, committed before its graph
is seeded. -/
def ingestEach (rt : Runtime TicketInput) (clientId : ClientId) :
    Store → List (TicketInput × String) → Store × Option TenancyError
  | s, [] => (s, none)
  | s, (t, now) :: rest =>
      match checkLocalTicket clientId t with
      | .error e => (s, some e)
      | .ok () =>
          match writeIngestedTicket rt now clientId s t with
          | .error e => (s, some e)
          | .ok s' =>
              match seedTicketRequester s' clientId t.id with
              | .error e => (s', some e)
              | .ok () => ingestEach rt clientId s' rest

/-- `Store.ingest_tickets`, each ticket with the clock reading of its write. -/
def ingestTickets (rt : Runtime TicketInput) (s : Store) (clientId : String)
    (tickets : List (TicketInput × String)) : Store × Except TenancyError IngestSummary :=
  match normalizeClientId (some clientId) with
  | none => (s, .error (.valueError "client_id must be non-empty"))
  | some normalizedId =>
      match requireActiveClient s normalizedId with
      | .error e => (s, .error e)
      | .ok () =>
          match ingestEach rt normalizedId s tickets with
          | (s', none) => (s', .ok ⟨tickets.length, 0⟩)
          | (s', some e) => (s', .error e)

/-! ## Provider ingestion -/

/-- A provider record that has passed its checks, under its connector identity. -/
structure ProviderRecord where
  input : TicketInput
  instanceId : NormalizedText
  externalId : NormalizedText
  companyId : NormalizedText

def checkProviderRecord (instanceId : NormalizedText) (sourceSystem : String)
    (record : TicketInput) : Except TenancyError ProviderRecord := do
  raiseIf record.clientId.isSome (.valueError "provider records must not carry client_id")
  raiseIf (normalizeClientId record.connectorInstanceId ≠ some instanceId)
    (.valueError "provider record connector_instance_id conflicts with the method argument")
  match normalizeClientId record.externalId, normalizeClientId record.externalClientId with
  | some externalId, some companyId => do
      raiseIf (record.sourceSystem.isSome ∧
          (normalizeClientId record.sourceSystem).map Subtype.val ≠ some sourceSystem)
        (.valueError "provider source_system must match the connector type")
      return { input := record, instanceId, externalId, companyId }
  | _, _ => .error (.valueError "provider records require external_id and external_client_id")

def ProviderRecord.row (rt : Runtime TicketInput) (r : ProviderRecord) (now sourceSystem : String)
    (clientId : ClientId) : Ticket where
  id := rt.ticketUuid r.instanceId r.externalId
  client := r.input.client
  subject := r.input.subject
  body := r.input.body
  priority := r.input.priority
  status := r.input.status
  clientId := clientId
  requesterId := r.input.requesterId
  createdAt := orText (Text.strip r.input.createdAt) now
  updatedAt := orText (Text.strip r.input.updatedAt) (orText (Text.strip r.input.createdAt) now)
  sourceSystem := some sourceSystem
  connectorInstanceId := some r.instanceId
  externalId := some r.externalId
  externalClientId := some r.companyId

/-- `on conflict(connector_instance_id, external_id) do update`. -/
def Ticket.overwriteByIdentity (new old : Ticket) : Ticket :=
  { new with
    id := old.id
    createdAt := if old.createdAt = "" then new.createdAt else old.createdAt
    connectorInstanceId := old.connectorInstanceId
    externalId := old.externalId }

theorem Ticket.overwriteByIdentity_id (new old : Ticket) :
    (new.overwriteByIdentity old).id = old.id := rfl

def Store.findByIdentity? (s : Store) (instanceId externalId : NormalizedText) : Option Ticket :=
  s.tickets.rows.find? fun t =>
    t.connectorInstanceId == some instanceId && t.externalId == some externalId

/-- `_upsert_provider_ticket`: the id of the ticket, its status before, and whether the record was
written. -/
def upsertProviderTicket (s : Store) (new : Ticket) (instanceId externalId : NormalizedText) :
    Except TenancyError (Store × String × String × Bool) :=
  match s.findByIdentity? instanceId externalId with
  | some existing =>
      if existing.clientId ≠ new.clientId then .ok (s, existing.id, existing.status, false)
      else
        .ok ({ s with
          tickets := s.tickets.update (fun t => t.id = existing.id) new.overwriteByIdentity
            new.overwriteByIdentity_id }, existing.id, existing.status, true)
  | none =>
      match s.tickets.insert? new with
      | some tickets => .ok ({ s with tickets }, new.id, "", true)
      | none => .error .integrityError

def ProviderRecord.sighting (rt : Runtime TicketInput) (r : ProviderRecord) (reason : String) :
    Sighting where
  connectorInstanceId := r.instanceId
  externalCompanyId := some r.companyId
  externalId := some r.externalId
  recordType := "ticket"
  payloadDigest := some (rt.payloadDigest r.input)
  reason := reason

/-- A record whose company has no single verified mapping is held in quarantine. -/
def quarantineRecord (rt : Runtime TicketInput) (sourceSystem : String) (stamp : Stamp)
    (s : Store) (r : ProviderRecord) : Except TenancyError Store := do
  let (s', _) ← upsertProviderTicket s
    (r.row rt stamp.upsertedAt sourceSystem quarantineClientId) r.instanceId r.externalId
  recordUnmapped s' (r.sighting rt "no_verified_mapping") stamp.recordedAt stamp.recordId

/-- A record whose company is mapped to `clientId`: written, with the id of its ticket, or sighted
as an ownership conflict. -/
def tenantRecord (rt : Runtime TicketInput) (sourceSystem : String) (stamp : Stamp)
    (clientId : ClientId) (s : Store) (r : ProviderRecord) :
    Except TenancyError (Store × Option String) := do
  let (s', ticketId, previousStatus, persisted) ← upsertProviderTicket s
    (r.row rt stamp.upsertedAt sourceSystem clientId) r.instanceId r.externalId
  if !persisted then
    let s'' ← recordUnmapped s' (r.sighting rt "ownership_conflict") stamp.recordedAt
      stamp.recordId
    return (s'', none)
  else if previousStatus == "" || statusChanged rt previousStatus r.input.status then
    return (recordTicketStatusHistory rt s' ticketId clientId previousStatus r.input.status
      (orText (Text.strip r.input.updatedAt)
        (orText (Text.strip r.input.createdAt) stamp.recordedAt)) "ticket_ingest",
      some ticketId)
  else return (s', some ticketId)

/-- The checks on the client that a verified mapping names. -/
def checkResolvedClient (s : Store) (connector : ConnectorInstance) (clientId : ClientId) :
    Except TenancyError Unit :=
  if !s.isActive clientId then .error (.valueError "resolved client must be active")
  else if connector.clientId.any (· != clientId) then
    .error (.valueError "connector instance client conflicts with the verified mapping")
  else .ok ()

/-- `written`, `quarantined` and `graph_seeds`. -/
structure IngestProgress where
  written : ℕ
  quarantined : ℕ
  graphSeeds : List (ClientId × String)
  deriving DecidableEq

def IngestProgress.hold (progress : IngestProgress) : IngestProgress :=
  { progress with quarantined := progress.quarantined + 1 }

def IngestProgress.count (progress : IngestProgress) (clientId : ClientId) (ticketId : String) :
    IngestProgress :=
  { progress with
    written := progress.written + 1
    graphSeeds := progress.graphSeeds ++ [(clientId, ticketId)] }

def ingestProviderRecord (rt : Runtime TicketInput) (connector : ConnectorInstance)
    (state : Store × IngestProgress) (recordStamp : TicketInput × Stamp) :
    Except TenancyError (Store × IngestProgress) := do
  let (s, progress) := state
  let (record, stamp) := recordStamp
  let sourceSystem := Text.strip connector.connectorType
  let r ← checkProviderRecord connector.connectorInstanceId sourceSystem record
  match s.verifiedClients r.instanceId r.companyId with
  | [clientId] =>
      checkResolvedClient s connector clientId
      let (s', written) ← tenantRecord rt sourceSystem stamp clientId s r
      match written with
      | some ticketId => return (s', progress.count clientId ticketId)
      | none => return (s', progress.hold)
  | _ =>
      let s' ← quarantineRecord rt sourceSystem stamp s r
      return (s', progress.hold)

def ingestProviderRecords (rt : Runtime TicketInput) (s : Store) (connectorInstanceId : String)
    (records : List (TicketInput × Stamp)) : Except TenancyError (Store × IngestProgress) := do
  let instanceId ← required (some connectorInstanceId) "connector_instance_id must be non-empty"
  match s.instances.find? instanceId with
  | none => .error (.keyError instanceId.val)
  | some connector => do
      raiseIf (connector.status ≠ .active) (.valueError "connector instance must be active")
      records.foldlM (ingestProviderRecord rt connector) (s, ⟨0, 0, []⟩)

/-- `Store.ingest_provider_tickets`: the graph is seeded once the transaction has committed. -/
def ingestProviderTickets (rt : Runtime TicketInput) (s : Store) (connectorInstanceId : String)
    (records : List (TicketInput × Stamp)) : Store × Except TenancyError IngestSummary :=
  match ingestProviderRecords rt s connectorInstanceId records with
  | .error e => (s, .error e)
  | .ok (s', progress) =>
      (s', do
        progress.graphSeeds.forM fun seed => seedTicketRequester s' seed.1 seed.2
        return ⟨progress.written, progress.quarantined⟩)

/-! ## End-user tickets -/

structure EndUserRequest where
  clientId : String
  requesterId : String
  subject : String
  body : String
  connectorInstanceId : Option String := none
  externalId : Option String := none
  externalClientId : Option String := none

def EndUserRequest.row (rt : Runtime TicketInput) (request : EndUserRequest) (now id : String)
    (clientId : ClientId) : Ticket where
  id := id
  client := clientId.val
  subject := rt.redactText (Text.strip request.subject)
  body := rt.redactText (Text.strip request.body)
  priority := "normal"
  status := "new"
  clientId := clientId
  requesterId := some (rt.redactText (Text.strip request.requesterId))
  createdAt := now
  updatedAt := now
  sourceSystem := some "local"
  connectorInstanceId := none
  externalId := none
  externalClientId := none

/-- The attempts of `create_end_user_ticket` at a fresh id. -/
def allocateEndUserTicket (rt : Runtime TicketInput) (s : Store) (request : EndUserRequest)
    (now : String) (clientId : ClientId) : List String → Except TenancyError Store
  | [] => .error (.runtimeError "end-user ticket ID allocation failed")
  | id :: ids =>
      match requireTicketNotQuarantined s id with
      | .error e => .error e
      | .ok () =>
          match s.tickets.insert? (request.row rt now id clientId) with
          | some tickets =>
              .ok (recordTicketStatusHistory rt { s with tickets } id clientId "" "new" now
                "end_user")
          | none => allocateEndUserTicket rt s request now clientId ids

def createEndUserTicket (rt : Runtime TicketInput) (s : Store) (request : EndUserRequest)
    (now id₁ id₂ id₃ : String) : Except TenancyError Store := do
  let clientId ← required (some request.clientId) "end-user tickets require a client scope"
  requireActiveClient s clientId
  raiseIf (Text.strip request.requesterId = "")
    (.valueError "end-user tickets require a requester identity")
  raiseIf (request.connectorInstanceId.isSome || request.externalId.isSome ||
      request.externalClientId.isSome)
    (.valueError "end-user tickets cannot carry connector provenance")
  allocateEndUserTicket rt s request now clientId [id₁, id₂, id₃]

/-- `set status = 'escalated', updated_at = ?`. -/
def Ticket.escalate (now : String) (t : Ticket) : Ticket :=
  { t with status := "escalated", updatedAt := now }

theorem Ticket.escalate_id (now : String) (t : Ticket) : (t.escalate now).id = t.id := rfl

/-- `Store.escalate_end_user_ticket`; a ticket that is not the requester's changes nothing. -/
def escalateEndUserTicket (rt : Runtime TicketInput) (s : Store)
    (ticketId clientId requesterId now : String) : Except TenancyError Store :=
  match normalizeClientId (some clientId) with
  | none => .ok s
  | some client =>
      match (s.tickets.find? ticketId).filter fun t =>
        t.clientId == client && t.requesterId == some (Text.strip requesterId) with
      | none => .ok s
      | some current => do
          requireTicketNotQuarantined s ticketId
          let escalated : Store :=
            { s with
              tickets := s.tickets.update (fun t => t.id = ticketId) (Ticket.escalate now)
                (Ticket.escalate_id now) }
          if rt.lower (Text.strip current.status) != "escalated" then
            return recordTicketStatusHistory rt escalated ticketId client current.status
              "escalated" now "end_user"
          else return escalated

/-! ## Leaving quarantine -/

/-- `set client_id = ?`. -/
def Ticket.assign (clientId : ClientId) (t : Ticket) : Ticket := { t with clientId }

theorem Ticket.assign_id (clientId : ClientId) (t : Ticket) : (t.assign clientId).id = t.id := rfl

/-- One round of the loop of `retenant_quarantined_tickets`. -/
def retenantTicket (rt : Runtime TicketInput) (now : String)
    (instanceId companyId : NormalizedText) (clientId : ClientId) (s : Store) (t : Ticket) :
    Store :=
  recordTicketStatusHistory rt
    { s with
      tickets := s.tickets.update (fun q => q.id = t.id && q.clientId = quarantineClientId)
        (Ticket.assign clientId) (Ticket.assign_id clientId)
      unmapped := s.unmapped.update
        (fun r => r.connectorInstanceId = instanceId && r.externalCompanyId = some companyId &&
          t.externalId.isSome && r.externalId = t.externalId)
        (UnmappedRecord.resolve now) (UnmappedRecord.resolve_recordId now) }
    t.id clientId "" t.status now "mapping_verification"

def Ticket.heldFor (instanceId companyId : NormalizedText) (t : Ticket) : Bool :=
  t.clientId == quarantineClientId && t.connectorInstanceId == some instanceId &&
    t.externalClientId == some companyId

def Store.quarantinedTickets (s : Store) (instanceId companyId : NormalizedText) : List Ticket :=
  (s.tickets.rows.filter (Ticket.heldFor instanceId companyId)).insertionSort
    fun t u => t.id ≤ u.id

def retenantQuarantinedTickets (rt : Runtime TicketInput) (now : String) (s : Store)
    (instanceId companyId : NormalizedText) (clientId : ClientId) : Except TenancyError Store :=
  let tickets := s.quarantinedTickets instanceId companyId
  if tickets = [] then .ok s
  else if clientId = quarantineClientId then
    .error (.retenantTarget "__quarantine__ is reserved")
  else if !s.isActive clientId then
    .error (.retenantState "target client must exist and be active")
  else
    match s.instances.find? instanceId with
    | none => .error (.retenantState "connector instance not found")
    | some connector =>
        if connector.clientId.any (· != clientId) then
          .error (.retenantState "connector instance client conflicts with the verified mapping")
        else .ok (tickets.foldl (retenantTicket rt now instanceId companyId clientId) s)

/-- `set verified = 1`. -/
def ClientConnectorMapping.verify (m : ClientConnectorMapping) : ClientConnectorMapping :=
  { m with verified := true }

theorem ClientConnectorMapping.verify_mappingId (m : ClientConnectorMapping) :
    m.verify.mappingId = m.mappingId := rfl

def Store.withVerified (s : Store) (scope : ClientScope) (mappingId : NormalizedText) : Store :=
  { s with
    mappings := s.mappings.update (fun m => m.mappingId = mappingId && scope.admits m.clientId)
      ClientConnectorMapping.verify ClientConnectorMapping.verify_mappingId }

def verifyClientConnectorMapping (rt : Runtime TicketInput) (s : Store) (scope : ClientScope)
    (mappingId now : String) : Except TenancyError Store :=
  match normalizeClientId (some mappingId) with
  | none => .error (.keyError mappingId)
  | some id =>
      match (s.mappings.find? id).filter fun m => scope.admits m.clientId with
      | none => .error (.keyError id.val)
      | some m =>
          if s.mappings.rows.any fun q : ClientConnectorMapping =>
              q.connectorInstanceId == m.connectorInstanceId &&
                q.externalCompanyId == m.externalCompanyId && q.verified &&
                q.mappingId != id then
            .error (.mappingConflict
              "a different verified mapping already exists for this external company")
          else
            retenantQuarantinedTickets rt now (s.withVerified scope id) m.connectorInstanceId
              m.externalCompanyId m.clientId

def reclassifyQuarantinedTicket (rt : Runtime TicketInput) (s : Store)
    (ticketId clientId now : String) : Except TenancyError Store := do
  let id ← required (some ticketId) "ticket_id must be non-empty"
  let client ← required (some clientId) "target client must exist and be active"
  raiseIf (client = quarantineClientId) (.valueError "__quarantine__ is reserved")
  raiseIf (!s.isActive client) (.valueError "target client must exist and be active")
  match s.tickets.find? id.val with
  | none => .error (.valueError "ticket not found")
  | some t => do
      raiseIf (t.clientId ≠ quarantineClientId) (.valueError "ticket is not quarantined")
      return recordTicketStatusHistory rt
        { s with
          tickets := s.tickets.update
            (fun q => q.id = id.val && q.clientId = quarantineClientId)
            (Ticket.assign client) (Ticket.assign_id client) }
        id.val client "" t.status now "mapping_verification"

/-! ## Sequences of operations -/

inductive StoreCall where
  | createClient (clientId name : String)
  | setClientStatus (scope : ClientScope) (clientId status : String)
  | createConnectorInstance (id : NormalizedText) (connectorType displayName : String)
      (clientId : Option String)
  | updateConnectorInstance (connectorInstanceId : String) (fields : InstanceFields)
  | createClientConnectorMapping (scope : ClientScope) (mappingId : NormalizedText)
      (connectorInstanceId externalCompanyId clientId : String)
      (externalCompanyName : Option String)
  | verifyClientConnectorMapping (scope : ClientScope) (mappingId now : String)
  | ingestTickets (clientId : String) (tickets : List (TicketInput × String))
  | ingestProviderTickets (connectorInstanceId : String) (records : List (TicketInput × Stamp))
  | reclassifyQuarantinedTicket (ticketId clientId now : String)
  | createEndUserTicket (request : EndUserRequest) (now id₁ id₂ id₃ : String)
  | escalateEndUserTicket (ticketId clientId requesterId now : String)
  | recordUnmapped (connectorInstanceId : String) (externalCompanyId externalId : Option String)
      (recordType : String) (payloadDigest : Option String) (reason createdAt : String)
      (recordId : NormalizedText)
  | resolveUnmappedRecord (recordId now : String)

def StoreCall.apply (rt : Runtime TicketInput) (s : Store) : StoreCall → Store
  | .createClient clientId name => committed s (Tenancy.createClient rt s clientId name)
  | .setClientStatus scope clientId status =>
      committed s (Tenancy.setClientStatus s scope clientId status)
  | .createConnectorInstance id connectorType displayName clientId =>
      committed s (Tenancy.createConnectorInstance rt s id connectorType displayName clientId)
  | .updateConnectorInstance connectorInstanceId fields =>
      committed s (Tenancy.updateConnectorInstance s connectorInstanceId fields)
  | .createClientConnectorMapping scope mappingId connectorInstanceId externalCompanyId clientId
      externalCompanyName =>
      committed s (Tenancy.createClientConnectorMapping rt s scope mappingId connectorInstanceId
        externalCompanyId clientId externalCompanyName)
  | .verifyClientConnectorMapping scope mappingId now =>
      committed s (Tenancy.verifyClientConnectorMapping rt s scope mappingId now)
  | .ingestTickets clientId tickets => (Tenancy.ingestTickets rt s clientId tickets).1
  | .ingestProviderTickets connectorInstanceId records =>
      (Tenancy.ingestProviderTickets rt s connectorInstanceId records).1
  | .reclassifyQuarantinedTicket ticketId clientId now =>
      committed s (Tenancy.reclassifyQuarantinedTicket rt s ticketId clientId now)
  | .createEndUserTicket request now id₁ id₂ id₃ =>
      committed s (Tenancy.createEndUserTicket rt s request now id₁ id₂ id₃)
  | .escalateEndUserTicket ticketId clientId requesterId now =>
      committed s (Tenancy.escalateEndUserTicket rt s ticketId clientId requesterId now)
  | .recordUnmapped connectorInstanceId externalCompanyId externalId recordType payloadDigest
      reason createdAt recordId =>
      committed s (recordUnmappedRecord s connectorInstanceId externalCompanyId externalId
        recordType payloadDigest reason createdAt recordId)
  | .resolveUnmappedRecord recordId now =>
      committed s (Tenancy.resolveUnmappedRecord s recordId now)

def tenancy (rt : Runtime TicketInput) : Machine Store StoreCall where
  init := .fresh
  step := StoreCall.apply rt

theorem tenancy_run_concat (rt : Runtime TicketInput) (ls : List StoreCall) (l : StoreCall) :
    (tenancy rt).run (ls ++ [l]) = l.apply rt ((tenancy rt).run ls) :=
  Machine.run_concat _ ls l

end WaitLocalAgent.Tenancy
