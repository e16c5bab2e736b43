import WaitLocalAgent.Foundation.JsonText
import WaitLocalAgent.Model.Tickets

/-! # Client discovery

Organizations that a PSA instance lists are matched with the clients of the store and kept as
candidates, which an administrator accepts, dismisses or makes a client of. -/

namespace WaitLocalAgent.ClientDiscovery

open Foundation Tenancy

/-- Library functions that the discovery leans on: `str.casefold`, `str` of a value that is no text,
and `str(uuid.uuid5(uuid.NAMESPACE_URL, name))`. -/
structure Library where
  casefold : String → String
  str : JsonValue → String
  uuid5 : String → String

inductive MatchState where
  | verified
  | proposed
  | ambiguous
  | unmatched
  | conflicting
  | dismissed
  deriving DecidableEq, Repr

structure CandidateMatch where
  state : MatchState
  clientId : Option ClientId
  reason : String
  confidence : ℚ
  deriving DecidableEq

/-- A row of `client_candidates`, whose four match columns are kept together. -/
structure ClientCandidate where
  candidateId : String
  connectorInstanceId : NormalizedText
  provider : String
  externalId : NormalizedText
  displayName : NormalizedText
  domainsJson : String
  provenance : String
  firstSeen : String
  lastSeen : String
  shown : CandidateMatch

/-- `unique(connector_instance_id, external_id)`. -/
def ClientCandidate.key (c : ClientCandidate) : NormalizedText × NormalizedText :=
  (c.connectorInstanceId, c.externalId)

structure DiscoveryStore where
  tenancy : Store
  candidates : Table ClientCandidate.key

def DiscoveryStore.fresh : DiscoveryStore where
  tenancy := .fresh
  candidates := .empty

inductive DiscoveryError where
  | discovery (message : String)
  | integrityError
  | http (status : ℕ) (detail : String)
  /-- Any other exception of the provider's client. -/
  | raised (error : String)
  deriving DecidableEq, Repr

/-! ## Provider records -/

/-- An organization, as a mapping or by its attributes. -/
abbrev ProviderItem := List (String × JsonValue)

def given : JsonValue → Bool
  | .null => false
  | .text s => s != ""
  | _ => true

def value (item : ProviderItem) (keys : List String) : JsonValue :=
  ((keys.map (JsonValue.get item)).find? given).getD .null

def Library.text (lib : Library) : JsonValue → String
  | .text s => s
  | v => lib.str v

def text (lib : Library) (item : ProviderItem) (keys : List String) : Option NormalizedText :=
  match value item keys with
  | .null => none
  | v => normalizeClientId (some (lib.text v))

def domains (lib : Library) (item : ProviderItem) : List NormalizedText :=
  match value item ["domains", "domain"] with
  | .text s => (normalizeClientId (some s)).toList
  | .array entries => entries.filterMap fun entry => normalizeClientId (some (lib.text entry))
  | _ => []

/-- What building or asking the provider's client may raise: a `ConnectorFactoryError` or any other
exception. -/
inductive ClientFailure where
  | connectorFactory
  | raised (error : String)

def ClientFailure.toError : ClientFailure → DiscoveryError
  | .connectorFactory =>
      .discovery "connector instance could not be prepared for discovery"
  | .raised error => .raised error

/-- What the provider's client does when a page is asked for. -/
inductive PageAnswer where
  | list (items : List ProviderItem)
  | response (items : Option (List ProviderItem)) (status : Option String)
  | failed (failure : ClientFailure)

def responseItems (lib : Library) : PageAnswer → Except DiscoveryError (List ProviderItem × String)
  | .list items => .ok (items, "ready")
  | .response (some items) status => .ok (items, lib.casefold (status.getD "ready"))
  | .response none _ => .error (.discovery "provider returned an invalid organization list")
  | .failed failure => .error failure.toError

def fullPage (provider : String) : ℕ := if provider ≠ "syncro" then 100 else 25

/-- The pages of `range(1, 101)`, up to the first one that is not full. -/
def readPages (lib : Library) (provider : String) (answer : ℕ → PageAnswer) :
    List ℕ → List ProviderItem → Except DiscoveryError (List ProviderItem)
  | [], rawItems => .ok rawItems
  | page :: pages, rawItems => do
      let (items, status) ← responseItems lib (answer page)
      raiseIf (status ∉ ["ready", "ok", "success"])
        (.discovery s!"{provider} organization discovery failed")
      if items.length < fullPage provider then .ok (rawItems ++ items)
      else readPages lib provider answer pages (rawItems ++ items)

/-- What the provider says of an organization. -/
structure Listing where
  externalId : NormalizedText
  displayName : NormalizedText
  domainsJson : String

/-- The fields of `_external_candidate` that are read from the item. -/
def listing (lib : Library) (item : ProviderItem) : Option Listing := do
  let externalId ← text lib item ["id", "sys_id", "customer_id", "company_id", "identifier"]
  let displayName ← text lib item ["name", "company_name", "companyName", "customer_name"]
  return {
    externalId
    displayName
    domainsJson := .ofList ((JsonValue.array ((domains lib item).map fun d => .text d.val)).write
      ⟨[','], [':']⟩) }

/-- `_external_candidate`, with the match columns that `replace` fills in. -/
def Listing.candidate (lib : Library) (connector : ConnectorInstance) (provider now : String)
    (l : Listing) (shown : CandidateMatch) : ClientCandidate where
  candidateId := lib.uuid5
    s!"wait-local-agent:client-candidate:{connector.connectorInstanceId.val}:{l.externalId.val}"
  connectorInstanceId := connector.connectorInstanceId
  provider := provider
  externalId := l.externalId
  displayName := l.displayName
  domainsJson := l.domainsJson
  provenance := s!"{provider}:{connector.connectorInstanceId.val}"
  firstSeen := now
  lastSeen := now
  shown := shown

/-! ## Matching -/

def comparable (c : Char) : Bool :=
  (97 ≤ c.toNat && c.toNat ≤ 122) || (48 ≤ c.toNat && c.toNat ≤ 57)

def legalSuffixes : List (List Char) :=
  ["ltd".toList, "inc".toList, "llc".toList, "gmbh".toList]

def normalizeClientName (lib : Library) (name : String) : String :=
  let tokens := ((lib.casefold name).toList.splitOnP fun c => !comparable c).filter (· ≠ [])
  .ofList ([' '].intercalate (tokens.rdropWhile fun token => token ∈ legalSuffixes))

def mappedClients (s : Store) (instanceId externalId : NormalizedText) : List ClientId :=
  ((s.mappings.rows.filter fun m =>
    m.connectorInstanceId == instanceId && m.externalCompanyId == externalId && m.verified).map
      ClientConnectorMapping.clientId).dedup

def namedClients (lib : Library) (s : Store) (normalizedName : String) : List ClientId :=
  (s.clients.rows.filter fun c =>
    c.clientId != quarantineClientId && normalizeClientName lib c.name == normalizedName).map
      Client.clientId

def matchCandidate (lib : Library) (s : Store)
    (instanceId externalId displayName : NormalizedText) :
    CandidateMatch :=
  match mappedClients s instanceId externalId with
  | [client] => ⟨.verified, some client, "verified connector mapping", 1⟩
  | _ :: _ :: _ => ⟨.conflicting, none, "external ID has multiple verified client mappings", 0⟩
  | [] =>
      let normalizedName := normalizeClientName lib displayName.val
      if normalizedName = "" then
        ⟨.unmatched, none, "candidate name has no comparable tokens", 0⟩
      else
        match namedClients lib s normalizedName with
        | [client] => ⟨.proposed, some client, "exact normalized client name", 9 / 10⟩
        | _ :: _ :: _ =>
            ⟨.ambiguous, none, "exact normalized name matches multiple clients", 0⟩
        | [] => ⟨.unmatched, none, "no exact normalized client name match", 0⟩

/-! ## Candidates -/

/-- The states that a refresh leaves alone. -/
def MatchState.settled : MatchState → Bool
  | .verified | .dismissed => true
  | _ => false

/-- `on conflict(connector_instance_id, external_id) do update set`. -/
def ClientCandidate.refresh (preserveState : Bool) (seen stored : ClientCandidate) :
    ClientCandidate :=
  { stored with
    displayName := seen.displayName
    domainsJson := seen.domainsJson
    provenance := seen.provenance
    lastSeen := seen.lastSeen
    shown :=
      if stored.shown.state.settled then stored.shown
      else if !preserveState then seen.shown
      else stored.shown }

theorem ClientCandidate.refresh_key (preserveState : Bool) (seen stored : ClientCandidate) :
    (seen.refresh preserveState stored).key = stored.key := rfl

/-- The client that a candidate names has to exist. -/
def DiscoveryStore.knows (s : DiscoveryStore) (clientId : Option ClientId) : Bool :=
  clientId.all fun c => (s.tenancy.clients.find? c).isSome

def upsertClientCandidate (s : DiscoveryStore) (candidate : ClientCandidate)
    (preserveState : Bool := true) : Except DiscoveryError (DiscoveryStore × ClientCandidate) := do
  raiseIf (Text.strip candidate.candidateId = "")
    (.raised "candidate and connector instance IDs must be non-empty")
  match s.candidates.find? candidate.key with
  | some stored =>
      raiseIf (!s.knows (candidate.refresh preserveState stored).shown.clientId) .integrityError
      return (
        { s with
          candidates := s.candidates.update (fun c => c.key = candidate.key)
            (candidate.refresh preserveState) (candidate.refresh_key preserveState) },
        candidate.refresh preserveState stored)
  | none =>
      raiseIf (s.tenancy.instances.find? candidate.connectorInstanceId).isNone .integrityError
      raiseIf (!s.knows candidate.shown.clientId) .integrityError
      raiseIf (s.candidates.rows.any fun c => c.candidateId == candidate.candidateId)
        .integrityError
      match s.candidates.insert? candidate with
      | some candidates => .ok ({ s with candidates }, candidate)
      | none => .error .integrityError

def getClientCandidate (s : DiscoveryStore) (candidateId : String) : Option ClientCandidate :=
  (normalizeClientId (some candidateId)).bind fun id =>
    s.candidates.rows.find? fun c => c.candidateId = id.val

def ClientCandidate.withMatch (shown : CandidateMatch) (c : ClientCandidate) : ClientCandidate :=
  { c with shown }

theorem ClientCandidate.withMatch_key (shown : CandidateMatch) (c : ClientCandidate) :
    (c.withMatch shown).key = c.key := rfl

/-- `Store.set_client_candidate_state`; an unknown candidate changes nothing. -/
def setClientCandidateState (s : DiscoveryStore) (candidateId : String) (shown : CandidateMatch) :
    Except DiscoveryError DiscoveryStore :=
  match normalizeClientId (some candidateId) with
  | none => .ok s
  | some id => do
      raiseIf (¬(0 ≤ shown.confidence ∧ shown.confidence ≤ 1))
        (.raised "candidate confidence must be between 0 and 1")
      raiseIf ((s.candidates.rows.any fun c => c.candidateId == id.val) && !s.knows shown.clientId)
        .integrityError
      return { s with
        candidates := s.candidates.update (fun c => c.candidateId = id.val)
          (ClientCandidate.withMatch shown) (ClientCandidate.withMatch_key shown) }

/-! ## Discovery -/

def psaConnectorTypes : List String :=
  ["halopsa", "connectwise", "autotask", "syncro", "servicenow"]

/-- The arguments of a discovery: the instance as the caller read it, whether its client can be
built, what that client answers, and the clock. -/
structure DiscoveryRun where
  connector : ConnectorInstance
  /-- `build_read_client_for`. -/
  client : Except ClientFailure (ℕ → PageAnswer)
  now : String

/-- `instance.connector_type.casefold().strip()`. -/
def DiscoveryRun.provider (lib : Library) (d : DiscoveryRun) : String :=
  Text.strip (lib.casefold d.connector.connectorType)

/-- The organizations that the provider lists, read before anything is stored. -/
def DiscoveryRun.listings (lib : Library) (d : DiscoveryRun) :
    Except DiscoveryError (List Listing) := do
  raiseIf (d.provider lib ∉ psaConnectorTypes)
    (.discovery "client discovery supports PSA connector instances only")
  raiseIf (d.connector.status ≠ .active) (.discovery "connector instance is not active")
  let answer ← d.client.mapError ClientFailure.toError
  let rawItems ← readPages lib (d.provider lib) answer (List.range' 1 100) []
  return rawItems.filterMap (listing lib)

/-- The loop of `discover_instance`: every organization is its own transaction. -/
def recordListings (lib : Library) (connector : ConnectorInstance) (provider now : String) :
    DiscoveryStore → List Listing → DiscoveryStore × Except DiscoveryError (List ClientCandidate)
  | s, [] => (s, .ok [])
  | s, l :: ls =>
      let found := matchCandidate lib s.tenancy connector.connectorInstanceId l.externalId
        l.displayName
      match upsertClientCandidate s (l.candidate lib connector provider now found) with
      | .error e => (s, .error e)
      | .ok (s', row) =>
          let (s'', rows) := recordListings lib connector provider now s' ls
          (s'', rows.map (row :: ·))

def discoverInstance (lib : Library) (s : DiscoveryStore) (d : DiscoveryRun) :
    DiscoveryStore × Except DiscoveryError (List ClientCandidate) :=
  match d.listings lib with
  | .error e => (s, .error e)
  | .ok ls => recordListings lib d.connector (d.provider lib) d.now s ls

/-! ## The administrator's answers -/

/-- The generated mapping id and the clock reading of an accepted candidate. -/
structure AcceptStamp where
  mappingId : NormalizedText
  now : String

/-- `create_client_connector_mapping` and `verify_client_connector_mapping`, two transactions. -/
def mapCandidate (rt : Runtime TicketInput) (s : DiscoveryStore) (candidate : ClientCandidate)
    (clientId : ClientId) (stamp : AcceptStamp) : DiscoveryStore × Except TenancyError Unit :=
  match createClientConnectorMapping rt s.tenancy .allClients stamp.mappingId
      candidate.connectorInstanceId.val candidate.externalId.val clientId.val
      (some candidate.displayName.val) with
  | .error e => (s, .error e)
  | .ok mapped =>
      match verifyClientConnectorMapping rt mapped .allClients stamp.mappingId.val stamp.now with
      | .error e => ({ s with tenancy := mapped }, .error e)
      | .ok verified => ({ s with tenancy := verified }, .ok ())

/-- The candidate's new state, once its mapping is verified. -/
def settle (mapped : DiscoveryStore × Except TenancyError Unit) (candidate : ClientCandidate)
    (shown : CandidateMatch) (refusal : TenancyError → DiscoveryError) :
    DiscoveryStore × Except DiscoveryError Unit :=
  match mapped with
  | (s, .error e) => (s, .error (refusal e))
  | (s, .ok ()) =>
      match setClientCandidateState s candidate.candidateId shown with
      | .error e => (s, .error e)
      | .ok s' => (s', .ok ())

def acceptRefusal : TenancyError → DiscoveryError
  | .mappingConflict message => .http 409 message
  | _ => .http 409 "candidate mapping could not be created"

def acceptDiscoveryCandidate (rt : Runtime TicketInput) (s : DiscoveryStore)
    (candidate : ClientCandidate) (stamp : AcceptStamp) :
    DiscoveryStore × Except DiscoveryError Unit :=
  match candidate.shown.state, candidate.shown.clientId with
  | .proposed, some clientId =>
      if (s.tenancy.clients.find? clientId).isNone then
        (s, .error (.http 409 "the proposed client no longer exists"))
      else
        settle (mapCandidate rt s candidate clientId stamp) candidate
          ⟨.verified, some clientId, "accepted proposed exact normalized name", 1⟩ acceptRefusal
  | _, _ =>
      (s, .error (.http 409 "only proposed candidates with one matched client can be accepted"))

def candidateNotFound : DiscoveryError := .http 404 "candidate not found"

def acceptClientDiscoveryCandidate (rt : Runtime TicketInput) (s : DiscoveryStore)
    (candidateId : String) (stamp : AcceptStamp) : DiscoveryStore × Except DiscoveryError Unit :=
  match getClientCandidate s candidateId with
  | none => (s, .error candidateNotFound)
  | some candidate => acceptDiscoveryCandidate rt s candidate stamp

/-- The accepted candidates of a bulk request, up to the first one that is refused. -/
def acceptEach (rt : Runtime TicketInput) :
    DiscoveryStore → List (ClientCandidate × AcceptStamp) →
      DiscoveryStore × Except DiscoveryError Unit
  | s, [] => (s, .ok ())
  | s, (candidate, stamp) :: rest =>
      match acceptDiscoveryCandidate rt s candidate stamp with
      | (s', .error e) => (s', .error e)
      | (s', .ok ()) => acceptEach rt s' rest

def assertBulkAcceptAllowed (candidates : List ClientCandidate) : Except DiscoveryError Unit :=
  raiseIf (candidates.any fun c => c.shown.state != .proposed)
    (.http 409 "bulk accept is limited to proposed candidates")

/-- `bulk_accept_client_discovery_candidates`: every candidate is read before one is accepted. -/
def bulkAccept (rt : Runtime TicketInput) (s : DiscoveryStore)
    (requests : List (String × AcceptStamp)) : DiscoveryStore × Except DiscoveryError Unit :=
  match requests.mapM fun r => (getClientCandidate s r.1).map fun c => (c, r.2) with
  | none => (s, .error candidateNotFound)
  | some resolved =>
      match assertBulkAcceptAllowed (resolved.map Prod.fst) with
      | .error e => (s, .error e)
      | .ok () => acceptEach rt s resolved

def createClientFromCandidate (rt : Runtime TicketInput) (s : DiscoveryStore)
    (candidateId : String) (stamp : AcceptStamp) : DiscoveryStore × Except DiscoveryError Unit :=
  match getClientCandidate s candidateId with
  | none => (s, .error candidateNotFound)
  | some candidate =>
      if candidate.shown.state.settled then
        (s, .error (.http 409 "candidate cannot create a client in its current state"))
      else
        let refusal : DiscoveryError := .http 409 "client or candidate mapping already exists"
        let clientId := "discovered-" ++
          .ofList ((candidate.candidateId.toList.filter (· ≠ '-')).take 24)
        match createClient rt s.tenancy clientId candidate.displayName.val,
            normalizeClientId (some clientId) with
        | .ok created, some client =>
            settle (mapCandidate rt { s with tenancy := created } candidate client stamp) candidate
              ⟨.verified, some client, "new client created from provider candidate", 1⟩
              fun _ => refusal
        | _, _ => (s, .error refusal)

def dismissClientDiscoveryCandidate (s : DiscoveryStore) (candidateId : String) :
    Except DiscoveryError DiscoveryStore :=
  match getClientCandidate s candidateId with
  | none => .error candidateNotFound
  | some candidate => do
      raiseIf (candidate.shown.state = .verified)
        (.http 409 "verified candidates cannot be dismissed")
      setClientCandidateState s candidateId ⟨.dismissed, none, "dismissed by administrator", 0⟩

/-! ## Histories -/

inductive DiscoveryCall where
  /-- Any other call on the store: clients, instances, mappings, tickets. -/
  | store (l : StoreCall)
  | discover (d : DiscoveryRun)
  | accept (candidateId : String) (stamp : AcceptStamp)
  | bulkAccept (requests : List (String × AcceptStamp))
  | createClient (candidateId : String) (stamp : AcceptStamp)
  | dismiss (candidateId : String)

def DiscoveryCall.apply (rt : Runtime TicketInput) (lib : Library) (s : DiscoveryStore) :
    DiscoveryCall → DiscoveryStore
  | .store l => { s with tenancy := l.apply rt s.tenancy }
  | .discover d => (discoverInstance lib s d).1
  | .accept candidateId stamp => (acceptClientDiscoveryCandidate rt s candidateId stamp).1
  | .bulkAccept requests => (ClientDiscovery.bulkAccept rt s requests).1
  | .createClient candidateId stamp => (createClientFromCandidate rt s candidateId stamp).1
  | .dismiss candidateId => committed s (dismissClientDiscoveryCandidate s candidateId)

def discovery (rt : Runtime TicketInput) (lib : Library) :
    Machine DiscoveryStore DiscoveryCall where
  init := .fresh
  step := DiscoveryCall.apply rt lib

end WaitLocalAgent.ClientDiscovery
