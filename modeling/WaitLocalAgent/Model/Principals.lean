import WaitLocalAgent.Model.Tenancy

/-! # Principals

Principals with their credentials, roles, sessions and capability grants, and the store
operations on them. -/

namespace WaitLocalAgent.Access

open Foundation Tenancy

inductive PrincipalKind where
  | customer
  | staff
  deriving DecidableEq, Repr

/-- `kind.strip().lower()`, checked. -/
def PrincipalKind.parse? (kind : String) : Option PrincipalKind :=
  match Text.lower (Text.strip kind) with
  | "customer" => some .customer
  | "staff" => some .staff
  | _ => none

inductive Role where
  | endUser
  | viewer
  | technician
  | admin
  deriving DecidableEq, Repr

namespace Role

def rank : Role → ℕ
  | endUser => 0
  | viewer => 1
  | technician => 2
  | admin => 3

def label : Role → String
  | endUser => "end_user"
  | viewer => "viewer"
  | technician => "technician"
  | admin => "admin"

/-- `_principal_role_label`, checked. -/
def parse? (role : String) : Option Role :=
  match Text.lower (Text.strip role) with
  | "end_user" => some endUser
  | "viewer" => some viewer
  | "technician" => some technician
  | "admin" => some admin
  | _ => none

theorem rank_injective : Function.Injective rank := by
  intro r q h
  cases r <;> cases q <;> first | rfl | cases h

instance : LinearOrder Role := LinearOrder.lift' rank rank_injective

end Role

structure Principal where
  principalId : NormalizedText
  kind : PrincipalKind
  displayName : String
  active : Bool
  deriving DecidableEq

structure Credential where
  principalId : NormalizedText
  credentialHash : String
  active : Bool
  deriving DecidableEq

/-- A row of `principal_client_roles`, all of it primary key. -/
structure ClientRole where
  principalId : NormalizedText
  clientId : ClientId
  role : Role
  deriving DecidableEq

/-- A row of `principal_global_roles`, whose role is always `msp_admin`. -/
structure GlobalRole where
  principalId : NormalizedText
  deriving DecidableEq

/-- A row of `principal_capability_grants`; an empty `client_scope` is `none`. -/
structure CapabilityGrant where
  principalId : NormalizedText
  capabilityKey : String
  clientScope : Option ClientId
  active : Bool
  grantedBy : String
  updatedBy : String
  createdAt : String
  updatedAt : String
  deriving DecidableEq

def CapabilityGrant.key (g : CapabilityGrant) : NormalizedText × String × Option ClientId :=
  (g.principalId, g.capabilityKey, g.clientScope)

inductive AuthMethod where
  | localLogin
  | oidc
  deriving DecidableEq, Repr

structure AuthSession where
  sessionTokenHash : NormalizedText
  principalId : NormalizedText
  authMethod : AuthMethod
  createdAt : String
  lastSeenAt : String
  idleExpiresAt : String
  absoluteExpiresAt : String
  revoked : Bool
  userAgent : String
  deriving DecidableEq

structure Store where
  clients : Table Client.clientId
  principals : Table Principal.principalId
  credentials : Table Credential.credentialHash
  clientRoles : Table (id : ClientRole → ClientRole)
  globalRoles : Table GlobalRole.principalId
  grants : Table CapabilityGrant.key
  sessions : Table AuthSession.sessionTokenHash

def Store.fresh : Store where
  clients := Tenancy.Store.fresh.clients
  principals := .empty
  credentials := .empty
  clientRoles := .empty
  globalRoles := .empty
  grants := .empty
  sessions := .empty

inductive AccessError where
  | valueError (message : String)
  | keyError (key : List String)
  | principalInvariant (message : String)
  | integrityError
  deriving DecidableEq, Repr

/-- The digest of a credential and `redact_text`. -/
structure Runtime where
  sha256 : String → String
  redactText : String → String

/-- `value.strip()`, raising when nothing is left. -/
def required (value message : String) : Except AccessError NormalizedText :=
  match normalizeClientId (some value) with
  | some text => .ok text
  | none => .error (.valueError message)

def hashCredential (rt : Runtime) (credential : String) : Except AccessError String :=
  if Text.strip credential = "" then
    .error (.valueError "credential must be a non-empty string")
  else .ok (rt.sha256 credential)

def rejectReservedClientId (clientId : ClientId) : Except AccessError Unit :=
  raiseIf (clientId = quarantineClientId) (.valueError "__quarantine__ is reserved")

def requirePrincipal (s : Store) (principalId : NormalizedText) : Except AccessError Principal :=
  match s.principals.find? principalId with
  | some principal => .ok principal
  | none => .error (.keyError [principalId.val])

def parsedKind (kind : String) : Except AccessError PrincipalKind :=
  match PrincipalKind.parse? kind with
  | some parsed => .ok parsed
  | none => .error (.valueError "principal kind must be customer or staff")

def parsedRole (role : String) : Except AccessError Role :=
  match Role.parse? role with
  | some parsed => .ok parsed
  | none => .error (.valueError "unsupported principal client role")

def requireMspAdminLabel (role : String) : Except AccessError Unit :=
  raiseIf (Text.lower (Text.strip role) ≠ "msp_admin")
    (.valueError "unsupported principal global role")

def inserted {α κ : Type} {key : α → κ} [DecidableEq κ] (t : Table key) (row : α) :
    Except AccessError (Table key) :=
  match t.insert? row with
  | some t' => .ok t'
  | none => .error .integrityError

/-! ## Queries -/

def Store.isMspAdmin (s : Store) (principalId : NormalizedText) : Bool :=
  s.globalRoles.rows.any fun g => g.principalId == principalId

def Store.activeCredentialCount (s : Store) (principalId : NormalizedText) : ℕ :=
  s.credentials.rowcount fun c => c.principalId = principalId && c.active

/-- An active principal that holds `msp_admin` and an active credential. -/
def Store.isArmed (s : Store) (p : Principal) : Bool :=
  p.active && s.isMspAdmin p.principalId && 0 < s.activeCredentialCount p.principalId

def Store.hasMspAdminCredential (s : Store) : Bool := s.principals.rows.any s.isArmed

def Store.hasClientRole (s : Store) (principalId : NormalizedText) (clientId : ClientId) : Bool :=
  s.clientRoles.rows.any fun r => r.principalId == principalId && r.clientId == clientId

def guardLastMspAdmin (s : Store) (principalId : NormalizedText) (revokeOneCredential : Bool) :
    Except AccessError Unit :=
  match s.principals.rows.find? fun p =>
      p.principalId = principalId && p.active && s.isMspAdmin p.principalId with
  | none => .ok ()
  | some p =>
      let activeCredentialCount := s.activeCredentialCount p.principalId
      if activeCredentialCount = 0 then .ok ()
      else if revokeOneCredential ∧ 1 < activeCredentialCount then .ok ()
      else raiseIf (s.principals.rowcount s.isArmed ≤ 1)
        (.principalInvariant "the final active msp_admin credential cannot be removed")

/-! ## Creation -/

def createPrincipal (rt : Runtime) (s : Store) (principalId kind displayName : String) :
    Except AccessError Store := do
  let id ← required principalId "principal_id must be non-empty"
  let parsed ← parsedKind kind
  let principals ← inserted s.principals
    { principalId := id, kind := parsed, displayName := rt.redactText (Text.strip displayName),
      active := true }
  return { s with principals }

def earlierRole (r q : ClientId × Role) : Prop :=
  r.1.val < q.1.val ∨ (r.1 = q.1 ∧ r.2.label ≤ q.2.label)

instance : DecidableRel earlierRole := fun r q =>
  inferInstanceAs (Decidable (r.1.val < q.1.val ∨ (r.1 = q.1 ∧ r.2.label ≤ q.2.label)))

/-- The roles of a request, as the sorted list of a set. -/
def normalizedRoles (clientRoles : List (String × String)) :
    Except AccessError (List (ClientId × Role)) := do
  let parsed := clientRoles.map fun r => (normalizeClientId (some r.1), Role.parse? r.2)
  raiseIf (parsed.any fun r => r.1.isNone) (.valueError "client_id must be non-empty")
  raiseIf (parsed.any fun r => r.2.isNone) (.valueError "unsupported principal client role")
  let roles := parsed.filterMap fun r => r.1.bind fun c => r.2.map fun role => (c, role)
  return roles.dedup.insertionSort earlierRole

/-- The `msp_admin` row of a new principal, when it is asked for. -/
def initialGlobalRoles (s : Store) (principalId : NormalizedText) (mspAdmin : Bool) :
    Except AccessError (Table GlobalRole.principalId) :=
  if mspAdmin then inserted s.globalRoles ⟨principalId⟩ else .ok s.globalRoles

/-- The credential of a new principal, when there is one. -/
def initialCredentials (s : Store) (principalId : NormalizedText)
    (credentialHash : Option String) : Except AccessError (Table Credential.credentialHash) :=
  match credentialHash with
  | some hash => inserted s.credentials ⟨principalId, hash, true⟩
  | none => .ok s.credentials

def createPrincipalWithAccess (rt : Runtime) (s : Store) (principalId kind displayName : String)
    (clientRoles : List (String × String)) (mspAdmin : Bool) (credential : Option String) :
    Except AccessError Store := do
  let id ← required principalId "principal_id must be non-empty"
  let parsed ← parsedKind kind
  let roles ← normalizedRoles clientRoles
  raiseIf (parsed = .customer ∧ mspAdmin = true)
    (.principalInvariant "customer principals cannot receive the msp_admin role")
  raiseIf (parsed = .customer ∧ roles.length ≠ 1)
    (.principalInvariant "customer principals require exactly one client role")
  let credentialHash ← credential.mapM (hashCredential rt)
  roles.forM fun r => do
    rejectReservedClientId r.1
    raiseIf (s.clients.find? r.1).isNone (.keyError [r.1.val])
  let principals ← inserted s.principals
    { principalId := id, kind := parsed, displayName := rt.redactText (Text.strip displayName),
      active := true }
  let clientRoles ← roles.foldlM (fun t r => inserted t ⟨id, r.1, r.2⟩) s.clientRoles
  let globalRoles ← initialGlobalRoles s id mspAdmin
  let credentials ← initialCredentials s id credentialHash
  return { s with principals, clientRoles, globalRoles, credentials }

/-! ## Credentials -/

/-- `set active = 0`. -/
def Credential.revoke (c : Credential) : Credential := { c with active := false }

theorem Credential.revoke_hash (c : Credential) : c.revoke.credentialHash = c.credentialHash := rfl

/-- `update principal_credentials set active = 0 where principal_id = ?`. -/
def Store.withoutCredentials (s : Store) (principalId : NormalizedText) : Store :=
  { s with
    credentials := s.credentials.update (fun c => c.principalId = principalId) Credential.revoke
      Credential.revoke_hash }

/-- `update principal_credentials set active = 0 where credential_hash = ?`. -/
def Store.withRevoked (s : Store) (credential : Credential) : Store :=
  { s with
    credentials := s.credentials.update (fun c => c.credentialHash = credential.credentialHash)
      Credential.revoke Credential.revoke_hash }

def addPrincipalCredential (rt : Runtime) (s : Store) (principalId credential : String) :
    Except AccessError (Store × String) := do
  let credentialHash ← hashCredential rt credential
  let id ← required principalId "principal_id must be non-empty"
  let principal ← requirePrincipal s id
  raiseIf (!principal.active)
    (.principalInvariant "inactive principals cannot receive credentials")
  let credentials ← inserted s.credentials ⟨id, credentialHash, true⟩
  return ({ s with credentials }, credentialHash)

def rotatePrincipalCredential (rt : Runtime) (s : Store) (principalId credential : String) :
    Except AccessError (Store × String) := do
  let credentialHash ← hashCredential rt credential
  let id ← required principalId "principal_id must be non-empty"
  let principal ← requirePrincipal s id
  raiseIf (!principal.active)
    (.principalInvariant "inactive principals cannot receive credentials")
  let revoked := s.withoutCredentials id
  let credentials ← inserted revoked.credentials ⟨id, credentialHash, true⟩
  return ({ revoked with credentials }, credentialHash)

def Store.namedCredential? (s : Store) (hash : String) : Option Credential :=
  match s.credentials.find? hash with
  | some credential => some credential
  | none =>
      match s.credentials.rows.filter fun c => Text.like c.credentialHash (hash ++ "%") with
      | [credential] => some credential
      | _ => none

def guardRevocation (s : Store) (credential : Credential) : Except AccessError Unit :=
  if credential.active then guardLastMspAdmin s credential.principalId true else .ok ()

def revokePrincipalCredential (s : Store) (credentialHash : String) :
    Except AccessError Store := do
  let hash ← required credentialHash "credential_hash must be non-empty"
  match s.namedCredential? hash.val with
  | none => .error (.keyError [hash.val])
  | some credential => do
      guardRevocation s credential
      return s.withRevoked credential

def revokeAllPrincipalCredentials (s : Store) (principalId : String)
    (actorPrincipalId : Option String) : Except AccessError (Store × ℕ) := do
  let id ← required principalId "principal_id must be non-empty"
  raiseIf (actorPrincipalId = some id.val)
    (.principalInvariant "the authenticated principal cannot revoke or deactivate itself")
  let _ ← requirePrincipal s id
  guardLastMspAdmin s id false
  return (s.withoutCredentials id, s.activeCredentialCount id)

/-! ## Roles -/

def addPrincipalClientRole (s : Store) (principalId clientId role : String) :
    Except AccessError Store := do
  let id ← required principalId "principal_id must be non-empty"
  let client ← required clientId "client_id must be non-empty"
  rejectReservedClientId client
  let parsed ← parsedRole role
  let principal ← requirePrincipal s id
  raiseIf (principal.kind = .customer ∧
      (s.clientRoles.rows.any fun r => r.principalId == id && r.clientId != client) = true)
    (.principalInvariant "customer principals can belong to exactly one client")
  let clientRoles ← inserted s.clientRoles ⟨id, client, parsed⟩
  return { s with clientRoles }

def addPrincipalGlobalRole (s : Store) (principalId role : String) :
    Except AccessError Store := do
  let id ← required principalId "principal_id must be non-empty"
  requireMspAdminLabel role
  let principal ← requirePrincipal s id
  raiseIf (principal.kind ≠ .staff)
    (.principalInvariant "only staff principals can receive the msp_admin role")
  let globalRoles ← inserted s.globalRoles ⟨id⟩
  return { s with globalRoles }

/-- `set active = 0, updated_at = ?`. -/
def CapabilityGrant.deactivate (now : String) (g : CapabilityGrant) : CapabilityGrant :=
  { g with active := false, updatedAt := now }

theorem CapabilityGrant.deactivate_key (now : String) (g : CapabilityGrant) :
    (g.deactivate now).key = g.key := rfl

def Store.withoutGrants (s : Store) (now : String) (p : CapabilityGrant → Bool) : Store :=
  { s with
    grants := s.grants.update p (CapabilityGrant.deactivate now)
      (CapabilityGrant.deactivate_key now) }

def removePrincipalClientRole (s : Store) (principalId clientId role : String)
    (actorPrincipalId : Option String) (now : String) : Except AccessError Store := do
  let id ← required principalId "principal_id must be non-empty"
  let client ← required clientId "client_id must be non-empty"
  rejectReservedClientId client
  let parsed ← parsedRole role
  let principal ← requirePrincipal s id
  let removed : ClientRole := ⟨id, client, parsed⟩
  raiseIf (s.clientRoles.find? removed).isNone (.keyError [id.val, client.val, parsed.label])
  let hasRemainingScope := s.clientRoles.rows.any fun r => r.principalId == id && r != removed
  raiseIf (actorPrincipalId = some id.val ∧ !hasRemainingScope ∧ !s.isMspAdmin id)
    (.principalInvariant "the authenticated principal cannot remove its final access scope")
  raiseIf (principal.active ∧ !hasRemainingScope ∧ !s.isMspAdmin id)
    (.principalInvariant "an active principal must retain a client role or the msp_admin role")
  let remaining : Store := { s with clientRoles := s.clientRoles.delete fun r => r = removed }
  return remaining.withoutGrants now fun g =>
    g.principalId = id && g.clientScope = some client

def removePrincipalGlobalRole (s : Store) (principalId role now : String) :
    Except AccessError Store := do
  let id ← required principalId "principal_id must be non-empty"
  requireMspAdminLabel role
  let principal ← requirePrincipal s id
  raiseIf (!s.isMspAdmin id) (.keyError [id.val, "msp_admin"])
  guardLastMspAdmin s id false
  raiseIf (principal.active ∧ ¬ s.clientRoles.rows.any fun r => r.principalId == id)
    (.principalInvariant "an active principal must retain a client role or the msp_admin role")
  let remaining : Store :=
    { s with globalRoles := s.globalRoles.delete fun g => g.principalId = id }
  return remaining.withoutGrants now fun g => g.principalId = id && g.clientScope = none

/-! ## Activation -/

def Principal.setActive (active : Bool) (p : Principal) : Principal := { p with active }

theorem Principal.setActive_id (active : Bool) (p : Principal) :
    (p.setActive active).principalId = p.principalId := rfl

def AuthSession.revoke (a : AuthSession) : AuthSession := { a with revoked := true }

theorem AuthSession.revoke_hash (a : AuthSession) :
    a.revoke.sessionTokenHash = a.sessionTokenHash := rfl

def Store.withActive (s : Store) (principalId : NormalizedText) (active : Bool) : Store :=
  { s with
    principals := s.principals.update (fun p => p.principalId = principalId)
      (Principal.setActive active) (Principal.setActive_id active) }

/-- `Store.deactivate_principal`, with the number of sessions it revokes. -/
def deactivatePrincipal (s : Store) (principalId : String) (actorPrincipalId : Option String)
    (now : String) : Except AccessError (Store × ℕ) := do
  let id ← required principalId "principal_id must be non-empty"
  raiseIf (actorPrincipalId = some id.val)
    (.principalInvariant "the authenticated principal cannot revoke or deactivate itself")
  let _ ← requirePrincipal s id
  guardLastMspAdmin s id false
  let inactive := ((s.withActive id false).withoutCredentials id).withoutGrants now fun g =>
    g.principalId = id
  return ({ inactive with
    sessions := s.sessions.update (fun a => a.principalId = id && !a.revoked) AuthSession.revoke
      AuthSession.revoke_hash },
    s.sessions.rowcount fun a => a.principalId = id && !a.revoked)

def setPrincipalActive (s : Store) (principalId : String) (active : Bool) (now : String) :
    Except AccessError Store := do
  let id ← required principalId "principal_id must be non-empty"
  if !active then
    let (s', _) ← deactivatePrincipal s principalId none now
    return s'
  else
    let _ ← requirePrincipal s id
    return s.withActive id true

def Principal.rename (displayName : String) (p : Principal) : Principal := { p with displayName }

theorem Principal.rename_id (displayName : String) (p : Principal) :
    (p.rename displayName).principalId = p.principalId := rfl

def setPrincipalDisplayName (rt : Runtime) (s : Store) (principalId displayName : String) :
    Except AccessError Store := do
  let id ← required principalId "principal_id must be non-empty"
  let name ← required displayName "display_name must be non-empty"
  let _ ← requirePrincipal s id
  return { s with
    principals := s.principals.update (fun p => p.principalId = id)
      (Principal.rename (rt.redactText name.val)) (Principal.rename_id (rt.redactText name.val)) }

/-! ## Capability grants -/

def isCapabilityKey (key : String) : Bool :=
  match key.toList with
  | [] => false
  | c :: cs =>
      ('a' ≤ c && c ≤ 'z') && cs.length ≤ 63 && cs.all fun d =>
        ('a' ≤ d && d ≤ 'z') || ('0' ≤ d && d ≤ '9') || d == '_' || d == '.' || d == '-'

def boundedId (value message : String) : Except AccessError NormalizedText := do
  let id ← required value message
  raiseIf (128 < id.val.length) (.valueError message)
  return id

/-- `_capability_key`; `microsoft_admin` is the one supported capability. -/
def capabilityKey (value : String) : Except AccessError String := do
  let normalized := Text.lower (Text.strip value)
  raiseIf (!isCapabilityKey normalized) (.valueError "capability_key is invalid")
  raiseIf (normalized ≠ "microsoft_admin") (.valueError "unsupported capability_key")
  return normalized

def grantClientId (value : Option String) : Except AccessError (Option ClientId) :=
  match value with
  | none => .ok none
  | some text => do
      let clientId ← boundedId text "client_id is invalid"
      raiseIf (clientId = quarantineClientId) (.valueError "client_id is invalid")
      return some clientId

def validateGrantTarget (s : Store) (principalId : NormalizedText) (clientId : Option ClientId) :
    Except AccessError Unit := do
  let principal ← requirePrincipal s principalId
  raiseIf (!principal.active) (.valueError "capability grants require an active principal")
  match clientId with
  | none =>
      raiseIf (!s.isMspAdmin principalId)
        (.valueError "global capability grants require the msp_admin role")
  | some client => do
      raiseIf ((s.clients.find? client).all fun c => c.status == .quarantine)
        (.keyError [client.val])
      raiseIf (!s.hasClientRole principalId client && !s.isMspAdmin principalId)
        (.valueError "principal has no role for the requested client")

def CapabilityGrant.renew (actorId now : String) (g : CapabilityGrant) : CapabilityGrant :=
  { g with active := true, updatedBy := actorId, updatedAt := now }

theorem CapabilityGrant.renew_key (actorId now : String) (g : CapabilityGrant) :
    (g.renew actorId now).key = g.key := rfl

def upsertGrant (s : Store) (principalId : NormalizedText) (capabilityKey : String)
    (clientScope : Option ClientId) (actorId now : String) : Store :=
  match s.grants.insert?
    { principalId, capabilityKey, clientScope, active := true, grantedBy := actorId,
      updatedBy := actorId, createdAt := now, updatedAt := now } with
  | some grants => { s with grants }
  | none =>
      { s with
        grants := s.grants.update (fun g => g.key = (principalId, capabilityKey, clientScope))
          (CapabilityGrant.renew actorId now) (CapabilityGrant.renew_key actorId now) }

def grantCapability (s : Store) (principalId capability : String) (clientId : Option String)
    (actorId now : String) : Except AccessError Store := do
  let id ← boundedId principalId "principal_id must be 1-128 characters"
  let key ← capabilityKey capability
  let client ← grantClientId clientId
  let actor ← boundedId actorId "actor_id must be 1-128 characters"
  validateGrantTarget s id client
  return upsertGrant s id key client actor.val now

def CapabilityGrant.withdraw (actorId now : String) (g : CapabilityGrant) : CapabilityGrant :=
  { g with active := false, updatedBy := actorId, updatedAt := now }

theorem CapabilityGrant.withdraw_key (actorId now : String) (g : CapabilityGrant) :
    (g.withdraw actorId now).key = g.key := rfl

def revokeCapability (s : Store) (principalId capability : String) (clientId : Option String)
    (actorId now : String) : Except AccessError Store := do
  let id ← boundedId principalId "principal_id must be 1-128 characters"
  let key ← capabilityKey capability
  let client ← grantClientId clientId
  let actor ← boundedId actorId "actor_id must be 1-128 characters"
  raiseIf (s.grants.find? (id, key, client)).isNone
    (.keyError [id.val, key, (client.map Subtype.val).getD "None"])
  return { s with
    grants := s.grants.update (fun g => g.key = (id, key, client))
      (CapabilityGrant.withdraw actor.val now) (CapabilityGrant.withdraw_key actor.val now) }

/-! ## Sequences of operations -/

inductive AccessCall where
  | createPrincipal (principalId kind displayName : String)
  | createPrincipalWithAccess (principalId kind displayName : String)
      (clientRoles : List (String × String)) (mspAdmin : Bool) (credential : Option String)
  | addPrincipalCredential (principalId credential : String)
  | rotatePrincipalCredential (principalId credential : String)
  | revokePrincipalCredential (credentialHash : String)
  | revokeAllPrincipalCredentials (principalId : String) (actorPrincipalId : Option String)
  | addPrincipalClientRole (principalId clientId role : String)
  | removePrincipalClientRole (principalId clientId role : String)
      (actorPrincipalId : Option String) (now : String)
  | addPrincipalGlobalRole (principalId role : String)
  | removePrincipalGlobalRole (principalId role now : String)
  | setPrincipalActive (principalId : String) (active : Bool) (now : String)
  | deactivatePrincipal (principalId : String) (actorPrincipalId : Option String) (now : String)
  | setPrincipalDisplayName (principalId displayName : String)
  | grantCapability (principalId capability : String) (clientId : Option String)
      (actorId now : String)
  | revokeCapability (principalId capability : String) (clientId : Option String)
      (actorId now : String)
  /-- Whatever the client operations make of the clients. -/
  | clientsChange (clients : Table Client.clientId)

def AccessCall.apply (rt : Runtime) (s : Store) : AccessCall → Store
  | .createPrincipal principalId kind displayName =>
      committed s (Access.createPrincipal rt s principalId kind displayName)
  | .createPrincipalWithAccess principalId kind displayName clientRoles mspAdmin credential =>
      committed s (Access.createPrincipalWithAccess rt s principalId kind displayName clientRoles
        mspAdmin credential)
  | .addPrincipalCredential principalId credential =>
      committed s ((Access.addPrincipalCredential rt s principalId credential).map Prod.fst)
  | .rotatePrincipalCredential principalId credential =>
      committed s ((Access.rotatePrincipalCredential rt s principalId credential).map Prod.fst)
  | .revokePrincipalCredential credentialHash =>
      committed s (Access.revokePrincipalCredential s credentialHash)
  | .revokeAllPrincipalCredentials principalId actorPrincipalId =>
      committed s
        ((Access.revokeAllPrincipalCredentials s principalId actorPrincipalId).map Prod.fst)
  | .addPrincipalClientRole principalId clientId role =>
      committed s (Access.addPrincipalClientRole s principalId clientId role)
  | .removePrincipalClientRole principalId clientId role actorPrincipalId now =>
      committed s
        (Access.removePrincipalClientRole s principalId clientId role actorPrincipalId now)
  | .addPrincipalGlobalRole principalId role =>
      committed s (Access.addPrincipalGlobalRole s principalId role)
  | .removePrincipalGlobalRole principalId role now =>
      committed s (Access.removePrincipalGlobalRole s principalId role now)
  | .setPrincipalActive principalId active now =>
      committed s (Access.setPrincipalActive s principalId active now)
  | .deactivatePrincipal principalId actorPrincipalId now =>
      committed s ((Access.deactivatePrincipal s principalId actorPrincipalId now).map Prod.fst)
  | .setPrincipalDisplayName principalId displayName =>
      committed s (Access.setPrincipalDisplayName rt s principalId displayName)
  | .grantCapability principalId capability clientId actorId now =>
      committed s (Access.grantCapability s principalId capability clientId actorId now)
  | .revokeCapability principalId capability clientId actorId now =>
      committed s (Access.revokeCapability s principalId capability clientId actorId now)
  | .clientsChange clients => { s with clients }

def access (rt : Runtime) : Machine Store AccessCall where
  init := .fresh
  step := AccessCall.apply rt

end WaitLocalAgent.Access
