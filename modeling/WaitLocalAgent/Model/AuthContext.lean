import WaitLocalAgent.Model.Principals

/-! # Authentication contexts and client scopes

What a request may do: the one role of its context, and the clients of the scope that is resolved
from it. -/

namespace WaitLocalAgent.Access

open Foundation Tenancy

inductive HttpError where
  | unauthorized (detail : String)
  | forbidden (detail : String)
  | valueError (message : String)
  deriving DecidableEq, Repr

structure Settings where
  clientId : String
  demoMode : Bool := false
  endUserSupportEnabled : Bool := false
  endUserToken : String := ""
  endUserClientId : String := ""
  endUserUserId : String := ""
  apiToken : String := ""
  adminToken : String := ""
  techToken : String := ""
  viewerToken : String := ""

structure PrincipalAuthRecord where
  principalId : NormalizedText
  principalKind : PrincipalKind
  clientRoles : List (ClientId × Role)
  isMspAdmin : Bool

structure AuthContext where
  role : Role
  presentedToken : Option String
  clientId : Option ClientId
  principalId : Option String
  clientIds : List ClientId
  isMspAdmin : Bool := false
  demoMode : Bool := false
  capabilityGrants : List (String × Option ClientId) := []

def Store.clientRolesOf (s : Store) (principalId : NormalizedText) : List (ClientId × Role) :=
  ((s.clientRoles.rows.filter fun r : ClientRole => r.principalId == principalId).map
    fun r => (r.clientId, r.role)).insertionSort earlierRole

def Store.authRecord (s : Store) (p : Principal) : PrincipalAuthRecord where
  principalId := p.principalId
  principalKind := p.kind
  clientRoles := s.clientRolesOf p.principalId
  isMspAdmin := s.isMspAdmin p.principalId

def Store.findPrincipalAuthRecord (s : Store) (principalId : String) :
    Option PrincipalAuthRecord :=
  ((normalizeClientId (some principalId)).bind s.principals.find?).bind fun p =>
    if p.active then some (s.authRecord p) else none

def Store.findPrincipalByCredentialHash (s : Store) (credentialHash : String) :
    Option PrincipalAuthRecord :=
  (s.credentials.find? credentialHash).bind fun c =>
    if c.active then s.findPrincipalAuthRecord c.principalId.val else none

def Store.activeCapabilityGrants (s : Store) (principalId : NormalizedText) :
    Except HttpError (List (String × Option ClientId)) :=
  if 128 < principalId.val.length then
    .error (.valueError "principal_id must be 1-128 characters")
  else
    .ok ((s.grants.rows.filter fun g : CapabilityGrant =>
      g.principalId == principalId && g.active).map fun g => (g.capabilityKey, g.clientScope))

/-- `dict(client_roles).get(client_id)`: the last role of a client is the one that stays. -/
def PrincipalAuthRecord.roleOn? (record : PrincipalAuthRecord) (clientId : ClientId) :
    Option Role :=
  (record.clientRoles.filter fun r => r.1 == clientId).getLast?.map Prod.snd

def PrincipalAuthRecord.clientIds (record : PrincipalAuthRecord) : List ClientId :=
  (record.clientRoles.map Prod.fst).dedup

def primaryClientId (configured : Option ClientId) (clientIds : List ClientId) :
    Option ClientId :=
  match configured.filter fun c => clientIds.contains c with
  | some c => some c
  | none => (clientIds.insertionSort fun c d => c.val ≤ d.val).head?

def principalAuthContext (settings : Settings) (s : Store) (token : Option String)
    (record : PrincipalAuthRecord) : Except HttpError AuthContext := do
  raiseIf (record.principalKind = .customer ∧ record.clientIds.length ≠ 1)
    (.unauthorized "principal has an invalid client membership")
  raiseIf (record.clientIds = [] ∧ record.isMspAdmin = false)
    (.unauthorized "principal has no client membership")
  let primary := primaryClientId (normalizeClientId (some settings.clientId)) record.clientIds
  match if record.isMspAdmin then some .admin else primary.bind record.roleOn? with
  | none => .error (.unauthorized "principal has no usable role")
  | some role => do
      let capabilityGrants ← s.activeCapabilityGrants record.principalId
      return { role
               presentedToken := token
               clientId := primary
               principalId := some record.principalId.val
               clientIds := record.clientIds
               isMspAdmin := record.isMspAdmin
               capabilityGrants }

def Settings.bootstrapRole? (settings : Settings) (token : String) : Option Role :=
  ([(settings.apiToken, Role.admin), (settings.adminToken, .admin),
    (settings.techToken, .technician), (settings.viewerToken, .viewer)].find? fun candidate =>
      candidate.1 ≠ "" && token = candidate.1).map Prod.snd

def resolveBearerAuthContext (rt : Runtime) (settings : Settings) (s : Store) (token : String) :
    Except HttpError AuthContext :=
  if settings.endUserSupportEnabled ∧ settings.endUserToken ≠ "" ∧
      token = settings.endUserToken then
    .ok { role := .endUser
          presentedToken := some token
          clientId := normalizeClientId (some settings.endUserClientId)
          principalId := Text.stripOrNone (some settings.endUserUserId)
          clientIds := (normalizeClientId (some settings.endUserClientId)).toList }
  else
    match settings.bootstrapRole? token with
    | some role =>
        .ok { role
              presentedToken := some token
              clientId := normalizeClientId (some settings.clientId)
              principalId := none
              clientIds := (normalizeClientId (some settings.clientId)).toList
              isMspAdmin := true }
    | none =>
        if Text.strip token = "" then
          .error (.valueError "credential must be a non-empty string")
        else
          match s.findPrincipalByCredentialHash (rt.sha256 token) with
          | some record => principalAuthContext settings s (some token) record
          | none => .error (.unauthorized "invalid bearer token")

def sessionAuthContext (settings : Settings) (s : Store) (principalId : String) :
    Except HttpError AuthContext :=
  match s.findPrincipalAuthRecord principalId with
  | some record => principalAuthContext settings s none record
  | none => .error (.unauthorized "invalid session")

def requireRole (minimum : Role) (resolved : Except HttpError AuthContext) :
    Except HttpError AuthContext := do
  let context ← resolved
  raiseIf (context.role < minimum) (.forbidden "insufficient role")
  return context

def resolveClientScope (context : AuthContext) (requestedClientId : Option String) :
    Except HttpError ClientScope :=
  let requested := normalizeClientId requestedClientId
  if context.demoMode || context.isMspAdmin then
    match requested with
    | some clientId => .ok (.boundClients [clientId.val])
    | none => .ok .allClients
  else if context.clientIds = [] then
    .error (.forbidden "authenticated principal has no tenant")
  else
    match requested with
    | some clientId =>
        if context.clientIds.contains clientId then .ok (.boundClients [clientId.val])
        else .error (.forbidden "requested tenant is outside authenticated scope")
    | none => .ok (.boundClients (context.clientIds.map Subtype.val))

end WaitLocalAgent.Access

/-! ## Browser sessions

The session operations of the store, and any sequence of them with the operations on principals,
credentials and capability grants. -/

namespace WaitLocalAgent.Access

open Foundation Tenancy

/-- `auth_method.strip().lower()`, checked. -/
def AuthMethod.parse? (method : String) : Option AuthMethod :=
  match Text.lower (Text.strip method) with
  | "local" => some .localLogin
  | "oidc" => some .oidc
  | _ => none

def parsedAuthMethod (method : String) : Except AccessError AuthMethod :=
  match AuthMethod.parse? method with
  | some parsed => .ok parsed
  | none => .error (.valueError "unsupported session auth method")

structure SessionRequest where
  sessionTokenHash : String
  principalId : String
  idleExpiresAt : String
  absoluteExpiresAt : String
  authMethod : String := "local"
  userAgent : String := ""

def createAuthSession (s : Store) (request : SessionRequest) (now : String) :
    Except AccessError (Store × AuthSession) := do
  let message := "session token hash and principal_id are required"
  let hash ← required request.sessionTokenHash message
  let id ← required request.principalId message
  let authMethod ← parsedAuthMethod request.authMethod
  raiseIf (request.idleExpiresAt = "" ∨ request.absoluteExpiresAt = "")
    (.valueError "session expiry timestamps are required")
  raiseIf ((s.principals.find? id).all fun p => !p.active) (.keyError [id.val])
  let session : AuthSession :=
    { sessionTokenHash := hash
      principalId := id
      authMethod
      createdAt := now
      lastSeenAt := now
      idleExpiresAt := request.idleExpiresAt
      absoluteExpiresAt := request.absoluteExpiresAt
      revoked := false
      userAgent := String.ofList (request.userAgent.toList.take 512) }
  let sessions ← inserted s.sessions session
  return ({ s with sessions }, session)

def AuthSession.isExpired (now : String) (a : AuthSession) : Bool :=
  a.idleExpiresAt ≤ now || a.absoluteExpiresAt ≤ now

/-- The delete of `get_auth_session`. -/
def Store.withoutExpiredSessions (s : Store) (now : String) : Store :=
  { s with sessions := s.sessions.delete (AuthSession.isExpired now) }

def Store.liveSession? (s : Store) (hash : NormalizedText) : Option AuthSession :=
  (s.sessions.find? hash).filter fun a => !a.revoked

def getAuthSession (s : Store) (sessionTokenHash now : String) : Option AuthSession × Store :=
  match normalizeClientId (some sessionTokenHash) with
  | none => (none, s)
  | some hash =>
      let cleaned := s.withoutExpiredSessions now
      (cleaned.liveSession? hash, cleaned)

def AuthSession.touch (lastSeenAt idleExpiresAt : String) (a : AuthSession) : AuthSession :=
  { a with lastSeenAt, idleExpiresAt }

theorem AuthSession.touch_hash (lastSeenAt idleExpiresAt : String) (a : AuthSession) :
    (a.touch lastSeenAt idleExpiresAt).sessionTokenHash = a.sessionTokenHash := rfl

/-- `Store.touch_auth_session`; the idle expiry stays within the absolute one. -/
def touchAuthSession (s : Store) (sessionTokenHash lastSeenAt idleExpiresAt : String) :
    Bool × Store :=
  match normalizeClientId (some sessionTokenHash) with
  | none => (false, s)
  | some hash =>
      if lastSeenAt = "" ∨ idleExpiresAt = "" then (false, s)
      else
        match s.liveSession? hash with
        | none => (false, s)
        | some row =>
            let bounded :=
              if row.absoluteExpiresAt < idleExpiresAt then row.absoluteExpiresAt
              else idleExpiresAt
            (true, { s with
              sessions := s.sessions.update (fun a => a.sessionTokenHash = hash && !a.revoked)
                (AuthSession.touch lastSeenAt bounded)
                (AuthSession.touch_hash lastSeenAt bounded) })

/-- `update auth_sessions set revoked = 1 where …`. -/
def Store.withoutSessions (s : Store) (p : AuthSession → Bool) : Store :=
  { s with sessions := s.sessions.update p AuthSession.revoke AuthSession.revoke_hash }

def revokeAuthSession (s : Store) (sessionTokenHash : String) : Bool × Store :=
  match normalizeClientId (some sessionTokenHash) with
  | none => (false, s)
  | some hash =>
      (s.sessions.rowcount (fun a => a.sessionTokenHash = hash) == 1,
        s.withoutSessions fun a => a.sessionTokenHash = hash)

def revokePrincipalSessions (s : Store) (principalId : String) : ℕ × Store :=
  match normalizeClientId (some principalId) with
  | none => (0, s)
  | some id =>
      (s.sessions.rowcount (fun a => a.principalId = id && !a.revoked),
        s.withoutSessions fun a => a.principalId = id && !a.revoked)

inductive AuthCall where
  | access (call : AccessCall)
  | createAuthSession (request : SessionRequest) (now : String)
  | getAuthSession (sessionTokenHash now : String)
  | touchAuthSession (sessionTokenHash lastSeenAt idleExpiresAt : String)
  | revokeAuthSession (sessionTokenHash : String)
  | revokePrincipalSessions (principalId : String)

def AuthCall.apply (rt : Runtime) (s : Store) : AuthCall → Store
  | .access call => call.apply rt s
  | .createAuthSession request now =>
      committed s ((Access.createAuthSession s request now).map Prod.fst)
  | .getAuthSession sessionTokenHash now => (Access.getAuthSession s sessionTokenHash now).2
  | .touchAuthSession sessionTokenHash lastSeenAt idleExpiresAt =>
      (Access.touchAuthSession s sessionTokenHash lastSeenAt idleExpiresAt).2
  | .revokeAuthSession sessionTokenHash => (Access.revokeAuthSession s sessionTokenHash).2
  | .revokePrincipalSessions principalId => (Access.revokePrincipalSessions s principalId).2

/-- Any sequence of these calls on a fresh store. -/
def authentication (rt : Runtime) : Machine Store AuthCall where
  init := .fresh
  step := AuthCall.apply rt

end WaitLocalAgent.Access
