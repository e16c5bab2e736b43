import WaitLocalAgent.Verification.Access.Roles

/-! # Added client roles

A further client role widens the scope of a principal. It keeps the principal's role too, unless it
puts another role in force on the client that the context's role is read from. -/

namespace WaitLocalAgent.Access

open Foundation Tenancy

variable {rt : Runtime} {settings : Settings} {s s' : Store} {p : Principal} {client : ClientId}
  {added : Role}

/-! ## Requests -/

/-- How a request shows who it is from: the live session of a principal, or a bearer token. -/
inductive Presented where
  | session (principalId : String)
  | bearer (token : String)

def Presented.resolve (rt : Runtime) (settings : Settings) (s : Store) :
    Presented → Except HttpError AuthContext
  | session principalId => sessionAuthContext settings s principalId
  | bearer token => resolveBearerAuthContext rt settings s token

/-- A request with the role that its endpoint requires and the client it asks for. -/
structure Request where
  presented : Presented
  minimum : Role
  requestedClientId : Option String

/-- `require_role`, then `resolve_client_scope`. -/
def Request.authorize (rt : Runtime) (settings : Settings) (s : Store) (request : Request) :
    Except HttpError ClientScope := do
  let context ← requireRole request.minimum (request.presented.resolve rt settings s)
  resolveClientScope context request.requestedClientId

/-- `other` allows whatever `context` does. -/
structure AuthContext.Covers (other context : AuthContext) : Prop where
  role : context.role ≤ other.role
  clientIds : ∀ c ∈ context.clientIds, c ∈ other.clientIds
  isMspAdmin : other.isMspAdmin = context.isMspAdmin
  demoMode : other.demoMode = context.demoMode

theorem AuthContext.Covers.refl (context : AuthContext) : context.Covers context :=
  ⟨le_refl _, fun _ h => h, rfl, rfl⟩

/-- Whoever authenticates in `s` does so in `s'`, with a role that is no lower and all of its
clients, and `s'` accepts every request that `s` accepts, for no fewer clients. -/
structure KeepsAccess (rt : Runtime) (settings : Settings) (s s' : Store) : Prop where
  context : ∀ presented context, Presented.resolve rt settings s presented = .ok context →
    ∃ other, Presented.resolve rt settings s' presented = .ok other ∧
      context.role ≤ other.role ∧ ∀ c ∈ context.clientIds, c ∈ other.clientIds
  request : ∀ request scope, Request.authorize rt settings s request = .ok scope →
    ∃ other, Request.authorize rt settings s' request = .ok other ∧
      ∀ c, scope.admits c = true → other.admits c = true

theorem AuthContext.Covers.resolveClientScope {context other : AuthContext}
    {requested : Option String} {scope : ClientScope} (h : other.Covers context)
    (hscope : resolveClientScope context requested = .ok scope) :
    ∃ wider, Access.resolveClientScope other requested = .ok wider ∧
      ∀ c, scope.admits c = true → wider.admits c = true := by
  simp only [Access.resolveClientScope, h.isMspAdmin, h.demoMode] at hscope ⊢
  split
  · rename_i hglobal
    rw [if_pos hglobal] at hscope
    exact ⟨scope, hscope, fun _ hc => hc⟩
  · rename_i hglobal
    rw [if_neg hglobal] at hscope
    split at hscope
    · cases hscope
    · rename_i hne
      obtain ⟨c, hc⟩ := List.exists_mem_of_ne_nil _ hne
      rw [if_neg (List.ne_nil_of_mem (h.clientIds c hc))]
      cases hrequested : normalizeClientId requested with
      | none =>
          simp only [hrequested] at hscope ⊢
          cases hscope
          refine ⟨_, rfl, ?_⟩
          intro d hd
          exact admits_boundClients.mpr (h.clientIds d (admits_boundClients.mp hd))
      | some d =>
          simp only [hrequested] at hscope ⊢
          split at hscope
          · rename_i hmem
            have hmem' : d ∈ other.clientIds := h.clientIds d (List.contains_iff_mem.mp hmem)
            rw [if_pos (List.contains_iff_mem.mpr hmem')]
            exact ⟨scope, hscope, fun _ hc => hc⟩
          · cases hscope

theorem keepsAccess_of_covers (h : ∀ presented context,
    Presented.resolve rt settings s presented = .ok context →
      ∃ other, Presented.resolve rt settings s' presented = .ok other ∧ other.Covers context) :
    KeepsAccess rt settings s s' := by
  constructor
  · intro presented context hcontext
    obtain ⟨other, hother, hcovers⟩ := h presented context hcontext
    exact ⟨other, hother, hcovers.role, hcovers.clientIds⟩
  · intro request scope hscope
    simp only [Request.authorize, bind_eq_ok] at hscope ⊢
    obtain ⟨context, hrequire, hresolved⟩ := hscope
    obtain ⟨hcontext, hminimum⟩ := requireRole_eq_ok.mp hrequire
    obtain ⟨other, hother, hcovers⟩ := h request.presented context hcontext
    obtain ⟨wider, hwider, hadmits⟩ := hcovers.resolveClientScope hresolved
    exact ⟨wider, ⟨other, requireRole_eq_ok.mpr ⟨hother, hminimum.trans hcovers.role⟩, hwider⟩,
      hadmits⟩

/-! ## What an addition does -/

/-- `s'` is `s` with one more client role of `p`. -/
structure Store.RoleAdded (s s' : Store) (p : Principal) (client : ClientId) (added : Role) :
    Prop where
  principal : p ∈ s.principals
  single : p.kind = .customer → ∀ c, s.hasClientRole p.principalId c = true → c = client
  rows : s'.clientRoles.rows = s.clientRoles.rows ++ [⟨p.principalId, client, added⟩]
  principals : s'.principals = s.principals
  credentials : s'.credentials = s.credentials
  globalRoles : s'.globalRoles = s.globalRoles
  grants : s'.grants = s.grants

theorem addPrincipalClientRole_adds {principalId clientId role : String}
    (h : addPrincipalClientRole s principalId clientId role = .ok s') :
    ∃ p client added, normalizeClientId (some principalId) = some p.principalId ∧
      normalizeClientId (some clientId) = some client ∧ Role.parse? role = some added ∧
        s.RoleAdded s' p client added := by
  simp only [addPrincipalClientRole, bind_eq_ok, pure_eq_ok, raiseIf_eq_ok] at h
  obtain ⟨id, hid, client, hclient, _, _, added, hadded, p, hp, _, hsingle, clientRoles,
    hinserted, rfl⟩ := h
  obtain ⟨hmem, rfl⟩ := requirePrincipal_eq_ok.mp hp
  refine ⟨p, client, added, required_eq_ok.mp hid, required_eq_ok.mp hclient, ?_, hmem, ?_, ?_,
    rfl, rfl, rfl, rfl⟩
  · unfold parsedRole at hadded
    split at hadded
    · rename_i hsome
      cases hadded
      exact hsome
    · cases hadded
  · intro hkind c hc
    obtain ⟨r, hr, hrid, rfl⟩ := Store.hasClientRole_iff.mp hc
    by_contra hne
    refine hsingle ⟨hkind, List.any_eq_true.mpr ⟨r, hr, ?_⟩⟩
    simp [hrid, hne]
  · unfold inserted at hinserted
    split at hinserted
    · rename_i t ht
      cases hinserted
      obtain ⟨_, rfl⟩ := Table.insert?_eq_some_iff.mp ht
      rfl
    · cases hinserted

namespace Store.RoleAdded

theorem mem_clientRoles (h : s.RoleAdded s' p client added) {r : ClientRole} :
    r ∈ s'.clientRoles ↔ r ∈ s.clientRoles ∨ r = ⟨p.principalId, client, added⟩ := by
  simp [Table.mem_def, h.rows]

theorem hasClientRole (h : s.RoleAdded s' p client added) {c : ClientId} :
    s'.hasClientRole p.principalId c = true ↔
      s.hasClientRole p.principalId c = true ∨ c = client := by
  simp only [Store.hasClientRole, h.rows, List.any_append, List.any_cons, List.any_nil,
    Bool.or_false, Bool.or_eq_true, beq_self_eq_true, Bool.true_and, beq_iff_eq]
  exact or_congr_right eq_comm

theorem isMspAdmin (h : s.RoleAdded s' p client added) (id : NormalizedText) :
    s'.isMspAdmin id = s.isMspAdmin id := by
  simp only [Store.isMspAdmin, h.globalRoles]

theorem activeCapabilityGrants (h : s.RoleAdded s' p client added) (id : NormalizedText) :
    s'.activeCapabilityGrants id = s.activeCapabilityGrants id := by
  simp only [Store.activeCapabilityGrants, h.grants]

theorem clientRolesOf_of_ne (h : s.RoleAdded s' p client added) {id : NormalizedText}
    (hne : p.principalId ≠ id) : s'.clientRolesOf id = s.clientRolesOf id := by
  have hnew : (p.principalId == id) = false := beq_eq_false_iff_ne.mpr hne
  simp only [Store.clientRolesOf, h.rows, List.filter_append, List.filter_cons, List.filter_nil,
    hnew, Bool.false_eq_true, if_false, List.append_nil]

theorem authRecord_of_ne (h : s.RoleAdded s' p client added) {q : Principal}
    (hne : p.principalId ≠ q.principalId) : s'.authRecord q = s.authRecord q := by
  simp only [Store.authRecord, h.clientRolesOf_of_ne hne, h.isMspAdmin]

theorem principalAuthContext_of_ne (h : s.RoleAdded s' p client added) {q : Principal}
    (hne : p.principalId ≠ q.principalId) (token : Option String) :
    principalAuthContext settings s' token (s'.authRecord q) =
      principalAuthContext settings s token (s.authRecord q) := by
  rw [h.authRecord_of_ne hne]
  simp only [principalAuthContext, h.activeCapabilityGrants]

theorem admissible (h : s.RoleAdded s' p client added) (hp : Admissible s p) :
    Admissible s' p := by
  refine ⟨hp.active, hp.short, ?_⟩
  intro hkind c d hc hd
  have hsame : ∀ e, s'.hasClientRole p.principalId e = true → e = client := by
    intro e he
    rcases h.hasClientRole.mp he with hold | hnew
    · exact h.single hkind e hold
    · exact hnew
  rw [hsame c hc, hsame d hd]

theorem mem_clientIds (h : s.RoleAdded s' p client added) {c : ClientId}
    (hc : c ∈ (s.authRecord p).clientIds) : c ∈ (s'.authRecord p).clientIds := by
  rw [Access.mem_clientIds] at hc ⊢
  exact h.hasClientRole.mpr (.inl hc)

end Store.RoleAdded

/-! ## The role in force -/

/-- The added role comes into force in place of the role `held` on the primary client: on that
client its label sorts later, and another client becomes the primary one if it is the configured
client, or sorts before a primary client that is not. -/
def Supersedes (settings : Settings) (primary : ClientId) (held : Role) (client : ClientId)
    (added : Role) : Prop :=
  if client = primary then held.label < added.label
  else normalizeClientId (some settings.clientId) = some client ∨
    normalizeClientId (some settings.clientId) ≠ some primary ∧ client.val < primary.val

section InForce

variable {primary : ClientId} {held : Role}

theorem Store.RoleAdded.primary_stays (h : s.RoleAdded s' p client added)
    (hprimary : s.Primary settings p.principalId primary)
    (hclient : client = primary ∨ normalizeClientId (some settings.clientId) ≠ some client)
    (hleast : normalizeClientId (some settings.clientId) = some primary ∨
      primary.val ≤ client.val) : s'.Primary settings p.principalId primary := by
  refine ⟨h.hasClientRole.mpr (.inl hprimary.member), ?_⟩
  rcases hprimary.chosen with hconfigured | ⟨hnone, hfirst⟩
  · exact .inl hconfigured
  · right
    constructor
    · intro c hc
      have hold := hnone c hc
      rw [Bool.eq_false_iff]
      intro hrole
      rcases h.hasClientRole.mp hrole with hrole | rfl
      · rw [hold] at hrole
        cases hrole
      · rcases hclient with rfl | hother
        · rw [hprimary.member] at hold
          cases hold
        · exact hother hc
    · intro c hrole
      rcases h.hasClientRole.mp hrole with hrole | rfl
      · exact hfirst c hrole
      · rcases hleast with hconfigured | hle
        · have hmiss := hnone primary hconfigured
          rw [hprimary.member] at hmiss
          cases hmiss
        · exact hle

/-- The role in force stays unless it is superseded. -/
theorem Store.RoleAdded.kept (h : s.RoleAdded s' p client added)
    (hprimary : s.Primary settings p.principalId primary)
    (hheld : s.LastRole p.principalId primary held)
    (hkept : ¬ Supersedes settings primary held client added) :
    s'.Primary settings p.principalId primary ∧ s'.LastRole p.principalId primary held := by
  unfold Supersedes at hkept
  split at hkept
  · rename_i hsame
    subst hsame
    refine ⟨h.primary_stays hprimary (.inl rfl) (.inr le_rfl),
      h.mem_clientRoles.mpr (.inl hheld.held), ?_⟩
    intro q hq
    rcases h.mem_clientRoles.mp hq with hold | hnew
    · exact hheld.last q hold
    · cases hnew
      exact not_lt.mp hkept
  · rename_i hother
    obtain ⟨hconfigured, hlater⟩ := not_or.mp hkept
    rw [not_and_or, not_not, not_lt] at hlater
    refine ⟨h.primary_stays hprimary (.inr hconfigured) hlater,
      h.mem_clientRoles.mpr (.inl hheld.held), ?_⟩
    intro q hq
    rcases h.mem_clientRoles.mp hq with hold | hnew
    · exact hheld.last q hold
    · cases hnew
      exact absurd rfl hother

theorem Store.RoleAdded.lastRole_of_new (h : s.RoleAdded s' p client added)
    (hnew : s.hasClientRole p.principalId client = false) :
    s'.LastRole p.principalId client added := by
  refine ⟨h.mem_clientRoles.mpr (.inr rfl), ?_⟩
  intro q hq
  rcases h.mem_clientRoles.mp hq with hold | hadded
  · have hrole := Store.hasClientRole_iff.mpr ⟨_, hold, rfl, rfl⟩
    rw [hnew] at hrole
    cases hrole
  · cases hadded
    exact le_rfl

theorem Store.RoleAdded.superseded (h : s.RoleAdded s' p client added)
    (hprimary : s.Primary settings p.principalId primary)
    (hheld : s.LastRole p.principalId primary held)
    (hsuperseded : Supersedes settings primary held client added) :
    s'.Primary settings p.principalId client ∧ s'.LastRole p.principalId client added := by
  unfold Supersedes at hsuperseded
  split at hsuperseded
  · rename_i hsame
    subst hsame
    refine ⟨h.primary_stays hprimary (.inl rfl) (.inr le_rfl), h.mem_clientRoles.mpr (.inr rfl), ?_⟩
    intro q hq
    rcases h.mem_clientRoles.mp hq with hold | hnew
    · exact (hheld.last q hold).trans hsuperseded.le
    · cases hnew
      exact le_rfl
  · rename_i hother
    -- the primary client was not the configured one, or `client` would not replace it
    have hfirst : (∀ c, normalizeClientId (some settings.clientId) = some c →
        s.hasClientRole p.principalId c = false) ∧
          ∀ c, s.hasClientRole p.principalId c = true → primary.val ≤ c.val := by
      rcases hprimary.chosen with hconfigured | hfirst
      · rcases hsuperseded with hclient | ⟨hnot, _⟩
        · exact absurd (Option.some.inj (hclient.symm.trans hconfigured)) hother
        · exact absurd hconfigured hnot
      · exact hfirst
    have hmember : s'.hasClientRole p.principalId client = true := h.hasClientRole.mpr (.inr rfl)
    by_cases hclient : normalizeClientId (some settings.clientId) = some client
    · exact ⟨⟨hmember, .inl hclient⟩, h.lastRole_of_new (hfirst.1 client hclient)⟩
    · have hlt : client.val < primary.val := (hsuperseded.resolve_left hclient).2
      have hnew : s.hasClientRole p.principalId client = false := by
        rw [Bool.eq_false_iff]
        intro hrole
        exact absurd (hfirst.2 client hrole) (not_le.mpr hlt)
      refine ⟨⟨hmember, .inr ⟨?_, ?_⟩⟩, h.lastRole_of_new hnew⟩
      · intro c hc
        rw [Bool.eq_false_iff]
        intro hrole
        rcases h.hasClientRole.mp hrole with hrole | rfl
        · rw [hfirst.1 c hc] at hrole
          cases hrole
        · exact hclient hc
      · intro c hrole
        rcases h.hasClientRole.mp hrole with hrole | rfl
        · exact hlt.le.trans (hfirst.2 c hrole)
        · exact le_rfl

end InForce

/-! ## The law -/

/-- An addition to a principal that is let in without `msp_admin` puts no lower role in force. -/
def NoDemotion (settings : Settings) (s : Store) (p : Principal) (client : ClientId)
    (added : Role) : Prop :=
  Admissible s p → s.isMspAdmin p.principalId = false → ∀ primary held,
    s.Primary settings p.principalId primary → s.LastRole p.principalId primary held →
      Supersedes settings primary held client added → held ≤ added

/-- Without `msp_admin`, the role in force is the one that counts. -/
theorem Store.RoleAdded.exists_covers (h : s.RoleAdded s' p client added)
    (hkeeps : NoDemotion settings s p client added) {token : Option String} {context : AuthContext}
    (hactive : p.active = true) (hplain : s.isMspAdmin p.principalId = false)
    (hcontext : principalAuthContext settings s token (s.authRecord p) = .ok context) :
    ∃ other, principalAuthContext settings s' token (s'.authRecord p) = .ok other ∧
      other.Covers context := by
  obtain ⟨hadmissible, hfacts⟩ := principalAuthContext_eq_ok hplain hcontext
  obtain ⟨primary, hprimary, hheld⟩ := hfacts.role
  have hplain' : s'.isMspAdmin p.principalId = false := (h.isMspAdmin _).trans hplain
  have hafter : ∃ primary' held', s'.Primary settings p.principalId primary' ∧
      s'.LastRole p.principalId primary' held' ∧ context.role ≤ held' := by
    by_cases hsup : Supersedes settings primary context.role client added
    · obtain ⟨hnext, hlast⟩ := h.superseded hprimary hheld hsup
      exact ⟨client, added, hnext, hlast,
        hkeeps (hadmissible hactive) hplain primary _ hprimary hheld hsup⟩
    · obtain ⟨hnext, hlast⟩ := h.kept hprimary hheld hsup
      exact ⟨primary, context.role, hnext, hlast, le_rfl⟩
  obtain ⟨primary', held', hnext, hlast, hle⟩ := hafter
  obtain ⟨other, hother, hrole⟩ :=
    @exists_context settings s' p token primary' held' hplain'
      (h.admissible (hadmissible hactive)) hnext hlast
  have hfacts' := (principalAuthContext_eq_ok hplain' hother).2
  refine ⟨other, hother, ?_, ?_, ?_, ?_⟩
  · rw [hrole]
    exact hle
  · intro c hc
    rw [hfacts'.clientIds]
    rw [hfacts.clientIds] at hc
    exact h.mem_clientIds hc
  · rw [hfacts'.admin, hfacts.admin]
  · rw [hfacts'.demo, hfacts.demo]

theorem Store.RoleAdded.exists_covers_of_admin (h : s.RoleAdded s' p client added)
    {token : Option String} {context : AuthContext}
    (hadmin : s.isMspAdmin p.principalId = true)
    (hcontext : principalAuthContext settings s token (s.authRecord p) = .ok context) :
    ∃ other, principalAuthContext settings s' token (s'.authRecord p) = .ok other ∧
      other.Covers context := by
  have hrecord : (s.authRecord p).isMspAdmin = true := hadmin
  have hrecord' : (s'.authRecord p).isMspAdmin = true := (h.isMspAdmin _).trans hadmin
  have hsingle : ¬ ((s'.authRecord p).principalKind = .customer ∧
      (s'.authRecord p).clientIds.length ≠ 1) := by
    intro hcustomer
    have hpos := List.length_pos_of_mem
      (Access.mem_clientIds.mpr (h.hasClientRole.mpr (.inr rfl)) :
        client ∈ (s'.authRecord p).clientIds)
    have hle : (s'.authRecord p).clientIds.length ≤ 1 := by
      rw [length_clientIds_le_one_iff]
      have hsame : ∀ c, s'.hasClientRole p.principalId c = true → c = client := by
        intro c hc
        exact (h.hasClientRole.mp hc).elim (h.single hcustomer.1 c) id
      intro c d hc hd
      rw [hsame c hc, hsame d hd]
    omega
  simp only [principalAuthContext, bind_eq_ok, raiseIf_eq_ok, hrecord, if_true, pure_eq_ok]
    at hcontext
  obtain ⟨_, _, _, _, grants, hgrants, rfl⟩ := hcontext
  have hgrants' : s'.activeCapabilityGrants (s'.authRecord p).principalId = .ok grants :=
    (h.activeCapabilityGrants _).trans hgrants
  rw [principalAuthContext, raiseIf_of_not hsingle, ok_bind, raiseIf_of_not (by simp [hrecord']),
    ok_bind]
  simp only [hrecord', if_true, hgrants', ok_bind]
  exact ⟨_, rfl, le_rfl, fun c hc => h.mem_clientIds hc, rfl, rfl⟩

/-- Looking a record up reads the principals, and the record is made of the rest. -/
theorem exists_of_findPrincipalAuthRecord {principalId : String} {record : PrincipalAuthRecord}
    (h : s.findPrincipalAuthRecord principalId = some record) :
    ∃ q ∈ s.principals, q.active = true ∧ ∀ t : Store, t.principals = s.principals →
      t.findPrincipalAuthRecord principalId = some (t.authRecord q) := by
  unfold Store.findPrincipalAuthRecord at h
  obtain ⟨q, hq, hrecord⟩ := Option.bind_eq_some_iff.mp h
  obtain ⟨id, hid, hfind⟩ := Option.bind_eq_some_iff.mp hq
  split at hrecord
  · rename_i hactive
    refine ⟨q, Table.mem_of_find?_eq_some hfind, hactive, ?_⟩
    intro t ht
    rw [Store.findPrincipalAuthRecord, ht, hq, Option.bind_some, if_pos hactive]
  · cases hrecord

/-- A request shows something of the environment, or an active principal of the store. -/
theorem Presented.resolve_cases {presented : Presented} {context : AuthContext}
    (h : presented.resolve rt settings s = .ok context) :
    (∀ t : Store, presented.resolve rt settings t = .ok context) ∨
      ∃ q ∈ s.principals, q.active = true ∧ ∃ token, ∀ t : Store,
        t.principals = s.principals → t.credentials = s.credentials →
          presented.resolve rt settings t =
            principalAuthContext settings t token (t.authRecord q) := by
  cases presented with
  | session principalId =>
      right
      simp only [resolve, sessionAuthContext] at h ⊢
      split at h
      · rename_i record hrecord
        obtain ⟨q, hq, hactive, hfind⟩ := exists_of_findPrincipalAuthRecord hrecord
        refine ⟨q, hq, hactive, none, ?_⟩
        intro t hprincipals _
        rw [hfind t hprincipals]
      · cases h
  | bearer token =>
      simp only [resolve, resolveBearerAuthContext] at h ⊢
      by_cases henduser : settings.endUserSupportEnabled = true ∧ settings.endUserToken ≠ "" ∧
          token = settings.endUserToken
      · left
        intro t
        rw [if_pos henduser] at h ⊢
        exact h
      · simp only [if_neg henduser] at h ⊢
        cases hbootstrap : settings.bootstrapRole? token with
        | some role =>
            left
            intro t
            simp only [hbootstrap] at h ⊢
            exact h
        | none =>
            right
            simp only [hbootstrap] at h ⊢
            split at h
            · cases h
            · rename_i hpresented
              split at h
              · rename_i record hrecord
                unfold Store.findPrincipalByCredentialHash at hrecord
                obtain ⟨c, hc, hrecord⟩ := Option.bind_eq_some_iff.mp hrecord
                split at hrecord
                · rename_i hactiveCredential
                  obtain ⟨q, hq, hactive, hfind⟩ := exists_of_findPrincipalAuthRecord hrecord
                  refine ⟨q, hq, hactive, some token, ?_⟩
                  intro t hprincipals hcredentials
                  simp only [Store.findPrincipalByCredentialHash, hcredentials, hc,
                    Option.bind_some, if_pos hactiveCredential, hfind t hprincipals,
                    if_neg hpresented]
                · cases hrecord
              · cases h

theorem Store.RoleAdded.keepsAccess (h : s.RoleAdded s' p client added)
    (hkeeps : NoDemotion settings s p client added) : KeepsAccess rt settings s s' := by
  apply keepsAccess_of_covers
  intro presented context hcontext
  rcases presented.resolve_cases hcontext with hsame | ⟨q, hq, hactive, token, hresolve⟩
  · exact ⟨context, hsame s', .refl context⟩
  · have hbefore := hresolve s rfl rfl
    have hafter := hresolve s' h.principals h.credentials
    rw [hbefore] at hcontext
    rw [hafter]
    by_cases hid : p.principalId = q.principalId
    · have hsame : q = p := Table.eq_of_key_eq hq h.principal hid.symm
      subst hsame
      cases hadmin : s.isMspAdmin q.principalId with
      | true => exact h.exists_covers_of_admin hadmin hcontext
      | false => exact h.exists_covers hkeeps hactive hadmin hcontext
    · exact ⟨context, (h.principalAuthContext_of_ne hid token).trans hcontext, .refl context⟩

theorem Store.RoleAdded.noDemotion (h : s.RoleAdded s' p client added)
    (hlaw : KeepsAccess rt settings s s') : NoDemotion settings s p client added := by
  intro hadmissible hplain primary held hprimary hheld hsup
  obtain ⟨context, hcontext, rfl⟩ :=
    @exists_context settings s p none primary held hplain hadmissible hprimary hheld
  have hsession : (Presented.session p.principalId.val).resolve rt settings s = .ok context := by
    rw [Presented.resolve, sessionAuthContext, findPrincipalAuthRecord_of_mem h.principal,
      if_pos hadmissible.active]
    exact hcontext
  obtain ⟨other, hother, hle, _⟩ := hlaw.context _ _ hsession
  have hprincipal : p ∈ s'.principals := by
    rw [h.principals]
    exact h.principal
  have hplain' : s'.isMspAdmin p.principalId = false := (h.isMspAdmin _).trans hplain
  rw [Presented.resolve, sessionAuthContext, findPrincipalAuthRecord_of_mem hprincipal,
    if_pos hadmissible.active] at hother
  obtain ⟨primary', hprimary', hheld'⟩ := (principalAuthContext_eq_ok hplain' hother).2.role
  obtain ⟨hnext, hlast⟩ := h.superseded hprimary hheld hsup
  have hclient := hprimary'.unique hnext
  subst hclient
  rwa [hheld'.unique hlast] at hle

/-- An addition keeps all access exactly if it demotes nobody. -/
theorem keepsAccess_iff_noDemotion (rt : Runtime) (settings : Settings) (s s' : Store)
    (principalId clientId role : String)
    (h : addPrincipalClientRole s principalId clientId role = .ok s') :
    KeepsAccess rt settings s s' ↔ ∀ p ∈ s.principals, ∀ client added,
      normalizeClientId (some principalId) = some p.principalId →
        normalizeClientId (some clientId) = some client → Role.parse? role = some added →
          NoDemotion settings s p client added := by
  obtain ⟨p, client, added, hid, hclient, hadded, hrow⟩ := addPrincipalClientRole_adds h
  constructor
  · intro hlaw q hq client' added' hid' hclient' hadded'
    have hsame : q = p :=
      Table.eq_of_key_eq hq hrow.principal (Option.some.inj (hid'.symm.trans hid))
    rw [hsame, ← Option.some.inj (hclient.symm.trans hclient'),
      ← Option.some.inj (hadded.symm.trans hadded')]
    exact hrow.noDemotion hlaw
  · intro hkeeps
    exact hrow.keepsAccess (hkeeps p hrow.principal client added hid hclient hadded)

/-! ## A technician with a second role -/

def technicianOfAcme : List AccessCall :=
  [.clientsChange servicedClients,
    .createPrincipalWithAccess "sam" "staff" "Sam" [("acme", "technician")] false
      (some "second-credential")]

theorem keepsAccess_admin : ∃ s',
    addPrincipalClientRole ((access applianceRuntime).run technicianOfAcme) "sam" "bolt" "admin" =
        .ok s' ∧
      KeepsAccess applianceRuntime { clientId := "bolt" }
        ((access applianceRuntime).run technicianOfAcme) s' := by
  obtain ⟨s', hs'⟩ := exists_eq_ok (x := addPrincipalClientRole
    ((access applianceRuntime).run technicianOfAcme) "sam" "bolt" "admin") (by decide)
  refine ⟨s', hs', ?_⟩
  rw [keepsAccess_iff_noDemotion applianceRuntime { clientId := "bolt" } _ s' "sam" "bolt" "admin"
    hs']
  intro p _ client added _ _ hadded _ _ primary held _ _ _
  have htop : added = .admin := by
    rw [show Role.parse? "admin" = some .admin by decide] at hadded
    exact (Option.some.inj hadded).symm
  rw [htop]
  cases held <;> decide

/-- As a viewer of `acme` too, its technician is turned away. -/
theorem not_keepsAccess : ¬ ∀ ls settings principalId clientId role s',
    addPrincipalClientRole ((access applianceRuntime).run ls) principalId clientId role = .ok s' →
      KeepsAccess applianceRuntime settings ((access applianceRuntime).run ls) s' := by
  intro h
  obtain ⟨s', hs'⟩ := exists_eq_ok (x := addPrincipalClientRole
    ((access applianceRuntime).run technicianOfAcme) "sam" "acme" "viewer") (by decide)
  obtain ⟨scope, hscope⟩ := exists_eq_ok (x := Request.authorize applianceRuntime
    { clientId := "acme" } ((access applianceRuntime).run technicianOfAcme)
    ⟨.session "sam", .technician, none⟩) (by decide)
  obtain ⟨other, hother, _⟩ := (h _ { clientId := "acme" } _ _ _ s' hs').request _ scope hscope
  have hrefused : (addPrincipalClientRole ((access applianceRuntime).run technicianOfAcme)
      "sam" "acme" "viewer").bind (fun t => .ok (Request.authorize applianceRuntime
        { clientId := "acme" } t ⟨.session "sam", .technician, none⟩).isOk) =
      .ok false := by decide
  rw [hs', Except.bind, hother] at hrefused
  cases hrefused

end WaitLocalAgent.Access
