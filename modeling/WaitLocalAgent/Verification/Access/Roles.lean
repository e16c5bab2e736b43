import WaitLocalAgent.Model.AuthContext
import WaitLocalAgent.Foundation.Sorted
import WaitLocalAgent.Verification.Access.Grants

/-! # Roles on a client

The role of a context comes from one client, so a principal acts under it on a client of its own
choice only if its role there is as high. -/

namespace WaitLocalAgent.Access

open Foundation Tenancy

variable {rt : Runtime} {settings : Settings} {s : Store} {id : NormalizedText}

/-! ## The role of a context -/

/-- The client whose role a context carries: the configured one, or else the first. -/
structure Store.Primary (s : Store) (settings : Settings) (id : NormalizedText)
    (clientId : ClientId) : Prop where
  member : s.hasClientRole id clientId = true
  chosen : normalizeClientId (some settings.clientId) = some clientId ∨
    (∀ c, normalizeClientId (some settings.clientId) = some c → s.hasClientRole id c = false) ∧
      ∀ c, s.hasClientRole id c = true → clientId.val ≤ c.val

/-- The role that stays of those held on a client: the one whose label sorts last. -/
structure Store.LastRole (s : Store) (id : NormalizedText) (clientId : ClientId) (role : Role) :
    Prop where
  held : ⟨id, clientId, role⟩ ∈ s.clientRoles
  last : ∀ q, ⟨id, clientId, q⟩ ∈ s.clientRoles → q.label ≤ role.label

theorem Role.label_injective : Function.Injective Role.label := by
  intro r q h
  cases r <;> cases q <;> first | rfl | exact absurd h (by decide)

theorem Store.LastRole.unique {clientId : ClientId} {r q : Role} (hr : s.LastRole id clientId r)
    (hq : s.LastRole id clientId q) : r = q :=
  Role.label_injective (le_antisymm (hq.last r hr.held) (hr.last q hq.held))

theorem Store.Primary.unique {c d : ClientId} (hc : s.Primary settings id c)
    (hd : s.Primary settings id d) : c = d := by
  rcases hc.chosen with hcfg | ⟨hnone, hleast⟩
  · rcases hd.chosen with hcfg' | ⟨hnone', -⟩
    · exact Option.some.inj (hcfg.symm.trans hcfg')
    · have hmiss := hnone' c hcfg
      rw [hc.member] at hmiss
      cases hmiss
  · rcases hd.chosen with hcfg' | ⟨-, hleast'⟩
    · have hmiss := hnone d hcfg'
      rw [hd.member] at hmiss
      cases hmiss
    · exact Subtype.ext (le_antisymm (hleast d hd.member) (hleast' c hc.member))

instance : Std.Total earlierRole where
  total r q := by
    rcases lt_trichotomy r.1.val q.1.val with hlt | heq | hgt
    · exact .inl (.inl hlt)
    · have hclient : r.1 = q.1 := Subtype.ext heq
      rcases le_total r.2.label q.2.label with hle | hle
      · exact .inl (.inr ⟨hclient, hle⟩)
      · exact .inr (.inr ⟨hclient.symm, hle⟩)
    · exact .inr (.inl hgt)

instance : IsTrans (ClientId × Role) earlierRole where
  trans r q t h h' := by
    rcases h with hlt | ⟨heq, hle⟩
    · rcases h' with hlt' | ⟨heq', -⟩
      · exact .inl (hlt.trans hlt')
      · exact .inl (heq' ▸ hlt)
    · rcases h' with hlt' | ⟨heq', hle'⟩
      · exact .inl (heq ▸ hlt')
      · exact .inr ⟨heq.trans heq', hle.trans hle'⟩

theorem Store.mem_clientRolesOf {r : ClientId × Role} :
    r ∈ s.clientRolesOf id ↔ ⟨id, r.1, r.2⟩ ∈ s.clientRoles := by
  simp only [clientRolesOf, List.mem_insertionSort, List.mem_map, List.mem_filter, beq_iff_eq,
    Table.mem_def]
  constructor
  · intro h
    obtain ⟨row, ⟨hrow, hid⟩, rfl⟩ := h
    subst hid
    exact hrow
  · intro h
    exact ⟨_, ⟨h, rfl⟩, rfl⟩

variable {p : Principal} {c : ClientId}

theorem mem_clientIds :
    c ∈ (s.authRecord p).clientIds ↔ s.hasClientRole p.principalId c = true := by
  simp only [PrincipalAuthRecord.clientIds, Store.authRecord, List.mem_dedup, List.mem_map,
    Store.mem_clientRolesOf, Store.hasClientRole_iff]
  constructor
  · intro h
    obtain ⟨r, hr, rfl⟩ := h
    exact ⟨_, hr, rfl, rfl⟩
  · intro h
    obtain ⟨row, hrow, hid, hclient⟩ := h
    refine ⟨(row.clientId, row.role), ?_, hclient⟩
    rw [← hid]
    exact hrow

/-- The dictionary of a principal's roles gives each client its last role. -/
theorem roleOn?_eq_some {clientId : ClientId} {role : Role} :
    (s.authRecord p).roleOn? clientId = some role ↔ s.LastRole p.principalId clientId role := by
  have hsound : ∀ r, (s.authRecord p).roleOn? clientId = some r →
      s.LastRole p.principalId clientId r := by
    intro r h
    obtain ⟨entry, hlast, rfl⟩ := Option.map_eq_some_iff.mp h
    have hmem := List.mem_filter.mp (List.mem_of_getLast? hlast)
    have hclient : entry.1 = clientId := by simpa only [beq_iff_eq] using hmem.2
    subst hclient
    refine ⟨Store.mem_clientRolesOf.mp hmem.1, ?_⟩
    intro q hq
    have hq' : (entry.1, q) ∈ (s.authRecord p).clientRoles.filter fun r => r.1 == entry.1 := by
      rw [List.mem_filter]
      exact ⟨Store.mem_clientRolesOf.mpr hq, by simp only [beq_self_eq_true]⟩
    have hsorted : ((s.authRecord p).clientRoles.filter
        fun r => r.1 == entry.1).Pairwise earlierRole :=
      (List.pairwise_insertionSort earlierRole _).filter _
    rcases rel_getLast? hsorted hlast hq' with heq | hlt | ⟨-, hle⟩
    · exact le_of_eq (congrArg (fun r => r.2.label) heq)
    · exact absurd hlt (lt_irrefl _)
    · exact hle
  constructor
  · exact hsound role
  · intro h
    cases hfound : (s.authRecord p).roleOn? clientId with
    | some r => rw [(hsound r hfound).unique h]
    | none =>
        have hnone := Option.map_eq_none_iff.mp hfound
        rw [List.getLast?_eq_none_iff, List.filter_eq_nil_iff] at hnone
        have hmem : (clientId, role) ∈ (s.authRecord p).clientRoles :=
          Store.mem_clientRolesOf.mpr h.held
        exact absurd (beq_self_eq_true clientId) (hnone _ hmem)

theorem primary_of_primaryClientId
    (h : primaryClientId (normalizeClientId (some settings.clientId))
      (s.authRecord p).clientIds = some c) : s.Primary settings p.principalId c := by
  unfold primaryClientId at h
  split at h
  · rename_i d hfilter
    cases h
    obtain ⟨hconfigured, hmem⟩ := Option.filter_eq_some_iff.mp hfilter
    exact ⟨mem_clientIds.mp (List.contains_iff_mem.mp hmem), .inl hconfigured⟩
  · rename_i hfilter
    have htotal : Std.Total fun c d : ClientId => c.val ≤ d.val := ⟨fun c d => le_total _ _⟩
    have htrans : IsTrans ClientId fun c d : ClientId => c.val ≤ d.val :=
      ⟨fun _ _ _ h h' => h.trans h'⟩
    obtain ⟨hmem, hleast⟩ := head?_insertionSort h
    refine ⟨mem_clientIds.mp hmem, .inr ⟨?_, ?_⟩⟩
    · intro d hconfigured
      rw [Bool.eq_false_iff]
      intro hrole
      have hmiss := Option.filter_eq_none_iff.mp hfilter d hconfigured
      exact hmiss (List.contains_iff_mem.mpr (mem_clientIds.mpr hrole))
    · intro d hrole
      exact hleast d (mem_clientIds.mpr hrole)

theorem primaryClientId_eq_some :
    primaryClientId (normalizeClientId (some settings.clientId)) (s.authRecord p).clientIds =
      some c ↔ s.Primary settings p.principalId c := by
  constructor
  · exact primary_of_primaryClientId
  · intro h
    have hsome : ∃ d, primaryClientId (normalizeClientId (some settings.clientId))
        (s.authRecord p).clientIds = some d := by
      unfold primaryClientId
      split
      · rename_i d _
        exact ⟨d, rfl⟩
      · exact exists_head?_insertionSort
          (List.ne_nil_of_mem (mem_clientIds.mpr h.member))
    obtain ⟨d, hd⟩ := hsome
    rw [hd, (primary_of_primaryClientId hd).unique h]

/-! ## Contexts of a principal -/

/-- What a request of the principal can resolve to: its live session, or a token that is one of
its credentials and none of the environment's. -/
inductive ResolvesAs (rt : Runtime) (settings : Settings) (s : Store) (p : Principal) :
    Except HttpError AuthContext → Prop where
  | session : ResolvesAs rt settings s p (sessionAuthContext settings s p.principalId.val)
  | bearer {token : String} {c : Credential}
      (enduser : ¬ (settings.endUserSupportEnabled = true ∧ settings.endUserToken ≠ "" ∧
        token = settings.endUserToken))
      (environment : settings.bootstrapRole? token = none) (presented : Text.strip token ≠ "")
      (credential : c ∈ s.credentials) (hash : c.credentialHash = rt.sha256 token)
      (active : c.active = true) (owner : c.principalId = p.principalId) :
      ResolvesAs rt settings s p (resolveBearerAuthContext rt settings s token)

/-- Principals of these kinds are let in: active, with an id of at most 128 characters and, as a
customer, with a single client. -/
structure Admissible (s : Store) (p : Principal) : Prop where
  active : p.active = true
  short : p.principalId.val.length ≤ 128
  single : p.kind = .customer → ∀ c d, s.hasClientRole p.principalId c = true →
    s.hasClientRole p.principalId d = true → c = d

theorem findPrincipalAuthRecord_of_mem (hp : p ∈ s.principals) :
    s.findPrincipalAuthRecord p.principalId.val =
      if p.active then some (s.authRecord p) else none := by
  have hfind : s.principals.find? p.principalId = some p := Table.find?_eq_some_iff.mpr ⟨hp, rfl⟩
  rw [Store.findPrincipalAuthRecord, normalizeClientId_val, Option.bind_some, hfind,
    Option.bind_some]

/-- However a principal presents itself, its context is that of its record. -/
theorem ResolvesAs.context {resolved : Except HttpError AuthContext}
    {context : AuthContext} (h : ResolvesAs rt settings s p resolved) (hp : p ∈ s.principals)
    (hok : resolved = .ok context) : p.active = true ∧ ∃ token,
      principalAuthContext settings s token (s.authRecord p) = .ok context := by
  cases h with
  | session =>
      rw [sessionAuthContext, findPrincipalAuthRecord_of_mem hp] at hok
      by_cases hactive : p.active = true
      · rw [if_pos hactive] at hok
        exact ⟨hactive, none, hok⟩
      · rw [if_neg hactive] at hok
        cases hok
  | @bearer token c enduser environment presented credential hash active owner =>
      have hfind : s.credentials.find? (rt.sha256 token) = some c :=
        Table.find?_eq_some_iff.mpr ⟨credential, hash⟩
      rw [resolveBearerAuthContext, if_neg enduser, environment] at hok
      simp only [if_neg presented, Store.findPrincipalByCredentialHash, hfind, Option.bind_some,
        if_pos active, owner, findPrincipalAuthRecord_of_mem hp] at hok
      by_cases hactive : p.active = true
      · rw [if_pos hactive] at hok
        exact ⟨hactive, some token, hok⟩
      · rw [if_neg hactive] at hok
        cases hok

theorem length_clientIds_le_one_iff : (s.authRecord p).clientIds.length ≤ 1 ↔
    ∀ c d, s.hasClientRole p.principalId c = true → s.hasClientRole p.principalId d = true →
      c = d := by
  have hnodup : (s.authRecord p).clientIds.Nodup := List.nodup_dedup _
  rw [length_le_one_iff hnodup]
  simp only [mem_clientIds]
  constructor
  · intro h c d hc hd
    exact h c hc d hd
  · intro h c hc d hd
    exact h c d hc hd

/-- What the context of an admitted principal without `msp_admin` says. -/
structure PlainContext (settings : Settings) (s : Store) (p : Principal) (context : AuthContext) :
    Prop where
  admin : context.isMspAdmin = false
  demo : context.demoMode = false
  clientIds : context.clientIds = (s.authRecord p).clientIds
  role : ∃ primary, s.Primary settings p.principalId primary ∧
    s.LastRole p.principalId primary context.role

theorem principalAuthContext_eq_ok {token : Option String}
    {context : AuthContext} (hplain : s.isMspAdmin p.principalId = false)
    (h : principalAuthContext settings s token (s.authRecord p) = .ok context) :
    (p.active = true → Admissible s p) ∧ PlainContext settings s p context := by
  have hrecord : (s.authRecord p).isMspAdmin = false := hplain
  simp only [principalAuthContext, bind_eq_ok, raiseIf_eq_ok, hrecord] at h
  obtain ⟨-, hsingle, -, -, h⟩ := h
  split at h
  · cases h
  · rename_i role hrole
    simp only [bind_eq_ok, pure_eq_ok] at h
    obtain ⟨grants, hgrants, rfl⟩ := h
    simp only [Bool.false_eq_true, if_false] at hrole
    obtain ⟨primary, hprimary, hlast⟩ := Option.bind_eq_some_iff.mp hrole
    refine ⟨?_, rfl, rfl, rfl, primary, primaryClientId_eq_some.mp hprimary,
      roleOn?_eq_some.mp hlast⟩
    intro hactive
    refine ⟨hactive, ?_, ?_⟩
    · unfold Store.activeCapabilityGrants at hgrants
      split at hgrants
      · cases hgrants
      · rename_i hshort
        exact not_lt.mp hshort
    · intro hkind
      rw [← length_clientIds_le_one_iff]
      by_contra hlength
      exact hsingle ⟨hkind, by omega⟩

theorem exists_context {token : Option String} {primary : ClientId} {role : Role}
    (hplain : s.isMspAdmin p.principalId = false) (hp : Admissible s p)
    (hprimary : s.Primary settings p.principalId primary)
    (hrole : s.LastRole p.principalId primary role) : ∃ context,
      principalAuthContext settings s token (s.authRecord p) = .ok context ∧
        context.role = role := by
  have hmem : primary ∈ (s.authRecord p).clientIds := mem_clientIds.mpr hprimary.member
  have hsingle : ¬ ((s.authRecord p).principalKind = .customer ∧
      (s.authRecord p).clientIds.length ≠ 1) := by
    intro h
    have hle := length_clientIds_le_one_iff.mpr (hp.single h.1)
    have hpos := List.length_pos_of_mem hmem
    omega
  have hmember : ¬ ((s.authRecord p).clientIds = [] ∧ (s.authRecord p).isMspAdmin = false) := by
    intro h
    rw [h.1] at hmem
    cases hmem
  have hrecord : (s.authRecord p).isMspAdmin = false := hplain
  rw [principalAuthContext, raiseIf_of_not hsingle, ok_bind, raiseIf_of_not hmember, ok_bind]
  simp only [hrecord, Bool.false_eq_true, if_false, primaryClientId_eq_some.mpr hprimary,
    Option.bind_some, roleOn?_eq_some.mpr hrole, bind_eq_ok, pure_eq_ok]
  refine ⟨_, ⟨_, if_neg (not_lt.mpr hp.short), rfl⟩, rfl⟩

/-! ## Scopes -/

theorem admits_boundClients {clientIds : List ClientId} :
    (ClientScope.boundClients (clientIds.map Subtype.val)).admits c = true ↔ c ∈ clientIds := by
  simp only [ClientScope.admits, List.contains_iff_mem, List.mem_map]
  constructor
  · intro h
    obtain ⟨d, hd, hval⟩ := h
    rwa [← Subtype.ext hval]
  · intro h
    exact ⟨c, h, rfl⟩

theorem admits_of_resolveClientScope {context : AuthContext} {requested : Option String}
    {scope : ClientScope} (hadmin : context.isMspAdmin = false)
    (hdemo : context.demoMode = false) (h : resolveClientScope context requested = .ok scope)
    (hc : scope.admits c = true) : c ∈ context.clientIds := by
  simp only [resolveClientScope, hadmin, hdemo, Bool.or_false, Bool.false_eq_true, if_false] at h
  split at h
  · cases h
  · split at h
    · rename_i d _
      split at h
      · rename_i hmem
        cases h
        have hsame : c ∈ [d] := admits_boundClients.mp hc
        rw [List.mem_singleton.mp hsame]
        exact List.contains_iff_mem.mp hmem
      · cases h
    · cases h
      exact admits_boundClients.mp hc

/-- Without a requested client, the scope holds all clients of the context. -/
theorem resolveClientScope_none {context : AuthContext}
    (hadmin : context.isMspAdmin = false) (hdemo : context.demoMode = false)
    (hc : c ∈ context.clientIds) :
    ∃ scope, resolveClientScope context none = .ok scope ∧ scope.admits c = true := by
  refine ⟨.boundClients (context.clientIds.map Subtype.val), ?_, ?_⟩
  · have hne : context.clientIds ≠ [] := List.ne_nil_of_mem hc
    simp [resolveClientScope, hadmin, hdemo, hne, normalizeClientId]
  · exact admits_boundClients.mpr hc

/-! ## The law -/

/-- A request of the principal that passes `require_role` acts on clients only on which the
principal holds a role as high as the required one. -/
def PerClientRoles (rt : Runtime) (settings : Settings) (s : Store) (p : Principal) : Prop :=
  ∀ resolved, ResolvesAs rt settings s p resolved → ∀ minimum context,
    requireRole minimum resolved = .ok context → ∀ requested scope,
    resolveClientScope context requested = .ok scope → ∀ c, scope.admits c = true →
      ∃ held, ⟨p.principalId, c, held⟩ ∈ s.clientRoles ∧ minimum ≤ held

/-- The role that the primary client gives is held on every client of the principal. -/
def CoversPrimary (settings : Settings) (s : Store) (id : NormalizedText) : Prop :=
  ∀ primary role, s.Primary settings id primary → s.LastRole id primary role →
    ∀ c, s.hasClientRole id c = true → ∃ held, ⟨id, c, held⟩ ∈ s.clientRoles ∧ role ≤ held

theorem requireRole_eq_ok {minimum : Role} {resolved : Except HttpError AuthContext}
    {context : AuthContext} : requireRole minimum resolved = .ok context ↔
      resolved = .ok context ∧ minimum ≤ context.role := by
  simp only [requireRole, bind_eq_ok, raiseIf_eq_ok, not_lt, pure_eq_ok]
  constructor
  · intro h
    obtain ⟨a, ha, -, hle, rfl⟩ := h
    exact ⟨ha, hle⟩
  · intro h
    exact ⟨context, h.1, (), h.2, rfl⟩

/-- The roles of a principal without `msp_admin` are checked per client exactly if no request of
it is admitted or the role of its primary client is held on all of its clients. -/
theorem perClientRoles_iff (rt : Runtime) (settings : Settings) (s : Store) (p : Principal)
    (hp : p ∈ s.principals) (hplain : s.isMspAdmin p.principalId = false) :
    PerClientRoles rt settings s p ↔
      (Admissible s p → CoversPrimary settings s p.principalId) := by
  constructor
  · intro hlaw hadmissible primary role hprimary hrole c hc
    obtain ⟨context, hcontext, rfl⟩ :=
      @exists_context settings s p none primary role hplain hadmissible hprimary hrole
    have hfacts := (principalAuthContext_eq_ok hplain hcontext).2
    have hresolved : sessionAuthContext settings s p.principalId.val = .ok context := by
      rw [sessionAuthContext, findPrincipalAuthRecord_of_mem hp, if_pos hadmissible.active]
      exact hcontext
    have hmem : c ∈ context.clientIds := by
      rw [hfacts.clientIds]
      exact mem_clientIds.mpr hc
    obtain ⟨scope, hscope, hadmits⟩ := resolveClientScope_none hfacts.admin hfacts.demo hmem
    exact hlaw _ .session context.role context
      (requireRole_eq_ok.mpr ⟨hresolved, le_refl _⟩) none scope hscope c hadmits
  · intro hcovers resolved hresolves minimum context hrequire requested scope hscope c hadmits
    obtain ⟨hok, hminimum⟩ := requireRole_eq_ok.mp hrequire
    obtain ⟨hactive, token, hcontext⟩ := hresolves.context hp hok
    obtain ⟨hadmissible, hfacts⟩ := principalAuthContext_eq_ok hplain hcontext
    obtain ⟨primary, hprimary, hrole⟩ := hfacts.role
    have hmem := admits_of_resolveClientScope hfacts.admin hfacts.demo hscope hadmits
    rw [hfacts.clientIds, mem_clientIds] at hmem
    obtain ⟨held, hheld, hle⟩ := hcovers (hadmissible hactive) primary _ hprimary hrole c hmem
    exact ⟨held, hheld, hminimum.trans hle⟩

/-! ## Two technicians -/

def sam : NormalizedText := ⟨"sam", by decide, by decide⟩

/-- A staff principal with a role on each of two clients. -/
def staffRun (onAcme onBolt : String) : List AccessCall :=
  [.clientsChange servicedClients,
    .createPrincipalWithAccess "sam" "staff" "Sam" [("acme", onAcme), ("bolt", onBolt)] false
      (some "second-credential")]

theorem perClientRoles_iff_staffRun :
    ∃ p ∈ ((access applianceRuntime).run (staffRun "technician" "technician")).principals,
      PerClientRoles applianceRuntime { clientId := "acme" }
        ((access applianceRuntime).run (staffRun "technician" "technician")) p := by
  have hsam : ∃ p ∈ ((access applianceRuntime).run
      (staffRun "technician" "technician")).principals.rows, ((access applianceRuntime).run
        (staffRun "technician" "technician")).isMspAdmin p.principalId = false := by decide
  have heven : ∀ r ∈ ((access applianceRuntime).run
      (staffRun "technician" "technician")).clientRoles.rows,
      ∀ q ∈ ((access applianceRuntime).run
        (staffRun "technician" "technician")).clientRoles.rows, r.role ≤ q.role := by decide
  obtain ⟨p, hp, hplain⟩ := hsam
  refine ⟨p, hp, ?_⟩
  rw [perClientRoles_iff applianceRuntime { clientId := "acme" } _ p hp hplain]
  intro _ primary role _ hrole c hc
  obtain ⟨q, hq, hid, hclient⟩ := Store.hasClientRole_iff.mp hc
  refine ⟨q.role, ?_, heven _ hrole.held q hq⟩
  rw [← hid, ← hclient]
  exact hq

/-- An administrator of `acme` who is a viewer of `bolt` acts as a technician on `bolt`. -/
theorem not_perClientRoles : ¬ ∀ ls settings, ∀ p ∈ ((access applianceRuntime).run ls).principals,
    ((access applianceRuntime).run ls).isMspAdmin p.principalId = false →
      PerClientRoles applianceRuntime settings ((access applianceRuntime).run ls) p := by
  intro h
  have hsam : ∃ p ∈ ((access applianceRuntime).run (staffRun "admin" "viewer")).principals.rows,
      p.principalId = sam ∧ ((access applianceRuntime).run
        (staffRun "admin" "viewer")).isMspAdmin p.principalId = false := by decide
  have hcredential : ∃ c ∈ ((access applianceRuntime).run
      (staffRun "admin" "viewer")).credentials.rows,
      c.credentialHash = applianceRuntime.sha256 "second-credential" ∧ c.active = true ∧
        c.principalId = sam := by decide
  have hviewer : ∀ r ∈ ((access applianceRuntime).run
      (staffRun "admin" "viewer")).clientRoles.rows,
      r.clientId = bolt → ¬ Role.technician ≤ r.role := by decide
  have hbolt : ((access applianceRuntime).run (staffRun "admin" "viewer")).hasClientRole sam
      bolt = true := by decide
  obtain ⟨p, hp, hid, hplain⟩ := hsam
  obtain ⟨c, hc, hhash, hactive, howner⟩ := hcredential
  have hresolves : ResolvesAs applianceRuntime { clientId := "acme" }
      ((access applianceRuntime).run (staffRun "admin" "viewer")) p _ :=
    .bearer (by decide) (by decide) (by decide) hc hhash hactive (howner.trans hid.symm)
  obtain ⟨context, hpasses⟩ := exists_eq_ok (x := requireRole .technician
    (resolveBearerAuthContext applianceRuntime { clientId := "acme" }
      ((access applianceRuntime).run (staffRun "admin" "viewer")) "second-credential"))
    (by decide)
  obtain ⟨-, token, hcontext⟩ := hresolves.context hp (requireRole_eq_ok.mp hpasses).1
  have hfacts := (principalAuthContext_eq_ok hplain hcontext).2
  have hmem : bolt ∈ context.clientIds := by
    rw [hfacts.clientIds, mem_clientIds, hid]
    exact hbolt
  obtain ⟨scope, hscope, hadmits⟩ := resolveClientScope_none hfacts.admin hfacts.demo hmem
  obtain ⟨held, hheld, hle⟩ := h _ _ p hp hplain _ hresolves .technician context hpasses none scope
    hscope bolt hadmits
  exact hviewer _ hheld rfl hle

end WaitLocalAgent.Access
