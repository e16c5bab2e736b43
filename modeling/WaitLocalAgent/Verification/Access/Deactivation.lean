import WaitLocalAgent.Model.AuthContext
import WaitLocalAgent.Verification.Access.Grants

/-! # Deactivation is final

No call brings a withdrawn credential, session or grant back, except a login that stores the token
of the session again and the administrator who issues the grant. -/

namespace WaitLocalAgent.Access

open Foundation Tenancy

variable {rt : Runtime} {s s' t : Store} {id : NormalizedText}

abbrev GrantKey : Type := NormalizedText × String × Option ClientId

/-! ## What a call leaves withdrawn -/

/-- Every credential stays in the table, and inactive ones stay inactive. -/
def CredentialsKept (s s' : Store) : Prop :=
  ∀ c ∈ s.credentials, ∃ c' ∈ s'.credentials, c'.credentialHash = c.credentialHash ∧
    c'.principalId = c.principalId ∧ (c'.active = true → c.active = true)

/-- Sessions that were not `issued` were there before, and revoked ones stay revoked. -/
def SessionsKept (issued : NormalizedText → Prop) (s s' : Store) : Prop :=
  ∀ a' ∈ s'.sessions, ¬ issued a'.sessionTokenHash → ∃ a ∈ s.sessions,
    a.sessionTokenHash = a'.sessionTokenHash ∧ a.principalId = a'.principalId ∧
      (a.revoked = true → a'.revoked = true)

/-- Active grants that were not `granted` were active before. -/
def GrantsKept (granted : GrantKey → Prop) (s s' : Store) : Prop :=
  ∀ g' ∈ s'.grants, g'.active = true → ¬ granted g'.key →
    ∃ g ∈ s.grants, g.key = g'.key ∧ g.active = true

structure Withdraws (issued : NormalizedText → Prop) (granted : GrantKey → Prop)
    (s s' : Store) : Prop where
  credentials : CredentialsKept s s'
  sessions : SessionsKept issued s s'
  grants : GrantsKept granted s s'

section Relation

variable {issued : NormalizedText → Prop} {granted : GrantKey → Prop}

theorem CredentialsKept.of_mem (h : ∀ c ∈ s.credentials, c ∈ s'.credentials) :
    CredentialsKept s s' :=
  fun c hc => ⟨c, h c hc, rfl, rfl, fun hactive => hactive⟩

theorem CredentialsKept.trans (h : CredentialsKept s s') (h' : CredentialsKept s' t) :
    CredentialsKept s t := by
  intro c hc
  obtain ⟨c', hc', hhash, hid, hactive⟩ := h c hc
  obtain ⟨c'', hc'', hhash', hid', hactive'⟩ := h' c' hc'
  exact ⟨c'', hc'', hhash'.trans hhash, hid'.trans hid, fun h => hactive (hactive' h)⟩

theorem CredentialsKept.of_update {p : Credential → Bool}
    (h : s'.credentials = s.credentials.update p Credential.revoke Credential.revoke_hash) :
    CredentialsKept s s' := by
  intro c hc
  refine ⟨if p c then c.revoke else c, ?_, ?_⟩
  · rw [h]
    exact Table.mem_update_of_mem hc
  · by_cases hp : p c = true
    · simp [hp, Credential.revoke]
    · simp [hp]

theorem SessionsKept.refl : SessionsKept issued s s :=
  fun a ha _ => ⟨a, ha, rfl, rfl, fun hrevoked => hrevoked⟩

theorem SessionsKept.trans (h : SessionsKept issued s s') (h' : SessionsKept issued s' t) :
    SessionsKept issued s t := by
  intro a'' ha'' hissued
  obtain ⟨a', ha', hhash', hid', hrevoked'⟩ := h' a'' ha'' hissued
  obtain ⟨a, ha, hhash, hid, hrevoked⟩ := h a' ha' (by rwa [hhash'])
  exact ⟨a, ha, hhash.trans hhash', hid.trans hid', fun h => hrevoked' (hrevoked h)⟩

theorem SessionsKept.of_update {p : AuthSession → Bool} {f : AuthSession → AuthSession}
    (hf : ∀ a, (f a).sessionTokenHash = a.sessionTokenHash)
    (hid : ∀ a, (f a).principalId = a.principalId)
    (hrevoked : ∀ a, a.revoked = true → (f a).revoked = true)
    (h : s'.sessions = s.sessions.update p f hf) : SessionsKept issued s s' := by
  intro a' ha' _
  rw [h, Table.mem_update] at ha'
  obtain ⟨a, ha, rfl⟩ := ha'
  refine ⟨a, ha, ?_⟩
  by_cases hp : p a = true
  · simp only [hp, if_true]
    exact ⟨(hf a).symm, (hid a).symm, hrevoked a⟩
  · simp [hp]

theorem GrantsKept.refl : GrantsKept granted s s :=
  fun g hg hactive _ => ⟨g, hg, rfl, hactive⟩

theorem GrantsKept.trans (h : GrantsKept granted s s') (h' : GrantsKept granted s' t) :
    GrantsKept granted s t := by
  intro g'' hg'' hactive'' hgranted
  obtain ⟨g', hg', hkey', hactive'⟩ := h' g'' hg'' hactive'' hgranted
  obtain ⟨g, hg, hkey, hactive⟩ := h g' hg' hactive' (by rwa [hkey'])
  exact ⟨g, hg, hkey.trans hkey', hactive⟩

theorem GrantsKept.withoutGrants {now : String} {p : CapabilityGrant → Bool} :
    GrantsKept granted s (s.withoutGrants now p) := by
  intro g hg hactive _
  exact ⟨g, (Store.mem_withoutGrants hg hactive).1, rfl, hactive⟩

theorem Withdraws.refl : Withdraws issued granted s s :=
  ⟨.of_mem fun _ hc => hc, .refl, .refl⟩

theorem Withdraws.trans (h : Withdraws issued granted s s') (h' : Withdraws issued granted s' t) :
    Withdraws issued granted s t :=
  ⟨h.credentials.trans h'.credentials, h.sessions.trans h'.sessions, h.grants.trans h'.grants⟩

/-- A call that writes credentials alone. -/
theorem Withdraws.of_credentials (hc : CredentialsKept s s') (hs : s'.sessions = s.sessions)
    (hg : s'.grants = s.grants) : Withdraws issued granted s s' := by
  refine ⟨hc, ?_, ?_⟩
  · intro a ha hissued
    rw [hs] at ha
    exact SessionsKept.refl a ha hissued
  · intro g hmem hactive hgranted
    rw [hg] at hmem
    exact GrantsKept.refl g hmem hactive hgranted

theorem Withdraws.elsewhere (hc : s'.credentials = s.credentials) (hs : s'.sessions = s.sessions)
    (hg : s'.grants = s.grants) : Withdraws issued granted s s' :=
  .of_credentials (.of_mem fun c hmem => by rwa [hc]) hs hg

theorem Withdraws.of_grows (h : Grows s s') : Withdraws issued granted s s' :=
  .of_credentials (.of_mem h.credentials) h.sessions h.grants

/-- A call that writes sessions alone. -/
theorem Withdraws.of_sessions (h : SessionsKept issued s s') (hc : s'.credentials = s.credentials)
    (hg : s'.grants = s.grants) : Withdraws issued granted s s' := by
  refine ⟨.of_mem fun c hmem => by rwa [hc], h, ?_⟩
  intro g hmem hactive hgranted
  rw [hg] at hmem
  exact GrantsKept.refl g hmem hactive hgranted

/-- A call that writes grants alone. -/
theorem Withdraws.of_grants (h : GrantsKept granted s s') (hc : s'.credentials = s.credentials)
    (hs : s'.sessions = s.sessions) : Withdraws issued granted s s' := by
  refine ⟨.of_mem fun c hmem => by rwa [hc], ?_, h⟩
  intro a ha hissued
  rw [hs] at ha
  exact SessionsKept.refl a ha hissued

end Relation

/-! ## The operations -/

section Operations

variable {issued : NormalizedText → Prop} {granted : GrantKey → Prop}

theorem rotatePrincipalCredential_withdraws {principalId credential hash : String}
    (h : rotatePrincipalCredential rt s principalId credential = .ok (s', hash)) :
    Withdraws issued granted s s' := by
  simp only [rotatePrincipalCredential, bind_eq_ok, pure_eq_ok] at h
  obtain ⟨hash, -, id, -, principal, -, -, -, credentials, hinsert, h⟩ := h
  cases h
  have hrevoked : CredentialsKept s (s.withoutCredentials id) := .of_update rfl
  have hadded : CredentialsKept (s.withoutCredentials id)
      { s.withoutCredentials id with credentials } :=
    .of_mem fun c hc => (mem_of_inserted hinsert).mpr (.inl hc)
  exact .of_credentials (hrevoked.trans hadded) rfl rfl

theorem revokePrincipalCredential_withdraws {credentialHash : String}
    (h : revokePrincipalCredential s credentialHash = .ok s') :
    Withdraws issued granted s s' := by
  simp only [revokePrincipalCredential, bind_eq_ok] at h
  obtain ⟨hash, -, h⟩ := h
  split at h
  · cases h
  · simp only [bind_eq_ok, pure_eq_ok] at h
    obtain ⟨-, -, rfl⟩ := h
    exact .of_credentials (.of_update rfl) rfl rfl

theorem revokeAllPrincipalCredentials_withdraws {principalId : String}
    {actorPrincipalId : Option String} {count : ℕ}
    (h : revokeAllPrincipalCredentials s principalId actorPrincipalId = .ok (s', count)) :
    Withdraws issued granted s s' := by
  simp only [revokeAllPrincipalCredentials, bind_eq_ok, pure_eq_ok] at h
  obtain ⟨id, -, -, -, principal, -, -, -, h⟩ := h
  cases h
  exact .of_credentials (.of_update rfl) rfl rfl

theorem removePrincipalClientRole_withdraws {principalId clientId role now : String}
    {actorPrincipalId : Option String}
    (h : removePrincipalClientRole s principalId clientId role actorPrincipalId now = .ok s') :
    Withdraws issued granted s s' := by
  simp only [removePrincipalClientRole, bind_eq_ok, pure_eq_ok] at h
  obtain ⟨id, -, client, -, -, -, parsed, -, principal, -, -, -, -, -, -, -, rfl⟩ := h
  exact .of_grants (GrantsKept.withoutGrants (s := { s with clientRoles := _ })) rfl rfl

theorem removePrincipalGlobalRole_withdraws {principalId role now : String}
    (h : removePrincipalGlobalRole s principalId role now = .ok s') :
    Withdraws issued granted s s' := by
  simp only [removePrincipalGlobalRole, bind_eq_ok, pure_eq_ok] at h
  obtain ⟨id, -, -, -, principal, -, -, -, -, -, -, -, rfl⟩ := h
  exact .of_grants (GrantsKept.withoutGrants (s := { s with globalRoles := _ })) rfl rfl

theorem deactivatePrincipal_withdraws {principalId now : String}
    {actorPrincipalId : Option String} {count : ℕ}
    (h : deactivatePrincipal s principalId actorPrincipalId now = .ok (s', count)) :
    Withdraws issued granted s s' := by
  simp only [deactivatePrincipal, bind_eq_ok, pure_eq_ok] at h
  obtain ⟨id, -, -, -, principal, -, -, -, h⟩ := h
  cases h
  refine ⟨.of_update rfl, ?_, ?_⟩
  · exact .of_update AuthSession.revoke_hash (fun _ => rfl) (fun _ _ => rfl) rfl
  · exact GrantsKept.withoutGrants (s := (s.withActive id false).withoutCredentials id)

theorem setPrincipalActive_withdraws {principalId now : String} {active : Bool}
    (h : setPrincipalActive s principalId active now = .ok s') :
    Withdraws issued granted s s' := by
  obtain ⟨count, hdeactivate⟩ | ⟨-, id, rfl⟩ := setPrincipalActive_cases h
  · exact deactivatePrincipal_withdraws hdeactivate
  · exact .elsewhere rfl rfl rfl

theorem revokeCapability_withdraws {principalId capability actorId now : String}
    {clientId : Option String}
    (h : revokeCapability s principalId capability clientId actorId now = .ok s') :
    Withdraws issued granted s s' := by
  simp only [revokeCapability, bind_eq_ok, pure_eq_ok] at h
  obtain ⟨id, -, key, -, client, -, actor, -, -, -, rfl⟩ := h
  refine .of_grants ?_ rfl rfl
  intro g' hg' hactive _
  simp only [Table.mem_update] at hg'
  obtain ⟨g, hg, rfl⟩ := hg'
  split at hactive
  · cases hactive
  · rename_i hkey
    rw [if_neg hkey]
    exact ⟨g, hg, rfl, hactive⟩

end Operations

/-! ## Logins and grants -/

/-- A login stores the session token, and the call succeeds. -/
inductive AuthCall.Issues (s : Store) (hash : NormalizedText) : AuthCall → Prop
  | createAuthSession {request : SessionRequest} {now : String} {s' : Store}
      {session : AuthSession}
      (succeeds : Access.createAuthSession s request now = .ok (s', session))
      (token_eq : session.sessionTokenHash = hash) :
      Issues s hash (.createAuthSession request now)

/-- An administrator grants the capability under `key`, and the call succeeds. -/
inductive AuthCall.Grants (s : Store) (key : GrantKey) : AuthCall → Prop
  | grantCapability {principalId capability actorId now : String} {clientId : Option String}
      {s' : Store}
      (succeeds : Access.grantCapability s principalId capability clientId actorId now = .ok s')
      (principal_eq : boundedId principalId "principal_id must be 1-128 characters" = .ok key.1)
      (capability_eq : capabilityKey capability = .ok key.2.1)
      (scope_eq : grantClientId clientId = .ok key.2.2) :
      Grants s key (.access (.grantCapability principalId capability clientId actorId now))

theorem upsertGrant_grantsKept {capabilityKey actorId now : String}
    {clientScope : Option ClientId} :
    GrantsKept (· = (id, capabilityKey, clientScope)) s
      (upsertGrant s id capabilityKey clientScope actorId now) := by
  intro g' hg' hactive hgranted
  unfold upsertGrant at hg'
  split at hg'
  · rename_i hinsert
    rcases (Table.mem_of_insert? hinsert).mp hg' with hmem | rfl
    · exact ⟨g', hmem, rfl, hactive⟩
    · exact absurd rfl hgranted
  · simp only [Table.mem_update] at hg'
    obtain ⟨g, hg, rfl⟩ := hg'
    by_cases hkey : g.key = (id, capabilityKey, clientScope)
    · simp only [hkey, decide_true, if_true] at hgranted
      exact absurd hkey hgranted
    · simp only [hkey, decide_false, Bool.false_eq_true, if_false] at hactive ⊢
      exact ⟨g, hg, rfl, hactive⟩

theorem upsertGrant_elsewhere {capabilityKey actorId now : String}
    {clientScope : Option ClientId} :
    (upsertGrant s id capabilityKey clientScope actorId now).credentials = s.credentials ∧
      (upsertGrant s id capabilityKey clientScope actorId now).sessions = s.sessions := by
  unfold upsertGrant
  split
  · exact ⟨rfl, rfl⟩
  · exact ⟨rfl, rfl⟩

theorem grantCapability_withdraws {issued : NormalizedText → Prop}
    {principalId capability actorId now : String} {clientId : Option String}
    (h : grantCapability s principalId capability clientId actorId now = .ok s') :
    Withdraws issued (fun key => AuthCall.Grants s key
      (.access (.grantCapability principalId capability clientId actorId now))) s s' := by
  have hsucceeds := h
  simp only [grantCapability, bind_eq_ok, pure_eq_ok] at h
  obtain ⟨id, hid, key, hkey, client, hclient, actor, -, -, -, rfl⟩ := h
  refine .of_grants ?_ upsertGrant_elsewhere.1 upsertGrant_elsewhere.2
  intro g hg hactive hgranted
  apply upsertGrant_grantsKept g hg hactive
  intro hsame
  rw [hsame] at hgranted
  exact hgranted (.grantCapability hsucceeds hid hkey hclient)

section Sessions

variable {granted : GrantKey → Prop}

theorem createAuthSession_withdraws {request : SessionRequest} {now : String}
    {session : AuthSession} (h : createAuthSession s request now = .ok (s', session)) :
    Withdraws (fun hash => AuthCall.Issues s hash (.createAuthSession request now)) granted
      s s' := by
  have hsucceeds := h
  simp only [createAuthSession, bind_eq_ok, pure_eq_ok] at h
  obtain ⟨hash, -, id, -, method, -, -, -, -, -, sessions, hinsert, h⟩ := h
  cases h
  refine .of_sessions ?_ rfl rfl
  intro a ha hissued
  rcases (mem_of_inserted hinsert).mp ha with hmem | rfl
  · exact ⟨a, hmem, rfl, rfl, fun hrevoked => hrevoked⟩
  · exact absurd (.createAuthSession hsucceeds rfl) hissued

variable {issued : NormalizedText → Prop}

theorem Store.withoutExpiredSessions_withdraws {now : String} :
    Withdraws issued granted s (s.withoutExpiredSessions now) := by
  refine .of_sessions ?_ rfl rfl
  intro a ha hissued
  simp only [withoutExpiredSessions, Table.mem_delete] at ha
  exact SessionsKept.refl a ha.1 hissued

theorem getAuthSession_withdraws {hash now : String} :
    Withdraws issued granted s (getAuthSession s hash now).2 := by
  unfold getAuthSession
  split
  · exact .refl
  · exact Store.withoutExpiredSessions_withdraws

theorem touchAuthSession_withdraws {hash lastSeenAt idleExpiresAt : String} :
    Withdraws issued granted s (touchAuthSession s hash lastSeenAt idleExpiresAt).2 := by
  unfold touchAuthSession
  split
  · exact .refl
  · split
    · exact .refl
    · split
      · exact .refl
      · exact .of_sessions
          (.of_update (AuthSession.touch_hash lastSeenAt _) (fun _ => rfl) (fun _ h => h) rfl)
          rfl rfl

theorem Store.withoutSessions_withdraws {p : AuthSession → Bool} :
    Withdraws issued granted s (s.withoutSessions p) :=
  .of_sessions (.of_update AuthSession.revoke_hash (fun _ => rfl) (fun _ _ => rfl) rfl) rfl rfl

theorem revokeAuthSession_withdraws {hash : String} :
    Withdraws issued granted s (revokeAuthSession s hash).2 := by
  unfold revokeAuthSession
  split
  · exact .refl
  · exact Store.withoutSessions_withdraws

theorem revokePrincipalSessions_withdraws {principalId : String} :
    Withdraws issued granted s (revokePrincipalSessions s principalId).2 := by
  unfold revokePrincipalSessions
  split
  · exact .refl
  · exact Store.withoutSessions_withdraws

end Sessions

/-! ## Runs -/

section Committed

variable {issued : NormalizedText → Prop} {granted : GrantKey → Prop}

theorem withdraws_committed {x : Except AccessError Store}
    (h : ∀ s', x = .ok s' → Withdraws issued granted s s') :
    Withdraws issued granted s (committed s x) :=
  committed_relation .refl h

theorem withdraws_committed_fst {α : Type} {x : Except AccessError (Store × α)}
    (h : ∀ s' a, x = .ok (s', a) → Withdraws issued granted s s') :
    Withdraws issued granted s (committed s (x.map Prod.fst)) := by
  apply withdraws_committed
  intro s' hmap
  obtain ⟨⟨t, a⟩, hx, rfl⟩ := map_eq_ok.mp hmap
  exact h t a hx

theorem AccessCall.apply_withdraws (call : AccessCall) :
    Withdraws issued (fun key => AuthCall.Grants s key (.access call)) s (call.apply rt s) := by
  cases call with
  | createPrincipal principalId kind displayName =>
      rw [AccessCall.apply]
      exact withdraws_committed fun _ h => .of_grows (createPrincipal_grows h)
  | createPrincipalWithAccess principalId kind displayName clientRoles mspAdmin credential =>
      rw [AccessCall.apply]
      exact withdraws_committed fun _ h => .of_grows (createPrincipalWithAccess_grows h)
  | addPrincipalCredential principalId credential =>
      rw [AccessCall.apply]
      exact withdraws_committed_fst fun _ _ h => .of_grows (addPrincipalCredential_grows h)
  | rotatePrincipalCredential principalId credential =>
      rw [AccessCall.apply]
      exact withdraws_committed_fst fun _ _ => rotatePrincipalCredential_withdraws
  | revokePrincipalCredential credentialHash =>
      rw [AccessCall.apply]
      exact withdraws_committed fun _ => revokePrincipalCredential_withdraws
  | revokeAllPrincipalCredentials principalId actorPrincipalId =>
      rw [AccessCall.apply]
      exact withdraws_committed_fst fun _ _ => revokeAllPrincipalCredentials_withdraws
  | addPrincipalClientRole principalId clientId role =>
      rw [AccessCall.apply]
      exact withdraws_committed fun _ h => .of_grows (addPrincipalClientRole_grows h)
  | removePrincipalClientRole principalId clientId role actorPrincipalId now =>
      rw [AccessCall.apply]
      exact withdraws_committed fun _ => removePrincipalClientRole_withdraws
  | addPrincipalGlobalRole principalId role =>
      rw [AccessCall.apply]
      exact withdraws_committed fun _ h => .of_grows (addPrincipalGlobalRole_grows h)
  | removePrincipalGlobalRole principalId role now =>
      rw [AccessCall.apply]
      exact withdraws_committed fun _ => removePrincipalGlobalRole_withdraws
  | setPrincipalActive principalId active now =>
      rw [AccessCall.apply]
      exact withdraws_committed fun _ => setPrincipalActive_withdraws
  | deactivatePrincipal principalId actorPrincipalId now =>
      rw [AccessCall.apply]
      exact withdraws_committed_fst fun _ _ => deactivatePrincipal_withdraws
  | setPrincipalDisplayName principalId displayName =>
      rw [AccessCall.apply]
      exact withdraws_committed fun _ h => .of_grows (setPrincipalDisplayName_grows h)
  | grantCapability principalId capability clientId actorId now =>
      rw [AccessCall.apply]
      exact withdraws_committed fun _ => grantCapability_withdraws
  | revokeCapability principalId capability clientId actorId now =>
      rw [AccessCall.apply]
      exact withdraws_committed fun _ => revokeCapability_withdraws
  | clientsChange clients => exact .elsewhere rfl rfl rfl

end Committed

theorem AuthCall.apply_withdraws (rt : Runtime) (l : AuthCall) :
    Withdraws (fun hash => l.Issues s hash) (fun key => l.Grants s key) s (l.apply rt s) := by
  cases l with
  | access call => exact call.apply_withdraws
  | createAuthSession request now =>
      rw [AuthCall.apply]
      exact withdraws_committed_fst fun _ _ => createAuthSession_withdraws
  | getAuthSession hash now => exact getAuthSession_withdraws
  | touchAuthSession hash lastSeenAt idleExpiresAt => exact touchAuthSession_withdraws
  | revokeAuthSession hash => exact revokeAuthSession_withdraws
  | revokePrincipalSessions principalId => exact revokePrincipalSessions_withdraws

/-- Some call of the run from `s` is such a call, in the store that it finds. -/
def CalledIn (rt : Runtime) (s : Store) (ls : List AuthCall)
    (p : Store → AuthCall → Prop) : Prop :=
  ∃ ks l ms, ls = ks ++ l :: ms ∧ p (runFrom (AuthCall.apply rt) s ks) l

section CalledIn

variable {ks ls : List AuthCall} {p : Store → AuthCall → Prop}

theorem CalledIn.append_left (h : CalledIn rt s ks p) : CalledIn rt s (ks ++ ls) p := by
  obtain ⟨js, l, ms, rfl, hl⟩ := h
  exact ⟨js, l, ms ++ ls, by simp, hl⟩

theorem CalledIn.append_right (h : CalledIn rt (runFrom (AuthCall.apply rt) s ks) ls p) :
    CalledIn rt s (ks ++ ls) p := by
  obtain ⟨js, l, ms, rfl, hl⟩ := h
  refine ⟨ks ++ js, l, ms, by simp, ?_⟩
  rwa [runFrom, List.foldl_append]

end CalledIn

/-- Some call of the run from `s` stores the session token. -/
def IssuedIn (rt : Runtime) (s : Store) (ls : List AuthCall) (hash : NormalizedText) : Prop :=
  CalledIn rt s ls fun s l => l.Issues s hash

/-- Some call of the run from `s` grants the capability under `key`. -/
def GrantedIn (rt : Runtime) (s : Store) (ls : List AuthCall) (key : GrantKey) : Prop :=
  CalledIn rt s ls fun s l => l.Grants s key

theorem Withdraws.mono {issued issued' : NormalizedText → Prop} {granted granted' : GrantKey → Prop}
    (h : Withdraws issued granted s s') (hissued : ∀ hash, issued hash → issued' hash)
    (hgranted : ∀ key, granted key → granted' key) : Withdraws issued' granted' s s' where
  credentials := h.credentials
  sessions a ha hnot := h.sessions a ha fun hash => hnot (hissued _ hash)
  grants g hg hactive hnot := h.grants g hg hactive fun hkey => hnot (hgranted _ hkey)

theorem runFrom_withdraws (rt : Runtime) (s : Store) (ls : List AuthCall) :
    Withdraws (IssuedIn rt s ls) (GrantedIn rt s ls) s (runFrom (AuthCall.apply rt) s ls) := by
  induction ls generalizing s with
  | nil => exact .refl
  | cons l ls ih =>
      have hstep : Withdraws (IssuedIn rt s (l :: ls)) (GrantedIn rt s (l :: ls)) s
          (l.apply rt s) := by
        apply (l.apply_withdraws rt).mono
        · intro hash hl
          exact ⟨[], l, ls, rfl, hl⟩
        · intro key hl
          exact ⟨[], l, ls, rfl, hl⟩
      have hrest : Withdraws (IssuedIn rt s (l :: ls)) (GrantedIn rt s (l :: ls))
          (l.apply rt s) (runFrom (AuthCall.apply rt) s (l :: ls)) := by
        apply (ih (l.apply rt s)).mono
        · intro hash hl
          have hrest : IssuedIn rt (runFrom (AuthCall.apply rt) s [l]) ls hash := hl
          exact hrest.append_right
        · intro key hl
          have hrest : GrantedIn rt (runFrom (AuthCall.apply rt) s [l]) ls key := hl
          exact hrest.append_right
      exact hstep.trans hrest

/-! ## Deactivation -/

/-- Everything that gives the principal access is withdrawn. -/
structure Store.Withdrawn (s : Store) (id : NormalizedText) : Prop where
  credentials : ∀ c ∈ s.credentials, c.principalId = id → c.active = false
  sessions : ∀ a ∈ s.sessions, a.principalId = id → a.revoked = true
  grants : ∀ g ∈ s.grants, g.principalId = id → g.active = false

theorem deactivatePrincipal_withdrawn {principalId now : String}
    {actorPrincipalId : Option String} {count : ℕ}
    (h : deactivatePrincipal s principalId actorPrincipalId now = .ok (s', count))
    (hid : normalizeClientId (some principalId) = some id) : s'.Withdrawn id := by
  simp only [deactivatePrincipal, bind_eq_ok, pure_eq_ok, required_eq_ok, hid,
    Option.some.injEq] at h
  obtain ⟨id, rfl, -, -, principal, -, -, -, h⟩ := h
  cases h
  refine ⟨?_, ?_, ?_⟩
  · intro c hc hpid
    simp only [Store.withoutGrants, Store.withoutCredentials, Table.mem_update] at hc
    obtain ⟨d, hd, rfl⟩ := hc
    by_cases hsame : d.principalId = id
    · simp [hsame, Credential.revoke]
    · simp only [hsame, decide_false, Bool.false_eq_true, if_false] at hpid
  · intro a ha hpid
    simp only [Table.mem_update] at ha
    obtain ⟨b, hb, rfl⟩ := ha
    by_cases hlive : b.principalId = id ∧ b.revoked = false
    · simp [hlive, AuthSession.revoke]
    · simp only [Bool.and_eq_true, decide_eq_true_eq, Bool.not_eq_true', hlive, if_false]
        at hpid ⊢
      simpa [hpid] using hlive
  · intro g hg hpid
    simp only [Store.withoutGrants, Table.mem_update] at hg
    obtain ⟨q, hq, rfl⟩ := hg
    by_cases hsame : q.principalId = id
    · simp [hsame, CapabilityGrant.deactivate]
    · simp only [hsame, decide_false, Bool.false_eq_true, if_false] at hpid

/-- A call that deactivates the principal and succeeds. -/
inductive AuthCall.Deactivates (s : Store) (id : NormalizedText) : AuthCall → Prop
  | deactivatePrincipal {principalId now : String} {actorPrincipalId : Option String}
      {s' : Store} {count : ℕ}
      (succeeds : Access.deactivatePrincipal s principalId actorPrincipalId now = .ok (s', count))
      (principal : normalizeClientId (some principalId) = some id) :
      Deactivates s id (.access (.deactivatePrincipal principalId actorPrincipalId now))
  | setPrincipalActive {principalId now : String} {s' : Store}
      (succeeds : Access.setPrincipalActive s principalId false now = .ok s')
      (principal : normalizeClientId (some principalId) = some id) :
      Deactivates s id (.access (.setPrincipalActive principalId false now))

theorem AuthCall.Deactivates.withdrawn (rt : Runtime) {l : AuthCall} (h : l.Deactivates s id) :
    (l.apply rt s).Withdrawn id := by
  cases h with
  | deactivatePrincipal succeeds principal =>
      rw [AuthCall.apply, AccessCall.apply, succeeds]
      exact deactivatePrincipal_withdrawn succeeds principal
  | setPrincipalActive succeeds principal =>
      rw [AuthCall.apply, AccessCall.apply, succeeds]
      obtain ⟨count, hdeactivate⟩ | ⟨hactive, -⟩ := setPrincipalActive_cases succeeds
      · exact deactivatePrincipal_withdrawn hdeactivate principal
      · cases hactive

/-! ## What is withdrawn gives no access -/

theorem Store.findPrincipalByCredentialHash_of_inactive {c : Credential} (hc : c ∈ s.credentials)
    (hactive : c.active = false) : s.findPrincipalByCredentialHash c.credentialHash = none := by
  have hfind : s.credentials.find? c.credentialHash = some c :=
    Table.find?_eq_some_iff.mpr ⟨hc, rfl⟩
  simp [findPrincipalByCredentialHash, hfind, hactive]

theorem getAuthSession_eq_none {hash : NormalizedText} {now : String}
    (h : ∀ a ∈ s.sessions, a.sessionTokenHash = hash → a.revoked = true) :
    (getAuthSession s hash.val now).1 = none := by
  simp only [getAuthSession, normalizeClientId_val, Store.liveSession?, Option.filter_eq_none_iff]
  intro a ha
  obtain ⟨hmem, hhash⟩ := Table.find?_eq_some_iff.mp ha
  simp only [Store.withoutExpiredSessions, Table.mem_delete] at hmem
  simp [h a hmem.1 hhash]

theorem Store.mem_activeCapabilityGrants {grants : List (String × Option ClientId)}
    (h : s.activeCapabilityGrants id = .ok grants) {grant : String × Option ClientId}
    (hmem : grant ∈ grants) :
    ∃ g ∈ s.grants, g.key = (id, grant.1, grant.2) ∧ g.active = true := by
  unfold activeCapabilityGrants at h
  split at h
  · cases h
  · cases h
    obtain ⟨g, hg, rfl⟩ := List.mem_map.mp hmem
    simp only [List.mem_filter, Bool.and_eq_true, beq_iff_eq] at hg
    exact ⟨g, hg.1, by rw [CapabilityGrant.key, hg.2.1], hg.2.2⟩

/-- What a principal held when it was deactivated or at any time before gives no access after the
deactivation, unless a login stores the session token or an administrator issues the grant again. -/
theorem deactivation_final (rt : Runtime) (ls ms ks : List AuthCall) (l : AuthCall)
    (id : NormalizedText) (h : l.Deactivates ((authentication rt).run (ls ++ ms)) id) :
    (∀ c ∈ ((authentication rt).run ls).credentials, c.principalId = id →
      ((authentication rt).run (ls ++ ms ++ l :: ks)).findPrincipalByCredentialHash
        c.credentialHash = none) ∧
    (∀ a ∈ ((authentication rt).run ls).sessions, a.principalId = id →
      ¬ IssuedIn rt ((authentication rt).run ls) (ms ++ l :: ks) a.sessionTokenHash → ∀ now,
        (getAuthSession ((authentication rt).run (ls ++ ms ++ l :: ks))
          a.sessionTokenHash.val now).1 = none) ∧
    ∀ grants, ((authentication rt).run (ls ++ ms ++ l :: ks)).activeCapabilityGrants id =
      .ok grants → ∀ grant ∈ grants,
        GrantedIn rt ((authentication rt).run (ls ++ ms ++ [l])) ks (id, grant.1, grant.2) := by
  have hwithdrawn := h.withdrawn rt
  have hlast : (authentication rt).run (ls ++ ms ++ [l]) =
      l.apply rt ((authentication rt).run (ls ++ ms)) := by
    rw [Machine.run_concat]
    rfl
  have hfinal : (authentication rt).run (ls ++ ms ++ l :: ks) =
      runFrom (AuthCall.apply rt) ((authentication rt).run (ls ++ ms ++ [l])) ks := by
    rw [← List.singleton_append, ← List.append_assoc, Machine.run_append]
    rfl
  have hbefore := runFrom_withdraws rt ((authentication rt).run ls) (ms ++ [l])
  have hafter := runFrom_withdraws rt ((authentication rt).run (ls ++ ms ++ [l])) ks
  rw [← hlast] at hwithdrawn
  have hrun : runFrom (AuthCall.apply rt) ((authentication rt).run ls) (ms ++ [l]) =
      (authentication rt).run (ls ++ ms ++ [l]) := by
    rw [List.append_assoc, Machine.run_append]
    rfl
  rw [hrun] at hbefore
  rw [hfinal]
  refine ⟨?_, ?_, ?_⟩
  · intro c hc hid
    obtain ⟨c', hc', hhash', hid', -⟩ := hbefore.credentials c hc
    obtain ⟨d, hd, hhash, -, hactive⟩ := hafter.credentials c' hc'
    have hinactive : c'.active = false := hwithdrawn.credentials c' hc' (hid'.trans hid)
    rw [← hhash', ← hhash]
    apply Store.findPrincipalByCredentialHash_of_inactive hd
    rw [hinactive] at hactive
    simpa using hactive
  · intro a ha hid hissued now
    rw [← List.singleton_append, ← List.append_assoc] at hissued
    have hbefore' : ¬ IssuedIn rt ((authentication rt).run ls) (ms ++ [l]) a.sessionTokenHash :=
      fun h => hissued h.append_left
    have hafter' : ¬ IssuedIn rt ((authentication rt).run (ls ++ ms ++ [l])) ks
        a.sessionTokenHash := by
      intro h
      rw [← hrun] at h
      exact hissued h.append_right
    apply getAuthSession_eq_none
    intro b hb hhash
    obtain ⟨b', hb', hhash', -, hrevoked⟩ := hafter.sessions b hb (by rwa [hhash])
    obtain ⟨b'', hb'', hhash'', hid'', -⟩ :=
      hbefore.sessions b' hb' (by rwa [hhash', hhash])
    have hsame : b'' = a := Table.eq_of_key_eq hb'' ha (hhash''.trans (hhash'.trans hhash))
    apply hrevoked
    apply hwithdrawn.sessions b' hb'
    rw [← hid'', hsame, hid]
  · intro grants hgrants grant hgrant
    obtain ⟨g, hg, hkey, hactive⟩ := Store.mem_activeCapabilityGrants hgrants hgrant
    by_contra hnot
    obtain ⟨g', hg', hkey', hactive'⟩ := hafter.grants g hg hactive (by rwa [hkey])
    have hid : g'.principalId = id := congrArg Prod.fst (hkey'.trans hkey)
    rw [hwithdrawn.grants g' hg' hid] at hactive'
    cases hactive'

/-- A technician with a credential, a grant and a session. -/
def technicianRun : List AuthCall :=
  [.access (.clientsChange servicedClients),
    .access (.createPrincipalWithAccess "root" "staff" "Root" [] true (some "root-credential")),
    .access (.createPrincipalWithAccess "sam" "staff" "Sam" [("acme", "technician")] false
      (some "second-credential")),
    .access (.grantCapability "sam" "microsoft_admin" (some "acme") "root"
      "2026-01-05T09:00:00+00:00"),
    .createAuthSession
      { sessionTokenHash := "ab63a5c1", principalId := "sam",
        idleExpiresAt := "2026-01-05T21:00:00+00:00",
        absoluteExpiresAt := "2026-01-12T09:00:00+00:00" } "2026-01-05T09:00:00+00:00"]

def deactivateSam : AuthCall :=
  .access (.deactivatePrincipal "sam" none "2026-01-05T10:00:00+00:00")

/-- Neither the credential nor the session comes back with the principal. -/
theorem deactivation_final_technicianRun :
    let s := (authentication applianceRuntime).run (technicianRun ++ [] ++ deactivateSam ::
      [.access (.setPrincipalActive "sam" true "2026-01-05T11:00:00+00:00")])
    s.findPrincipalByCredentialHash
        "b3983197f57292dd22cbf7f51d6f25cc991862bc24978056838291b64918f14f" = none ∧
      (getAuthSession s "ab63a5c1" "2026-01-05T12:00:00+00:00").1 = none := by
  have hok : (Access.deactivatePrincipal ((authentication applianceRuntime).run
      (technicianRun ++ [])) "sam" none "2026-01-05T10:00:00+00:00").isOk = true := by decide
  obtain ⟨⟨s', count⟩, hdeactivate⟩ := exists_eq_ok hok
  have hfinal := deactivation_final applianceRuntime technicianRun []
    [.access (.setPrincipalActive "sam" true "2026-01-05T11:00:00+00:00")] deactivateSam
    ⟨"sam", by decide, by decide⟩ (.deactivatePrincipal hdeactivate (by decide))
  have hcredential : ∃ c ∈ ((authentication applianceRuntime).run technicianRun).credentials.rows,
      c.principalId.val = "sam" ∧ c.credentialHash =
        "b3983197f57292dd22cbf7f51d6f25cc991862bc24978056838291b64918f14f" := by decide
  have hsession : ∃ a ∈ ((authentication applianceRuntime).run technicianRun).sessions.rows,
      a.principalId.val = "sam" ∧ a.sessionTokenHash.val = "ab63a5c1" := by decide
  obtain ⟨c, hc, hcid, hchash⟩ := hcredential
  obtain ⟨a, ha, haid, hahash⟩ := hsession
  refine ⟨?_, ?_⟩
  · rw [← hchash]
    exact hfinal.1 c hc (Subtype.ext hcid)
  · rw [← hahash]
    refine hfinal.2.1 a ha (Subtype.ext haid) ?_ _
    rintro ⟨js, k, ms, hsplit, hissues⟩
    have hk : k ∈ [] ++ deactivateSam ::
        [.access (.setPrincipalActive "sam" true "2026-01-05T11:00:00+00:00")] := by
      rw [hsplit]
      exact List.mem_append_right _ List.mem_cons_self
    obtain rfl | rfl : k = deactivateSam ∨ k = _ := by simpa using hk
    · cases hissues
    · cases hissues

/-- Sam logs in with the token of the session again, once its expired row is deleted. -/
def loggedInAgain : List AuthCall :=
  [.access (.setPrincipalActive "sam" true "2026-01-05T11:00:00+00:00"),
    .getAuthSession "ab63a5c1" "2026-01-13T09:00:00+00:00",
    .createAuthSession
      { sessionTokenHash := "ab63a5c1", principalId := "sam",
        idleExpiresAt := "2026-01-13T21:00:00+00:00",
        absoluteExpiresAt := "2026-01-20T09:00:00+00:00" } "2026-01-13T09:00:00+00:00"]

theorem not_deactivation_final : ¬ ∀ (rt : Runtime) (ls ks : List AuthCall) (l : AuthCall)
    (id : NormalizedText), l.Deactivates ((authentication rt).run ls) id →
    ∀ a ∈ ((authentication rt).run ls).sessions, a.principalId = id → ∀ now,
      (getAuthSession ((authentication rt).run (ls ++ l :: ks)) a.sessionTokenHash.val now).1 =
        none := by
  intro h
  have hok : (Access.deactivatePrincipal ((authentication applianceRuntime).run technicianRun)
      "sam" none "2026-01-05T10:00:00+00:00").isOk = true := by decide
  obtain ⟨⟨s', count⟩, hdeactivate⟩ := exists_eq_ok hok
  obtain ⟨a, ha, hid, hhash⟩ : ∃ a ∈ ((authentication applianceRuntime).run
      technicianRun).sessions.rows, a.principalId.val = "sam" ∧ a.sessionTokenHash.val =
        "ab63a5c1" := by decide
  have hnone := h applianceRuntime technicianRun loggedInAgain deactivateSam
    ⟨"sam", by decide, by decide⟩ (.deactivatePrincipal hdeactivate (by decide)) a ha
    (Subtype.ext hid) "2026-01-13T10:00:00+00:00"
  rw [hhash] at hnone
  have hsome : (getAuthSession ((authentication applianceRuntime).run
      (technicianRun ++ deactivateSam :: loggedInAgain)) "ab63a5c1"
        "2026-01-13T10:00:00+00:00").1.isSome = true := by decide +kernel
  rw [hnone] at hsome
  cases hsome

end WaitLocalAgent.Access
