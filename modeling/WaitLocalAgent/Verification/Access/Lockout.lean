import WaitLocalAgent.Model.Principals

/-! # No administrator lock-out

Each operation takes access from one principal at most, and only if another administrator stays
armed. -/

namespace WaitLocalAgent.Access

open Foundation Tenancy

variable {rt : Runtime} {s s' : Store} {id : NormalizedText}

/-! ## Armed administrators -/

def Store.ActivePrincipal (s : Store) (id : NormalizedText) : Prop :=
  ∃ p ∈ s.principals, p.principalId = id ∧ p.active = true

def Store.HasCredential (s : Store) (id : NormalizedText) : Prop :=
  ∃ c ∈ s.credentials, c.principalId = id ∧ c.active = true

/-- An active administrator with an active credential. -/
structure Store.Armed (s : Store) (id : NormalizedText) : Prop where
  active : s.ActivePrincipal id
  admin : s.isMspAdmin id = true
  credential : s.HasCredential id

theorem Store.isMspAdmin_iff :
    s.isMspAdmin id = true ↔ ∃ g ∈ s.globalRoles, g.principalId = id := by
  simp only [isMspAdmin, List.any_eq_true, beq_iff_eq, Table.mem_def]

theorem Store.activeCredentialCount_pos : 0 < s.activeCredentialCount id ↔ s.HasCredential id := by
  simp [activeCredentialCount, Table.rowcount_pos, HasCredential]

theorem Store.isArmed_iff {p : Principal} : s.isArmed p = true ↔ p.active = true ∧
    s.isMspAdmin p.principalId = true ∧ s.HasCredential p.principalId := by
  simp only [isArmed, Bool.and_eq_true, decide_eq_true_eq, activeCredentialCount_pos, and_assoc]

theorem Store.armed_iff : s.Armed id ↔ ∃ p ∈ s.principals, p.principalId = id ∧
    s.isArmed p = true := by
  constructor
  · intro h
    obtain ⟨p, hp, hid, hactive⟩ := h.active
    refine ⟨p, hp, hid, isArmed_iff.mpr ⟨hactive, ?_, ?_⟩⟩
    · rw [hid]
      exact h.admin
    · rw [hid]
      exact h.credential
  · intro h
    obtain ⟨p, hp, hid, harmed⟩ := h
    obtain ⟨hactive, hadmin, hcredential⟩ := isArmed_iff.mp harmed
    rw [hid] at hadmin hcredential
    exact ⟨⟨p, hp, hid, hactive⟩, hadmin, hcredential⟩

theorem Store.hasMspAdminCredential_iff :
    s.hasMspAdminCredential = true ↔ ∃ id, s.Armed id := by
  simp only [hasMspAdminCredential, List.any_eq_true, armed_iff]
  constructor
  · intro h
    obtain ⟨p, hp, harmed⟩ := h
    exact ⟨p.principalId, p, hp, rfl, harmed⟩
  · intro h
    obtain ⟨id, p, hp, -, harmed⟩ := h
    exact ⟨p, hp, harmed⟩

/-- The guard lets a principal go that is not armed, that keeps a credential, or that leaves
another armed administrator behind. -/
theorem guardLastMspAdmin_eq_ok {revokeOneCredential : Bool}
    (h : guardLastMspAdmin s id revokeOneCredential = .ok ()) (harmed : s.Armed id) :
    (revokeOneCredential = true ∧ 1 < s.activeCredentialCount id) ∨
      ∃ other, other ≠ id ∧ s.Armed other := by
  unfold guardLastMspAdmin at h
  split at h
  · rename_i hnone
    obtain ⟨p, hp, hid, hactive⟩ := harmed.active
    have hmiss := List.find?_eq_none.mp hnone p hp
    rw [hid] at hmiss
    simp [hactive, harmed.admin] at hmiss
  · rename_i p hfind
    have hid : p.principalId = id := by
      have hprop := List.find?_some hfind
      simp only [Bool.and_eq_true, decide_eq_true_eq] at hprop
      exact hprop.1.1
    rw [hid] at h
    have hpos : 0 < s.activeCredentialCount id := Store.activeCredentialCount_pos.mpr
      harmed.credential
    simp only [Nat.pos_iff_ne_zero.mp hpos, if_false] at h
    split at h
    · rename_i hmany
      exact .inl hmany
    · rw [raiseIf_eq_ok, not_le] at h
      obtain ⟨q, hq, hqarmed, hne⟩ := Table.exists_ne_of_one_lt_rowcount h id
      exact .inr ⟨q.principalId, hne, Store.armed_iff.mpr ⟨q, hq, rfl, hqarmed⟩⟩

/-! ## What one call may take away -/

/-- Only principals in `touched` lose an active row, `msp_admin` or an active credential. -/
structure Confined (touched : NormalizedText → Prop) (s s' : Store) : Prop where
  principals : ∀ id, ¬ touched id → s.ActivePrincipal id → s'.ActivePrincipal id
  globalRoles : ∀ g ∈ s.globalRoles, ¬ touched g.principalId → g ∈ s'.globalRoles
  credentials : ∀ c ∈ s.credentials, c.active = true → ¬ touched c.principalId →
    c ∈ s'.credentials

namespace Confined

variable {touched : NormalizedText → Prop}

theorem armed (h : Confined touched s s') (ho : ¬ touched id) (ha : s.Armed id) :
    s'.Armed id := by
  obtain ⟨g, hg, hgid⟩ := Store.isMspAdmin_iff.mp ha.admin
  obtain ⟨c, hc, hcid, hcactive⟩ := ha.credential
  refine ⟨h.principals id ho ha.active, Store.isMspAdmin_iff.mpr ⟨g, h.globalRoles g hg ?_, hgid⟩,
    ⟨c, h.credentials c hc hcactive ?_, hcid, hcactive⟩⟩
  · rwa [hgid]
  · rwa [hcid]

/-- Some administrator is armed after a call that disarms a principal only if another one is
armed. -/
theorem survives (h : Confined (· = id) s s')
    (hid : s.Armed id → s'.Armed id ∨ ∃ other, other ≠ id ∧ s.Armed other)
    (hs : s.hasMspAdminCredential = true) : s'.hasMspAdminCredential = true := by
  rw [Store.hasMspAdminCredential_iff] at hs ⊢
  obtain ⟨admin, hadmin⟩ := hs
  by_cases hsame : admin = id
  · rw [hsame] at hadmin
    rcases hid hadmin with hstays | ⟨other, hne, hother⟩
    · exact ⟨id, hstays⟩
    · exact ⟨other, h.armed hne hother⟩
  · exact ⟨admin, h.armed hsame hadmin⟩

theorem survives_of_untouched (h : Confined (fun _ => False) s s')
    (hs : s.hasMspAdminCredential = true) : s'.hasMspAdminCredential = true := by
  rw [Store.hasMspAdminCredential_iff] at hs ⊢
  obtain ⟨admin, hadmin⟩ := hs
  exact ⟨admin, h.armed not_false hadmin⟩

/-- A call that writes neither principals, global roles nor credentials. -/
theorem elsewhere (hp : s'.principals = s.principals) (hg : s'.globalRoles = s.globalRoles)
    (hc : s'.credentials = s.credentials) : Confined touched s s' where
  principals id _ h := by
    rw [Store.ActivePrincipal, hp]
    exact h
  globalRoles g hmem _ := by rwa [hg]
  credentials c hmem _ _ := by rwa [hc]

end Confined

/-- A call that only adds rows, and leaves the sessions and the grants alone. -/
structure Grows (s s' : Store) : Prop where
  principals : ∀ id, s.ActivePrincipal id → s'.ActivePrincipal id
  globalRoles : ∀ g ∈ s.globalRoles, g ∈ s'.globalRoles
  clientRoles : ∀ r ∈ s.clientRoles, r ∈ s'.clientRoles
  credentials : ∀ c ∈ s.credentials, c ∈ s'.credentials
  sessions : s'.sessions = s.sessions
  grants : s'.grants = s.grants

theorem Grows.refl (s : Store) : Grows s s :=
  ⟨fun _ h => h, fun _ h => h, fun _ h => h, fun _ h => h, rfl, rfl⟩

theorem Grows.survives (h : Grows s s') (hs : s.hasMspAdminCredential = true) :
    s'.hasMspAdminCredential = true :=
  Confined.survives_of_untouched ⟨fun id _ => h.principals id, fun g hg _ => h.globalRoles g hg,
    fun c hc _ _ => h.credentials c hc⟩ hs

/-! ## The operations -/

theorem mem_of_inserted {α κ : Type} {key : α → κ} [DecidableEq κ] {t t' : Table key} {row : α}
    (h : inserted t row = .ok t') {r : α} : r ∈ t' ↔ r ∈ t ∨ r = row := by
  unfold inserted at h
  split at h
  · rename_i hinsert
    cases h
    exact Table.mem_of_insert? hinsert
  · cases h

theorem Store.ActivePrincipal.of_inserted {p : Principal} (h : s.ActivePrincipal id)
    (hinsert : inserted s.principals p = .ok s'.principals) : s'.ActivePrincipal id := by
  obtain ⟨q, hq, hid, hactive⟩ := h
  exact ⟨q, (mem_of_inserted hinsert).mpr (.inl hq), hid, hactive⟩

/-- An update of principals that deactivates none of these. -/
theorem Store.ActivePrincipal.of_update {f : Principal → Principal} {q : Principal → Bool}
    (h : s.ActivePrincipal id) (hf : ∀ p, (f p).principalId = p.principalId)
    (hactive : ∀ p, q p = true → p.principalId = id → p.active = true → (f p).active = true)
    (hupdate : s'.principals = s.principals.update q f hf) : s'.ActivePrincipal id := by
  obtain ⟨p, hp, hid, hpactive⟩ := h
  refine ⟨if q p then f p else p, ?_, ?_, ?_⟩
  · rw [hupdate]
    exact Table.mem_update_of_mem hp
  · split
    · rw [hf, hid]
    · exact hid
  · split
    · rename_i hq
      exact hactive p hq hid hpactive
    · exact hpactive

/-- Withdrawing the credentials of a principal leaves those of the others. -/
theorem Store.mem_withoutCredentials {c : Credential} (hc : c ∈ s.credentials)
    (hne : c.principalId ≠ id) : c ∈ (s.withoutCredentials id).credentials := by
  simp only [withoutCredentials]
  exact Table.mem_update_of_not hc (by simpa using hne)

theorem createPrincipal_grows {principalId kind displayName : String}
    (h : createPrincipal rt s principalId kind displayName = .ok s') : Grows s s' := by
  simp only [createPrincipal, bind_eq_ok, pure_eq_ok] at h
  obtain ⟨id, -, parsed, -, principals, hinsert, rfl⟩ := h
  exact { Grows.refl s with principals := fun _ hactive => hactive.of_inserted hinsert }

/-- Rows inserted one after another are added to those that were there. -/
theorem mem_of_foldlM_inserted {α β κ : Type} {key : α → κ} [DecidableEq κ] {row : β → α}
    {bs : List β} {t t' : Table key}
    (h : bs.foldlM (fun t b => inserted t (row b)) t = .ok t') : ∀ r ∈ t, r ∈ t' := by
  refine foldlM_invariant (I := fun u : Table key => ∀ r ∈ t, r ∈ u) ?_ (fun _ hr => hr) h
  intro b _ u u' hu hinsert r hr
  exact (mem_of_inserted hinsert).mpr (.inl (hu r hr))

theorem createPrincipalWithAccess_grows {principalId kind displayName : String}
    {clientRoles : List (String × String)} {mspAdmin : Bool} {credential : Option String}
    (h : createPrincipalWithAccess rt s principalId kind displayName clientRoles mspAdmin
      credential = .ok s') : Grows s s' := by
  simp only [createPrincipalWithAccess, bind_eq_ok, pure_eq_ok] at h
  obtain ⟨id, -, parsed, -, roles, -, -, -, -, -, hash, -, -, -, principals, hprincipals,
    inserted, hinserted, globalRoles, hglobal, credentials, hcredentials, rfl⟩ := h
  refine ⟨fun _ hactive => hactive.of_inserted hprincipals, ?_,
    mem_of_foldlM_inserted hinserted, ?_, rfl, rfl⟩
  · intro g hg
    unfold initialGlobalRoles at hglobal
    split at hglobal
    · exact (mem_of_inserted hglobal).mpr (.inl hg)
    · cases hglobal
      exact hg
  · intro c hc
    unfold initialCredentials at hcredentials
    split at hcredentials
    · exact (mem_of_inserted hcredentials).mpr (.inl hc)
    · cases hcredentials
      exact hc

theorem addPrincipalCredential_grows {principalId credential hash : String}
    (h : addPrincipalCredential rt s principalId credential = .ok (s', hash)) : Grows s s' := by
  simp only [addPrincipalCredential, bind_eq_ok, pure_eq_ok] at h
  obtain ⟨hash, -, id, -, principal, -, -, -, credentials, hinsert, h⟩ := h
  cases h
  exact { Grows.refl s with
    credentials := fun _ hc => (mem_of_inserted hinsert).mpr (.inl hc) }

theorem addPrincipalClientRole_grows {principalId clientId role : String}
    (h : addPrincipalClientRole s principalId clientId role = .ok s') : Grows s s' := by
  simp only [addPrincipalClientRole, bind_eq_ok, pure_eq_ok] at h
  obtain ⟨id, -, client, -, -, -, parsed, -, principal, -, -, -, clientRoles, hinsert, rfl⟩ := h
  exact { Grows.refl s with
    clientRoles := fun _ hr => (mem_of_inserted hinsert).mpr (.inl hr) }

theorem addPrincipalGlobalRole_grows {principalId role : String}
    (h : addPrincipalGlobalRole s principalId role = .ok s') : Grows s s' := by
  simp only [addPrincipalGlobalRole, bind_eq_ok, pure_eq_ok] at h
  obtain ⟨id, -, -, -, principal, -, -, -, globalRoles, hinsert, rfl⟩ := h
  exact { Grows.refl s with
    globalRoles := fun _ hg => (mem_of_inserted hinsert).mpr (.inl hg) }

theorem setPrincipalDisplayName_grows {principalId displayName : String}
    (h : setPrincipalDisplayName rt s principalId displayName = .ok s') : Grows s s' := by
  simp only [setPrincipalDisplayName, bind_eq_ok, pure_eq_ok] at h
  obtain ⟨id, -, name, -, principal, -, rfl⟩ := h
  exact { Grows.refl s with
    principals := fun _ hactive =>
      hactive.of_update (Principal.rename_id _) (fun _ _ _ hkept => hkept) rfl }

/-- A rotation arms its principal again. -/
theorem rotatePrincipalCredential_survives {principalId credential hash : String}
    (h : rotatePrincipalCredential rt s principalId credential = .ok (s', hash))
    (hs : s.hasMspAdminCredential = true) : s'.hasMspAdminCredential = true := by
  simp only [rotatePrincipalCredential, bind_eq_ok, pure_eq_ok] at h
  obtain ⟨hash, -, id, -, principal, -, -, -, credentials, hinsert, h⟩ := h
  cases h
  have hconfined : Confined (· = id) s { s.withoutCredentials id with credentials } := {
    principals := fun _ _ hactive => hactive
    globalRoles := fun _ hg _ => hg
    credentials := fun c hc _ hne =>
      (mem_of_inserted hinsert).mpr (.inl (Store.mem_withoutCredentials hc hne)) }
  refine hconfined.survives ?_ hs
  intro harmed
  left
  exact ⟨harmed.active, harmed.admin, _, (mem_of_inserted hinsert).mpr (.inr rfl), rfl, rfl⟩

theorem Store.namedCredential?_mem {hash : String} {c : Credential}
    (h : s.namedCredential? hash = some c) : c ∈ s.credentials := by
  unfold namedCredential? at h
  split at h
  · rename_i hfind
    cases h
    exact Table.mem_of_find?_eq_some hfind
  · split at h
    · rename_i hfilter
      cases h
      have hmem : c ∈ s.credentials.rows.filter fun c =>
          Text.like c.credentialHash (hash ++ "%") := by
        simp [hfilter]
      exact (List.mem_filter.mp hmem).1
    · cases h

theorem Store.mem_withRevoked {credential c : Credential} (hmem : credential ∈ s.credentials)
    (hc : c ∈ s.credentials) (hne : c ≠ credential) :
    c ∈ (s.withRevoked credential).credentials := by
  simp only [withRevoked]
  refine Table.mem_update_of_not hc ?_
  simp only [decide_eq_false_iff_not]
  intro hhash
  exact hne (Table.eq_of_key_eq hc hmem hhash)

/-- Revoking an active credential touches its principal. -/
theorem Store.withRevoked_confined {credential : Credential} (hmem : credential ∈ s.credentials) :
    Confined (· = credential.principalId) s (s.withRevoked credential) where
  principals _ _ hactive := hactive
  globalRoles _ hg _ := hg
  credentials c hc _ hne := by
    apply Store.mem_withRevoked hmem hc
    intro hsame
    exact hne (by rw [hsame])

theorem Store.withRevoked_confined_of_inactive {credential : Credential}
    (hmem : credential ∈ s.credentials) (hinactive : ¬ credential.active = true) :
    Confined (fun _ => False) s (s.withRevoked credential) where
  principals _ _ hactive := hactive
  globalRoles _ hg _ := hg
  credentials c hc hactive _ := by
    apply Store.mem_withRevoked hmem hc
    intro hsame
    rw [hsame] at hactive
    exact hinactive hactive

/-- A principal with a second active credential stays armed. -/
theorem Store.Armed.withRevoked {credential : Credential} (hmem : credential ∈ s.credentials)
    (harmed : s.Armed credential.principalId)
    (hmany : 1 < s.activeCredentialCount credential.principalId) :
    (s.withRevoked credential).Armed credential.principalId := by
  obtain ⟨c, hc, hprop, hne⟩ := Table.exists_ne_of_one_lt_rowcount hmany credential.credentialHash
  simp only [Bool.and_eq_true, decide_eq_true_eq] at hprop
  refine ⟨harmed.active, harmed.admin, c, Store.mem_withRevoked hmem hc ?_, hprop.1, hprop.2⟩
  intro hsame
  exact hne (by rw [hsame])

theorem revokePrincipalCredential_survives {credentialHash : String}
    (h : revokePrincipalCredential s credentialHash = .ok s')
    (hs : s.hasMspAdminCredential = true) : s'.hasMspAdminCredential = true := by
  simp only [revokePrincipalCredential, bind_eq_ok] at h
  obtain ⟨hash, -, h⟩ := h
  split at h
  · cases h
  · rename_i credential hnamed
    simp only [bind_eq_ok, pure_eq_ok] at h
    obtain ⟨⟨⟩, hguard, rfl⟩ := h
    have hmem : credential ∈ s.credentials := Store.namedCredential?_mem hnamed
    by_cases hactive : credential.active = true
    · rw [guardRevocation, if_pos hactive] at hguard
      refine (Store.withRevoked_confined hmem).survives ?_ hs
      intro harmed
      rcases guardLastMspAdmin_eq_ok hguard harmed with ⟨-, hmany⟩ | hother
      · exact .inl (harmed.withRevoked hmem hmany)
      · exact .inr hother
    · exact (Store.withRevoked_confined_of_inactive hmem hactive).survives_of_untouched hs

/-- Taking access from a principal that the guard lets go. -/
theorem Confined.survives_guarded (h : Confined (· = id) s s')
    (hguard : guardLastMspAdmin s id false = .ok ()) (hs : s.hasMspAdminCredential = true) :
    s'.hasMspAdminCredential = true := by
  refine h.survives ?_ hs
  intro harmed
  rcases guardLastMspAdmin_eq_ok hguard harmed with ⟨hfalse, -⟩ | hother
  · cases hfalse
  · exact .inr hother

theorem revokeAllPrincipalCredentials_survives {principalId : String}
    {actorPrincipalId : Option String} {count : ℕ}
    (h : revokeAllPrincipalCredentials s principalId actorPrincipalId = .ok (s', count))
    (hs : s.hasMspAdminCredential = true) : s'.hasMspAdminCredential = true := by
  simp only [revokeAllPrincipalCredentials, bind_eq_ok, pure_eq_ok] at h
  obtain ⟨id, -, -, -, principal, -, ⟨⟩, hguard, h⟩ := h
  cases h
  have hconfined : Confined (· = id) s (s.withoutCredentials id) := {
    principals := fun _ _ hactive => hactive
    globalRoles := fun _ hg _ => hg
    credentials := fun _ hc _ hne => Store.mem_withoutCredentials hc hne }
  exact hconfined.survives_guarded hguard hs

theorem removePrincipalClientRole_confined {principalId clientId role now : String}
    {actorPrincipalId : Option String}
    (h : removePrincipalClientRole s principalId clientId role actorPrincipalId now = .ok s') :
    Confined (fun _ => False) s s' := by
  simp only [removePrincipalClientRole, bind_eq_ok, pure_eq_ok] at h
  obtain ⟨id, -, client, -, -, -, parsed, -, principal, -, -, -, -, -, -, -, rfl⟩ := h
  exact .elsewhere rfl rfl rfl

theorem removePrincipalGlobalRole_survives {principalId role now : String}
    (h : removePrincipalGlobalRole s principalId role now = .ok s')
    (hs : s.hasMspAdminCredential = true) : s'.hasMspAdminCredential = true := by
  simp only [removePrincipalGlobalRole, bind_eq_ok, pure_eq_ok] at h
  obtain ⟨id, -, -, -, principal, -, -, -, ⟨⟩, hguard, -, -, rfl⟩ := h
  refine Confined.survives_guarded ⟨?_, ?_, ?_⟩ hguard hs
  · exact fun _ _ hactive => hactive
  · intro g hg hne
    exact Table.mem_delete.mpr ⟨hg, by simpa using hne⟩
  · exact fun _ hc _ _ => hc

theorem deactivatePrincipal_survives {principalId now : String}
    {actorPrincipalId : Option String} {count : ℕ}
    (h : deactivatePrincipal s principalId actorPrincipalId now = .ok (s', count))
    (hs : s.hasMspAdminCredential = true) : s'.hasMspAdminCredential = true := by
  simp only [deactivatePrincipal, bind_eq_ok, pure_eq_ok] at h
  obtain ⟨id, -, -, -, principal, -, ⟨⟩, hguard, h⟩ := h
  cases h
  refine Confined.survives_guarded ⟨?_, ?_, ?_⟩ hguard hs
  · intro other hne hactive
    refine hactive.of_update (Principal.setActive_id false) ?_ rfl
    intro p hp hother _
    exact absurd (hother.symm.trans (of_decide_eq_true hp)) hne
  · exact fun _ hg _ => hg
  · exact fun _ hc _ hne => Store.mem_withoutCredentials hc hne

theorem Store.withActive_confined : Confined (fun _ => False) s (s.withActive id true) where
  principals _ _ hactive := 
    hactive.of_update (Principal.setActive_id true) (fun _ _ _ _ => rfl) rfl
  globalRoles _ hg _ := hg
  credentials _ hc _ _ := hc

theorem setPrincipalActive_cases {principalId now : String} {active : Bool}
    (h : setPrincipalActive s principalId active now = .ok s') :
    (∃ count, deactivatePrincipal s principalId none now = .ok (s', count)) ∨
      active = true ∧ ∃ id, s' = s.withActive id true := by
  cases active with
  | false =>
      simp only [setPrincipalActive, Bool.not_false, if_true, bind_eq_ok, pure_eq_ok] at h
      obtain ⟨id, -, ⟨inactive, count⟩, hdeactivate, rfl⟩ := h
      exact .inl ⟨count, hdeactivate⟩
  | true =>
      simp only [setPrincipalActive, Bool.not_true, Bool.false_eq_true, if_false, bind_eq_ok,
        pure_eq_ok] at h
      obtain ⟨id, -, principal, -, rfl⟩ := h
      exact .inr ⟨rfl, id, rfl⟩

theorem setPrincipalActive_survives {principalId now : String} {active : Bool}
    (h : setPrincipalActive s principalId active now = .ok s')
    (hs : s.hasMspAdminCredential = true) : s'.hasMspAdminCredential = true := by
  obtain ⟨count, hdeactivate⟩ | ⟨-, id, rfl⟩ := setPrincipalActive_cases h
  · exact deactivatePrincipal_survives hdeactivate hs
  · exact Store.withActive_confined.survives_of_untouched hs

theorem grantCapability_confined {principalId capability actorId now : String}
    {clientId : Option String}
    (h : grantCapability s principalId capability clientId actorId now = .ok s') :
    Confined (fun _ => False) s s' := by
  simp only [grantCapability, bind_eq_ok, pure_eq_ok] at h
  obtain ⟨id, -, key, -, client, -, actor, -, -, -, rfl⟩ := h
  unfold upsertGrant
  split
  · exact .elsewhere rfl rfl rfl
  · exact .elsewhere rfl rfl rfl

theorem revokeCapability_confined {principalId capability actorId now : String}
    {clientId : Option String}
    (h : revokeCapability s principalId capability clientId actorId now = .ok s') :
    Confined (fun _ => False) s s' := by
  simp only [revokeCapability, bind_eq_ok, pure_eq_ok] at h
  obtain ⟨id, -, key, -, client, -, actor, -, -, -, rfl⟩ := h
  exact .elsewhere rfl rfl rfl

/-! ## Runs -/

theorem survives_committed {x : Except AccessError Store}
    (h : ∀ s', x = .ok s' → s.hasMspAdminCredential = true → s'.hasMspAdminCredential = true)
    (hs : s.hasMspAdminCredential = true) : (committed s x).hasMspAdminCredential = true :=
  committed_invariant (I := fun s : Store => s.hasMspAdminCredential = true) h hs

theorem survives_committed_fst {α : Type} {x : Except AccessError (Store × α)}
    (h : ∀ s' a, x = .ok (s', a) → s.hasMspAdminCredential = true →
      s'.hasMspAdminCredential = true) (hs : s.hasMspAdminCredential = true) :
    (committed s (x.map Prod.fst)).hasMspAdminCredential = true :=
  committed_map_invariant (I := fun s : Store => s.hasMspAdminCredential = true)
    (fun result => h result.1 result.2) hs

theorem AccessCall.apply_survives (l : AccessCall) (hs : s.hasMspAdminCredential = true) :
    (l.apply rt s).hasMspAdminCredential = true := by
  cases l with
  | createPrincipal principalId kind displayName =>
      rw [AccessCall.apply]
      exact survives_committed
        (fun _ h => (createPrincipal_grows h).survives) hs
  | createPrincipalWithAccess principalId kind displayName clientRoles mspAdmin credential =>
      rw [AccessCall.apply]
      exact survives_committed
        (fun _ h => (createPrincipalWithAccess_grows h).survives) hs
  | addPrincipalCredential principalId credential =>
      rw [AccessCall.apply]
      exact survives_committed_fst
        (fun _ _ h => (addPrincipalCredential_grows h).survives) hs
  | rotatePrincipalCredential principalId credential =>
      rw [AccessCall.apply]
      exact survives_committed_fst (fun _ _ h => rotatePrincipalCredential_survives h) hs
  | revokePrincipalCredential credentialHash =>
      rw [AccessCall.apply]
      exact survives_committed (fun _ h => revokePrincipalCredential_survives h) hs
  | revokeAllPrincipalCredentials principalId actorPrincipalId =>
      rw [AccessCall.apply]
      exact survives_committed_fst (fun _ _ h => revokeAllPrincipalCredentials_survives h) hs
  | addPrincipalClientRole principalId clientId role =>
      rw [AccessCall.apply]
      exact survives_committed
        (fun _ h => (addPrincipalClientRole_grows h).survives) hs
  | removePrincipalClientRole principalId clientId role actorPrincipalId now =>
      rw [AccessCall.apply]
      exact survives_committed
        (fun _ h => (removePrincipalClientRole_confined h).survives_of_untouched) hs
  | addPrincipalGlobalRole principalId role =>
      rw [AccessCall.apply]
      exact survives_committed
        (fun _ h => (addPrincipalGlobalRole_grows h).survives) hs
  | removePrincipalGlobalRole principalId role now =>
      rw [AccessCall.apply]
      exact survives_committed (fun _ h => removePrincipalGlobalRole_survives h) hs
  | setPrincipalActive principalId active now =>
      rw [AccessCall.apply]
      exact survives_committed (fun _ h => setPrincipalActive_survives h) hs
  | deactivatePrincipal principalId actorPrincipalId now =>
      rw [AccessCall.apply]
      exact survives_committed_fst (fun _ _ h => deactivatePrincipal_survives h) hs
  | setPrincipalDisplayName principalId displayName =>
      rw [AccessCall.apply]
      exact survives_committed
        (fun _ h => (setPrincipalDisplayName_grows h).survives) hs
  | grantCapability principalId capability clientId actorId now =>
      rw [AccessCall.apply]
      exact survives_committed
        (fun _ h => (grantCapability_confined h).survives_of_untouched) hs
  | revokeCapability principalId capability clientId actorId now =>
      rw [AccessCall.apply]
      exact survives_committed
        (fun _ h => (revokeCapability_confined h).survives_of_untouched) hs
  | clientsChange clients => exact hs

/-- Once an active principal with `msp_admin` and an active credential exists, one exists after
any further calls, failed ones included. -/
theorem hasMspAdminCredential_run (rt : Runtime) (ls ks : List AccessCall)
    (h : ∃ id, ((access rt).run ls).Armed id) :
    (∃ id, ((access rt).run (ls ++ ks)).Armed id) ∧
      ((access rt).run (ls ++ ks)).hasMspAdminCredential = true := by
  rw [← Store.hasMspAdminCredential_iff] at h ⊢
  have hrun : ((access rt).run (ls ++ ks)).hasMspAdminCredential = true := by
    rw [Machine.run_append]
    exact runFrom_invariant_of_step (I := fun s : Store => s.hasMspAdminCredential = true)
      (fun _ l hs => l.apply_survives hs) h ks
  exact ⟨hrun, hrun⟩

/-- The digests of two credentials, on names that hold nothing to redact. -/
def applianceRuntime : Runtime where
  sha256 credential :=
    if credential = "root-credential" then
      "37cc314458098dfc53821ce82b77b3861c28c26e258f627445c1db4d0bbed72f"
    else "b3983197f57292dd22cbf7f51d6f25cc991862bc24978056838291b64918f14f"
  redactText text := text

def rootRun : List AccessCall :=
  [.createPrincipalWithAccess "root" "staff" "Root" [] true (some "root-credential")]

/-- The last administrator cannot be deactivated, and its credential cannot be revoked. -/
theorem hasMspAdminCredential_run_rootRun :
    ((access applianceRuntime).run (rootRun ++
      [.deactivatePrincipal "root" none "2026-01-05T09:00:00+00:00",
        .revokePrincipalCredential "37cc31445809"])).hasMspAdminCredential = true := by
  refine (hasMspAdminCredential_run applianceRuntime rootRun _ ?_).2
  rw [← Store.hasMspAdminCredential_iff]
  decide

end WaitLocalAgent.Access
