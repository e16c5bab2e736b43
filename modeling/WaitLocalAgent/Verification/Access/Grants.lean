import WaitLocalAgent.Verification.Access.Lockout

/-! # What backs a capability grant

An active grant belongs to an active principal with the role that justified it, as long as
`msp_admin` is only taken from principals whose client grants are backed by client roles too. -/

namespace WaitLocalAgent.Access

open Foundation Tenancy

variable {rt : Runtime} {s s' : Store} {id : NormalizedText}

/-- The role that a grant of this scope needs. -/
def Store.Justifies (s : Store) (id : NormalizedText) : Option ClientId → Prop
  | some clientId => s.hasClientRole id clientId = true ∨ s.isMspAdmin id = true
  | none => s.isMspAdmin id = true

structure CapabilityGrant.Backed (s : Store) (g : CapabilityGrant) : Prop where
  active : s.ActivePrincipal g.principalId
  justified : s.Justifies g.principalId g.clientScope

def Store.GrantsBacked (s : Store) : Prop := ∀ g ∈ s.grants, g.active = true → g.Backed s

theorem Store.hasClientRole_iff {clientId : ClientId} : s.hasClientRole id clientId = true ↔
    ∃ r ∈ s.clientRoles, r.principalId = id ∧ r.clientId = clientId := by
  simp only [hasClientRole, List.any_eq_true, Bool.and_eq_true, beq_iff_eq, Table.mem_def]

/-! ## What keeps a grant backed -/

/-- The principal stays active and loses no role. -/
structure BackingKept (s s' : Store) (id : NormalizedText) : Prop where
  active : s.ActivePrincipal id → s'.ActivePrincipal id
  admin : s.isMspAdmin id = true → s'.isMspAdmin id = true
  clientRole : ∀ clientId, s.hasClientRole id clientId = true → s'.hasClientRole id clientId = true

theorem CapabilityGrant.Backed.mono {g : CapabilityGrant} (h : g.Backed s)
    (hkept : BackingKept s s' g.principalId) : g.Backed s' := by
  refine ⟨hkept.active h.active, ?_⟩
  have hjustified := h.justified
  cases hscope : g.clientScope with
  | none =>
      rw [hscope] at hjustified
      exact hkept.admin hjustified
  | some clientId =>
      rw [hscope] at hjustified
      rcases hjustified with hrole | hadmin
      · exact .inl (hkept.clientRole clientId hrole)
      · exact .inr (hkept.admin hadmin)

/-- The principals of `s` stay active and its roles are all in `s'`. -/
theorem BackingKept.of_rows (hp : ∀ id, s.ActivePrincipal id → s'.ActivePrincipal id)
    (hg : ∀ g ∈ s.globalRoles, g ∈ s'.globalRoles)
    (hr : ∀ r ∈ s.clientRoles, r ∈ s'.clientRoles) : BackingKept s s' id where
  active := hp id
  admin h := by
    obtain ⟨g, hmem, hid⟩ := Store.isMspAdmin_iff.mp h
    exact Store.isMspAdmin_iff.mpr ⟨g, hg g hmem, hid⟩
  clientRole clientId h := by
    obtain ⟨r, hmem, hid, hclient⟩ := Store.hasClientRole_iff.mp h
    exact Store.hasClientRole_iff.mpr ⟨r, hr r hmem, hid, hclient⟩

theorem Store.GrantsBacked.of_kept (hs : s.GrantsBacked)
    (hkept : ∀ g ∈ s'.grants, g.active = true → g ∈ s.grants ∧ BackingKept s s' g.principalId) :
    s'.GrantsBacked := by
  intro g hg hactive
  obtain ⟨hmem, hkept⟩ := hkept g hg hactive
  exact (hs g hmem hactive).mono hkept

/-- A call that leaves the grants alone and only adds rows that back them. -/
theorem Store.GrantsBacked.of_grown (hs : s.GrantsBacked)
    (hp : ∀ id, s.ActivePrincipal id → s'.ActivePrincipal id)
    (hg : ∀ g ∈ s.globalRoles, g ∈ s'.globalRoles)
    (hr : ∀ r ∈ s.clientRoles, r ∈ s'.clientRoles) (hgrants : s'.grants = s.grants) :
    s'.GrantsBacked := by
  apply hs.of_kept
  intro g hmem _
  rw [hgrants] at hmem
  exact ⟨hmem, .of_rows hp hg hr⟩

theorem Grows.grantsBacked (h : Grows s s') (hs : s.GrantsBacked) : s'.GrantsBacked :=
  hs.of_grown h.principals h.globalRoles h.clientRoles h.grants

/-- A grant that is still active is none of those that were deactivated. -/
theorem Store.mem_withoutGrants {now : String} {p : CapabilityGrant → Bool} {g : CapabilityGrant}
    (hg : g ∈ (s.withoutGrants now p).grants) (hactive : g.active = true) :
    g ∈ s.grants ∧ p g = false := by
  simp only [withoutGrants, Table.mem_update] at hg
  obtain ⟨q, hq, rfl⟩ := hg
  split at hactive
  · cases hactive
  · rename_i hp
    simp only [hp, Bool.false_eq_true, if_false]
    exact ⟨hq, trivial⟩

/-! ## The operations -/

theorem rotatePrincipalCredential_grantsBacked {principalId credential hash : String}
    (h : rotatePrincipalCredential rt s principalId credential = .ok (s', hash))
    (hs : s.GrantsBacked) : s'.GrantsBacked := by
  simp only [rotatePrincipalCredential, bind_eq_ok, pure_eq_ok] at h
  obtain ⟨hash, -, id, -, principal, -, -, -, credentials, -, h⟩ := h
  cases h
  exact hs.of_grown (fun _ hactive => hactive) (fun _ hg => hg) (fun _ hr => hr) rfl

theorem revokePrincipalCredential_grantsBacked {credentialHash : String}
    (h : revokePrincipalCredential s credentialHash = .ok s') (hs : s.GrantsBacked) :
    s'.GrantsBacked := by
  simp only [revokePrincipalCredential, bind_eq_ok] at h
  obtain ⟨hash, -, h⟩ := h
  split at h
  · cases h
  · simp only [bind_eq_ok, pure_eq_ok] at h
    obtain ⟨-, -, rfl⟩ := h
    exact hs.of_grown (fun _ hactive => hactive) (fun _ hg => hg) (fun _ hr => hr) rfl

theorem revokeAllPrincipalCredentials_grantsBacked {principalId : String}
    {actorPrincipalId : Option String} {count : ℕ}
    (h : revokeAllPrincipalCredentials s principalId actorPrincipalId = .ok (s', count))
    (hs : s.GrantsBacked) : s'.GrantsBacked := by
  simp only [revokeAllPrincipalCredentials, bind_eq_ok, pure_eq_ok] at h
  obtain ⟨id, -, -, -, principal, -, -, -, h⟩ := h
  cases h
  exact hs.of_grown (fun _ hactive => hactive) (fun _ hg => hg) (fun _ hr => hr) rfl

/-- The grants on the client go with any of its roles, so the others keep what backs them. -/
theorem removePrincipalClientRole_grantsBacked {principalId clientId role now : String}
    {actorPrincipalId : Option String}
    (h : removePrincipalClientRole s principalId clientId role actorPrincipalId now = .ok s')
    (hs : s.GrantsBacked) : s'.GrantsBacked := by
  simp only [removePrincipalClientRole, bind_eq_ok, pure_eq_ok] at h
  obtain ⟨id, -, client, -, -, -, parsed, -, principal, -, -, -, -, -, -, -, rfl⟩ := h
  intro g hg hactive
  obtain ⟨hmem, hleft⟩ := Store.mem_withoutGrants hg hactive
  have hbacked := hs g hmem hactive
  refine ⟨hbacked.active, ?_⟩
  have hjustified := hbacked.justified
  cases hscope : g.clientScope with
  | none =>
      rw [hscope] at hjustified
      exact hjustified
  | some c =>
      rw [hscope] at hjustified
      rcases hjustified with hrole | hadmin
      · left
        obtain ⟨r, hr, hrid, hrclient⟩ := Store.hasClientRole_iff.mp hrole
        refine Store.hasClientRole_iff.mpr ⟨r, Table.mem_delete.mpr ⟨hr, ?_⟩, hrid, hrclient⟩
        simp only [decide_eq_false_iff_not]
        intro hremoved
        rw [hremoved] at hrid hrclient
        simp only [← hrid, hscope, ← hrclient, decide_true, Bool.and_self] at hleft
        cases hleft
      · exact .inr hadmin

theorem deactivatePrincipal_grantsBacked {principalId now : String}
    {actorPrincipalId : Option String} {count : ℕ}
    (h : deactivatePrincipal s principalId actorPrincipalId now = .ok (s', count))
    (hs : s.GrantsBacked) : s'.GrantsBacked := by
  simp only [deactivatePrincipal, bind_eq_ok, pure_eq_ok] at h
  obtain ⟨id, -, -, -, principal, -, -, -, h⟩ := h
  cases h
  apply hs.of_kept
  intro g hg hactive
  obtain ⟨hmem, hleft⟩ :=
    @Store.mem_withoutGrants ((s.withActive id false).withoutCredentials id) now _ g hg hactive
  have hother : g.principalId ≠ id := by simpa using hleft
  refine ⟨hmem, ?_, fun hadmin => hadmin, fun _ hrole => hrole⟩
  intro hactive
  obtain ⟨p, hp, hid, hpactive⟩ := hactive
  refine ⟨p, ?_, hid, hpactive⟩
  simp only [Store.withoutGrants, Store.withoutCredentials, Store.withActive]
  refine Table.mem_update_of_not hp ?_
  simpa [hid] using hother

theorem setPrincipalActive_grantsBacked {principalId now : String} {active : Bool}
    (h : setPrincipalActive s principalId active now = .ok s') (hs : s.GrantsBacked) :
    s'.GrantsBacked := by
  obtain ⟨count, hdeactivate⟩ | ⟨-, id, rfl⟩ := setPrincipalActive_cases h
  · exact deactivatePrincipal_grantsBacked hdeactivate hs
  · exact hs.of_grown (fun id => Store.withActive_confined.principals id not_false)
      (fun _ hg => hg) (fun _ hr => hr) rfl

theorem validateGrantTarget_eq_ok {clientId : Option ClientId}
    (h : validateGrantTarget s id clientId = .ok ()) :
    s.ActivePrincipal id ∧ s.Justifies id clientId := by
  simp only [validateGrantTarget, bind_eq_ok] at h
  obtain ⟨principal, hprincipal, ⟨⟩, hactive, h⟩ := h
  have hmem : principal ∈ s.principals ∧ principal.principalId = id := by
    unfold requirePrincipal at hprincipal
    split at hprincipal
    · rename_i hfind
      cases hprincipal
      exact Table.find?_eq_some_iff.mp hfind
    · cases hprincipal
  rw [raiseIf_eq_ok] at hactive
  refine ⟨⟨principal, hmem.1, hmem.2, by simpa using hactive⟩, ?_⟩
  cases clientId with
  | none =>
      rw [raiseIf_eq_ok] at h
      simpa [Store.Justifies] using h
  | some c =>
      simp only [bind_eq_ok, raiseIf_eq_ok] at h
      obtain ⟨-, -, h⟩ := h
      by_cases hadmin : s.isMspAdmin id = true
      · exact .inr hadmin
      · left
        simpa [hadmin] using h

theorem mem_upsertGrant {capabilityKey actorId now : String} {clientScope : Option ClientId}
    {g : CapabilityGrant}
    (hg : g ∈ (upsertGrant s id capabilityKey clientScope actorId now).grants) :
    g ∈ s.grants ∨ (g.principalId = id ∧ g.clientScope = clientScope) := by
  unfold upsertGrant at hg
  split at hg
  · rename_i hinsert
    rcases (Table.mem_of_insert? hinsert).mp hg with hmem | rfl
    · exact .inl hmem
    · exact .inr ⟨rfl, rfl⟩
  · simp only [Table.mem_update] at hg
    obtain ⟨q, hq, rfl⟩ := hg
    split
    · rename_i hkey
      right
      simp only [decide_eq_true_eq] at hkey
      exact ⟨congrArg Prod.fst hkey, congrArg (fun k => k.2.2) hkey⟩
    · exact .inl hq

theorem upsertGrant_kept {principalId : NormalizedText} {capabilityKey actorId now : String}
    {clientScope : Option ClientId} :
    BackingKept s (upsertGrant s principalId capabilityKey clientScope actorId now) id := by
  unfold upsertGrant
  split
  · exact ⟨fun h => h, fun h => h, fun _ h => h⟩
  · exact ⟨fun h => h, fun h => h, fun _ h => h⟩

theorem grantCapability_grantsBacked {principalId capability actorId now : String}
    {clientId : Option String}
    (h : grantCapability s principalId capability clientId actorId now = .ok s')
    (hs : s.GrantsBacked) : s'.GrantsBacked := by
  simp only [grantCapability, bind_eq_ok, pure_eq_ok] at h
  obtain ⟨id, -, key, -, client, -, actor, -, ⟨⟩, hvalid, rfl⟩ := h
  obtain ⟨hprincipal, hjustified⟩ := validateGrantTarget_eq_ok hvalid
  intro g hg hactive
  have hbacked : g.Backed s := by
    rcases mem_upsertGrant hg with hmem | ⟨hid, hscope⟩
    · exact hs g hmem hactive
    · refine ⟨?_, ?_⟩
      · rwa [hid]
      · rwa [hid, hscope]
  exact hbacked.mono upsertGrant_kept

theorem revokeCapability_grantsBacked {principalId capability actorId now : String}
    {clientId : Option String}
    (h : revokeCapability s principalId capability clientId actorId now = .ok s')
    (hs : s.GrantsBacked) : s'.GrantsBacked := by
  simp only [revokeCapability, bind_eq_ok, pure_eq_ok] at h
  obtain ⟨id, -, key, -, client, -, actor, -, -, -, rfl⟩ := h
  apply hs.of_kept
  intro g hg hactive
  simp only [Table.mem_update] at hg
  obtain ⟨q, hq, rfl⟩ := hg
  split at hactive
  · cases hactive
  · rename_i hkey
    rw [if_neg hkey]
    exact ⟨hq, fun h => h, fun h => h, fun _ h => h⟩

/-! ## Removing `msp_admin` -/

/-- A removal of `msp_admin` that goes through finds a client role behind every active client
grant of its principal. -/
def RemovesBacked (s : Store) (l : AccessCall) : Prop :=
  ∀ principalId role now, l = .removePrincipalGlobalRole principalId role now →
    ∀ id, normalizeClientId (some principalId) = some id →
      Text.lower (Text.strip role) = "msp_admin" → ∀ p ∈ s.principals, p.principalId = id →
      s.isMspAdmin id = true → guardLastMspAdmin s id false = .ok () →
      (p.active = true → ∃ r ∈ s.clientRoles, r.principalId = id) →
        ∀ g ∈ s.grants, g.principalId = id → g.active = true →
          ∀ clientId, g.clientScope = some clientId → s.hasClientRole id clientId = true

/-- What a removal of `msp_admin` finds and leaves. -/
structure Removal (principalId role now : String) (id : NormalizedText) (p : Principal)
    (s s' : Store) : Prop where
  id_eq : normalizeClientId (some principalId) = some id
  label : Text.lower (Text.strip role) = "msp_admin"
  mem : p ∈ s.principals
  principal : p.principalId = id
  admin : s.isMspAdmin id = true
  guarded : guardLastMspAdmin s id false = .ok ()
  remaining : p.active = true → ∃ r ∈ s.clientRoles, r.principalId = id
  result : s' = ({ s with
    globalRoles := s.globalRoles.delete fun g => g.principalId = id }).withoutGrants now
      fun g => g.principalId = id && g.clientScope = none

theorem required_eq_ok {value message : String} {text : NormalizedText} :
    required value message = .ok text ↔ normalizeClientId (some value) = some text := by
  unfold required
  split
  · rename_i heq
    simp [heq]
  · rename_i heq
    simp [heq]

theorem requirePrincipal_eq_ok {p : Principal} :
    requirePrincipal s id = .ok p ↔ p ∈ s.principals ∧ p.principalId = id := by
  rw [← Table.find?_eq_some_iff, requirePrincipal]
  split
  · rename_i hfind
    simp [hfind]
  · rename_i hfind
    simp [hfind]

theorem removePrincipalGlobalRole_eq_ok {principalId role now : String} :
    removePrincipalGlobalRole s principalId role now = .ok s' ↔
      ∃ id p, Removal principalId role now id p s s' := by
  simp only [removePrincipalGlobalRole, requireMspAdminLabel, bind_eq_ok, pure_eq_ok,
    required_eq_ok, requirePrincipal_eq_ok, raiseIf_eq_ok]
  constructor
  · intro h
    obtain ⟨id, hid, -, hlabel, p, hp, ⟨⟩, hadmin, ⟨⟩, hguard, ⟨⟩, hscope, rfl⟩ := h
    refine ⟨id, p, hid, not_not.mp hlabel, hp.1, hp.2, by simpa using hadmin, hguard, ?_, rfl⟩
    intro hactive
    by_contra hnone
    apply hscope
    refine ⟨hactive, ?_⟩
    intro hany
    obtain ⟨r, hr, hrid⟩ := List.any_eq_true.mp hany
    exact hnone ⟨r, hr, beq_iff_eq.mp hrid⟩
  · intro h
    obtain ⟨id, p, h⟩ := h
    refine ⟨id, h.id_eq, (), by simp [h.label], p, ⟨h.mem, h.principal⟩, (), by simp [h.admin],
      (), h.guarded, (), ?_, h.result.symm⟩
    intro hbad
    obtain ⟨r, hr, hid⟩ := h.remaining hbad.1
    exact hbad.2 (List.any_eq_true.mpr ⟨r, hr, beq_iff_eq.mpr hid⟩)

/-- A removal keeps the grants backed exactly if client roles back the client grants of its
principal. -/
theorem Removal.grantsBacked_iff {principalId role now : String} {p : Principal}
    (h : Removal principalId role now id p s s') (hs : s.GrantsBacked) :
    s'.GrantsBacked ↔ ∀ g ∈ s.grants, g.principalId = id → g.active = true →
      ∀ clientId, g.clientScope = some clientId → s.hasClientRole id clientId = true := by
  have hresult := h.result
  constructor
  · intro hbacked g hg hid hactive clientId hscope
    have hkept : g ∈ s'.grants := by
      simp only [hresult, Store.withoutGrants]
      exact Table.mem_update_of_not hg (by simp [hscope])
    have hjustified := (hbacked g hkept hactive).justified
    rw [hscope, hid] at hjustified
    rcases hjustified with hrole | hadmin
    · simpa [hresult, Store.withoutGrants, Store.hasClientRole] using hrole
    · obtain ⟨a, ha, haid⟩ := Store.isMspAdmin_iff.mp hadmin
      simp only [hresult, Store.withoutGrants, Table.mem_delete] at ha
      simp [haid] at ha
  · intro hroles g hg hactive
    rw [hresult] at hg
    obtain ⟨hmem, hleft⟩ := Store.mem_withoutGrants hg hactive
    have hbacked := hs g hmem hactive
    by_cases hid : g.principalId = id
    · refine ⟨?_, ?_⟩
      · rw [hresult]
        exact hbacked.active
      · cases hscope : g.clientScope with
        | none => simp [hid, hscope] at hleft
        | some clientId =>
            left
            rw [hid, hresult]
            exact hroles g hmem hid hactive clientId hscope
    · apply hbacked.mono
      rw [hresult]
      refine ⟨fun h => h, ?_, fun _ h => h⟩
      intro hadmin
      obtain ⟨a, ha, haid⟩ := Store.isMspAdmin_iff.mp hadmin
      refine Store.isMspAdmin_iff.mpr ⟨a, ?_, haid⟩
      simp only [Store.withoutGrants, Table.mem_delete]
      exact ⟨ha, by simpa [haid] using hid⟩

theorem grantsBacked_removal_iff {principalId role now : String} (hs : s.GrantsBacked) :
    (AccessCall.apply rt s (.removePrincipalGlobalRole principalId role now)).GrantsBacked ↔
      RemovesBacked s (.removePrincipalGlobalRole principalId role now) := by
  rw [AccessCall.apply]
  cases hok : Access.removePrincipalGlobalRole s principalId role now with
  | error e =>
      refine iff_of_true hs ?_
      intro _ _ _ hl id hid hlabel p hp hpid hadmin hguard hremaining
      cases hl
      have hcall : Access.removePrincipalGlobalRole s principalId role now = .ok _ :=
        removePrincipalGlobalRole_eq_ok.mpr
          ⟨id, p, hid, hlabel, hp, hpid, hadmin, hguard, hremaining, rfl⟩
      rw [hok] at hcall
      cases hcall
  | ok s' =>
      obtain ⟨id, p, h⟩ := removePrincipalGlobalRole_eq_ok.mp hok
      rw [committed, h.grantsBacked_iff hs]
      constructor
      · intro hroles _ _ _ hl id' hid' _ _ _ _ _ _ _
        cases hl
        rw [h.id_eq, Option.some.injEq] at hid'
        rw [← hid']
        exact hroles
      · intro hguard
        exact hguard principalId role now rfl id h.id_eq h.label p h.mem h.principal h.admin
          h.guarded h.remaining

/-! ## Runs -/

theorem grantsBacked_committed {x : Except AccessError Store}
    (h : ∀ s', x = .ok s' → s.GrantsBacked → s'.GrantsBacked) (hs : s.GrantsBacked) :
    (committed s x).GrantsBacked :=
  committed_invariant (I := Store.GrantsBacked) h hs

theorem grantsBacked_committed_fst {α : Type} {x : Except AccessError (Store × α)}
    (h : ∀ s' a, x = .ok (s', a) → s.GrantsBacked → s'.GrantsBacked) (hs : s.GrantsBacked) :
    (committed s (x.map Prod.fst)).GrantsBacked :=
  committed_map_invariant (I := Store.GrantsBacked) (fun result => h result.1 result.2) hs

theorem removesBacked_of_ne {l : AccessCall}
    (hl : ∀ principalId role now, l ≠ .removePrincipalGlobalRole principalId role now) :
    RemovesBacked s l := by
  intro principalId role now h
  exact absurd h (hl principalId role now)

theorem grantsBacked_step_iff (l : AccessCall) (hs : s.GrantsBacked) :
    (l.apply rt s).GrantsBacked ↔ RemovesBacked s l := by
  cases l with
  | removePrincipalGlobalRole principalId role now => exact grantsBacked_removal_iff hs
  | createPrincipal principalId kind displayName =>
      rw [AccessCall.apply]
      exact iff_of_true
        (grantsBacked_committed (fun _ h => (createPrincipal_grows h).grantsBacked) hs)
        (removesBacked_of_ne (by simp))
  | createPrincipalWithAccess principalId kind displayName clientRoles mspAdmin credential =>
      rw [AccessCall.apply]
      exact iff_of_true
        (grantsBacked_committed (fun _ h => (createPrincipalWithAccess_grows h).grantsBacked) hs)
        (removesBacked_of_ne (by simp))
  | addPrincipalCredential principalId credential =>
      rw [AccessCall.apply]
      exact iff_of_true
        (grantsBacked_committed_fst (fun _ _ h => (addPrincipalCredential_grows h).grantsBacked) hs)
        (removesBacked_of_ne (by simp))
  | rotatePrincipalCredential principalId credential =>
      rw [AccessCall.apply]
      exact iff_of_true
        (grantsBacked_committed_fst (fun _ _ => rotatePrincipalCredential_grantsBacked) hs)
        (removesBacked_of_ne (by simp))
  | revokePrincipalCredential credentialHash =>
      rw [AccessCall.apply]
      exact iff_of_true
        (grantsBacked_committed (fun _ => revokePrincipalCredential_grantsBacked) hs)
        (removesBacked_of_ne (by simp))
  | revokeAllPrincipalCredentials principalId actorPrincipalId =>
      rw [AccessCall.apply]
      exact iff_of_true
        (grantsBacked_committed_fst (fun _ _ => revokeAllPrincipalCredentials_grantsBacked) hs)
        (removesBacked_of_ne (by simp))
  | addPrincipalClientRole principalId clientId role =>
      rw [AccessCall.apply]
      exact iff_of_true
        (grantsBacked_committed (fun _ h => (addPrincipalClientRole_grows h).grantsBacked) hs)
        (removesBacked_of_ne (by simp))
  | removePrincipalClientRole principalId clientId role actorPrincipalId now =>
      rw [AccessCall.apply]
      exact iff_of_true
        (grantsBacked_committed (fun _ => removePrincipalClientRole_grantsBacked) hs)
        (removesBacked_of_ne (by simp))
  | addPrincipalGlobalRole principalId role =>
      rw [AccessCall.apply]
      exact iff_of_true
        (grantsBacked_committed (fun _ h => (addPrincipalGlobalRole_grows h).grantsBacked) hs)
        (removesBacked_of_ne (by simp))
  | setPrincipalActive principalId active now =>
      rw [AccessCall.apply]
      exact iff_of_true (grantsBacked_committed (fun _ => setPrincipalActive_grantsBacked) hs)
        (removesBacked_of_ne (by simp))
  | deactivatePrincipal principalId actorPrincipalId now =>
      rw [AccessCall.apply]
      exact iff_of_true
        (grantsBacked_committed_fst (fun _ _ => deactivatePrincipal_grantsBacked) hs)
        (removesBacked_of_ne (by simp))
  | setPrincipalDisplayName principalId displayName =>
      rw [AccessCall.apply]
      exact iff_of_true
        (grantsBacked_committed (fun _ h => (setPrincipalDisplayName_grows h).grantsBacked) hs)
        (removesBacked_of_ne (by simp))
  | grantCapability principalId capability clientId actorId now =>
      rw [AccessCall.apply]
      exact iff_of_true (grantsBacked_committed (fun _ => grantCapability_grantsBacked) hs)
        (removesBacked_of_ne (by simp))
  | revokeCapability principalId capability clientId actorId now =>
      rw [AccessCall.apply]
      exact iff_of_true (grantsBacked_committed (fun _ => revokeCapability_grantsBacked) hs)
        (removesBacked_of_ne (by simp))
  | clientsChange clients =>
      exact iff_of_true
        (hs.of_grown (fun _ hactive => hactive) (fun _ hg => hg) (fun _ hr => hr) rfl)
        (removesBacked_of_ne (by simp))

/-- The active grants stay backed in all states of a run exactly if the run takes `msp_admin` only
from principals whose active client grants are backed by client roles. -/
theorem grantsBacked_run_iff (rt : Runtime) (ls : List AccessCall) :
    (∀ ks, ks <+: ls → ∀ g ∈ ((access rt).run ks).grants, g.active = true →
      g.Backed ((access rt).run ks)) ↔ (access rt).Guarded RemovesBacked ls := by
  have hinit : Store.GrantsBacked (access rt).init := by
    intro g hg
    simp [access, Store.fresh] at hg
  exact Machine.forall_prefix_iff_guarded (J := fun _ => True) hinit trivial (fun _ _ _ => trivial)
    (fun _ l _ hs => grantsBacked_step_iff l hs) ls

def bolt : ClientId := ⟨"bolt", by decide, by decide⟩

def servicedClients : Table Client.clientId where
  rows := [⟨quarantineClientId, "Unmapped / Quarantine", .quarantine⟩, ⟨acme, "Acme", .active⟩,
    ⟨bolt, "Bolt", .active⟩]
  nodup := by decide

/-- A grant on a client without a client role outlives the `msp_admin` role behind it. -/
def outlivedRun : List AccessCall :=
  [.clientsChange servicedClients,
    .createPrincipalWithAccess "root" "staff" "Root" [] true (some "root-credential"),
    .createPrincipalWithAccess "sam" "staff" "Sam" [("acme", "technician")] true
      (some "second-credential"),
    .grantCapability "sam" "microsoft_admin" (some "bolt") "root" "2026-01-05T09:00:00+00:00",
    .removePrincipalGlobalRole "sam" "msp_admin" "2026-01-05T10:00:00+00:00"]

theorem not_grantsBacked : ¬ ∀ ls, ∀ g ∈ ((access applianceRuntime).run ls).grants,
    g.active = true → g.Backed ((access applianceRuntime).run ls) := by
  intro h
  have hgrant : ∃ g ∈ ((access applianceRuntime).run outlivedRun).grants.rows,
      g.active = true ∧ g.clientScope = some bolt ∧
        ((access applianceRuntime).run outlivedRun).hasClientRole g.principalId bolt = false ∧
        ((access applianceRuntime).run outlivedRun).isMspAdmin g.principalId = false := by decide
  obtain ⟨g, hg, hactive, hscope, hrole, hadmin⟩ := hgrant
  have hjustified := (h outlivedRun g hg hactive).justified
  rw [hscope, Store.Justifies, hrole, hadmin] at hjustified
  rcases hjustified with hrole | hadmin
  · cases hrole
  · cases hadmin

end WaitLocalAgent.Access
