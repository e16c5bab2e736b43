import WaitLocalAgent.Verification.Tickets.Writes

/-! # The writes of each operation

Local ingestion writes for its client; provider ingestion writes for the clients that the
companies of its records are verified for, and for quarantine. -/

namespace WaitLocalAgent.Tenancy

open Foundation Relation

theorem required_eq_ok {value : Option String} {message : String} {text : NormalizedText} :
    required value message = .ok text ↔ normalizeClientId value = some text := by
  unfold required
  split
  · rename_i heq
    simp [heq]
  · rename_i heq
    simp [heq]

section Setup

variable {ρ : Type} {rt : Runtime ρ} {s s' : Store} {owned : ClientId → Prop}

theorem createClient_eq {clientId name : String}
    (h : createClient rt s clientId name = .ok s') : s' = { s with clients := s'.clients } := by
  simp only [createClient, bind_eq_ok] at h
  obtain ⟨id, -, _, -, _, -, h⟩ := h
  split at h
  · cases h
    rfl
  · cases h

theorem setClientStatus_eq {scope : ClientScope} {clientId status : String}
    (h : setClientStatus s scope clientId status = .ok s') :
      s' = { s with clients := s'.clients } := by
  unfold setClientStatus at h
  split at h
  · cases h
    rfl
  · simp only [bind_eq_ok] at h
    obtain ⟨_, -, h⟩ := h
    split at h
    · cases h
    · cases h
      rfl

theorem createConnectorInstance_eq {id : NormalizedText}
    {connectorType displayName : String} {clientId : Option String}
    (h : createConnectorInstance rt s id connectorType displayName clientId = .ok s') :
    s' = { s with instances := s'.instances } := by
  simp only [createConnectorInstance, bind_eq_ok] at h
  obtain ⟨_, -, _, -, _, -, _, -, _, -, h⟩ := h
  split at h
  · cases h
    rfl
  · cases h

theorem updateConnectorInstance_eq {connectorInstanceId : String} {fields : InstanceFields}
    (h : updateConnectorInstance s connectorInstanceId fields = .ok s') :
    s' = { s with instances := s'.instances } := by
  unfold updateConnectorInstance at h
  split at h
  · cases h
    rfl
  · simp only [bind_eq_ok] at h
    obtain ⟨connectorType, -, displayName, -, _, -, status, -, _, -, h⟩ := h
    split at h
    · cases h
      rfl
    · rw [bind_eq_ok] at h
      obtain ⟨_, -, h⟩ := h
      cases h
      rfl

theorem createClientConnectorMapping_eq {scope : ClientScope}
    {mappingId : NormalizedText} {connectorInstanceId externalCompanyId clientId : String}
    {externalCompanyName : Option String}
    (h : createClientConnectorMapping rt s scope mappingId connectorInstanceId externalCompanyId
      clientId externalCompanyName = .ok s') : s' = { s with mappings := s'.mappings } := by
  simp only [createClientConnectorMapping, bind_eq_ok] at h
  obtain ⟨instanceId, -, companyId, -, client, -, _, -, _, -, _, -, h⟩ := h
  split at h
  · cases h
    rfl
  · cases h

theorem createClient_writes {clientId name : String}
    (h : createClient rt s clientId name = .ok s') : Writes owned s s' := by
  rw [createClient_eq h]
  exact .single (.elsewhere rfl (.of_eq rfl))

theorem setClientStatus_writes {scope : ClientScope} {clientId status : String}
    (h : setClientStatus s scope clientId status = .ok s') : Writes owned s s' := by
  rw [setClientStatus_eq h]
  exact .single (.elsewhere rfl (.of_eq rfl))

theorem createConnectorInstance_writes {id : NormalizedText} {connectorType displayName : String}
    {clientId : Option String}
    (h : createConnectorInstance rt s id connectorType displayName clientId = .ok s') :
    Writes owned s s' := by
  rw [createConnectorInstance_eq h]
  exact .single (.elsewhere rfl (.of_eq rfl))

theorem updateConnectorInstance_writes {connectorInstanceId : String} {fields : InstanceFields}
    (h : updateConnectorInstance s connectorInstanceId fields = .ok s') : Writes owned s s' := by
  rw [updateConnectorInstance_eq h]
  exact .single (.elsewhere rfl (.of_eq rfl))

theorem createClientConnectorMapping_writes {scope : ClientScope} {mappingId : NormalizedText}
    {connectorInstanceId externalCompanyId clientId : String} {externalCompanyName : Option String}
    (h : createClientConnectorMapping rt s scope mappingId connectorInstanceId externalCompanyId
      clientId externalCompanyName = .ok s') : Writes owned s s' := by
  simp only [createClientConnectorMapping, bind_eq_ok] at h
  obtain ⟨instanceId, -, companyId, -, client, -, -, -, -, -, -, -, h⟩ := h
  split at h
  · rename_i mappings hinsert
    cases h
    refine .single (.elsewhere rfl ?_)
    intro m hm _
    exact (Table.mem_of_insert? hinsert).mpr (.inl hm)
  · cases h

theorem recordUnmapped_eq {seen : Sighting} {createdAt : String} {recordId : NormalizedText}
    (h : recordUnmapped s seen createdAt recordId = .ok s') :
    s' = { s with unmapped := s'.unmapped } := by
  unfold recordUnmapped at h
  split at h
  · cases h
  · split at h
    · cases h
      rfl
    · split at h
      · cases h
        rfl
      · cases h

theorem recordUnmappedRecord_eq {connectorInstanceId : String}
    {externalCompanyId externalId : Option String} {recordType : String}
    {payloadDigest : Option String} {reason createdAt : String} {recordId : NormalizedText}
    (h : recordUnmappedRecord s connectorInstanceId externalCompanyId externalId recordType
      payloadDigest reason createdAt recordId = .ok s') :
        s' = { s with unmapped := s'.unmapped } := by
  simp only [recordUnmappedRecord, bind_eq_ok] at h
  obtain ⟨instanceId, -, normalizedType, -, normalizedReason, -, h⟩ := h
  exact recordUnmapped_eq h

theorem resolveUnmappedRecord_eq {recordId now : String}
    (h : resolveUnmappedRecord s recordId now = .ok s') :
    s' = { s with unmapped := s'.unmapped } := by
  unfold resolveUnmappedRecord at h
  split at h
  · cases h
    rfl
  · cases h
    rfl

theorem Writes.of_unmapped (h : s' = { s with unmapped := s'.unmapped }) : Writes owned s s' := by
  rw [h]
  exact .single (.elsewhere rfl (.of_eq rfl))

end Setup

variable {rt : Runtime TicketInput} {s s' : Store} {owned : ClientId → Prop} {clientId : ClientId}

theorem recordTicketStatusHistory_writes
    {ticketId fromStatus toStatus changedAt source : String} :
    Write owned s (recordTicketStatusHistory rt s ticketId clientId fromStatus toStatus changedAt
      source) :=
  .elsewhere rfl (.of_eq rfl)

/-! ## Local ingestion -/

theorem upsertLocalTicket_writes {row : Ticket} (hrow : row.connectorInstanceId = none)
    (h : upsertLocalTicket s row = .ok s') : Write (· = row.clientId) s s' := by
  unfold upsertLocalTicket at h
  split at h
  · rename_i existing hfind
    split at h
    · cases h
    · split at h
      · cases h
      · rename_i hclient
        cases h
        refine .update row.overwriteById_id rfl (.of_eq rfl) ?_
        intro t ht hid
        have hsame : t = existing := by
          apply Table.eq_of_key_eq ht (Table.mem_of_find?_eq_some hfind)
          rw [Table.key_of_find?_eq_some hfind]
          simpa using hid
        have howner : t.clientId = row.clientId := by
          rw [hsame]
          simpa using hclient
        exact {
          owned := howner
          clientId := howner.symm
          identified := fun _ => .of_unlinked hrow
          backed := fun _ => .of_unlinked hrow }
  · split at h
    · rename_i tickets hinsert
      cases h
      exact .insert hinsert (.of_eq rfl) (.of_unlinked hrow) (.of_unlinked hrow)
    · cases h

theorem writeIngestedTicket_writes {now : String} {t : TicketInput}
    (h : writeIngestedTicket rt now clientId s t = .ok s') : Writes (· = clientId) s s' := by
  simp only [writeIngestedTicket, bind_eq_ok] at h
  obtain ⟨written, hupsert, h⟩ := h
  have hwrite : Write (· = clientId) s written := upsertLocalTicket_writes rfl hupsert
  split at h
  · cases h
    exact .tail (.single hwrite) recordTicketStatusHistory_writes
  · cases h
    exact .single hwrite

theorem ingestEach_writes (tickets : List (TicketInput × String)) :
    Writes (· = clientId) s (ingestEach rt clientId s tickets).1 := by
  induction tickets generalizing s with
  | nil => exact .refl
  | cons ticket tickets ih =>
      rw [ingestEach]
      split
      · exact .refl
      · split
        · exact .refl
        · rename_i hwrite
          split
          · exact writeIngestedTicket_writes hwrite
          · exact (writeIngestedTicket_writes hwrite).trans ih

theorem ingestTickets_writes {clientId : String} {tickets : List (TicketInput × String)} :
    Writes (fun c => normalizeClientId (some clientId) = some c) s
      (ingestTickets rt s clientId tickets).1 := by
  unfold ingestTickets
  split
  · exact .refl
  · rename_i normalizedId hnormalized
    split
    · exact .refl
    · have hwrites : Writes (fun c => normalizeClientId (some clientId) = some c) s
          (ingestEach rt normalizedId s tickets).1 := by
        refine (ingestEach_writes tickets).mono ?_
        intro c hc
        rw [hc, hnormalized]
      split
      · rename_i heq
        rwa [heq] at hwrites
      · rename_i heq
        rwa [heq] at hwrites

/-! ## End-user tickets -/

theorem allocateEndUserTicket_writes {request : EndUserRequest} {now : String}
    {ids : List String}
    (h : allocateEndUserTicket rt s request now clientId ids = .ok s') : Writes owned s s' := by
  induction ids with
  | nil => cases h
  | cons id ids ih =>
      rw [allocateEndUserTicket] at h
      split at h
      · cases h
      · split at h
        · rename_i hinsert
          cases h
          exact .single (.insert hinsert (.of_eq rfl) (.of_unlinked rfl) (.of_unlinked rfl))
        · exact ih h

theorem createEndUserTicket_writes {request : EndUserRequest} {now id₁ id₂ id₃ : String}
    (h : createEndUserTicket rt s request now id₁ id₂ id₃ = .ok s') : Writes owned s s' := by
  simp only [createEndUserTicket, bind_eq_ok] at h
  obtain ⟨clientId, -, -, -, -, -, -, -, h⟩ := h
  exact allocateEndUserTicket_writes h

theorem escalateEndUserTicket_writes {ticketId clientId requesterId now : String}
    (h : escalateEndUserTicket rt s ticketId clientId requesterId now = .ok s') :
    Writes (fun _ => True) s s' := by
  unfold escalateEndUserTicket at h
  split at h
  · cases h
    exact .refl
  · split at h
    · cases h
      exact .refl
    · simp only [bind_eq_ok] at h
      obtain ⟨-, -, h⟩ := h
      have hwrite : ∀ history, Write (fun _ => True) s
          { s with
            tickets := s.tickets.update (fun t => t.id = ticketId) (Ticket.escalate now)
              (Ticket.escalate_id now)
            history } := by
        intro history
        refine .update (Ticket.escalate_id now) rfl (.of_eq rfl) ?_
        intro t _ _
        exact ⟨trivial, rfl, id, id⟩
      split at h
      · cases h
        exact .single (hwrite _)
      · cases h
        exact .single (hwrite _)

/-! ## Provider ingestion -/

/-- The client that the tickets of an external company go to. -/
def Store.companyOwner (s : Store) (instanceId companyId : NormalizedText) : ClientId :=
  match s.verifiedClients instanceId companyId with
  | [clientId] => clientId
  | _ => quarantineClientId

theorem Store.verified_of_verifiedClients {instanceId companyId : NormalizedText}
    (h : s.verifiedClients instanceId companyId = [clientId]) :
    s.Verified instanceId companyId clientId := by
  have hmem : clientId ∈ s.verifiedClients instanceId companyId := by simp [h]
  simp only [verifiedClients, List.mem_map, List.mem_filter, Bool.and_eq_true, beq_iff_eq] at hmem
  obtain ⟨m, ⟨hm, ⟨⟨hinstance, hcompany⟩, hverified⟩, -⟩, hclient⟩ := hmem
  exact ⟨m, hm, hinstance, hcompany, hclient, hverified⟩

theorem Store.findByIdentity?_eq_some {instanceId externalId : NormalizedText} {t : Ticket}
    (h : s.findByIdentity? instanceId externalId = some t) :
    t ∈ s.tickets ∧ t.connectorInstanceId = some instanceId ∧ t.externalId = some externalId := by
  have hprop := List.find?_some h
  simp only [Bool.and_eq_true, beq_iff_eq] at hprop
  exact ⟨List.mem_of_find?_eq_some h, hprop.1, hprop.2⟩

theorem upsertProviderTicket_writes {new : Ticket} {instanceId externalId : NormalizedText}
    {ticketId previousStatus : String} {persisted : Bool}
    (hinstance : new.connectorInstanceId = some instanceId)
    (hexternal : new.externalId = some externalId) (hbacked : new.Backed s)
    (h : upsertProviderTicket s new instanceId externalId =
      .ok (s', ticketId, previousStatus, persisted)) : Write (· = new.clientId) s s' := by
  have hidentified : new.Identified := by
    intro _
    simp [hexternal]
  unfold upsertProviderTicket at h
  split at h
  · rename_i existing hfind
    obtain ⟨hmem, hlinked, hext⟩ := Store.findByIdentity?_eq_some hfind
    split at h
    · cases h
      exact .elsewhere rfl (.of_eq rfl)
    · rename_i hclient
      cases h
      refine .update new.overwriteByIdentity_id rfl (.of_eq rfl) ?_
      intro t ht hid
      have hsame : t = existing := Table.eq_of_key_eq ht hmem (by simpa using hid)
      have howner : t.clientId = new.clientId := by
        rw [hsame]
        simpa using hclient
      refine ⟨howner, howner.symm, ?_, ?_⟩
      · intro hid hsome
        exact hid hsome
      · intro _ i e hi he hne
        refine hbacked i e ?_ he hne
        rw [hinstance, ← hlinked, ← hsame]
        exact hi
  · split at h
    · rename_i hinsert
      cases h
      exact .insert hinsert (.of_eq rfl) hidentified hbacked
    · cases h

variable {sourceSystem : String} {r : ProviderRecord}

theorem quarantineRecord_writes {stamp : Stamp}
    (h : quarantineRecord rt sourceSystem stamp s r = .ok s') :
    Writes (· = quarantineClientId) s s' := by
  simp only [quarantineRecord, bind_eq_ok] at h
  obtain ⟨⟨written, ticketId, previousStatus, persisted⟩, hupsert, h⟩ := h
  have hwrite : Write (· = quarantineClientId) s written := by
    refine upsertProviderTicket_writes rfl rfl ?_ hupsert
    intro i e _ _ hne
    exact absurd rfl hne
  exact .trans (.single hwrite) (Writes.of_unmapped (recordUnmapped_eq h))

theorem tenantRecord_writes {stamp : Stamp}
    {written : Option String} (hv : s.Verified r.instanceId r.companyId clientId)
    (h : tenantRecord rt sourceSystem stamp clientId s r = .ok (s', written)) :
    Writes (· = clientId) s s' := by
  simp only [tenantRecord, bind_eq_ok] at h
  obtain ⟨⟨upserted, ticketId, previousStatus, persisted⟩, hupsert, h⟩ := h
  have hwrite : Write (· = clientId) s upserted := by
    refine upsertProviderTicket_writes rfl rfl ?_ hupsert
    intro i e hi he _
    cases hi
    cases he
    exact hv
  split at h
  · simp only [bind_eq_ok] at h
    obtain ⟨sighted, hsight, h⟩ := h
    cases h
    exact .trans (.single hwrite) (Writes.of_unmapped (recordUnmapped_eq hsight))
  · split at h
    · cases h
      exact .tail (.single hwrite) recordTicketStatusHistory_writes
    · cases h
      exact .single hwrite

theorem checkProviderRecord_eq_ok {instanceId : NormalizedText}
    {record : TicketInput}
    (h : checkProviderRecord instanceId sourceSystem record = .ok r) :
    r.instanceId = instanceId ∧ normalizeClientId record.externalId = some r.externalId ∧
      normalizeClientId record.externalClientId = some r.companyId := by
  simp only [checkProviderRecord, bind_eq_ok] at h
  obtain ⟨-, -, -, -, h⟩ := h
  split at h
  · rename_i externalId companyId hexternal hcompany
    simp only [bind_eq_ok] at h
    obtain ⟨-, -, h⟩ := h
    cases h
    exact ⟨rfl, hexternal, hcompany⟩
  · cases h

theorem ingestProviderRecord_writes {connector : ConnectorInstance}
    {progress progress' : IngestProgress} {recordStamp : TicketInput × Stamp}
    (h : ingestProviderRecord rt connector (s, progress) recordStamp = .ok (s', progress')) :
    Writes (fun c => ∃ companyId, normalizeClientId recordStamp.1.externalClientId =
      some companyId ∧ s.companyOwner connector.connectorInstanceId companyId = c) s s' := by
  obtain ⟨record, stamp⟩ := recordStamp
  simp only [ingestProviderRecord, bind_eq_ok] at h
  obtain ⟨r, hcheck, h⟩ := h
  obtain ⟨hinstance, -, hcompany⟩ := checkProviderRecord_eq_ok hcheck
  have howner : ∀ c, s.companyOwner r.instanceId r.companyId = c → ∃ companyId,
      normalizeClientId record.externalClientId = some companyId ∧
        s.companyOwner connector.connectorInstanceId companyId = c := by
    intro c hc
    exact ⟨r.companyId, hcompany, by rw [← hinstance, hc]⟩
  split at h
  · rename_i clientId hclients
    simp only [bind_eq_ok] at h
    obtain ⟨-, -, ⟨written, stored⟩, htenant, h⟩ := h
    have hwrites : Writes (· = clientId) s written :=
      tenantRecord_writes (Store.verified_of_verifiedClients hclients) htenant
    have hwider : ∀ c, c = clientId → ∃ companyId,
        normalizeClientId record.externalClientId = some companyId ∧
          s.companyOwner connector.connectorInstanceId companyId = c := by
      intro c hc
      apply howner
      rw [Store.companyOwner, hclients, hc]
    split at h
    · cases h
      exact hwrites.mono hwider
    · cases h
      exact hwrites.mono hwider
  · rename_i hclients
    simp only [bind_eq_ok] at h
    obtain ⟨written, hquarantine, h⟩ := h
    cases h
    refine (quarantineRecord_writes hquarantine).mono ?_
    intro c hc
    apply howner
    unfold Store.companyOwner
    split
    · rename_i clientId hsingle
      exact absurd hsingle (hclients clientId)
    · exact hc.symm

/-- Clients and mappings stay as they are. -/
structure SameRegistry (s s' : Store) : Prop where
  clients : s'.clients = s.clients
  mappings : s'.mappings = s.mappings

theorem SameRegistry.trans {t : Store} (h : SameRegistry s t) (h' : SameRegistry t s') :
    SameRegistry s s' :=
  ⟨h'.clients.trans h.clients, h'.mappings.trans h.mappings⟩

theorem SameRegistry.companyOwner (h : SameRegistry s s') (instanceId companyId : NormalizedText) :
    s'.companyOwner instanceId companyId = s.companyOwner instanceId companyId := by
  simp only [Store.companyOwner, Store.verifiedClients, h.clients, h.mappings]

theorem recordUnmapped_registry {seen : Sighting} {createdAt : String} {recordId : NormalizedText}
    (h : recordUnmapped s seen createdAt recordId = .ok s') : SameRegistry s s' := by
  rw [recordUnmapped_eq h]
  exact ⟨rfl, rfl⟩

theorem upsertProviderTicket_registry {new : Ticket} {instanceId externalId : NormalizedText}
    {result : Store × String × String × Bool}
    (h : upsertProviderTicket s new instanceId externalId = .ok result) :
    SameRegistry s result.1 := by
  unfold upsertProviderTicket at h
  split at h
  · split at h
    · cases h
      exact ⟨rfl, rfl⟩
    · cases h
      exact ⟨rfl, rfl⟩
  · split at h
    · cases h
      exact ⟨rfl, rfl⟩
    · cases h

theorem quarantineRecord_registry {stamp : Stamp}
    (h : quarantineRecord rt sourceSystem stamp s r = .ok s') : SameRegistry s s' := by
  simp only [quarantineRecord, bind_eq_ok] at h
  obtain ⟨upserted, hupsert, h⟩ := h
  exact (upsertProviderTicket_registry hupsert).trans (recordUnmapped_registry h)

theorem tenantRecord_registry {stamp : Stamp}
    {written : Option String}
    (h : tenantRecord rt sourceSystem stamp clientId s r = .ok (s', written)) :
    SameRegistry s s' := by
  simp only [tenantRecord, bind_eq_ok] at h
  obtain ⟨upserted, hupsert, h⟩ := h
  have hsame : SameRegistry s upserted.1 := upsertProviderTicket_registry hupsert
  split at h
  · simp only [bind_eq_ok] at h
    obtain ⟨sighted, hsight, h⟩ := h
    cases h
    exact hsame.trans (recordUnmapped_registry hsight)
  · split at h
    · cases h
      exact hsame.trans ⟨rfl, rfl⟩
    · cases h
      exact hsame

theorem ingestProviderRecord_registry {connector : ConnectorInstance}
    {state state' : Store × IngestProgress} {recordStamp : TicketInput × Stamp}
    (h : ingestProviderRecord rt connector state recordStamp = .ok state') :
    SameRegistry state.1 state'.1 := by
  obtain ⟨s, progress⟩ := state
  obtain ⟨record, stamp⟩ := recordStamp
  simp only [ingestProviderRecord, bind_eq_ok] at h
  obtain ⟨r, -, h⟩ := h
  split at h
  · simp only [bind_eq_ok] at h
    obtain ⟨-, -, ⟨written, stored⟩, htenant, h⟩ := h
    have hsame : SameRegistry s written := tenantRecord_registry htenant
    split at h
    · cases h
      exact hsame
    · cases h
      exact hsame
  · simp only [bind_eq_ok] at h
    obtain ⟨written, hquarantine, h⟩ := h
    cases h
    exact quarantineRecord_registry hquarantine

/-- The records of a call write for `clientId`. -/
def Store.WrittenFor (s : Store) (connectorInstanceId : String)
    (records : List (TicketInput × Stamp)) (clientId : ClientId) : Prop :=
  ∃ record ∈ records, ∃ instanceId companyId,
    normalizeClientId (some connectorInstanceId) = some instanceId ∧
      normalizeClientId record.1.externalClientId = some companyId ∧
      s.companyOwner instanceId companyId = clientId

/-- Provider ingestion writes for the owners of the companies in its records. -/
theorem ingestProviderRecords_writes {connectorInstanceId : String}
    {records : List (TicketInput × Stamp)} {progress : IngestProgress}
    (h : ingestProviderRecords rt s connectorInstanceId records = .ok (s', progress)) :
    Writes (s.WrittenFor connectorInstanceId records) s s' := by
  simp only [ingestProviderRecords, bind_eq_ok] at h
  obtain ⟨instanceId, hrequired, h⟩ := h
  have hinstance : normalizeClientId (some connectorInstanceId) = some instanceId :=
    required_eq_ok.mp hrequired
  split at h
  · cases h
  · rename_i connector hfind
    simp only [bind_eq_ok] at h
    obtain ⟨-, -, h⟩ := h
    have hid : connector.connectorInstanceId = instanceId := Table.key_of_find?_eq_some hfind
    have hround : ∀ record ∈ records, ∀ state state' : Store × IngestProgress,
        Writes (s.WrittenFor connectorInstanceId records) s state.1 ∧ SameRegistry s state.1 →
        ingestProviderRecord rt connector state record = .ok state' →
        Writes (s.WrittenFor connectorInstanceId records) s state'.1 ∧
          SameRegistry s state'.1 := by
      intro record hrecord state state' hstate hstep
      refine ⟨hstate.1.trans ?_, hstate.2.trans (ingestProviderRecord_registry hstep)⟩
      refine (ingestProviderRecord_writes hstep).mono ?_
      intro c hc
      obtain ⟨companyId, hcompany, howner⟩ := hc
      rw [hstate.2.companyOwner, hid] at howner
      exact ⟨record, hrecord, instanceId, companyId, hinstance, hcompany, howner⟩
    have hstart : Writes (s.WrittenFor connectorInstanceId records) s s ∧ SameRegistry s s :=
      ⟨.refl, rfl, rfl⟩
    exact (foldlM_invariant hround hstart h).1

/-- A relation to the state before holds of a provider call that its transaction keeps. -/
theorem ingestProviderTickets_relation {R : Store → Store → Prop} {connectorInstanceId : String}
    {records : List (TicketInput × Stamp)} (hrefl : R s s)
    (h : ∀ s' progress,
      ingestProviderRecords rt s connectorInstanceId records = .ok (s', progress) → R s s') :
    R s (ingestProviderTickets rt s connectorInstanceId records).1 := by
  unfold ingestProviderTickets
  split
  · exact hrefl
  · rename_i s' progress hrecords
    exact h s' progress hrecords

end WaitLocalAgent.Tenancy
