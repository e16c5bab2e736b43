import WaitLocalAgent.Verification.Tickets.Operations

/-! # Out of quarantine

The two operations that give a quarantined ticket to a client, each with everything that it
changes. -/

namespace WaitLocalAgent.Tenancy

open Foundation Relation

variable {instanceId companyId : NormalizedText}

@[simp] theorem Ticket.heldFor_iff {t : Ticket} :
    t.heldFor instanceId companyId = true ↔ t.clientId = quarantineClientId ∧
      t.connectorInstanceId = some instanceId ∧ t.externalClientId = some companyId := by
  simp only [heldFor, Bool.and_eq_true, beq_iff_eq, and_assoc]

theorem Store.mem_quarantinedTickets {s : Store}
    {t : Ticket} : t ∈ s.quarantinedTickets instanceId companyId ↔
      t ∈ s.tickets ∧ t.heldFor instanceId companyId = true := by
  rw [quarantinedTickets, List.mem_insertionSort, List.mem_filter, Table.mem_def]

theorem Store.heldFor_eq_false {s : Store}
    (h : s.quarantinedTickets instanceId companyId = []) {t : Ticket} (ht : t ∈ s.tickets) :
    t.heldFor instanceId companyId = false := by
  cases hheld : t.heldFor instanceId companyId with
  | false => rfl
  | true =>
      have hmem := Store.mem_quarantinedTickets.mpr ⟨ht, hheld⟩
      rw [h] at hmem
      cases hmem

/-- The updates of the loop hit a stored ticket exactly if it is held for the company. -/
theorem Store.any_quarantinedTickets {s : Store}
    {q : Ticket} (hq : q ∈ s.tickets) :
    ((s.quarantinedTickets instanceId companyId).any fun t =>
      q.id = t.id && q.clientId = quarantineClientId) = q.heldFor instanceId companyId := by
  rw [Bool.eq_iff_iff]
  simp only [List.any_eq_true, Bool.and_eq_true, decide_eq_true_eq]
  constructor
  · intro hany
    obtain ⟨t, ht, hid, -⟩ := hany
    rw [Store.mem_quarantinedTickets] at ht
    rw [Table.eq_of_key_eq hq ht.1 hid]
    exact ht.2
  · intro hheld
    refine ⟨q, Store.mem_quarantinedTickets.mpr ⟨hq, hheld⟩, rfl, ?_⟩
    exact (Ticket.heldFor_iff.mp hheld).1

theorem Ticket.assign_assign (clientId : ClientId) (t : Ticket) :
    (t.assign clientId).assign clientId = t.assign clientId := rfl

theorem UnmappedRecord.resolve_resolve (now : String) (r : UnmappedRecord) :
    (r.resolve now).resolve now = r.resolve now := by
  simp [resolve]

@[simp] theorem UnmappedRecord.resolve_resolvedAt (now : String) (r : UnmappedRecord) :
    (r.resolve now).resolvedAt ≠ none := by
  cases h : r.resolvedAt with
  | none => simp [resolve, h]
  | some at_ => simp [resolve, h]

section Loop

variable {rt : Runtime TicketInput} {now : String} {instanceId companyId : NormalizedText}
  {clientId : ClientId} {s : Store}

theorem foldl_retenantTicket_tickets (ts : List Ticket) :
    (ts.foldl (retenantTicket rt now instanceId companyId clientId) s).tickets =
      s.tickets.update
        (fun q => ts.any fun t => q.id = t.id && q.clientId = quarantineClientId)
        (Ticket.assign clientId) (Ticket.assign_id clientId) := by
  have h : (ts.foldl (retenantTicket rt now instanceId companyId clientId) s).tickets =
      ts.foldl (fun tickets t => tickets.update
        (fun q => q.id = t.id && q.clientId = quarantineClientId) (Ticket.assign clientId)
        (Ticket.assign_id clientId)) s.tickets :=
    (List.foldl_hom Store.tickets (fun _ _ => rfl)).symm
  rw [h, Table.foldl_update (Ticket.assign_assign clientId)]

theorem foldl_retenantTicket_unmapped (ts : List Ticket) :
    (ts.foldl (retenantTicket rt now instanceId companyId clientId) s).unmapped =
      s.unmapped.update
        (fun r => ts.any fun t => r.connectorInstanceId = instanceId &&
          r.externalCompanyId = some companyId && t.externalId.isSome &&
          r.externalId = t.externalId)
        (UnmappedRecord.resolve now) (UnmappedRecord.resolve_recordId now) := by
  have h : (ts.foldl (retenantTicket rt now instanceId companyId clientId) s).unmapped =
      ts.foldl (fun unmapped t => unmapped.update
        (fun r => r.connectorInstanceId = instanceId && r.externalCompanyId = some companyId &&
          t.externalId.isSome && r.externalId = t.externalId)
        (UnmappedRecord.resolve now) (UnmappedRecord.resolve_recordId now)) s.unmapped :=
    (List.foldl_hom Store.unmapped (fun _ _ => rfl)).symm
  rw [h, Table.foldl_update (UnmappedRecord.resolve_resolve now)]

theorem foldl_retenantTicket_mappings (ts : List Ticket) :
    (ts.foldl (retenantTicket rt now instanceId companyId clientId) s).mappings = s.mappings := by
  induction ts generalizing s with
  | nil => rfl
  | cons t ts ih => exact ih

end Loop

/-- What `retenant_quarantined_tickets` does to the store. -/
structure Retenanting (now : String) (instanceId companyId : NormalizedText) (clientId : ClientId)
    (s s' : Store) : Prop where
  ordinary : ∀ t ∈ s.tickets, t.heldFor instanceId companyId = true →
    clientId ≠ quarantineClientId
  tickets : s'.tickets = s.tickets.update (Ticket.heldFor instanceId companyId)
    (Ticket.assign clientId) (Ticket.assign_id clientId)
  unmapped : s'.unmapped = s.unmapped.update
    (fun r => (s.quarantinedTickets instanceId companyId).any fun t =>
      r.connectorInstanceId = instanceId && r.externalCompanyId = some companyId &&
        t.externalId.isSome && r.externalId = t.externalId)
    (UnmappedRecord.resolve now) (UnmappedRecord.resolve_recordId now)
  mappings : s'.mappings = s.mappings

theorem retenantQuarantinedTickets_eq_ok {rt : Runtime TicketInput} {now : String}
    {clientId : ClientId} {s s' : Store}
    (h : retenantQuarantinedTickets rt now s instanceId companyId clientId = .ok s') :
    Retenanting now instanceId companyId clientId s s' := by
  simp only [retenantQuarantinedTickets] at h
  split at h
  · rename_i hnil
    cases h
    have hnone : ∀ t ∈ s.tickets, t.heldFor instanceId companyId = false :=
      fun t ht => Store.heldFor_eq_false hnil ht
    refine ⟨?_, ?_, ?_, rfl⟩
    · intro t ht hheld
      rw [hnone t ht] at hheld
      cases hheld
    · rw [Table.update_congr hnone, Table.update_false]
    · rw [hnil]
      exact Table.update_false.symm
  · split at h
    · cases h
    · rename_i hordinary
      split at h
      · cases h
      · split at h
        · cases h
        · split at h
          · cases h
          · cases h
            refine ⟨?_, ?_, foldl_retenantTicket_unmapped _, foldl_retenantTicket_mappings _⟩
            · intro t _ _
              exact hordinary
            · rw [foldl_retenantTicket_tickets]
              exact Table.update_congr fun q hq => Store.any_quarantinedTickets hq

/-- What a successful verification of the mapping `m` does to the store. -/
structure Verification (now : String) (m : ClientConnectorMapping) (s s' : Store) : Prop where
  mem : m ∈ s.mappings
  kept : MappingsKept s s'
  verified : s'.Verified m.connectorInstanceId m.externalCompanyId m.clientId
  ordinary : ∀ t ∈ s.tickets, t.heldFor m.connectorInstanceId m.externalCompanyId = true →
    m.clientId ≠ quarantineClientId
  tickets : s'.tickets = s.tickets.update
    (Ticket.heldFor m.connectorInstanceId m.externalCompanyId)
    (Ticket.assign m.clientId) (Ticket.assign_id m.clientId)
  unmapped : s'.unmapped = s.unmapped.update
    (fun r => (s.quarantinedTickets m.connectorInstanceId m.externalCompanyId).any fun t =>
      r.connectorInstanceId = m.connectorInstanceId &&
        r.externalCompanyId = some m.externalCompanyId && t.externalId.isSome &&
        r.externalId = t.externalId)
    (UnmappedRecord.resolve now) (UnmappedRecord.resolve_recordId now)

theorem Store.withVerified_kept {s : Store} {scope : ClientScope} {mappingId : NormalizedText} :
    MappingsKept s (s.withVerified scope mappingId) := by
  intro m hm hverified
  have hsame : m.verify = m := by
    cases m
    simp_all [ClientConnectorMapping.verify]
  simp only [withVerified, Table.mem_update]
  refine ⟨m, hm, ?_⟩
  split
  · exact hsame
  · rfl

theorem Store.withVerified_verified {s : Store} {scope : ClientScope}
    {m : ClientConnectorMapping} (hm : m ∈ s.mappings) (hscope : scope.admits m.clientId = true) :
    (s.withVerified scope m.mappingId).Verified m.connectorInstanceId m.externalCompanyId
      m.clientId := by
  refine ⟨m.verify, ?_, rfl, rfl, rfl, rfl⟩
  simp only [withVerified, Table.mem_update]
  exact ⟨m, hm, by simp [hscope]⟩

theorem verifyClientConnectorMapping_eq_ok {rt : Runtime TicketInput} {scope : ClientScope}
    {mappingId now : String} {s s' : Store}
    (h : verifyClientConnectorMapping rt s scope mappingId now = .ok s') :
    ∃ m, normalizeClientId (some mappingId) = some m.mappingId ∧ Verification now m s s' := by
  unfold verifyClientConnectorMapping at h
  split at h
  · cases h
  · rename_i id hid
    split at h
    · cases h
    · rename_i m hfind
      obtain ⟨hfind, hscope⟩ := Option.filter_eq_some_iff.mp hfind
      split at h
      · cases h
      · have hm : m ∈ s.mappings := Table.mem_of_find?_eq_some hfind
        have hkey : m.mappingId = id := Table.key_of_find?_eq_some hfind
        have hmoved := retenantQuarantinedTickets_eq_ok h
        rw [← hkey] at hid hmoved
        refine ⟨m, hid, hm, ?_, ?_, hmoved.ordinary, hmoved.tickets, hmoved.unmapped⟩
        · intro q hq hverified
          rw [hmoved.mappings]
          exact Store.withVerified_kept q hq hverified
        · exact (Store.withVerified_verified hm hscope).mono (.of_eq hmoved.mappings)

/-- What a successful reclassification does to the store. -/
structure Reclassification (ticketId clientId : String) (t : Ticket) (client : ClientId)
    (s s' : Store) : Prop where
  ticketId_eq : (normalizeClientId (some ticketId)).map Subtype.val = some t.id
  clientId_eq : normalizeClientId (some clientId) = some client
  ordinary : client ≠ quarantineClientId
  active : s.isActive client = true
  mem : t ∈ s.tickets
  held : t.clientId = quarantineClientId
  tickets : s'.tickets = s.tickets.update (fun q => q.id = t.id) (Ticket.assign client)
    (Ticket.assign_id client)
  mappings : s'.mappings = s.mappings

theorem reclassifyQuarantinedTicket_eq_ok {rt : Runtime TicketInput}
    {ticketId clientId now : String} {s s' : Store}
    (h : reclassifyQuarantinedTicket rt s ticketId clientId now = .ok s') :
    ∃ t client, Reclassification ticketId clientId t client s s' := by
  simp only [reclassifyQuarantinedTicket, bind_eq_ok, required_eq_ok] at h
  obtain ⟨id, hid, client, hclient, _, hordinary, _, hactive, h⟩ := h
  split at h
  · cases h
  · rename_i t hfind
    simp only [bind_eq_ok, raiseIf_eq_ok, not_not] at h
    obtain ⟨-, hheld, h⟩ := h
    cases h
    have hm : t ∈ s.tickets := Table.mem_of_find?_eq_some hfind
    have hkey : t.id = id.val := Table.key_of_find?_eq_some hfind
    refine ⟨t, client, ?_, hclient, raiseIf_eq_ok.mp hordinary, ?_, hm, hheld, ?_, rfl⟩
    · simp [hid, hkey]
    · simpa using raiseIf_eq_ok.mp hactive
    · apply Table.update_congr
      intro q hq
      rw [← hkey, Bool.eq_iff_iff]
      simp only [Bool.and_eq_true, decide_eq_true_eq, and_iff_left_iff_imp]
      intro hsame
      rw [Table.eq_of_key_eq hq hm hsame]
      exact hheld

end WaitLocalAgent.Tenancy

/-! ## Ticket ownership

A ticket that has left quarantine stays with its client, and ingestion leaves the tickets of
other clients as they are. -/

namespace WaitLocalAgent.Tenancy

open Foundation Relation

variable {rt : Runtime TicketInput} {s s' : Store}

theorem committed_writes {owned : ClientId → Prop} {x : Except TenancyError Store}
    (h : ∀ s', x = .ok s' → Writes owned s s') : Writes owned s (committed s x) :=
  committed_relation .refl h

theorem apply_ingestTickets_writes {clientId : String} {tickets : List (TicketInput × String)} :
    Writes (fun c => normalizeClientId (some clientId) = some c) s
      (StoreCall.apply rt s (.ingestTickets clientId tickets)) :=
  ingestTickets_writes

theorem apply_ingestProviderTickets_writes {connectorInstanceId : String}
    {records : List (TicketInput × Stamp)} :
    Writes (s.WrittenFor connectorInstanceId records) s
      (StoreCall.apply rt s (.ingestProviderTickets connectorInstanceId records)) :=
  ingestProviderTickets_relation .refl fun _ _ h => ingestProviderRecords_writes h

/-- What one call does to the store. -/
inductive Outcome (rt : Runtime TicketInput) (s : Store) : StoreCall → Store → Prop where
  | writes {l : StoreCall} {s' : Store} (h : Writes (fun _ => True) s s') : Outcome rt s l s'
  | verified {scope : ClientScope} {mappingId now : String} {m : ClientConnectorMapping}
      {s' : Store} (h : Verification now m s s') :
      Outcome rt s (.verifyClientConnectorMapping scope mappingId now) s'
  | reclassified {ticketId clientId now : String} {t : Ticket} {client : ClientId} {s' : Store}
      (h : Reclassification ticketId clientId t client s s') :
      Outcome rt s (.reclassifyQuarantinedTicket ticketId clientId now) s'

theorem StoreCall.apply_outcome (l : StoreCall) : Outcome rt s l (l.apply rt s) := by
  cases l with
  | createClient clientId name =>
      rw [apply]
      exact .writes (committed_writes fun _ h => createClient_writes h)
  | setClientStatus scope clientId status =>
      rw [apply]
      exact .writes (committed_writes fun _ h => setClientStatus_writes h)
  | createConnectorInstance id connectorType displayName clientId =>
      rw [apply]
      exact .writes (committed_writes fun _ h => createConnectorInstance_writes h)
  | updateConnectorInstance connectorInstanceId fields =>
      rw [apply]
      exact .writes (committed_writes fun _ h => updateConnectorInstance_writes h)
  | createClientConnectorMapping scope mappingId connectorInstanceId externalCompanyId clientId
      externalCompanyName =>
      rw [apply]
      exact .writes (committed_writes fun _ h => createClientConnectorMapping_writes h)
  | verifyClientConnectorMapping scope mappingId now =>
      rw [apply]
      cases h : Tenancy.verifyClientConnectorMapping rt s scope mappingId now with
      | error e => exact .writes .refl
      | ok s' =>
          obtain ⟨m, -, hm⟩ := verifyClientConnectorMapping_eq_ok h
          exact .verified hm
  | ingestTickets clientId tickets =>
      exact .writes (apply_ingestTickets_writes.mono fun _ _ => trivial)
  | ingestProviderTickets connectorInstanceId records =>
      exact .writes (apply_ingestProviderTickets_writes.mono fun _ _ => trivial)
  | reclassifyQuarantinedTicket ticketId clientId now =>
      rw [apply]
      cases h : Tenancy.reclassifyQuarantinedTicket rt s ticketId clientId now with
      | error e => exact .writes .refl
      | ok s' =>
          obtain ⟨t, client, ht⟩ := reclassifyQuarantinedTicket_eq_ok h
          exact .reclassified ht
  | createEndUserTicket request now id₁ id₂ id₃ =>
      rw [apply]
      exact .writes (committed_writes fun _ h => createEndUserTicket_writes h)
  | escalateEndUserTicket ticketId clientId requesterId now =>
      rw [apply]
      exact .writes (committed_writes fun _ h => escalateEndUserTicket_writes h)
  | recordUnmapped connectorInstanceId externalCompanyId externalId recordType payloadDigest
      reason createdAt recordId =>
      rw [apply]
      exact .writes (committed_writes fun _ h => .of_unmapped (recordUnmappedRecord_eq h))
  | resolveUnmappedRecord recordId now =>
      rw [apply]
      exact .writes (committed_writes fun _ h => .of_unmapped (resolveUnmappedRecord_eq h))

/-- Every ticket of `s` outside quarantine is in `s'`, with the same client. -/
def ClientsKept (s s' : Store) : Prop :=
  ∀ t ∈ s.tickets, t.clientId ≠ quarantineClientId →
    ∃ t' ∈ s'.tickets, t'.id = t.id ∧ t'.clientId = t.clientId

theorem ClientsKept.refl (s : Store) : ClientsKept s s :=
  fun t ht _ => ⟨t, ht, rfl, rfl⟩

theorem ClientsKept.trans {s s' s'' : Store} (h : ClientsKept s s') (h' : ClientsKept s' s'') :
    ClientsKept s s'' := by
  intro t ht hne
  obtain ⟨u, hu, hid, hclient⟩ := h t ht hne
  obtain ⟨v, hv, hid', hclient'⟩ := h' u hu (by rwa [hclient])
  exact ⟨v, hv, hid'.trans hid, hclient'.trans hclient⟩

/-- Giving away quarantined tickets keeps the other tickets where they are. -/
theorem ClientsKept.of_assign {p : Ticket → Bool} {client : ClientId}
    (hp : ∀ t ∈ s.tickets, p t = true → t.clientId = quarantineClientId)
    (h : s'.tickets = s.tickets.update p (Ticket.assign client) (Ticket.assign_id client)) :
    ClientsKept s s' := by
  intro t ht hne
  refine ⟨t, ?_, rfl, rfl⟩
  rw [h]
  apply Table.mem_update_of_not ht
  cases hpt : p t with
  | false => rfl
  | true => exact absurd (hp t ht hpt) hne

theorem Outcome.clientsKept {l : StoreCall} (h : Outcome rt s l s') : ClientsKept s s' := by
  cases h with
  | writes h =>
      intro t ht _
      exact h.keeps_client ht
  | verified h =>
      refine .of_assign ?_ h.tickets
      intro t _ hheld
      exact (Ticket.heldFor_iff.mp hheld).1
  | reclassified h =>
      refine .of_assign ?_ h.tickets
      intro t ht hid
      rw [Table.eq_of_key_eq ht h.mem (by simpa using hid)]
      exact h.held

theorem clientsKept_run (rt : Runtime TicketInput) (ls ks : List StoreCall) :
    ClientsKept ((tenancy rt).run ls) ((tenancy rt).run (ls ++ ks)) := by
  rw [Machine.run_append]
  exact runFrom_relation (I := fun _ => True) .refl (fun _ _ _ => .trans) (fun _ _ _ => trivial)
    (fun _ l _ => l.apply_outcome.clientsKept) trivial ks

/-- A ticket with an ordinary client keeps it for ever. Local ingestion leaves the tickets of
every client but its own as they are, and provider ingestion those of every client but the owners
of the companies in its records. -/
theorem ticket_ownership (rt : Runtime TicketInput) (ls : List StoreCall) :
    (∀ ks, ∀ t ∈ ((tenancy rt).run ls).tickets, t.clientId ≠ quarantineClientId →
      (((tenancy rt).run (ls ++ ks)).tickets.find? t.id).map Ticket.clientId = some t.clientId) ∧
    (∀ clientId tickets, ∀ t ∈ ((tenancy rt).run ls).tickets,
      normalizeClientId (some clientId) ≠ some t.clientId →
        t ∈ ((tenancy rt).run (ls ++ [.ingestTickets clientId tickets])).tickets) ∧
    (∀ connectorInstanceId records, ∀ t ∈ ((tenancy rt).run ls).tickets,
      ¬ ((tenancy rt).run ls).WrittenFor connectorInstanceId records t.clientId →
        t ∈ ((tenancy rt).run
          (ls ++ [.ingestProviderTickets connectorInstanceId records])).tickets) := by
  refine ⟨?_, ?_, ?_⟩
  · intro ks t ht hne
    obtain ⟨t', ht', hid, hclient⟩ := clientsKept_run rt ls ks t ht hne
    rw [Table.find?_eq_some_iff.mpr ⟨ht', hid⟩, Option.map_some, hclient]
  · intro clientId tickets t ht hother
    rw [tenancy_run_concat]
    exact apply_ingestTickets_writes.unowned ht hother
  · intro connectorInstanceId records t ht hother
    rw [tenancy_run_concat]
    exact apply_ingestProviderTickets_writes.unowned ht hother

end WaitLocalAgent.Tenancy
