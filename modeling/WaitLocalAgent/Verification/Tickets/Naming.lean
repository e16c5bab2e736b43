import WaitLocalAgent.Verification.Tickets.Retenanting

/-! # Ids of connector tickets

A connector ticket is stored under a generated id, which is never blank, so the operational graph
always has a reference for it. -/

namespace WaitLocalAgent.Tenancy

open Foundation

variable {rt : Runtime TicketInput} {s s' : Store}

def Ticket.Named (t : Ticket) : Prop := t.connectorInstanceId.isSome = true → Text.strip t.id ≠ ""

def Store.Named (s : Store) : Prop := ∀ t ∈ s.tickets, t.Named

/-- A property of tickets that depends on nothing but how they are linked to a connector, and that
tickets without a connector have. -/
structure OfLink (P : Ticket → Prop) : Prop where
  unlinked : ∀ t, t.connectorInstanceId = none → P t
  relink : ∀ {t u : Ticket}, u.id = t.id → u.connectorInstanceId = t.connectorInstanceId →
    u.externalId = t.externalId → P t → P u

def Store.Links (P : Ticket → Prop) (s : Store) : Prop := ∀ t ∈ s.tickets, P t

namespace Store.Links

variable {P : Ticket → Prop}

theorem of_tickets (h : s'.tickets = s.tickets) (hs : s.Links P) : s'.Links P := by
  intro t ht
  rw [h] at ht
  exact hs t ht

theorem insert {t : Ticket} (h : s.tickets.insert? t = some s'.tickets) (ht : P t)
    (hs : s.Links P) : s'.Links P := by
  intro u hu
  rcases (Table.mem_of_insert? h).mp hu with hu | rfl
  · exact hs u hu
  · exact ht

/-- Assignments that link no ticket to a connector keep the property. -/
theorem update (hP : OfLink P) {p : Ticket → Bool} {f : Ticket → Ticket}
    (hf : ∀ t, (f t).id = t.id) (h : s'.tickets = s.tickets.update p f hf)
    (hlink : ∀ t, (f t).connectorInstanceId = none ∨
      (f t).connectorInstanceId = t.connectorInstanceId ∧ (f t).externalId = t.externalId)
    (hs : s.Links P) : s'.Links P := by
  intro t ht
  rw [h, Table.mem_update] at ht
  obtain ⟨u, hu, rfl⟩ := ht
  split
  · rcases hlink u with hnone | ⟨hinstance, hexternal⟩
    · exact hP.unlinked _ hnone
    · exact hP.relink (hf u) hinstance hexternal (hs u hu)
  · exact hs u hu

end Store.Links

theorem ofLink_named : OfLink Ticket.Named where
  unlinked t h := by simp [Ticket.Named, h]
  relink hid hinstance _ h := by rwa [Ticket.Named, hid, hinstance]

section Links

variable {P : Ticket → Prop} (hP : OfLink P)
include hP

/-! ## Local and end-user tickets -/

theorem upsertLocalTicket_links {row : Ticket} (hrow : row.connectorInstanceId = none)
    (h : upsertLocalTicket s row = .ok s') (hs : s.Links P) : s'.Links P := by
  unfold upsertLocalTicket at h
  split at h
  · split at h
    · cases h
    · split at h
      · cases h
      · cases h
        exact hs.update hP row.overwriteById_id rfl fun t => .inl hrow
  · split at h
    · rename_i hinsert
      cases h
      exact hs.insert hinsert (hP.unlinked row hrow)
    · cases h

theorem writeIngestedTicket_links {now : String} {clientId : ClientId} {t : TicketInput}
    (h : writeIngestedTicket rt now clientId s t = .ok s') (hs : s.Links P) : s'.Links P := by
  simp only [writeIngestedTicket, bind_eq_ok] at h
  obtain ⟨written, hupsert, h⟩ := h
  have hwritten : written.Links P := upsertLocalTicket_links hP rfl hupsert hs
  split at h
  · cases h
    exact hwritten.of_tickets rfl
  · cases h
    exact hwritten

theorem ingestEach_links {clientId : ClientId} (tickets : List (TicketInput × String))
    (hs : s.Links P) : (ingestEach rt clientId s tickets).1.Links P := by
  induction tickets generalizing s with
  | nil => exact hs
  | cons ticket tickets ih =>
      rw [ingestEach]
      split
      · exact hs
      · split
        · exact hs
        · rename_i hwrite
          have hwritten := writeIngestedTicket_links hP hwrite hs
          split
          · exact hwritten
          · exact ih hwritten

theorem ingestTickets_links {clientId : String} {tickets : List (TicketInput × String)}
    (hs : s.Links P) : (ingestTickets rt s clientId tickets).1.Links P := by
  unfold ingestTickets
  split
  · exact hs
  · rename_i normalizedId _
    split
    · exact hs
    · have hnamed : (ingestEach rt normalizedId s tickets).1.Links P :=
        ingestEach_links hP tickets hs
      split
      · rename_i heq
        rwa [heq] at hnamed
      · rename_i heq
        rwa [heq] at hnamed

theorem allocateEndUserTicket_links {request : EndUserRequest} {now : String}
    {clientId : ClientId} {ids : List String}
    (h : allocateEndUserTicket rt s request now clientId ids = .ok s') (hs : s.Links P) :
    s'.Links P := by
  induction ids with
  | nil => cases h
  | cons id ids ih =>
      rw [allocateEndUserTicket] at h
      split at h
      · cases h
      · split at h
        · rename_i hinsert
          cases h
          exact hs.insert hinsert (hP.unlinked _ rfl)
        · exact ih h

theorem createEndUserTicket_links {request : EndUserRequest} {now id₁ id₂ id₃ : String}
    (h : createEndUserTicket rt s request now id₁ id₂ id₃ = .ok s') (hs : s.Links P) :
    s'.Links P := by
  simp only [createEndUserTicket, bind_eq_ok] at h
  obtain ⟨clientId, -, _, -, _, -, _, -, h⟩ := h
  exact allocateEndUserTicket_links hP h hs

theorem escalateEndUserTicket_links {ticketId clientId requesterId now : String}
    (h : escalateEndUserTicket rt s ticketId clientId requesterId now = .ok s') (hs : s.Links P) :
    s'.Links P := by
  unfold escalateEndUserTicket at h
  split at h
  · cases h
    exact hs
  · split at h
    · cases h
      exact hs
    · simp only [bind_eq_ok] at h
      obtain ⟨_, -, h⟩ := h
      split at h
      · cases h
        exact hs.update hP (Ticket.escalate_id now) rfl fun _ => .inr ⟨rfl, rfl⟩
      · cases h
        exact hs.update hP (Ticket.escalate_id now) rfl fun _ => .inr ⟨rfl, rfl⟩

/-! ## Leaving quarantine -/

theorem verifyClientConnectorMapping_links {scope : ClientScope} {mappingId now : String}
    (h : verifyClientConnectorMapping rt s scope mappingId now = .ok s') (hs : s.Links P) :
    s'.Links P := by
  obtain ⟨m, -, hverification⟩ := verifyClientConnectorMapping_eq_ok h
  exact hs.update hP (Ticket.assign_id _) hverification.tickets fun _ => .inr ⟨rfl, rfl⟩

theorem reclassifyQuarantinedTicket_links {ticketId clientId now : String}
    (h : reclassifyQuarantinedTicket rt s ticketId clientId now = .ok s') (hs : s.Links P) :
    s'.Links P := by
  obtain ⟨t, client, hreclassified⟩ := reclassifyQuarantinedTicket_eq_ok h
  exact hs.update hP (Ticket.assign_id _) hreclassified.tickets fun _ => .inr ⟨rfl, rfl⟩

end Links

/-! ## Provider ingestion -/

/-- The tickets to be seeded have ids that are not blank. -/
structure ProviderNamed (state : Store × IngestProgress) : Prop where
  tickets : state.1.Named
  seeds : ∀ seed ∈ state.2.graphSeeds, Text.strip seed.2 ≠ ""

/-- The tickets to be seeded are linked to a connector, and have the property as all others do. -/
structure ProviderLinks (P : Ticket → Prop) (state : Store × IngestProgress) : Prop where
  tickets : state.1.Links P
  seeds : ∀ seed ∈ state.2.graphSeeds, ∃ t, P t ∧ t.connectorInstanceId.isSome = true ∧
    t.id = seed.2

section Provider

variable {sourceSystem : String} {stamp : Stamp} {r : ProviderRecord} {clientId : ClientId}
  {P : Ticket → Prop} (hP : OfLink P)
include hP

theorem upsertProviderTicket_links {new : Ticket} {instanceId externalId : NormalizedText}
    {ticketId previousStatus : String} {persisted : Bool}
    (h : upsertProviderTicket s new instanceId externalId =
      .ok (s', ticketId, previousStatus, persisted))
    (hlinked : new.connectorInstanceId.isSome = true) (hnew : P new) (hs : s.Links P) :
    s'.Links P ∧ ∃ t, P t ∧ t.connectorInstanceId.isSome = true ∧ t.id = ticketId := by
  unfold upsertProviderTicket at h
  split at h
  · rename_i existing hfind
    obtain ⟨hmem, hinstance, -⟩ := Store.findByIdentity?_eq_some hfind
    have hexisting : ∃ t, P t ∧ t.connectorInstanceId.isSome = true ∧ t.id = existing.id :=
      ⟨existing, hs existing hmem, by simp [hinstance], rfl⟩
    split at h
    · cases h
      exact ⟨hs, hexisting⟩
    · cases h
      exact ⟨hs.update hP new.overwriteByIdentity_id rfl fun _ => .inr ⟨rfl, rfl⟩, hexisting⟩
  · split at h
    · rename_i hinsert
      cases h
      exact ⟨hs.insert hinsert hnew, new, hnew, hlinked, rfl⟩
    · cases h

variable (hrow : ∀ (r : ProviderRecord) now sourceSystem clientId,
  P (r.row rt now sourceSystem clientId))
include hrow

theorem quarantineRecord_links (h : quarantineRecord rt sourceSystem stamp s r = .ok s')
    (hs : s.Links P) : s'.Links P := by
  simp only [quarantineRecord, bind_eq_ok] at h
  obtain ⟨⟨written, ticketId, previousStatus, persisted⟩, hupsert, h⟩ := h
  exact (upsertProviderTicket_links hP hupsert rfl (hrow ..) hs).1.of_tickets
    (by rw [recordUnmapped_eq h])

theorem tenantRecord_links {written : Option String}
    (h : tenantRecord rt sourceSystem stamp clientId s r = .ok (s', written)) (hs : s.Links P) :
    s'.Links P ∧ ∀ ticketId ∈ written,
      ∃ t, P t ∧ t.connectorInstanceId.isSome = true ∧ t.id = ticketId := by
  simp only [tenantRecord, bind_eq_ok] at h
  obtain ⟨⟨upserted, ticketId, previousStatus, persisted⟩, hupsert, h⟩ := h
  obtain ⟨hlinks, hid⟩ := upsertProviderTicket_links hP hupsert rfl (hrow ..) hs
  split at h
  · simp only [bind_eq_ok] at h
    obtain ⟨sighted, hsight, h⟩ := h
    cases h
    exact ⟨hlinks.of_tickets (by rw [recordUnmapped_eq hsight]), by simp⟩
  · split at h
    · cases h
      exact ⟨hlinks.of_tickets rfl, by simpa using hid⟩
    · cases h
      exact ⟨hlinks, by simpa using hid⟩

theorem ingestProviderRecord_links {connector : ConnectorInstance}
    {state state' : Store × IngestProgress} {recordStamp : TicketInput × Stamp}
    (h : ingestProviderRecord rt connector state recordStamp = .ok state')
    (hstate : ProviderLinks P state) : ProviderLinks P state' := by
  obtain ⟨s, progress⟩ := state
  obtain ⟨record, stamp⟩ := recordStamp
  simp only [ingestProviderRecord, bind_eq_ok] at h
  obtain ⟨r, -, h⟩ := h
  split at h
  · simp only [bind_eq_ok] at h
    obtain ⟨_, -, ⟨stored, written⟩, htenant, h⟩ := h
    obtain ⟨hlinks, hids⟩ := tenantRecord_links hP hrow htenant hstate.tickets
    split at h
    · rename_i ticketId hwritten
      cases h
      refine ⟨hlinks, fun seed hseed => ?_⟩
      rcases List.mem_append.mp hseed with hseed | hseed
      · exact hstate.seeds seed hseed
      · obtain rfl := List.mem_singleton.mp hseed
        exact hids ticketId hwritten
    · cases h
      exact ⟨hlinks, hstate.seeds⟩
  · simp only [bind_eq_ok] at h
    obtain ⟨written, hquarantine, h⟩ := h
    cases h
    exact ⟨quarantineRecord_links hP hrow hquarantine hstate.tickets, hstate.seeds⟩

theorem ingestProviderRecords_links {connectorInstanceId : String}
    {records : List (TicketInput × Stamp)} {state' : Store × IngestProgress}
    (h : ingestProviderRecords rt s connectorInstanceId records = .ok state') (hs : s.Links P) :
    ProviderLinks P state' := by
  simp only [ingestProviderRecords, bind_eq_ok] at h
  obtain ⟨instanceId, -, h⟩ := h
  split at h
  · cases h
  · simp only [bind_eq_ok] at h
    obtain ⟨_, -, h⟩ := h
    exact foldlM_invariant (I := ProviderLinks P)
      (fun _ _ _ _ hstate hstep => ingestProviderRecord_links hP hrow hstep hstate)
      ⟨hs, by simp⟩ h

/-! ## Runs -/

theorem StoreCall.apply_links (l : StoreCall) (hs : s.Links P) : (l.apply rt s).Links P := by
  cases l with
  | createClient =>
      exact committed_invariant (fun _ h hs => hs.of_tickets (by rw [createClient_eq h])) hs
  | setClientStatus =>
      exact committed_invariant (fun _ h hs => hs.of_tickets (by rw [setClientStatus_eq h])) hs
  | createConnectorInstance =>
      exact committed_invariant
        (fun _ h hs => hs.of_tickets (by rw [createConnectorInstance_eq h])) hs
  | updateConnectorInstance =>
      exact committed_invariant
        (fun _ h hs => hs.of_tickets (by rw [updateConnectorInstance_eq h])) hs
  | createClientConnectorMapping =>
      exact committed_invariant
        (fun _ h hs => hs.of_tickets (by rw [createClientConnectorMapping_eq h])) hs
  | verifyClientConnectorMapping =>
      exact committed_invariant (fun _ h hs => verifyClientConnectorMapping_links hP h hs) hs
  | ingestTickets => exact ingestTickets_links hP hs
  | ingestProviderTickets =>
      exact ingestProviderTickets_relation (R := fun _ s' => s'.Links P) hs fun _ _ h =>
        (ingestProviderRecords_links hP hrow h hs).tickets
  | reclassifyQuarantinedTicket =>
      exact committed_invariant (fun _ h hs => reclassifyQuarantinedTicket_links hP h hs) hs
  | createEndUserTicket =>
      exact committed_invariant (fun _ h hs => createEndUserTicket_links hP h hs) hs
  | escalateEndUserTicket =>
      exact committed_invariant (fun _ h hs => escalateEndUserTicket_links hP h hs) hs
  | recordUnmapped =>
      exact committed_invariant (fun _ h hs => hs.of_tickets (by rw [recordUnmappedRecord_eq h])) hs
  | resolveUnmappedRecord =>
      exact committed_invariant
        (fun _ h hs => hs.of_tickets (by rw [resolveUnmappedRecord_eq h])) hs

theorem links_run (ls : List StoreCall) : ((tenancy rt).run ls).Links P := by
  have hinit : Store.Links P (tenancy rt).init := by
    intro t ht
    simp [tenancy, Store.fresh] at ht
  exact Machine.run_invariant hinit (fun _ l hs => l.apply_links hP hrow hs) ls

end Provider

/-! ## Ids that are not blank -/

section Named

variable (huuid : ∀ instanceId externalId, Text.strip (rt.ticketUuid instanceId externalId) ≠ "")
include huuid

theorem ingestProviderRecords_named {connectorInstanceId : String}
    {records : List (TicketInput × Stamp)} {state' : Store × IngestProgress}
    (h : ingestProviderRecords rt s connectorInstanceId records = .ok state') (hs : s.Named) :
    ProviderNamed state' := by
  have hlinks := ingestProviderRecords_links ofLink_named (fun _ _ _ _ _ => huuid _ _) h hs
  refine ⟨hlinks.tickets, fun seed hseed => ?_⟩
  obtain ⟨t, ht, hlinked, hid⟩ := hlinks.seeds seed hseed
  rw [← hid]
  exact ht hlinked

theorem named_run (ls : List StoreCall) : ((tenancy rt).run ls).Named :=
  links_run ofLink_named (fun _ _ _ _ _ => huuid _ _) ls

end Named

end WaitLocalAgent.Tenancy
