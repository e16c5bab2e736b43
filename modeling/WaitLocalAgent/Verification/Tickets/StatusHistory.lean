import WaitLocalAgent.Verification.Tickets.Backing

/-! # Status histories

The rows of a ticket connect its statuses from the first to the current one, as long as redaction
leaves the ids and the statuses that are recorded as they are. -/

namespace WaitLocalAgent.Tenancy

open Foundation

variable {rt : Runtime TicketInput} {s s' s'' : Store}

/-! ## Chains -/

/-- Equal but for case and outer space. -/
def SameStatus (rt : Runtime TicketInput) (a b : String) : Prop :=
  rt.lower (Text.strip a) = rt.lower (Text.strip b)

instance (rt : Runtime TicketInput) (a b : String) : Decidable (SameStatus rt a b) :=
  inferInstanceAs (Decidable (_ = _))

/-- Redaction makes the same status of it. -/
def KeepsStatus (rt : Runtime TicketInput) (status : String) : Prop :=
  SameStatus rt (rt.redactText status) status

instance (rt : Runtime TicketInput) (status : String) : Decidable (KeepsStatus rt status) :=
  inferInstanceAs (Decidable (SameStatus _ _ _))

def Store.rowsOf (s : Store) (ticketId : String) : List TicketStatusChange :=
  s.history.filter fun r => r.ticketId == ticketId

/-- Every row starts where the one before has ended, and the last one ends at the status. -/
structure LeadsTo (rt : Runtime TicketInput) (rows : List TicketStatusChange) (status : String) :
    Prop where
  connected : rows.IsChain fun r q => SameStatus rt q.fromStatus r.toStatus
  last : ∃ r, rows.getLast? = some r ∧ SameStatus rt r.toStatus status

theorem statusChanged_eq_false {a b : String} :
    statusChanged rt a b = false ↔ SameStatus rt a b := by
  simp [statusChanged, SameStatus]

section Chains

variable {rows : List TicketStatusChange} {row : TicketStatusChange} {previous status : String}

theorem LeadsTo.of_same (h : LeadsTo rt rows previous) (hsame : SameStatus rt previous status) :
    LeadsTo rt rows status := by
  obtain ⟨r, hr, hto⟩ := h.last
  exact ⟨h.connected, r, hr, hto.trans hsame⟩

theorem leadsTo_singleton (hto : SameStatus rt row.toStatus status) : LeadsTo rt [row] status :=
  ⟨.singleton row, row, rfl, hto⟩

theorem LeadsTo.append (h : LeadsTo rt rows previous)
    (hfrom : SameStatus rt row.fromStatus previous) (hto : SameStatus rt row.toStatus status) :
    LeadsTo rt (rows ++ [row]) status := by
  obtain ⟨r, hr, hlast⟩ := h.last
  refine ⟨h.connected.append (.singleton row) ?_, row, by simp, hto⟩
  intro q hq p hp
  cases hr.symm.trans hq
  cases hp
  exact hfrom.trans hlast.symm

end Chains

/-! ## Settled tickets -/

/-- A ticket in quarantine has no rows; the rows of any other lead to its status. -/
structure Ticket.Settled (rt : Runtime TicketInput) (rows : List TicketStatusChange) (t : Ticket) :
    Prop where
  id : rt.redactText t.id = t.id
  status : KeepsStatus rt t.status
  held : t.clientId = quarantineClientId → rows = []
  leads : t.clientId ≠ quarantineClientId → LeadsTo rt rows t.status

/-- What is known of an id: its ticket, if there is one, and its rows. -/
def Store.Settled (rt : Runtime TicketInput) (s : Store) (id : String) : Prop :=
  match s.tickets.find? id with
  | none => s.rowsOf id = []
  | some t => t.Settled rt (s.rowsOf id)

theorem Store.settled_some {id : String} {t : Ticket} (h : s.tickets.find? id = some t) :
    s.Settled rt id ↔ t.Settled rt (s.rowsOf id) := by
  rw [Store.Settled, h]

theorem Store.settled_none {id : String} (h : s.tickets.find? id = none) :
    s.Settled rt id ↔ s.rowsOf id = [] := by
  rw [Store.Settled, h]

/-- What a call keeps: settled tickets, and that nobody writes for the reserved client. -/
structure KeepsSettled (rt : Runtime TicketInput) (s s' : Store) : Prop where
  settled : (∀ id, s.Settled rt id) → ∀ id, s'.Settled rt id
  reserved : s.isActive quarantineClientId = false → s'.isActive quarantineClientId = false

namespace KeepsSettled

theorem refl (s : Store) : KeepsSettled rt s s := ⟨id, id⟩

theorem trans (h : KeepsSettled rt s s') (h' : KeepsSettled rt s' s'') : KeepsSettled rt s s'' :=
  ⟨h'.settled ∘ h.settled, h'.reserved ∘ h.reserved⟩

theorem of_clients (htickets : s'.tickets = s.tickets) (hhistory : s'.history = s.history)
    (hclients : s'.clients.find? quarantineClientId = s.clients.find? quarantineClientId) :
    KeepsSettled rt s s' := by
  refine ⟨fun h id => ?_, fun h => ?_⟩
  · have hid := h id
    rwa [Store.Settled, Store.rowsOf, htickets, hhistory]
  · rwa [Store.isActive, hclients]

theorem of_elsewhere (htickets : s'.tickets = s.tickets) (hhistory : s'.history = s.history)
    (hclients : s'.clients = s.clients) : KeepsSettled rt s s' :=
  of_clients htickets hhistory (by rw [hclients])

/-- A call may rely on what it finds settled. -/
theorem of_settled (hclients : s'.clients = s.clients)
    (h : (∀ id, s.Settled rt id) → KeepsSettled rt s s') : KeepsSettled rt s s' := by
  refine ⟨fun hs => (h hs).settled hs, fun hreserved => ?_⟩
  rwa [Store.isActive, hclients]

end KeepsSettled

/-- A change of the ticket `id` and of its rows. -/
structure ChangesOne (s s' : Store) (id : String) (t : Ticket)
    (rows : List TicketStatusChange) : Prop where
  key : t.id = id
  tickets : ∀ j, s'.tickets.find? j = if j = id then some t else s.tickets.find? j
  history : s'.history = s.history ++ rows
  rows : ∀ r ∈ rows, r.ticketId = id
  clients : s'.clients = s.clients

theorem ChangesOne.rowsOf_self {id : String} {t : Ticket} {rows : List TicketStatusChange}
    (h : ChangesOne s s' id t rows) : s'.rowsOf id = s.rowsOf id ++ rows := by
  have hall : rows.filter (fun r => r.ticketId == id) = rows :=
    List.filter_eq_self.mpr fun r hr => beq_iff_eq.mpr (h.rows r hr)
  rw [Store.rowsOf, h.history, List.filter_append, hall]
  rfl

theorem ChangesOne.rowsOf_ne {id j : String} {t : Ticket} {rows : List TicketStatusChange}
    (h : ChangesOne s s' id t rows) (hj : j ≠ id) : s'.rowsOf j = s.rowsOf j := by
  have hnone : rows.filter (fun r => r.ticketId == j) = [] := by
    rw [List.filter_eq_nil_iff]
    intro r hr
    rw [h.rows r hr, beq_iff_eq]
    exact hj.symm
  rw [Store.rowsOf, h.history, List.filter_append, hnone, List.append_nil]
  rfl

theorem ChangesOne.keepsSettled {id : String} {t : Ticket} {rows : List TicketStatusChange}
    (h : ChangesOne s s' id t rows)
    (hsettled : s.Settled rt id → t.Settled rt (s.rowsOf id ++ rows)) : KeepsSettled rt s s' := by
  refine ⟨fun hs j => ?_, fun hreserved => ?_⟩
  · by_cases hj : j = id
    · subst hj
      rw [Store.settled_some ((h.tickets j).trans (if_pos rfl)), h.rowsOf_self]
      exact hsettled (hs j)
    · have hold := hs j
      rwa [Store.Settled, h.tickets, if_neg hj, h.rowsOf_ne hj]
  · rwa [Store.isActive, h.clients]

/-! ## Writes -/

def Store.statusBefore (s : Store) (id : String) : String :=
  ((s.tickets.find? id).map Ticket.status).getD ""

/-- The ticket `t` is inserted, or overwrites the one of its id, which is of the same client. -/
structure Written (s : Store) (t : Ticket) (s' : Store) : Prop where
  owner : ∀ d, s.tickets.find? t.id = some d → d.clientId = t.clientId
  tickets : ∀ j, s'.tickets.find? j = if j = t.id then some t else s.tickets.find? j
  history : s'.history = s.history
  clients : s'.clients = s.clients

section Written

variable {t : Ticket}

theorem Written.changesOne (h : Written s t s') : ChangesOne s s' t.id t [] :=
  ⟨rfl, h.tickets, by rw [h.history, List.append_nil], nofun, h.clients⟩

/-- The row that is recorded connects the status before with the new one. -/
theorem Written.recorded (changedAt source : String) (h : Written s t s')
    (hid : rt.redactText t.id = t.id) (hstatus : KeepsStatus rt t.status)
    (hclient : t.clientId ≠ quarantineClientId) :
    KeepsSettled rt s (recordTicketStatusHistory rt s' t.id t.clientId (s.statusBefore t.id)
      t.status changedAt source) := by
  have hchange : ChangesOne s (recordTicketStatusHistory rt s' t.id t.clientId
      (s.statusBefore t.id) t.status changedAt source) t.id t _ :=
    ⟨rfl, h.tickets, congrArg (· ++ _) h.history, fun r hr => ?_, h.clients⟩
  · refine hchange.keepsSettled fun hs => ⟨hid, hstatus, fun hheld => absurd hheld hclient, ?_⟩
    intro _
    cases hfind : s.tickets.find? t.id with
    | none =>
        rw [(Store.settled_none hfind).mp hs]
        exact leadsTo_singleton hstatus
    | some d =>
        have hd := (Store.settled_some hfind).mp hs
        refine (hd.leads (by rwa [h.owner d hfind])).append ?_ hstatus
        rw [Store.statusBefore, hfind]
        exact hd.status
  · obtain rfl := List.mem_singleton.mp hr
    exact hid

theorem Written.unrecorded {d : Ticket} (h : Written s t s') (hid : rt.redactText t.id = t.id)
    (hstatus : KeepsStatus rt t.status) (hfind : s.tickets.find? t.id = some d)
    (hsame : SameStatus rt d.status t.status) : KeepsSettled rt s s' := by
  refine h.changesOne.keepsSettled fun hs => ?_
  have hd := (Store.settled_some hfind).mp hs
  rw [List.append_nil]
  refine ⟨hid, hstatus, fun hheld => hd.held ((h.owner d hfind).trans hheld), fun hclient => ?_⟩
  exact (hd.leads (by rwa [h.owner d hfind])).of_same hsame

/-- A ticket that is held stays without rows. -/
theorem Written.held (h : Written s t s') (hid : rt.redactText t.id = t.id)
    (hstatus : KeepsStatus rt t.status) (hheld : t.clientId = quarantineClientId) :
    KeepsSettled rt s s' := by
  refine h.changesOne.keepsSettled fun hs => ?_
  rw [List.append_nil]
  refine ⟨hid, hstatus, fun _ => ?_, fun hclient => absurd hheld hclient⟩
  cases hfind : s.tickets.find? t.id with
  | none => exact (Store.settled_none hfind).mp hs
  | some d => exact ((Store.settled_some hfind).mp hs).held ((h.owner d hfind).trans hheld)

/-- A quarantined ticket gets a client, and its first row. -/
theorem keepsSettled_assign {clientId : ClientId} {changedAt source : String}
    (hfind : s.tickets.find? t.id = some t) (hheld : t.clientId = quarantineClientId)
    (hclient : clientId ≠ quarantineClientId)
    (htickets : ∀ j, s'.tickets.find? j =
      if j = t.id then some (t.assign clientId) else s.tickets.find? j)
    (hhistory : s'.history = s.history) (hclients : s'.clients = s.clients)
    (hid : rt.redactText t.id = t.id) :
    KeepsSettled rt s
      (recordTicketStatusHistory rt s' t.id clientId "" t.status changedAt source) := by
  have hchange : ChangesOne s (recordTicketStatusHistory rt s' t.id clientId "" t.status
      changedAt source) t.id (t.assign clientId) _ :=
    ⟨rfl, htickets, congrArg (· ++ _) hhistory, fun r hr => ?_, hclients⟩
  · refine hchange.keepsSettled fun hs => ?_
    have ht := (Store.settled_some hfind).mp hs
    rw [ht.held hheld]
    exact ⟨hid, ht.status, fun h => absurd h hclient, fun _ => leadsTo_singleton ht.status⟩
  · obtain rfl := List.mem_singleton.mp hr
    exact hid

end Written

/-! ## Local ingestion -/

theorem upsertLocalTicket_eq_ok {row : Ticket} (h : upsertLocalTicket s row = .ok s') :
    ∃ t, t.id = row.id ∧ t.clientId = row.clientId ∧ t.status = row.status ∧ Written s t s' := by
  unfold upsertLocalTicket at h
  split at h
  · rename_i existing hfind
    split at h
    · cases h
    · split at h
      · cases h
      · rename_i hclient
        cases h
        have hid : existing.id = row.id := Table.key_of_find?_eq_some hfind
        refine ⟨row.overwriteById existing, hid, rfl, rfl, ?_, ?_, rfl, rfl⟩
        · intro d hd
          rw [Ticket.overwriteById_id, hid, hfind, Option.some.injEq] at hd
          rw [← hd]
          exact not_not.mp hclient
        · intro j
          rw [Ticket.overwriteById_id, hid]
          show Table.find? _ j = _
          rw [Table.find?_update_key (k := row.id) (by simp), hfind]
          rfl
  · rename_i hnone
    split at h
    · rename_i tickets hinsert
      cases h
      refine ⟨row, rfl, rfl, rfl, ?_, fun _ => Table.find?_of_insert? hinsert, rfl, rfl⟩
      intro d hd
      rw [hnone] at hd
      cases hd
    · cases h

theorem writeIngestedTicket_keepsSettled {now : String} {clientId : ClientId} {t : TicketInput}
    (hid : rt.redactText t.id = t.id) (hstatus : KeepsStatus rt t.status)
    (hclient : clientId ≠ quarantineClientId)
    (h : writeIngestedTicket rt now clientId s t = .ok s') : KeepsSettled rt s s' := by
  simp only [writeIngestedTicket, bind_eq_ok] at h
  obtain ⟨written, hupsert, h⟩ := h
  obtain ⟨u, huid, huclient, hustatus, hwritten⟩ := upsertLocalTicket_eq_ok hupsert
  have huid : u.id = t.id := huid
  have huclient : u.clientId = clientId := huclient
  have hustatus : u.status = t.status := hustatus
  rw [← huid] at hid
  rw [← hustatus] at hstatus
  rw [← huclient] at hclient
  split at h
  · cases h
    have hkeeps := hwritten.recorded (orText (t.localRow now clientId).updatedAt now)
      "ticket_ingest" hid hstatus hclient
    rwa [huid, huclient, hustatus] at hkeeps
  · rename_i hunrecorded
    cases h
    simp only [Bool.or_eq_true, not_or, Bool.not_eq_true, Option.isNone_eq_false_iff] at hunrecorded
    obtain ⟨hsome, hsame⟩ := hunrecorded
    obtain ⟨status, hfound⟩ := Option.isSome_iff_exists.mp hsome
    obtain ⟨d, hd, rfl⟩ := Option.map_eq_some_iff.mp hfound
    have hd : s.tickets.find? t.id = some d := hd
    rw [hfound, Option.getD_some, statusChanged_eq_false, ← hustatus] at hsame
    exact hwritten.unrecorded hid hstatus (by rw [huid, hd]) hsame

theorem ingestEach_keepsSettled {clientId : ClientId} (hclient : clientId ≠ quarantineClientId)
    {tickets : List (TicketInput × String)}
    (htexts : ∀ t ∈ tickets, rt.redactText t.1.id = t.1.id ∧ KeepsStatus rt t.1.status) :
    KeepsSettled rt s (ingestEach rt clientId s tickets).1 := by
  induction tickets generalizing s with
  | nil => exact .refl s
  | cons ticket tickets ih =>
      obtain ⟨hid, hstatus⟩ := htexts ticket List.mem_cons_self
      rw [ingestEach]
      split
      · exact .refl s
      · split
        · exact .refl s
        · rename_i hwrite
          have hkeeps := writeIngestedTicket_keepsSettled hid hstatus hclient hwrite
          split
          · exact hkeeps
          · exact hkeeps.trans (ih fun t ht => htexts t (List.mem_cons_of_mem _ ht))

/-- The reserved client is never active, so nobody ingests for it. -/
theorem ingestTickets_keepsSettled (hreserved : s.isActive quarantineClientId = false)
    {clientId : String} {tickets : List (TicketInput × String)}
    (htexts : ∀ t ∈ tickets, rt.redactText t.1.id = t.1.id ∧ KeepsStatus rt t.1.status) :
    KeepsSettled rt s (ingestTickets rt s clientId tickets).1 := by
  unfold ingestTickets
  split
  · exact .refl s
  · rename_i normalizedId _
    split
    · exact .refl s
    · rename_i hactive
      have hclient : normalizedId ≠ quarantineClientId := by
        rintro rfl
        simp [requireActiveClient, hreserved] at hactive
      have hkeeps := ingestEach_keepsSettled (s := s) hclient htexts
      split
      · rename_i heq
        rwa [heq] at hkeeps
      · rename_i heq
        rwa [heq] at hkeeps

/-! ## Provider ingestion -/

theorem checkProviderRecord_input {instanceId : NormalizedText} {sourceSystem : String}
    {record : TicketInput} {r : ProviderRecord}
    (h : checkProviderRecord instanceId sourceSystem record = .ok r) : r.input = record := by
  simp only [checkProviderRecord, bind_eq_ok] at h
  obtain ⟨-, -, -, -, h⟩ := h
  split at h
  · simp only [bind_eq_ok] at h
    obtain ⟨-, -, h⟩ := h
    cases h
    rfl
  · cases h

/-- An upsert that writes says which status the ticket had before. -/
theorem upsertProviderTicket_eq_ok {new : Ticket} {instanceId externalId : NormalizedText}
    {ticketId previousStatus : String} {persisted : Bool}
    (h : upsertProviderTicket s new instanceId externalId =
      .ok (s', ticketId, previousStatus, persisted)) :
    (persisted = false ∧ s' = s) ∨
      persisted = true ∧ ∃ t, t.id = ticketId ∧ t.clientId = new.clientId ∧
        t.status = new.status ∧ Written s t s' ∧ previousStatus = s.statusBefore ticketId ∧
        (t.id = new.id ∨ (s.tickets.find? t.id).isSome) ∧
        ((s.tickets.find? t.id).isSome ∨ previousStatus = "") := by
  unfold upsertProviderTicket at h
  split at h
  · rename_i existing hfound
    have hmem : existing ∈ s.tickets := (Store.findByIdentity?_eq_some hfound).1
    have hfind : s.tickets.find? existing.id = some existing :=
      Table.find?_eq_some_iff.mpr ⟨hmem, rfl⟩
    split at h
    · cases h
      exact .inl ⟨rfl, rfl⟩
    · rename_i hclient
      cases h
      refine .inr ⟨rfl, new.overwriteByIdentity existing, rfl, rfl, rfl, ?_, ?_, .inr ?_, .inl ?_⟩
      · refine ⟨?_, ?_, rfl, rfl⟩
        · intro d hd
          rw [Ticket.overwriteByIdentity_id, hfind, Option.some.injEq] at hd
          rw [← hd]
          exact not_not.mp hclient
        · intro j
          show Table.find? _ j = if j = existing.id then _ else _
          rw [Table.find?_update_key (k := existing.id) (by simp), hfind]
          rfl
      · simp [Store.statusBefore, hfind]
      · rw [Ticket.overwriteByIdentity_id, hfind]
        rfl
      · rw [Ticket.overwriteByIdentity_id, hfind]
        rfl
  · split at h
    · rename_i tickets hinsert
      cases h
      have hnone : s.tickets.find? new.id = none := Table.find?_eq_none_of_insert? hinsert
      refine .inr ⟨rfl, new, rfl, rfl, rfl, ?_, ?_, .inl rfl, .inr rfl⟩
      · refine ⟨?_, fun _ => Table.find?_of_insert? hinsert, rfl, rfl⟩
        intro d hd
        rw [hnone] at hd
        cases hd
      · simp [Store.statusBefore, hnone]
    · cases h

theorem KeepsSettled.of_unmapped (h : s' = { s with unmapped := s'.unmapped }) :
    KeepsSettled rt s s' := by
  rw [h]
  exact .of_elsewhere rfl rfl rfl

section Provider

variable {sourceSystem : String} {stamp : Stamp} {r : ProviderRecord} {clientId : ClientId}

/-- The id of a ticket that a record writes is left alone by redaction, as a new one or as one that
is settled. -/
theorem redactText_id_of_upsert {t new : Ticket} (hnew : rt.redactText new.id = new.id)
    (hs : ∀ id, s.Settled rt id) (h : t.id = new.id ∨ (s.tickets.find? t.id).isSome) :
    rt.redactText t.id = t.id := by
  rcases h with hid | hsome
  · rw [hid, hnew]
  · obtain ⟨d, hd⟩ := Option.isSome_iff_exists.mp hsome
    have hsettled := (Store.settled_some hd).mp (hs t.id)
    rw [← Table.key_of_find?_eq_some hd]
    exact hsettled.id

theorem quarantineRecord_keepsSettled
    (hid : rt.redactText (rt.ticketUuid r.instanceId r.externalId) =
      rt.ticketUuid r.instanceId r.externalId)
    (hstatus : KeepsStatus rt r.input.status)
    (h : quarantineRecord rt sourceSystem stamp s r = .ok s') : KeepsSettled rt s s' := by
  simp only [quarantineRecord, bind_eq_ok] at h
  obtain ⟨⟨written, ticketId, previousStatus, persisted⟩, hupsert, h⟩ := h
  refine KeepsSettled.trans ?_ (.of_unmapped (recordUnmapped_eq h))
  rcases upsertProviderTicket_eq_ok hupsert with
    ⟨-, rfl⟩ | ⟨-, t, -, hclient, ht, hwritten, -, hknown, -⟩
  · exact .refl _
  · refine .of_settled hwritten.clients fun hs => ?_
    refine hwritten.held (redactText_id_of_upsert hid hs hknown) ?_ hclient
    rw [ht]
    exact hstatus

theorem tenantRecord_keepsSettled {written : Option String}
    (hclient : clientId ≠ quarantineClientId)
    (hid : rt.redactText (rt.ticketUuid r.instanceId r.externalId) =
      rt.ticketUuid r.instanceId r.externalId)
    (hstatus : KeepsStatus rt r.input.status)
    (h : tenantRecord rt sourceSystem stamp clientId s r = .ok (s', written)) :
    KeepsSettled rt s s' := by
  simp only [tenantRecord, bind_eq_ok] at h
  obtain ⟨⟨upserted, ticketId, previousStatus, persisted⟩, hupsert, h⟩ := h
  rcases upsertProviderTicket_eq_ok hupsert with
    ⟨rfl, rfl⟩ | ⟨rfl, t, rfl, htclient, htstatus, hwritten, rfl, hknown, hbefore⟩
  · simp only [Bool.not_false, if_true, bind_eq_ok] at h
    obtain ⟨sighted, hsight, h⟩ := h
    cases h
    exact .of_unmapped (recordUnmapped_eq hsight)
  · have htclient : t.clientId = clientId := htclient
    have htstatus : t.status = r.input.status := htstatus
    simp only [Bool.not_true, Bool.false_eq_true, if_false] at h
    rw [← htstatus] at hstatus h
    rw [← htclient] at hclient h
    split at h
    · cases h
      refine .of_settled hwritten.clients fun hs => ?_
      exact hwritten.recorded _ _ (redactText_id_of_upsert hid hs hknown) hstatus hclient
    · rename_i hunrecorded
      cases h
      simp only [Bool.or_eq_true, not_or, Bool.not_eq_true, beq_eq_false_iff_ne,
        statusChanged_eq_false] at hunrecorded
      obtain ⟨hne, hsame⟩ := hunrecorded
      obtain ⟨d, hd⟩ := Option.isSome_iff_exists.mp (hbefore.resolve_right hne)
      rw [Store.statusBefore, hd] at hsame
      refine .of_settled hwritten.clients fun hs => ?_
      exact hwritten.unrecorded (redactText_id_of_upsert hid hs hknown) hstatus hd hsame

theorem ingestProviderRecord_keepsSettled {connector : ConnectorInstance}
    {state state' : Store × IngestProgress} {recordStamp : TicketInput × Stamp}
    (hreserved : state.1.isActive quarantineClientId = false)
    (hid : ∀ externalId, normalizeClientId recordStamp.1.externalId = some externalId →
      rt.redactText (rt.ticketUuid connector.connectorInstanceId externalId) =
        rt.ticketUuid connector.connectorInstanceId externalId)
    (hstatus : KeepsStatus rt recordStamp.1.status)
    (h : ingestProviderRecord rt connector state recordStamp = .ok state') :
    KeepsSettled rt state.1 state'.1 := by
  obtain ⟨s, progress⟩ := state
  obtain ⟨record, stamp⟩ := recordStamp
  simp only [ingestProviderRecord, bind_eq_ok] at h
  obtain ⟨r, hcheck, h⟩ := h
  obtain ⟨hinstance, hexternal, -⟩ := checkProviderRecord_eq_ok hcheck
  have hinput : r.input = record := checkProviderRecord_input hcheck
  have hid := hid r.externalId hexternal
  rw [← hinstance] at hid
  have hstatus : KeepsStatus rt r.input.status := by rw [hinput]; exact hstatus
  split at h
  · rename_i clientId _
    simp only [bind_eq_ok] at h
    obtain ⟨_, hresolved, ⟨written, stored⟩, htenant, h⟩ := h
    have hclient : clientId ≠ quarantineClientId := by
      rintro rfl
      have hreserved : s.isActive quarantineClientId = false := hreserved
      simp [checkResolvedClient, hreserved] at hresolved
    have hkeeps := tenantRecord_keepsSettled hclient hid hstatus htenant
    split at h
    · cases h
      exact hkeeps
    · cases h
      exact hkeeps
  · simp only [bind_eq_ok] at h
    obtain ⟨written, hquarantine, h⟩ := h
    cases h
    exact quarantineRecord_keepsSettled hid hstatus hquarantine

theorem ingestProviderRecords_keepsSettled {connectorInstanceId : String}
    {records : List (TicketInput × Stamp)} {progress : IngestProgress}
    (hreserved : s.isActive quarantineClientId = false)
    (htexts : ∀ record ∈ records, KeepsStatus rt record.1.status ∧
      ∀ instanceId externalId, normalizeClientId (some connectorInstanceId) = some instanceId →
        normalizeClientId record.1.externalId = some externalId →
        rt.redactText (rt.ticketUuid instanceId externalId) =
          rt.ticketUuid instanceId externalId)
    (h : ingestProviderRecords rt s connectorInstanceId records = .ok (s', progress)) :
    KeepsSettled rt s s' := by
  simp only [ingestProviderRecords, bind_eq_ok] at h
  obtain ⟨instanceId, hrequired, h⟩ := h
  have hinstance := required_eq_ok.mp hrequired
  split at h
  · cases h
  · rename_i connector hfind
    simp only [bind_eq_ok] at h
    obtain ⟨-, -, h⟩ := h
    have hkey : connector.connectorInstanceId = instanceId := Table.key_of_find?_eq_some hfind
    have hround : ∀ record ∈ records, ∀ state state' : Store × IngestProgress,
        KeepsSettled rt s state.1 → ingestProviderRecord rt connector state record = .ok state' →
        KeepsSettled rt s state'.1 := by
      intro record hrecord state state' hstate hstep
      obtain ⟨hstatus, hids⟩ := htexts record hrecord
      refine hstate.trans (ingestProviderRecord_keepsSettled (hstate.reserved hreserved) ?_
        hstatus hstep)
      rw [hkey]
      exact fun externalId => hids instanceId externalId hinstance
    exact foldlM_invariant hround (.refl s) h

end Provider

/-! ## End-user tickets -/

theorem allocateEndUserTicket_keepsSettled {request : EndUserRequest} {now : String}
    {clientId : ClientId} {ids : List String} (hclient : clientId ≠ quarantineClientId)
    (hids : ∀ id ∈ ids, rt.redactText id = id) (hnew : KeepsStatus rt "new")
    (h : allocateEndUserTicket rt s request now clientId ids = .ok s') : KeepsSettled rt s s' := by
  induction ids with
  | nil => cases h
  | cons id ids ih =>
      rw [allocateEndUserTicket] at h
      split at h
      · cases h
      · split at h
        · rename_i tickets hinsert
          cases h
          have hnone : s.tickets.find? id = none := Table.find?_eq_none_of_insert? hinsert
          have hwritten : Written s (request.row rt now id clientId) { s with tickets } := by
            refine ⟨?_, fun _ => Table.find?_of_insert? hinsert, rfl, rfl⟩
            intro d hd
            cases hnone.symm.trans hd
          have hkeeps := hwritten.recorded now "end_user" (hids id List.mem_cons_self) hnew hclient
          have hbefore : s.statusBefore (request.row rt now id clientId).id = "" := by
            have hnone' : s.tickets.find? (request.row rt now id clientId).id = none := hnone
            rw [Store.statusBefore, hnone']
            rfl
          rwa [hbefore] at hkeeps
        · exact ih (fun i hi => hids i (List.mem_cons_of_mem id hi)) h

theorem createEndUserTicket_keepsSettled {request : EndUserRequest} {now id₁ id₂ id₃ : String}
    (hreserved : s.isActive quarantineClientId = false)
    (hids : ∀ id ∈ [id₁, id₂, id₃], rt.redactText id = id) (hnew : KeepsStatus rt "new")
    (h : createEndUserTicket rt s request now id₁ id₂ id₃ = .ok s') : KeepsSettled rt s s' := by
  simp only [createEndUserTicket, bind_eq_ok] at h
  obtain ⟨clientId, -, _, hactive, _, -, _, -, h⟩ := h
  have hclient : clientId ≠ quarantineClientId := by
    rintro rfl
    simp [requireActiveClient, hreserved] at hactive
  exact allocateEndUserTicket_keepsSettled hclient hids hnew h

theorem escalateEndUserTicket_keepsSettled {ticketId clientId requesterId now : String}
    (hescalated : KeepsStatus rt "escalated") (hlower : rt.lower "escalated" = "escalated")
    (h : escalateEndUserTicket rt s ticketId clientId requesterId now = .ok s') :
    KeepsSettled rt s s' := by
  unfold escalateEndUserTicket at h
  split at h
  · cases h
    exact .refl _
  · rename_i client _
    split at h
    · cases h
      exact .refl _
    · rename_i current hcurrent
      obtain ⟨hfind, howner⟩ := Option.filter_eq_some_iff.mp hcurrent
      simp only [Bool.and_eq_true, beq_iff_eq] at howner
      obtain rfl : current.clientId = client := howner.1
      obtain rfl : current.id = ticketId := Table.key_of_find?_eq_some hfind
      simp only [bind_eq_ok] at h
      obtain ⟨_, hquarantined, h⟩ := h
      have hclient : current.clientId ≠ quarantineClientId := by
        intro hheld
        simp [requireTicketNotQuarantined, hfind, hheld] at hquarantined
      have hwritten : Written s (current.escalate now)
          { s with
            tickets := s.tickets.update (fun t => t.id = current.id) (Ticket.escalate now)
              (Ticket.escalate_id now) } := by
        refine ⟨?_, ?_, rfl, rfl⟩
        · intro d hd
          cases hfind.symm.trans hd
          rfl
        · intro j
          show Table.find? _ j = if j = current.id then _ else _
          rw [Table.find?_update_key (k := current.id) (by simp), hfind]
          rfl
      refine .of_settled ?_ fun hs => ?_
      · split at h <;> cases h <;> rfl
      · have hid := ((Store.settled_some hfind).mp (hs current.id)).id
        split at h
        · cases h
          have hkeeps := hwritten.recorded now "end_user" hid hescalated hclient
          have hbefore : s.statusBefore (current.escalate now).id = current.status := by
            simp [Store.statusBefore, Ticket.escalate_id, hfind]
          rwa [hbefore] at hkeeps
        · rename_i hsame
          cases h
          refine hwritten.unrecorded hid hescalated hfind ?_
          have hstrip : Text.strip "escalated" = "escalated" := by decide
          rw [SameStatus, Ticket.escalate, hstrip, hlower]
          simpa using hsame

/-! ## Leaving quarantine -/

section Retenanting

variable {now : String} {instanceId companyId : NormalizedText} {clientId : ClientId}

/-- The update for one ticket moves it and leaves all others as they are. -/
theorem find?_update_assign {t : Ticket} (hfind : s.tickets.find? t.id = some t)
    (hheld : t.clientId = quarantineClientId) (j : String) :
    (s.tickets.update (fun q => q.id = t.id && q.clientId = quarantineClientId)
      (Ticket.assign clientId) (Ticket.assign_id clientId)).find? j =
      if j = t.id then some (t.assign clientId) else s.tickets.find? j := by
  rw [Table.find?_update]
  by_cases hj : j = t.id
  · rw [if_pos hj, hj, hfind]
    simp [hheld]
  · rw [if_neg hj]
    cases hother : s.tickets.find? j with
    | none => rfl
    | some q =>
        have hq : q.id ≠ t.id := by
          rwa [Table.key_of_find?_eq_some hother]
        simp [hq]

theorem retenantTicket_keepsSettled {t : Ticket} (hclient : clientId ≠ quarantineClientId)
    (hfind : s.tickets.find? t.id = some t) (hheld : t.clientId = quarantineClientId) :
    KeepsSettled rt s (retenantTicket rt now instanceId companyId clientId s t) := by
  refine .of_settled rfl fun hs => ?_
  exact keepsSettled_assign hfind hheld hclient (find?_update_assign hfind hheld) rfl rfl
    ((Store.settled_some hfind).mp (hs t.id)).id

theorem foldl_retenantTicket_keepsSettled {ts : List Ticket}
    (hclient : clientId ≠ quarantineClientId) (hdistinct : ts.Pairwise fun t u => t.id ≠ u.id)
    (hstored : ∀ t ∈ ts, s.tickets.find? t.id = some t ∧ t.clientId = quarantineClientId) :
    KeepsSettled rt s (ts.foldl (retenantTicket rt now instanceId companyId clientId) s) := by
  induction ts generalizing s with
  | nil => exact .refl s
  | cons t ts ih =>
      obtain ⟨hne, hdistinct⟩ := List.pairwise_cons.mp hdistinct
      obtain ⟨hfind, hheld⟩ := hstored t List.mem_cons_self
      refine (retenantTicket_keepsSettled hclient hfind hheld).trans (ih hdistinct ?_)
      intro u hu
      obtain ⟨hfound, hheld'⟩ := hstored u (List.mem_cons_of_mem t hu)
      have hother := @find?_update_assign s clientId t hfind hheld u.id
      rw [if_neg (hne u hu).symm] at hother
      exact ⟨hother.trans hfound, hheld'⟩

theorem Store.quarantinedTickets_distinct :
    (s.quarantinedTickets instanceId companyId).Pairwise fun t u => t.id ≠ u.id := by
  have hrows : s.tickets.rows.Pairwise fun t u => t.id ≠ u.id :=
    List.pairwise_map.mp s.tickets.nodup
  have hfiltered := hrows.filter (Ticket.heldFor instanceId companyId)
  have hperm := (List.perm_insertionSort (fun t u : Ticket => t.id ≤ u.id)
    (s.tickets.rows.filter (Ticket.heldFor instanceId companyId))).symm
  exact (hperm.pairwise_iff fun h => Ne.symm h).mp hfiltered

theorem retenantQuarantinedTickets_keepsSettled
    (h : retenantQuarantinedTickets rt now s instanceId companyId clientId = .ok s') :
    KeepsSettled rt s s' := by
  simp only [retenantQuarantinedTickets] at h
  split at h
  · cases h
    exact .refl s
  · split at h
    · cases h
    · rename_i hclient
      split at h
      · cases h
      · split at h
        · cases h
        · split at h
          · cases h
          · cases h
            refine foldl_retenantTicket_keepsSettled hclient Store.quarantinedTickets_distinct ?_
            intro t ht
            obtain ⟨hmem, hheld⟩ := Store.mem_quarantinedTickets.mp ht
            exact ⟨Table.find?_eq_some_iff.mpr ⟨hmem, rfl⟩, (Ticket.heldFor_iff.mp hheld).1⟩

theorem verifyClientConnectorMapping_keepsSettled {scope : ClientScope} {mappingId : String}
    (h : verifyClientConnectorMapping rt s scope mappingId now = .ok s') :
    KeepsSettled rt s s' := by
  unfold verifyClientConnectorMapping at h
  split at h
  · cases h
  · rename_i id _
    split at h
    · cases h
    · split at h
      · cases h
      · have hmarked : KeepsSettled rt s (s.withVerified scope id) := .of_elsewhere rfl rfl rfl
        exact hmarked.trans (retenantQuarantinedTickets_keepsSettled h)

theorem reclassifyQuarantinedTicket_keepsSettled {ticketId target : String}
    (h : reclassifyQuarantinedTicket rt s ticketId target now = .ok s') :
    KeepsSettled rt s s' := by
  simp only [reclassifyQuarantinedTicket, bind_eq_ok, raiseIf_eq_ok] at h
  obtain ⟨id, -, client, -, _, hclient, _, -, h⟩ := h
  split at h
  · cases h
  · rename_i t hfind
    simp only [bind_eq_ok, raiseIf_eq_ok, not_not] at h
    obtain ⟨_, hheld, h⟩ := h
    cases h
    have hkey : t.id = id.val := Table.key_of_find?_eq_some hfind
    rw [← hkey] at hfind ⊢
    refine .of_settled rfl fun hs => ?_
    exact keepsSettled_assign hfind hheld hclient (find?_update_assign hfind hheld) rfl rfl
      ((Store.settled_some hfind).mp (hs t.id)).id

end Retenanting

/-! ## Clients, connectors and the unmapped ledger -/

theorem createClient_keepsSettled {clientId name : String}
    (h : createClient rt s clientId name = .ok s') : KeepsSettled rt s s' := by
  simp only [createClient, rejectReservedClientId, bind_eq_ok] at h
  obtain ⟨id, -, _, hreserved, _, -, h⟩ := h
  split at hreserved
  · cases hreserved
  · rename_i hid
    split at h
    · rename_i clients hinsert
      cases h
      refine .of_clients rfl rfl ?_
      show clients.find? quarantineClientId = _
      rw [Table.find?_of_insert? hinsert, if_neg]
      rintro rfl
      exact hid rfl
    · cases h

theorem setClientStatus_keepsSettled {scope : ClientScope} {clientId status : String}
    (h : setClientStatus s scope clientId status = .ok s') : KeepsSettled rt s s' := by
  unfold setClientStatus at h
  split at h
  · cases h
    exact .refl s
  · rename_i id _
    simp only [rejectReservedClientId, bind_eq_ok] at h
    obtain ⟨_, hreserved, h⟩ := h
    split at hreserved
    · cases hreserved
    · rename_i hid
      split at h
      · cases h
      · cases h
        refine .of_clients rfl rfl ?_
        show Table.find? _ _ = _
        rw [Table.find?_update]
        cases hfind : s.clients.find? quarantineClientId with
        | none => rfl
        | some c =>
            have hc : c.clientId ≠ id := by
              rw [Table.key_of_find?_eq_some hfind]
              rintro rfl
              exact hid rfl
            simp [hc]

theorem createConnectorInstance_keepsSettled {id : NormalizedText}
    {connectorType displayName : String} {clientId : Option String}
    (h : createConnectorInstance rt s id connectorType displayName clientId = .ok s') :
    KeepsSettled rt s s' := by
  rw [createConnectorInstance_eq h]
  exact .of_elsewhere rfl rfl rfl

theorem updateConnectorInstance_keepsSettled {connectorInstanceId : String}
    {fields : InstanceFields} (h : updateConnectorInstance s connectorInstanceId fields = .ok s') :
    KeepsSettled rt s s' := by
  rw [updateConnectorInstance_eq h]
  exact .of_elsewhere rfl rfl rfl

theorem createClientConnectorMapping_keepsSettled {scope : ClientScope}
    {mappingId : NormalizedText} {connectorInstanceId externalCompanyId clientId : String}
    {externalCompanyName : Option String}
    (h : createClientConnectorMapping rt s scope mappingId connectorInstanceId externalCompanyId
      clientId externalCompanyName = .ok s') : KeepsSettled rt s s' := by
  rw [createClientConnectorMapping_eq h]
  exact .of_elsewhere rfl rfl rfl

/-! ## Runs -/

/-- Redaction leaves the ids and the statuses of the tickets that a call writes as they are. -/
def KeepsTexts (rt : Runtime TicketInput) : StoreCall → Prop
  | .ingestTickets _ tickets =>
      ∀ t ∈ tickets, rt.redactText t.1.id = t.1.id ∧ KeepsStatus rt t.1.status
  | .ingestProviderTickets connectorInstanceId records =>
      ∀ record ∈ records, KeepsStatus rt record.1.status ∧
        ∀ instanceId externalId, normalizeClientId (some connectorInstanceId) = some instanceId →
          normalizeClientId record.1.externalId = some externalId →
          rt.redactText (rt.ticketUuid instanceId externalId) = rt.ticketUuid instanceId externalId
  | .createEndUserTicket _ _ id₁ id₂ id₃ =>
      (∀ id ∈ [id₁, id₂, id₃], rt.redactText id = id) ∧ KeepsStatus rt "new"
  | .escalateEndUserTicket .. => KeepsStatus rt "escalated"
  | _ => True

/-- The step lemma, one case for each operation of the store. -/
theorem StoreCall.apply_keepsSettled (hlower : rt.lower "escalated" = "escalated")
    (hreserved : s.isActive quarantineClientId = false) (l : StoreCall) (hl : KeepsTexts rt l) :
    KeepsSettled rt s (l.apply rt s) := by
  have hrefl : KeepsSettled rt s s := .refl s
  cases l with
  | createClient => exact committed_relation hrefl fun _ h => createClient_keepsSettled h
  | setClientStatus => exact committed_relation hrefl fun _ h => setClientStatus_keepsSettled h
  | createConnectorInstance =>
      exact committed_relation hrefl fun _ h => createConnectorInstance_keepsSettled h
  | updateConnectorInstance =>
      exact committed_relation hrefl fun _ h => updateConnectorInstance_keepsSettled h
  | createClientConnectorMapping =>
      exact committed_relation hrefl fun _ h => createClientConnectorMapping_keepsSettled h
  | verifyClientConnectorMapping =>
      exact committed_relation hrefl fun _ h => verifyClientConnectorMapping_keepsSettled h
  | ingestTickets => exact ingestTickets_keepsSettled hreserved hl
  | ingestProviderTickets =>
      exact ingestProviderTickets_relation hrefl fun _ _ h =>
        ingestProviderRecords_keepsSettled hreserved hl h
  | reclassifyQuarantinedTicket =>
      exact committed_relation hrefl fun _ h => reclassifyQuarantinedTicket_keepsSettled h
  | createEndUserTicket =>
      exact committed_relation hrefl fun _ h =>
        createEndUserTicket_keepsSettled hreserved hl.1 hl.2 h
  | escalateEndUserTicket =>
      exact committed_relation hrefl fun _ h => escalateEndUserTicket_keepsSettled hl hlower h
  | recordUnmapped =>
      exact committed_relation hrefl fun _ h => .of_unmapped (recordUnmappedRecord_eq h)
  | resolveUnmappedRecord =>
      exact committed_relation hrefl fun _ h => .of_unmapped (resolveUnmappedRecord_eq h)

theorem Store.fresh_settled (id : String) : Store.fresh.Settled rt id := rfl

theorem Store.fresh_isActive : Store.fresh.isActive quarantineClientId = false := by decide

theorem settled_run (hlower : rt.lower "escalated" = "escalated") {ls : List StoreCall}
    (hguard : (tenancy rt).Guarded (fun _ => KeepsTexts rt) ls) (id : String) :
    ((tenancy rt).run ls).Settled rt id := by
  have hrun : (∀ id, ((tenancy rt).run ls).Settled rt id) ∧
      ((tenancy rt).run ls).isActive quarantineClientId = false := by
    refine Machine.run_invariant_of_guarded
      (I := fun s : Store => (∀ id, s.Settled rt id) ∧ s.isActive quarantineClientId = false)
      ⟨Store.fresh_settled, Store.fresh_isActive⟩ ?_ hguard
    intro s l hs hl
    have hkeeps := l.apply_keepsSettled hlower hs.2 hl
    exact ⟨hkeeps.settled hs.1, hkeeps.reserved hs.2⟩
  exact hrun.1 id

/-- As long as redaction leaves the ids and the statuses that are written as they are, the rows of
every ticket outside quarantine lead to its status. -/
theorem leadsTo_status (hlower : rt.lower "escalated" = "escalated") (ls : List StoreCall)
    (hguard : (tenancy rt).Guarded (fun _ => KeepsTexts rt) ls) :
    ∀ t ∈ ((tenancy rt).run ls).tickets, t.clientId ≠ quarantineClientId →
      LeadsTo rt (((tenancy rt).run ls).rowsOf t.id) t.status := by
  intro t ht hclient
  have hfind : ((tenancy rt).run ls).tickets.find? t.id = some t :=
    Table.find?_eq_some_iff.mpr ⟨ht, rfl⟩
  exact ((Store.settled_some hfind).mp (settled_run hlower hguard t.id)).leads hclient

/-! ## A ticket that waits for a key -/

/-- Redaction takes what follows `key:` for a secret. -/
def keyRuntime : Runtime TicketInput :=
  { deskRuntime with
    redactText := fun text =>
      if text = "Waiting for key: A12" then "Waiting for key: [redacted]" else text }

def doorTicket (status : String) : TicketInput where
  id := "T-1"
  client := "Acme"
  subject := "Front door locked"
  body := "The front door does not open."
  priority := "normal"
  status := status

def ingestDoorTicket (status : String) : StoreCall :=
  .ingestTickets "acme" [(doorTicket status, "2026-01-05T09:00:00+00:00")]

theorem leadsTo_status_door :
    ∃ t ∈ ((tenancy keyRuntime).run
        [.createClient "acme" "Acme", ingestDoorTicket "new", ingestDoorTicket "open"]).tickets,
      t.clientId ≠ quarantineClientId ∧
        LeadsTo keyRuntime (((tenancy keyRuntime).run
          [.createClient "acme" "Acme", ingestDoorTicket "new", ingestDoorTicket "open"]).rowsOf
            t.id) t.status := by
  have hnew : ∀ t ∈ [(doorTicket "new", "2026-01-05T09:00:00+00:00")],
      keyRuntime.redactText t.1.id = t.1.id ∧ KeepsStatus keyRuntime t.1.status := by decide
  have hopen : ∀ t ∈ [(doorTicket "open", "2026-01-05T09:00:00+00:00")],
      keyRuntime.redactText t.1.id = t.1.id ∧ KeepsStatus keyRuntime t.1.status := by decide
  have hticket : ∃ t ∈ ((tenancy keyRuntime).run
      [.createClient "acme" "Acme", ingestDoorTicket "new", ingestDoorTicket "open"]).tickets.rows,
      t.clientId ≠ quarantineClientId := by decide
  obtain ⟨t, ht, hclient⟩ := hticket
  have hguard : (tenancy keyRuntime).Guarded (fun _ => KeepsTexts keyRuntime)
      [.createClient "acme" "Acme", ingestDoorTicket "new", ingestDoorTicket "open"] :=
    ⟨trivial, hnew, hopen, trivial⟩
  exact ⟨t, ht, hclient, leadsTo_status (by decide) _ hguard t ht hclient⟩

theorem not_leadsTo_status : ¬ ∀ ls, ∀ t ∈ ((tenancy keyRuntime).run ls).tickets,
    t.clientId ≠ quarantineClientId →
      LeadsTo keyRuntime (((tenancy keyRuntime).run ls).rowsOf t.id) t.status := by
  intro h
  have hticket : ∃ t ∈ ((tenancy keyRuntime).run
      [.createClient "acme" "Acme", ingestDoorTicket "Waiting for key: A12"]).tickets.rows,
      t.clientId ≠ quarantineClientId ∧
        ∀ r ∈ ((tenancy keyRuntime).run
          [.createClient "acme" "Acme", ingestDoorTicket "Waiting for key: A12"]).rowsOf t.id,
          ¬ SameStatus keyRuntime r.toStatus t.status := by decide
  obtain ⟨t, ht, hclient, hother⟩ := hticket
  obtain ⟨r, hlast, hsame⟩ := (h _ t ht hclient).last
  exact hother r (List.mem_of_getLast? hlast) hsame

end WaitLocalAgent.Tenancy
