import WaitLocalAgent.Foundation.Sorted
import WaitLocalAgent.Verification.Tickets.Naming
import WaitLocalAgent.Verification.Tickets.StatusHistory

/-! # Ticket rows under a provider's records -/

namespace WaitLocalAgent.Tenancy

open Foundation

variable {rt : Runtime TicketInput} {s s' : Store}

/-! ## Identities -/

/-- A connector ticket is stored under the id that is generated for its identity. -/
def Ticket.Keyed (rt : Runtime TicketInput) (t : Ticket) : Prop :=
  ∀ instanceId, t.connectorInstanceId = some instanceId →
    ∃ externalId, t.externalId = some externalId ∧ t.id = rt.ticketUuid instanceId externalId

theorem ofLink_keyed : OfLink (Ticket.Keyed rt) where
  unlinked t h := by simp [Ticket.Keyed, h]
  relink hid hinstance hexternal h := by rwa [Ticket.Keyed, hid, hinstance, hexternal]

theorem keyed_run (rt : Runtime TicketInput) (ls : List StoreCall) :
    ((tenancy rt).run ls).Links (Ticket.Keyed rt) :=
  links_run ofLink_keyed (fun r _ _ _ i hi => ⟨r.externalId, rfl, by cases hi; rfl⟩) ls

def ProviderRecord.Names (r : ProviderRecord) (t : Ticket) : Prop :=
  t.connectorInstanceId = some r.instanceId ∧ t.externalId = some r.externalId

instance (r : ProviderRecord) (t : Ticket) : Decidable (r.Names t) :=
  inferInstanceAs (Decidable (_ ∧ _))

theorem ProviderRecord.Names.id_eq {r : ProviderRecord} (hs : s.Links (Ticket.Keyed rt))
    {t : Ticket} (ht : t ∈ s.tickets) (h : r.Names t) :
    t.id = rt.ticketUuid r.instanceId r.externalId := by
  obtain ⟨e, he, hid⟩ := hs t ht r.instanceId h.1
  obtain rfl := Option.some.inj (he.symm.trans h.2)
  exact hid

theorem ProviderRecord.Names.eq {r : ProviderRecord} (hs : s.Links (Ticket.Keyed rt))
    {t u : Ticket} (ht : t ∈ s.tickets) (hu : u ∈ s.tickets) (h : r.Names t) (h' : r.Names u) :
    t = u :=
  Table.eq_of_key_eq ht hu ((h.id_eq hs ht).trans (h'.id_eq hs hu).symm)

theorem findByIdentity?_eq_none_iff {instanceId externalId : NormalizedText} :
    s.findByIdentity? instanceId externalId = none ↔
      ∀ t ∈ s.tickets, ¬ (t.connectorInstanceId = some instanceId ∧ t.externalId = some externalId)
    := by
  simp [Store.findByIdentity?, Table.mem_def]

/-! ## What a record makes of a ticket -/

variable {rs : List ProviderRecord} {q : ProviderRecord}

section Settle

variable {sourceSystem : String} {owner : ProviderRecord → ClientId} {r : ProviderRecord}
  {t u : Ticket}

def ProviderRecord.Takes (owner : ProviderRecord → ClientId) (r : ProviderRecord) (t : Ticket) :
    Prop :=
  r.Names t ∧ t.clientId = owner r

instance (owner : ProviderRecord → ClientId) (r : ProviderRecord) (t : Ticket) :
    Decidable (r.Takes owner t) :=
  inferInstanceAs (Decidable (_ ∧ _))

def ProviderRecord.over (rt : Runtime TicketInput) (sourceSystem : String) (r : ProviderRecord)
    (t : Ticket) : Ticket :=
  (r.row rt "" sourceSystem t.clientId).overwriteByIdentity t

/-- Both timestamps of the record are there, so that no clock is read for them. -/
def ProviderRecord.Dated (r : ProviderRecord) : Prop :=
  Text.strip r.input.createdAt ≠ "" ∧ Text.strip r.input.updatedAt ≠ ""

def settle (rt : Runtime TicketInput) (sourceSystem : String) (owner : ProviderRecord → ClientId)
    (t : Ticket) (r : ProviderRecord) : Ticket :=
  if r.Takes owner t then r.over rt sourceSystem t else t

theorem ProviderRecord.Dated.row_eq (h : r.Dated) (now : String) (clientId : ClientId) :
    r.row rt now sourceSystem clientId = r.row rt "" sourceSystem clientId := by
  simp [ProviderRecord.row, orText, h.1, h.2]

theorem ProviderRecord.Dated.over_createdAt (h : r.Dated) :
    (r.over rt sourceSystem t).createdAt ≠ "" := by
  simp only [ProviderRecord.over, Ticket.overwriteByIdentity]
  split
  · simp [ProviderRecord.row, orText, h.1]
  · assumption

/-- A record that was written last leaves nothing of the ones before but when the first came. -/
theorem over_over (h : t.createdAt ≠ "") :
    r.over rt sourceSystem (q.over rt sourceSystem t) = r.over rt sourceSystem t := by
  simp [ProviderRecord.over, Ticket.overwriteByIdentity, ProviderRecord.row, h]

theorem ProviderRecord.Dated.over_over (h : r.Dated) :
    r.over rt sourceSystem (r.over rt sourceSystem t) = r.over rt sourceSystem t := by
  by_cases ht : t.createdAt = ""
  · simp [ProviderRecord.over, Ticket.overwriteByIdentity, ProviderRecord.row, orText, ht, h.1]
  · exact Tenancy.over_over ht

@[simp] theorem settle_id (t : Ticket) (r : ProviderRecord) :
    (settle rt sourceSystem owner t r).id = t.id := by
  rw [settle]
  split <;> rfl

/-- Which records are written to a ticket does not depend on those that were. -/
theorem takes_settle :
    q.Takes owner (settle rt sourceSystem owner t r) ↔ q.Takes owner t := by
  rw [settle]
  split <;> rfl

theorem names_settle :
    q.Names (settle rt sourceSystem owner t r) ↔ q.Names t := by
  rw [settle]
  split <;> rfl

theorem settle_createdAt (h : t.createdAt ≠ "") :
    (settle rt sourceSystem owner t r).createdAt = t.createdAt := by
  rw [settle]
  split
  · simp [ProviderRecord.over, Ticket.overwriteByIdentity, h]
  · rfl

/-- What records make of a ticket, one after the other. -/
def replay (rt : Runtime TicketInput) (sourceSystem : String) (owner : ProviderRecord → ClientId)
    (rs : List ProviderRecord) (t : Ticket) : Ticket :=
  rs.foldl (settle rt sourceSystem owner) t

@[simp] theorem replay_nil : replay rt sourceSystem owner [] t = t := rfl

@[simp] theorem replay_cons :
    replay rt sourceSystem owner (r :: rs) t =
      replay rt sourceSystem owner rs (settle rt sourceSystem owner t r) := rfl

@[simp] theorem replay_concat :
    replay rt sourceSystem owner (rs ++ [r]) t =
      settle rt sourceSystem owner (replay rt sourceSystem owner rs t) r := by
  simp [replay]

theorem takes_replay :
    q.Takes owner (replay rt sourceSystem owner rs t) ↔ q.Takes owner t := by
  induction rs generalizing t with
  | nil => rfl
  | cons r rs ih => rw [replay_cons, ih, takes_settle]

/-- Whatever was written to a ticket in between, the last record decides. -/
theorem over_replay (h : t.createdAt ≠ "") :
    r.over rt sourceSystem (replay rt sourceSystem owner rs t) = r.over rt sourceSystem t := by
  induction rs generalizing t with
  | nil => rfl
  | cons q rs ih =>
      rw [replay_cons, ih (by rwa [settle_createdAt h]), settle]
      split
      · exact Tenancy.over_over h
      · rfl

/-- A ticket that records leave as it is, once another one is settled. -/
theorem replay_concat_settle (hr : r.Dated)
    (ht : replay rt sourceSystem owner rs t = t ∨ r.Takes owner t) :
    replay rt sourceSystem owner (rs ++ [r]) (settle rt sourceSystem owner t r) =
      settle rt sourceSystem owner t r := by
  rw [replay_concat]
  by_cases htakes : r.Takes owner t
  · have hover : settle rt sourceSystem owner t r = r.over rt sourceSystem t := if_pos htakes
    rw [settle, if_pos (takes_replay.mpr (takes_settle.mpr htakes)), hover,
      over_replay hr.over_createdAt, hr.over_over]
  · have hsame : settle rt sourceSystem owner t r = t := if_neg htakes
    rw [hsame, ht.resolve_right htakes, hsame]

theorem ProviderRecord.Dated.settle_row (h : r.Dated) :
    settle rt sourceSystem owner (r.row rt "" sourceSystem (owner r)) r =
      r.row rt "" sourceSystem (owner r) := by
  rw [settle, if_pos ⟨⟨rfl, rfl⟩, rfl⟩]
  simp [ProviderRecord.over, Ticket.overwriteByIdentity, ProviderRecord.row, orText, h.1]

/-! ### Statuses -/

/-- Records on a client's ticket that add nothing to its history. -/
def Quiet (rt : Runtime TicketInput) (sourceSystem : String) (owner : ProviderRecord → ClientId) :
    List ProviderRecord → Ticket → Prop
  | [], _ => True
  | r :: rs, t =>
      (r.Takes owner t → t.clientId ≠ quarantineClientId →
        t.status ≠ "" ∧ SameStatus rt t.status r.input.status) ∧
      Quiet rt sourceSystem owner rs (settle rt sourceSystem owner t r)

theorem settle_of_takes (h : r.Takes owner t) :
    (settle rt sourceSystem owner t r).status = r.input.status ∧
      (settle rt sourceSystem owner t r).clientId = t.clientId := by
  rw [settle, if_pos h]
  exact ⟨rfl, rfl⟩

variable {rs : List ProviderRecord}

/-- The status of a ticket is that of the last record that was written to it. -/
theorem exists_status_replay (h : ∃ r ∈ rs, r.Takes owner t) :
    ∃ q ∈ rs, q.Takes owner t ∧ (replay rt sourceSystem owner rs t).status = q.input.status := by
  induction rs using List.reverseRecOn with
  | nil => simp at h
  | append_singleton rs r ih =>
      rw [replay_concat]
      by_cases hr : r.Takes owner t
      · exact ⟨r, by simp, hr, (settle_of_takes (takes_replay.mpr hr)).1⟩
      · obtain ⟨q, hq, htakes⟩ := h
        have hq' : q ∈ rs := by
          rcases List.mem_append.mp hq with hq | hq
          · exact hq
          · rw [List.mem_singleton.mp hq] at htakes
            exact absurd htakes hr
        obtain ⟨p, hp, hptakes, hstatus⟩ := ih ⟨q, hq', htakes⟩
        refine ⟨p, by simp [hp], hptakes, ?_⟩
        rwa [settle, if_neg fun h => hr (takes_replay.mp h)]

theorem quiet_of_forall (hclient : t.clientId ≠ quarantineClientId →
      ∀ r ∈ rs, r.Takes owner t → (t.status ≠ "" ∧ SameStatus rt t.status r.input.status) ∧
        r.input.status ≠ "" ∧ ∀ q ∈ rs, q.Takes owner t →
          SameStatus rt r.input.status q.input.status) :
    Quiet rt sourceSystem owner rs t := by
  induction rs generalizing t with
  | nil => trivial
  | cons r rs ih =>
      refine ⟨fun hr hne => (hclient hne r (by simp) hr).1, ih fun hne q hq hqtakes => ?_⟩
      rw [takes_settle] at hqtakes
      by_cases hr : r.Takes owner t
      · obtain ⟨hstatus, howner⟩ := @settle_of_takes rt sourceSystem owner r t hr
        rw [howner] at hne
        obtain ⟨-, hne', hsame⟩ := hclient hne r (by simp) hr
        obtain ⟨-, hqne, hqsame⟩ := hclient hne q (by simp [hq]) hqtakes
        rw [hstatus]
        refine ⟨⟨hne', hsame q (by simp [hq]) hqtakes⟩, hqne, fun p hp hptakes => ?_⟩
        exact hqsame p (by simp [hp]) (takes_settle.mp hptakes)
      · have hsettle : settle rt sourceSystem owner t r = t := if_neg hr
        rw [hsettle] at hne ⊢
        obtain ⟨hnow, hqne, hqsame⟩ := hclient hne q (by simp [hq]) hqtakes
        exact ⟨hnow, hqne, fun p hp hptakes => hqsame p (by simp [hp]) hptakes⟩

theorem replay_eq_self (h : ∀ r ∈ rs, ¬ r.Takes owner t) :
    replay rt sourceSystem owner rs t = t := by
  induction rs with
  | nil => rfl
  | cons r rs ih =>
      rw [replay_cons, settle, if_neg (h r (by simp))]
      exact ih fun q hq => h q (by simp [hq])

/-- What is written quietly has the status that stood there. -/
theorem Quiet.same (h : Quiet rt sourceSystem owner rs t)
    (hclient : t.clientId ≠ quarantineClientId) :
    ∀ r ∈ rs, r.Takes owner t → t.status ≠ "" ∧ SameStatus rt t.status r.input.status ∧
      (r.input.status ≠ "" ∨ (replay rt sourceSystem owner rs t).status = r.input.status) := by
  induction rs generalizing t with
  | nil => simp
  | cons q rs ih =>
      obtain ⟨hfirst, hrest⟩ := h
      by_cases hq : q.Takes owner t
      · obtain ⟨hne, hsame⟩ := hfirst hq hclient
        obtain ⟨hstatus, howner⟩ := @settle_of_takes rt sourceSystem owner q t hq
        have hlater := ih hrest (by rwa [howner])
        simp only [takes_settle, hstatus] at hlater
        intro r hr htakes
        rcases List.mem_cons.mp hr with rfl | hr
        · refine ⟨hne, hsame, ?_⟩
          by_cases hmore : ∃ p ∈ rs, p.Takes owner t
          · obtain ⟨p, hp, hptakes⟩ := hmore
            exact .inl (hlater p hp hptakes).1
          · -- it is the last one that is written
            push Not at hmore
            rw [replay_cons, replay_eq_self fun p hp hp' => hmore p hp (takes_settle.mp hp')]
            exact .inr hstatus
        · obtain ⟨-, hr', hlast⟩ := hlater r hr htakes
          exact ⟨hne, hsame.trans hr', hlast⟩
      · have hsettle : settle rt sourceSystem owner t q = t := if_neg hq
        rw [hsettle] at hrest
        intro r hr htakes
        rcases List.mem_cons.mp hr with rfl | hr
        · exact absurd htakes hq
        · rw [replay_cons, hsettle]
          exact ih hrest hclient r hr htakes

/-- Records that a ticket agrees with already are quiet on it when none of their statuses is empty
and all are the same. -/
theorem quiet_iff (hsettled : replay rt sourceSystem owner rs t = t) :
    Quiet rt sourceSystem owner rs t ↔ (t.clientId ≠ quarantineClientId →
      ∀ r ∈ rs, r.Takes owner t → r.input.status ≠ "" ∧
        ∀ q ∈ rs, q.Takes owner t → SameStatus rt r.input.status q.input.status) := by
  constructor
  · intro h hclient r hr htakes
    obtain ⟨hne, hsame, hlast⟩ := h.same hclient r hr htakes
    rw [hsettled] at hlast
    refine ⟨hlast.elim id fun hstatus => hstatus ▸ hne, fun q hq hqtakes => ?_⟩
    exact hsame.symm.trans (h.same hclient q hq hqtakes).2.1
  · intro h
    refine quiet_of_forall fun hclient r hr htakes => ?_
    obtain ⟨hne, hsame⟩ := h hclient r hr htakes
    obtain ⟨q, hq, hqtakes, hstatus⟩ :=
      @exists_status_replay rt sourceSystem owner t rs ⟨r, hr, htakes⟩
    rw [hsettled] at hstatus
    obtain ⟨hqne, hqsame⟩ := h hclient q hq hqtakes
    rw [hstatus]
    exact ⟨⟨hqne, hqsame r hr htakes⟩, hne, hsame⟩

end Settle

/-! ## The reserved client -/

theorem writeIngestedTicket_clients {now : String} {clientId : ClientId} {t : TicketInput}
    (h : writeIngestedTicket rt now clientId s t = .ok s') : s'.clients = s.clients := by
  simp only [writeIngestedTicket, bind_eq_ok] at h
  obtain ⟨written, hupsert, h⟩ := h
  have hwritten : written.clients = s.clients := by
    unfold upsertLocalTicket at hupsert
    split at hupsert
    · split at hupsert
      · cases hupsert
      · split at hupsert
        · cases hupsert
        · cases hupsert
          rfl
    · split at hupsert
      · cases hupsert
        rfl
      · cases hupsert
  split at h
  · cases h
    exact hwritten
  · cases h
    exact hwritten

theorem ingestEach_clients {clientId : ClientId} (tickets : List (TicketInput × String)) :
    (ingestEach rt clientId s tickets).1.clients = s.clients := by
  induction tickets generalizing s with
  | nil => rfl
  | cons ticket tickets ih =>
      rw [ingestEach]
      split
      · rfl
      · split
        · rfl
        · rename_i hwrite
          have hclients := writeIngestedTicket_clients hwrite
          split
          · exact hclients
          · exact ih.trans hclients

theorem ingestTickets_clients {clientId : String} {tickets : List (TicketInput × String)} :
    (ingestTickets rt s clientId tickets).1.clients = s.clients := by
  unfold ingestTickets
  split
  · rfl
  · rename_i normalizedId _
    split
    · rfl
    · have hclients := @ingestEach_clients rt s normalizedId tickets
      split
      · rename_i heq
        rwa [heq] at hclients
      · rename_i heq
        rwa [heq] at hclients

theorem createEndUserTicket_clients {request : EndUserRequest} {now id₁ id₂ id₃ : String}
    (h : createEndUserTicket rt s request now id₁ id₂ id₃ = .ok s') : s'.clients = s.clients := by
  simp only [createEndUserTicket, bind_eq_ok] at h
  obtain ⟨clientId, -, _, -, _, -, _, -, h⟩ := h
  generalize [id₁, id₂, id₃] = ids at h
  induction ids with
  | nil => cases h
  | cons id ids ih =>
      rw [allocateEndUserTicket] at h
      split at h
      · cases h
      · split at h
        · cases h
          rfl
        · exact ih h

theorem escalateEndUserTicket_clients {ticketId clientId requesterId now : String}
    (h : escalateEndUserTicket rt s ticketId clientId requesterId now = .ok s') :
    s'.clients = s.clients := by
  unfold escalateEndUserTicket at h
  split at h
  · cases h
    rfl
  · split at h
    · cases h
      rfl
    · simp only [bind_eq_ok] at h
      obtain ⟨_, -, h⟩ := h
      split at h
      · cases h
        rfl
      · cases h
        rfl

theorem ingestProviderRecords_registry {connectorInstanceId : String}
    {records : List (TicketInput × Stamp)} {progress : IngestProgress}
    (h : ingestProviderRecords rt s connectorInstanceId records = .ok (s', progress)) :
    SameRegistry s s' := by
  simp only [ingestProviderRecords, bind_eq_ok] at h
  obtain ⟨instanceId, -, h⟩ := h
  split at h
  · cases h
  · simp only [bind_eq_ok] at h
    obtain ⟨-, -, h⟩ := h
    exact foldlM_invariant (I := fun state => SameRegistry s state.1)
      (fun _ _ _ _ hstate hstep => hstate.trans (ingestProviderRecord_registry hstep))
      ⟨rfl, rfl⟩ h

/-- The reserved client is never active. -/
theorem isActive_quarantine_run (rt : Runtime TicketInput) (ls : List StoreCall) :
    ((tenancy rt).run ls).isActive quarantineClientId = false := by
  refine Machine.run_invariant
    (I := fun s : Store => s.isActive quarantineClientId = false) Store.fresh_isActive ?_ ls
  intro s l hs
  have hclients : ∀ {s' : Store}, s'.clients = s.clients →
      s'.isActive quarantineClientId = false := by
    intro s' h
    rwa [Store.isActive, h]
  have hkeeps : ∀ {x : Except TenancyError Store}, (∀ s', x = .ok s' → KeepsSettled rt s s') →
      (committed s x).isActive quarantineClientId = false := fun h =>
    (committed_relation (.refl s) h).reserved hs
  show (l.apply rt s).isActive quarantineClientId = false
  cases l with
  | createClient => exact hkeeps fun _ h => createClient_keepsSettled h
  | setClientStatus => exact hkeeps fun _ h => setClientStatus_keepsSettled h
  | createConnectorInstance => exact hkeeps fun _ h => createConnectorInstance_keepsSettled h
  | updateConnectorInstance => exact hkeeps fun _ h => updateConnectorInstance_keepsSettled h
  | createClientConnectorMapping =>
      exact hkeeps fun _ h => createClientConnectorMapping_keepsSettled h
  | verifyClientConnectorMapping =>
      exact hkeeps fun _ h => verifyClientConnectorMapping_keepsSettled h
  | ingestTickets => exact hclients ingestTickets_clients
  | ingestProviderTickets =>
      exact ingestProviderTickets_relation
        (R := fun _ s' => s'.isActive quarantineClientId = false) hs fun _ _ h =>
          hclients (ingestProviderRecords_registry h).clients
  | reclassifyQuarantinedTicket =>
      exact hkeeps fun _ h => reclassifyQuarantinedTicket_keepsSettled h
  | createEndUserTicket =>
      exact committed_relation (R := fun _ s' => s'.isActive quarantineClientId = false) hs
        fun _ h => hclients (createEndUserTicket_clients h)
  | escalateEndUserTicket =>
      exact committed_relation (R := fun _ s' => s'.isActive quarantineClientId = false) hs
        fun _ h => hclients (escalateEndUserTicket_clients h)
  | recordUnmapped => exact hkeeps fun _ h => .of_unmapped (recordUnmappedRecord_eq h)
  | resolveUnmappedRecord => exact hkeeps fun _ h => .of_unmapped (resolveUnmappedRecord_eq h)

/-! ## One record -/

section Record

variable {sourceSystem : String} {owner : ProviderRecord → ClientId} {r : ProviderRecord}

/-- What a record does to the tables: its ticket is settled, or a new one is put in, and the history
grows unless the ticket had its status. -/
structure Placed (rt : Runtime TicketInput) (sourceSystem : String)
    (owner : ProviderRecord → ClientId) (s : Store) (r : ProviderRecord) (s' : Store) : Prop where
  registry : SameRegistry s s'
  instances : s'.instances = s.instances
  tickets : (∃ t ∈ s.tickets, r.Names t) ∧
      s'.tickets.rows = s.tickets.rows.map (settle rt sourceSystem owner · r) ∨
    (∀ t ∈ s.tickets, ¬ r.Names t) ∧
      s'.tickets.rows = s.tickets.rows ++ [r.row rt "" sourceSystem (owner r)]
  history : ∃ rows, s'.history = s.history ++ rows ∧ ((∃ t ∈ s.tickets, r.Names t) →
    (rows = [] ↔ ∀ t ∈ s.tickets, r.Takes owner t → t.clientId ≠ quarantineClientId →
      t.status ≠ "" ∧ SameStatus rt t.status r.input.status))

theorem upsertProviderTicket_placed (hs : s.Links (Ticket.Keyed rt)) (hr : r.Dated) {now : String}
    {ticketId previousStatus : String} {persisted : Bool}
    (h : upsertProviderTicket s (r.row rt now sourceSystem (owner r)) r.instanceId r.externalId =
      .ok (s', ticketId, previousStatus, persisted)) :
    s' = { s with tickets := s'.tickets } ∧
      ((∃ t ∈ s.tickets, r.Names t ∧ previousStatus = t.status ∧
          (persisted = true ↔ r.Takes owner t)) ∧
          s'.tickets.rows = s.tickets.rows.map (settle rt sourceSystem owner · r) ∨
        (∀ t ∈ s.tickets, ¬ r.Names t) ∧
          s'.tickets.rows = s.tickets.rows ++ [r.row rt "" sourceSystem (owner r)]) := by
  rw [hr.row_eq] at h
  unfold upsertProviderTicket at h
  split at h
  · rename_i existing hfind
    obtain ⟨hmem, hnames⟩ : existing ∈ s.tickets ∧ r.Names existing :=
      Store.findByIdentity?_eq_some hfind
    have hone : ∀ t ∈ s.tickets, r.Names t → t = existing := fun t ht hnt =>
      ProviderRecord.Names.eq hs ht hmem hnt hnames
    have howner : (r.row rt "" sourceSystem (owner r)).clientId = owner r := rfl
    rw [howner] at h
    split at h
    · rename_i hclient
      cases h
      refine ⟨rfl, .inl ⟨⟨existing, hmem, hnames, rfl, ?_⟩, ?_⟩⟩
      · simp [ProviderRecord.Takes, hclient]
      · conv_lhs => rw [← List.map_id s.tickets.rows]
        refine List.map_congr_left fun t ht => ?_
        rw [settle, if_neg fun htakes => hclient ?_]
        · rfl
        · rw [← hone t ht htakes.1]
          exact htakes.2
    · rename_i hclient
      cases h
      have hclient := not_not.mp hclient
      refine ⟨rfl, .inl ⟨⟨existing, hmem, hnames, rfl, ?_⟩, ?_⟩⟩
      · simp [ProviderRecord.Takes, hnames, hclient]
      · refine List.map_congr_left fun t ht => ?_
        by_cases hid : t.id = existing.id
        · obtain rfl : t = existing := Table.eq_of_key_eq ht hmem hid
          have htakes : r.Takes owner t := ⟨hnames, hclient⟩
          rw [if_pos (by simp), settle, if_pos htakes, ProviderRecord.over, hclient]
        · rw [if_neg (by simpa using hid), settle, if_neg fun htakes => hid ?_]
          rw [hone t ht htakes.1]
  · rename_i hnone
    split at h
    · rename_i tickets hinsert
      cases h
      obtain ⟨hnew, rfl⟩ := Table.insert?_eq_some_iff.mp hinsert
      exact ⟨rfl, .inr ⟨findByIdentity?_eq_none_iff.mp hnone, rfl⟩⟩
    · cases h

theorem quarantineRecord_placed (hs : s.Links (Ticket.Keyed rt)) (hr : r.Dated)
    (howner : owner r = quarantineClientId) {stamp : Stamp}
    (h : quarantineRecord rt sourceSystem stamp s r = .ok s') :
    Placed rt sourceSystem owner s r s' := by
  simp only [quarantineRecord, bind_eq_ok, ← howner] at h
  obtain ⟨⟨upserted, ticketId, previousStatus, persisted⟩, hupsert, h⟩ := h
  obtain ⟨hupserted, htickets⟩ := upsertProviderTicket_placed hs hr hupsert
  have hsighted := recordUnmapped_eq h
  rw [hupserted] at hsighted
  rw [hsighted]
  refine ⟨⟨rfl, rfl⟩, rfl, ?_, [], (List.append_nil _).symm, fun _ => iff_of_true rfl ?_⟩
  · exact htickets.imp (And.imp_left (Exists.imp fun _ h => ⟨h.1, h.2.1⟩)) id
  · exact fun t _ htakes hclient => absurd (htakes.2.trans howner) hclient

theorem tenantRecord_placed (hs : s.Links (Ticket.Keyed rt)) (hr : r.Dated)
    (howner : owner r ≠ quarantineClientId) {stamp : Stamp} {written : Option String}
    (h : tenantRecord rt sourceSystem stamp (owner r) s r = .ok (s', written)) :
    Placed rt sourceSystem owner s r s' := by
  simp only [tenantRecord, bind_eq_ok] at h
  obtain ⟨⟨upserted, ticketId, previousStatus, persisted⟩, hupsert, h⟩ := h
  obtain ⟨hupserted, htickets⟩ := upsertProviderTicket_placed hs hr hupsert
  have hplaced : (∃ t ∈ s.tickets, r.Names t) ∧
        upserted.tickets.rows = s.tickets.rows.map (settle rt sourceSystem owner · r) ∨
      (∀ t ∈ s.tickets, ¬ r.Names t) ∧
        upserted.tickets.rows = s.tickets.rows ++ [r.row rt "" sourceSystem (owner r)] :=
    htickets.imp (And.imp_left (Exists.imp fun _ h => ⟨h.1, h.2.1⟩)) id
  -- the ticket of the record is the one whose status was read
  have hread : (∃ t ∈ s.tickets, r.Names t) → ∃ t ∈ s.tickets, previousStatus = t.status ∧
      (persisted = true ↔ r.Takes owner t) ∧ ∀ u ∈ s.tickets, r.Takes owner u → u = t := by
    rintro ⟨u, hu, hnames⟩
    rcases htickets with ⟨⟨t, ht, htnames, hstatus, hpersisted⟩, -⟩ | ⟨hnone, -⟩
    · exact ⟨t, ht, hstatus, hpersisted, fun q hq hqtakes =>
        ProviderRecord.Names.eq hs hq ht hqtakes.1 htnames⟩
    · exact absurd hnames (hnone u hu)
  split at h
  · rename_i hunwritten
    simp only [bind_eq_ok] at h
    obtain ⟨sighted, hsight, h⟩ := h
    cases h
    have hsighted := recordUnmapped_eq hsight
    rw [hupserted] at hsighted
    rw [hsighted]
    refine ⟨⟨rfl, rfl⟩, rfl, hplaced, [], (List.append_nil _).symm, fun hnamed => ?_⟩
    obtain ⟨t, -, -, hpersisted, hone⟩ := hread hnamed
    refine iff_of_true rfl fun u hu htakes _ => ?_
    rw [hone u hu htakes] at htakes
    simp [hpersisted.mpr htakes] at hunwritten
  · rename_i hwritten
    have hwritten : persisted = true := by simpa using hwritten
    split at h
    · rename_i hchanged
      cases h
      rw [hupserted]
      refine ⟨⟨rfl, rfl⟩, rfl, hplaced, _, rfl, fun hnamed => ?_⟩
      obtain ⟨t, ht, hstatus, hpersisted, -⟩ := hread hnamed
      refine iff_of_false (List.cons_ne_nil _ _) fun hquiet => ?_
      have htakes := hpersisted.mp hwritten
      obtain ⟨hne, hsame⟩ := hquiet t ht htakes (by rwa [htakes.2])
      rw [← hstatus] at hne hsame
      simp [hne, statusChanged_eq_false.mpr hsame] at hchanged
    · rename_i hunchanged
      cases h
      rw [hupserted]
      refine ⟨⟨rfl, rfl⟩, rfl, hplaced, [], (List.append_nil _).symm, fun hnamed => ?_⟩
      obtain ⟨t, -, hstatus, -, hone⟩ := hread hnamed
      refine iff_of_true rfl fun u hu htakes _ => ?_
      rw [hone u hu htakes, ← hstatus]
      simpa [statusChanged_eq_false] using hunchanged

def Store.ownerOf (s : Store) (r : ProviderRecord) : ClientId :=
  s.companyOwner r.instanceId r.companyId

theorem ingestProviderRecord_placed (hs : s.Links (Ticket.Keyed rt))
    (hreserved : s.isActive quarantineClientId = false) (hr : r.Dated)
    {connector : ConnectorInstance} {record : TicketInput} {stamp : Stamp}
    {progress progress' : IngestProgress}
    (hcheck : checkProviderRecord connector.connectorInstanceId
      (Text.strip connector.connectorType) record = .ok r)
    (h : ingestProviderRecord rt connector (s, progress) (record, stamp) = .ok (s', progress')) :
    Placed rt (Text.strip connector.connectorType) s.ownerOf s r s' := by
  simp only [ingestProviderRecord, hcheck, ok_bind] at h
  split at h
  · rename_i clientId hclients
    have howner : s.ownerOf r = clientId := by
      rw [Store.ownerOf, Store.companyOwner, hclients]
    simp only [bind_eq_ok] at h
    obtain ⟨_, hresolved, ⟨stored, written⟩, htenant, h⟩ := h
    have hclient : clientId ≠ quarantineClientId := by
      rintro rfl
      simp [checkResolvedClient, hreserved] at hresolved
    rw [← howner] at htenant hclient
    have hplaced := tenantRecord_placed hs hr hclient htenant
    split at h
    · cases h
      exact hplaced
    · cases h
      exact hplaced
  · rename_i hclients
    simp only [bind_eq_ok] at h
    obtain ⟨stored, hquarantine, h⟩ := h
    cases h
    refine quarantineRecord_placed hs hr ?_ hquarantine
    unfold Store.ownerOf Store.companyOwner
    split
    · rename_i clientId hsingle
      exact absurd hsingle (hclients clientId)
    · rfl

/-! ### Refusals -/

/-- A record is refused for what it says, for the client it resolves to, or because the id of its
new ticket is taken. -/
structure Admitted (rt : Runtime TicketInput) (connector : ConnectorInstance) (s : Store)
    (r : ProviderRecord) : Prop where
  resolved : ∀ clientId, s.verifiedClients r.instanceId r.companyId = [clientId] →
    checkResolvedClient s connector clientId = .ok ()
  newId : (∀ t ∈ s.tickets, ¬ r.Names t) →
    ∀ t ∈ s.tickets, t.id ≠ rt.ticketUuid r.instanceId r.externalId

theorem SameRegistry.resolved (h : SameRegistry s s') {connector : ConnectorInstance} :
    (∀ clientId, s'.verifiedClients q.instanceId q.companyId = [clientId] →
      checkResolvedClient s' connector clientId = .ok ()) ↔
    ∀ clientId, s.verifiedClients q.instanceId q.companyId = [clientId] →
      checkResolvedClient s connector clientId = .ok () := by
  have hverified : s'.verifiedClients q.instanceId q.companyId =
      s.verifiedClients q.instanceId q.companyId := by
    simp only [Store.verifiedClients, h.clients, h.mappings]
  have hcheck : ∀ clientId, checkResolvedClient s' connector clientId =
      checkResolvedClient s connector clientId := by
    intro clientId
    have hactive : s'.isActive clientId = s.isActive clientId := by
      rw [Store.isActive, Store.isActive, h.clients]
    rw [checkResolvedClient, checkResolvedClient, hactive]
  simp only [hverified, hcheck]

theorem exists_recordUnmapped {seen : Sighting} {createdAt : String} {recordId : NormalizedText}
    (hinstance : s.instances.find? seen.connectorInstanceId ≠ none)
    (hfresh : ∀ row ∈ s.unmapped, row.recordId ≠ recordId) :
    ∃ s', recordUnmapped s seen createdAt recordId = .ok s' := by
  rw [recordUnmapped, if_neg (by simpa using hinstance)]
  split
  · exact ⟨_, rfl⟩
  · split
    · exact ⟨_, rfl⟩
    · rename_i hinsert
      obtain ⟨row, hrow⟩ := Table.exists_of_insert?_eq_none hinsert
      obtain ⟨hmem, hid⟩ := Table.find?_eq_some_iff.mp hrow
      exact absurd hid (hfresh row hmem)

theorem recordIds_recordUnmapped {seen : Sighting} {createdAt : String} {recordId : NormalizedText}
    (h : recordUnmapped s seen createdAt recordId = .ok s') {row : UnmappedRecord}
    (hrow : row ∈ s'.unmapped) :
    row.recordId = recordId ∨ ∃ old ∈ s.unmapped, old.recordId = row.recordId := by
  unfold recordUnmapped at h
  split at h
  · cases h
  · split at h
    · cases h
      obtain ⟨old, hold, rfl⟩ := List.mem_map.mp hrow
      refine .inr ⟨old, hold, ?_⟩
      split <;> rfl
    · split at h
      · rename_i hinsert
        cases h
        rcases (Table.mem_of_insert? hinsert).mp hrow with hrow | rfl
        · exact .inr ⟨row, hrow, rfl⟩
        · exact .inl rfl
      · cases h

theorem exists_upsertProviderTicket {new : Ticket}
    (hnew : (∀ t ∈ s.tickets, ¬ r.Names t) → ∀ t ∈ s.tickets, t.id ≠ new.id) :
    ∃ result, upsertProviderTicket s new r.instanceId r.externalId = .ok result := by
  unfold upsertProviderTicket
  split
  · split
    · exact ⟨_, rfl⟩
    · exact ⟨_, rfl⟩
  · rename_i hnone
    have hfree := hnew (findByIdentity?_eq_none_iff.mp hnone)
    rw [Table.insert?_eq_some_iff.mpr ⟨hfree, rfl⟩]
    exact ⟨_, rfl⟩

theorem upsertProviderTicket_eq {new : Ticket} {instanceId externalId : NormalizedText}
    {result : Store × String × String × Bool}
    (h : upsertProviderTicket s new instanceId externalId = .ok result) :
    result.1 = { s with tickets := result.1.tickets } := by
  unfold upsertProviderTicket at h
  split at h
  · split at h
    · cases h
      rfl
    · cases h
      rfl
  · split at h
    · cases h
      rfl
    · cases h

theorem upsertProviderTicket_unmapped {new : Ticket} {instanceId externalId : NormalizedText}
    {result : Store × String × String × Bool}
    (h : upsertProviderTicket s new instanceId externalId = .ok result) :
    result.1.unmapped = s.unmapped := by
  have hunmapped := congrArg Store.unmapped (upsertProviderTicket_eq h)
  exact hunmapped

theorem newId_of_upsertProviderTicket {new : Ticket} {result : Store × String × String × Bool}
    (h : upsertProviderTicket s new r.instanceId r.externalId = .ok result)
    (hnone : ∀ t ∈ s.tickets, ¬ r.Names t) : ∀ t ∈ s.tickets, t.id ≠ new.id := by
  unfold upsertProviderTicket at h
  rw [findByIdentity?_eq_none_iff.mpr hnone] at h
  dsimp only at h
  split at h
  · rename_i hinsert
    exact (Table.insert?_eq_some_iff.mp hinsert).1
  · cases h

variable {connector : ConnectorInstance} {record : TicketInput} {stamp : Stamp}
  {progress progress' : IngestProgress}

theorem admitted_of_ok (h : ingestProviderRecord rt connector (s, progress) (record, stamp) =
      .ok (s', progress')) :
    ∃ r, checkProviderRecord connector.connectorInstanceId (Text.strip connector.connectorType)
      record = .ok r ∧ Admitted rt connector s r := by
  simp only [ingestProviderRecord, bind_eq_ok] at h
  obtain ⟨r, hcheck, h⟩ := h
  refine ⟨r, hcheck, ?_⟩
  split at h
  · rename_i clientId hclients
    simp only [bind_eq_ok] at h
    obtain ⟨_, hresolved, ⟨stored, written⟩, htenant, -⟩ := h
    simp only [tenantRecord, bind_eq_ok] at htenant
    obtain ⟨result, hupsert, -⟩ := htenant
    refine ⟨fun c hc => ?_, newId_of_upsertProviderTicket hupsert⟩
    obtain rfl : clientId = c := by simpa using hclients.symm.trans hc
    exact hresolved
  · rename_i hclients
    simp only [bind_eq_ok, quarantineRecord] at h
    obtain ⟨stored, ⟨result, hupsert, -⟩, -⟩ := h
    exact ⟨fun c hc => absurd hc (hclients c), newId_of_upsertProviderTicket hupsert⟩

theorem exists_ingestProviderRecord
    (hcheck : checkProviderRecord connector.connectorInstanceId
      (Text.strip connector.connectorType) record = .ok r)
    (hr : Admitted rt connector s r) (hinstance : s.instances.find? r.instanceId ≠ none)
    (hfresh : ∀ row ∈ s.unmapped, row.recordId ≠ stamp.recordId) :
    ∃ state', ingestProviderRecord rt connector (s, progress) (record, stamp) = .ok state' := by
  simp only [ingestProviderRecord, hcheck, ok_bind]
  split
  · rename_i clientId hclients
    rw [hr.resolved clientId hclients, ok_bind]
    have hwritten : ∃ result, tenantRecord rt (Text.strip connector.connectorType) stamp clientId s
        r = .ok result := by
      obtain ⟨⟨upserted, ticketId, previousStatus, persisted⟩, hupsert⟩ :=
        @exists_upsertProviderTicket s r (r.row rt stamp.upsertedAt
          (Text.strip connector.connectorType) clientId) hr.newId
      have hupserted : upserted = { s with tickets := upserted.tickets } :=
        upsertProviderTicket_eq hupsert
      obtain ⟨sighted, hsighted⟩ := @exists_recordUnmapped upserted
        (r.sighting rt "ownership_conflict") stamp.recordedAt stamp.recordId
        (by rw [hupserted]; exact hinstance) (by rw [hupserted]; exact hfresh)
      rw [tenantRecord, hupsert, ok_bind]
      dsimp only
      rw [hsighted]
      split
      · exact ⟨_, rfl⟩
      · split
        · exact ⟨_, rfl⟩
        · exact ⟨_, rfl⟩
    obtain ⟨⟨stored, written⟩, hwritten⟩ := hwritten
    rw [hwritten, ok_bind]
    dsimp only
    split
    · exact ⟨_, rfl⟩
    · exact ⟨_, rfl⟩
  · have hwritten : ∃ stored, quarantineRecord rt (Text.strip connector.connectorType) stamp s r =
        .ok stored := by
      obtain ⟨⟨upserted, ticketId, previousStatus, persisted⟩, hupsert⟩ :=
        @exists_upsertProviderTicket s r (r.row rt stamp.upsertedAt
          (Text.strip connector.connectorType) quarantineClientId) hr.newId
      have hupserted : upserted = { s with tickets := upserted.tickets } :=
        upsertProviderTicket_eq hupsert
      rw [quarantineRecord, hupsert, ok_bind]
      exact exists_recordUnmapped (by rw [hupserted]; exact hinstance)
        (by rw [hupserted]; exact hfresh)
    obtain ⟨stored, hwritten⟩ := hwritten
    rw [hwritten, ok_bind]
    exact ⟨_, rfl⟩

theorem recordIds_ingestProviderRecord
    (h : ingestProviderRecord rt connector (s, progress) (record, stamp) = .ok (s', progress'))
    {row : UnmappedRecord} (hrow : row ∈ s'.unmapped) :
    row.recordId = stamp.recordId ∨ ∃ old ∈ s.unmapped, old.recordId = row.recordId := by
  simp only [ingestProviderRecord, bind_eq_ok] at h
  obtain ⟨r, -, h⟩ := h
  have hsighting : ∀ {seen : Sighting} {upserted sighted : Store},
      upserted.unmapped = s.unmapped →
      recordUnmapped upserted seen stamp.recordedAt stamp.recordId = .ok sighted →
      row ∈ sighted.unmapped →
        row.recordId = stamp.recordId ∨ ∃ old ∈ s.unmapped, old.recordId = row.recordId := by
    intro seen upserted sighted hunmapped hsighted hrow
    have hids := recordIds_recordUnmapped hsighted hrow
    rwa [hunmapped] at hids
  split at h
  · simp only [bind_eq_ok] at h
    obtain ⟨_, -, ⟨stored, written⟩, htenant, h⟩ := h
    have hstored : s' = stored := by
      split at h <;> cases h <;> rfl
    subst hstored
    simp only [tenantRecord, bind_eq_ok] at htenant
    obtain ⟨⟨upserted, ticketId, previousStatus, persisted⟩, hupsert, htenant⟩ := htenant
    have hunmapped : upserted.unmapped = s.unmapped := upsertProviderTicket_unmapped hupsert
    split at htenant
    · simp only [bind_eq_ok] at htenant
      obtain ⟨sighted, hsighted, htenant⟩ := htenant
      cases htenant
      exact hsighting hunmapped hsighted hrow
    · have hkept : row ∈ upserted.unmapped := by
        split at htenant <;> cases htenant <;> exact hrow
      rw [hunmapped] at hkept
      exact .inr ⟨row, hkept, rfl⟩
  · simp only [bind_eq_ok, quarantineRecord] at h
    obtain ⟨stored, ⟨⟨upserted, ticketId, previousStatus, persisted⟩, hupsert, hsighted⟩, h⟩ := h
    cases h
    exact hsighting (upsertProviderTicket_unmapped hupsert) hsighted hrow

/-! ### The tickets after a record -/

section Placed

variable (h : Placed rt sourceSystem owner s r s')
include h

theorem Placed.settle_mem {t : Ticket} (ht : t ∈ s.tickets) :
    settle rt sourceSystem owner t r ∈ s'.tickets := by
  rw [Table.mem_def]
  rcases h.tickets with ⟨-, hrows⟩ | ⟨hnone, hrows⟩
  · rw [hrows]
    exact List.mem_map_of_mem ht
  · rw [hrows, settle, if_neg fun htakes => hnone t ht htakes.1]
    exact List.mem_append_left _ ht

theorem Placed.exists_of_mem (hr : r.Dated) {t' : Ticket} (ht' : t' ∈ s'.tickets) :
    ∃ t, t' = settle rt sourceSystem owner t r ∧ (t ∈ s.tickets ∨
      t = r.row rt "" sourceSystem (owner r) ∧ ∀ t ∈ s.tickets, ¬ r.Names t) := by
  rw [Table.mem_def] at ht'
  rcases h.tickets with ⟨-, hrows⟩ | ⟨hnone, hrows⟩
  · rw [hrows] at ht'
    obtain ⟨t, ht, rfl⟩ := List.mem_map.mp ht'
    exact ⟨t, rfl, .inl ht⟩
  · rw [hrows] at ht'
    rcases List.mem_append.mp ht' with ht' | ht'
    · exact ⟨t', (if_neg fun htakes => hnone t' ht' htakes.1).symm, .inl ht'⟩
    · exact ⟨_, (List.mem_singleton.mp ht').trans hr.settle_row.symm, .inr ⟨rfl, hnone⟩⟩

theorem Placed.exists_names : ∃ t ∈ s'.tickets, r.Names t := by
  rcases h.tickets with ⟨⟨t, ht, hnames⟩, -⟩ | ⟨-, hrows⟩
  · exact ⟨_, h.settle_mem ht, names_settle.mpr hnames⟩
  · refine ⟨r.row rt "" sourceSystem (owner r), ?_, rfl, rfl⟩
    rw [Table.mem_def, hrows]
    exact List.mem_append_right _ (List.mem_singleton_self _)

theorem Placed.exists_names_of (hq : ∃ t ∈ s.tickets, q.Names t) :
    ∃ t ∈ s'.tickets, q.Names t := by
  obtain ⟨t, ht, hnames⟩ := hq
  exact ⟨_, h.settle_mem ht, names_settle.mpr hnames⟩

theorem Placed.names_or (hr : r.Dated) (hq : ∃ t ∈ s'.tickets, q.Names t) :
    (∃ t ∈ s.tickets, q.Names t) ∨
      (∀ t ∈ s.tickets, ¬ r.Names t) ∧ q.instanceId = r.instanceId ∧
        q.externalId = r.externalId := by
  obtain ⟨t', ht', hnames⟩ := hq
  obtain ⟨t, rfl, ht | ⟨rfl, hnone⟩⟩ := h.exists_of_mem hr ht'
  · exact .inl ⟨t, ht, names_settle.mp hnames⟩
  · obtain ⟨hinstance, hexternal⟩ := names_settle.mp hnames
    exact .inr ⟨hnone, (Option.some.inj hinstance).symm, (Option.some.inj hexternal).symm⟩

theorem Placed.ids (hr : r.Dated) {t' : Ticket} (ht' : t' ∈ s'.tickets) :
    (∃ t ∈ s.tickets, t.id = t'.id) ∨ (∀ t ∈ s.tickets, ¬ r.Names t) ∧
      t'.id = rt.ticketUuid r.instanceId r.externalId := by
  obtain ⟨t, rfl, ht | ⟨rfl, hnone⟩⟩ := h.exists_of_mem hr ht'
  · exact .inl ⟨t, ht, (settle_id t r).symm⟩
  · exact .inr ⟨hnone, settle_id _ r⟩

end Placed

end Record

end WaitLocalAgent.Tenancy
