import WaitLocalAgent.Verification.Tickets.Ledger
import WaitLocalAgent.Verification.Tickets.Replays

/-! # Ingesting a page again -/

namespace WaitLocalAgent.Tenancy

open Foundation

variable {rt : Runtime TicketInput} {s s' : Store} {sourceSystem : String}
  {owner : ProviderRecord → ClientId} {rs : List ProviderRecord}

variable {r : ProviderRecord}

theorem keyed_settle {t : Ticket} :
    (settle rt sourceSystem owner t r).Keyed rt ↔ t.Keyed rt := by
  rw [settle]
  split <;> rfl

theorem Placed.keyed (h : Placed rt sourceSystem owner s r s')
    (hr : r.Dated) (hs : s.Links (Ticket.Keyed rt)) : s'.Links (Ticket.Keyed rt) := by
  intro t' ht'
  obtain ⟨t, rfl, ht | ⟨rfl, -⟩⟩ := h.exists_of_mem hr ht'
  · exact keyed_settle.mpr (hs t ht)
  · refine keyed_settle.mpr fun instanceId hinstance => ⟨r.externalId, rfl, ?_⟩
    cases hinstance
    rfl

/-! ## The records of a page -/

/-- The records of a page, one after the other. -/
inductive Passed (rt : Runtime TicketInput) (sourceSystem : String)
    (owner : ProviderRecord → ClientId) : Store → List ProviderRecord → Store → Prop
  | nil (s : Store) : Passed rt sourceSystem owner s [] s
  | cons {s s₁ s₂ : Store} {r : ProviderRecord} {rs : List ProviderRecord}
      (first : Placed rt sourceSystem owner s r s₁) (rest : Passed rt sourceSystem owner s₁ rs s₂) :
      Passed rt sourceSystem owner s (r :: rs) s₂

namespace Passed

theorem exists_names_of (h : Passed rt sourceSystem owner s rs s') {q : ProviderRecord}
    (hq : ∃ t ∈ s.tickets, q.Names t) : ∃ t ∈ s'.tickets, q.Names t := by
  induction h with
  | nil => exact hq
  | cons first rest ih => exact ih (first.exists_names_of hq)

/-- Every record of the page has its ticket afterwards. -/
theorem exists_names (h : Passed rt sourceSystem owner s rs s') :
    ∀ r ∈ rs, ∃ t ∈ s'.tickets, r.Names t := by
  induction h with
  | nil => simp
  | cons first rest ih =>
      intro r hr
      rcases List.mem_cons.mp hr with rfl | hr
      · exact rest.exists_names_of first.exists_names
      · exact ih r hr

/-- Tickets that agree with the records `done` agree with those of the page as well once they are
written. -/
theorem replay_append (h : Passed rt sourceSystem owner s rs s') (hdated : ∀ r ∈ rs, r.Dated)
    {done : List ProviderRecord} (hdone : ∀ t ∈ s.tickets,
      replay rt sourceSystem owner done t = t) :
    ∀ t ∈ s'.tickets, replay rt sourceSystem owner (done ++ rs) t = t := by
  induction h generalizing done with
  | nil => simpa using hdone
  | cons first rest ih =>
      rename_i s s₁ s₂ r rs
      have hr : r.Dated := hdated r (by simp)
      have hnext : ∀ t ∈ s₁.tickets, replay rt sourceSystem owner (done ++ [r]) t = t := by
        intro t' ht'
        obtain ⟨t, rfl, ht | ⟨rfl, -⟩⟩ := first.exists_of_mem hr ht'
        · exact replay_concat_settle hr (.inl (hdone t ht))
        · exact replay_concat_settle hr (.inr ⟨⟨rfl, rfl⟩, rfl⟩)
      simpa using ih (fun q hq => hdated q (by simp [hq])) hnext

theorem replay_eq (h : Passed rt sourceSystem owner s rs s') (hdated : ∀ r ∈ rs, r.Dated) :
    ∀ t ∈ s'.tickets, replay rt sourceSystem owner rs t = t :=
  by
  simpa using @replay_append rt s s' sourceSystem owner rs h hdated [] fun _ _ => rfl

/-- On a page whose records all have their tickets, only these tickets change, and the history
grows unless all of them are quiet. -/
theorem of_named (h : Passed rt sourceSystem owner s rs s')
    (hnamed : ∀ r ∈ rs, ∃ t ∈ s.tickets, r.Names t) :
    s'.tickets.rows = s.tickets.rows.map (replay rt sourceSystem owner rs) ∧
      ∃ rows, s'.history = s.history ++ rows ∧
        (rows = [] ↔ ∀ t ∈ s.tickets, Quiet rt sourceSystem owner rs t) := by
  induction h with
  | nil =>
      have hsame : replay rt sourceSystem owner [] = id := rfl
      exact ⟨by simp [hsame], [], by simp, by simp [Quiet]⟩
  | cons first rest ih =>
      rename_i s s₁ s₂ r rs
      have hr : ∃ t ∈ s.tickets, r.Names t := hnamed r (by simp)
      have hrows : s₁.tickets.rows = s.tickets.rows.map (settle rt sourceSystem owner · r) := by
        rcases first.tickets with ⟨-, hrows⟩ | ⟨hnone, -⟩
        · exact hrows
        · obtain ⟨t, ht, hnames⟩ := hr
          exact absurd hnames (hnone t ht)
      obtain ⟨rows₁, hhistory₁, hquiet₁⟩ := first.history
      obtain ⟨htickets, rows₂, hhistory₂, hquiet₂⟩ :=
        ih fun q hq => first.exists_names_of (hnamed q (by simp [hq]))
      refine ⟨?_, rows₁ ++ rows₂, ?_, ?_⟩
      · rw [htickets, hrows, List.map_map]
        rfl
      · rw [hhistory₂, hhistory₁, List.append_assoc]
      · have hmapped : (∀ t ∈ s₁.tickets, Quiet rt sourceSystem owner rs t) ↔
            ∀ t ∈ s.tickets, Quiet rt sourceSystem owner rs (settle rt sourceSystem owner t r) := by
          simp [Table.mem_def, hrows]
        rw [List.append_eq_nil_iff, hquiet₁ hr, hquiet₂, hmapped]
        exact ⟨fun h t ht => ⟨h.1 t ht, h.2 t ht⟩, fun h => ⟨fun t ht => (h t ht).1,
          fun t ht => (h t ht).2⟩⟩

/-- A ticket is of the client that it was of, or of the client of the first record on it. -/
theorem exists_owner (h : Passed rt sourceSystem owner s rs s') (hdated : ∀ r ∈ rs, r.Dated)
    {t' : Ticket} (ht' : t' ∈ s'.tickets) :
    (∃ t ∈ s.tickets, t.clientId = t'.clientId ∧ ∀ q : ProviderRecord, q.Names t ↔ q.Names t') ∨
      (∀ t ∈ s.tickets, ∀ q : ProviderRecord, q.Names t' → ¬ q.Names t) ∧
        ∃ q, rs.find? (fun q => q.Names t') = some q ∧ t'.clientId = owner q := by
  induction h with
  | nil => exact .inl ⟨t', ht', rfl, fun _ => Iff.rfl⟩
  | cons first rest ih =>
      rename_i s s₁ s₂ r rs
      have hr : r.Dated := hdated r (by simp)
      rcases ih (fun q hq => hdated q (by simp [hq])) ht' with
        ⟨t₁, ht₁, hclient, hnames⟩ | ⟨hnone, q, hfind, howner⟩
      · obtain ⟨t, rfl, ht | ⟨rfl, hunnamed⟩⟩ := first.exists_of_mem hr ht₁
        · refine .inl ⟨t, ht, ?_, fun q => names_settle.symm.trans (hnames q)⟩
          rw [← hclient, settle]
          split <;> rfl
        · have hnames' : r.Names t' := (hnames r).mp (names_settle.mpr ⟨rfl, rfl⟩)
          refine .inr ⟨fun t ht q hq hqt => hunnamed t ht ?_, r, by simp [hnames'], ?_⟩
          · exact ⟨hqt.1.trans (hq.1.symm.trans hnames'.1), hqt.2.trans (hq.2.symm.trans hnames'.2)⟩
          · rw [← hclient, hr.settle_row]
            rfl
      · have hother : ¬ r.Names t' := by
          intro hnames'
          obtain ⟨t, ht, hnames⟩ := first.exists_names
          exact hnone t ht r hnames' hnames
        refine .inr ⟨fun t ht p hp hpt => ?_, q, by simp [hother, hfind], howner⟩
        exact hnone _ (first.settle_mem ht) p hp (names_settle.mpr hpt)

theorem registry (h : Passed rt sourceSystem owner s rs s') : SameRegistry s s' := by
  induction h with
  | nil => exact ⟨rfl, rfl⟩
  | cons first _ ih => exact first.registry.trans ih

theorem instances (h : Passed rt sourceSystem owner s rs s') : s'.instances = s.instances := by
  induction h with
  | nil => rfl
  | cons first _ ih => exact ih.trans first.instances

theorem keyed (h : Passed rt sourceSystem owner s rs s') (hdated : ∀ r ∈ rs, r.Dated)
    (hs : s.Links (Ticket.Keyed rt)) : s'.Links (Ticket.Keyed rt) := by
  induction h with
  | nil => exact hs
  | cons first _ ih =>
      exact ih (fun q hq => hdated q (by simp [hq])) (first.keyed (hdated _ (by simp)) hs)

end Passed

/-! ## Refused pages -/

theorem checkProviderRecord_eq {instanceId : NormalizedText} {record : TicketInput}
    (h : checkProviderRecord instanceId sourceSystem record = .ok r) :
    r.input = record ∧ r.instanceId = instanceId := by
  simp only [checkProviderRecord, bind_eq_ok] at h
  obtain ⟨_, -, _, -, h⟩ := h
  split at h
  · simp only [bind_eq_ok, pure_eq_ok] at h
    obtain ⟨_, -, rfl⟩ := h
    exact ⟨rfl, rfl⟩
  · cases h

/-- The records of a page that none of them makes the page fail. -/
structure Writable (rt : Runtime TicketInput) (s : Store) (connector : ConnectorInstance)
    (rs : List ProviderRecord) : Prop where
  admitted : ∀ r ∈ rs, Admitted rt connector s r
  distinct : rs.Pairwise fun r q => (∀ t ∈ s.tickets, ¬ r.Names t) →
    rt.ticketUuid r.instanceId r.externalId = rt.ticketUuid q.instanceId q.externalId →
      r.externalId = q.externalId

theorem writable_nil {connector : ConnectorInstance} : Writable rt s connector [] :=
  ⟨by simp, List.Pairwise.nil⟩

theorem writable_cons_iff {connector : ConnectorInstance}
    (h : Placed rt sourceSystem owner s r s') (hr : r.Dated) (hs : s.Links (Ticket.Keyed rt))
    (hinstance : ∀ q ∈ rs, q.instanceId = r.instanceId) (hadmitted : Admitted rt connector s r) :
    Writable rt s connector (r :: rs) ↔ Writable rt s' connector rs := by
  have hunnamed : ∀ {q : ProviderRecord}, (∀ t ∈ s'.tickets, ¬ q.Names t) →
      ∀ t ∈ s.tickets, ¬ q.Names t := fun hq t ht hnames =>
    hq _ (h.settle_mem ht) (names_settle.mpr hnames)
  -- a record without a ticket before has none after, or it is about the ticket of `r`
  have hnames_or : ∀ {q : ProviderRecord}, (∀ t ∈ s.tickets, ¬ q.Names t) →
      (∀ t ∈ s'.tickets, ¬ q.Names t) ∨ (∀ t ∈ s.tickets, ¬ r.Names t) ∧
        q.instanceId = r.instanceId ∧ q.externalId = r.externalId := by
    intro q hq
    by_cases hnamed : ∃ t ∈ s'.tickets, q.Names t
    · rcases h.names_or hr hnamed with ⟨t, ht, hnames⟩ | hsame
      · exact absurd hnames (hq t ht)
      · exact .inr hsame
    · push Not at hnamed
      exact .inl hnamed
  constructor
  · rintro ⟨hall, hdistinct⟩
    obtain ⟨hfirst, hrest⟩ := List.pairwise_cons.mp hdistinct
    refine ⟨fun q hq => ⟨h.registry.resolved.mpr (hall q (by simp [hq])).resolved,
      fun hnone t' ht' => ?_⟩,
      hrest.imp fun hpair hnone => hpair (hunnamed hnone)⟩
    rcases h.ids hr ht' with ⟨t, ht, hid⟩ | ⟨hnew, hid⟩
    · rw [← hid]
      exact (hall q (by simp [hq])).newId (hunnamed hnone) t ht
    · rw [hid]
      intro huuid
      obtain ⟨t, ht, hnames⟩ := h.exists_names
      refine hnone t ht ⟨?_, ?_⟩
      · rw [hinstance q hq]
        exact hnames.1
      · rw [← hfirst q hq hnew huuid]
        exact hnames.2
  · rintro ⟨hall, hdistinct⟩
    have hnewId : ∀ q ∈ rs, (∀ t ∈ s.tickets, ¬ q.Names t) →
        ∀ t ∈ s.tickets, t.id ≠ rt.ticketUuid q.instanceId q.externalId := by
      intro q hq hnone t ht
      rcases hnames_or hnone with hnone' | ⟨hnew, hsameInstance, hsame⟩
      · have hid := (hall q hq).newId hnone' _ (h.settle_mem ht)
        rwa [settle_id] at hid
      · rw [hsameInstance, hsame]
        exact hadmitted.newId hnew t ht
    have hfirst : ∀ q ∈ rs, (∀ t ∈ s.tickets, ¬ r.Names t) →
        rt.ticketUuid r.instanceId r.externalId = rt.ticketUuid q.instanceId q.externalId →
          r.externalId = q.externalId := by
      intro q hq hnew huuid
      by_contra hother
      by_cases hnamed : ∃ t ∈ s.tickets, q.Names t
      · -- then the id of the new ticket was taken
        obtain ⟨t, ht, hnames⟩ := hnamed
        exact hadmitted.newId hnew t ht ((hnames.id_eq hs ht).trans huuid.symm)
      · push Not at hnamed
        rcases hnames_or hnamed with hnone | ⟨-, -, hsame⟩
        · obtain ⟨t, ht, hnames⟩ := h.exists_names
          have hid := hnames.id_eq (h.keyed hr hs) ht
          exact (hall q hq).newId hnone t ht (hid.trans huuid)
        · exact hother hsame.symm
    refine ⟨?_, List.pairwise_cons.mpr ⟨hfirst, ?_⟩⟩
    · intro q hq
      rcases List.mem_cons.mp hq with rfl | hq
      · exact hadmitted
      · exact ⟨h.registry.resolved.mp (hall q hq).resolved, hnewId q hq⟩
    · refine hdistinct.imp_of_mem fun {q p} hq hp hpair hnone huuid => ?_
      rcases hnames_or hnone with hnone' | ⟨hnew, hsameInstance, hsame⟩
      · exact hpair hnone' huuid
      · rw [hsameInstance, hsame] at huuid
        exact hsame.trans (hfirst p hp hnew huuid)

/-- The ids that `uuid4` gives the records are new. -/
def Store.Drawn (s : Store) (ids : List NormalizedText) : Prop :=
  ids.Nodup ∧ ∀ row ∈ s.unmapped, row.recordId ∉ ids

instance (s : Store) (ids : List NormalizedText) : Decidable (s.Drawn ids) :=
  inferInstanceAs (Decidable (ids.Nodup ∧ ∀ row ∈ s.unmapped.rows, row.recordId ∉ ids))

section Page

variable {connector : ConnectorInstance} {page : List (TicketInput × Stamp)}
  {progress progress' : IngestProgress}

/-- Both timestamps of a provider's ticket are there. -/
def TicketInput.Dated (record : TicketInput) : Prop :=
  Text.strip record.createdAt ≠ "" ∧ Text.strip record.updatedAt ≠ ""

instance (record : TicketInput) : Decidable record.Dated := inferInstanceAs (Decidable (_ ∧ _))

theorem drawn_of_foldlM {ids : List NormalizedText}
    (h : page.foldlM (ingestProviderRecord rt connector) (s, progress) = .ok (s', progress'))
    (hdrawn : s.Drawn (page.map (·.2.recordId) ++ ids)) : s'.Drawn ids := by
  induction page generalizing s progress with
  | nil =>
      cases h
      exact hdrawn
  | cons recordStamp page ih =>
      rw [List.foldlM_cons, bind_eq_ok] at h
      obtain ⟨⟨s₁, progress₁⟩, hfirst, h⟩ := h
      obtain ⟨hnodup, hfree⟩ := hdrawn
      rw [List.map_cons, List.cons_append, List.nodup_cons] at hnodup
      refine ih h ⟨hnodup.2, fun row hrow hmem => ?_⟩
      rcases recordIds_ingestProviderRecord hfirst hrow with hid | ⟨old, hold, hid⟩
      · exact hnodup.1 (hid ▸ hmem)
      · exact hfree old hold (hid ▸ List.mem_cons_of_mem _ hmem)

theorem passed_of_ok
    (h : page.foldlM (ingestProviderRecord rt connector) (s, progress) = .ok (s', progress'))
    (hs : s.Links (Ticket.Keyed rt)) (hreserved : s.isActive quarantineClientId = false)
    (hdated : ∀ x ∈ page, x.1.Dated) :
    ∃ rs, (page.map (·.1)).mapM (checkProviderRecord connector.connectorInstanceId
        (Text.strip connector.connectorType)) = .ok rs ∧
      Passed rt (Text.strip connector.connectorType) s.ownerOf s rs s' ∧
      Writable rt s connector rs := by
  induction page generalizing s progress with
  | nil =>
      cases h
      exact ⟨[], rfl, .nil _, writable_nil⟩
  | cons recordStamp page ih =>
      obtain ⟨record, stamp⟩ := recordStamp
      rw [List.foldlM_cons, bind_eq_ok] at h
      obtain ⟨⟨s₁, progress₁⟩, hfirst, h⟩ := h
      obtain ⟨r, hcheck, hadmitted⟩ := admitted_of_ok hfirst
      obtain ⟨hinput, hinstance⟩ := checkProviderRecord_eq hcheck
      have hr : r.Dated := by
        rw [ProviderRecord.Dated, hinput]
        exact hdated (record, stamp) (by simp)
      have hplaced := ingestProviderRecord_placed hs hreserved hr hcheck hfirst
      have howner : s₁.ownerOf = s.ownerOf := by
        funext q
        exact hplaced.registry.companyOwner q.instanceId q.companyId
      have hreserved₁ : s₁.isActive quarantineClientId = false := by
        rwa [Store.isActive, hplaced.registry.clients]
      obtain ⟨rs, hrs, hpassed, hwritable⟩ := ih h (hplaced.keyed hr hs) hreserved₁
        fun x hx => hdated x (by simp [hx])
      rw [howner] at hpassed
      have hinstances : ∀ q ∈ rs, q.instanceId = r.instanceId := by
        intro q hq
        obtain ⟨_, -, hqcheck⟩ := exists_of_mem_mapM hrs q hq
        exact (checkProviderRecord_eq hqcheck).2.trans hinstance.symm
      exact ⟨r :: rs, mapM_cons_eq_ok.mpr ⟨r, rs, hcheck, hrs, rfl⟩, .cons hplaced hpassed,
        (writable_cons_iff hplaced hr hs hinstances hadmitted).mpr hwritable⟩

theorem exists_of_writable {rs : List ProviderRecord}
    (hrs : (page.map (·.1)).mapM (checkProviderRecord connector.connectorInstanceId
      (Text.strip connector.connectorType)) = .ok rs)
    (hwritable : Writable rt s connector rs)
    (hs : s.Links (Ticket.Keyed rt)) (hreserved : s.isActive quarantineClientId = false)
    (hfound : s.instances.find? connector.connectorInstanceId ≠ none)
    (hdated : ∀ x ∈ page, x.1.Dated) (hdrawn : s.Drawn (page.map (·.2.recordId))) :
    ∃ state', page.foldlM (ingestProviderRecord rt connector) (s, progress) = .ok state' := by
  induction page generalizing s progress rs with
  | nil => exact ⟨_, rfl⟩
  | cons recordStamp page ih =>
      obtain ⟨record, stamp⟩ := recordStamp
      obtain ⟨r, rs, hcheck, hrest, rfl⟩ := mapM_cons_eq_ok.mp hrs
      obtain ⟨hinput, hinstance⟩ := checkProviderRecord_eq hcheck
      have hr : r.Dated := by
        rw [ProviderRecord.Dated, hinput]
        exact hdated (record, stamp) (by simp)
      have hadmitted : Admitted rt connector s r := hwritable.admitted r (by simp)
      obtain ⟨⟨s₁, progress₁⟩, hfirst⟩ := @exists_ingestProviderRecord rt s r connector record stamp
        progress hcheck hadmitted (by rwa [hinstance])
        fun row hrow hid => hdrawn.2 row hrow (by simp [hid])
      have hplaced := ingestProviderRecord_placed hs hreserved hr hcheck hfirst
      have hreserved₁ : s₁.isActive quarantineClientId = false := by
        rwa [Store.isActive, hplaced.registry.clients]
      have hinstances : ∀ q ∈ rs, q.instanceId = r.instanceId := by
        intro q hq
        obtain ⟨_, -, hqcheck⟩ := exists_of_mem_mapM hrest q hq
        exact (checkProviderRecord_eq hqcheck).2.trans hinstance.symm
      have hdrawn₁ : s₁.Drawn (page.map (·.2.recordId)) := by
        refine @drawn_of_foldlM rt s s₁ connector [(record, stamp)] progress progress₁ _ ?_ hdrawn
        rw [List.foldlM_cons, hfirst]
        rfl
      obtain ⟨state', hstate⟩ : ∃ state',
          page.foldlM (ingestProviderRecord rt connector) (s₁, progress₁) = .ok state' := ih hrest
        ((writable_cons_iff hplaced hr hs hinstances hadmitted).mp hwritable)
        (hplaced.keyed hr hs) hreserved₁ (by rwa [hplaced.instances])
        (fun x hx => hdated x (by simp [hx])) hdrawn₁
      refine ⟨state', ?_⟩
      rw [List.foldlM_cons, hfirst]
      exact hstate

end Page

/-- A page that `ingest_provider_tickets` does not refuse, and the records that it is read as. -/
structure Accepted (rt : Runtime TicketInput) (s : Store) (connectorInstanceId : String)
    (records : List TicketInput) (connector : ConnectorInstance) (rs : List ProviderRecord) :
    Prop where
  found : (normalizeClientId (some connectorInstanceId)).bind s.instances.find? = some connector
  active : connector.status = .active
  checked : records.mapM (checkProviderRecord connector.connectorInstanceId
    (Text.strip connector.connectorType)) = .ok rs
  writable : Writable rt s connector rs

section Page

variable {connectorInstanceId : String} {page : List (TicketInput × Stamp)}
  {connector : ConnectorInstance}

theorem Accepted.dated (h : Accepted rt s connectorInstanceId (page.map (·.1)) connector rs)
    (hdated : ∀ x ∈ page, x.1.Dated) : ∀ r ∈ rs, r.Dated := by
  intro r hr
  obtain ⟨record, hrecord, hcheck⟩ := exists_of_mem_mapM h.checked r hr
  obtain ⟨x, hx, rfl⟩ := List.mem_map.mp hrecord
  rw [ProviderRecord.Dated, (checkProviderRecord_eq hcheck).1]
  exact hdated x hx

theorem accepted_of_ok {progress : IngestProgress}
    (h : ingestProviderRecords rt s connectorInstanceId page = .ok (s', progress))
    (hs : s.Links (Ticket.Keyed rt)) (hreserved : s.isActive quarantineClientId = false)
    (hdated : ∀ x ∈ page, x.1.Dated) :
    ∃ connector rs, Accepted rt s connectorInstanceId (page.map (·.1)) connector rs ∧
      Passed rt (Text.strip connector.connectorType) s.ownerOf s rs s' := by
  simp only [ingestProviderRecords, bind_eq_ok] at h
  obtain ⟨instanceId, hrequired, h⟩ := h
  split at h
  · cases h
  · rename_i connector hfind
    simp only [bind_eq_ok, raiseIf_eq_ok] at h
    obtain ⟨_, hactive, h⟩ := h
    obtain ⟨rs, hrs, hpassed, hwritable⟩ := passed_of_ok h hs hreserved hdated
    refine ⟨connector, rs, ⟨?_, not_not.mp hactive, hrs, hwritable⟩, hpassed⟩
    rw [required_eq_ok.mp hrequired]
    exact hfind

theorem exists_of_accepted
    (h : Accepted rt s connectorInstanceId (page.map (·.1)) connector rs)
    (hs : s.Links (Ticket.Keyed rt)) (hreserved : s.isActive quarantineClientId = false)
    (hdated : ∀ x ∈ page, x.1.Dated) (hdrawn : s.Drawn (page.map (·.2.recordId))) :
    ∃ s' progress, ingestProviderRecords rt s connectorInstanceId page = .ok (s', progress) ∧
      Passed rt (Text.strip connector.connectorType) s.ownerOf s rs s' := by
  obtain ⟨instanceId, hnormal, hfind⟩ := Option.bind_eq_some_iff.mp h.found
  have hid : connector.connectorInstanceId = instanceId := (Table.find?_eq_some_iff.mp hfind).2
  have hfound : s.instances.find? connector.connectorInstanceId ≠ none := by
    rw [hid, hfind]
    exact Option.some_ne_none connector
  obtain ⟨⟨s', progress⟩, hfold⟩ := @exists_of_writable rt s connector page ⟨0, 0, []⟩ rs h.checked
    h.writable hs hreserved hfound hdated hdrawn
  have hok : ingestProviderRecords rt s connectorInstanceId page = .ok (s', progress) := by
    rw [ingestProviderRecords, required_eq_ok.mpr hnormal, ok_bind]
    simp only [hfind]
    rw [raiseIf_of_not (not_not.mpr h.active), ok_bind]
    exact hfold
  obtain ⟨rs', hrs', hpassed, -⟩ := passed_of_ok hfold hs hreserved hdated
  obtain rfl : rs = rs' := Except.ok.inj (h.checked.symm.trans hrs')
  exact ⟨s', progress, hok, hpassed⟩

/-- Once it has been ingested, a page is not refused. -/
theorem Passed.accepted {records : List TicketInput}
    (h : Passed rt sourceSystem s.ownerOf s rs s')
    (haccepted : Accepted rt s connectorInstanceId records connector rs) :
    Accepted rt s' connectorInstanceId records connector rs where
  found := by
    rw [h.instances]
    exact haccepted.found
  active := haccepted.active
  checked := haccepted.checked
  writable := by
    have hnamed : ∀ r ∈ rs, ¬ ∀ t ∈ s'.tickets, ¬ r.Names t := by
      intro r hr hnone
      obtain ⟨t, ht, hnames⟩ := h.exists_names r hr
      exact hnone t ht hnames
    refine ⟨fun r hr => ⟨?_, fun hnone => absurd hnone (hnamed r hr)⟩, ?_⟩
    · exact h.registry.resolved.mpr (haccepted.writable.admitted r hr).resolved
    · exact List.pairwise_iff_forall_sublist.mpr fun {r q} hsub hnone =>
        absurd hnone (hnamed r (hsub.subset (by simp)))

end Page

/-! ## Statuses of a page -/

def ProviderRecord.Same (q r : ProviderRecord) : Prop :=
  q.instanceId = r.instanceId ∧ q.externalId = r.externalId

instance (q r : ProviderRecord) : Decidable (q.Same r) := inferInstanceAs (Decidable (_ ∧ _))

theorem ProviderRecord.Names.same {q r : ProviderRecord} {t : Ticket} (hr : r.Names t) :
    q.Same r ↔ q.Names t := by
  simp [Same, Names, hr.1, hr.2, eq_comm]

/-- The client of a record's ticket once the page has been ingested: the one that it is of already,
or the one of the first record on it. -/
def Store.holder (s : Store) (rs : List ProviderRecord) (r : ProviderRecord) : ClientId :=
  match s.findByIdentity? r.instanceId r.externalId with
  | some t => t.clientId
  | none => ((rs.find? fun q => q.Same r).map s.ownerOf).getD (s.ownerOf r)

/-- A record of a page that is written for a client. -/
def Store.Lands (s : Store) (rs : List ProviderRecord) (r : ProviderRecord) : Prop :=
  s.ownerOf r ≠ quarantineClientId ∧ s.holder rs r = s.ownerOf r

/-- No record that is written for a client has an empty status, and those of one ticket have one
status. -/
def Store.Steady (rt : Runtime TicketInput) (s : Store) (rs : List ProviderRecord) : Prop :=
  ∀ r ∈ rs, s.Lands rs r → r.input.status ≠ "" ∧
    ∀ q ∈ rs, s.Lands rs q → q.Same r → SameStatus rt r.input.status q.input.status

theorem Passed.holder_eq (h : Passed rt sourceSystem s.ownerOf s rs s')
    (hdated : ∀ r ∈ rs, r.Dated) (hs : s.Links (Ticket.Keyed rt)) {t : Ticket}
    (ht : t ∈ s'.tickets) (hr : r.Names t) : s.holder rs r = t.clientId := by
  rcases h.exists_owner hdated ht with ⟨old, hold, hclient, hnames⟩ | ⟨hnone, q, hfind, howner⟩
  · unfold Store.holder
    split
    · rename_i existing hexisting
      obtain ⟨hmem, hidentity⟩ := Store.findByIdentity?_eq_some hexisting
      rw [ProviderRecord.Names.eq hs hmem hold hidentity ((hnames r).mpr hr), hclient]
    · rename_i hmissing
      exact absurd ((hnames r).mpr hr) (findByIdentity?_eq_none_iff.mp hmissing old hold)
  · have hmissing : s.findByIdentity? r.instanceId r.externalId = none :=
      findByIdentity?_eq_none_iff.mpr fun u hu => hnone u hu r hr
    have hsame : (fun q : ProviderRecord => decide (q.Same r)) = fun q => decide (q.Names t) := by
      funext q
      exact decide_eq_decide.mpr hr.same
    simp [Store.holder, hmissing, hsame, hfind, howner]

/-- The second time the records are quiet on every ticket exactly if they are steady. -/
theorem Passed.quiet_iff_steady (h : Passed rt sourceSystem s.ownerOf s rs s')
    (hdated : ∀ r ∈ rs, r.Dated) (hs : s.Links (Ticket.Keyed rt)) :
    (∀ t ∈ s'.tickets, Quiet rt sourceSystem s.ownerOf rs t) ↔ s.Steady rt rs := by
  have hlands : ∀ {t : Ticket} {r : ProviderRecord}, t ∈ s'.tickets → r.Names t →
      (s.Lands rs r ↔ t.clientId ≠ quarantineClientId ∧ r.Takes s.ownerOf t) := by
    intro t r ht hr
    have hholder := h.holder_eq hdated hs ht hr
    constructor
    · rintro ⟨hordinary, howner⟩
      rw [hholder] at howner
      exact ⟨by rwa [howner], hr, howner⟩
    · rintro ⟨hordinary, -, howner⟩
      exact ⟨by rwa [← howner], hholder.trans howner⟩
  constructor
  · intro hquiet r hr hland
    obtain ⟨t, ht, hnames⟩ := h.exists_names r hr
    obtain ⟨hordinary, htakes⟩ := (hlands ht hnames).mp hland
    obtain ⟨hstatus, hsame⟩ :=
      (quiet_iff (h.replay_eq hdated t ht)).mp (hquiet t ht) hordinary r hr htakes
    refine ⟨hstatus, fun q hq hqland hqr => ?_⟩
    exact hsame q hq ((hlands ht (hnames.same.mp hqr)).mp hqland).2
  · intro hsteady t ht
    refine (quiet_iff (h.replay_eq hdated t ht)).mpr fun hordinary r hr htakes => ?_
    obtain ⟨hstatus, hsame⟩ := hsteady r hr ((hlands ht htakes.1).mpr ⟨hordinary, htakes⟩)
    refine ⟨hstatus, fun q hq hqtakes => ?_⟩
    exact hsame q hq ((hlands ht hqtakes.1).mpr ⟨hordinary, hqtakes⟩) (htakes.1.same.mpr hqtakes.1)

/-! ## The page again -/

/-- A page of which each record comes with the stamps of two calls. -/
abbrev TwicePage := List (TicketInput × Stamp × Stamp)

def TwicePage.records (page : TwicePage) : List TicketInput := page.map (·.1)

def TwicePage.first (page : TwicePage) : List (TicketInput × Stamp) :=
  page.map fun x => (x.1, x.2.1)

def TwicePage.second (page : TwicePage) : List (TicketInput × Stamp) :=
  page.map fun x => (x.1, x.2.2)

/-- The ids that the two calls draw. -/
def TwicePage.recordIds (page : TwicePage) : List NormalizedText :=
  page.first.map (·.2.recordId) ++ page.second.map (·.2.recordId)

/-- A second call with the page leaves the tickets and their history as the first one did. -/
def Reingested (rt : Runtime TicketInput) (s : Store) (connectorInstanceId : String)
    (page : TwicePage) : Prop :=
  let once := (ingestProviderTickets rt s connectorInstanceId page.first).1
  let twice := (ingestProviderTickets rt once connectorInstanceId page.second).1
  twice.tickets = once.tickets ∧ twice.history = once.history

theorem ingestProviderTickets_of_ok {connectorInstanceId : String}
    {page : List (TicketInput × Stamp)} {progress : IngestProgress}
    (h : ingestProviderRecords rt s connectorInstanceId page = .ok (s', progress)) :
    (ingestProviderTickets rt s connectorInstanceId page).1 = s' := by
  rw [ingestProviderTickets, h]

theorem ingestProviderTickets_of_refused {connectorInstanceId : String}
    {page : List (TicketInput × Stamp)}
    (h : ∀ result, ingestProviderRecords rt s connectorInstanceId page ≠ .ok result) :
    (ingestProviderTickets rt s connectorInstanceId page).1 = s := by
  unfold ingestProviderTickets
  split
  · rfl
  · rename_i hok
    exact absurd hok (h _)

theorem drawn_of_ok {connectorInstanceId : String} {page : List (TicketInput × Stamp)}
    {progress : IngestProgress} {ids : List NormalizedText}
    (h : ingestProviderRecords rt s connectorInstanceId page = .ok (s', progress))
    (hdrawn : s.Drawn (page.map (·.2.recordId) ++ ids)) : s'.Drawn ids := by
  simp only [ingestProviderRecords, bind_eq_ok] at h
  obtain ⟨instanceId, -, h⟩ := h
  split at h
  · cases h
  · simp only [bind_eq_ok] at h
    obtain ⟨_, -, h⟩ := h
    exact drawn_of_foldlM h hdrawn

theorem reingested_iff (hs : s.Links (Ticket.Keyed rt))
    (hreserved : s.isActive quarantineClientId = false) {connectorInstanceId : String}
    {page : TwicePage} (hdated : ∀ record ∈ page.records, record.Dated)
    (hdrawn : s.Drawn page.recordIds) :
    Reingested rt s connectorInstanceId page ↔
      ∀ connector rs, Accepted rt s connectorInstanceId page.records connector rs →
        s.Steady rt rs := by
  have hrecords₁ : page.first.map (·.1) = page.records := by
    simp [TwicePage.first, TwicePage.records]
  have hrecords₂ : page.second.map (·.1) = page.records := by
    simp [TwicePage.second, TwicePage.records]
  have hdated₁ : ∀ x ∈ page.first, x.1.Dated := fun x hx =>
    hdated x.1 (hrecords₁ ▸ List.mem_map_of_mem hx)
  have hdated₂ : ∀ x ∈ page.second, x.1.Dated := fun x hx =>
    hdated x.1 (hrecords₂ ▸ List.mem_map_of_mem hx)
  by_cases haccepted : ∃ connector rs, Accepted rt s connectorInstanceId page.records connector rs
  · obtain ⟨connector, rs, haccepted⟩ := haccepted
    have honly : (∀ connector' rs', Accepted rt s connectorInstanceId page.records connector' rs' →
        s.Steady rt rs') ↔ s.Steady rt rs := by
      refine ⟨fun h => h connector rs haccepted, fun hsteady connector' rs' haccepted' => ?_⟩
      obtain rfl := Option.some.inj (haccepted.found.symm.trans haccepted'.found)
      obtain rfl := Except.ok.inj (haccepted.checked.symm.trans haccepted'.checked)
      exact hsteady
    rw [honly]
    have hdrawn₁ : s.Drawn (page.first.map (·.2.recordId)) :=
      ⟨(List.nodup_append.mp hdrawn.1).1, fun row hrow hid =>
        hdrawn.2 row hrow (List.mem_append_left _ hid)⟩
    obtain ⟨s₁, progress₁, hfirst, hpassed₁⟩ :=
      exists_of_accepted (hrecords₁ ▸ haccepted) hs hreserved hdated₁ hdrawn₁
    have hrs : ∀ r ∈ rs, r.Dated := Accepted.dated (hrecords₁ ▸ haccepted) hdated₁
    have hreserved₁ : s₁.isActive quarantineClientId = false := by
      rwa [Store.isActive, hpassed₁.registry.clients]
    have hagain : Accepted rt s₁ connectorInstanceId (page.second.map (·.1)) connector rs := by
      rw [hrecords₂]
      exact hpassed₁.accepted haccepted
    obtain ⟨s₂, progress₂, hsecond, hpassed₂⟩ := exists_of_accepted hagain (hpassed₁.keyed hrs hs)
      hreserved₁ hdated₂ (drawn_of_ok hfirst hdrawn)
    have howner : s₁.ownerOf = s.ownerOf := by
      funext q
      exact hpassed₁.registry.companyOwner q.instanceId q.companyId
    rw [howner] at hpassed₂
    obtain ⟨hrows, rows, hhistory, hquiet⟩ := hpassed₂.of_named hpassed₁.exists_names
    -- the second call writes every ticket as it is
    have htickets : s₂.tickets = s₁.tickets := by
      refine Table.ext (hrows.trans ?_)
      conv_rhs => rw [← List.map_id s₁.tickets.rows]
      exact List.map_congr_left fun t ht => hpassed₁.replay_eq hrs t ht
    unfold Reingested
    rw [ingestProviderTickets_of_ok hfirst]
    dsimp only
    rw [ingestProviderTickets_of_ok hsecond, and_iff_right htickets, hhistory,
      List.append_right_eq_self, hquiet, hpassed₁.quiet_iff_steady hrs hs]
  · refine iff_of_true ?_ fun connector rs h => absurd ⟨connector, rs, h⟩ haccepted
    have hrefused : ∀ {calls : List (TicketInput × Stamp)}, calls.map (·.1) = page.records →
        (∀ x ∈ calls, x.1.Dated) →
        (ingestProviderTickets rt s connectorInstanceId calls).1 = s := by
      intro calls hrecords hcalls
      refine ingestProviderTickets_of_refused fun result hok => haccepted ?_
      obtain ⟨connector, rs, h, -⟩ := accepted_of_ok hok hs hreserved hcalls
      exact ⟨connector, rs, hrecords ▸ h⟩
    unfold Reingested
    rw [hrefused hrecords₁ hdated₁]
    dsimp only
    rw [hrefused hrecords₂ hdated₂]
    exact ⟨rfl, rfl⟩

/-- From any reachable state, a page that is ingested again changes no ticket, and it adds no status
change unless one of its records is written for a client with an empty status or with another status
than a second record on its ticket. -/
theorem reingested_iff_steady (rt : Runtime TicketInput) (ls : List StoreCall)
    (connectorInstanceId : String) (page : TwicePage)
    (hdated : ∀ record ∈ page.records, record.Dated)
    (hdrawn : ((tenancy rt).run ls).Drawn page.recordIds) :
    Reingested rt ((tenancy rt).run ls) connectorInstanceId page ↔
      ∀ connector rs,
        Accepted rt ((tenancy rt).run ls) connectorInstanceId page.records connector rs →
          ((tenancy rt).run ls).Steady rt rs :=
  reingested_iff (keyed_run rt ls) (isActive_quarantine_run rt ls) hdated hdrawn

/-! ### A ticket without a status -/

def mappedRun : List StoreCall :=
  [.createClient "acme" "Acme", .createConnectorInstance desk "halo" "Desk" none,
    .updateConnectorInstance desk.val { status := some "active" },
    .createClientConnectorMapping .allClients acmeMapping desk.val "17" "acme" none,
    .verifyClientConnectorMapping .allClients acmeMapping.val verificationTime]

def datedRecord (status : String) : TicketInput :=
  { printerRecord "17" with status := status, updatedAt := "2026-01-05T09:00:00+00:00" }

/-- The record comes in two polls that follow each other. -/
def polledTwice (status : String) : TwicePage :=
  [(datedRecord status, deskStamp,
    { deskStamp with recordId := ⟨"UMR-2", by decide, by decide⟩ })]

theorem reingested_iff_steady_polledTwice :
    Reingested deskRuntime ((tenancy deskRuntime).run mappedRun) desk.val (polledTwice "new") := by
  refine (reingested_iff_steady deskRuntime mappedRun desk.val (polledTwice "new") (by decide)
    (by decide)).mpr fun connector rs haccepted r hr _ => ?_
  have hstatus : ∀ q ∈ rs, q.input.status = "new" := by
    intro q hq
    obtain ⟨record, hrecord, hcheck⟩ := exists_of_mem_mapM haccepted.checked q hq
    obtain rfl : record = datedRecord "new" := List.mem_singleton.mp hrecord
    rw [(checkProviderRecord_eq hcheck).1]
    rfl
  rw [hstatus r hr]
  refine ⟨by decide, fun q hq _ _ => ?_⟩
  rw [hstatus q hq]
  rfl

theorem not_reingested : ¬ ∀ ls connectorInstanceId (page : TwicePage),
    (∀ record ∈ page.records, record.Dated) →
      (page.records.map TicketInput.externalId).Nodup →
        ((tenancy deskRuntime).run ls).Drawn page.recordIds →
          Reingested deskRuntime ((tenancy deskRuntime).run ls) connectorInstanceId page := by
  intro h
  have hsame := (h mappedRun desk.val (polledTwice "") (by decide) (by decide) (by decide)).2
  have hlengths : (ingestProviderTickets deskRuntime (ingestProviderTickets deskRuntime
        ((tenancy deskRuntime).run mappedRun) desk.val (polledTwice "").first).1 desk.val
        (polledTwice "").second).1.history.length ≠
      (ingestProviderTickets deskRuntime ((tenancy deskRuntime).run mappedRun) desk.val
        (polledTwice "").first).1.history.length := by decide
  exact hlengths (congrArg List.length hsame)

end WaitLocalAgent.Tenancy
