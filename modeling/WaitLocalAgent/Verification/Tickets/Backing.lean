import WaitLocalAgent.Verification.Tickets.Retenanting

/-! # Verified mappings behind connector tickets

A connector ticket outside quarantine has the client of a verified mapping, unless an operator
reclassified it to a client that its company is not mapped to. -/

namespace WaitLocalAgent.Tenancy

open Foundation Relation

variable {rt : Runtime TicketInput} {s s' : Store}

/-- Every ticket is backed by a verified mapping. -/
def Store.Backed (s : Store) : Prop := ∀ t ∈ s.tickets, t.Backed s

/-- A reclassification that goes through finds a ticket without provenance, or a client that the
company of the ticket is already verified for. -/
def ReclassifiesMapped (s : Store) (l : StoreCall) : Prop :=
  ∀ ticketId clientId now, l = .reclassifyQuarantinedTicket ticketId clientId now →
    ∀ id client, normalizeClientId (some ticketId) = some id →
      normalizeClientId (some clientId) = some client → client ≠ quarantineClientId →
      s.isActive client = true → ∀ t ∈ s.tickets, t.id = id.val →
      t.clientId = quarantineClientId → ∀ instanceId companyId,
        t.connectorInstanceId = some instanceId → t.externalClientId = some companyId →
          s.Verified instanceId companyId client

theorem Verification.backed {now : String} {m : ClientConnectorMapping}
    (h : Verification now m s s') (hs : s.Backed) : s'.Backed := by
  intro t ht
  rw [h.tickets, Table.mem_update] at ht
  obtain ⟨u, hu, rfl⟩ := ht
  split
  · rename_i hheld
    obtain ⟨-, hinstance, hcompany⟩ := Ticket.heldFor_iff.mp hheld
    intro i e hi he _
    have hi' : some m.connectorInstanceId = some i := hinstance.symm.trans hi
    have he' : some m.externalCompanyId = some e := hcompany.symm.trans he
    cases hi'
    cases he'
    exact h.verified
  · exact (hs u hu).mono h.kept

/-- A reclassification keeps the store backed exactly if the ticket it moves ends up backed. -/
theorem Reclassification.backed_iff {ticketId clientId : String} {t : Ticket} {client : ClientId}
    (h : Reclassification ticketId clientId t client s s') (hs : s.Backed) :
    s'.Backed ↔ (t.assign client).Backed s := by
  have hkept : MappingsKept s s' := .of_eq h.mappings
  have hkept' : MappingsKept s' s := .of_eq h.mappings.symm
  constructor
  · intro hbacked
    refine (hbacked (t.assign client) ?_).mono hkept'
    rw [h.tickets, Table.mem_update]
    exact ⟨t, h.mem, by simp⟩
  · intro hmoved u hu
    rw [h.tickets, Table.mem_update] at hu
    obtain ⟨q, hq, rfl⟩ := hu
    split
    · rename_i hid
      rw [Table.eq_of_key_eq hq h.mem (by simpa using hid)]
      exact hmoved.mono hkept
    · exact (hs q hq).mono hkept

theorem Ticket.assign_backed_iff {t : Ticket} {client : ClientId}
    (hordinary : client ≠ quarantineClientId) :
    (t.assign client).Backed s ↔ ∀ instanceId companyId, t.connectorInstanceId = some instanceId →
      t.externalClientId = some companyId → s.Verified instanceId companyId client := by
  constructor
  · intro h instanceId companyId hinstance hcompany
    exact h instanceId companyId hinstance hcompany hordinary
  · intro h instanceId companyId hinstance hcompany _
    exact h instanceId companyId hinstance hcompany

theorem reclassifyQuarantinedTicket_ok {ticketId clientId now : String} {id : NormalizedText}
    {client : ClientId} {t : Ticket} (hid : normalizeClientId (some ticketId) = some id)
    (hclient : normalizeClientId (some clientId) = some client)
    (hordinary : client ≠ quarantineClientId) (hactive : s.isActive client = true)
    (ht : t ∈ s.tickets) (hkey : t.id = id.val) (hheld : t.clientId = quarantineClientId) :
    ∃ s', reclassifyQuarantinedTicket rt s ticketId clientId now = .ok s' := by
  have hfind : s.tickets.find? id.val = some t := Table.find?_eq_some_iff.mpr ⟨ht, hkey⟩
  rw [reclassifyQuarantinedTicket, required_eq_ok.mpr hid, ok_bind, required_eq_ok.mpr hclient,
    ok_bind, raiseIf_of_not hordinary, ok_bind, raiseIf_of_not (by simp [hactive]), ok_bind, hfind]
  simp only [raiseIf_of_not (not_not.mpr hheld), ok_bind, pure_eq_ok, exists_eq']

theorem Outcome.backed {l : StoreCall} (h : Outcome rt s l s') (hs : s.Backed)
    (hl : ∀ ticketId clientId now, l ≠ .reclassifyQuarantinedTicket ticketId clientId now) :
    s'.Backed := by
  cases h with
  | writes h => exact h.backed hs
  | verified h => exact h.backed hs
  | reclassified h => exact absurd rfl (hl _ _ _)

theorem backed_reclassify_iff {ticketId clientId now : String} (hs : s.Backed) :
    (StoreCall.apply rt s (.reclassifyQuarantinedTicket ticketId clientId now)).Backed ↔
      ReclassifiesMapped s (.reclassifyQuarantinedTicket ticketId clientId now) := by
  rw [StoreCall.apply]
  cases hok : Tenancy.reclassifyQuarantinedTicket rt s ticketId clientId now with
  | error e =>
      refine iff_of_true hs ?_
      intro _ _ _ hl id client hid hclient hordinary hactive t ht hkey hheld
      cases hl
      obtain ⟨s', hok'⟩ :=
        @reclassifyQuarantinedTicket_ok rt s _ _ now _ _ _ hid hclient hordinary hactive ht hkey
          hheld
      rw [hok] at hok'
      cases hok'
  | ok s' =>
      obtain ⟨t, client, hmoved⟩ := reclassifyQuarantinedTicket_eq_ok hok
      obtain ⟨id, hid, hkey⟩ := Option.map_eq_some_iff.mp hmoved.ticketId_eq
      rw [committed, hmoved.backed_iff hs, Ticket.assign_backed_iff hmoved.ordinary]
      constructor
      · intro h _ _ _ hl id' client' hid' hclient' _ _ t' ht' hkey' _
        cases hl
        rw [hid, Option.some.injEq] at hid'
        rw [hmoved.clientId_eq, Option.some.injEq] at hclient'
        rw [← hid', hkey] at hkey'
        rw [Table.eq_of_key_eq ht' hmoved.mem hkey', ← hclient']
        exact h
      · intro h
        exact h ticketId clientId now rfl id client hid hmoved.clientId_eq hmoved.ordinary
          hmoved.active t hmoved.mem hkey.symm hmoved.held

theorem backed_step_iff (l : StoreCall) (hs : s.Backed) :
    (l.apply rt s).Backed ↔ ReclassifiesMapped s l := by
  by_cases hl : ∃ ticketId clientId now, l = .reclassifyQuarantinedTicket ticketId clientId now
  · obtain ⟨ticketId, clientId, now, rfl⟩ := hl
    exact backed_reclassify_iff hs
  · refine iff_of_true (l.apply_outcome.backed hs ?_) ?_
    · intro ticketId clientId now h
      exact hl ⟨ticketId, clientId, now, h⟩
    · intro ticketId clientId now h
      exact absurd ⟨ticketId, clientId, now, h⟩ hl

/-- Every connector ticket outside quarantine has the client of a verified mapping in all states
of a run exactly if the run reclassifies tickets only without provenance, or to a client that
their company is verified for. -/
theorem backed_run_iff (rt : Runtime TicketInput) (ls : List StoreCall) :
    (∀ ks, ks <+: ls → ∀ t ∈ ((tenancy rt).run ks).tickets, t.Backed ((tenancy rt).run ks)) ↔
      (tenancy rt).Guarded ReclassifiesMapped ls := by
  have hinit : Store.Backed (tenancy rt).init := by
    intro t ht
    simp [tenancy, Store.fresh] at ht
  exact Machine.forall_prefix_iff_guarded (J := fun _ => True) hinit trivial (fun _ _ _ => trivial)
    (fun _ l _ hs => backed_step_iff l hs) ls

def desk : NormalizedText := ⟨"3f2b6c1e-0a4d-4c58-9a51-7d2e8b0f6c11", by decide, by decide⟩

def contoso : NormalizedText := ⟨"17", by decide, by decide⟩

/-- The library functions on the records below, which hold nothing to redact. -/
def deskRuntime : Runtime TicketInput where
  ticketUuid _ _ := "fec30132-330a-5a54-996c-66bfc3d68047"
  lower := Text.lower
  payloadDigest record :=
    if record.externalClientId = some "17" then
      "9201826e2a895502ec0922527345674c12b7a4a81ac688653694fc94730ab3ef"
    else "770874fb6a0dadbaaab45ec074e1df39f0378a5f4bab5b4cc81c8ca8dc616ca9"
  redactText := id

def printerRecord (companyId : String) : TicketInput where
  id := "42"
  client := "Contoso"
  subject := "Printer offline"
  body := "The front desk printer is offline."
  priority := "normal"
  status := "new"
  createdAt := "2026-01-05T09:00:00+00:00"
  connectorInstanceId := some desk.val
  externalId := some "42"
  externalClientId := some companyId

def deskStamp : Stamp where
  upsertedAt := "2026-01-05T09:05:00+00:00"
  recordedAt := "2026-01-05T09:05:00+00:00"
  recordId := ⟨"UMR-1", by decide, by decide⟩

/-- A ticket of a company without a mapping is held, and then reclassified. -/
def reclassifiedRun : List StoreCall :=
  [.createClient "acme" "Acme", .createConnectorInstance desk "halo" "Desk" none,
    .updateConnectorInstance desk.val { status := some "active" },
    .ingestProviderTickets desk.val [(printerRecord "17", deskStamp)],
    .reclassifyQuarantinedTicket "fec30132-330a-5a54-996c-66bfc3d68047" "acme"
      "2026-01-05T10:00:00+00:00"]

theorem not_backed : ¬ ∀ ls, ∀ t ∈ ((tenancy deskRuntime).run ls).tickets,
    t.Backed ((tenancy deskRuntime).run ls) := by
  intro h
  have hticket : ∃ t ∈ ((tenancy deskRuntime).run reclassifiedRun).tickets.rows,
      t.connectorInstanceId = some desk ∧ t.externalClientId = some contoso ∧
        t.clientId = acme := by decide
  have hunmapped : ((tenancy deskRuntime).run reclassifiedRun).mappings.rows = [] := by decide
  obtain ⟨t, ht, hinstance, hcompany, hclient⟩ := hticket
  have hordinary : t.clientId ≠ quarantineClientId := by
    rw [hclient]
    decide
  obtain ⟨m, hm, -⟩ := h reclassifiedRun t ht desk contoso hinstance hcompany hordinary
  rw [Table.mem_def, hunmapped] at hm
  cases hm

end WaitLocalAgent.Tenancy
