import WaitLocalAgent.Verification.Tickets.Backing

/-! # The unmapped ledger after a verification

A verification resolves the open ledger rows of the tickets that it moves, as long as those rows
still carry the external company that the tickets are held under. -/

namespace WaitLocalAgent.Tenancy

open Foundation Relation

variable {rt : Runtime TicketInput} {s s' : Store}

/-- Every connector ticket has an external id. -/
def Store.Identified (s : Store) : Prop := ∀ t ∈ s.tickets, t.Identified

theorem Store.Identified.of_assign {p : Ticket → Bool} {client : ClientId} (hs : s.Identified)
    (h : s'.tickets = s.tickets.update p (Ticket.assign client) (Ticket.assign_id client)) :
    s'.Identified := by
  intro t ht
  rw [h, Table.mem_update] at ht
  obtain ⟨u, hu, rfl⟩ := ht
  split
  · exact hs u hu
  · exact hs u hu

theorem Outcome.identified {l : StoreCall} (h : Outcome rt s l s') (hs : s.Identified) :
    s'.Identified := by
  cases h with
  | writes h => exact h.identified hs
  | verified h => exact hs.of_assign h.tickets
  | reclassified h => exact hs.of_assign h.tickets

theorem identified_run (rt : Runtime TicketInput) (ls : List StoreCall) :
    ((tenancy rt).run ls).Identified := by
  have hinit : Store.Identified (tenancy rt).init := by
    intro t ht
    simp [tenancy, Store.fresh] at ht
  exact Machine.run_invariant hinit (fun _ l hs => l.apply_outcome.identified hs) ls

/-- The tickets that leave quarantine between `s` and `s'` have no open ledger row in `s'`. -/
def LedgerClosed (s s' : Store) : Prop :=
  ∀ t ∈ s.tickets, t.clientId = quarantineClientId →
    ∀ t' ∈ s'.tickets, t'.id = t.id → t'.clientId ≠ quarantineClientId →
      ∀ instanceId, t'.connectorInstanceId = some instanceId → ∀ r ∈ s'.unmapped,
        r.openFor instanceId t'.externalId "ticket" = false

/-- The open ledger rows of the tickets held for the company of a mapping carry that company. -/
def LedgerAgrees (s : Store) (m : ClientConnectorMapping) : Prop :=
  ∀ t ∈ s.tickets, t.heldFor m.connectorInstanceId m.externalCompanyId = true →
    ∀ r ∈ s.unmapped, r.openFor m.connectorInstanceId t.externalId "ticket" = true →
      r.externalCompanyId = some m.externalCompanyId

theorem UnmappedRecord.openFor_iff {r : UnmappedRecord} {instanceId : NormalizedText}
    {externalId : Option NormalizedText} {recordType : String} :
    r.openFor instanceId externalId recordType = true ↔ r.connectorInstanceId = instanceId ∧
      r.externalId = externalId ∧ r.recordType = recordType ∧ r.resolvedAt = none := by
  simp only [openFor, Bool.and_eq_true, beq_iff_eq, Option.isNone_iff_eq_none, and_assoc]

theorem UnmappedRecord.openFor_resolve {r : UnmappedRecord} {now : String}
    {instanceId : NormalizedText} {externalId : Option NormalizedText} {recordType : String} :
    (r.resolve now).openFor instanceId externalId recordType = false := by
  rw [Bool.eq_false_iff]
  intro hopen
  exact r.resolve_resolvedAt now (openFor_iff.mp hopen).2.2.2

namespace Verification

variable {now : String} {m : ClientConnectorMapping}

/-- The rows that a verification resolves are those of a moved ticket under its company. -/
theorem resolves_iff {r : UnmappedRecord} :
    ((s.quarantinedTickets m.connectorInstanceId m.externalCompanyId).any fun t =>
      r.connectorInstanceId = m.connectorInstanceId &&
        r.externalCompanyId = some m.externalCompanyId && t.externalId.isSome &&
        r.externalId = t.externalId) = true ↔
      r.connectorInstanceId = m.connectorInstanceId ∧
        r.externalCompanyId = some m.externalCompanyId ∧
        ∃ t ∈ s.tickets, t.heldFor m.connectorInstanceId m.externalCompanyId = true ∧
          t.externalId.isSome = true ∧ r.externalId = t.externalId := by
  simp only [List.any_eq_true, Bool.and_eq_true, decide_eq_true_eq, Store.mem_quarantinedTickets]
  constructor
  · intro h
    obtain ⟨t, ⟨ht, hheld⟩, ⟨⟨hinstance, hcompany⟩, hsome⟩, hexternal⟩ := h
    exact ⟨hinstance, hcompany, t, ht, hheld, hsome, hexternal⟩
  · intro h
    obtain ⟨hinstance, hcompany, t, ht, hheld, hsome, hexternal⟩ := h
    exact ⟨t, ⟨ht, hheld⟩, ⟨⟨hinstance, hcompany⟩, hsome⟩, hexternal⟩

theorem ledgerAgrees (h : Verification now m s s') (hclosed : LedgerClosed s s') :
    LedgerAgrees s m := by
  intro t ht hheld r hr hopen
  obtain ⟨hquarantine, hinstance, -⟩ := Ticket.heldFor_iff.mp hheld
  have hmoved : t.assign m.clientId ∈ s'.tickets := by
    rw [h.tickets, Table.mem_update]
    exact ⟨t, ht, by simp only [hheld, if_true]⟩
  have hshut : ∀ r' ∈ s'.unmapped,
      r'.openFor m.connectorInstanceId t.externalId "ticket" = false :=
    hclosed t ht hquarantine _ hmoved rfl (h.ordinary t ht hheld) m.connectorInstanceId hinstance
  have hrow := hshut _ (h.unmapped ▸ Table.mem_update_of_mem hr)
  split at hrow
  · rename_i hresolved
    exact (resolves_iff.mp hresolved).2.1
  · rw [hopen] at hrow
    cases hrow

theorem ledgerClosed (h : Verification now m s s') (hs : s.Identified)
    (hagrees : LedgerAgrees s m) : LedgerClosed s s' := by
  intro t ht hquarantine t' ht' hid hordinary i hlinked r' hr'
  rw [h.tickets, Table.mem_update] at ht'
  obtain ⟨u, hu, rfl⟩ := ht'
  have hsame : u = t := by
    apply Table.eq_of_key_eq hu ht
    split at hid
    · exact hid
    · exact hid
  subst hsame
  by_cases hheld : u.heldFor m.connectorInstanceId m.externalCompanyId = true
  · simp only [if_pos hheld] at hlinked ⊢
    obtain ⟨-, hinstance, -⟩ := Ticket.heldFor_iff.mp hheld
    have hi : m.connectorInstanceId = i := Option.some.inj (hinstance.symm.trans hlinked)
    rw [h.unmapped, Table.mem_update] at hr'
    obtain ⟨r, hr, rfl⟩ := hr'
    split
    · exact UnmappedRecord.openFor_resolve
    · rename_i hleft
      rw [Bool.eq_false_iff]
      intro hopen
      apply hleft
      rw [← hi] at hopen
      obtain ⟨hrow, hexternal, -⟩ := UnmappedRecord.openFor_iff.mp hopen
      rw [resolves_iff]
      refine ⟨hrow, hagrees u hu hheld r hr hopen, u, hu, hheld, ?_, hexternal⟩
      exact hs u hu (by simp [hinstance])
  · rw [if_neg hheld] at hordinary
    exact absurd hquarantine hordinary

end Verification

/-- In any reachable state, a verification closes the ledger rows of the tickets that it moves
exactly if the open rows of the tickets held for its company carry that company. -/
theorem ledgerClosed_iff (rt : Runtime TicketInput) (ls : List StoreCall) (scope : ClientScope)
    (mappingId now : String) (s' : Store)
    (hok : verifyClientConnectorMapping rt ((tenancy rt).run ls) scope mappingId now = .ok s') :
    LedgerClosed ((tenancy rt).run ls) s' ↔
      ∀ m ∈ ((tenancy rt).run ls).mappings, normalizeClientId (some mappingId) =
        some m.mappingId → LedgerAgrees ((tenancy rt).run ls) m := by
  obtain ⟨m, hid, hm⟩ := verifyClientConnectorMapping_eq_ok hok
  constructor
  · intro hclosed q hq hid'
    rw [hid, Option.some.injEq] at hid'
    rw [← Table.eq_of_key_eq hm.mem hq hid']
    exact hm.ledgerAgrees hclosed
  · intro hagrees
    exact hm.ledgerClosed (identified_run rt ls) (hagrees m hm.mem hid)

def acmeMapping : NormalizedText := ⟨"9d0f0e52-5d6e-4e63-b0a7-2f3c9f7f5a01", by decide, by decide⟩

def boltMapping : NormalizedText := ⟨"c5b7a9d4-61f2-4f0c-8a35-7f1f1f3f6b02", by decide, by decide⟩

def verificationTime : String := "2026-01-05T11:00:00+00:00"

/-- The printer ticket is held under company `"17"`, which is then mapped to `acme`. -/
def heldRun : List StoreCall :=
  [.createClient "acme" "Acme", .createConnectorInstance desk "halo" "Desk" none,
    .updateConnectorInstance desk.val { status := some "active" },
    .ingestProviderTickets desk.val [(printerRecord "17", deskStamp)],
    .createClientConnectorMapping .allClients acmeMapping desk.val "17" "acme" none]

/-- Between the two, the ticket shows up under company `"18"`, which is mapped to `bolt`. -/
def resightedRun : List StoreCall :=
  heldRun ++ [.createClient "bolt" "Bolt",
    .createClientConnectorMapping .allClients boltMapping desk.val "18" "bolt" none,
    .verifyClientConnectorMapping .allClients boltMapping.val verificationTime,
    .ingestProviderTickets desk.val [(printerRecord "18", deskStamp)]]

def verifyAcme (ls : List StoreCall) : Except TenancyError Store :=
  verifyClientConnectorMapping deskRuntime ((tenancy deskRuntime).run ls) .allClients
    acmeMapping.val verificationTime

theorem ledgerClosed_iff_heldRun :
    ∃ s', verifyAcme heldRun = .ok s' ∧ LedgerClosed ((tenancy deskRuntime).run heldRun) s' := by
  obtain ⟨s', hok⟩ := exists_eq_ok (x := verifyAcme heldRun) (by decide)
  refine ⟨s', hok, ?_⟩
  rw [ledgerClosed_iff deskRuntime heldRun .allClients acmeMapping.val verificationTime s' hok]
  intro m hm _ t ht _ r hr _
  have hcompanies : ∀ m ∈ ((tenancy deskRuntime).run heldRun).mappings.rows,
      ∀ r ∈ ((tenancy deskRuntime).run heldRun).unmapped.rows,
        r.externalCompanyId = some m.externalCompanyId := by decide
  exact hcompanies m hm r hr

theorem not_ledgerClosed : ¬ ∀ ls scope mappingId now s',
    verifyClientConnectorMapping deskRuntime ((tenancy deskRuntime).run ls) scope mappingId now =
      .ok s' → LedgerClosed ((tenancy deskRuntime).run ls) s' := by
  intro h
  obtain ⟨s', hok⟩ := exists_eq_ok (x := verifyAcme resightedRun) (by decide)
  obtain ⟨m, hid, hm⟩ := verifyClientConnectorMapping_eq_ok hok
  have hagrees := hm.ledgerAgrees (h _ _ _ _ s' hok)
  have hmapping : ∀ m ∈ ((tenancy deskRuntime).run resightedRun).mappings.rows,
      m.mappingId = acmeMapping →
        m.connectorInstanceId = desk ∧ m.externalCompanyId = contoso := by decide
  have hopen : ∃ t ∈ ((tenancy deskRuntime).run resightedRun).tickets.rows,
      t.heldFor desk contoso = true ∧
        ∃ r ∈ ((tenancy deskRuntime).run resightedRun).unmapped.rows,
          r.openFor desk t.externalId "ticket" = true ∧ r.externalCompanyId ≠ some contoso := by
    decide
  rw [normalizeClientId_val, Option.some.injEq] at hid
  obtain ⟨hinstance, hcompany⟩ := hmapping m hm.mem hid.symm
  obtain ⟨t, ht, hheld, r, hr, hrow, hother⟩ := hopen
  rw [← hinstance] at hheld hrow
  rw [← hcompany] at hheld hother
  exact hother (hagrees t ht hheld r hr hrow)

end WaitLocalAgent.Tenancy
