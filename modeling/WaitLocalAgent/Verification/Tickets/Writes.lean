import WaitLocalAgent.Model.Tickets

/-! # Writes

Every operation but the two that release tickets from quarantine is a sequence of writes, and a
write leaves each ticket with its client. -/

namespace WaitLocalAgent.Tenancy

open Foundation Relation

def Store.Verified (s : Store) (instanceId companyId : NormalizedText) (clientId : ClientId) :
    Prop :=
  ∃ m ∈ s.mappings, m.connectorInstanceId = instanceId ∧ m.externalCompanyId = companyId ∧
    m.clientId = clientId ∧ m.verified = true

/-- A connector ticket outside quarantine has the client of a verified mapping for its company. -/
def Ticket.Backed (s : Store) (t : Ticket) : Prop :=
  ∀ instanceId companyId, t.connectorInstanceId = some instanceId →
    t.externalClientId = some companyId → t.clientId ≠ quarantineClientId →
    s.Verified instanceId companyId t.clientId

/-- A connector ticket has an external id. -/
def Ticket.Identified (t : Ticket) : Prop :=
  t.connectorInstanceId.isSome = true → t.externalId.isSome = true

variable {t : Ticket}

theorem Ticket.Backed.of_unlinked {s : Store} (h : t.connectorInstanceId = none) :
    t.Backed s := by
  intro instanceId companyId hinstance
  rw [h] at hinstance
  cases hinstance

theorem Ticket.Identified.of_unlinked (h : t.connectorInstanceId = none) :
    t.Identified := by
  intro hsome
  rw [h] at hsome
  cases hsome

/-- A write may put `u` in the place of a ticket `t` of a client that it writes for. -/
structure Ticket.Rewrite (owned : ClientId → Prop) (s : Store) (t u : Ticket) : Prop where
  owned : owned t.clientId
  clientId : u.clientId = t.clientId
  identified : t.Identified → u.Identified
  backed : t.Backed s → u.Backed s

def MappingsKept (s s' : Store) : Prop := ∀ m ∈ s.mappings, m.verified = true → m ∈ s'.mappings

theorem MappingsKept.of_eq {s s' : Store} (h : s'.mappings = s.mappings) : MappingsKept s s' := by
  intro m hm _
  rwa [h]

theorem Store.Verified.mono {s s' : Store} {instanceId companyId : NormalizedText}
    {clientId : ClientId} (h : s.Verified instanceId companyId clientId)
    (hkept : MappingsKept s s') : s'.Verified instanceId companyId clientId := by
  obtain ⟨m, hm, hinstance, hcompany, hclient, hverified⟩ := h
  exact ⟨m, hkept m hm hverified, hinstance, hcompany, hclient, hverified⟩

theorem Ticket.Backed.mono {s s' : Store} (h : t.Backed s)
    (hkept : MappingsKept s s') : t.Backed s' := by
  intro instanceId companyId hinstance hcompany hclient
  exact (h instanceId companyId hinstance hcompany hclient).mono hkept

/-- One statement on behalf of the clients in `owned`. -/
inductive Write (owned : ClientId → Prop) (s s' : Store) : Prop where
  | elsewhere (tickets : s'.tickets = s.tickets) (mappings : MappingsKept s s')
  | insert {t : Ticket} (tickets : s.tickets.insert? t = some s'.tickets)
      (mappings : MappingsKept s s') (identified : t.Identified) (backed : t.Backed s)
  | update {p : Ticket → Bool} {f : Ticket → Ticket} (hf : ∀ t, (f t).id = t.id)
      (tickets : s'.tickets = s.tickets.update p f hf) (mappings : MappingsKept s s')
      (rewrite : ∀ t ∈ s.tickets, p t = true → t.Rewrite owned s (f t))

namespace Write

variable {owned : ClientId → Prop} {s s' : Store}

theorem mappings (h : Write owned s s') : MappingsKept s s' := by
  cases h with
  | elsewhere _ hm => exact hm
  | insert _ hm _ _ => exact hm
  | update _ _ hm _ => exact hm

theorem mono {wider : ClientId → Prop} (h : Write owned s s')
    (hw : ∀ c, owned c → wider c) : Write wider s s' := by
  cases h with
  | elsewhere ht hm => exact .elsewhere ht hm
  | insert ht hm hi hb => exact .insert ht hm hi hb
  | update hf ht hm hr =>
      refine .update hf ht hm ?_
      intro t hmem hp
      have h := hr t hmem hp
      exact ⟨hw _ h.owned, h.clientId, h.identified, h.backed⟩

theorem unowned (h : Write owned s s') (hmem : t ∈ s.tickets)
    (ho : ¬ owned t.clientId) : t ∈ s'.tickets := by
  cases h with
  | elsewhere ht _ => rwa [ht]
  | insert ht _ _ _ =>
      rw [Table.mem_of_insert? ht]
      exact .inl hmem
  | @update p f hf ht _ hr =>
      rw [ht]
      apply Table.mem_update_of_not hmem
      cases hp : p t with
      | false => rfl
      | true => exact absurd (hr t hmem hp).owned ho

theorem keeps_client (h : Write owned s s') (hmem : t ∈ s.tickets) :
    ∃ t' ∈ s'.tickets, t'.id = t.id ∧ t'.clientId = t.clientId := by
  cases h with
  | elsewhere ht _ => exact ⟨t, by rwa [ht], rfl, rfl⟩
  | insert ht _ _ _ =>
      refine ⟨t, ?_, rfl, rfl⟩
      rw [Table.mem_of_insert? ht]
      exact .inl hmem
  | @update p f hf ht _ hr =>
      rw [ht]
      refine ⟨if p t then f t else t, Table.mem_update_of_mem hmem, ?_⟩
      split
      · rename_i hp
        exact ⟨hf t, (hr t hmem hp).clientId⟩
      · exact ⟨rfl, rfl⟩

theorem identified (h : Write owned s s') (hs : ∀ t ∈ s.tickets, t.Identified) :
    ∀ t ∈ s'.tickets, t.Identified := by
  intro t hmem
  cases h with
  | elsewhere ht _ => exact hs t (by rwa [ht] at hmem)
  | insert ht _ hi _ =>
      rcases (Table.mem_of_insert? ht).mp hmem with hmem | rfl
      · exact hs t hmem
      · exact hi
  | update _ ht _ hr =>
      rw [ht, Table.mem_update] at hmem
      obtain ⟨u, hu, rfl⟩ := hmem
      split
      · rename_i hp
        exact (hr u hu hp).identified (hs u hu)
      · exact hs u hu

theorem backed (h : Write owned s s') (hs : ∀ t ∈ s.tickets, t.Backed s) :
    ∀ t ∈ s'.tickets, t.Backed s' := by
  intro t hmem
  have hkept := h.mappings
  cases h with
  | elsewhere ht _ => exact (hs t (by rwa [ht] at hmem)).mono hkept
  | insert ht _ _ hb =>
      rcases (Table.mem_of_insert? ht).mp hmem with hmem | rfl
      · exact (hs t hmem).mono hkept
      · exact hb.mono hkept
  | update _ ht _ hr =>
      rw [ht, Table.mem_update] at hmem
      obtain ⟨u, hu, rfl⟩ := hmem
      split
      · rename_i hp
        exact ((hr u hu hp).backed (hs u hu)).mono hkept
      · exact (hs u hu).mono hkept

end Write

abbrev Writes (owned : ClientId → Prop) : Store → Store → Prop := ReflTransGen (Write owned)

namespace Writes

variable {owned : ClientId → Prop} {s s' : Store}

theorem mono {wider : ClientId → Prop} (h : Writes owned s s') (hw : ∀ c, owned c → wider c) :
    Writes wider s s' :=
  ReflTransGen.mono (fun _ _ h => h.mono hw) _ _ h

theorem unowned (h : Writes owned s s') (hmem : t ∈ s.tickets)
    (ho : ¬ owned t.clientId) : t ∈ s'.tickets := by
  induction h with
  | refl => exact hmem
  | tail _ hlast ih => exact hlast.unowned ih ho

theorem keeps_client (h : Writes owned s s') (hmem : t ∈ s.tickets) :
    ∃ t' ∈ s'.tickets, t'.id = t.id ∧ t'.clientId = t.clientId := by
  induction h with
  | refl => exact ⟨t, hmem, rfl, rfl⟩
  | tail _ hlast ih =>
      obtain ⟨u, hu, hid, hclient⟩ := ih
      obtain ⟨v, hv, hid', hclient'⟩ := hlast.keeps_client hu
      exact ⟨v, hv, hid'.trans hid, hclient'.trans hclient⟩

theorem identified (h : Writes owned s s') (hs : ∀ t ∈ s.tickets, t.Identified) :
    ∀ t ∈ s'.tickets, t.Identified := by
  induction h with
  | refl => exact hs
  | tail _ hlast ih => exact hlast.identified ih

theorem backed (h : Writes owned s s') (hs : ∀ t ∈ s.tickets, t.Backed s) :
    ∀ t ∈ s'.tickets, t.Backed s' := by
  induction h with
  | refl => exact hs
  | tail _ hlast ih => exact hlast.backed ih

end Writes

end WaitLocalAgent.Tenancy
