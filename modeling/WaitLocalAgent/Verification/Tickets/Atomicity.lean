import WaitLocalAgent.Foundation.Sorted
import WaitLocalAgent.Verification.Tickets.Naming
import WaitLocalAgent.Verification.Tickets.StatusHistory

/-! # Ingestion that raises

A provider call that raises leaves the tables as they were. A local call commits ticket after
ticket, so one that raises leaves them alone only if everything that it had written stood there
already. -/

namespace WaitLocalAgent.Tenancy

open Foundation

variable {rt : Runtime TicketInput} {s s' : Store} {clientId : ClientId}

/-- The tables that ingestion writes are the same. -/
structure SameTables (s s' : Store) : Prop where
  tickets : s'.tickets = s.tickets
  history : s'.history = s.history
  unmapped : s'.unmapped = s.unmapped

theorem SameTables.refl (s : Store) : SameTables s s := ⟨rfl, rfl, rfl⟩

/-! ## One local ticket -/

/-- The row under an id, if there is one, is a local one of this client. -/
def Store.takes (s : Store) (clientId : ClientId) (id : String) : Bool :=
  (s.tickets.find? id).all fun d => !d.hasProvenance && d.clientId == clientId

/-- The row that a ticket leaves in the place of `old`. -/
def TicketInput.over (t : TicketInput) (now : String) (clientId : ClientId) :
    Option Ticket → Ticket
  | none => t.localRow now clientId
  | some old => (t.localRow now clientId).overwriteById old

theorem TicketInput.over_clientId (t : TicketInput) (now : String) (old : Option Ticket) :
    (t.over now clientId old).clientId = clientId := by
  cases old <;> rfl

theorem TicketInput.over_hasProvenance (t : TicketInput) (now : String) (old : Option Ticket) :
    (t.over now clientId old).hasProvenance = false := by
  cases old <;> rfl

theorem TicketInput.over_requesterId (t : TicketInput) (now : String) (old : Option Ticket) :
    (t.over now clientId old).requesterId = t.requesterId := by
  cases old <;> rfl

theorem TicketInput.over_status (t : TicketInput) (now : String) (old : Option Ticket) :
    (t.over now clientId old).status = t.status := by
  cases old <;> rfl

/-- A ticket is written, and a row is added to the history unless its status stood there. -/
structure LocalWrite (rt : Runtime TicketInput) (clientId : ClientId) (s : Store)
    (t : TicketInput × String) (s' : Store) : Prop where
  taken : s.takes clientId t.1.id = true
  find : ∀ j, s'.tickets.find? j =
    if j = t.1.id then some (t.1.over t.2 clientId (s.tickets.find? t.1.id))
    else s.tickets.find? j
  keys : (s.tickets.find? t.1.id).isSome = true →
    s'.tickets.rows.map Ticket.id = s.tickets.rows.map Ticket.id
  history : ∃ rows, s'.history = s.history ++ rows ∧
    (rows = [] ↔ ∃ d, s.tickets.find? t.1.id = some d ∧ SameStatus rt d.status t.1.status)
  unmapped : s'.unmapped = s.unmapped

theorem takes_of_upsertLocalTicket {row : Ticket} (h : upsertLocalTicket s row = .ok s') :
    s.takes row.clientId row.id = true := by
  unfold upsertLocalTicket at h
  split at h
  · rename_i d hfind
    split at h
    · cases h
    · rename_i hprovenance
      split at h
      · cases h
      · rename_i hclient
        simp [Store.takes, hfind, hprovenance, not_not.mp hclient]
  · rename_i hnone
    simp [Store.takes, hnone]

theorem upsertLocalTicket_of_takes {t : TicketInput}
    (now : String) (h : s.takes clientId t.id = true) :
    ∃ tickets, upsertLocalTicket s (t.localRow now clientId) = .ok { s with tickets } ∧
      (∀ j, tickets.find? j =
        if j = t.id then some (t.over now clientId (s.tickets.find? t.id))
        else s.tickets.find? j) ∧
      ((s.tickets.find? t.id).isSome = true →
        tickets.rows.map Ticket.id = s.tickets.rows.map Ticket.id) := by
  have hid : (t.localRow now clientId).id = t.id := rfl
  have hclient : (t.localRow now clientId).clientId = clientId := rfl
  unfold upsertLocalTicket
  rw [hid, hclient]
  cases hfind : s.tickets.find? t.id with
  | some d =>
      simp only [Store.takes, hfind, Option.all_some, Bool.and_eq_true, Bool.not_eq_true',
        beq_iff_eq] at h
      refine ⟨s.tickets.update (fun q => q.id = t.id) (t.localRow now clientId).overwriteById
        (t.localRow now clientId).overwriteById_id, ?_, fun j => ?_, fun _ => Table.keys_update⟩
      · simp [h.1, h.2]
      · rw [Table.find?_update_key (k := t.id) (by simp), hfind]
        rfl
  | none =>
      cases hinsert : s.tickets.insert? (t.localRow now clientId) with
      | some tickets =>
          exact ⟨tickets, rfl, fun _ => Table.find?_of_insert? hinsert, by simp⟩
      | none =>
          obtain ⟨d, hd⟩ := Table.exists_of_insert?_eq_none hinsert
          cases hfind.symm.trans hd

theorem takes_of_writeIngestedTicket {t : TicketInput} {now : String}
    (h : writeIngestedTicket rt now clientId s t = .ok s') : s.takes clientId t.id = true := by
  simp only [writeIngestedTicket, bind_eq_ok] at h
  obtain ⟨written, hupsert, -⟩ := h
  exact takes_of_upsertLocalTicket hupsert

theorem writeIngestedTicket_of_takes (rt : Runtime TicketInput) (t : TicketInput × String)
    (h : s.takes clientId t.1.id = true) :
    ∃ s', writeIngestedTicket rt t.2 clientId s t.1 = .ok s' ∧ LocalWrite rt clientId s t s' := by
  obtain ⟨tickets, hupsert, hfind, hkeys⟩ := upsertLocalTicket_of_takes t.2 h
  have hid : (t.1.localRow t.2 clientId).id = t.1.id := rfl
  simp only [writeIngestedTicket, hupsert, hid, ok_bind]
  split
  · rename_i hchanged
    refine ⟨_, rfl, h, hfind, hkeys, ⟨_, rfl, ?_⟩, rfl⟩
    simp only [List.cons_ne_nil, false_iff]
    rintro ⟨d, hd, hsame⟩
    simp [hd, statusChanged_eq_false.mpr hsame] at hchanged
  · rename_i hsame
    refine ⟨_, rfl, h, hfind, hkeys, ⟨[], (List.append_nil _).symm, ?_⟩, rfl⟩
    cases hold : s.tickets.find? t.1.id with
    | none => simp [hold] at hsame
    | some d =>
        simp only [hold, Option.map_some, Option.isNone_some, Option.getD_some, Bool.false_or,
          Bool.not_eq_true, statusChanged_eq_false] at hsame
        simpa using hsame

/-! ## Written tickets -/

/-- `done` has been written to `s`, one ticket after the other. -/
inductive Wrote (rt : Runtime TicketInput) (clientId : ClientId) (s : Store) :
    List (TicketInput × String) → Store → Prop where
  | nil : Wrote rt clientId s [] s
  | concat {done : List (TicketInput × String)} {t : TicketInput × String} {s₁ s₂ : Store}
      (wrote : Wrote rt clientId s done s₁) (write : LocalWrite rt clientId s₁ t s₂) :
      Wrote rt clientId s (done ++ [t]) s₂

/-- The row under `id` once `done` is written. -/
def rowAfter (clientId : ClientId) (id : String) (done : List (TicketInput × String))
    (old : Option Ticket) : Option Ticket :=
  done.foldl (fun old t => if id = t.1.id then some (t.1.over t.2 clientId old) else old) old

theorem rowAfter_concat (clientId : ClientId) (id : String) (done : List (TicketInput × String))
    (t : TicketInput × String) (old : Option Ticket) :
    rowAfter clientId id (done ++ [t]) old =
      if id = t.1.id then some (t.1.over t.2 clientId (rowAfter clientId id done old))
      else rowAfter clientId id done old := by
  simp [rowAfter]

/-- The requester of the ticket under the empty id once `done` is written. -/
def requesterAfter (s : Store) (clientId : ClientId) (done : List (TicketInput × String)) :
    Option String :=
  done.foldl (fun requester t => if t.1.id = "" then t.1.requesterId else requester)
    (((s.tickets.find? "").filter fun d => d.clientId == clientId).bind Ticket.requesterId)

section Wrote

variable {done : List (TicketInput × String)} {s₁ : Store}

theorem Wrote.find?_eq (h : Wrote rt clientId s done s₁) (id : String) :
    s₁.tickets.find? id = rowAfter clientId id done (s.tickets.find? id) := by
  induction h with
  | nil => rfl
  | concat _ write ih =>
      rw [rowAfter_concat, write.find, ← ih]
      split
      · rename_i hid
        rw [hid]
      · rfl

theorem Wrote.takes_eq (h : Wrote rt clientId s done s₁) (id : String) :
    s₁.takes clientId id = s.takes clientId id := by
  induction h with
  | nil => rfl
  | @concat _ t _ _ _ write ih =>
      rw [← ih, Store.takes, write.find]
      split
      · rename_i hid
        have htaken := write.taken
        simp [hid, htaken, TicketInput.over_clientId, TicketInput.over_hasProvenance]
      · rfl

theorem Wrote.unmapped (h : Wrote rt clientId s done s₁) : s₁.unmapped = s.unmapped := by
  induction h with
  | nil => rfl
  | concat _ write ih => rw [write.unmapped, ih]

theorem Wrote.requester_eq (h : Wrote rt clientId s done s₁) :
    ((s₁.tickets.find? "").filter fun d => d.clientId == clientId).bind Ticket.requesterId =
      requesterAfter s clientId done := by
  induction h with
  | nil => rfl
  | @concat done t _ _ _ write ih =>
      have hconcat : requesterAfter s clientId (done ++ [t]) =
          if t.1.id = "" then t.1.requesterId else requesterAfter s clientId done := by
        simp [requesterAfter]
      rw [hconcat, write.find]
      by_cases hid : t.1.id = ""
      · simp [hid, TicketInput.over_clientId, TicketInput.over_requesterId, Option.filter]
      · rw [if_neg hid, if_neg (Ne.symm hid), ih]

end Wrote

/-! ## Seeding the graph -/

def named (requester : Option String) : Bool := requester.any fun r => Text.strip r != ""

theorem seedTicketRequester_of_id {ticketId : String} (h : Text.strip ticketId ≠ "") :
    seedTicketRequester s clientId ticketId = .ok () := by
  unfold seedTicketRequester
  split
  · rfl
  · rename_i t ht
    split
    · rfl
    · have hid : t.id = Text.strip ticketId :=
        Table.key_of_find?_eq_some (Option.filter_eq_some_iff.mp ht).1
      exact raiseIf_of_not (by rwa [hid, Text.strip_strip])

theorem seedTicketRequester_stored {ticketId : String} {t : Ticket}
    (hfind : s.tickets.find? (Text.strip ticketId) = some t) (hclient : t.clientId = clientId)
    (hordinary : clientId ≠ quarantineClientId) :
    seedTicketRequester s clientId ticketId =
      raiseIf (named t.requesterId = true ∧ Text.strip t.id = "")
        (.valueError "external_id must be non-empty") := by
  have hfilter : (s.tickets.find? (Text.strip ticketId)).filter (fun t =>
      t.clientId == clientId && t.clientId != quarantineClientId) = some t := by
    rw [hfind, Option.filter_eq_some_iff]
    exact ⟨rfl, by simp [hclient, bne_iff_ne.mpr hordinary]⟩
  rw [seedTicketRequester, hfilter]
  dsimp only
  cases hrequester : t.requesterId with
  | none => simp [named, raiseIf]
  | some requester => by_cases hblank : Text.strip requester = "" <;> simp [named, raiseIf, hblank]

/-- A blank id raises if a ticket under the empty id has a requester. -/
theorem seedTicketRequester_blank {ticketId : String} (h : Text.strip ticketId = "") :
    (seedTicketRequester s clientId ticketId).isOk =
      !(clientId != quarantineClientId &&
        named (((s.tickets.find? "").filter fun d => d.clientId == clientId).bind
          Ticket.requesterId)) := by
  have hempty : Text.strip "" = "" := by decide
  cases hfind : (s.tickets.find? "").filter fun d => d.clientId == clientId with
  | none =>
      have hnone : (s.tickets.find? (Text.strip ticketId)).filter (fun t =>
          t.clientId == clientId && t.clientId != quarantineClientId) = none := by
        rw [h, Option.filter_eq_none_iff]
        intro t ht hboth
        exact Option.filter_eq_none_iff.mp hfind t ht (Bool.and_eq_true_iff.mp hboth).1
      rw [seedTicketRequester, hnone]
      simp [named, Except.isOk, Except.toBool]
  | some t =>
      obtain ⟨hstored, hclient⟩ := Option.filter_eq_some_iff.mp hfind
      have hclient : t.clientId = clientId := beq_iff_eq.mp hclient
      have hid : t.id = "" := Table.key_of_find?_eq_some hstored
      by_cases hordinary : clientId = quarantineClientId
      · have hnone : (s.tickets.find? (Text.strip ticketId)).filter (fun t =>
            t.clientId == clientId && t.clientId != quarantineClientId) = none := by
          rw [h, hstored, Option.filter_eq_none_iff]
          intro u hu
          cases hu
          simp [hclient, hordinary]
        rw [seedTicketRequester, hnone]
        simp [hordinary, Except.isOk, Except.toBool]
      · rw [← h] at hstored
        rw [seedTicketRequester_stored hstored hclient hordinary, hid,
          bne_iff_ne.mpr hordinary, Option.bind_some]
        cases named t.requesterId <;> simp [raiseIf, hempty, Except.isOk, Except.toBool]

/-! ## Where a local call raises -/

/-- The ticket passes the checks of the call, made on the store before the call. -/
def Store.accepts (s : Store) (clientId : ClientId) (t : TicketInput) : Bool :=
  (checkLocalTicket clientId t).isOk && s.takes clientId t.id

/-- The graph has no reference for the ticket, whose id is blank. -/
def unreferenced (s : Store) (clientId : ClientId) (done : List (TicketInput × String))
    (t : TicketInput) : Bool :=
  Text.strip t.id == "" && clientId != quarantineClientId &&
    named (requesterAfter s clientId done)

/-- What a call writes before it raises, if it does: the tickets before the first one that is not
accepted, or those up to the first one without a reference. -/
def writtenAtRaise (s : Store) (clientId : ClientId) :
    List (TicketInput × String) → List (TicketInput × String) →
      Option (List (TicketInput × String))
  | _, [] => none
  | done, t :: rest =>
      if s.accepts clientId t.1 then
        if unreferenced s clientId (done ++ [t]) t.1 then some (done ++ [t])
        else writtenAtRaise s clientId (done ++ [t]) rest
      else some done

theorem Wrote.seedTicketRequester_isOk {done : List (TicketInput × String)} {s₁ : Store}
    (h : Wrote rt clientId s done s₁) (t : TicketInput) :
    (seedTicketRequester s₁ clientId t.id).isOk = !unreferenced s clientId done t := by
  by_cases hid : Text.strip t.id = ""
  · rw [seedTicketRequester_blank hid, h.requester_eq]
    simp [unreferenced, hid]
  · rw [seedTicketRequester_of_id hid]
    simp [unreferenced, hid, Except.isOk, Except.toBool]

/-- The step lemma of the loop: the ticket is refused, or written. -/
theorem ingestEach_cons {done : List (TicketInput × String)} {s₁ : Store}
    (rest : List (TicketInput × String)) (t : TicketInput × String)
    (h : Wrote rt clientId s done s₁) :
    (s.accepts clientId t.1 = false ∧ ∃ e, ingestEach rt clientId s₁ (t :: rest) = (s₁, some e)) ∨
    s.accepts clientId t.1 = true ∧ ∃ s₂, Wrote rt clientId s (done ++ [t]) s₂ ∧
      ingestEach rt clientId s₁ (t :: rest) =
        match seedTicketRequester s₂ clientId t.1.id with
        | .error e => (s₂, some e)
        | .ok () => ingestEach rt clientId s₂ rest := by
  obtain ⟨ticket, now⟩ := t
  cases hcheck : checkLocalTicket clientId ticket with
  | error e =>
      refine .inl ⟨by simp [Store.accepts, hcheck, Except.isOk, Except.toBool], e, ?_⟩
      simp [ingestEach, hcheck]
  | ok _ =>
      have haccepts : s.accepts clientId ticket = s₁.takes clientId ticket.id := by
        simp [Store.accepts, hcheck, Except.isOk, Except.toBool, h.takes_eq]
      simp only [haccepts]
      cases htakes : s₁.takes clientId ticket.id with
      | false =>
          refine .inl ⟨rfl, ?_⟩
          cases hwrite : writeIngestedTicket rt now clientId s₁ ticket with
          | error e => exact ⟨e, by simp [ingestEach, hcheck, hwrite]⟩
          | ok s₂ =>
              rw [takes_of_writeIngestedTicket hwrite] at htakes
              cases htakes
      | true =>
          obtain ⟨s₂, hwrite, hlocal⟩ := writeIngestedTicket_of_takes rt (ticket, now) htakes
          refine .inr ⟨rfl, s₂, h.concat hlocal, ?_⟩
          have hwrite : writeIngestedTicket rt now clientId s₁ ticket = .ok s₂ := hwrite
          cases hseed : seedTicketRequester s₂ clientId ticket.id <;>
            simp only [ingestEach, hcheck, hwrite, hseed]

/-- The run lemma: the call raises where the store before the call says, and has written what it
says. -/
theorem ingestEach_writtenAtRaise (tickets : List (TicketInput × String))
    {done : List (TicketInput × String)} {s₁ : Store} (h : Wrote rt clientId s done s₁) :
    (writtenAtRaise s clientId done tickets = none →
      (ingestEach rt clientId s₁ tickets).2 = none) ∧
    ∀ written, writtenAtRaise s clientId done tickets = some written →
      (∃ e, (ingestEach rt clientId s₁ tickets).2 = some e) ∧
        Wrote rt clientId s written (ingestEach rt clientId s₁ tickets).1 := by
  induction tickets generalizing done s₁ with
  | nil => exact ⟨fun _ => rfl, nofun⟩
  | cons t rest ih =>
      rcases ingestEach_cons rest t h with
        ⟨hrefused, e, heq⟩ | ⟨haccepts, s₂, hwrote, heq⟩
      · rw [heq]
        simp only [writtenAtRaise, hrefused, Bool.false_eq_true, if_false, reduceCtorEq,
          false_implies, Option.some.injEq, true_and]
        rintro _ rfl
        exact ⟨⟨e, rfl⟩, h⟩
      · have hseed := hwrote.seedTicketRequester_isOk t.1
        rw [heq]
        simp only [writtenAtRaise, haccepts, if_true]
        cases hgraph : seedTicketRequester s₂ clientId t.1.id with
        | error e =>
            rw [hgraph] at hseed
            simp only [Except.isOk, Except.toBool, Bool.false_eq, Bool.not_eq_false'] at hseed
            simp only [hseed, if_true, reduceCtorEq, false_implies, Option.some.injEq, true_and]
            rintro _ rfl
            exact ⟨⟨e, rfl⟩, hwrote⟩
        | ok _ =>
            rw [hgraph] at hseed
            simp only [Except.isOk, Except.toBool, Bool.true_eq, Bool.not_eq_true'] at hseed
            simp only [hseed, Bool.false_eq_true, if_false]
            exact ih hwrote

/-! ## Rows written over -/

section RowAfter

variable {id : String} {done : List (TicketInput × String)} {d : Ticket}

theorem Ticket.overwriteById_congr {new d₁ : Ticket} (hid : d₁.id = d.id)
    (hcreated : d₁.createdAt = d.createdAt) : new.overwriteById d₁ = new.overwriteById d := by
  rw [Ticket.overwriteById, hid, hcreated, Ticket.overwriteById]

theorem rowAfter_append (done more : List (TicketInput × String)) (old : Option Ticket) :
    rowAfter clientId id (done ++ more) old =
      rowAfter clientId id more (rowAfter clientId id done old) := by
  simp [rowAfter]

theorem rowAfter_of_ne (hne : ∀ t ∈ done, id ≠ t.1.id) (old : Option Ticket) :
    rowAfter clientId id done old = old := by
  induction done with
  | nil => rfl
  | cons t done ih =>
      simp only [List.mem_cons, forall_eq_or_imp] at hne
      rw [rowAfter, List.foldl_cons, if_neg hne.1]
      exact ih hne.2

theorem exists_mem_of_rowAfter_none (done : List (TicketInput × String))
    (h : rowAfter clientId id done none ≠ none) : ∃ t ∈ done, t.1.id = id := by
  by_contra hnone
  push Not at hnone
  exact h (rowAfter_of_ne (fun t ht => (hnone t ht).symm) none)

/-- A row keeps its id, and its creation date unless that was empty and a ticket brings one. -/
theorem rowAfter_some (clientId : ClientId) (id : String) (done : List (TicketInput × String))
    (d : Ticket) :
    ∃ d₁, rowAfter clientId id done (some d) = some d₁ ∧ d₁.id = d.id ∧
      (d.createdAt ≠ "" → d₁.createdAt = d.createdAt) ∧
      (d.createdAt = "" → (d₁.createdAt = "" ↔
        ∀ t ∈ done, id = t.1.id → (t.1.localRow t.2 clientId).createdAt = "")) := by
  induction done using List.reverseRecOn with
  | nil => exact ⟨d, rfl, rfl, fun _ => rfl, fun h => by simp [h]⟩
  | append_singleton done t ih =>
      obtain ⟨d₁, hafter, hid, hkept, hempty⟩ := ih
      rw [rowAfter_concat, hafter]
      by_cases ht : id = t.1.id
      · rw [if_pos ht]
        refine ⟨_, rfl, hid, fun h => ?_, fun h => ?_⟩
        · simp [TicketInput.over, Ticket.overwriteById, hkept h, h]
        · rw [List.forall_mem_append, List.forall_mem_singleton, ← hempty h]
          show (if d₁.createdAt = "" then (t.1.localRow t.2 clientId).createdAt else d₁.createdAt)
            = "" ↔ _
          split
          · rename_i hd₁
            simp [hd₁, ht]
          · rename_i hd₁
            simp [hd₁]
      · rw [if_neg ht]
        refine ⟨d₁, rfl, hid, hkept, fun h => ?_⟩
        rw [List.forall_mem_append, List.forall_mem_singleton, ← hempty h]
        simp [ht]

/-- The last ticket of an id decides what its row becomes. -/
theorem rowAfter_last {front back : List (TicketInput × String)} {t : TicketInput × String}
    (hfront : d.createdAt = "" →
      ∀ u ∈ front, id = u.1.id → (u.1.localRow u.2 clientId).createdAt = "")
    (ht : t.1.id = id) (hlast : ∀ u ∈ back, u.1.id ≠ id) :
    rowAfter clientId id (front ++ t :: back) (some d) =
      some ((t.1.localRow t.2 clientId).overwriteById d) := by
  obtain ⟨d₁, hafter, hid, hkept, hempty⟩ := rowAfter_some clientId id front d
  have hcreated : d₁.createdAt = d.createdAt := by
    by_cases hd : d.createdAt = ""
    · rw [hd, hempty hd]
      exact hfront hd
    · exact hkept hd
  rw [List.append_cons, rowAfter_append, rowAfter_concat, hafter, if_pos ht.symm,
    rowAfter_of_ne (fun u hu => (hlast u hu).symm)]
  exact congrArg some (Ticket.overwriteById_congr hid hcreated)

/-- The tickets give a row back exactly if none brings a creation date that it lacks and the last
one with its id brings the row. -/
theorem rowAfter_eq_self_iff :
    rowAfter clientId id done (some d) = some d ↔
      ∀ front t back, done = front ++ t :: back → t.1.id = id →
        (d.createdAt = "" → (t.1.localRow t.2 clientId).createdAt = "") ∧
        ((∀ u ∈ back, u.1.id ≠ id) → (t.1.localRow t.2 clientId).overwriteById d = d) := by
  constructor
  · rintro hself front t back rfl ht
    obtain ⟨d₁, hafter, -, -, hempty⟩ := rowAfter_some clientId id (front ++ t :: back) d
    rw [hself, Option.some.injEq] at hafter
    subst hafter
    refine ⟨fun hd => (hempty hd).mp hd t (by simp) ht.symm, fun hlast => ?_⟩
    have hfront : d.createdAt = "" →
        ∀ u ∈ front, id = u.1.id → (u.1.localRow u.2 clientId).createdAt = "" :=
      fun hd u hu => (hempty hd).mp hd u (by simp [hu])
    rw [rowAfter_last hfront ht hlast] at hself
    exact Option.some.inj hself
  · intro h
    by_cases hnone : ∀ t ∈ done, id ≠ t.1.id
    · exact rowAfter_of_ne hnone _
    · push Not at hnone
      obtain ⟨front, t, back, rfl, ht, hlast⟩ := exists_last hnone
      have hlast : ∀ u ∈ back, u.1.id ≠ id := fun u hu he => hlast u hu he.symm
      have hfront : d.createdAt = "" →
          ∀ u ∈ front, id = u.1.id → (u.1.localRow u.2 clientId).createdAt = "" := by
        intro hd u hu hid
        obtain ⟨before, after, rfl⟩ := List.append_of_mem hu
        exact (h before u (after ++ t :: back) (by simp) hid.symm).1 hd
      rw [rowAfter_last hfront ht.symm hlast, (h front t back rfl ht.symm).2 hlast]

end RowAfter

/-! ## Tables given back -/

/-- Every ticket is stored with the status that it brings, none brings a creation date that its row
lacks, and the last one of each id brings the row that is stored. -/
def Restored (rt : Runtime TicketInput) (s : Store) (clientId : ClientId)
    (done : List (TicketInput × String)) : Prop :=
  ∀ front t back, done = front ++ t :: back → ∃ d, s.tickets.find? t.1.id = some d ∧
    SameStatus rt d.status t.1.status ∧
    (d.createdAt = "" → (t.1.localRow t.2 clientId).createdAt = "") ∧
    ((∀ u ∈ back, u.1.id ≠ t.1.id) → (t.1.localRow t.2 clientId).overwriteById d = d)

section Restored

variable {done : List (TicketInput × String)} {s₁ : Store}

theorem rowAfter_status (clientId : ClientId) {id : String} {d : Ticket}
    (hsame : ∀ t ∈ done, t.1.id = id → SameStatus rt d.status t.1.status) :
    ∃ d₁, rowAfter clientId id done (some d) = some d₁ ∧ SameStatus rt d.status d₁.status := by
  induction done using List.reverseRecOn with
  | nil => exact ⟨d, rfl, rfl⟩
  | append_singleton done t ih =>
      rw [List.forall_mem_append, List.forall_mem_singleton] at hsame
      obtain ⟨d₁, hafter, hstatus⟩ := ih hsame.1
      rw [rowAfter_concat]
      by_cases ht : id = t.1.id
      · rw [if_pos ht]
        refine ⟨_, rfl, ?_⟩
        rw [TicketInput.over_status]
        exact hsame.2 ht.symm
      · rw [if_neg ht]
        exact ⟨d₁, hafter, hstatus⟩

theorem Wrote.history_grows (h : Wrote rt clientId s done s₁) :
    ∃ rows, s₁.history = s.history ++ rows := by
  induction h with
  | nil => exact ⟨[], by simp⟩
  | concat _ write ih =>
      obtain ⟨rows, hrows⟩ := ih
      obtain ⟨more, hmore, -⟩ := write.history
      exact ⟨rows ++ more, by rw [hmore, hrows, List.append_assoc]⟩

/-- The history stays as it was exactly if every ticket is stored with the status it brings. -/
theorem Wrote.history_eq_iff (h : Wrote rt clientId s done s₁) :
    s₁.history = s.history ↔ ∀ t ∈ done, ∃ d, s.tickets.find? t.1.id = some d ∧
      SameStatus rt d.status t.1.status := by
  induction h with
  | nil => simp
  | @concat done t s₁ s₂ wrote write ih =>
      obtain ⟨rows, hrows⟩ := wrote.history_grows
      obtain ⟨more, hmore, hempty⟩ := write.history
      have hsplit : s₂.history = s.history ↔ s₁.history = s.history ∧ more = [] := by
        simp [hmore, hrows]
      rw [hsplit, ih, hempty, wrote.find?_eq, List.forall_mem_append, List.forall_mem_singleton]
      refine and_congr_right fun hdone => ?_
      cases hstored : s.tickets.find? t.1.id with
      | none =>
          refine iff_of_false ?_ (by simp)
          rintro ⟨d₁, hafter, -⟩
          obtain ⟨u, hu, hid⟩ := exists_mem_of_rowAfter_none done (by rw [hafter]; simp)
          obtain ⟨d, hd, -⟩ := hdone u hu
          rw [hid, hstored] at hd
          cases hd
      | some d =>
          have hsame : ∀ u ∈ done, u.1.id = t.1.id → SameStatus rt d.status u.1.status := by
            intro u hu hid
            obtain ⟨e, he, hstatus⟩ := hdone u hu
            rw [hid, hstored, Option.some.injEq] at he
            rwa [he]
          obtain ⟨d₁, hafter, hstatus⟩ := rowAfter_status clientId hsame
          simp only [hafter, Option.some.injEq, exists_eq_left']
          exact ⟨fun h => hstatus.trans h, fun h => hstatus.symm.trans h⟩

theorem Wrote.keys_eq (h : Wrote rt clientId s done s₁)
    (hstored : ∀ t ∈ done, (s.tickets.find? t.1.id).isSome = true) :
    s₁.tickets.rows.map Ticket.id = s.tickets.rows.map Ticket.id := by
  induction h with
  | nil => rfl
  | @concat done t _ _ wrote write ih =>
      rw [List.forall_mem_append, List.forall_mem_singleton] at hstored
      rw [write.keys ?_, ih hstored.1]
      obtain ⟨d, hd⟩ := Option.isSome_iff_exists.mp hstored.2
      obtain ⟨d₁, hafter, -⟩ := rowAfter_some clientId t.1.id done d
      rw [wrote.find?_eq, hd, hafter]
      rfl

/-- What was written stood there already exactly if the tables are the same. -/
theorem Wrote.sameTables_iff (h : Wrote rt clientId s done s₁) :
    SameTables s s₁ ↔ Restored rt s clientId done := by
  constructor
  · rintro htables front t back hdone
    obtain ⟨d, hd, hstatus⟩ := h.history_eq_iff.mp htables.history t (by simp [hdone])
    have hself : rowAfter clientId t.1.id done (some d) = some d := by
      rw [← hd, ← h.find?_eq, htables.tickets]
    obtain ⟨hcreated, hlast⟩ := rowAfter_eq_self_iff.mp hself front t back hdone rfl
    exact ⟨d, hd, hstatus, hcreated, hlast⟩
  · intro hrestored
    have hstored : ∀ t ∈ done, ∃ d, s.tickets.find? t.1.id = some d ∧
        SameStatus rt d.status t.1.status := by
      intro t ht
      obtain ⟨front, back, hdone⟩ := List.append_of_mem ht
      obtain ⟨d, hd, hstatus, -⟩ := hrestored front t back hdone
      exact ⟨d, hd, hstatus⟩
    refine ⟨Table.eq_of_find?_eq (h.keys_eq ?_) ?_, h.history_eq_iff.mpr hstored, h.unmapped⟩
    · intro t ht
      obtain ⟨d, hd, -⟩ := hstored t ht
      simp [hd]
    · intro id
      rw [h.find?_eq]
      cases hfind : s.tickets.find? id with
      | none =>
          refine rowAfter_of_ne ?_ none
          rintro t ht rfl
          obtain ⟨d, hd, -⟩ := hstored t ht
          cases hfind.symm.trans hd
      | some d =>
          rw [rowAfter_eq_self_iff]
          rintro front t back hdone rfl
          obtain ⟨e, he, -, hcreated, hlast⟩ := hrestored front t back hdone
          cases hfind.symm.trans he
          exact ⟨hcreated, hlast⟩

end Restored

/-! ## Calls -/

/-- A call of `ingest_tickets` or of `ingest_provider_tickets`. -/
inductive IngestCall where
  | ingestTickets (clientId : String) (tickets : List (TicketInput × String))
  | ingestProviderTickets (connectorInstanceId : String) (records : List (TicketInput × Stamp))

def IngestCall.run (rt : Runtime TicketInput) (s : Store) :
    IngestCall → Store × Except TenancyError IngestSummary
  | .ingestTickets clientId tickets => Tenancy.ingestTickets rt s clientId tickets
  | .ingestProviderTickets connectorInstanceId records =>
      Tenancy.ingestProviderTickets rt s connectorInstanceId records

/-- If the call raises, the tables are as they were. -/
def AllOrNothing (rt : Runtime TicketInput) (s : Store) (call : IngestCall) : Prop :=
  ∀ e, (call.run rt s).2 = .error e → SameTables s (call.run rt s).1

/-- A local call for an active client that raises has written nothing that is not stored. -/
def RaisesRestored (rt : Runtime TicketInput) (s : Store) : IngestCall → Prop
  | .ingestTickets clientId tickets =>
      ∀ normalizedId, normalizeClientId (some clientId) = some normalizedId →
        s.isActive normalizedId = true → ∀ done,
          writtenAtRaise s normalizedId [] tickets = some done → Restored rt s normalizedId done
  | .ingestProviderTickets _ _ => True

theorem allOrNothing_of_eq {call : IngestCall} {e : TenancyError}
    (h : call.run rt s = (s, .error e)) : AllOrNothing rt s call := by
  intro _ _
  rw [h]
  exact .refl s

theorem ingestTickets_of_active {client : String} {normalizedId : ClientId}
    (hclient : normalizeClientId (some client) = some normalizedId)
    (hactive : s.isActive normalizedId = true) (tickets : List (TicketInput × String)) :
    ingestTickets rt s client tickets =
      match ingestEach rt normalizedId s tickets with
      | (s', none) => (s', .ok ⟨tickets.length, 0⟩)
      | (s', some e) => (s', .error e) := by
  rcases heach : ingestEach rt normalizedId s tickets with ⟨s', _ | e⟩ <;>
    simp only [ingestTickets, hclient, requireActiveClient, hactive, if_true, heach]

theorem allOrNothing_ingestTickets_iff {client : String} {tickets : List (TicketInput × String)} :
    AllOrNothing rt s (.ingestTickets client tickets) ↔
      RaisesRestored rt s (.ingestTickets client tickets) := by
  cases hclient : normalizeClientId (some client) with
  | none =>
      refine iff_of_true (allOrNothing_of_eq (e := .valueError "client_id must be non-empty") ?_) ?_
      · rw [IngestCall.run, ingestTickets, hclient]
      · intro normalizedId hid
        cases hclient.symm.trans hid
  | some normalizedId =>
      cases hactive : s.isActive normalizedId with
      | false =>
          refine iff_of_true (allOrNothing_of_eq
            (e := .valueError "client_id must refer to an active client") ?_) ?_
          · rw [IngestCall.run, ingestTickets, hclient]
            simp [requireActiveClient, hactive]
          · intro other hid hother
            cases hclient.symm.trans hid
            cases hactive.symm.trans hother
      | true =>
          have hstart : Wrote rt normalizedId s [] s := .nil
          obtain ⟨hfinishes, hraises⟩ := ingestEach_writtenAtRaise tickets hstart
          have hcondition : RaisesRestored rt s (.ingestTickets client tickets) ↔
              ∀ done, writtenAtRaise s normalizedId [] tickets = some done →
                Restored rt s normalizedId done := by
            simp [RaisesRestored, hclient, hactive]
          rw [hcondition, AllOrNothing, IngestCall.run, ingestTickets_of_active hclient hactive]
          cases hwritten : writtenAtRaise s normalizedId [] tickets with
          | none =>
              have hnone := hfinishes hwritten
              generalize ingestEach rt normalizedId s tickets = result at hnone ⊢
              obtain ⟨s₁, _⟩ := result
              subst hnone
              simp
          | some done =>
              obtain ⟨⟨e, he⟩, hwrote⟩ := hraises done hwritten
              generalize ingestEach rt normalizedId s tickets = result at he hwrote ⊢
              obtain ⟨s₁, _⟩ := result
              subst he
              simp only [Except.error.injEq, forall_eq', Option.some.injEq]
              exact hwrote.sameTables_iff

/-- A provider call rolls back, and does not raise once it has committed. -/
theorem allOrNothing_ingestProviderTickets
    (huuid : ∀ instanceId externalId, Text.strip (rt.ticketUuid instanceId externalId) ≠ "")
    (hs : s.Named) (connectorInstanceId : String) (records : List (TicketInput × Stamp)) :
    AllOrNothing rt s (.ingestProviderTickets connectorInstanceId records) := by
  intro e
  show (ingestProviderTickets rt s connectorInstanceId records).2 = .error e →
    SameTables s (ingestProviderTickets rt s connectorInstanceId records).1
  unfold ingestProviderTickets
  split
  · exact fun _ => .refl s
  · rename_i s' progress hrecords
    have hseeds := (ingestProviderRecords_named huuid hrecords hs).seeds
    have hseeded : (progress.graphSeeds.forM fun seed => seedTicketRequester s' seed.1 seed.2)
        = .ok () :=
      forM_eq_ok.mpr fun seed hseed => seedTicketRequester_of_id (hseeds seed hseed)
    rw [hseeded]
    exact nofun

/-- A call that raises leaves the tables as they were exactly if it is a provider call, or a local
one whose tickets up to there were stored as they came. -/
theorem allOrNothing_iff
    (huuid : ∀ instanceId externalId, Text.strip (rt.ticketUuid instanceId externalId) ≠ "")
    (ls : List StoreCall) (call : IngestCall) :
    AllOrNothing rt ((tenancy rt).run ls) call ↔
      RaisesRestored rt ((tenancy rt).run ls) call := by
  cases call with
  | ingestTickets client tickets => exact allOrNothing_ingestTickets_iff
  | ingestProviderTickets connectorInstanceId records =>
      exact iff_of_true (allOrNothing_ingestProviderTickets huuid (named_run huuid ls) _ _) trivial

/-! ## A list with a stray ticket -/

/-- The second ticket names another client. -/
def mixedTickets : IngestCall :=
  .ingestTickets "acme"
    [(doorTicket "new", "2026-01-05T09:00:00+00:00"),
      ({ doorTicket "new" with id := "T-2", clientId := some "globex" },
        "2026-01-05T09:00:01+00:00")]

theorem allOrNothing_iff_mixedTickets :
    AllOrNothing deskRuntime ((tenancy deskRuntime).run [.createClient "acme" "Acme"])
        mixedTickets ↔
      RaisesRestored deskRuntime ((tenancy deskRuntime).run [.createClient "acme" "Acme"])
        mixedTickets := by
  have huuid : Text.strip "fec30132-330a-5a54-996c-66bfc3d68047" ≠ "" := by decide
  have hdesk : ∀ instanceId externalId,
      Text.strip (deskRuntime.ticketUuid instanceId externalId) ≠ "" := fun _ _ => huuid
  exact allOrNothing_iff hdesk [.createClient "acme" "Acme"] mixedTickets

/-- The first ticket stays, although the call raises. -/
theorem not_allOrNothing :
    ¬ ∀ ls call, AllOrNothing deskRuntime ((tenancy deskRuntime).run ls) call := by
  intro h
  have hraises : (mixedTickets.run deskRuntime
      ((tenancy deskRuntime).run [.createClient "acme" "Acme"])).2 =
        .error (.valueError "ticket client_id conflicts with the local ingestion tenant") := by
    decide
  have htickets := congrArg Table.rows (h _ mixedTickets _ hraises).tickets
  have hwritten : (mixedTickets.run deskRuntime
      ((tenancy deskRuntime).run [.createClient "acme" "Acme"])).1.tickets.rows ≠
        ((tenancy deskRuntime).run [.createClient "acme" "Acme"]).tickets.rows := by
    decide
  exact hwritten htickets

end WaitLocalAgent.Tenancy
