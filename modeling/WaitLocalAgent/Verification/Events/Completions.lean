import WaitLocalAgent.Model.CompletionEvents
import WaitLocalAgent.Verification.Events.Turn

/-! # Deliveries of completion events

Workflow runs and agent runs count their ids apart and share the keys of completion events. A
history gives every completed run a delivery of its own exactly if no run meets the key of another
and each event finds its ticket. -/

namespace WaitLocalAgent.Events

open Foundation

/-! ## Deliveries that stay -/

/-- Every delivery of the first world is in the second, under the same key. -/
def Keeps (w w' : World) : Prop :=
  ∀ r ∈ w.deliveries, ∃ r' ∈ w'.deliveries,
    r'.id = r.id ∧ r'.idempotencyKey = r.idempotencyKey

theorem Keeps.refl (w : World) : Keeps w w := fun r hr => ⟨r, hr, rfl, rfl⟩

theorem Keeps.trans {w w' w'' : World} (h : Keeps w w') (h' : Keeps w' w'') : Keeps w w'' := by
  intro r hr
  obtain ⟨r', hr', hid, hkey⟩ := h r hr
  obtain ⟨r'', hr'', hid', hkey'⟩ := h' r' hr'
  exact ⟨r'', hr'', hid'.trans hid, hkey'.trans hkey⟩

theorem Processing.closed_idempotencyKey (p : Processing) :
    p.closed.idempotencyKey = p.delivery.idempotencyKey :=
  DeliveryUpdate.assign_idempotencyKey _ _ _ _

theorem Turn.keeps {w w' : World} {p : Processing} (t : Turn w w' p) : Keeps w w' := by
  intro r hr
  by_cases hid : r.id = p.delivery.id
  · refine ⟨p.closed, (t.rows p.closed).mpr (.inr rfl), ?_, ?_⟩
    · rw [p.closed_id, hid]
    · rw [p.closed_idempotencyKey]
      cases t.origin with
      | created hretry new hrow hfresh => exact absurd hid (hfresh r hr)
      | claimed hretry r' hr' hstatus hcount hrow =>
          have hrr : r = r' := by
            apply DeliveryTable.eq_of_id_eq hr hr'
            rw [hid, hrow, EventDelivery.claimed_id]
          rw [hrow, hrr, EventDelivery.claimed_idempotencyKey]
  · exact ⟨r, (t.rows r).mpr (.inl ⟨hr, hid⟩), rfl, rfl⟩

/-- The event passes the checks and finds its ticket, of its client and outside quarantine. -/
structure Addressed (env : DispatchEnv) (request : DispatchRequest) : Prop where
  valid : validateRequest request = .ok ()
  ticket : ∃ ticketClient, (env.tickets request.entityId).filter
    (withinScope (normalizeClientId request.clientId)) = some ticketClient ∧
      ticketClient ≠ some quarantineClientId

def Unused (w : World) (key : String) : Prop := ∀ r ∈ w.deliveries, r.idempotencyKey ≠ key

theorem DeliveryTable.insertOrIgnore_of_unused (t : DeliveryTable) (new : NewDelivery)
    (h : ∀ r ∈ t, r.idempotencyKey ≠ new.idempotencyKey) :
    (t.insertOrIgnore new).2.2 = true := by
  unfold insertOrIgnore
  split
  · rename_i existing hfound
    obtain ⟨hmem, hkey⟩ := findByKey?_eq_some hfound
    exact absurd hkey (h existing hmem)
  · rfl

theorem createEventDelivery_of_unused {redact : Redactor} {now : String}
    {ticketClient : Option (Option ClientId)} {t : DeliveryTable}
    {key eventType entityType entityId : String} {payload : Payload}
    {clientId : Option ClientId} {maxRetries delay : ℤ} {policy : RetryPolicy}
    (hpolicy : validateEventRetryPolicy maxRetries delay = .ok policy)
    (hopen : ticketClient ≠ some (some quarantineClientId))
    (hunused : ∀ r ∈ t, r.idempotencyKey ≠ key) :
    ∃ t' delivery, createEventDelivery redact now ticketClient t key eventType entityType entityId
      payload clientId maxRetries delay = .ok (t', delivery, true) := by
  have hcreated := t.insertOrIgnore_of_unused ⟨key, eventType, entityType, entityId,
    redact.payload payload, now, clientId, policy⟩ hunused
  rcases hins : t.insertOrIgnore ⟨key, eventType, entityType, entityId, redact.payload payload,
    now, clientId, policy⟩ with ⟨t', delivery, created⟩
  rw [hins] at hcreated
  simp only at hcreated
  subst hcreated
  refine ⟨t', delivery, ?_⟩
  simp [createEventDelivery, hpolicy, requireTicketNotQuarantined, hopen, hins, bind, Except.bind,
    pure, Except.pure]

section Dispatch

variable {env : DispatchEnv} {request : DispatchRequest} {w : World}

/-- A dispatch that begins has stored a new delivery under a new key. -/
theorem Begins.stored {p : Processing} (h : Begins w (.dispatch env request) p) :
    p.delivery.idempotencyKey = request.idempotencyKey ∧
      (∀ r ∈ w.deliveries, r.id ≠ p.delivery.id) ∧ Unused w request.idempotencyKey := by
  cases h with
  | dispatch _ _ ticketClient deliveries delivery hvalid hticket hopen hcreate =>
      obtain ⟨new, hkey, -, -, -, hins⟩ := createEventDelivery_created hcreate
      have hcreated := @DeliveryTable.insertOrIgnore_created w.deliveries new (by rw [hins])
      rw [hins] at hcreated
      obtain ⟨hrow, hid, hfresh⟩ := hcreated
      simp only at hrow
      subst hrow
      exact ⟨hkey, hid, hkey ▸ hfresh⟩

theorem Processing.processDelivery_answer {p : Processing} (h : p.delivery ∈ p.deliveries)
    (calls : List AgentCall) :
    ∃ result, (p.processDelivery calls).2 = .ok result ∧
      result.createdId? = some p.delivery.id := by
  refine ⟨_, by rw [processDelivery, updateEventDelivery_of_mem h], ?_⟩
  simp [EventDispatchResult.createdId?, DeliveryUpdate.assign_id]

/-- An addressed event under an unused key is given a delivery. -/
theorem dispatch_of_addressed (policy : RetryPolicy)
    (hpolicy : validateEventRetryPolicy request.maxRetries request.retryDelaySeconds = .ok policy)
    (ha : Addressed env request) (hunused : Unused w request.idempotencyKey) :
    ∃ p, Begins w (.dispatch env request) p ∧
      dispatch env request w = p.processDelivery w.calls := by
  obtain ⟨hvalid, ticketClient, hticket, hopen⟩ := ha
  have hstored : env.tickets request.entityId = some ticketClient :=
    (Option.filter_eq_some_iff.mp hticket).1
  obtain ⟨deliveries, delivery, hcreate⟩ :
      ∃ deliveries delivery, createEventDelivery env.redact env.clock.now
        (env.tickets request.entityId) w.deliveries request.idempotencyKey request.eventType
        request.entityType request.entityId request.payload
        (normalizeClientId request.clientId <|> ticketClient) request.maxRetries
        request.retryDelaySeconds = .ok (deliveries, delivery, true) :=
    createEventDelivery_of_unused hpolicy (by simpa [hstored] using hopen) hunused
  refine ⟨_, .dispatch env request ticketClient deliveries delivery hvalid hticket hopen
    hcreate, ?_⟩
  simp only [dispatch, hvalid, hticket, if_neg hopen, hcreate]

end Dispatch

/-! ## Keys and events of runs -/

def Producer.actor : Producer → String
  | api actor => actor
  | scheduledWorkflow | scheduledAgent => "scheduler"

theorem Addressed.ticketId_ne {env : DispatchEnv} {request : DispatchRequest}
    (h : Addressed env request) : Text.strip request.entityId ≠ "" := by
  intro hblank
  have hvalid := h.valid
  simp only [validateRequest, hblank] at hvalid
  split at hvalid
  · cases hvalid
  · split at hvalid <;> simp at hvalid

/-- The completion of a run with a ticket is always announced. -/
theorem Producer.event?_of_completed (producer : Producer) {run : FinishedRun}
    (hstatus : run.status = .completed) (hticket : Text.strip run.ticketId ≠ "") :
    producer.event? run = some (run.event producer.actor) := by
  cases producer <;>
    simp [event?, dispatchWorkflowCompletionEvent, dispatchCompletion, hstatus, hticket, actor]

/-! ## Histories of runs -/

/-- Every run that ended completed was given a delivery under its key, each its own. -/
structure NoneLost (s : Runs) : Prop where
  created : ∀ c ∈ s.completions, ∃ r ∈ s.world.deliveries,
    c.deliveryId? = some r.id ∧ r.idempotencyKey = completionKey c.runId
  own : (s.completions.map Completion.deliveryId?).Nodup

/-- Each table counts up, and a run ends once. -/
structure Counted (s : Runs) : Prop where
  running_le : ∀ r ∈ s.running, r.2 ≤ s.lastId r.1
  completions_le : ∀ c ∈ s.completions, c.runId ≤ s.lastId c.table
  running_nodup : s.running.Nodup
  ended : ∀ c ∈ s.completions, (c.table, c.runId) ∉ s.running

namespace Counted

variable {s : Runs}

theorem start (h : Counted s) (table : RunTable) : Counted (s.start table) := by
  have hle : ∀ t, s.lastId t ≤ (s.start table).lastId t := by
    intro t
    by_cases ht : t = table
    · subst ht
      simp [Runs.start]
    · simp [Runs.start, Function.update_of_ne ht]
  have hnew : ∀ r : RunTable × ℕ, r.2 ≤ s.lastId r.1 → r ≠ (table, s.lastId table + 1) := by
    rintro ⟨t, id⟩ hr heq
    obtain ⟨rfl, rfl⟩ := Prod.mk.inj heq
    exact Nat.not_succ_le_self _ hr
  refine ⟨?_, fun c hc => (h.completions_le c hc).trans (hle c.table), ?_, ?_⟩
  · intro r hr
    rcases List.mem_cons.mp hr with rfl | hr
    · simp [Runs.start]
    · exact (h.running_le r hr).trans (hle r.1)
  · exact List.nodup_cons.mpr ⟨fun hr => hnew _ (h.running_le _ hr) rfl, h.running_nodup⟩
  · intro c hc hr
    rcases List.mem_cons.mp hr with hr | hr
    · exact hnew _ (h.completions_le c hc) hr
    · exact h.ended c hc hr

theorem returned (h : Counted s) (r : RunTable × ℕ) :
    Counted { s with running := s.running.erase r } where
  running_le q hq := h.running_le q (List.mem_of_mem_erase hq)
  completions_le := h.completions_le
  running_nodup := h.running_nodup.erase r
  ended c hc hq := h.ended c hc (List.mem_of_mem_erase hq)

end Counted

theorem Runs.complete_spec (s : Runs) (env : DispatchEnv) (producer : Producer)
    (run : FinishedRun) :
    ∃ world answer, s.complete env producer run =
      { s with world, completions := s.completions ++ [⟨producer.table, run.id, answer⟩] } := by
  unfold complete
  split
  · exact ⟨s.world, none, rfl⟩
  · exact ⟨_, _, rfl⟩

/-- The state in which the completion of a run is announced. -/
def Runs.returned (s : Runs) (r : RunTable × ℕ) : Runs :=
  { s with running := s.running.erase r }

theorem Runs.finish_eq (s : Runs) (env : DispatchEnv) (producer : Producer) (run : FinishedRun) :
    s.finish env producer run =
      if (producer.table, run.id) ∈ s.running then
        if run.status = .completed then
          (s.returned (producer.table, run.id)).complete env producer run
        else s.returned (producer.table, run.id)
      else s := rfl

theorem Counted.finish {s : Runs} (h : Counted s) (env : DispatchEnv) (producer : Producer)
    (run : FinishedRun) : Counted (s.finish env producer run) := by
  rw [Runs.finish_eq]
  split
  · rename_i hrunning
    have hreturned : Counted (s.returned (producer.table, run.id)) := h.returned _
    split
    · obtain ⟨world, answer, heq⟩ :=
        (s.returned (producer.table, run.id)).complete_spec env producer run
      rw [heq]
      refine ⟨hreturned.running_le, ?_, hreturned.running_nodup, ?_⟩
      · intro c hc
        rcases List.mem_append.mp hc with hc | hc
        · exact hreturned.completions_le c hc
        · obtain rfl := List.mem_singleton.mp hc
          exact h.running_le _ hrunning
      · intro c hc
        rcases List.mem_append.mp hc with hc | hc
        · exact hreturned.ended c hc
        · obtain rfl := List.mem_singleton.mp hc
          exact h.running_nodup.not_mem_erase
    · exact hreturned
  · exact h

theorem Counted.step {s : Runs} (h : Counted s) (c : RunsCall) : Counted (s.step c) := by
  cases c with
  | start table => exact h.start table
  | finish env producer run => exact h.finish env producer run
  | other call => exact ⟨h.running_le, h.completions_le, h.running_nodup, h.ended⟩

namespace NoneLost

variable {s : Runs} {env : DispatchEnv} {producer : Producer} {run : FinishedRun}

/-- Deliveries that stay keep what was given. -/
theorem of_keeps (h : NoneLost s) {world : World} (hkeeps : Keeps s.world world) :
    NoneLost { s with world } where
  created c hc := by
    obtain ⟨r, hr, hid, hkey⟩ := h.created c hc
    obtain ⟨r', hr', hid', hkey'⟩ := hkeeps r hr
    exact ⟨r', hr', hid'.symm ▸ hid, hkey'.trans hkey⟩
  own := h.own

theorem deliveryId?_ne (h : NoneLost s) {id : ℕ} (hnew : ∀ r ∈ s.world.deliveries, r.id ≠ id) :
    some id ∉ s.completions.map Completion.deliveryId? := by
  intro hmem
  obtain ⟨c, hc, hid⟩ := List.mem_map.mp hmem
  obtain ⟨r, hr, hrid, -⟩ := h.created c hc
  exact hnew r hr (Option.some.inj (hrid.symm.trans hid))

theorem complete (h : NoneLost s) (hstatus : run.status = .completed)
    (ha : Addressed env (run.event producer.actor))
    (hunused : Unused s.world (completionKey run.id)) :
    NoneLost (s.complete env producer run) := by
  have hevent := producer.event?_of_completed hstatus ha.ticketId_ne
  obtain ⟨p, hbegins, hdispatch⟩ := dispatch_of_addressed
    ⟨3, 60, by decide, by decide, by decide⟩ rfl ha hunused
  have hturn := hbegins.turn
  obtain ⟨hkey, hnew, -⟩ := hbegins.stored
  obtain ⟨result, hanswer, hcreated⟩ := Processing.processDelivery_answer
    ((hturn.during p.delivery).mpr (.inr rfl)) s.world.calls
  have hkept := h.of_keeps hturn.keeps
  simp only [Runs.complete, hevent, hdispatch]
  constructor
  · intro c hc
    rcases List.mem_append.mp hc with hc | hc
    · exact hkept.created c hc
    · obtain rfl := List.mem_singleton.mp hc
      refine ⟨p.closed, (hturn.rows p.closed).mpr (.inr rfl), ?_, ?_⟩
      · simp [Completion.deliveryId?, hanswer, hcreated]
      · rw [p.closed_idempotencyKey]
        exact hkey
  · rw [List.map_append, List.nodup_append]
    refine ⟨h.own, List.nodup_singleton _, ?_⟩
    intro id hid id' hid'
    simp only [List.map_cons, List.map_nil, List.mem_singleton, Completion.deliveryId?, hanswer,
      hcreated] at hid'
    rw [hid']
    rintro rfl
    exact h.deliveryId?_ne hnew hid

end NoneLost

end WaitLocalAgent.Events
