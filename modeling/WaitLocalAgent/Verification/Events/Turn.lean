import WaitLocalAgent.Verification.Events.Pass

/-! # Turns of the dispatcher

Every call of the dispatcher that changes the store creates or claims one delivery, processes
it and closes it; a batch of due retries is a sequence of such turns. -/

namespace WaitLocalAgent.Events

open Foundation

variable {t : DeliveryTable}

namespace DeliveryTable

theorem mem_insertOrIgnore {new : NewDelivery} {r : EventDelivery} :
    r ∈ (t.insertOrIgnore new).1 ↔ r ∈ t ∨ r = (t.insertOrIgnore new).2.1 := by
  unfold insertOrIgnore
  split
  · rename_i existing h
    constructor
    · exact .inl
    · rintro (h' | rfl)
      · exact h'
      · exact (findByKey?_eq_some h).1
  · exact AutoTable.mem_insert (h := fun _ => rfl)

theorem insertOrIgnore_created {new : NewDelivery}
    (h : (t.insertOrIgnore new).2.2 = true) :
    (t.insertOrIgnore new).2.1 = new.row (t.table.lastKey + 1) ∧
      (∀ r ∈ t, r.id ≠ t.table.lastKey + 1) ∧
      ∀ r ∈ t, r.idempotencyKey ≠ new.idempotencyKey := by
  unfold insertOrIgnore at h ⊢
  split
  · rename_i hfound
    split at h
    · simp at h
    · rename_i hnone
      simp [hfound] at hnone
  · rename_i hnone
    exact ⟨rfl, fun r hr => AutoTable.key_ne_next hr, findByKey?_eq_none hnone⟩

theorem insertOrIgnore_duplicate {new : NewDelivery}
    (h : (t.insertOrIgnore new).2.2 = false) : (t.insertOrIgnore new).1 = t := by
  unfold insertOrIgnore at h ⊢
  split
  · rfl
  · rename_i hnone
    split at h
    · rename_i hfound
      simp [hfound] at hnone
    · simp at h

section UpdateRow

variable {t : DeliveryTable} {id : ℕ} {f : EventDelivery → EventDelivery}
  {hid : ∀ r, (f r).id = r.id} {hkey : ∀ r, (f r).idempotencyKey = r.idempotencyKey}

theorem mem_updateRow {r : EventDelivery} (hr : r ∈ t) (hrid : r.id = id) (s : EventDelivery) :
    s ∈ t.updateRow id f hid hkey ↔ (s ∈ t ∧ s.id ≠ id) ∨ s = f r := by
  change s ∈ t.table.update _ f hid ↔ _
  rw [AutoTable.mem_update]
  constructor
  · rintro ⟨q, hq, rfl⟩
    by_cases hqid : q.id = id
    · have hqr : q = r := eq_of_id_eq hq hr (hqid.trans hrid.symm)
      subst hqr
      exact .inr (by simp [hqid])
    · rw [if_neg (by simpa using hqid)]
      exact .inl ⟨hq, hqid⟩
  · rintro (⟨hs, hsid⟩ | rfl)
    · exact ⟨s, hs, by simp [hsid]⟩
    · exact ⟨r, hr, by simp [hrid]⟩

end UpdateRow

end DeliveryTable

theorem getEventDelivery_eq_some_iff {id : ℕ} {scope : Option ClientId}
    {r : EventDelivery} :
    getEventDelivery t id scope = some r ↔
      r ∈ t ∧ r.id = id ∧ withinScope scope r.clientId = true := by
  rw [getEventDelivery, Option.filter_eq_some_iff, DeliveryTable.find?_eq_some_iff, and_assoc]

/-- What a successful claim found and left. -/
theorem claimEventDeliveryRetry_eq_ok {t t' : DeliveryTable} {id : ℕ} {scope : Option ClientId}
    {delivery : EventDelivery}
    (h : claimEventDeliveryRetry t id scope = .ok (t', delivery)) :
    ∃ r ∈ t, r.id = id ∧ withinScope scope r.clientId = true ∧ r.status = .failed ∧
      r.retryCount < r.policy.maxRetries ∧ delivery = r.claimed ∧
      t' = t.updateRow id EventDelivery.claimed EventDelivery.claimed_id
        EventDelivery.claimed_idempotencyKey := by
  unfold claimEventDeliveryRetry at h
  cases hget : getEventDelivery t id scope with
  | none => simp [hget] at h
  | some r =>
      obtain ⟨hr, hid, hscope⟩ := getEventDelivery_eq_some_iff.mp hget
      simp only [hget] at h
      by_cases hopen : r.status = .failed ∧ r.retryCount < r.policy.maxRetries
      · rw [if_pos hopen] at h
        simp only [Except.ok.injEq, Prod.mk.injEq] at h
        obtain ⟨rfl, rfl⟩ := h
        exact ⟨r, hr, hid, hscope, hopen.1, hopen.2, rfl, rfl⟩
      · rw [if_neg hopen] at h
        split at h <;> simp at h

theorem updateEventDelivery_of_mem {redact : Redactor} {now : String}
    {r : EventDelivery} (hr : r ∈ t) (u : DeliveryUpdate) :
    updateEventDelivery redact now t r.id u =
      .ok (t.updateRow r.id (u.assign redact now) (u.assign_id redact now)
        (u.assign_idempotencyKey redact now), u.assign redact now r) := by
  have hfind : t.find? r.id = some r := DeliveryTable.find?_eq_some_iff.mpr ⟨hr, rfl⟩
  simp [updateEventDelivery, hfind]

/-! ## The turn of one delivery -/

/-- The row that the final update of a processing stores. -/
def Processing.closed (p : Processing) : EventDelivery :=
  (p.report.update p.env.clock p.delivery).assign p.env.redact p.env.clock.now p.delivery

@[simp] theorem Processing.closed_id (p : Processing) : p.closed.id = p.delivery.id := rfl

/-- The processing that a call begins in a world, if it gets that far. -/
inductive Begins (w : World) : DispatcherCall → Processing → Prop where
  | dispatch (env : DispatchEnv) (request : DispatchRequest) (ticketClient : Option ClientId)
      (deliveries : DeliveryTable) (delivery : EventDelivery)
      (hvalid : validateRequest request = .ok ())
      (hticket : (env.tickets request.entityId).filter
        (withinScope (normalizeClientId request.clientId)) = some ticketClient)
      (hopen : ticketClient ≠ some quarantineClientId)
      (hcreate : createEventDelivery env.redact env.clock.now (env.tickets request.entityId)
        w.deliveries request.idempotencyKey request.eventType request.entityType
        request.entityId request.payload (normalizeClientId request.clientId <|> ticketClient)
        request.maxRetries request.retryDelaySeconds = .ok (deliveries, delivery, true)) :
      Begins w (.dispatch env request)
        { env, deliveries, delivery, payload := request.payload,
          clientId := normalizeClientId request.clientId <|> ticketClient,
          actor := request.actor, retryOnly := false }
  | retry (env : DispatchEnv) (deliveryId : ℕ) (clientId : Option String) (actor : String)
      (scope : Option ClientId) (deliveries : DeliveryTable) (existing delivery : EventDelivery)
      (hscope : retryScope clientId = .ok scope)
      (hexisting : getEventDelivery w.deliveries deliveryId scope = some existing)
      (hopen : ¬ (isTicketEntity existing.entityType ∧
        env.tickets existing.entityId = some (some quarantineClientId)))
      (hclaim : claimEventDeliveryRetry w.deliveries deliveryId scope =
        .ok (deliveries, delivery)) :
      Begins w (.retry env deliveryId clientId actor)
        { env, deliveries, delivery, payload := delivery.payload,
          clientId := delivery.clientId, actor, retryOnly := true }

/-- Where the delivery of a processing comes from. -/
inductive Origin (w : World) (p : Processing) : Prop where
  | created (hretry : p.retryOnly = false) (new : DeliveryTable.NewDelivery)
      (hrow : p.delivery = new.row p.delivery.id)
      (hfresh : ∀ r ∈ w.deliveries, r.id ≠ p.delivery.id)
  | claimed (hretry : p.retryOnly = true) (r : EventDelivery) (hr : r ∈ w.deliveries)
      (hstatus : r.status = .failed) (hcount : r.retryCount < r.policy.maxRetries)
      (hrow : p.delivery = r.claimed)

/-- The turn that takes `w` to `w'` by processing `p`. -/
structure Turn (w w' : World) (p : Processing) : Prop where
  client : p.clientId = p.delivery.clientId
  origin : Origin w p
  during : ∀ s, s ∈ p.deliveries ↔ (s ∈ w.deliveries ∧ s.id ≠ p.delivery.id) ∨ s = p.delivery
  rows : ∀ s, s ∈ w'.deliveries ↔ (s ∈ w.deliveries ∧ s.id ≠ p.delivery.id) ∨ s = p.closed
  calls : w'.calls = w.calls ++ p.agentPass.calls

theorem createEventDelivery_created {redact : Redactor} {now : String}
    {ticketClient : Option (Option ClientId)} {t t' : DeliveryTable}
    {key eventType entityType entityId : String} {payload : Payload}
    {clientId : Option ClientId} {maxRetries delay : ℤ} {delivery : EventDelivery}
    {created : Bool}
    (h : createEventDelivery redact now ticketClient t key eventType entityType entityId payload
      clientId maxRetries delay = .ok (t', delivery, created)) :
    ∃ new : DeliveryTable.NewDelivery,
      new.idempotencyKey = key ∧ new.eventType = eventType ∧ new.entityId = entityId ∧
        new.clientId = clientId ∧ t.insertOrIgnore new = (t', delivery, created) := by
  unfold createEventDelivery at h
  cases hpolicy : validateEventRetryPolicy maxRetries delay with
  | error e => simp [hpolicy, bind, Except.bind] at h
  | ok policy =>
      simp only [hpolicy, bind, Except.bind, pure, Except.pure] at h
      refine ⟨⟨key, eventType, entityType, entityId, redact.payload payload, now, clientId,
        policy⟩, rfl, rfl, rfl, rfl, ?_⟩
      by_cases ht : isTicketEntity entityType = true
      · simp only [ht, if_true] at h
        cases hq : requireTicketNotQuarantined ticketClient entityId with
        | error e => simp [hq] at h
        | ok u => simpa [hq] using h
      · simpa [ht] using h

/-- The final update finds the delivery, so a processing never ends in an error. -/
theorem Processing.processDelivery_deliveries {p : Processing} (h : p.delivery ∈ p.deliveries)
    (calls : List AgentCall) :
    (p.processDelivery calls).1.deliveries = p.deliveries.updateRow p.delivery.id
      ((p.report.update p.env.clock p.delivery).assign p.env.redact p.env.clock.now)
      (DeliveryUpdate.assign_id _ _ _) (DeliveryUpdate.assign_idempotencyKey _ _ _) := by
  simp [processDelivery, updateEventDelivery_of_mem h]

theorem Processing.processDelivery_calls (p : Processing) (calls : List AgentCall) :
    (p.processDelivery calls).1.calls = calls ++ p.agentPass.calls := by
  unfold processDelivery
  split <;> rfl

/-- Closing a delivery that `w` gave out makes a turn. -/
theorem turn_of_during {w : World} {p : Processing} (hclient : p.clientId = p.delivery.clientId)
    (horigin : Origin w p)
    (hduring : ∀ s, s ∈ p.deliveries ↔
      (s ∈ w.deliveries ∧ s.id ≠ p.delivery.id) ∨ s = p.delivery) :
    Turn w (p.processDelivery w.calls).1 p := by
  have hmem : p.delivery ∈ p.deliveries := (hduring p.delivery).mpr (.inr rfl)
  refine ⟨hclient, horigin, hduring, ?_, ?_⟩
  · intro s
    rw [Processing.processDelivery_deliveries hmem, DeliveryTable.mem_updateRow hmem rfl, hduring]
    constructor
    · rintro (⟨hs | rfl, hne⟩ | rfl)
      · exact .inl hs
      · exact absurd rfl hne
      · exact .inr rfl
    · rintro (hs | rfl)
      · exact .inl ⟨.inl hs, hs.2⟩
      · exact .inr rfl
  · exact p.processDelivery_calls w.calls

theorem Begins.turn {w : World} {c : DispatcherCall} {p : Processing} (h : Begins w c p) :
    Turn w (p.processDelivery w.calls).1 p := by
  cases h with
  | dispatch env request ticketClient deliveries delivery hvalid hticket hopen hcreate =>
      obtain ⟨new, -, -, -, hclient, hins⟩ := createEventDelivery_created hcreate
      have hcreated := @DeliveryTable.insertOrIgnore_created w.deliveries new (by rw [hins])
      have hmem := fun s => @DeliveryTable.mem_insertOrIgnore w.deliveries new s
      rw [hins] at hcreated hmem
      obtain ⟨hrow, hfresh, -⟩ := hcreated
      simp only at hrow hmem
      have hid : delivery.id = w.deliveries.table.lastKey + 1 := by rw [hrow]; rfl
      apply turn_of_during
      · change (normalizeClientId request.clientId <|> ticketClient) = delivery.clientId
        rw [hrow, ← hclient]
        rfl
      · refine .created rfl new ?_ ?_
        · rw [hrow]
          rfl
        · intro r hr
          rw [hid]
          exact hfresh r hr
      · intro s
        rw [hmem]
        constructor
        · rintro (hs | rfl)
          · exact .inl ⟨hs, by rw [hid]; exact hfresh s hs⟩
          · exact .inr rfl
        · rintro (hs | rfl)
          · exact .inl hs.1
          · exact .inr rfl
  | retry env deliveryId clientId actor scope deliveries existing delivery hscope hexisting hopen
      hclaim =>
      obtain ⟨r, hr, hrid, -, hstatus, hcount, rfl, rfl⟩ := claimEventDeliveryRetry_eq_ok hclaim
      apply turn_of_during
      · rfl
      · exact .claimed rfl r hr hstatus hcount rfl
      · intro s
        subst hrid
        change s ∈ w.deliveries.updateRow r.id EventDelivery.claimed EventDelivery.claimed_id
          EventDelivery.claimed_idempotencyKey ↔ _
        rw [DeliveryTable.mem_updateRow hr rfl]
        rfl

/-! ## Calls as turns -/

theorem dispatch_turn (env : DispatchEnv) (request : DispatchRequest) (w : World) :
    (dispatch env request w).1 = w ∨
      ∃ p, Begins w (.dispatch env request) p ∧
        (dispatch env request w).1 = (p.processDelivery w.calls).1 := by
  unfold dispatch
  cases hvalid : validateRequest request with
  | error e => exact .inl rfl
  | ok u =>
      simp only
      cases hticket : (env.tickets request.entityId).filter
          (withinScope (normalizeClientId request.clientId)) with
      | none => exact .inl rfl
      | some ticketClient =>
          simp only
          by_cases hopen : ticketClient = some quarantineClientId
          · rw [if_pos hopen]
            exact .inl rfl
          · rw [if_neg hopen]
            split
            · exact .inl rfl
            · rename_i deliveries delivery hcreate
              exact .inr ⟨_, .dispatch env request ticketClient deliveries delivery hvalid hticket
                hopen hcreate, rfl⟩
            · rename_i deliveries delivery hcreate
              obtain ⟨new, -, -, -, -, hins⟩ := createEventDelivery_created hcreate
              have hsame := DeliveryTable.insertOrIgnore_duplicate (by rw [hins])
              rw [hins] at hsame
              simp only at hsame
              subst hsame
              split
              · exact .inl rfl
              · exact .inl rfl

theorem retry_turn (env : DispatchEnv) (deliveryId : ℕ) (clientId : Option String)
    (actor : String) (w : World) :
    (retry env deliveryId clientId actor w).1 = w ∨
      ∃ p, Begins w (.retry env deliveryId clientId actor) p ∧
        (retry env deliveryId clientId actor w).1 = (p.processDelivery w.calls).1 := by
  unfold retry
  cases hscope : retryScope clientId with
  | error e => exact .inl rfl
  | ok scope =>
      simp only
      cases hexisting : getEventDelivery w.deliveries deliveryId scope with
      | none => exact .inl rfl
      | some existing =>
          simp only
          by_cases hopen : isTicketEntity existing.entityType ∧
              env.tickets existing.entityId = some (some quarantineClientId)
          · rw [if_pos hopen]
            exact .inl rfl
          · rw [if_neg hopen]
            split
            · exact .inl rfl
            · rename_i deliveries delivery hclaim
              exact .inr ⟨_, .retry env deliveryId clientId actor scope deliveries existing
                delivery hscope hexisting hopen hclaim, rfl⟩

def dueRetries (env : ℕ → DispatchEnv) (now : String) (w : World) : List DispatcherCall :=
  (listDueEventDeliveryIds w.deliveries now eventRetryBatchSize).map fun id =>
    .retry (env id) id none "event-retry-worker"

theorem foldl_retryDueBody (env : ℕ → DispatchEnv) (ids : List ℕ) (w : World)
    (results : List EventDispatchResult) :
    (ids.foldl (retryDueBody env) (w, results)).1 =
      runFrom DispatcherCall.apply w
        (ids.map fun id => .retry (env id) id none "event-retry-worker") := by
  induction ids generalizing w results with
  | nil => rfl
  | cons id ids ih =>
      simp only [List.foldl_cons, List.map_cons, runFrom_cons, DispatcherCall.apply, retryDueBody]
      cases hretry : retry (env id) id none "event-retry-worker" w with
      | mk w' outcome =>
          cases outcome with
          | error e => exact ih w' results
          | ok result => exact ih w' (results ++ [result])

theorem retryDue_eq_run (env : ℕ → DispatchEnv) (now : String) (w : World) :
    (retryDue env now w).1 = runFrom DispatcherCall.apply w (dueRetries env now w) :=
  foldl_retryDueBody env _ w []

/-- Every processing that the call begins meets `G`. -/
def GuardedCall (G : World → Processing → Prop) (w : World) : DispatcherCall → Prop
  | .retryDue env now =>
      GuardedFrom DispatcherCall.apply (fun w c => ∀ p, Begins w c p → G w p) w
        (dueRetries env now w)
  | .dispatch env request => ∀ p, Begins w (.dispatch env request) p → G w p
  | .retry env deliveryId clientId actor =>
      ∀ p, Begins w (.retry env deliveryId clientId actor) p → G w p

def DispatcherCall.Uses : DispatcherCall → DispatchEnv → Prop
  | .dispatch env _, e => e = env
  | .retry env _ _ _, e => e = env
  | .retryDue env _, e => ∃ id, e = env id

theorem Begins.uses {w : World} {c : DispatcherCall} {p : Processing} (h : Begins w c p) :
    c.Uses p.env := by
  cases h <;> rfl

/-- A property of the environments of a run may be assumed of every turn. -/
theorem guarded_and_env {G : World → Processing → Prop} {P : DispatchEnv → Prop}
    {cs : List DispatcherCall} (hg : dispatcher.Guarded (GuardedCall G) cs)
    (hP : ∀ c ∈ cs, ∀ env, c.Uses env → P env) :
    dispatcher.Guarded (GuardedCall fun w p => G w p ∧ P p.env) cs := by
  refine GuardedFrom.imp_of_mem hg ?_
  intro w c hc hG
  cases c with
  | dispatch env request => exact fun p hp => ⟨hG p hp, hP _ hc _ hp.uses⟩
  | retry env deliveryId clientId actor => exact fun p hp => ⟨hG p hp, hP _ hc _ hp.uses⟩
  | retryDue env now =>
      refine GuardedFrom.imp_of_mem hG ?_
      intro w c' hc' hG' p hp
      obtain ⟨id, -, rfl⟩ := List.mem_map.mp hc'
      have henv : p.env = env id := hp.uses
      exact ⟨hG' p hp, by rw [henv]; exact hP _ hc _ ⟨id, rfl⟩⟩

section Invariants

variable {I : World → Prop} {G : World → Processing → Prop}

/-- A lemma about the processing that a call begins gives the step lemma of the dispatcher. -/
theorem apply_invariant_of_begins
    (hbegins : ∀ w c p, I w → G w p → Begins w c p → I (p.processDelivery w.calls).1)
    {w : World} {c : DispatcherCall} (hw : I w) (hg : GuardedCall G w c) : I (c.apply w) := by
  have hsingle : ∀ w c, (c.apply w = w ∨ ∃ p, Begins w c p ∧
      c.apply w = (p.processDelivery w.calls).1) → I w → (∀ p, Begins w c p → G w p) →
      I (c.apply w) := by
    rintro w c (hsame | ⟨p, hp, heq⟩) hw hg
    · rwa [hsame]
    · rw [heq]
      exact hbegins w c p hw (hg p hp) hp
  cases c with
  | dispatch env request => exact hsingle w _ (dispatch_turn env request w) hw hg
  | retry env deliveryId clientId actor =>
      exact hsingle w _ (retry_turn env deliveryId clientId actor w) hw hg
  | retryDue env now =>
      change I (retryDue env now w).1
      rw [retryDue_eq_run]
      have hretries : ∀ c ∈ dueRetries env now w, ∃ env id clientId actor,
          c = .retry env id clientId actor := by
        intro c hc
        obtain ⟨id, -, rfl⟩ := List.mem_map.mp hc
        exact ⟨env id, id, none, _, rfl⟩
      change GuardedFrom _ _ w (dueRetries env now w) at hg
      generalize dueRetries env now w = cs at hg hretries
      induction cs generalizing w with
      | nil => exact hw
      | cons c cs ih =>
          obtain ⟨env, id, clientId, actor, rfl⟩ := hretries c List.mem_cons_self
          exact ih (hsingle w _ (retry_turn env id clientId actor w) hw hg.1) hg.2
            fun c hc => hretries c (List.mem_cons_of_mem _ hc)

theorem apply_invariant (hturn : ∀ w w' p, I w → G w p → Turn w w' p → I w') {w : World}
    {c : DispatcherCall} (hw : I w) (hg : GuardedCall G w c) : I (c.apply w) :=
  apply_invariant_of_begins (fun w _ p hw hp hb => hturn w _ p hw hp hb.turn) hw hg

theorem dispatcher_invariant (hturn : ∀ w w' p, I w → G w p → Turn w w' p → I w')
    (hinit : I dispatcher.init) {cs : List DispatcherCall}
    (hg : dispatcher.Guarded (GuardedCall G) cs) : I (dispatcher.run cs) :=
  Machine.run_invariant_of_guarded hinit (fun _ _ hw hg => apply_invariant hturn hw hg) hg

end Invariants

/-! ## A small environment -/

/-- Every ticket belongs to one client, no text is sensitive and every playbook raises. -/
def acmeEnv (definitions : Table AgentDefinition.id)
    (subscriptions : Table MspPlaybookSubscription.id)
    (runAgent : AgentRequest → Except String AgentRunResult) : DispatchEnv where
  redact := ⟨fun s => s, fun payload => payload⟩
  clock := ⟨"2026-01-01T00:00:00+00:00", fun _ => "2026-01-01T00:01:00+00:00", fun _ => by decide⟩
  tickets := fun _ => some (some acme)
  definitions := definitions
  subscriptions := subscriptions
  runAgent := runAgent
  runMspPlaybook := fun _ => .error "playbook is not installed"

end WaitLocalAgent.Events
