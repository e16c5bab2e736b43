import WaitLocalAgent.Verification.Events.Turn

/-! # What the stored attempts say about the runs made

At rest every delivery is closed, and a delivery stores a completed attempt of an agent exactly
when that agent has completed a run for it. -/

namespace WaitLocalAgent.Events

open Foundation

/-- What an event is about: its type, its entity and its client. -/
structure Subject where
  eventType : String
  entityId : String
  clientId : Option ClientId
  deriving DecidableEq

def EventDelivery.subject (r : EventDelivery) : Subject := ⟨r.eventType, r.entityId, r.clientId⟩

def AgentCall.subject (c : AgentCall) : Subject := ⟨c.eventType, c.entityId, c.clientId⟩

variable {id : String}

namespace Processing

variable {p : Processing}

@[simp] theorem closed_subject : p.closed.subject = p.delivery.subject := rfl

@[simp] theorem closed_agentIds : p.closed.agentIds = p.matchedAgentIds := rfl

@[simp] theorem closed_attempts (id : String) :
    p.closed.agentAttempts.status? id = p.agentPass.attempts.status? id :=
  Attempts.status?_redactErrors p.env.redact.text p.agentPass.attempts id

theorem closed_status : p.closed.status =
    if p.report.errors = [] then .completed else .failed := rfl

@[simp] theorem call_id (d : AgentDefinition) : (p.call d).definition.id = d.id :=
  p.scopedDefinition_id d

theorem startAttempts_completed_iff :
    p.startAttempts.status? id = some .completed ↔
      p.delivery.agentAttempts.status? id = some .completed := by
  by_cases hr : p.retryOnly = true
  · by_cases hk : p.delivery.agentAttempts.keys = []
    · have hnone : p.delivery.agentAttempts.status? id = none := by
        by_contra h
        have := Attempts.mem_keys_iff.mpr (Option.isSome_iff_ne_none.mpr h)
        simp [hk] at this
      rw [p.startAttempts_rebuilt hr hk, hnone]
      split <;> simp
    · rw [p.startAttempts_of_attempted hk]
  · rw [p.startAttempts_of_dispatch (by simpa using hr)]

theorem mem_agentIds_of_startAttempts
    (hmatched : ∀ id, (p.delivery.agentAttempts.status? id).isSome = true →
      id ∈ p.delivery.agentIds)
    (h : (p.startAttempts.status? id).isSome = true) : id ∈ p.delivery.agentIds := by
  by_cases hr : p.retryOnly = true
  · by_cases hk : p.delivery.agentAttempts.keys = []
    · rw [p.startAttempts_rebuilt hr hk] at h
      by_contra hid
      simp [hid] at h
    · rw [p.startAttempts_of_attempted hk] at h
      exact hmatched id h
  · rw [p.startAttempts_of_dispatch (by simpa using hr)] at h
    exact hmatched id h

theorem isSome_of_retryable (h : p.startAttempts.retryable id = true) :
    (p.startAttempts.status? id).isSome = true := by
  unfold Attempts.retryable at h
  cases hs : p.startAttempts.status? id with
  | none => simp [hs] at h
  | some s => rfl

theorem startAttempts_or_candidate
    (h : (p.agentPass.attempts.status? id).isSome = true) :
    (p.startAttempts.status? id).isSome = true ∨ id ∈ p.candidates.map AgentDefinition.id := by
  obtain ⟨es, hes⟩ := p.exists_passTrace
  by_cases hc : id ∈ p.candidates.map AgentDefinition.id
  · exact .inr hc
  · left
    rw [hes.status?_of_not_candidate hc] at h
    split at h
    · rename_i hin
      exact isSome_of_retryable (mem_ineligibleIds.mp hin).2.1
    · exact h

/-- Every attempted agent is listed, when the stored attempts of a claimed delivery were. -/
theorem attempted_matched
    (hmatched : ∀ id, (p.delivery.agentAttempts.status? id).isSome = true →
      id ∈ p.delivery.agentIds)
    (h : (p.agentPass.attempts.status? id).isSome = true)
    (hnew : p.retryOnly = false → p.delivery.agentAttempts = ∅) : id ∈ p.matchedAgentIds := by
  have hstart := startAttempts_or_candidate h
  by_cases hr : p.retryOnly = true
  · have hid : id ∈ p.delivery.agentIds := by
      apply mem_agentIds_of_startAttempts hmatched
      rcases hstart with hs | hc
      · exact hs
      · obtain ⟨d, hd, rfl⟩ := List.mem_map.mp hc
        exact isSome_of_retryable ((mem_candidates.mp hd).2.2 hr)
    have hne : p.delivery.agentIds.isEmpty = false := by
      rw [List.isEmpty_eq_false_iff]
      exact List.ne_nil_of_mem hid
    simpa [matchedAgentIds, hr, hne] using hid
  · have hr' : p.retryOnly = false := by simpa using hr
    rcases hstart with hs | hc
    · rw [p.startAttempts_of_dispatch hr', hnew hr'] at hs
      simp at hs
    · simpa [matchedAgentIds, hr'] using hc

/-- A run that completes is stored as a completed attempt. -/
theorem completed_of_call {c : AgentCall} (hc : c ∈ p.agentPass.calls)
    (hdone : c.completed = true) :
    p.agentPass.attempts.status? c.definition.id = some .completed := by
  obtain ⟨es, hes⟩ := p.exists_passTrace
  obtain ⟨d, hd, hrun, rfl⟩ := hes.mem_calls.mp hc
  have hstatus := hes.status?_of_mem hd
  have hattempt : (p.runAttempt d).status = .completed := (runAttempt_completed_iff d).mpr hdone
  simpa [effect, hrun, hattempt] using hstatus

/-- A completed attempt is never taken up again. -/
theorem completed_kept (h : p.startAttempts.status? id = some .completed)
    (hnew : p.retryOnly = false → p.delivery.agentAttempts = ∅) :
    p.agentPass.attempts.status? id = some .completed := by
  obtain ⟨es, hes⟩ := p.exists_passTrace
  have hret : p.startAttempts.retryable id = false := by
    simp [Attempts.retryable, h, AttemptStatus.retryable]
  have hr : p.retryOnly = true := by
    by_contra hr
    have hr' : p.retryOnly = false := by simpa using hr
    rw [p.startAttempts_of_dispatch hr', hnew hr'] at h
    simp at h
  have hc : id ∉ p.candidates.map AgentDefinition.id := by
    intro hin
    obtain ⟨d, hd, rfl⟩ := List.mem_map.mp hin
    simp [(mem_candidates.mp hd).2.2 hr] at hret
  have hin : id ∉ p.ineligibleIds := by
    intro hin
    simp [(mem_ineligibleIds.mp hin).2.1] at hret
  rw [hes.status?_of_not_candidate hc, if_neg hin, h]

/-- A completed attempt was stored before or comes from a completed run of this pass. -/
theorem call_of_completed
    (h : p.agentPass.attempts.status? id = some .completed) :
    p.startAttempts.status? id = some .completed ∨
      ∃ c ∈ p.agentPass.calls, c.definition.id = id ∧ c.completed = true := by
  obtain ⟨es, hes⟩ := p.exists_passTrace
  by_cases hc : id ∈ p.candidates.map AgentDefinition.id
  · obtain ⟨d, hd, rfl⟩ := List.mem_map.mp hc
    obtain ⟨e, he, hed⟩ := hes.exists_of_candidate hd
    have hstatus := hes.status?_of_mem he
    rw [hed, h] at hstatus
    cases e with
    | gaveUp d' unmet => simp [effect] at hstatus
    | settled d' =>
        have hdd : d' = d := hed
        subst hdd
        by_cases hrun : p.alreadyRun d' = true
        · left
          simpa [effect, hrun] using hstatus.symm
        · right
          have hrun' : p.alreadyRun d' = false := by simpa using hrun
          refine ⟨p.call d', hes.mem_calls.mpr ⟨d', he, hrun', rfl⟩, call_id d', ?_⟩
          rw [← runAttempt_completed_iff]
          simpa [effect, hrun'] using hstatus.symm
  · left
    rw [hes.status?_of_not_candidate hc] at h
    split at h
    · simp at h
    · exact h

end Processing

structure History (w : World) : Prop where
  closed : ∀ r ∈ w.deliveries, r.status = .completed ∨ r.status = .failed
  matched : ∀ r ∈ w.deliveries, ∀ id, (r.agentAttempts.status? id).isSome = true →
    id ∈ r.agentIds
  recorded : ∀ c ∈ w.calls, c.completed = true → ∃ r ∈ w.deliveries,
    r.subject = c.subject ∧ r.agentAttempts.status? c.definition.id = some .completed
  logged : ∀ r ∈ w.deliveries, ∀ id, r.agentAttempts.status? id = some .completed →
    ∃ c ∈ w.calls, c.definition.id = id ∧ c.subject = r.subject ∧ c.completed = true

namespace Turn

variable {w w' : World} {p : Processing} (t : Turn w w' p)

include t

theorem mem_closed : p.closed ∈ w'.deliveries := (t.rows p.closed).mpr (.inr rfl)

theorem mem_of_ne {r : EventDelivery} (hr : r ∈ w.deliveries) (hne : r.id ≠ p.delivery.id) :
    r ∈ w'.deliveries :=
  (t.rows r).mpr (.inl ⟨hr, hne⟩)

/-- A delivery under processing has no attempts, or those of the claimed row. -/
theorem new_attempts (h : p.retryOnly = false) : p.delivery.agentAttempts = ∅ := by
  cases t.origin with
  | created _ new hrow _ => rw [hrow]; rfl
  | claimed hretry => simp [h] at hretry

theorem call_subject {c : AgentCall} (hc : c ∈ p.agentPass.calls) :
    c.subject = p.delivery.subject := by
  obtain ⟨es, hes⟩ := p.exists_passTrace
  obtain ⟨d, -, -, rfl⟩ := hes.mem_calls.mp hc
  simp [Processing.call, AgentCall.subject, EventDelivery.subject, t.client]

theorem delivery_matched (h : History w) :
    ∀ id, (p.delivery.agentAttempts.status? id).isSome = true → id ∈ p.delivery.agentIds := by
  intro id hid
  cases t.origin with
  | created hretry new hrow _ =>
      rw [t.new_attempts hretry] at hid
      simp at hid
  | claimed _ r hr _ _ hrow =>
      rw [hrow] at hid ⊢
      exact h.matched r hr id hid

theorem eq_claimed {r : EventDelivery} (hr : r ∈ w.deliveries) (hid : r.id = p.delivery.id) :
    p.delivery = r.claimed := by
  cases t.origin with
  | created _ _ _ hfresh => exact absurd hid (hfresh r hr)
  | claimed _ s hs _ _ hrow =>
      have hrs : r = s := by
        apply DeliveryTable.eq_of_id_eq hr hs
        rw [hid, hrow]
        rfl
      rw [hrow, hrs]

theorem recorded (h : History w) {c : AgentCall} (hc : c ∈ w'.calls)
    (hdone : c.completed = true) : ∃ r ∈ w'.deliveries, r.subject = c.subject ∧
      r.agentAttempts.status? c.definition.id = some .completed := by
  rw [t.calls] at hc
  rcases List.mem_append.mp hc with hc | hc
  · obtain ⟨r, hr, hsubject, hstatus⟩ := h.recorded c hc hdone
    by_cases hid : r.id = p.delivery.id
    · have hclaimed := t.eq_claimed hr hid
      refine ⟨p.closed, t.mem_closed, ?_, ?_⟩
      · rw [← hsubject, Processing.closed_subject, hclaimed]
        rfl
      · rw [Processing.closed_attempts]
        apply Processing.completed_kept _ t.new_attempts
        rw [Processing.startAttempts_completed_iff, hclaimed]
        exact hstatus
    · exact ⟨r, t.mem_of_ne hr hid, hsubject, hstatus⟩
  · refine ⟨p.closed, t.mem_closed, ?_, ?_⟩
    · rw [t.call_subject hc, Processing.closed_subject]
    · rw [Processing.closed_attempts]
      exact Processing.completed_of_call hc hdone

/-- The completed attempts with which a delivery was taken up come from calls made before. -/
theorem delivery_logged (h : History w)
    (hstart : p.startAttempts.status? id = some .completed) :
    ∃ c ∈ w.calls, c.definition.id = id ∧ c.subject = p.delivery.subject ∧
      c.completed = true := by
  rw [Processing.startAttempts_completed_iff] at hstart
  cases t.origin with
  | created hretry new hrow _ =>
      rw [t.new_attempts hretry] at hstart
      simp at hstart
  | claimed _ s hs _ _ hrow =>
      rw [hrow] at hstart ⊢
      exact h.logged s hs id hstart

theorem logged (h : History w) {r : EventDelivery} (hr : r ∈ w'.deliveries)
    (hstatus : r.agentAttempts.status? id = some .completed) :
    ∃ c ∈ w'.calls, c.definition.id = id ∧ c.subject = r.subject ∧ c.completed = true := by
  rw [t.calls]
  rcases (t.rows r).mp hr with ⟨hr, -⟩ | rfl
  · obtain ⟨c, hc, hcid, hsubject, hdone⟩ := h.logged r hr id hstatus
    exact ⟨c, List.mem_append_left _ hc, hcid, hsubject, hdone⟩
  · rw [Processing.closed_attempts] at hstatus
    rw [Processing.closed_subject]
    rcases Processing.call_of_completed hstatus with hstart | ⟨c, hc, hcid, hdone⟩
    · obtain ⟨c, hc, hcid, hsubject, hdone⟩ := t.delivery_logged h hstart
      exact ⟨c, List.mem_append_left _ hc, hcid, hsubject, hdone⟩
    · exact ⟨c, List.mem_append_right _ hc, hcid, t.call_subject hc, hdone⟩

theorem history (h : History w) : History w' := by
  refine ⟨?_, ?_, fun c hc hdone => t.recorded h hc hdone, fun r hr id => t.logged h hr⟩
  · intro r hr
    rcases (t.rows r).mp hr with ⟨hr, -⟩ | rfl
    · exact h.closed r hr
    · rw [Processing.closed_status]
      split <;> simp
  · intro r hr id hid
    rcases (t.rows r).mp hr with ⟨hr, -⟩ | rfl
    · exact h.matched r hr id hid
    · rw [Processing.closed_attempts] at hid
      exact Processing.attempted_matched (t.delivery_matched h) hid t.new_attempts

end Turn

theorem history_init : History dispatcher.init := by
  have hempty : ∀ r, ¬ r ∈ (dispatcher.init).deliveries := AutoTable.not_mem_empty
  refine ⟨fun r hr => absurd hr (hempty r), fun r hr => absurd hr (hempty r), ?_,
    fun r hr => absurd hr (hempty r)⟩
  intro c hc
  simp [dispatcher] at hc

end WaitLocalAgent.Events
