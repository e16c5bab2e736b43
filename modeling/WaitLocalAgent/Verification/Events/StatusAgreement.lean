import WaitLocalAgent.Verification.Events.DependencyOrder

/-! # The status of a delivery and its attempts

A closed delivery is completed exactly when no stored attempt is failed or blocked, as long as
every playbook attempt that a retry has to take up belongs to an enabled subscription. -/

namespace WaitLocalAgent.Events

open Foundation

/-- The status says whether an attempt is left to retry. -/
def EventDelivery.StatusAgrees (r : EventDelivery) : Prop :=
  r.status = .completed ↔
    (∀ id, r.agentAttempts.retryable id = false) ∧ ∀ id, r.playbookAttempts.retryable id = false

/-- A retry finds every failed or blocked playbook attempt among its enabled subscriptions. -/
def PlaybooksOffered (_ : World) (p : Processing) : Prop :=
  p.retryOnly = true → ∀ id, p.delivery.playbookAttempts.retryable id = true →
    ∃ sub ∈ p.subscriptions, sub.enabled = true ∧ sub.id = id

namespace Processing

variable {p : Processing}

/-- A settlement reports an error exactly when it leaves an attempt to retry. -/
theorem effect_error_iff (e : Settlement AgentDefinition (List String)) :
    (p.effect e).error.isSome = true ↔
      ∃ a, (p.effect e).attempt = some a ∧ a.status.retryable = true := by
  cases e with
  | gaveUp d unmet => simp [effect, AttemptStatus.retryable]
  | settled d =>
      by_cases hrun : p.alreadyRun d = true
      · simp [effect, hrun]
      · by_cases hfailed : (p.runAttempt d).status = .failed
        · simp [effect, hrun, hfailed, AttemptStatus.retryable]
        · have hret := (not_congr (runAttempt_retryable_iff d)).mpr hfailed
          simp [effect, hrun, hfailed, hret]

theorem startAttempts_not_retryable (hnew : p.retryOnly = false → p.delivery.agentAttempts = ∅)
    {id : String} (hc : id ∉ p.candidates.map AgentDefinition.id) (hin : id ∉ p.ineligibleIds) :
    p.startAttempts.retryable id = false := by
  cases hr : p.retryOnly with
  | true =>
      by_contra h
      apply hin
      exact mem_ineligibleIds.mpr ⟨hr, by simpa using h, hc⟩
  | false =>
      rw [p.startAttempts_of_dispatch hr, hnew hr]
      simp [Attempts.retryable]

/-- Only the run-once test, which retries do not make, leaves the attempt of a candidate alone. -/
theorem dispatch_of_effect_none {e : Settlement AgentDefinition (List String)}
    (h : (p.effect e).attempt = none) : p.retryOnly = false := by
  cases e with
  | gaveUp d unmet => simp [effect] at h
  | settled d =>
      by_cases hrun : p.alreadyRun d = true
      · simp only [alreadyRun, Bool.and_eq_true, Bool.not_eq_true'] at hrun
        exact hrun.1.1
      · simp [effect, hrun] at h

section Trace

variable {es : List (Settlement AgentDefinition (List String))}

/-- A candidate is left to retry exactly if its settlement reported an error. -/
theorem PassTrace.retryable_of_mem (hes : PassTrace p es)
    (hnew : p.retryOnly = false → p.delivery.agentAttempts = ∅)
    {e : Settlement AgentDefinition (List String)} (he : e ∈ es) :
    p.agentPass.attempts.retryable e.item.id = true ↔ (p.effect e).error.isSome = true := by
  rw [effect_error_iff, Attempts.retryable, hes.status?_of_mem he]
  cases hattempt : (p.effect e).attempt with
  | none =>
      have hdispatch := dispatch_of_effect_none hattempt
      simp [p.startAttempts_of_dispatch hdispatch, hnew hdispatch]
  | some a => simp

/-- Any other agent is left to retry exactly if it was reported as ineligible. -/
theorem PassTrace.retryable_of_not_candidate (hes : PassTrace p es)
    (hnew : p.retryOnly = false → p.delivery.agentAttempts = ∅) {id : String}
    (hc : id ∉ p.candidates.map AgentDefinition.id) :
    p.agentPass.attempts.retryable id = true ↔ id ∈ p.ineligibleIds := by
  rw [Attempts.retryable, hes.status?_of_not_candidate hc]
  by_cases hin : id ∈ p.ineligibleIds
  · simp [hin, AttemptStatus.retryable]
  · have hstart := startAttempts_not_retryable hnew hc hin
    rw [Attempts.retryable] at hstart
    simp [hin, hstart]

end Trace

theorem agentErrors_iff (hnew : p.retryOnly = false → p.delivery.agentAttempts = ∅) :
    p.agentPass.errors = [] ↔ ∀ id, p.agentPass.attempts.retryable id = false := by
  obtain ⟨es, hes⟩ := p.exists_passTrace
  rw [hes.errors_eq, List.append_eq_nil_iff, List.map_eq_nil_iff, List.filterMap_eq_nil_iff,
    List.eq_nil_iff_forall_not_mem]
  constructor
  · intro h id
    rw [Bool.eq_false_iff]
    intro hret
    by_cases hc : id ∈ p.candidates.map AgentDefinition.id
    · obtain ⟨d, hd, rfl⟩ := List.mem_map.mp hc
      obtain ⟨e, he, rfl⟩ := hes.exists_of_candidate hd
      have herror := (hes.retryable_of_mem hnew he).mp hret
      simp [h.2 e he] at herror
    · exact h.1 id ((hes.retryable_of_not_candidate hnew hc).mp hret)
  · intro hnone
    constructor
    · intro id hin
      have hret := (hes.retryable_of_not_candidate hnew (mem_ineligibleIds.mp hin).2.2).mpr hin
      simp [hnone id] at hret
    · intro e he
      by_contra herror
      have hret := (hes.retryable_of_mem hnew he).mpr (Option.isSome_iff_ne_none.mpr herror)
      simp [hnone e.item.id] at hret

theorem nodup_subscriptions_ids (p : Processing) :
    (p.subscriptions.map MspPlaybookSubscription.id).Nodup := by
  unfold subscriptions
  cases p.clientId with
  | none => simp
  | some c =>
      simp only [DispatchEnv.listMspPlaybookSubscriptions]
      have hperm := (List.perm_insertionSort subscriptionBefore
        (p.env.subscriptions.rows.filter fun s =>
          s.clientId == c && s.eventType == p.delivery.eventType)).map MspPlaybookSubscription.id
      exact hperm.nodup_iff.mpr
        (p.env.subscriptions.nodup.sublist (List.filter_sublist.map _))

/-- One round of the playbook loop: skipped, or a new attempt with an error if it failed. -/
theorem runSubscription_cases (s : PlaybookPass) (sub : MspPlaybookSubscription) :
    (p.runSubscription s sub = s ∧
      (sub.enabled = false ∨ (p.retryOnly = true ∧ s.attempts.retryable sub.id = false))) ∨
    ∃ a errors, (p.runSubscription s sub).attempts = s.attempts.insert sub.id a ∧
      (p.runSubscription s sub).errors = s.errors ++ errors ∧
      (errors ≠ [] ↔ a.status.retryable = true) := by
  unfold runSubscription
  by_cases henabled : sub.enabled = true
  · by_cases hskip : p.retryOnly = true ∧ s.attempts.retryable sub.id = false
    · left
      simp [henabled, hskip.1, hskip.2]
    · right
      have hskip' : (p.retryOnly && !s.attempts.retryable sub.id) = false := by
        simpa using hskip
      simp only [henabled, Bool.not_true, Bool.false_eq_true, if_false, hskip']
      split
      · rename_i result hresult
        refine ⟨_, [], rfl, by simp, ?_⟩
        by_cases hc : result.status = "completed" <;> simp [hc, AttemptStatus.retryable]
      · exact ⟨_, _, rfl, rfl, by simp [AttemptStatus.retryable]⟩
  · left
    simp [henabled]

/-- What the playbook loop knows with `subs` still to come: an attempt to retry is theirs or has
been reported, and a report left an attempt that is not theirs. -/
structure Accounted (s : PlaybookPass) (subs : List MspPlaybookSubscription) : Prop where
  offered : ∀ id, s.attempts.retryable id = true →
    (∃ sub ∈ subs, sub.enabled = true ∧ sub.id = id) ∨ s.errors ≠ []
  reported : s.errors ≠ [] →
    ∃ id, id ∉ subs.map MspPlaybookSubscription.id ∧ s.attempts.retryable id = true

namespace Accounted

variable {s : PlaybookPass} {sub : MspPlaybookSubscription} {subs : List MspPlaybookSubscription}

/-- A skipped subscription has no attempt to retry. -/
theorem skipped (h : Accounted s (sub :: subs))
    (hskip : sub.enabled = false ∨ (p.retryOnly = true ∧ s.attempts.retryable sub.id = false)) :
    Accounted s subs where
  offered id hret := by
    rcases h.offered id hret with ⟨sub', hsub', henabled, hid⟩ | hreported
    · left
      rcases List.mem_cons.mp hsub' with rfl | hlater
      · rcases hskip with hdisabled | ⟨-, hnot⟩
        · simp [henabled] at hdisabled
        · rw [hid, hret] at hnot
          cases hnot
      · exact ⟨sub', hlater, henabled, hid⟩
    · exact .inr hreported
  reported herrors := by
    obtain ⟨id, hid, hret⟩ := h.reported herrors
    exact ⟨id, fun hmem => hid (List.mem_cons_of_mem _ hmem), hret⟩

/-- An attempted subscription reports an error exactly if its attempt is one to retry. -/
theorem attempted {s' : PlaybookPass} {a : Attempt String} {errors : List String}
    (h : Accounted s (sub :: subs)) (hfresh : sub.id ∉ subs.map MspPlaybookSubscription.id)
    (ha : s'.attempts = s.attempts.insert sub.id a) (he : s'.errors = s.errors ++ errors)
    (herr : errors ≠ [] ↔ a.status.retryable = true) : Accounted s' subs where
  offered id hret := by
    rw [ha] at hret
    rw [he]
    by_cases hid : id = sub.id
    · right
      rw [hid, Attempts.retryable, Attempts.status?_insert_self] at hret
      simp [herr.mpr (by simpa using hret)]
    · rw [Attempts.retryable, Attempts.status?_insert_ne a hid] at hret
      rcases h.offered id hret with ⟨sub', hsub', henabled, hid'⟩ | hreported
      · rcases List.mem_cons.mp hsub' with rfl | hlater
        · exact absurd hid'.symm hid
        · exact .inl ⟨sub', hlater, henabled, hid'⟩
      · right
        simp [hreported]
  reported herrors := by
    rw [ha]
    rw [he] at herrors
    by_cases hold : s.errors = []
    · refine ⟨sub.id, hfresh, ?_⟩
      rw [Attempts.retryable, Attempts.status?_insert_self]
      simpa using herr.mp (by simpa [hold] using herrors)
    · obtain ⟨id, hid, hret⟩ := h.reported hold
      simp only [List.map_cons, List.mem_cons, not_or] at hid
      refine ⟨id, hid.2, ?_⟩
      rw [Attempts.retryable, Attempts.status?_insert_ne a hid.1]
      exact hret

theorem runSubscription (h : Accounted s (sub :: subs))
    (hfresh : sub.id ∉ subs.map MspPlaybookSubscription.id) :
    Accounted (p.runSubscription s sub) subs := by
  rcases p.runSubscription_cases s sub with ⟨heq, hskip⟩ | ⟨a, errors, ha, he, herr⟩
  · rw [heq]
    exact h.skipped hskip
  · exact h.attempted hfresh ha he herr

theorem foldl_runSubscription (h : Accounted s subs)
    (hnodup : (subs.map MspPlaybookSubscription.id).Nodup) :
    Accounted (subs.foldl p.runSubscription s) [] := by
  induction subs generalizing s with
  | nil => exact h
  | cons sub subs ih =>
      rw [List.map_cons, List.nodup_cons] at hnodup
      rw [List.foldl_cons]
      exact ih (h.runSubscription hnodup.1) hnodup.2

/-- At the end of the loop an error is reported exactly if an attempt is left to retry. -/
theorem errors_iff (h : Accounted s []) :
    s.errors = [] ↔ ∀ id, s.attempts.retryable id = false := by
  constructor
  · intro herrors id
    rw [Bool.eq_false_iff]
    intro hret
    rcases h.offered id hret with ⟨sub, hsub, -⟩ | hreported
    · cases hsub
    · exact hreported herrors
  · intro hnone
    by_contra herrors
    obtain ⟨id, -, hret⟩ := h.reported herrors
    simp [hnone id] at hret

end Accounted

theorem playbookErrors_iff {w : World} (hoffered : PlaybooksOffered w p)
    (hnew : p.retryOnly = false → p.delivery.playbookAttempts = ∅) :
    p.playbookPass.errors = [] ↔ ∀ id, p.playbookPass.attempts.retryable id = false := by
  have hstart : Accounted p.startPlaybooks p.subscriptions := by
    refine ⟨?_, fun h => absurd rfl h⟩
    intro id hret
    change p.delivery.playbookAttempts.retryable id = true at hret
    cases hr : p.retryOnly with
    | true => exact .inl (hoffered hr id hret)
    | false =>
        rw [hnew hr] at hret
        simp [Attempts.retryable] at hret
  exact (hstart.foldl_runSubscription p.nodup_subscriptions_ids).errors_iff

end Processing

namespace Turn

variable {w w' : World} {p : Processing}

theorem new_playbookAttempts (t : Turn w w' p) (h : p.retryOnly = false) :
    p.delivery.playbookAttempts = ∅ := by
  cases t.origin with
  | created _ new hrow _ => rw [hrow]; rfl
  | claimed hretry => simp [h] at hretry

theorem closed_statusAgrees (t : Turn w w' p) (hoffered : PlaybooksOffered w p) :
    p.closed.StatusAgrees := by
  have hagents := Processing.agentErrors_iff t.new_attempts
  have hplaybooks := Processing.playbookErrors_iff hoffered t.new_playbookAttempts
  have hstatus : p.closed.status = .completed ↔
      p.agentPass.errors = [] ∧ p.playbookPass.errors = [] := by
    rw [Processing.closed_status]
    simp [Processing.report]
  have hagent : ∀ id, p.closed.agentAttempts.retryable id =
      p.agentPass.attempts.retryable id := by
    intro id
    rw [Attempts.retryable, Processing.closed_attempts]
    rfl
  have hplaybook : ∀ id, p.closed.playbookAttempts.retryable id =
      p.playbookPass.attempts.retryable id := by
    intro id
    have hredacted := Attempts.status?_redactErrors p.env.redact.text p.playbookPass.attempts id
    rw [Attempts.retryable, Attempts.retryable, ← hredacted]
    rfl
  rw [EventDelivery.StatusAgrees, hstatus, hagents, hplaybooks]
  simp only [hagent, hplaybook]

end Turn

/-- In every run whose retries find their playbooks enabled, whatever happens to definitions and
subscriptions in between, the status of every stored delivery agrees with its attempts. -/
theorem statusAgrees_of_playbooksOffered (cs : List DispatcherCall)
    (hguard : dispatcher.Guarded (GuardedCall PlaybooksOffered) cs) :
    ∀ r ∈ (dispatcher.run cs).deliveries, r.StatusAgrees := by
  refine dispatcher_invariant (I := fun w => ∀ r ∈ w.deliveries, r.StatusAgrees) ?_ ?_ hguard
  · intro w w' p h hg t r hr
    rcases (t.rows r).mp hr with ⟨hr, -⟩ | rfl
    · exact h r hr
    · exact t.closed_statusAgrees hg
  · intro r hr
    exact absurd hr (AutoTable.not_mem_empty r)

theorem playbooksOffered_of_rows {w : World} {c : DispatcherCall} {p : Processing}
    (hp : Begins w c p) (h : ∀ r ∈ w.deliveries.rows, r.clientId = some acme ∧
      ∀ id ∈ r.playbookAttempts.keys,
        ∃ sub ∈ p.env.listMspPlaybookSubscriptions acme r.eventType,
          sub.enabled = true ∧ sub.id = id) : PlaybooksOffered w p := by
  intro hretry id hret
  have ht := hp.turn
  cases ht.origin with
  | created hr => simp [hretry] at hr
  | claimed _ r hr _ _ hrow =>
      obtain ⟨hacme, hoffered⟩ := h r hr
      have hkey : id ∈ r.playbookAttempts.keys := by
        rw [Attempts.mem_keys_iff]
        rw [hrow] at hret
        cases hs : r.playbookAttempts.status? id with
        | none => simp [Attempts.retryable, EventDelivery.claimed, hs] at hret
        | some s => rfl
      have hclient : p.clientId = some acme := by
        rw [ht.client, hrow]
        exact hacme
      obtain ⟨sub, hsub, henabled, hid⟩ := hoffered id hkey
      refine ⟨sub, ?_, henabled, hid⟩
      simp only [Processing.subscriptions, hclient, hrow]
      exact hsub

/-- The playbook fails and is run again by the retry. -/
def reofferedRun : List DispatcherCall :=
  let failing := acmeEnv .empty (.singleton acmeSubscription) fun _ => .error "timeout"
  let working := { failing with runMspPlaybook := fun _ => .ok ⟨"7", "completed"⟩ }
  [.dispatch failing (created "k1"), .retry working 1 none "operator"]

theorem statusAgrees_reofferedRun :
    (dispatcher.run reofferedRun).deliveries.rows.map EventDelivery.status = [.completed] ∧
      ∀ r ∈ (dispatcher.run reofferedRun).deliveries, r.StatusAgrees := by
  refine ⟨by decide, statusAgrees_of_playbooksOffered reofferedRun
    ⟨fun p hp => ?_, fun p hp => ?_, trivial⟩⟩
  · apply playbooksOffered_of_rows hp
    rw [show p.env = _ from hp.uses]
    decide
  · apply playbooksOffered_of_rows hp
    rw [show p.env = _ from hp.uses]
    decide

/-- The playbook fails, its subscription is disabled, and the retry has nothing to report. -/
def disabledRun : List DispatcherCall :=
  let failing := acmeEnv .empty (.singleton acmeSubscription) fun _ => .error "timeout"
  let disabled := acmeEnv .empty (.singleton { acmeSubscription with enabled := false })
    fun _ => .error "timeout"
  [.dispatch failing (created "k1"), .retry disabled 1 none "operator"]

theorem not_statusAgrees :
    ¬ ∀ cs : List DispatcherCall, ∀ r ∈ (dispatcher.run cs).deliveries, r.StatusAgrees := by
  intro h
  have hrow : ∃ r ∈ (dispatcher.run disabledRun).deliveries.rows, r.status = .completed ∧
      r.playbookAttempts.retryable "msp-subscription-1" = true := by
    decide
  obtain ⟨r, hr, hstatus, hret⟩ := hrow
  have hnone := ((h disabledRun r hr).mp hstatus).2 "msp-subscription-1"
  rw [hret] at hnone
  simp at hnone

end WaitLocalAgent.Events
