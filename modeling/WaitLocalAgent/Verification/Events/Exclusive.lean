import WaitLocalAgent.Verification.Events.Turn

/-! # Exclusive and bounded processing

A delivery under processing is owned by the caller whose snapshot of it is the stored row. The
owner is the only one who can move the row, so ownership, the number of starts and the retry
budget stay in step in every interleaving. -/

namespace WaitLocalAgent.Events

open Foundation

/-- The status of a row that some caller may be processing. -/
def EventDelivery.InHand (r : EventDelivery) : Prop := r.status = .received ∨ r.status = .retrying

/-- What a stored row says about the starts and retries of its delivery. -/
structure RowInvariant (started : List ℕ) (r : EventDelivery) : Prop where
  starts : started.count r.id = 1 + r.retryCount
  budget : r.retryCount ≤ r.policy.maxRetries
  due : r.status = .failed → (r.nextRetryAt ≠ "" ↔ r.retryCount < r.policy.maxRetries)

structure SharedInvariant (s : Shared) : Prop where
  rows : ∀ r ∈ s.deliveries, RowInvariant s.started r
  owned : ∀ i d, s.callers i = .processing d → d ∈ s.deliveries ∧ d.InHand
  owner : ∀ i j d e, s.callers i = .processing d → s.callers j = .processing e → d.id = e.id → i = j
  stored : ∀ id ∈ s.started, ∃ r ∈ s.deliveries, r.id = id

namespace Shared

variable {s : Shared}

@[simp] theorem start_deliveries (i : ℕ) (t : DeliveryTable) (d : EventDelivery) :
    (s.start i t d).deliveries = t := rfl

@[simp] theorem start_started (i : ℕ) (t : DeliveryTable) (d : EventDelivery) :
    (s.start i t d).started = s.started ++ [d.id] := rfl

theorem start_callers {i j : ℕ} {t : DeliveryTable} {d e : EventDelivery}
    (h : (s.start i t d).callers j = .processing e) :
    (j = i ∧ e = d) ∨ (j ≠ i ∧ s.callers j = .processing e) := by
  by_cases hij : j = i
  · subst hij
    simp [start] at h
    exact .inl ⟨rfl, h.symm⟩
  · simp [start, hij] at h
    exact .inr ⟨hij, h⟩

theorem release_callers {i j : ℕ} {t : DeliveryTable} {e : EventDelivery}
    (h : (s.release i t).callers j = .processing e) :
    j ≠ i ∧ s.callers j = .processing e := by
  by_cases hij : j = i
  · subst hij
    simp [release] at h
  · simp [release, hij] at h
    exact ⟨hij, h⟩

end Shared

namespace SharedInvariant

variable {s : Shared} {i : ℕ} {t : DeliveryTable} {d : EventDelivery}

/-- A caller that takes up a delivery nobody has in hand becomes its only owner. -/
theorem start (h : SharedInvariant s)
    (hmem : ∀ r, r ∈ t ↔ (r ∈ s.deliveries ∧ r.id ≠ d.id) ∨ r = d) (hhand : d.InHand)
    (hfree : ∀ r ∈ s.deliveries, r.id = d.id → ¬ r.InHand)
    (hrow : RowInvariant (s.started ++ [d.id]) d) : SharedInvariant (s.start i t d) := by
  have hd : d ∈ t := (hmem d).mpr (.inr rfl)
  have hother : ∀ j e, s.callers j = .processing e → e.id ≠ d.id := by
    intro j e hj hid
    obtain ⟨he, hhand'⟩ := h.owned j e hj
    exact hfree e he hid hhand'
  refine ⟨?_, ?_, ?_, ?_⟩
  · intro r hr
    rcases (hmem r).mp hr with ⟨hr, hne⟩ | rfl
    · obtain ⟨hstarts, hbudget, hdue⟩ := h.rows r hr
      refine ⟨?_, hbudget, hdue⟩
      simpa [List.count_append, List.count_singleton, hne.symm] using hstarts
    · exact hrow
  · intro j e hj
    rcases Shared.start_callers hj with ⟨rfl, rfl⟩ | ⟨-, hj⟩
    · exact ⟨hd, hhand⟩
    · obtain ⟨he, hhand'⟩ := h.owned j e hj
      exact ⟨(hmem e).mpr (.inl ⟨he, hother j e hj⟩), hhand'⟩
  · intro j k e f hj hk hid
    rcases Shared.start_callers hj with ⟨hji, he⟩ | ⟨-, hj'⟩ <;>
      rcases Shared.start_callers hk with ⟨hki, hf⟩ | ⟨-, hk'⟩
    · rw [hji, hki]
    · rw [he] at hid
      exact absurd hid.symm (hother k f hk')
    · rw [hf] at hid
      exact absurd hid (hother j e hj')
    · exact h.owner j k e f hj' hk' hid
  · intro id hid
    rcases List.mem_append.mp hid with hid | hid
    · obtain ⟨r, hr, rfl⟩ := h.stored id hid
      by_cases hrd : r.id = d.id
      · exact ⟨d, hd, hrd.symm⟩
      · exact ⟨r, (hmem r).mpr (.inl ⟨hr, hrd⟩), rfl⟩
    · exact ⟨d, hd, (List.mem_singleton.mp hid).symm⟩

theorem abandon (h : SharedInvariant s) : SharedInvariant (s.release i s.deliveries) := by
  refine ⟨h.rows, ?_, ?_, h.stored⟩
  · intro j e hj
    exact h.owned j e (Shared.release_callers hj).2
  · intro j k e f hj hk hid
    exact h.owner j k e f (Shared.release_callers hj).2 (Shared.release_callers hk).2 hid

/-- A delivery is created in hand, with its first start and no retry. -/
theorem create (h : SharedInvariant s) {new : DeliveryTable.NewDelivery}
    (hins : s.deliveries.insertOrIgnore new = (t, d, true)) : SharedInvariant (s.start i t d) := by
  have hcreated := @DeliveryTable.insertOrIgnore_created s.deliveries new (by rw [hins])
  have hmem := fun r => @DeliveryTable.mem_insertOrIgnore s.deliveries new r
  rw [hins] at hcreated hmem
  obtain ⟨hrow, hfresh, -⟩ := hcreated
  simp only at hrow hmem
  have hid : d.id = s.deliveries.table.lastKey + 1 := by rw [hrow]; rfl
  have hne : ∀ r ∈ s.deliveries, r.id ≠ d.id := by
    intro r hr
    rw [hid]
    exact hfresh r hr
  have hnone : s.started.count d.id = 0 := by
    rw [List.count_eq_zero]
    intro hin
    obtain ⟨r, hr, hrid⟩ := h.stored d.id hin
    exact hne r hr hrid
  apply h.start
  · intro r
    rw [hmem]
    constructor
    · rintro (hr | rfl)
      · exact .inl ⟨hr, hne r hr⟩
      · exact .inr rfl
    · rintro (hr | rfl)
      · exact .inl hr.1
      · exact .inr rfl
  · left
    rw [hrow]
    rfl
  · intro r hr hrid
    exact absurd hrid (hne r hr)
  · refine ⟨?_, ?_, ?_⟩
    · rw [List.count_append, hnone, hrow]
      simp [DeliveryTable.NewDelivery.row]
    · rw [hrow]
      exact Nat.zero_le _
    · rw [hrow]
      intro hstatus
      simp [DeliveryTable.NewDelivery.row] at hstatus

/-- A claim spends one retry of a failed delivery, which nobody has in hand. -/
theorem claim (h : SharedInvariant s) {deliveryId : ℕ} {scope : Option ClientId}
    (hclaim : claimEventDeliveryRetry s.deliveries deliveryId scope = .ok (t, d)) :
    SharedInvariant (s.start i t d) := by
  obtain ⟨r, hr, rfl, -, hstatus, hcount, rfl, rfl⟩ := claimEventDeliveryRetry_eq_ok hclaim
  obtain ⟨hstarts, hbudget, -⟩ := h.rows r hr
  apply h.start
  · exact DeliveryTable.mem_updateRow hr rfl
  · right
    rfl
  · intro q hq hid hhand
    have hqr : q = r := DeliveryTable.eq_of_id_eq hq hr hid
    rcases hhand with hhand | hhand <;> rw [hqr, hstatus] at hhand <;> simp at hhand
  · refine ⟨?_, ?_, ?_⟩
    · rw [List.count_append]
      change s.started.count r.id + List.count r.id [r.id] = 1 + (r.retryCount + 1)
      simp [hstarts]
      omega
    · exact hcount
    · intro hretrying
      simp [EventDelivery.claimed] at hretrying

/-- The due time that the final update stores is empty exactly when the budget is spent. -/
theorem assign_due (env : DispatchEnv) (report : PassReport) (d : EventDelivery) :
    ((report.update env.clock d).assign env.redact env.clock.now d).status = .failed →
      (((report.update env.clock d).assign env.redact env.clock.now d).nextRetryAt ≠ "" ↔
        d.retryCount < d.policy.maxRetries) := by
  intro hstatus
  change (if report.errors = [] then DeliveryStatus.completed else .failed) = .failed at hstatus
  change (if (if report.errors = [] then DeliveryStatus.completed else .failed) = .failed ∧
    d.retryCount < d.policy.maxRetries then _ else _) ≠ "" ↔ _
  by_cases hcount : d.retryCount < d.policy.maxRetries
  · rw [if_pos ⟨hstatus, hcount⟩]
    exact iff_of_true (env.clock.after_ne _) hcount
  · rw [if_neg fun hc => hcount hc.2]
    simp [hcount]

/-- The owner's final update lets the delivery go. -/
theorem finish (h : SharedInvariant s) (howner : s.callers i = .processing d) (env : DispatchEnv)
    (report : PassReport) :
    SharedInvariant (s.release i (s.deliveries.updateRow d.id
      ((report.update env.clock d).assign env.redact env.clock.now)
      (DeliveryUpdate.assign_id _ _ _) (DeliveryUpdate.assign_idempotencyKey _ _ _))) := by
  have hd := (h.owned i d howner).1
  have hmem := @DeliveryTable.mem_updateRow s.deliveries d.id _
    (DeliveryUpdate.assign_id env.redact env.clock.now (report.update env.clock d))
    (DeliveryUpdate.assign_idempotencyKey env.redact env.clock.now (report.update env.clock d))
    d hd rfl
  obtain ⟨hstarts, hbudget, -⟩ := h.rows d hd
  refine ⟨?_, ?_, ?_, ?_⟩
  · intro r hr
    rcases (hmem r).mp hr with ⟨hr, -⟩ | rfl
    · exact h.rows r hr
    · exact ⟨hstarts, hbudget, assign_due env report d⟩
  · intro j e hj
    obtain ⟨hji, hj⟩ := Shared.release_callers hj
    obtain ⟨he, hhand⟩ := h.owned j e hj
    refine ⟨(hmem e).mpr (.inl ⟨he, ?_⟩), hhand⟩
    intro hid
    exact hji (h.owner j i e d hj howner hid)
  · intro j k e f hj hk hid
    exact h.owner j k e f (Shared.release_callers hj).2 (Shared.release_callers hk).2 hid
  · intro id hid
    obtain ⟨r, hr, hrid⟩ := h.stored id hid
    by_cases hrd : r.id = d.id
    · exact ⟨_, (hmem _).mpr (.inr rfl), hrd.symm.trans hrid⟩
    · exact ⟨r, (hmem r).mpr (.inl ⟨hr, hrd⟩), hrid⟩

/-- The step lemma: one committed store call of any caller keeps the invariant. -/
theorem step (h : SharedInvariant s) (c : StoreCall) : SharedInvariant (s.step c) := by
  cases c with
  | create caller env request clientId =>
      simp only [Shared.step]
      cases hs : s.callers caller with
      | processing d => exact h
      | idle =>
          simp only
          split
          · rename_i hcreate
            obtain ⟨new, -, -, -, -, hins⟩ := createEventDelivery_created hcreate
            exact h.create hins
          · rename_i t d hcreate
            obtain ⟨new, -, -, -, -, hins⟩ := createEventDelivery_created hcreate
            have hsame := DeliveryTable.insertOrIgnore_duplicate (by rw [hins])
            rw [hins] at hsame
            simp only at hsame
            rw [hsame]
            exact h
          · exact h
  | claim caller deliveryId scope =>
      simp only [Shared.step]
      cases hs : s.callers caller with
      | processing d => exact h
      | idle =>
          simp only
          split
          · rename_i hclaim
            exact h.claim hclaim
          · exact h
  | finish caller env report =>
      simp only [Shared.step]
      cases howner : s.callers caller with
      | idle => exact h
      | processing d =>
          simp only [updateEventDelivery_of_mem (h.owned caller d howner).1]
          exact h.finish howner env report
  | abandon caller => exact h.abandon

theorem init : SharedInvariant callers.init := by
  refine ⟨?_, ?_, ?_, ?_⟩
  · intro r hr
    exact absurd hr (AutoTable.not_mem_empty r)
  · intro i d h
    simp [callers] at h
  · intro i j d e h
    simp [callers] at h
  · intro id h
    simp [callers] at h

theorem run (cs : List StoreCall) : SharedInvariant (callers.run cs) :=
  Machine.run_invariant init (fun _ c h => h.step c) cs

end SharedInvariant

/-- What the store and its callers guarantee about every delivery. -/
structure Exclusive (s : Shared) : Prop where
  /-- At most one caller is processing a delivery. -/
  oneOwner : ∀ i j d e, s.callers i = .processing d → s.callers j = .processing e →
    d.id = e.id → i = j
  stored : ∀ id ∈ s.started, ∃ r ∈ s.deliveries, r.id = id
  /-- Processing starts at most once, and once more for each retry. -/
  starts_le : ∀ r ∈ s.deliveries, s.started.count r.id ≤ 1 + r.policy.maxRetries
  retryCount_le : ∀ r ∈ s.deliveries, r.retryCount ≤ r.policy.maxRetries
  due : ∀ r ∈ s.deliveries, r.status = .failed →
    (r.nextRetryAt ≠ "" ↔ r.retryCount < r.policy.maxRetries)

/-- Every interleaving of dispatches, retries and retry workers keeps processing exclusive and
within the retry budget. -/
theorem exclusive_run (cs : List StoreCall) : Exclusive (callers.run cs) := by
  have h := SharedInvariant.run cs
  refine ⟨h.owner, h.stored, ?_, fun r hr => (h.rows r hr).budget, fun r hr => (h.rows r hr).due⟩
  intro r hr
  have hstarts := (h.rows r hr).starts
  have hbudget := (h.rows r hr).budget
  omega

end WaitLocalAgent.Events
