import WaitLocalAgent.Verification.Approvals.Execution

/-! # Decisions under concurrency

A call acts on the row that it has selected, which may have been decided since. Decisions stand,
and the linked runs agree with them, exactly as long as no such call goes through. -/

namespace WaitLocalAgent.Approvals

open Foundation

variable {rt : Runtime} {s s' s'' : Store} {row row' stored : ApprovalRequest} {k : ℕ}
  {context : CallContext}

/-- A decided request keeps its status and payload, and the linked runs agree with it. -/
structure Final (k : ℕ) (s s' : Store) : Prop where
  decided : ∀ row, s.requests.find? k = some row → row.status ≠ .pending →
    ∃ row', s'.requests.find? k = some row' ∧ row'.status = row.status ∧
      row'.payload = row.payload
  agrees : Agrees k s'

theorem Final.refl (hagrees : Agrees k s) : Final k s s :=
  ⟨fun row hrow _ => ⟨row, hrow, rfl, rfl⟩, hagrees⟩

theorem Final.trans (h : Final k s s') (h' : Final k s' s'') : Final k s s'' where
  decided row hrow hdecided := by
    obtain ⟨row', hrow', hstatus, hpayload⟩ := h.decided row hrow hdecided
    rw [← hstatus] at hdecided
    obtain ⟨row'', hrow'', hstatus', hpayload'⟩ := h'.decided row' hrow' hdecided
    exact ⟨row'', hrow'', hstatus'.trans hstatus, hpayload'.trans hpayload⟩
  agrees := h'.agrees

/-! ## Rows that are overtaken -/

/-- A call that finds its row pending, in time and off quarantine. -/
structure Proceeds (rt : Runtime) (row : ApprovalRequest) (context : CallContext) : Prop where
  pending : row.status = .pending
  inTime : row.isDue rt.calendar context.expiry.checkedAt = false
  unquarantined : requireNotQuarantined context.tenancy (ticketIdFromPayload row.payload) = .ok ()

instance (rt : Runtime) (row : ApprovalRequest) (context : CallContext) :
    Decidable (Proceeds rt row context) :=
  decidable_of_iff (row.status = .pending ∧
      row.isDue rt.calendar context.expiry.checkedAt = false ∧
      requireNotQuarantined context.tenancy (ticketIdFromPayload row.payload) = .ok ())
    ⟨fun h => ⟨h.1, h.2.1, h.2.2⟩, fun h => ⟨h.pending, h.inTime, h.unquarantined⟩⟩

def Linked (k : ℕ) (s : Store) : Prop := ∃ run ∈ s.workflowRuns, run.approvalRequestId = some k

/-- A call that acts on a row which was decided since does what has been done already. An update
asks for the stored status and an edit brings the stored payload; a claim or a read that finds the
row overdue does not find it approved with a linked run. -/
def Timely (rt : Runtime) (k : ℕ) (s : Store) (row stored : ApprovalRequest)
    (context : CallContext) : RequestCall → Prop
  | .update status _ _ smartActionCapability =>
      Proceeds rt row context → (row.isSmartAction → smartActionCapability) →
        ∀ requested, requestedStatus? status = some requested → stored.status = requested
  | .edit payload _ => Proceeds rt row context → stored.payload = rt.redactValue payload
  | .claim =>
      row.isDue rt.calendar context.expiry.checkedAt →
        requireNotQuarantined context.tenancy (ticketIdFromPayload row.payload) = .ok () →
          stored.status = .approved → ¬ Linked k s
  | .read =>
      row.isDue rt.calendar context.expiry.checkedAt → stored.status = .approved →
        ¬ Linked k s

/-- No call goes through on a row that was decided after it was selected, unless it is timely. -/
def Desk.NotOvertaken {W : Type} (desk : Desk) (p : Callers W) : CallerStep W → Prop
  | .select _ _ => True
  | .finish w context => ∀ call row stored, p.selected w = some (call, row) →
      p.store.requests.find? desk.requestId = some stored → stored.status ≠ .pending →
        Timely desk.runtime desk.requestId p.store row stored context call

/-! ## What a commit leaves behind -/

/-- Settling the linked runs makes them agree exactly if it sets the status of the request. -/
theorem agrees_settle_iff {status now : String} (hrow' : s'.requests.find? k = some row')
    (hruns : s'.workflowRuns = (s.settleWorkflowRuns k status now).workflowRuns) :
    Agrees k s' ↔ (Linked k s → status = linkedStatus row'.status) := by
  constructor
  · rintro hagrees ⟨run, hmem, hlinked⟩
    refine hagrees row' hrow' (run.become status now) ?_ hlinked
    rw [hruns]
    refine AutoTable.mem_update.mpr ⟨run, hmem, ?_⟩
    simp [hlinked]
  · intro hstatus row₁ hrow₁ run hmem hlinked
    rw [hrow', Option.some.injEq] at hrow₁
    subst hrow₁
    rw [hruns] at hmem
    obtain ⟨run₀, hmem₀, rfl⟩ := AutoTable.mem_update.mp hmem
    by_cases hmatch : (run₀.approvalRequestId == some k) = true
    · rw [if_pos hmatch]
      exact hstatus ⟨run₀, hmem₀, beq_iff_eq.mp hmatch⟩
    · rw [if_neg hmatch] at hlinked
      exact absurd (beq_iff_eq.mpr hlinked) hmatch

theorem agrees_of_runs_eq (hagrees : Agrees k s) (hstored : s.requests.find? k = some stored)
    (hrow' : s'.requests.find? k = some row') (hruns : s'.workflowRuns = s.workflowRuns)
    (hstatus : row'.status = stored.status) : Agrees k s' := by
  intro row₁ hrow₁ run hmem hlinked
  rw [hrow', Option.some.injEq] at hrow₁
  rw [hruns] at hmem
  rw [← hrow₁, hstatus]
  exact hagrees stored hstored run hmem hlinked

theorem final_iff (hstored : s.requests.find? k = some stored)
    (hrow' : s'.requests.find? k = some row') : Final k s s' ↔
      (stored.status ≠ .pending → row'.status = stored.status ∧ row'.payload = stored.payload) ∧
        Agrees k s' := by
  constructor
  · intro h
    refine ⟨?_, h.agrees⟩
    intro hdecided
    obtain ⟨row₁, hrow₁, hsame⟩ := h.decided stored hstored hdecided
    rw [hrow', Option.some.injEq] at hrow₁
    rwa [← hrow₁] at hsame
  · rintro ⟨hsame, hagrees⟩
    refine ⟨?_, hagrees⟩
    intro row₁ hrow₁ hdecided
    rw [hstored, Option.some.injEq] at hrow₁
    rw [← hrow₁] at hdecided ⊢
    exact ⟨row', hrow', hsame hdecided⟩

/-! ## Expiry of a row that was selected before -/

theorem expireApprovalRequest_of_not_due {clock : ExpiryClock}
    (hdue : row.isDue rt.calendar clock.checkedAt = false) :
    expireApprovalRequest rt s row clock = (row, s) := by
  simp [expireApprovalRequest, hdue]

/-- The row after the expiry of an overdue one. -/
structure Expired (rt : Runtime) (k : ℕ) (s : Store) (row stored : ApprovalRequest)
    (clock : ExpiryClock) : Prop where
  find? : (expireApprovalRequest rt s row clock).2.requests.find? k =
    some (expireApprovalRequest rt s row clock).1
  pending : stored.status = .pending → (expireApprovalRequest rt s row clock).1.status = .expired
  decided : stored.status ≠ .pending → (expireApprovalRequest rt s row clock).1 = stored
  runs : ∃ now, (expireApprovalRequest rt s row clock).2.workflowRuns =
    (s.settleWorkflowRuns k "rejected" now).workflowRuns

theorem expireApprovalRequest_of_due {clock : ExpiryClock}
    (hdue : row.isDue rt.calendar clock.checkedAt = true) (hid : row.id = k)
    (hstored : s.requests.find? k = some stored) : Expired rt k s row stored clock := by
  have hfind : (expireApprovalRequest rt s row clock).2.requests.find? k =
      some (if stored.status = .pending then stored.expire (rt.text clock.expiredAt)
        else stored) := by
    rw [expireApprovalRequest_requests, AutoTable.find?_update, hstored]
    simp [hdue, hid, find?_eq_some_id hstored]
  have hsame : (expireApprovalRequest rt s row clock).2.requests.find? k =
      some (expireApprovalRequest rt s row clock).1 := by
    simp only [expireApprovalRequest, hdue, Bool.not_true, Bool.false_eq_true, if_false, hid,
      AutoTable.find?_update, hstored, Option.map_some, Option.getD_some]
  have hrow := hsame.symm.trans hfind
  rw [Option.some.injEq] at hrow
  refine ⟨hsame, ?_, ?_, rt.text clock.expiredAt, ?_⟩
  · intro hpending
    rw [hrow, if_pos hpending]
    rfl
  · intro hdecided
    rw [hrow, if_neg hdecided]
  · simp [expireApprovalRequest, hdue, hid, Store.settleWorkflowRuns]

/-- A commit after the expiry of an overdue row is final exactly if the request is not approved
with a linked run. -/
theorem Expired.final_iff (h : Expired rt k s row stored context.expiry)
    (hstored : s.requests.find? k = some stored)
    (hrow' : s'.requests.find? k = some row')
    (hstatus : row'.status = (expireApprovalRequest rt s row context.expiry).1.status)
    (hpayload : row'.payload = (expireApprovalRequest rt s row context.expiry).1.payload)
    (hruns : s'.workflowRuns = (expireApprovalRequest rt s row context.expiry).2.workflowRuns) :
    Final k s s' ↔ (stored.status = .approved → ¬ Linked k s) := by
  obtain ⟨now, hsettled⟩ := h.runs
  rw [Approvals.final_iff hstored hrow', agrees_settle_iff hrow' (hruns.trans hsettled), hstatus,
    hpayload]
  by_cases hpending : stored.status = .pending
  · rw [h.pending hpending, hpending]
    simp [linkedStatus]
  · rw [h.decided hpending]
    cases hdecided : stored.status with
    | pending => exact absurd hdecided hpending
    | approved => simp [linkedStatus]
    | rejected => simp [linkedStatus]
    | expired => simp [linkedStatus]

/-- The row that expiry returns is still pending only if the selected one was, and in time. -/
theorem not_due_of_pending {clock : ExpiryClock} (hid : row.id = k)
    (hstored : s.requests.find? k = some stored)
    (hpending : (expireApprovalRequest rt s row clock).1.status = .pending) :
    row.status = .pending ∧ row.isDue rt.calendar clock.checkedAt = false := by
  cases hdue : row.isDue rt.calendar clock.checkedAt with
  | false =>
      rw [expireApprovalRequest_of_not_due hdue] at hpending
      exact ⟨hpending, rfl⟩
  | true =>
      have h := expireApprovalRequest_of_due hdue hid hstored
      by_cases hopen : stored.status = .pending
      · rw [h.pending hopen] at hpending
        cases hpending
      · rw [h.decided hopen] at hpending
        exact absurd hpending hopen

/-! ## Decisions -/

/-- The store after a decision that goes through. -/
def Store.decided (rt : Runtime) (s : Store) (update : UpdateRequest) (status : ApprovalStatus)
    (context : CallContext) : Store :=
  let now := rt.text context.now
  { s.settleWorkflowRuns update.requestId (workflowStatusForApproval status) now with
    requests := s.requests.update (fun r => r.id == update.requestId)
      (ApprovalRequest.settle status (rt.redactText update.comment) now update.approverId)
      (ApprovalRequest.settle_id status (rt.redactText update.comment) now update.approverId) }

theorem workflowStatusForApproval_eq {status : String} {requested : ApprovalStatus}
    (h : requestedStatus? status = some requested) :
    workflowStatusForApproval requested = linkedStatus requested := by
  unfold requestedStatus? at h
  split at h
  · cases h
    rfl
  · cases h
    rfl
  · cases h
    rfl
  · cases h

theorem decideSelected_eq_ok {update : UpdateRequest} (hallow : update.allowCompleted = false)
    (hid : row.id = k) (hstored : s.requests.find? k = some stored) :
    decideSelected rt s row update context = .ok s' ↔ Proceeds rt row context ∧
      (row.isSmartAction → update.smartActionCapability) ∧
      ∃ requested, requestedStatus? update.status = some requested ∧
        s' = s.decided rt update requested context := by
  constructor
  · intro h
    simp only [decideSelected, bind_eq_ok, raiseIf_eq_ok, not_and, Bool.not_eq_true',
      Bool.not_eq_false] at h
    obtain ⟨_, hquarantine, _, hcapability, h⟩ := h
    split at h
    · cases h
    · rename_i requested hrequested
      simp only [bind_eq_ok, raiseIf_eq_ok, hallow, and_true, ne_eq, not_not, pure_eq_ok] at h
      obtain ⟨-, -, -, hpending, rfl⟩ := h
      obtain ⟨hrow, hdue⟩ := not_due_of_pending hid hstored hpending
      rw [expireApprovalRequest_of_not_due hdue] at hcapability ⊢
      exact ⟨⟨hrow, hdue, hquarantine⟩, hcapability, requested, hrequested, rfl⟩
  · rintro ⟨⟨hrow, hdue, hquarantine⟩, hcapability, requested, hrequested, rfl⟩
    have hexpire : expireApprovalRequest rt s row context.expiry = (row, s) :=
      expireApprovalRequest_of_not_due hdue
    have hcapable : ¬ (row.isSmartAction = true ∧ (!update.smartActionCapability) = true) := by
      rintro ⟨hsmart, hnot⟩
      rw [hcapability hsmart] at hnot
      cases hnot
    simp only [decideSelected, hquarantine, hexpire, ok_bind, raiseIf_of_not hcapable, hrequested,
      hrow]
    simp [raiseIf, hallow, Store.decided, ok_bind, pure, Except.pure]

theorem find?_decided {update : UpdateRequest} {status : ApprovalStatus}
    (hstored : s.requests.find? update.requestId = some stored) :
    (s.decided rt update status context).requests.find? update.requestId =
      some (stored.settle status (rt.redactText update.comment) (rt.text context.now)
        update.approverId) := by
  have hid : (stored.id == update.requestId) = true := beq_iff_eq.mpr (find?_eq_some_id hstored)
  rw [Store.decided, AutoTable.find?_update, hstored, Option.map_some, if_pos hid]

/-- A decision is final exactly if it does not overwrite another one. -/
theorem decideSelected_final_iff (update : UpdateRequest) (hallow : update.allowCompleted = false)
    (hid : row.id = update.requestId)
    (hstored : s.requests.find? update.requestId = some stored)
    (hagrees : Agrees update.requestId s) :
    Final update.requestId s (committed s (decideSelected rt s row update context)) ↔
      (stored.status ≠ .pending → Proceeds rt row context →
        (row.isSmartAction → update.smartActionCapability) →
          ∀ requested, requestedStatus? update.status = some requested →
            stored.status = requested) := by
  cases hdecide : decideSelected rt s row update context with
  | error e =>
      refine iff_of_true (Final.refl hagrees) ?_
      intro _ hproceeds hcapability requested hrequested
      have hok := (decideSelected_eq_ok hallow hid hstored).mpr
        ⟨hproceeds, hcapability, requested, hrequested, rfl⟩
      rw [hdecide] at hok
      cases hok
  | ok s' =>
      obtain ⟨hproceeds, hcapability, requested, hrequested, rfl⟩ :=
        (decideSelected_eq_ok hallow hid hstored).mp hdecide
      have hfind : (s.decided rt update requested context).requests.find? update.requestId = _ :=
        find?_decided hstored
      have hagrees' : Agrees update.requestId (s.decided rt update requested context) :=
        (agrees_settle_iff hfind rfl).mpr fun _ => workflowStatusForApproval_eq hrequested
      rw [committed, final_iff hstored hfind]
      constructor
      · rintro ⟨hsame, -⟩ hdecided _ _ requested' hrequested'
        rw [hrequested, Option.some.injEq] at hrequested'
        rw [← (hsame hdecided).1, ← hrequested']
        rfl
      · intro hsame
        refine ⟨?_, hagrees'⟩
        intro hdecided
        exact ⟨(hsame hdecided hproceeds hcapability requested hrequested).symm, rfl⟩

/-! ## Edits -/

/-- The store after an edit that goes through. -/
def Store.edited (rt : Runtime) (s : Store) (edit : PayloadRequest) (context : CallContext) :
    Store :=
  let payload := rt.redactValue edit.payload
  let comment := rt.redactText edit.comment
  let now := rt.text context.now
  { s with
    requests := s.requests.update (fun r => r.id == edit.requestId)
      (ApprovalRequest.edit payload comment now) (ApprovalRequest.edit_id payload comment now) }

theorem editSelected_eq_ok {edit : PayloadRequest} (hid : row.id = edit.requestId)
    (hstored : s.requests.find? edit.requestId = some stored) :
    editSelected rt s row edit context = .ok s' ↔
      Proceeds rt row context ∧ s' = s.edited rt edit context := by
  constructor
  · intro h
    simp only [editSelected, bind_eq_ok, raiseIf_eq_ok, ne_eq, not_not, pure_eq_ok] at h
    obtain ⟨_, hquarantine, _, -, _, hpending, rfl⟩ := h
    obtain ⟨hrow, hdue⟩ := not_due_of_pending hid hstored hpending
    rw [expireApprovalRequest_of_not_due hdue]
    exact ⟨⟨hrow, hdue, hquarantine⟩, rfl⟩
  · rintro ⟨⟨hrow, hdue, hquarantine⟩, rfl⟩
    simp only [editSelected, hquarantine, expireApprovalRequest_of_not_due hdue, ok_bind, hrow]
    simp [raiseIf, Store.edited, ok_bind, pure, Except.pure]

theorem find?_edited {edit : PayloadRequest}
    (hstored : s.requests.find? edit.requestId = some stored) :
    (s.edited rt edit context).requests.find? edit.requestId =
      some (stored.edit (rt.redactValue edit.payload) (rt.redactText edit.comment)
        (rt.text context.now)) := by
  have hid : (stored.id == edit.requestId) = true := beq_iff_eq.mpr (find?_eq_some_id hstored)
  rw [Store.edited, AutoTable.find?_update, hstored, Option.map_some, if_pos hid]

/-- An edit is final exactly if it leaves the payload of a decided request as it is. -/
theorem editSelected_final_iff (edit : PayloadRequest) (hid : row.id = edit.requestId)
    (hstored : s.requests.find? edit.requestId = some stored)
    (hagrees : Agrees edit.requestId s) :
    Final edit.requestId s (committed s (editSelected rt s row edit context)) ↔
      (stored.status ≠ .pending → Proceeds rt row context →
        stored.payload = rt.redactValue edit.payload) := by
  cases hedit : editSelected rt s row edit context with
  | error e =>
      refine iff_of_true (Final.refl hagrees) ?_
      intro _ hproceeds
      have hok := (editSelected_eq_ok hid hstored).mpr ⟨hproceeds, rfl⟩
      rw [hedit] at hok
      cases hok
  | ok s' =>
      obtain ⟨hproceeds, rfl⟩ := (editSelected_eq_ok hid hstored).mp hedit
      have hfind : (s.edited rt edit context).requests.find? edit.requestId = _ :=
        find?_edited hstored
      have hagrees' : Agrees edit.requestId (s.edited rt edit context) :=
        agrees_of_runs_eq hagrees hstored hfind rfl rfl
      rw [committed, final_iff hstored hfind]
      constructor
      · rintro ⟨hsame, -⟩ hdecided _
        exact (hsame hdecided).2.symm
      · intro hsame
        refine ⟨?_, hagrees'⟩
        intro hdecided
        exact ⟨rfl, (hsame hdecided hproceeds).symm⟩

/-! ## Claims and reads -/

theorem execute_running_id (rt : Runtime) (context : CallContext) (row : ApprovalRequest) :
    (row.execute "running" "" "" ∅ (rt.text context.now)).id = row.id := rfl

/-- The store after the guarded update of a claim. -/
def Store.claimed (rt : Runtime) (s : Store) (k : ℕ) (context : CallContext) : Store :=
  { s with
    requests := s.requests.update (ApprovalRequest.isClaimable k)
      (ApprovalRequest.execute "running" "" "" ∅ (rt.text context.now))
      (execute_running_id rt context) }

theorem find?_claimed (rt : Runtime) (context : CallContext)
    (hrow : s.requests.find? k = some row) : ∃ row',
      (s.claimed rt k context).requests.find? k = some row' ∧ row'.status = row.status ∧
        row'.payload = row.payload := by
  rw [Store.claimed, AutoTable.find?_update, hrow, Option.map_some]
  refine ⟨_, rfl, ?_, ?_⟩
  · split
    · rfl
    · rfl
  · split
    · rfl
    · rfl

theorem committed_claimSelected : committed s ((claimSelected rt s row k context).map Prod.snd) =
    if requireNotQuarantined context.tenancy (ticketIdFromPayload row.payload) = .ok () ∧
        (expireApprovalRequest rt s row context.expiry).1.status ≠ .expired then
      (expireApprovalRequest rt s row context.expiry).2.claimed rt k context
    else s := by
  cases hquarantine : requireNotQuarantined context.tenancy (ticketIdFromPayload row.payload) with
  | error e => simp [claimSelected, hquarantine, bind, Except.bind, Except.map, committed]
  | ok u =>
      by_cases hexpired : (expireApprovalRequest rt s row context.expiry).1.status = .expired
      · simp [claimSelected, hquarantine, hexpired, raiseIf, bind, Except.bind, Except.map,
          committed]
      · simp [claimSelected, hquarantine, hexpired, raiseIf, bind, Except.bind, pure, Except.pure,
          Except.map, committed, Store.claimed]

/-- A claim is final exactly if it does not reject the runs of an approved request. -/
theorem claimSelected_final_iff (hid : row.id = k) (hstored : s.requests.find? k = some stored)
    (hagrees : Agrees k s) :
    Final k s (committed s ((claimSelected rt s row k context).map Prod.snd)) ↔
      (stored.status ≠ .pending → row.isDue rt.calendar context.expiry.checkedAt →
        requireNotQuarantined context.tenancy (ticketIdFromPayload row.payload) = .ok () →
          stored.status = .approved → ¬ Linked k s) := by
  rw [committed_claimSelected]
  by_cases hdue : row.isDue rt.calendar context.expiry.checkedAt = true
  · have h := expireApprovalRequest_of_due hdue hid hstored
    split
    · rename_i hcommits
      obtain ⟨hquarantine, hexpired⟩ := hcommits
      obtain ⟨row', hrow', hstatus, hpayload⟩ :=
        find?_claimed rt context h.find?
      rw [h.final_iff hstored hrow' hstatus hpayload rfl]
      constructor
      · intro hfinal _ _ _
        exact hfinal
      · intro htimely happroved
        refine htimely ?_ hdue hquarantine happroved
        rw [happroved]
        decide
    · rename_i hraises
      refine iff_of_true (Final.refl hagrees) ?_
      intro hdecided _ hquarantine happroved
      refine absurd ⟨hquarantine, ?_⟩ hraises
      rw [h.decided hdecided, happroved]
      decide
  · refine iff_of_true ?_ fun _ h => absurd h hdue
    rw [expireApprovalRequest_of_not_due (Bool.not_eq_true _ ▸ hdue)]
    split
    · obtain ⟨row', hrow', hstatus, hpayload⟩ :=
        find?_claimed rt context hstored
      exact (final_iff hstored hrow').mpr ⟨fun _ => ⟨hstatus, hpayload⟩,
        agrees_of_runs_eq hagrees hstored hrow' rfl hstatus⟩
    · exact Final.refl hagrees

/-- A read is final exactly if it does not reject the runs of an approved request. -/
theorem expireApprovalRequest_final_iff (hid : row.id = k)
    (hstored : s.requests.find? k = some stored) (hagrees : Agrees k s) :
    Final k s (expireApprovalRequest rt s row context.expiry).2 ↔
      (stored.status ≠ .pending → row.isDue rt.calendar context.expiry.checkedAt →
        stored.status = .approved → ¬ Linked k s) := by
  by_cases hdue : row.isDue rt.calendar context.expiry.checkedAt = true
  · have h := expireApprovalRequest_of_due hdue hid hstored
    rw [h.final_iff hstored h.find? rfl rfl rfl]
    constructor
    · intro hfinal _ _
      exact hfinal
    · intro htimely happroved
      refine htimely ?_ hdue happroved
      rw [happroved]
      decide
  · refine iff_of_true ?_ fun _ h => absurd h hdue
    rw [expireApprovalRequest_of_not_due (Bool.not_eq_true _ ▸ hdue)]
    exact Final.refl hagrees

/-! ## Runs -/

section Runs

variable {W : Type} {desk : Desk} {p : Callers W}

/-- Every row under way is that of the request, which is stored. -/
def Desk.OnRequest (desk : Desk) (p : Callers W) : Prop :=
  ∀ w call row, p.selected w = some (call, row) → row.id = desk.requestId ∧
    ∃ stored, p.store.requests.find? desk.requestId = some stored

/-- A call is final exactly if it is timely whenever the request was decided before. -/
theorem finish_final_iff (call : RequestCall) (hid : row.id = k)
    (hstored : s.requests.find? k = some stored) (hagrees : Agrees k s) :
    Final k s (call.finish rt k s row context) ↔
      (stored.status ≠ .pending → Timely rt k s row stored context call) := by
  cases call with
  | update status comment approverId smartActionCapability =>
      exact decideSelected_final_iff
        ⟨k, status, comment, approverId, false, smartActionCapability⟩ rfl hid hstored hagrees
  | edit payload comment => exact editSelected_final_iff ⟨k, payload, comment⟩ hid hstored hagrees
  | claim => exact claimSelected_final_iff hid hstored hagrees
  | read => exact expireApprovalRequest_final_iff hid hstored hagrees

theorem finish_stored (call : RequestCall) (hid : row.id = k)
    (hstored : s.requests.find? k = some stored) :
    ∃ stored', (call.finish rt k s row context).requests.find? k = some stored' := by
  have hexpire : ∃ stored',
      (expireApprovalRequest rt s row context.expiry).2.requests.find? k = some stored' := by
    rw [expireApprovalRequest_requests, AutoTable.find?_update, hstored]
    exact ⟨_, rfl⟩
  cases call with
  | update status comment approverId smartActionCapability =>
      rw [RequestCall.finish]
      cases hdecide : decideSelected rt s row
          ⟨k, status, comment, approverId, false, smartActionCapability⟩ context with
      | error e => exact ⟨stored, hstored⟩
      | ok s' =>
          obtain ⟨-, -, requested, -, rfl⟩ :=
            (decideSelected_eq_ok rfl hid hstored).mp hdecide
          exact ⟨_, find?_decided hstored⟩
  | edit payload comment =>
      rw [RequestCall.finish]
      cases hedit : editSelected rt s row ⟨k, payload, comment⟩ context with
      | error e => exact ⟨stored, hstored⟩
      | ok s' =>
          obtain ⟨-, rfl⟩ := (editSelected_eq_ok hid hstored).mp hedit
          exact ⟨_, find?_edited hstored⟩
  | claim =>
      rw [RequestCall.finish, committed_claimSelected]
      split
      · obtain ⟨stored', hstored'⟩ := hexpire
        obtain ⟨row', hrow', -⟩ := find?_claimed rt context hstored'
        exact ⟨row', hrow'⟩
      · exact ⟨stored, hstored⟩
  | read => exact hexpire

variable [DecidableEq W]

theorem selected_update {selected : W → Option (RequestCall × ApprovalRequest)} {w w' : W}
    {entry : Option (RequestCall × ApprovalRequest)} {found : RequestCall × ApprovalRequest}
    (h : Function.update selected w entry w' = some found) :
    entry = some found ∨ selected w' = some found := by
  by_cases hw : w' = w
  · rw [hw, Function.update_self] at h
    exact .inl h
  · rw [Function.update_of_ne hw] at h
    exact .inr h

theorem step_onRequest (l : CallerStep W) (hp : desk.OnRequest p) :
    desk.OnRequest (desk.step p l) := by
  cases l with
  | select w call =>
      simp only [Desk.step]
      split
      · rename_i stored hfree hstored
        intro w' call' row' hselected
        rcases selected_update hselected with hnew | hold
        · cases hnew
          exact ⟨find?_eq_some_id hstored, stored, hstored⟩
        · exact hp w' call' row' hold
      · exact hp
  | finish w context =>
      simp only [Desk.step]
      split
      · exact hp
      · rename_i call row hselected
        intro w' call' row' hselected'
        rcases selected_update hselected' with hnew | hold
        · cases hnew
        · obtain ⟨hid, stored, hstored⟩ := hp w call row hselected
          exact ⟨(hp w' call' row' hold).1, finish_stored call hid hstored⟩

theorem step_final_iff (l : CallerStep W) (hp : desk.OnRequest p)
    (hself : Final desk.requestId p.store p.store) :
    Final desk.requestId p.store (desk.step p l).store ↔ desk.NotOvertaken p l := by
  cases l with
  | select w call =>
      refine iff_of_true ?_ trivial
      simp only [Desk.step]
      split
      · exact hself
      · exact hself
  | finish w context =>
      simp only [Desk.step, Desk.NotOvertaken]
      cases hselected : p.selected w with
      | none =>
          refine iff_of_true hself ?_
          intro call row stored h
          cases h
      | some entry =>
          obtain ⟨call, row⟩ := entry
          obtain ⟨hid, stored, hstored⟩ := hp w call row hselected
          simp only
          rw [finish_final_iff call hid hstored hself.agrees]
          constructor
          · intro h call' row' stored' hsame hstored' hdecided
            rw [hstored, Option.some.injEq] at hstored'
            cases hsame
            rw [← hstored'] at hdecided ⊢
            exact h hdecided
          · intro h hdecided
            exact h call row stored rfl hstored hdecided

/-- In every interleaving, decisions are final and the linked runs agree with them exactly if no
call goes through on a row that was decided after it was selected, unless it is timely. -/
theorem final_run_iff (desk : Desk) (ls : List (CallerStep W)) :
    (∀ ks ms, ks <+: ms → ms <+: ls →
      Final desk.requestId (desk.machine.run ks).store (desk.machine.run ms).store) ↔
      desk.machine.Guarded desk.NotOvertaken ls := by
  have hinit : desk.OnRequest (desk.machine (W := W)).init := by
    intro w call row hselected
    cases hselected
  exact Machine.forall_prefixes_iff_guarded
    (R := fun p q => Final desk.requestId p.store q.store) (m := desk.machine)
    (Final.refl desk.agrees) (fun _ _ _ h h' => h.trans h') (fun _ _ h => Final.refl h.agrees)
    hinit (fun _ l hp => step_onRequest l hp) (fun _ l hp hself => step_final_iff l hp hself) ls

end Runs

/-! ## One note -/

def noteText (text : String) : JsonObject := (∅ : JsonObject).insert "note" (.text text)

/-- A pending note, and the workflow run that waits for it. -/
def noteStore : Store where
  requests := AutoTable.empty.insert
    (CreateRequest.row morningRuntime
      ⟨"T-1", "halopsa.add_note", noteText "Password was reset", none, 900⟩
      "2026-01-05T09:00:00+00:00" "2026-01-05T09:15:00+00:00")
    (CreateRequest.row_id _ _ _ _)
  workflowRuns := AutoTable.empty.insert
    (fun id => ⟨id, "pending_approval", some 1, "2026-01-05T09:00:00+00:00"⟩) fun _ => rfl
  actionRuns := .empty

theorem noteStore_agrees : Agrees 1 noteStore := by
  intro row hrow run hmem _
  rcases AutoTable.mem_insert.mp hmem with hmem | rfl
  · exact absurd hmem (AutoTable.not_mem_empty run)
  · have hpending : row.status = .pending := by
      rw [← Option.some.inj hrow]
      rfl
    rw [hpending]
    rfl

def noteDesk : Desk := ⟨morningRuntime, 1, noteStore, noteStore_agrees⟩

/-- The note is approved between the `select` of an edit and its update. -/
def overtakenEdit : List (CallerStep Bool) :=
  [.select true (.edit (noteText "Device was wiped") ""),
    .select false (.update "approved" "" (some "tess") false),
    .finish false (morningContext 1), .finish true (morningContext 5)]

def noteAfter (ls : List (CallerStep Bool)) : Option (ApprovalStatus × Option JsonValue) :=
  ((noteDesk.machine.run ls).store.requests.find? 1).map fun row =>
    (row.status, row.payload.lookup "note")

theorem overtakenEdit_note :
    noteAfter (overtakenEdit.take 3) = some (.approved, some (.text "Password was reset")) ∧
      noteAfter overtakenEdit = some (.approved, some (.text "Device was wiped")) := by
  decide

theorem not_final : ¬ ∀ (desk : Desk) (ls ks ms : List (CallerStep Bool)), ks <+: ms → ms <+: ls →
    Final desk.requestId (desk.machine.run ks).store (desk.machine.run ms).store := by
  intro h
  have hfinal := h noteDesk overtakenEdit (overtakenEdit.take 3) overtakenEdit
    (List.take_prefix 3 _) (List.prefix_refl _)
  obtain ⟨hbefore, hafter⟩ := overtakenEdit_note
  obtain ⟨row, hrow, hsame⟩ := Option.map_eq_some_iff.mp hbefore
  simp only [Prod.mk.injEq] at hsame
  have hdecided : row.status ≠ .pending := by
    rw [hsame.1]
    decide
  obtain ⟨row', hrow', -, hpayload⟩ := hfinal.decided row hrow hdecided
  rw [noteAfter, show (noteDesk.machine.run overtakenEdit).store.requests.find? 1 = some row' from
    hrow', Option.map_some, hpayload, hsame.2, Option.some.injEq, Prod.mk.injEq] at hafter
  exact absurd hafter.2 (by decide)

end WaitLocalAgent.Approvals
