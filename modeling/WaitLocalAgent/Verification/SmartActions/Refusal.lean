import WaitLocalAgent.Model.SmartActions
import WaitLocalAgent.Verification.Approvals.Execution

/-! # Refused approvals

What `update_approval` has written when it raises before its decision is committed. -/

namespace WaitLocalAgent.SmartActions

open Foundation Approvals Program

variable {rt : Runtime} {registry : Registry} {s : Workspace} {α : Type}

theorem onlyReads_raise (error : ApprovalError) :
    OnlyReads (ServiceAction.answer rt) (raise error : Service α) :=
  onlyReads_throw _

theorem onlyReads_check (condition : Prop) [Decidable condition] (error : ApprovalError) :
    OnlyReads (ServiceAction.answer rt) (check condition error) := by
  unfold check
  split
  · exact onlyReads_raise error
  · exact onlyReads_pure ()

theorem onlyReads_isQuarantined (site : CallSite) (ticketId : Option String) :
    OnlyReads (ServiceAction.answer rt) (isQuarantined site ticketId) := by
  cases ticketId with
  | none => exact onlyReads_pure false
  | some ticketId => exact fun _ _ => rfl

theorem onlyReads_requireApprover (approver : Option String) (role : Option Access.Role) :
    OnlyReads (ServiceAction.answer rt) (requireApprover approver role) := by
  unfold requireApprover
  split
  · exact onlyReads_raise _
  · split
    · exact onlyReads_pure _
    · exact onlyReads_raise _

theorem onlyReads_requireDecisionRole (actionId status : String) (role : Option Access.Role) :
    OnlyReads (ServiceAction.answer rt) (requireDecisionRole registry actionId status role) := by
  unfold requireDecisionRole requireRegisteredRole
  split
  · split
    · exact onlyReads_check _ _
    · exact onlyReads_pure ()
  · exact onlyReads_pure ()

theorem run_ask (a : ServiceAction) (inputs : ℕ → ServiceInput) (s : Workspace) :
    (ask a).run.run (ServiceAction.answer rt) inputs s =
      (.ok (a.answer rt s (inputs 0)).1, (a.answer rt s (inputs 0)).2,
        fun n => inputs (n + 1)) := rfl

/-- `get_approval_request` run alone: what it returns, and the store that it leaves. -/
theorem run_getApproval (rt : Runtime) (approvalId : ℕ) (inputs : ℕ → ServiceInput)
    (s : Workspace) :
    ∃ inputs', (getApproval rt approvalId).run.run (ServiceAction.answer rt) inputs s =
      (.ok (getApprovalRequest rt s.store approvalId (inputs 1).context.expiry).1,
        { s with store := (getApprovalRequest rt s.store approvalId
          (inputs 1).context.expiry).2 }, inputs') := by
  rw [getApproval, run_bindExcept, run_ask]
  cases hrow : s.store.requests.find? approvalId with
  | none =>
      simp only [ServiceAction.answer, hrow, getApprovalRequest]
      exact ⟨_, rfl⟩
  | some row =>
      simp only [ServiceAction.answer, hrow, getApprovalRequest]
      exact ⟨_, rfl⟩

/-- `update_approval_request` raises before it has committed. -/
theorem raisesClean_storeUpdate (update : UpdateRequest)
    (hallow : update.allowCompleted = false) :
    RaisesClean (ServiceAction.answer rt) (storeUpdate rt update) := by
  intro inputs s e s' inputs' h
  rw [storeUpdate, run_bindExcept, run_ask] at h
  cases hrow : s.store.requests.find? update.requestId with
  | none =>
      simp only [ServiceAction.answer, hrow] at h
      cases h
      rfl
  | some row =>
      simp only [ServiceAction.answer, hrow] at h
      rw [run_bindExcept, run_ask] at h
      simp only [ServiceAction.answer] at h
      cases hdecide : decideSelected rt s.store row update (inputs (0 + 1)).context with
      | error e' =>
          simp only [hdecide] at h
          cases h
          rfl
      | ok store =>
          simp only [hdecide] at h
          obtain ⟨rest, hrun⟩ := run_getApproval rt update.requestId _ { s with store }
          rw [run_bindExcept, hrun] at h
          obtain ⟨row', hrow', -⟩ := (decideSelected_kept hallow hrow hdecide).stored _ row hrow
          obtain ⟨request, hrequest⟩ := getApprovalRequest_isSome rt hrow' _
          rw [hrequest] at h
          cases h

/-- A refusal before the commit leaves what the opening read has left. -/
theorem decideApproval_refused {approvalId : ℕ} {status comment : String}
    {approver : Option String} {role : Option Access.Role} {inputs inputs' : ℕ → ServiceInput}
    {e : ServiceError} {s' : Workspace}
    (h : (decideApproval rt registry approvalId status comment approver role).run.run
      (ServiceAction.answer rt) inputs s = (.error e, s', inputs')) :
    s' = { s with
      store := (getApprovalRequest rt s.store approvalId (inputs 1).context.expiry).2 } := by
  obtain ⟨rest, hrun⟩ := run_getApproval rt approvalId inputs s
  rw [decideApproval, run_bindExcept, hrun] at h
  cases hfound : (getApprovalRequest rt s.store approvalId (inputs 1).context.expiry).1 with
  | none =>
      rw [hfound] at h
      cases h
      rfl
  | some approval =>
      rw [hfound] at h
      refine RaisesClean.bind (onlyReads_isQuarantined _ _) (fun quarantined => ?_) _ _ _ _ _ h
      refine RaisesClean.bind (onlyReads_check _ _) fun _ => ?_
      split
      · refine RaisesClean.bind (onlyReads_requireApprover approver role) fun name => ?_
        refine RaisesClean.bind (onlyReads_requireDecisionRole _ status role) fun _ => ?_
        exact (raisesClean_storeUpdate _ rfl).bind_pure _
      · exact (raisesClean_storeUpdate _ rfl).bind_pure _

/-- The opening read expires the request if it is overdue, and does nothing else. -/
theorem getApprovalRequest_snd (rt : Runtime) (store : Approvals.Store) (approvalId : ℕ)
    (clock : ExpiryClock) :
    (getApprovalRequest rt store approvalId clock).2 = store ∨
      ∃ row, store.requests.find? approvalId = some row ∧
        row.isDue rt.calendar clock.checkedAt = true ∧
        (getApprovalRequest rt store approvalId clock).2 =
          (expireApprovalRequest rt store row clock).2 := by
  cases hrow : store.requests.find? approvalId with
  | none =>
      left
      simp only [getApprovalRequest, hrow]
  | some row =>
      simp only [getApprovalRequest, hrow]
      cases hdue : row.isDue rt.calendar clock.checkedAt with
      | false =>
          left
          simp [expireApprovalRequest, hdue]
      | true => exact .inr ⟨row, rfl, hdue, rfl⟩

/-- An update that raises before its decision is committed leaves everything as it was, or as the
expiry of the overdue request leaves it. -/
theorem updateApproval_refused (rt : Runtime) (registry : Registry) (approvalId : ℕ)
    (status comment : String) (approver : Option String) (role : Option Access.Role)
    (inputs inputs' : ℕ → ServiceInput) (s s' : Workspace) (e : ServiceError)
    (hraises : (updateApproval rt registry approvalId status comment approver role).run.run
      (ServiceAction.answer rt) inputs s = (.error e, s', inputs'))
    (huncommitted : ∀ updated s₁ rest,
      (decideApproval rt registry approvalId status comment approver role).run.run
        (ServiceAction.answer rt) inputs s ≠ (.ok updated, s₁, rest)) :
    s' = s ∨ ∃ row, s.store.requests.find? approvalId = some row ∧
      row.isDue rt.calendar (inputs 1).context.expiry.checkedAt = true ∧
      s' = { s with
        store := (expireApprovalRequest rt s.store row (inputs 1).context.expiry).2 } := by
  rw [updateApproval, run_bindExcept] at hraises
  rcases hdecide : (decideApproval rt registry approvalId status comment approver role).run.run
    (ServiceAction.answer rt) inputs s with ⟨result, s₁, rest⟩
  cases result with
  | ok updated => exact absurd hdecide (huncommitted updated s₁ rest)
  | error e' =>
      rw [hdecide] at hraises
      cases hraises
      rw [decideApproval_refused hdecide]
      rcases getApprovalRequest_snd rt s.store approvalId (inputs 1).context.expiry with
        hsame | ⟨row, hrow, hdue, hexpired⟩
      · rw [hsame]
        exact .inl rfl
      · rw [hexpired]
        exact .inr ⟨row, hrow, hdue, rfl⟩

/-- A password reset that a technician has to approve within a quarter of an hour. -/
def resetPassword : PendingAction where
  actionId := "password-reset"
  actor := "rob"
  payloadDigest := ""
  output := ∅
  evidence := []
  approvalPayload := (∅ : JsonObject).insert "payload" (.object ∅)
  expiresInSeconds := 900

def morningRegistry : Registry := fun actionId =>
  if actionId = "password-reset" then some { actionId } else none

def pendingReset : Except ApprovalError Approvals.Store :=
  createPendingSmartAction morningRuntime ⟨.empty, .empty, .empty⟩ resetPassword (morningContext 0)

def morningInput (minute : Fin 60) : ServiceInput := ⟨morningContext minute, { status := .success }⟩

/-- What an approval by tess at some minute comes to. -/
def approveReset (minute : Fin 60) (store : Approvals.Store) :
    Except ServiceError ApprovalRequest × Workspace × (ℕ → ServiceInput) :=
  (updateApproval morningRuntime morningRegistry 1 "approved" "" (some "tess")
    (some .technician)).run.run (ServiceAction.answer morningRuntime)
      (fun _ => morningInput minute) ⟨store, []⟩

def firstStatus (store : Approvals.Store) : Option ApprovalStatus :=
  (store.requests.find? 1).map ApprovalRequest.status

/-- The decision of this approval alone. -/
def decideReset (minute : Fin 60) (store : Approvals.Store) :
    Except ServiceError (ApprovalRequest × Bool) × Workspace × (ℕ → ServiceInput) :=
  (decideApproval morningRuntime morningRegistry 1 "approved" "" (some "tess")
    (some .technician)).run.run (ServiceAction.answer morningRuntime)
      (fun _ => morningInput minute) ⟨store, []⟩

theorem approveReset_overdue : pendingReset.map (fun store =>
      (firstStatus store, (approveReset 15 store).1, firstStatus (approveReset 15 store).2.1.store,
        (decideReset 15 store).1.isOk)) =
    .ok (some .pending, .error (.approval (.permissionError "approval request has expired")),
      some .expired, false) := by
  decide +kernel

/-- An overdue request is expired by the update that is refused. -/
theorem not_traceless : ¬ ∀ (rt : Runtime) (registry : Registry) (pending : PendingAction)
    (context : CallContext) (store : Approvals.Store) (approvalId : ℕ) (status comment : String)
    (approver : Option String) (role : Option Access.Role) (inputs inputs' : ℕ → ServiceInput)
    (s' : Workspace) (e : ServiceError),
    createPendingSmartAction rt ⟨.empty, .empty, .empty⟩ pending context = .ok store →
    (updateApproval rt registry approvalId status comment approver role).run.run
      (ServiceAction.answer rt) inputs ⟨store, []⟩ = (.error e, s', inputs') →
    s'.store.requests.find? approvalId = store.requests.find? approvalId := by
  intro h
  obtain ⟨store, hstore, hout⟩ := map_eq_ok.mp approveReset_overdue
  simp only [Prod.mk.injEq] at hout
  obtain ⟨hbefore, hraises, hafter, -⟩ := hout
  have hsame := h morningRuntime morningRegistry resetPassword (morningContext 0) store 1 "approved"
    "" (some "tess") (some .technician) (fun _ => morningInput 15) (approveReset 15 store).2.2
    (approveReset 15 store).2.1 _ hstore (Prod.ext hraises rfl)
  rw [firstStatus, hsame, ← firstStatus, hbefore] at hafter
  cases hafter

theorem updateApproval_refused_overdue : ∃ store, pendingReset = .ok store ∧
    ((approveReset 15 store).2.1 = ⟨store, []⟩ ∨ ∃ row, store.requests.find? 1 = some row ∧
      row.isDue morningCalendar (Instant.morning 15) = true ∧ (approveReset 15 store).2.1 =
        ⟨(expireApprovalRequest morningRuntime store row
          ⟨Instant.morning 15, Instant.morning 15⟩).2, []⟩) := by
  obtain ⟨store, hstore, hout⟩ := map_eq_ok.mp approveReset_overdue
  simp only [Prod.mk.injEq] at hout
  refine ⟨store, hstore, updateApproval_refused morningRuntime morningRegistry 1 "approved" ""
    (some "tess") (some .technician) (fun _ => morningInput 15) (approveReset 15 store).2.2
    ⟨store, []⟩ (approveReset 15 store).2.1 _ (Prod.ext hout.2.1 rfl) ?_⟩
  intro updated s₁ rest hcommitted
  have hrefused := hout.2.2.2
  rw [show decideReset 15 store = (.ok updated, s₁, rest) from hcommitted] at hrefused
  cases hrefused

end WaitLocalAgent.SmartActions
