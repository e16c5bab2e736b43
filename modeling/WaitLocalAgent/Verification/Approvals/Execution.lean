import WaitLocalAgent.Model.Approvals

/-! # Approved writes run once

What a call can do to a stored request, and what follows for the claims of whole runs. -/

namespace WaitLocalAgent.Approvals

open Foundation

variable {rt : Runtime} {s s' s'' : Store} {row row' row'' : ApprovalRequest} {k : ℕ}

/-! ## One row -/

/-- A row before and after some statements; `approves` and `records` say that one of them approves
the request, or records an outcome after which it may be claimed again. -/
structure RowKept (row row' : ApprovalRequest) (approves records : Prop) : Prop where
  status : row'.status = row.status ∨ row.status = .pending
  approved : row'.status = .approved → row.status = .approved ∨ approves
  executed : row.executionStatus ∈ terminalStatuses →
    row'.executionStatus ∈ terminalStatuses ∨ records

theorem RowKept.refl (row : ApprovalRequest) (approves records : Prop) :
    RowKept row row approves records :=
  ⟨.inl rfl, .inl, .inl⟩

theorem RowKept.trans {approves records : Prop} (h : RowKept row row' approves records)
    (h' : RowKept row' row'' approves records) : RowKept row row'' approves records where
  status := by
    rcases h.status with hsame | hpending
    · rw [← hsame]
      exact h'.status
    · exact .inr hpending
  approved happroved := by
    rcases h'.approved happroved with hmiddle | happroves
    · exact h.approved hmiddle
    · exact .inr happroves
  executed hexecuted := by
    rcases h.executed hexecuted with hmiddle | hrecords
    · exact h'.executed hmiddle
    · exact .inr hrecords

theorem rowKept_expire (hpending : row.status = .pending) (now : String)
    (approves records : Prop) : RowKept row (row.expire now) approves records where
  status := .inr hpending
  approved h := by cases h
  executed := .inl

/-! ## The table -/

/-- All requests before and after. -/
structure Kept (s s' : Store) (approves records : ℕ → Prop) : Prop where
  stored : ∀ k row, s.requests.find? k = some row →
    ∃ row', s'.requests.find? k = some row' ∧ RowKept row row' (approves k) (records k)
  added : ∀ k row', s.requests.find? k = none → s'.requests.find? k = some row' →
    row'.status = .approved → approves k

section Kept

variable {approves records : ℕ → Prop}

theorem Kept.refl (s : Store) (approves records : ℕ → Prop) : Kept s s approves records where
  stored k row hrow := ⟨row, hrow, RowKept.refl row _ _⟩
  added k row' hnone hrow' := by
    rw [hnone] at hrow'
    cases hrow'

theorem Kept.trans (h : Kept s s' approves records) (h' : Kept s' s'' approves records) :
    Kept s s'' approves records where
  stored k row hrow := by
    obtain ⟨row', hrow', hkept⟩ := h.stored k row hrow
    obtain ⟨row'', hrow'', hkept'⟩ := h'.stored k row' hrow'
    exact ⟨row'', hrow'', hkept.trans hkept'⟩
  added k row'' hnone hrow'' happroved := by
    cases hmiddle : s'.requests.find? k with
    | none => exact h'.added k row'' hmiddle hrow'' happroved
    | some row' =>
        obtain ⟨row₂, hrow₂, hkept⟩ := h'.stored k row' hmiddle
        rw [hrow''] at hrow₂
        cases hrow₂
        rcases hkept.approved happroved with happroved' | happroves
        · exact h.added k row' hnone hmiddle happroved'
        · exact happroves

theorem Kept.mono {approves' records' : ℕ → Prop} (h : Kept s s' approves records)
    (happroves : ∀ k, approves k → approves' k) (hrecords : ∀ k, records k → records' k) :
    Kept s s' approves' records' where
  stored k row hrow := by
    obtain ⟨row', hrow', hkept⟩ := h.stored k row hrow
    exact ⟨row', hrow', hkept.status, fun h => (hkept.approved h).imp_right (happroves k),
      fun h => (hkept.executed h).imp_right (hrecords k)⟩
  added k row' hnone hrow' happroved := happroves k (h.added k row' hnone hrow' happroved)

/-- An update is kept to by what it assigns to the rows that it matches. -/
theorem kept_update {p : ApprovalRequest → Bool} {f : ApprovalRequest → ApprovalRequest}
    {hf : ∀ r, (f r).id = r.id} (hrequests : s'.requests = s.requests.update p f hf)
    (hrow : ∀ k row, s.requests.find? k = some row → p row = true →
      RowKept row (f row) (approves k) (records k)) : Kept s s' approves records where
  stored k row hfind := by
    refine ⟨if p row then f row else row, ?_, ?_⟩
    · rw [hrequests, AutoTable.find?_update, hfind]
      rfl
    · by_cases hp : p row = true
      · rw [if_pos hp]
        exact hrow k row hfind hp
      · rw [if_neg hp]
        exact RowKept.refl row _ _
  added k row' hnone hfind := by
    rw [hrequests, AutoTable.find?_update, hnone] at hfind
    cases hfind

end Kept

/-! ## Expiry and the closing read -/

theorem find?_eq_some_id (h : s.requests.find? k = some row) : row.id = k :=
  (AutoTable.find?_eq_some_iff.mp h).2

theorem expireApprovalRequest_requests (rt : Runtime) (s : Store) (row : ApprovalRequest)
    (clock : ExpiryClock) : (expireApprovalRequest rt s row clock).2.requests =
      s.requests.update
        (fun r => row.isDue rt.calendar clock.checkedAt && (r.id == row.id && r.status == .pending))
        (ApprovalRequest.expire (rt.text clock.expiredAt))
        (ApprovalRequest.expire_id (rt.text clock.expiredAt)) := by
  unfold expireApprovalRequest
  by_cases hdue : row.isDue rt.calendar clock.checkedAt = true
  · simp [hdue]
  · rw [Bool.not_eq_true] at hdue
    simp only [hdue, Bool.not_false, if_true, Bool.false_and]
    exact AutoTable.update_false.symm

theorem expireApprovalRequest_kept (rt : Runtime) (s : Store) (row : ApprovalRequest)
    (clock : ExpiryClock) (approves records : ℕ → Prop) :
    Kept s (expireApprovalRequest rt s row clock).2 approves records := by
  refine kept_update (expireApprovalRequest_requests rt s row clock) ?_
  intro k row' _ hp
  simp only [Bool.and_eq_true, beq_iff_eq] at hp
  exact rowKept_expire hp.2.2 _ _ _

theorem find?_expireApprovalRequest (hrow : s.requests.find? k = some row) (clock : ExpiryClock) :
    (expireApprovalRequest rt s row clock).2.requests.find? k =
      some (expireApprovalRequest rt s row clock).1 := by
  have hid := find?_eq_some_id hrow
  unfold expireApprovalRequest
  split
  · exact hrow
  · simp only [hid, AutoTable.find?_update, hrow, Option.map_some, Option.getD_some]

theorem getApprovalRequest_kept (rt : Runtime) (s : Store) (k : ℕ) (clock : ExpiryClock)
    (approves records : ℕ → Prop) :
    Kept s (getApprovalRequest rt s k clock).2 approves records := by
  unfold getApprovalRequest
  split
  · exact Kept.refl s _ _
  · exact expireApprovalRequest_kept rt s _ clock _ _

theorem getApprovalRequest_isSome (rt : Runtime) (hrow : s.requests.find? k = some row)
    (clock : ExpiryClock) :
    ∃ request, (getApprovalRequest rt s k clock).1 = some request := by
  simp only [getApprovalRequest, hrow]
  exact ⟨_, rfl⟩

theorem closingRead_snd (rt : Runtime) (s : Store) (k : ℕ) (clock : ExpiryClock)
    (transaction : Except ApprovalError Store) :
    (closingRead rt s k clock transaction).2 =
      match transaction with
      | .error _ => s
      | .ok s' => (getApprovalRequest rt s' k clock).2 := by
  cases transaction with
  | error e => rfl
  | ok s' =>
      simp only [closingRead]
      split
      · rename_i hread
        rw [hread]
      · rename_i hread
        rw [hread]

theorem closingRead_kept {clock : ExpiryClock} {transaction : Except ApprovalError Store}
    {approves records : ℕ → Prop}
    (h : ∀ s', transaction = .ok s' → Kept s s' approves records) :
    Kept s (closingRead rt s k clock transaction).2 approves records := by
  rw [closingRead_snd]
  cases transaction with
  | error e => exact Kept.refl s _ _
  | ok s' => exact (h s' rfl).trans (getApprovalRequest_kept rt s' k clock _ _)

/-- A call whose transaction commits returns the request. -/
theorem closingRead_ok {clock : ExpiryClock} (hrow : s'.requests.find? k = some row) :
    ∃ request, (closingRead rt s k clock (.ok s')).1 = .ok request := by
  obtain ⟨request, hrequest⟩ := getApprovalRequest_isSome rt hrow clock
  refine ⟨request, ?_⟩
  simp only [closingRead]
  split
  · rename_i hread
    rw [hread] at hrequest
    cases hrequest
    rfl
  · rename_i hread
    rw [hread] at hrequest
    cases hrequest

/-! ## Transactions -/

theorem requestedStatus?_eq_approved {status : String}
    (h : requestedStatus? status = some .approved) : status = "approved" := by
  unfold requestedStatus? at h
  split at h
  · cases h
  · rfl
  · cases h
  · cases h

theorem selectRequest_eq_ok : selectRequest s k = .ok row ↔ s.requests.find? k = some row := by
  unfold selectRequest
  cases s.requests.find? k with
  | none => simp
  | some r => simp

section Transactions

variable {context : CallContext}

/-- A decision is made on a request that is pending, after its expiry. -/
theorem decideSelected_kept {update : UpdateRequest} (hallow : update.allowCompleted = false)
    (hrow : s.requests.find? update.requestId = some row)
    (h : decideSelected rt s row update context = .ok s') :
    Kept s s' (fun k => k = update.requestId ∧ update.status = "approved") (fun _ => False) := by
  simp only [decideSelected, bind_eq_ok] at h
  obtain ⟨-, -, -, -, h⟩ := h
  split at h
  · cases h
  · rename_i status hstatus
    simp only [bind_eq_ok, raiseIf_eq_ok, hallow, Bool.not_false, and_true, ne_eq,
      not_not] at h
    obtain ⟨-, -, -, hpending, h⟩ := h
    cases h
    refine Kept.trans (expireApprovalRequest_kept rt s row context.expiry _ _)
      (kept_update rfl ?_)
    intro k row' hfind hmatch
    have hid : k = update.requestId := by
      rw [← find?_eq_some_id hfind]
      exact beq_iff_eq.mp hmatch
    subst hid
    rw [find?_expireApprovalRequest hrow, Option.some.injEq] at hfind
    rw [← hfind]
    refine ⟨.inr hpending, ?_, .inl⟩
    intro happroved
    exact .inr ⟨rfl, requestedStatus?_eq_approved (hstatus.trans (congrArg some happroved))⟩

theorem editSelected_kept {edit : PayloadRequest}
    (h : editSelected rt s row edit context = .ok s') (approves records : ℕ → Prop) :
    Kept s s' approves records := by
  simp only [editSelected, bind_eq_ok, pure_eq_ok] at h
  obtain ⟨-, -, -, -, -, -, rfl⟩ := h
  exact (expireApprovalRequest_kept rt s row context.expiry _ _).trans
    (kept_update rfl fun _ _ _ _ => ⟨.inl rfl, .inl, .inl⟩)

/-- A record may let go of a request that was executed. -/
theorem recordSelected_kept {record : ExecutionRecord} (approves : ℕ → Prop)
    (h : recordSelected rt s row record context = .ok s') :
    Kept s s' approves fun k => k = record.requestId ∧ record.status ∉ terminalStatuses := by
  simp only [recordSelected, bind_eq_ok, pure_eq_ok] at h
  obtain ⟨-, -, -, -, rfl⟩ := h
  refine (expireApprovalRequest_kept rt s row context.expiry _ _).trans (kept_update rfl ?_)
  intro k row' hfind hmatch
  refine ⟨.inl rfl, .inl, ?_⟩
  intro _
  by_cases houtcome : record.status ∈ terminalStatuses
  · exact .inl houtcome
  · refine .inr ⟨?_, houtcome⟩
    rw [← find?_eq_some_id hfind]
    exact beq_iff_eq.mp hmatch

theorem claimSelected_kept {claimed : Bool} (approves records : ℕ → Prop)
    (h : claimSelected rt s row k context = .ok (claimed, s')) : Kept s s' approves records := by
  simp only [claimSelected, bind_eq_ok, pure_eq_ok, Prod.mk.injEq] at h
  obtain ⟨-, -, -, -, -, rfl⟩ := h
  refine (expireApprovalRequest_kept rt s row context.expiry _ _).trans (kept_update rfl ?_)
  intro _ _ _ _
  have hrunning : "running" ∈ terminalStatuses := by decide
  exact ⟨.inl rfl, .inl, fun _ => .inl hrunning⟩

theorem insertRequest_kept {request : CreateRequest} (approves records : ℕ → Prop)
    (h : insertRequest rt s request context = .ok s') : Kept s s' approves records := by
  simp only [insertRequest, bind_eq_ok, pure_eq_ok] at h
  obtain ⟨expiresAt, -, -, -, rfl⟩ := h
  constructor
  · intro k row hrow
    refine ⟨row, ?_, RowKept.refl row _ _⟩
    have hold : k ≠ s.requests.lastKey + 1 := by
      intro hnext
      rw [hnext, AutoTable.find?_next] at hrow
      cases hrow
    rw [AutoTable.find?_insert, if_neg hold]
    exact hrow
  · intro k row' hnone hrow' happroved
    rw [AutoTable.find?_insert] at hrow'
    split at hrow'
    · cases hrow'
      cases happroved
    · rw [hnone] at hrow'
      cases hrow'

/-- A claim that succeeds finds an approved request that was not executed, and leaves it
running. -/
theorem claimSelected_granted (hrow : s.requests.find? k = some row)
    (h : claimSelected rt s row k context = .ok (true, s')) :
    row.status = .approved ∧ row.executionStatus ∉ terminalStatuses ∧
      ∃ row', s'.requests.find? k = some row' ∧ row'.status = .approved ∧
        row'.executionStatus = "running" := by
  simp only [claimSelected, bind_eq_ok, pure_eq_ok, Prod.mk.injEq] at h
  obtain ⟨-, -, -, -, hcount, rfl⟩ := h
  have hpos : 0 < (expireApprovalRequest rt s row context.expiry).2.requests.table.rowcount
      (ApprovalRequest.isClaimable k) := by
    have hone := beq_iff_eq.mp hcount
    omega
  obtain ⟨row₁, hmem, hclaimable⟩ := Table.rowcount_pos.mp hpos
  have hparts := hclaimable
  simp only [ApprovalRequest.isClaimable, Bool.and_eq_true, beq_iff_eq, Bool.not_eq_true',
    List.contains_eq_mem, decide_eq_false_iff_not] at hparts
  obtain ⟨⟨hid, happroved⟩, hfree⟩ := hparts
  have hfind : (expireApprovalRequest rt s row context.expiry).2.requests.find? k = some row₁ :=
    AutoTable.find?_eq_some_iff.mpr ⟨hmem, hid⟩
  have hkept := expireApprovalRequest_kept rt s row context.expiry (fun _ => False) fun _ => False
  obtain ⟨row₂, hrow₂, hrowKept⟩ := hkept.stored k row hrow
  rw [hfind, Option.some.injEq] at hrow₂
  subst hrow₂
  refine ⟨(hrowKept.approved happroved).resolve_right id, ?_,
    row₁.execute "running" "" "" ∅ (rt.text context.now), ?_, happroved, rfl⟩
  · intro hexecuted
    exact hfree ((hrowKept.executed hexecuted).resolve_right id)
  · rw [AutoTable.find?_update, hfind, Option.map_some, if_pos hclaimable]

end Transactions

/-! ## Calls -/

def Approves (rt : Runtime) (s : Store) (k : ℕ) (call : ApprovalCall) : Prop :=
  ∃ update context request, call = .updateApprovalRequest update context ∧
    update.requestId = k ∧ update.status = "approved" ∧
    (updateApprovalRequest rt s { update with allowCompleted := false } context).1 = .ok request

/-- The call records an outcome of request `k` after which it may be claimed again. -/
def Releases (rt : Runtime) (s : Store) (k : ℕ) (call : ApprovalCall) : Prop :=
  ∃ record context request, call = .recordApprovalExecution record context ∧
    record.requestId = k ∧ record.status ∉ terminalStatuses ∧
    (recordApprovalExecution rt s record context).1 = .ok request

def Claims (rt : Runtime) (s : Store) (k : ℕ) (call : ApprovalCall) : Prop :=
  ∃ context s', call = .claimApprovalExecution k context ∧
    claimApprovalExecution rt s k context = .ok (true, s')

/-- What the transaction of a call approves and records stands in the request that is returned. -/
theorem closingRead_kept_of_select {clock : ExpiryClock}
    {transaction : ApprovalRequest → Except ApprovalError Store} {approves records : ℕ → Prop}
    (hkept : ∀ row s', s.requests.find? k = some row → transaction row = .ok s' →
      Kept s s' approves records) :
    Kept s (closingRead rt s k clock (selectRequest s k >>= transaction)).2
      (fun j => approves j ∧ ∃ request,
        (closingRead rt s k clock (selectRequest s k >>= transaction)).1 = .ok request)
      (fun j => records j ∧ ∃ request,
        (closingRead rt s k clock (selectRequest s k >>= transaction)).1 = .ok request) := by
  refine closingRead_kept ?_
  intro s' h
  obtain ⟨row, hselect, htransaction⟩ := bind_eq_ok.mp h
  have hrow := selectRequest_eq_ok.mp hselect
  have hkept' := hkept row s' hrow htransaction
  obtain ⟨row', hrow', -⟩ := hkept'.stored k row hrow
  rw [h]
  exact hkept'.mono (fun j hj => ⟨hj, closingRead_ok hrow'⟩)
    fun j hj => ⟨hj, closingRead_ok hrow'⟩

/-- One call keeps the requests, up to what it approves and releases. -/
theorem apply_kept (rt : Runtime) (s : Store) (call : ApprovalCall) :
    Kept s (call.apply rt s) (fun k => Approves rt s k call) fun k => Releases rt s k call := by
  cases call with
  | createApprovalRequest request context =>
      exact closingRead_kept fun s' => insertRequest_kept _ _
  | updateApprovalRequest update context =>
      refine Kept.mono (closingRead_kept_of_select fun row s' hrow h =>
        decideSelected_kept rfl hrow h) ?_ ?_
      · rintro k ⟨⟨hk, hstatus⟩, request, hrequest⟩
        exact ⟨update, context, request, rfl, hk.symm, hstatus, hrequest⟩
      · rintro k ⟨hfalse, -⟩
        exact hfalse.elim
  | updateApprovalRequestPayload edit context =>
      refine Kept.mono (closingRead_kept_of_select fun row s' _ h =>
        editSelected_kept h (fun _ => False) fun _ => False) ?_ ?_
      · rintro k ⟨hfalse, -⟩
        exact hfalse.elim
      · rintro k ⟨hfalse, -⟩
        exact hfalse.elim
  | claimApprovalExecution k context =>
      rw [ApprovalCall.apply]
      cases hclaim : claimApprovalExecution rt s k context with
      | error e => exact Kept.refl s _ _
      | ok result =>
          obtain ⟨row, -, h⟩ := bind_eq_ok.mp hclaim
          exact claimSelected_kept _ _ h
  | recordApprovalExecution record context =>
      refine Kept.mono (closingRead_kept_of_select fun row s' _ h =>
        recordSelected_kept (fun _ => False) h) ?_ ?_
      · rintro k ⟨hfalse, -⟩
        exact hfalse.elim
      · rintro k ⟨⟨hk, hstatus⟩, request, hrequest⟩
        exact ⟨record, context, request, rfl, hk.symm, hstatus, hrequest⟩
  | getApprovalRequest k clock => exact getApprovalRequest_kept rt s k clock _ _

theorem Claims.granted {call : ApprovalCall} (h : Claims rt s k call) :
    ∃ row, s.requests.find? k = some row ∧ row.status = .approved ∧
      row.executionStatus ∉ terminalStatuses ∧
      ∃ row', (call.apply rt s).requests.find? k = some row' ∧ row'.status = .approved ∧
        row'.executionStatus = "running" := by
  obtain ⟨context, s', rfl, hclaim⟩ := h
  have happly : ApprovalCall.apply rt s (.claimApprovalExecution k context) = s' := by
    simp [ApprovalCall.apply, hclaim, Except.map, committed]
  obtain ⟨row, hselect, hclaim⟩ := bind_eq_ok.mp hclaim
  have hrow := selectRequest_eq_ok.mp hselect
  rw [happly]
  exact ⟨row, hrow, claimSelected_granted hrow hclaim⟩

/-! ## Runs -/

section Runs

variable {workflowRuns : AutoTable WorkflowRun.id} {actionRuns : AutoTable SmartActionRun.id}

def NotApproved (k : ℕ) (s : Store) : Prop :=
  ∀ row, s.requests.find? k = some row → row.status ≠ .approved

def Executed (k : ℕ) (s : Store) : Prop :=
  ∃ row, s.requests.find? k = some row ∧ row.executionStatus ∈ terminalStatuses

def HasStatus (k : ℕ) (status : ApprovalStatus) (s : Store) : Prop :=
  ∃ row, s.requests.find? k = some row ∧ row.status = status

theorem apply_notApproved (call : ApprovalCall) (hs : NotApproved k s) :
    Approves rt s k call ∨ NotApproved k (call.apply rt s) := by
  by_cases happroves : Approves rt s k call
  · exact .inl happroves
  · right
    intro row' hrow' happroved
    have hkept := apply_kept rt s call
    cases hrow : s.requests.find? k with
    | none => exact happroves (hkept.added k row' hrow hrow' happroved)
    | some row =>
        obtain ⟨row₂, hrow₂, hrowKept⟩ := hkept.stored k row hrow
        rw [hrow', Option.some.injEq] at hrow₂
        subst hrow₂
        rcases hrowKept.approved happroved with hbefore | hcall
        · exact hs row hrow hbefore
        · exact happroves hcall

theorem apply_executed (call : ApprovalCall) (hs : Executed k s) :
    Releases rt s k call ∨ Executed k (call.apply rt s) := by
  obtain ⟨row, hrow, hexecuted⟩ := hs
  obtain ⟨row', hrow', hkept⟩ := (apply_kept rt s call).stored k row hrow
  rcases hkept.executed hexecuted with hafter | hreleases
  · exact .inr ⟨row', hrow', hafter⟩
  · exact .inl hreleases

theorem apply_hasStatus {status : ApprovalStatus} (hdecided : status ≠ .pending)
    (call : ApprovalCall) (hs : HasStatus k status s) : HasStatus k status (call.apply rt s) := by
  obtain ⟨row, hrow, rfl⟩ := hs
  obtain ⟨row', hrow', hkept⟩ := (apply_kept rt s call).stored k row hrow
  exact ⟨row', hrow', hkept.status.resolve_right hdecided⟩

theorem run_notApproved (as : List ApprovalCall) :
    NotApproved k ((approvals rt workflowRuns actionRuns).run as) ∨
      ∃ before approve after, as = before ++ approve :: after ∧
        Approves rt ((approvals rt workflowRuns actionRuns).run before) k approve := by
  have hinit : NotApproved k (approvals rt workflowRuns actionRuns).init := by
    intro row hrow
    cases hrow
  exact runFrom_or_exists_event (E := fun s call => Approves rt s k call)
    (fun s call hs => apply_notApproved call hs) hinit as

theorem run_executed (hs : Executed k s) (bs : List ApprovalCall) :
    Executed k (runFrom (ApprovalCall.apply rt) s bs) ∨
      ∃ before release after, bs = before ++ release :: after ∧
        Releases rt (runFrom (ApprovalCall.apply rt) s before) k release :=
  runFrom_or_exists_event (E := fun s call => Releases rt s k call)
    (fun _ call hs => apply_executed call hs) hs bs

/-- A decision is there to stay. -/
theorem run_hasStatus {status : ApprovalStatus} (hdecided : status ≠ .pending)
    {ks ls : List ApprovalCall} (hpre : ks <+: ls)
    (h : HasStatus k status ((approvals rt workflowRuns actionRuns).run ks)) :
    HasStatus k status ((approvals rt workflowRuns actionRuns).run ls) := by
  obtain ⟨rest, rfl⟩ := hpre
  rw [Machine.run_append]
  exact runFrom_invariant_of_step (fun _ call hs => apply_hasStatus hdecided call hs) h rest

theorem HasStatus.unique {status status' : ApprovalStatus} (h : HasStatus k status s)
    (h' : HasStatus k status' s) : status = status' := by
  obtain ⟨row, hrow, rfl⟩ := h
  obtain ⟨row', hrow', rfl⟩ := h'
  rw [hrow, Option.some.injEq] at hrow'
  rw [hrow']

/-- A granted claim follows an approval and no rejection or expiry, and before the next granted
claim of the request an outcome is recorded that allows it. -/
theorem claims_run_once (rt : Runtime) (workflowRuns : AutoTable WorkflowRun.id)
    (actionRuns : AutoTable SmartActionRun.id) (k : ℕ) (as : List ApprovalCall)
    (claim : ApprovalCall)
    (hclaim : Claims rt ((approvals rt workflowRuns actionRuns).run as) k claim) :
    (∃ before approve after, as = before ++ approve :: after ∧
      Approves rt ((approvals rt workflowRuns actionRuns).run before) k approve) ∧
    (∀ ks, ks <+: as ++ [claim] → ∀ row,
      ((approvals rt workflowRuns actionRuns).run ks).requests.find? k = some row →
        row.status ≠ .rejected ∧ row.status ≠ .expired) ∧
    ∀ bs next,
      Claims rt ((approvals rt workflowRuns actionRuns).run (as ++ claim :: bs)) k next →
        ∃ before release after, bs = before ++ release :: after ∧
          Releases rt ((approvals rt workflowRuns actionRuns).run (as ++ claim :: before)) k
            release := by
  obtain ⟨row, hrow, happroved, -, row', hrow', happroved', hrunning⟩ := hclaim.granted
  have hafter : HasStatus k .approved
      ((approvals rt workflowRuns actionRuns).run (as ++ [claim])) := by
    rw [Machine.run_concat]
    exact ⟨row', hrow', happroved'⟩
  refine ⟨?_, ?_, ?_⟩
  · rcases run_notApproved as with hnot | hevent
    · exact absurd happroved (hnot row hrow)
    · exact hevent
  · intro ks hks row hrow
    constructor
    · intro hrejected
      cases (run_hasStatus (by decide) hks ⟨row, hrow, hrejected⟩).unique hafter
    · intro hexpired
      cases (run_hasStatus (by decide) hks ⟨row, hrow, hexpired⟩).unique hafter
  · intro bs next hnext
    have hsplit : ∀ cs, (approvals rt workflowRuns actionRuns).run (as ++ claim :: cs) =
        runFrom (ApprovalCall.apply rt)
          (claim.apply rt ((approvals rt workflowRuns actionRuns).run as)) cs := by
      intro cs
      rw [Machine.run_append]
      rfl
    have hstart : Executed k (claim.apply rt ((approvals rt workflowRuns actionRuns).run as)) := by
      refine ⟨row', hrow', ?_⟩
      rw [hrunning]
      decide
    rcases run_executed hstart bs with hexecuted | ⟨before, release, after, hbs, hrelease⟩
    · obtain ⟨row₁, hrow₁, -, hfree, -⟩ := hnext.granted
      obtain ⟨row₂, hrow₂, hterminal⟩ := hexecuted
      rw [hsplit, hrow₂, Option.some.injEq] at hrow₁
      rw [← hrow₁] at hfree
      exact absurd hterminal hfree
    · refine ⟨before, release, after, hbs, ?_⟩
      rw [hsplit]
      exact hrelease

end Runs

theorem claims_of_granted {context : CallContext}
    (h : (claimApprovalExecution rt s k context).toOption.map Prod.fst = some true) :
    Claims rt s k (.claimApprovalExecution k context) := by
  cases hclaim : claimApprovalExecution rt s k context with
  | error e =>
      rw [hclaim] at h
      cases h
  | ok result =>
      rw [hclaim] at h
      obtain ⟨granted, s'⟩ := result
      obtain rfl : granted = true := Option.some.inj h
      exact ⟨context, s', rfl, hclaim⟩

def noteApproval : List ApprovalCall :=
  [.createApprovalRequest ⟨"T-1", "halopsa.add_note", ∅, none, 900⟩ (morningContext 0),
    .updateApprovalRequest ⟨1, "approved", "", some "tess", false, false⟩ (morningContext 1)]

/-- The first write of the note fails, and it is claimed again. -/
theorem claims_run_once_noteApproval : ∃ before release after,
    [.recordApprovalExecution ⟨1, "failed", "timeout", ∅⟩ (morningContext 5)] =
        before ++ release :: after ∧
      Releases morningRuntime ((approvals morningRuntime .empty .empty).run
        (noteApproval ++ .claimApprovalExecution 1 (morningContext 5) :: before)) 1 release :=
  (claims_run_once morningRuntime .empty .empty 1 noteApproval
    (.claimApprovalExecution 1 (morningContext 5))
    (claims_of_granted (by decide +kernel))).2.2 _ (.claimApprovalExecution 1 (morningContext 10))
    (claims_of_granted (by decide +kernel))

end WaitLocalAgent.Approvals
