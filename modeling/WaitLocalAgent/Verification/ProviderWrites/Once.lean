import WaitLocalAgent.Model.ProviderWrites
import WaitLocalAgent.Verification.Approvals.Execution

/-! # One write for each approval

Callers who record every successful write, and write only while the stored request has not been
executed, write no more once a write has succeeded. -/

namespace WaitLocalAgent.ProviderWrites

open Foundation Approvals

variable {α : Type}

/-! ## What a call does -/

/-- A call whose write has succeeded goes on to verify and to record it. -/
inductive Mode where
  | idle
  | succeeded
  deriving DecidableEq

def ProviderAction.allowedIdle : ProviderAction → Prop
  | .verifyWrite .. => False
  | .recordApprovalExecution succeeded .. => succeeded = false
  | _ => True

def ProviderAction.allowedSucceeded : ProviderAction → Prop
  | .verifyWrite .. => True
  | .recordApprovalExecution succeeded status _ _ => succeeded = true ∧ status ∈ executedStatuses
  | _ => False

def ProviderAction.moveIdle : (a : ProviderAction) → a.Answer → Mode
  | .executeWrite _ _, .ok result => if result.status = "succeeded" then .succeeded else .idle
  | _, _ => .idle

def ProviderAction.moveSucceeded : (a : ProviderAction) → a.Answer → Mode
  | .verifyWrite .., .ok _ => .succeeded
  | _, _ => .idle

def protocol : Program.Protocol Mode ProviderAction ProviderAction.Answer where
  allowed m a :=
    match m with
    | .idle => a.allowedIdle
    | .succeeded => a.allowedSucceeded
  move m a r :=
    match m with
    | .idle => a.moveIdle r
    | .succeeded => a.moveSucceeded r

/-- A call that starts in a mode, and is idle when it ends or raises. -/
@[irreducible] def Follows (m : Mode) (p : Writing α) : Prop :=
  Program.Follows protocol (fun m _ => m = .idle) m p.run

theorem follows_def {m : Mode} {p : Writing α} :
    Follows m p ↔ Program.Follows protocol (fun m _ => m = .idle) m p.run := by
  rw [Follows]

theorem follows_pure {x : α} : Follows .idle (pure x : Writing α) := follows_def.mpr rfl

theorem follows_throw {e : ApprovalError} : Follows .idle (throw e : Writing α) :=
  follows_def.mpr rfl

theorem follows_act {m : Mode} {a : ProviderAction} (ha : protocol.allowed m a)
    (hmove : ∀ r, protocol.move m a r = .idle) : Follows m (act a) :=
  follows_def.mpr ⟨ha, hmove⟩

/-- An action after which the call is idle, and goes on unless it raises. -/
theorem follows_act_bind {m : Mode} {a : ProviderAction} {f : a.Value → Writing α}
    (ha : protocol.allowed m a) (hmove : ∀ e, protocol.move m a (.error e) = .idle)
    (h : ∀ x, Follows (protocol.move m a (.ok x)) (f x)) : Follows m (act a >>= f) := by
  refine follows_def.mpr ⟨ha, ?_⟩
  intro r
  cases r with
  | ok x => exact follows_def.mp (h x)
  | error e => exact hmove e

theorem follows_bind {β : Type} {p : Writing α} {f : α → Writing β} (h : Follows .idle p)
    (hf : ∀ x, Follows .idle (f x)) : Follows .idle (p >>= f) := by
  refine follows_def.mpr (Program.Follows.bindExcept (follows_def.mp h) ?_ ?_)
  · rintro m x rfl
    exact follows_def.mp (hf x)
  · rintro m e rfl
    rfl

theorem follows_liftExcept (x : Except ApprovalError α) :
    Follows .idle (executeApproval.liftExcept x) := by
  cases x with
  | ok x => exact follows_pure
  | error e => exact follows_throw

theorem Verification.label_executed (v : Verification) : v.label ∈ executedStatuses := by
  cases v <;> decide

/-- A successful write is verified and recorded; any other is recorded. -/
theorem recordWrite_follows (p : Provider) (request : WriteRequest) (result : WriteResult) :
    Follows (if result.status = "succeeded" then .succeeded else .idle)
      (recordWrite p request result) := by
  unfold recordWrite
  split
  · refine follows_act_bind trivial (fun _ => rfl) ?_
    intro verification
    exact follows_act ⟨rfl, verification.1.label_executed⟩ fun _ => rfl
  · exact follows_act rfl fun _ => rfl

theorem executeApproval_follows (rt : WriteRuntime) (p : Provider) (approval : ApprovalRequest) :
    Follows .idle (executeApproval rt p approval) := by
  unfold executeApproval
  refine follows_bind (follows_liftExcept _) fun _ => ?_
  refine follows_act_bind trivial (fun _ => rfl) fun _ => ?_
  refine follows_bind (follows_liftExcept _) fun request => ?_
  exact follows_act_bind trivial (fun _ => rfl) fun result => recordWrite_follows p request result

theorem executeApprovalRequest_follows (rt : WriteRuntime) (requestId : ℕ) (p : Provider) :
    Follows .idle (executeApprovalRequest rt requestId p) := by
  unfold executeApprovalRequest
  refine follows_act_bind trivial (fun _ => rfl) ?_
  intro approval
  cases approval with
  | none => exact follows_throw
  | some approval => exact executeApproval_follows rt p approval

theorem orStored_follows {approval : ApprovalRequest} {execute : Writing ApprovalRequest}
    (h : Follows .idle execute) : Follows .idle (orStored approval execute) := by
  refine follows_def.mpr (Program.Follows.bind (follows_def.mp h) ?_)
  rintro m result rfl
  cases result with
  | ok approval => rfl
  | error e =>
      cases e with
      | runtimeError message =>
          refine ⟨trivial, ?_⟩
          intro r
          cases r <;> rfl
      | _ => rfl

theorem executeIfApproved_follows {p : Provider} {execute : Writing ApprovalRequest}
    {status : String} {approval : ApprovalRequest} (h : Follows .idle execute) :
    Follows .idle (executeIfApproved p execute status approval) := by
  unfold executeIfApproved
  split
  · exact orStored_follows h
  · exact follows_pure

theorem updateRoute_follows (rt : WriteRuntime) (requestId : ℕ) (status comment : String)
    (approverId : Option String) :
    Follows .idle (updateRoute rt requestId status comment approverId) := by
  unfold updateRoute
  refine follows_act_bind trivial (fun _ => rfl) ?_
  intro existing
  cases existing with
  | none => exact follows_throw
  | some existing =>
      refine follows_act_bind trivial (fun _ => rfl) fun _ => ?_
      unfold decideAndExecute
      split
      · refine follows_act_bind trivial (fun _ => rfl) fun linked => ?_
        refine follows_act_bind trivial (fun _ => rfl) fun approval => ?_
        refine follows_bind ?_ fun approval => ?_
        · exact executeIfApproved_follows (executeApprovalRequest_follows rt requestId halopsa)
        · exact executeIfApproved_follows (executeApprovalRequest_follows rt requestId connectwise)
      · exact follows_pure

theorem WriteCall.program_follows (rt : WriteRuntime) (requestId : ℕ) (call : WriteCall) :
    Program.Follows protocol (fun m _ => m = .idle) .idle (call.program rt requestId) := by
  cases call with
  | executeHalopsaApprovalRequest =>
      exact follows_def.mp (executeApprovalRequest_follows rt requestId halopsa)
  | executeConnectwiseApprovalRequest =>
      exact follows_def.mp (executeApprovalRequest_follows rt requestId connectwise)
  | updateApprovalRequest status comment approverId =>
      exact follows_def.mp (updateRoute_follows rt requestId status comment approverId)

/-! ## The stored request -/

section Stored

variable (rt : Runtime) {k : ℕ} {s s' : Store} {row : ApprovalRequest}

def Executed (k : ℕ) (s : Store) : Prop :=
  ∃ row ∈ s.requests.find? k, row.executionStatus ∈ executedStatuses

theorem Executed.update {p : ApprovalRequest → Bool} {f : ApprovalRequest → ApprovalRequest}
    {hf : ∀ r, (f r).id = r.id} (h : Executed k s)
    (hrequests : s'.requests = s.requests.update p f hf)
    (hkept : ∀ r, (f r).executionStatus = r.executionStatus) : Executed k s' := by
  obtain ⟨row, hrow, hexecuted⟩ := h
  have hfind : s'.requests.find? k = some (if p row then f row else row) := by
    rw [hrequests, AutoTable.find?_update, Option.mem_def.mp hrow]
    rfl
  refine ⟨_, hfind, ?_⟩
  split
  · rwa [hkept]
  · exact hexecuted

theorem Executed.expire (h : Executed k s) (row : ApprovalRequest) (clock : ExpiryClock) :
    Executed k (expireApprovalRequest rt s row clock).2 :=
  h.update (expireApprovalRequest_requests rt s row clock) fun _ => rfl

theorem Executed.get (h : Executed k s) (requestId : ℕ) (clock : ExpiryClock) :
    Executed k (getApprovalRequest rt s requestId clock).2 := by
  unfold getApprovalRequest
  split
  · exact h
  · exact h.expire rt _ clock

theorem Executed.closingRead {clock : ExpiryClock} {transaction : Except ApprovalError Store}
    (h : Executed k s) (hcommit : ∀ s', transaction = .ok s' → Executed k s') (requestId : ℕ) :
    Executed k (closingRead rt s requestId clock transaction).2 := by
  rw [closingRead_snd]
  cases transaction with
  | error e => exact h
  | ok s' => exact (hcommit s' rfl).get rt requestId clock

/-- A decision leaves the execution as it is. -/
theorem Executed.decide {update : UpdateRequest} {context : CallContext} (h : Executed k s)
    (hdecide : decideSelected rt s row update context = .ok s') : Executed k s' := by
  simp only [decideSelected, bind_eq_ok, raiseIf_eq_ok] at hdecide
  obtain ⟨-, -, -, -, hdecide⟩ := hdecide
  have hexpired := h.expire rt row context.expiry
  split at hdecide
  · cases hdecide
  · simp only [bind_eq_ok, raiseIf_eq_ok, pure_eq_ok] at hdecide
    obtain ⟨-, -, -, -, rfl⟩ := hdecide
    exact hexpired.update rfl fun _ => rfl

/-- The request can be recorded: the ticket is not in quarantine, the request has not expired. -/
structure Recordable (rt : Runtime) (k : ℕ) (s : Store) (context : CallContext) : Prop where
  stored : ∃ row ∈ s.requests.find? k, row.status ≠ .expired ∧
    row.isDue rt.calendar context.expiry.checkedAt = false ∧
    requireNotQuarantined context.tenancy (ticketIdFromPayload row.payload) = .ok ()

theorem recordSelected_executed {record : ExecutionRecord} {context : CallContext}
    (hid : record.requestId = k) (hrow : s.requests.find? k = some row)
    (hrecord : recordSelected rt s row record context = .ok s')
    (hstatus : record.status ∈ executedStatuses) : Executed k s' := by
  simp only [recordSelected, bind_eq_ok, raiseIf_eq_ok, pure_eq_ok] at hrecord
  obtain ⟨-, -, -, -, rfl⟩ := hrecord
  have hfound : (expireApprovalRequest rt s row context.expiry).2.requests.find? k =
      some (expireApprovalRequest rt s row context.expiry).1 :=
    find?_expireApprovalRequest hrow context.expiry
  have hrowId := find?_eq_some_id hfound
  refine ⟨ApprovalRequest.execute record.status record.message (rt.text context.now)
    (rt.redactValue record.result) (rt.text context.now)
    (expireApprovalRequest rt s row context.expiry).1, ?_, hstatus⟩
  rw [AutoTable.find?_update, hfound, Option.map_some, if_pos]
  · rfl
  · simp [hrowId, hid]

/-- A recorded write is there, and stays when the record of another write is of an executed one. -/
theorem Executed.record {record : ExecutionRecord} {context : CallContext}
    (hid : record.requestId = k) (h : Executed k s) (hstatus : record.status ∈ executedStatuses) :
    Executed k (recordApprovalExecution rt s record context).2 := by
  refine h.closingRead rt ?_ _
  intro s' hcommit
  rw [bind_eq_ok] at hcommit
  obtain ⟨row, hselect, hrecord⟩ := hcommit
  rw [hid] at hselect
  exact recordSelected_executed rt hid (selectRequest_eq_ok.mp hselect) hrecord hstatus

theorem Recordable.executed {record : ExecutionRecord} {context : CallContext}
    (h : Recordable rt k s context) (hid : record.requestId = k)
    (hstatus : record.status ∈ executedStatuses) :
    Executed k (recordApprovalExecution rt s record context).2 := by
  obtain ⟨row, hrow, hlive, hdue, hticket⟩ := h.stored
  have hkept : expireApprovalRequest rt s row context.expiry = (row, s) := by
    simp [expireApprovalRequest, hdue]
  have hselect : selectRequest s record.requestId = .ok row := by
    rw [hid]
    exact selectRequest_eq_ok.mpr hrow
  show Executed k (Approvals.closingRead rt s _ _ _).2
  rw [hselect, ok_bind, closingRead_snd]
  cases hrecord : recordSelected rt s row record context with
  | error e =>
      simp only [recordSelected, hticket, ok_bind, hkept, raiseIf_of_not hlive] at hrecord
      cases hrecord
  | ok s' => exact (recordSelected_executed rt hid hrow hrecord hstatus).get rt _ _

end Stored

/-! ## Turns -/

variable {W : Type}

/-- A caller is between its successful write and the record of it. -/
def Unrecorded (p : WritePool W) (w : W) : Prop :=
  match p.next? w with
  | some (_, .verifyWrite ..) => True
  | some (_, .recordApprovalExecution succeeded ..) => succeeded = true
  | _ => False

/-- A write is made only while the stored request has not been executed and nobody has a successful
write to record; the read-back of a successful write does not raise, and its record is accepted; the
record of another write is not made over an executed request. -/
def InTurn (desk : WriteDesk) (p : WritePool W) (input : ProviderInput) : ProviderAction → Prop
  | .executeWrite _ _ =>
      ¬ Executed desk.requestId p.shared.store ∧ ∀ v, ¬ Unrecorded p v
  | .verifyWrite .. => input.refusal = none
  | .recordApprovalExecution true _ _ _ =>
      input.refusal = none ∧
        Recordable desk.runtime.toRuntime desk.requestId p.shared.store input.context
  | .recordApprovalExecution false status _ _ =>
      input.refusal = none → status ∉ executedStatuses →
        ¬ Executed desk.requestId p.shared.store
  | _ => True

def TakesTurns (desk : WriteDesk) (p : WritePool W) :
    Program.PoolStep W WriteCall ProviderInput → Prop
  | .start _ _ => True
  | .act w input => ∀ next ∈ p.next? w, InTurn desk p input next.2

abbrev Tracks (p : WritePool W) (modes : W → Mode) : Prop :=
  Program.Tracks (fun _ : WriteCall => protocol) (fun m => m = .idle) .idle p.threads modes

variable {p : WritePool W}

theorem Tracks.unrecorded {modes : W → Mode} (h : Tracks p modes) {w : W}
    (hw : modes w = .succeeded) : Unrecorded p w := by
  have hidle : modes w ≠ .idle := by simp [hw]
  obtain ⟨call, a, hnext, hallowed⟩ := Program.Tracks.exists_next h hidle
  rw [hw] at hallowed
  rw [Unrecorded, hnext]
  cases a with
  | verifyWrite => trivial
  | recordApprovalExecution succeeded => exact hallowed.1
  | _ => exact hallowed.elim

/-- How far the request has come: no write has succeeded, or one has and is to be recorded, or is
recorded. -/
inductive Progress (k : ℕ) (s : Ledger) (modes : W → Mode) : Prop where
  | unwritten (hwrites : true ∉ s.writes) (hmodes : ∀ w, modes w = .idle)
  | pending (w : W) (hwrites : ∃ before, s.writes = before ++ [true] ∧ true ∉ before)
      (hw : modes w = .succeeded) (hother : ∀ v, v ≠ w → modes v = .idle)
  | recorded (hwrites : ∃ before, s.writes = before ++ [true] ∧ true ∉ before)
      (hexecuted : Executed k s.store) (hmodes : ∀ w, modes w = .idle)

theorem Progress.once {k : ℕ} {s : Ledger} {modes : W → Mode} (h : Progress k s modes) :
    s.writes.Pairwise fun first _ => first = false := by
  have hfalse : ∀ writes : List Bool, true ∉ writes → ∀ b ∈ writes, b = false := by
    intro writes hno b hb
    cases b with
    | false => rfl
    | true => exact absurd hb hno
  cases h with
  | unwritten hwrites =>
      exact List.pairwise_of_forall_mem_list fun b hb _ _ => hfalse _ hwrites b hb
  | pending w hwrites | recorded hwrites =>
      obtain ⟨before, heq, hbefore⟩ := hwrites
      rw [heq, List.pairwise_append]
      refine ⟨List.pairwise_of_forall_mem_list fun b hb _ _ => hfalse _ hbefore b hb,
        List.pairwise_singleton _ _, fun b hb _ _ => hfalse _ hbefore b hb⟩

section Steps

variable {desk : WriteDesk} {s s' : Ledger} {modes : W → Mode} {w : W}

/-- A step other than a write is refused, or performed. -/
theorem answer_cases (rt : WriteRuntime) (requestId : ℕ) (a : ProviderAction) (s : Ledger)
    (input : ProviderInput) (ha : ∀ p request, a ≠ .executeWrite p request) :
    (input.refusal.isSome ∧ (a.answer rt requestId s input).2 = s) ∨
      input.refusal = none ∧
        (a.answer rt requestId s input).2 = (a.perform rt requestId s input).2 := by
  unfold ProviderAction.answer
  cases hrefusal : input.refusal with
  | some e =>
      refine .inl ⟨rfl, ?_⟩
      cases a with
      | executeWrite p request => exact absurd rfl (ha p request)
      | _ => rfl
  | none =>
      refine .inr ⟨rfl, ?_⟩
      cases a <;> cases input.lateRefusal <;> rfl

/-- A step that writes nothing, of an idle caller. -/
theorem Progress.keep [DecidableEq W] {k : ℕ} (h : Progress k s modes) (hidle : modes w = .idle)
    (hwrites : s'.writes = s.writes) (hexecuted : Executed k s.store → Executed k s'.store) :
    Progress k s' (Function.update modes w .idle) := by
  rw [← hidle, Function.update_eq_self]
  cases h with
  | unwritten hno hmodes => exact .unwritten (hwrites ▸ hno) hmodes
  | pending v hone hv hother => exact .pending v (hwrites ▸ hone) hv hother
  | recorded hone hdone hmodes => exact .recorded (hwrites ▸ hone) (hexecuted hdone) hmodes

/-- A write in its turn is made before any other has succeeded. -/
theorem Progress.unwritten_of_turn (h : Progress desk.requestId p.shared modes)
    (htracks : Tracks p modes) (hexecuted : ¬ Executed desk.requestId p.shared.store)
    (hnobody : ∀ v, ¬ Unrecorded p v) : true ∉ p.shared.writes ∧ ∀ v, modes v = .idle := by
  cases h with
  | unwritten hno hmodes => exact ⟨hno, hmodes⟩
  | pending v hone hv hother => exact absurd (htracks.unrecorded hv) (hnobody v)
  | recorded hone hdone hmodes => exact absurd hdone hexecuted

theorem Progress.write [DecidableEq W] {provider : Provider}
    {request : WriteRequest} {input : ProviderInput}
    (hno : true ∉ p.shared.writes) (hmodes : ∀ v, modes v = .idle) :
    Progress desk.requestId
      ((ProviderAction.executeWrite provider request).answer desk.runtime desk.requestId p.shared
        input).2
      (Function.update modes w ((ProviderAction.executeWrite provider request).moveIdle
        ((ProviderAction.executeWrite provider request).answer desk.runtime desk.requestId p.shared
          input).1)) := by
  have hsame : Function.update modes w .idle = modes := by
    rw [← hmodes w, Function.update_eq_self]
  cases hrefusal : input.refusal with
  | some e =>
      simp only [ProviderAction.answer, hrefusal, ProviderAction.moveIdle, hsame]
      exact .unwritten (by simp [ProviderAction.refuse, hno]) hmodes
  | none =>
      simp only [ProviderAction.answer, hrefusal, ProviderAction.perform, ProviderAction.moveIdle]
      by_cases hstatus : input.written.status = "succeeded"
      · simp only [hstatus, if_true, beq_self_eq_true]
        refine .pending w ⟨p.shared.writes, rfl, hno⟩ (Function.update_self ..) ?_
        intro v hv
        rw [Function.update_of_ne hv]
        exact hmodes v
      · simp only [hstatus, if_false, hsame]
        exact .unwritten (by simp [hno, hstatus]) hmodes

theorem Progress.act_idle [DecidableEq W] {a : ProviderAction}
    {input : ProviderInput} (h : Progress desk.requestId p.shared modes) (htracks : Tracks p modes)
    (hidle : modes w = .idle) (hallowed : a.allowedIdle) (hturn : InTurn desk p input a) :
    Progress desk.requestId (a.answer desk.runtime desk.requestId p.shared input).2
      (Function.update modes w
        (a.moveIdle (a.answer desk.runtime desk.requestId p.shared input).1)) := by
  cases a with
  | executeWrite provider request =>
      obtain ⟨hno, hmodes⟩ := h.unwritten_of_turn htracks hturn.1 hturn.2
      exact .write hno hmodes
  | verifyWrite => exact hallowed.elim
  | recordApprovalExecution succeeded status message result =>
      obtain rfl : succeeded = false := hallowed
      have hcases := answer_cases desk.runtime desk.requestId
        (.recordApprovalExecution false status message result) p.shared input (fun _ _ => nofun)
      rcases hcases with ⟨-, hsame⟩ | ⟨hrefusal, hsame⟩
      · refine h.keep hidle (by rw [hsame]) fun hexecuted => ?_
        rwa [hsame]
      · refine h.keep hidle (by rw [hsame]; rfl) fun hexecuted => ?_
        rw [hsame]
        by_cases hstatus : status ∈ executedStatuses
        · exact hexecuted.record desk.runtime.toRuntime rfl hstatus
        · exact absurd hexecuted (hturn hrefusal hstatus)
  | getApprovalRequest =>
      have hcases := answer_cases desk.runtime desk.requestId .getApprovalRequest p.shared input
        (fun _ _ => nofun)
      rcases hcases with ⟨-, hsame⟩ | ⟨-, hsame⟩
      · exact h.keep hidle (by rw [hsame]) fun hexecuted => by rwa [hsame]
      · refine h.keep hidle (by rw [hsame]; rfl) fun hexecuted => ?_
        rw [hsame]
        exact hexecuted.get desk.runtime.toRuntime _ _
  | updateApprovalRequest status comment approverId allowCompleted =>
      have hcases := answer_cases desk.runtime desk.requestId
        (.updateApprovalRequest status comment approverId allowCompleted) p.shared input
        (fun _ _ => nofun)
      rcases hcases with ⟨-, hsame⟩ | ⟨-, hsame⟩
      · exact h.keep hidle (by rw [hsame]) fun hexecuted => by rwa [hsame]
      · refine h.keep hidle (by rw [hsame]; rfl) fun hexecuted => ?_
        rw [hsame]
        refine hexecuted.closingRead desk.runtime.toRuntime ?_ _
        intro s' hcommit
        rw [bind_eq_ok] at hcommit
        obtain ⟨row, -, hdecide⟩ := hcommit
        exact hexecuted.decide desk.runtime.toRuntime hdecide
  | authorize | requireNotQuarantined ticketId | hasWorkflowRun =>
      refine h.keep hidle ?_ ?_
      all_goals
        unfold ProviderAction.answer
        cases input.refusal <;> cases input.lateRefusal <;> first | rfl | exact id

theorem Progress.act_succeeded [DecidableEq W] {a : ProviderAction}
    {input : ProviderInput} (h : Progress desk.requestId p.shared modes)
    (hw : modes w = .succeeded) (hallowed : a.allowedSucceeded)
    (hturn : InTurn desk p input a) :
    Progress desk.requestId (a.answer desk.runtime desk.requestId p.shared input).2
      (Function.update modes w
        (a.moveSucceeded (a.answer desk.runtime desk.requestId p.shared input).1)) := by
  cases a with
  | verifyWrite provider request result =>
      have hrefusal : input.refusal = none := hturn
      simp only [ProviderAction.answer, hrefusal, ProviderAction.perform,
        ProviderAction.moveSucceeded]
      rw [← hw, Function.update_eq_self]
      exact h
  | recordApprovalExecution succeeded status message result =>
      obtain ⟨rfl, hstatus⟩ := hallowed
      obtain ⟨hrefusal, hrecordable⟩ := hturn
      have hcases := answer_cases desk.runtime desk.requestId
        (.recordApprovalExecution true status message result) p.shared input (fun _ _ => nofun)
      rcases hcases with ⟨hsome, -⟩ | ⟨-, hsame⟩
      · rw [hrefusal] at hsome
        cases hsome
      · rw [hsame]
        have hexecuted : Executed desk.requestId
            ((ProviderAction.recordApprovalExecution true status message result).perform
              desk.runtime desk.requestId p.shared input).2.store :=
          hrecordable.executed desk.runtime.toRuntime rfl hstatus
        cases h with
        | unwritten hno hmodes =>
            rw [hmodes w] at hw
            cases hw
        | recorded hone hdone hmodes =>
            rw [hmodes w] at hw
            cases hw
        | pending v hone hv hother =>
            refine .recorded hone hexecuted ?_
            intro u
            by_cases huw : u = w
            · rw [huw, Function.update_self]
              rfl
            · rw [Function.update_of_ne huw]
              by_cases huv : u = v
              · by_contra
                have hwv : w ≠ v := fun hwv => huw (huv.trans hwv.symm)
                rw [hother w hwv] at hw
                cases hw
              · exact hother u huv
  | _ => exact hallowed.elim

end Steps

/-- Callers that take turns: once a write has succeeded, no other is started. -/
theorem writes_once [DecidableEq W] (desk : WriteDesk)
    (ls : List (Program.PoolStep W WriteCall ProviderInput))
    (hturns : (providerWrites W desk).Guarded (TakesTurns desk) ls) :
    ((providerWrites W desk).run ls).shared.writes.Pairwise fun first _ => first = false := by
  have hrun : ∃ modes, Tracks ((providerWrites W desk).run ls) modes ∧
      Progress desk.requestId ((providerWrites W desk).run ls).shared modes := by
    refine Program.pool_invariant (G := TakesTurns desk)
      (I := fun s modes => Progress desk.requestId s modes)
      (WriteCall.program_follows desk.runtime desk.requestId)
      (.unwritten (by simp) fun _ => rfl) ?_ ?_ hturns
    · intro s modes w hs hidle
      rwa [← hidle, Function.update_eq_self]
    · intro p modes w call a next input htracks hs hw hallowed hguard
      have hnext : p.next? w = some (call, a) := by simp [Program.Pool.next?, hw, Program.head?]
      have hturn := hguard _ hnext
      cases hmode : modes w with
      | idle =>
          rw [hmode] at hallowed
          exact hs.act_idle htracks hmode hallowed hturn
      | succeeded =>
          rw [hmode] at hallowed
          exact hs.act_succeeded hmode hallowed hturn
  obtain ⟨modes, -, hprogress⟩ := hrun
  exact hprogress.once

/-! ## Two technicians -/

instance decidableExecuted (k : ℕ) (s : Store) : Decidable (Executed k s) :=
  inferInstanceAs (Decidable (∃ row ∈ s.requests.find? k, row.executionStatus ∈ executedStatuses))

instance decidableRecordable (rt : Runtime) (k : ℕ) (s : Store) (context : CallContext) :
    Decidable (Recordable rt k s context) :=
  decidable_of_iff (∃ row ∈ s.requests.find? k, row.status ≠ .expired ∧
    row.isDue rt.calendar context.expiry.checkedAt = false ∧
    requireNotQuarantined context.tenancy (ticketIdFromPayload row.payload) = .ok ())
    ⟨fun h => ⟨h⟩, fun h => h.stored⟩

instance decidableUnrecorded (p : WritePool W) (w : W) : Decidable (Unrecorded p w) := by
  unfold Unrecorded
  split <;> infer_instance

instance decidableInTurn [Fintype W] (desk : WriteDesk) (p : WritePool W) (input : ProviderInput) :
    (a : ProviderAction) → Decidable (InTurn desk p input a)
  | .executeWrite _ _ => inferInstanceAs (Decidable
      (¬ Executed desk.requestId p.shared.store ∧ ∀ v, ¬ Unrecorded p v))
  | .verifyWrite .. => inferInstanceAs (Decidable (input.refusal = none))
  | .recordApprovalExecution true _ _ _ => inferInstanceAs (Decidable (input.refusal = none ∧
      Recordable desk.runtime.toRuntime desk.requestId p.shared.store input.context))
  | .recordApprovalExecution false status _ _ => inferInstanceAs (Decidable
      (input.refusal = none → status ∉ executedStatuses →
        ¬ Executed desk.requestId p.shared.store))
  | .getApprovalRequest => inferInstanceAs (Decidable True)
  | .authorize => inferInstanceAs (Decidable True)
  | .requireNotQuarantined _ => inferInstanceAs (Decidable True)
  | .hasWorkflowRun => inferInstanceAs (Decidable True)
  | .updateApprovalRequest .. => inferInstanceAs (Decidable True)

instance decidableTakesTurns [Fintype W] (desk : WriteDesk) (p : WritePool W) :
    (l : Program.PoolStep W WriteCall ProviderInput) → Decidable (TakesTurns desk p l)
  | .start _ _ => inferInstanceAs (Decidable True)
  | .act w input =>
      inferInstanceAs (Decidable (∀ next ∈ p.next? w, InTurn desk p input next.2))

def notePayload : JsonObject :=
  [⟨"connector", .text "halopsa"⟩, ⟨"ticket_id", .text "T-1"⟩,
    ⟨"action_type", .text "add_note"⟩,
    ⟨"fields", .object [⟨"note", .text "Password was reset"⟩].toAList⟩].toAList

def approvedNote : ApprovalRequest where
  id := 1
  subjectId := "T-1"
  actionType := "halopsa.add_note"
  payload := notePayload
  status := .approved
  comment := ""
  createdAt := "2026-01-05T09:00:00+00:00"
  updatedAt := "2026-01-05T09:00:00+00:00"

def approvedNotes : AutoTable ApprovalRequest.id :=
  AutoTable.empty.insert (fun id => { approvedNote with id }) fun _ => rfl

def approvedDesk : WriteDesk where
  runtime := { toRuntime := morningRuntime, str := fun _ => "" }
  requestId := 1
  store := { requests := approvedNotes, workflowRuns := .empty, actionRuns := .empty }

def sent : WriteResult :=
  { status := "succeeded", message := "HaloPSA add_note write succeeded.", actionType := "add_note"
    ticketId := "T-1" }

def atNine (w : Bool) : Program.PoolStep Bool WriteCall ProviderInput :=
  .act w { context := morningContext 0, written := sent }

/-- One technician executes the note, the other finds it executed. -/
def oneAfterTheOther : List (Program.PoolStep Bool WriteCall ProviderInput) :=
  .start true .executeHalopsaApprovalRequest :: List.replicate 6 (atNine true) ++
    .start false .executeHalopsaApprovalRequest :: List.replicate 2 (atNine false)

/-- Both technicians have read the note before either of them executes it. -/
def bothRead : List (Program.PoolStep Bool WriteCall ProviderInput) :=
  [.start true .executeHalopsaApprovalRequest, .start false .executeHalopsaApprovalRequest,
    atNine true, atNine false, atNine true, atNine false, atNine true, atNine false]

theorem writes_once_oneAfterTheOther :
    ((providerWrites Bool approvedDesk).run oneAfterTheOther).shared.writes.Pairwise
      fun first _ => first = false :=
  writes_once approvedDesk oneAfterTheOther (by decide)

theorem not_writes_once :
    ¬ ((providerWrites Bool approvedDesk).run bothRead).shared.writes.Pairwise
      fun first _ => first = false := by
  have hwrites : ((providerWrites Bool approvedDesk).run bothRead).shared.writes =
      [true, true] := by
    decide
  rw [hwrites]
  decide

end WaitLocalAgent.ProviderWrites
