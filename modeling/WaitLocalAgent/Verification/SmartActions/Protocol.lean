import WaitLocalAgent.Model.SmartActions

/-! # The protocol of an approval

How a call on an approval comes to run the action, and what it does about the run afterwards. Every
call follows the protocol, whatever the store answers. -/

namespace WaitLocalAgent.SmartActions

open Foundation Approvals Program

variable {rt : Runtime} {registry : Registry} {k : ℕ} {α β : Type}

/-! ## Modes -/

/-- How far a caller has come. `lost` is where answers lead that the store does not give. -/
inductive Mode where
  | idle
  | selected (row : ApprovalRequest)
  | seen
  | entered (run : SmartActionRun)
  | effected (approver : String) (runId : ℕ)
  | confirmed (approver : String) (runId : ℕ)
  | ready (approver : String) (runId : ℕ)
  | lost

/-- Nothing to finish: the caller has at most seen the request approved. -/
def Mode.Calm : Mode → Prop
  | idle | seen | lost => True
  | _ => False

/-- Where a call may end: its caller has not run the action, or has finished the run. -/
def Mode.AtRest : Mode → Prop
  | idle | seen | lost | entered _ => True
  | _ => False

def Mode.ofSelect : Option ApprovalRequest → Mode
  | some row => .selected row
  | none => .idle

/-- The actions of a caller on approval `k`, under the name `approver`. -/
def protocol (k : ℕ) (approver : Option String) :
    Protocol Mode ServiceAction ServiceAction.Answer where
  allowed m a := m = .lost ∨ match a with
    | .selectRequest approvalId => m.Calm ∧ approvalId = k
    | .expireRequest row => m = .selected row
    | .getTicket .completion _ => m.Calm ∨ ∃ run, m = .entered run
    | .getTicket _ _ => m.Calm
    | .decideRequest row update =>
        m = .selected row ∧ update.requestId = k ∧ update.allowCompleted = false
    | .listRuns approvalId => m.Calm ∧ approvalId = k
    | .runAction approvalId call => approvalId = k ∧ ∃ run name, m = .entered run ∧
        call.actor = run.actor ∧ approver = some name ∧ name ≠ run.actor
    | .selectRun runId => m.Calm ∨ (∃ run, m = .entered run) ∨ ∃ name, m = .effected name runId
    | .selectApproval approvalId => approvalId = k ∧ (m.Calm ∨ ∃ name id, m = .confirmed name id)
    | .finishRun runId result =>
        completable result.status ∧ (m.Calm ∨ ∃ name, m = .ready name runId)
  move m a := match m, a with
    | .lost, _ => fun _ => .lost
    | _, .selectRequest _ => Mode.ofSelect
    | _, .expireRequest _ => fun r =>
        if r.status = .approved ∧ r.isSmartAction then .seen else .idle
    | .seen, .listRuns _ => fun r =>
        match r with
        | some run => if run.status = .pendingApproval then .entered run else .idle
        | none => .idle
    | .entered run, .getTicket _ _ => fun r => if r then .idle else .entered run
    | .entered run, .runAction _ _ => fun r =>
        match approver with
        | some name => if completable r.status then .effected name run.id else .lost
        | none => .lost
    | .effected name runId, .selectRun _ => fun r =>
        match r with
        | some run =>
            if run.status ≠ .pendingApproval then .idle
            else if run.approvalId = some k then .confirmed name runId else .lost
        | none => .lost
    | .confirmed name runId, .selectApproval _ => fun r =>
        if r.any fun row => row.isSmartAction && row.status == .approved &&
          row.approverId == some name then .ready name runId else .lost
    | _, _ => fun _ => .idle

/-- Calm after a result, at rest after an exception. -/
def Settles (m : Mode) : Except ServiceError α → Prop
  | .ok _ => m.Calm
  | .error _ => m.AtRest

theorem Mode.Calm.atRest {m : Mode} (h : m.Calm) : m.AtRest := by
  cases m <;> trivial

theorem Mode.Calm.cases {m : Mode} (h : m.Calm) : m = .idle ∨ m = .seen ∨ m = .lost := by
  cases m with
  | idle => exact .inl rfl
  | seen => exact .inr (.inl rfl)
  | lost => exact .inr (.inr rfl)
  | _ => cases h

section Follows

variable {approver : Option String} {m : Mode}

/-- Once lost, a caller may do anything. -/
theorem follows_lost {Q : Mode → Except ServiceError α → Prop} (hQ : ∀ x, Q .lost x)
    (p : Program ServiceAction ServiceAction.Answer (Except ServiceError α)) :
    Follows (protocol k approver) Q .lost p := by
  induction p with
  | done result => exact hQ result
  | act a next ih => exact ⟨.inl rfl, ih⟩

theorem settles_lost (x : Except ServiceError α) : Settles .lost x := by
  cases x <;> trivial

theorem follows_pure (x : α) (hm : m.Calm) :
    Follows (protocol k approver) Settles m (pure x : Service α).run := hm

theorem follows_raise (error : ApprovalError) (hm : m.AtRest) :
    Follows (protocol k approver) Settles m (raise error : Service α).run := hm

theorem follows_throw (error : ServiceError) (hm : m.AtRest) :
    Follows (protocol k approver) Settles m (throw error : Service α).run := hm

theorem follows_bind {p : Service α} {f : α → Service β}
    (hp : Follows (protocol k approver) Settles m p.run)
    (hf : ∀ x m, m.Calm → Follows (protocol k approver) Settles m (f x).run) :
    Follows (protocol k approver) Settles m (p >>= f).run :=
  Follows.bindExcept hp (fun m x hx => hf x m hx) fun _ _ he => he

theorem follows_ask_bind {a : ServiceAction} {f : a.Answer → Service β}
    {Q : Mode → Except ServiceError β → Prop} (ha : (protocol k approver).allowed m a)
    (hf : ∀ r, Follows (protocol k approver) Q ((protocol k approver).move m a r) (f r).run) :
    Follows (protocol k approver) Q m (ask a >>= f).run := ⟨ha, hf⟩

theorem follows_check {f : Unit → Service β} {condition : Prop} [Decidable condition]
    {error : ApprovalError} (hm : m.AtRest)
    (hf : ¬ condition → Follows (protocol k approver) Settles m (f ()).run) :
    Follows (protocol k approver) Settles m (check condition error >>= f).run := by
  unfold check
  by_cases h : condition
  · rw [if_pos h]
    exact hm
  · rw [if_neg h]
    exact hf h

/-! ## Reads and decisions -/

/-- After `get_approval_request`: a smart-action request was seen approved if it is returned so. -/
def Sees (m : Mode) : Except ServiceError (Option ApprovalRequest) → Prop
  | .ok found => m.Calm ∧ ∀ row, found = some row → row.isSmartAction →
      m = .lost ∨ (m = .seen ↔ row.status = .approved)
  | .error _ => m.AtRest

theorem sees_lost (x : Except ServiceError (Option ApprovalRequest)) : Sees .lost x := by
  cases x with
  | ok found => exact ⟨trivial, fun _ _ _ => .inl rfl⟩
  | error e => trivial

theorem move_selectRequest (hm : m.Calm) (found : Option ApprovalRequest) :
    (protocol k approver).move m (.selectRequest k) found = .lost ∨
      (protocol k approver).move m (.selectRequest k) found = Mode.ofSelect found := by
  rcases hm.cases with rfl | rfl | rfl
  · exact .inr rfl
  · exact .inr rfl
  · exact .inl rfl

theorem follows_getApproval (hm : m.Calm) :
    Follows (protocol k approver) Sees m (getApproval rt k).run := by
  refine follows_ask_bind (.inr ⟨hm, rfl⟩) fun found => ?_
  rcases move_selectRequest hm found with hlost | hselected
  · rw [hlost]
    exact follows_lost sees_lost _
  · rw [hselected]
    cases found with
    | none => exact ⟨trivial, fun row hrow => by cases hrow⟩
    | some row =>
        refine follows_ask_bind (.inr rfl) fun row' => ?_
        by_cases happroved : row'.status = .approved ∧ row'.isSmartAction
        · have hseen : (protocol k approver).move (Mode.ofSelect (some row)) (.expireRequest row)
              row' = .seen := if_pos happroved
          rw [hseen]
          refine ⟨trivial, ?_⟩
          rintro _ hrow -
          cases hrow
          exact .inr ⟨fun _ => happroved.1, fun _ => rfl⟩
        · have hidle : (protocol k approver).move (Mode.ofSelect (some row)) (.expireRequest row)
              row' = .idle := if_neg happroved
          rw [hidle]
          refine ⟨trivial, ?_⟩
          rintro _ hrow hsmart
          cases hrow
          exact .inr ⟨fun hseen => (nomatch hseen),
            fun hstatus => absurd ⟨hstatus, hsmart⟩ happroved⟩

theorem Sees.settles {x : Except ServiceError (Option ApprovalRequest)} (h : Sees m x) :
    Settles m x := by
  cases x with
  | ok found => exact h.1
  | error e => exact h

/-- A lookup outside of a completion keeps its caller calm. -/
theorem follows_isQuarantined {site : CallSite} {ticketId : Option String} (hm : m.Calm) :
    Follows (protocol k approver) Settles m (isQuarantined site ticketId).run := by
  cases ticketId with
  | none => exact hm
  | some ticketId =>
      refine ⟨?_, fun r => ?_⟩
      · right
        cases site with
        | update => exact hm
        | completion => exact .inl hm
        | resume => exact hm
      · rcases hm.cases with rfl | rfl | rfl <;> trivial

theorem follows_storeUpdate {update : UpdateRequest} (hid : update.requestId = k)
    (hallow : update.allowCompleted = false) (hm : m.Calm) :
    Follows (protocol k approver) Settles m (storeUpdate rt update).run := by
  rw [storeUpdate, hid]
  refine follows_ask_bind (.inr ⟨hm, rfl⟩) fun found => ?_
  rcases move_selectRequest hm found with hlost | hselected
  · rw [hlost]
    exact follows_lost settles_lost _
  · rw [hselected]
    cases found with
    | none => exact follows_raise _ trivial
    | some row =>
        refine follows_ask_bind (.inr ⟨rfl, hid, hallow⟩) fun result => ?_
        have hmove : (protocol k approver).move (Mode.ofSelect (some row))
            (.decideRequest row update) result = .idle := rfl
        rw [hmove]
        cases result with
        | error e => exact follows_raise _ trivial
        | ok u =>
            refine follows_bind
              ((follows_getApproval (m := .idle) trivial).imp fun _ _ => Sees.settles) ?_
            intro request m hm
            cases request with
            | some request => exact hm
            | none => exact follows_raise _ hm.atRest

/-! ## Completions -/

theorem follows_finishRun {runId : ℕ} {result : ActionResult}
    (hcompletable : completable result.status = true)
    (hm : m.Calm ∨ ∃ name, m = .ready name runId) :
    Follows (protocol k approver) Settles m
      (ask (.finishRun runId result) >>= fun updated =>
        check (¬ updated) (.keyError runId)).run := by
  refine follows_ask_bind (.inr ⟨hcompletable, hm⟩) fun updated => ?_
  have hcalm : ((protocol k approver).move m (.finishRun runId result) updated).Calm := by
    rcases hm with hm | ⟨name, rfl⟩
    · rcases hm.cases with rfl | rfl | rfl <;> trivial
    · trivial
  have hdone : ∀ u : Unit, Follows (protocol k approver) Settles
      ((protocol k approver).move m (.finishRun runId result) updated)
      (pure u : Service Unit).run := fun u => hcalm
  unfold check
  split
  · exact follows_raise _ hcalm.atRest
  · exact hdone ()

theorem follows_finishUnderApproval {runId : ℕ} {result : ActionResult} {name : String}
    (hcompletable : completable result.status = true)
    (hm : m.Calm ∨ m = .confirmed name runId) :
    Follows (protocol k approver) Settles m (finishUnderApproval runId result k name).run := by
  have hallowed : m.Calm ∨ ∃ name id, m = .confirmed name id := by
    rcases hm with hm | hm
    · exact .inl hm
    · exact .inr ⟨name, runId, hm⟩
  refine follows_ask_bind (.inr ⟨rfl, hallowed⟩) fun found => ?_
  rcases hm with hm | rfl
  · have hcalm : ((protocol k approver).move m (.selectApproval k) found).Calm := by
      rcases hm.cases with rfl | rfl | rfl <;> trivial
    cases found with
    | none => exact follows_raise _ hcalm.atRest
    | some approval =>
        refine follows_check hcalm.atRest fun _ => ?_
        refine follows_check hcalm.atRest fun _ => ?_
        refine follows_check hcalm.atRest fun _ => ?_
        exact follows_finishRun hcompletable (.inl hcalm)
  · by_cases hfound : found.any fun row => row.isSmartAction && row.status == .approved &&
        row.approverId == some name
    · have hready : (protocol k approver).move (.confirmed name runId) (.selectApproval k) found =
          .ready name runId := if_pos hfound
      rw [hready]
      cases found with
      | none => cases hfound
      | some approval =>
          simp only [Option.any_some, Bool.and_eq_true, beq_iff_eq] at hfound
          obtain ⟨⟨hsmart, hstatus⟩, hname⟩ := hfound
          -- nothing is refused any more
          have hby : approval.approverId.getD "" = name := by
            rw [hname]
            rfl
          simp only [check, hsmart, hstatus, hby, not_true_eq_false, if_false, ne_eq, false_and]
          exact follows_finishRun hcompletable (.inr ⟨name, rfl⟩)
    · have hlost : (protocol k approver).move (.confirmed name runId) (.selectApproval k) found =
          .lost := if_neg hfound
      rw [hlost]
      exact follows_lost settles_lost _

theorem follows_completeSmartActionRun {runId : ℕ} {result : ActionResult} {name : String}
    (hm : m.Calm ∨ (∃ run, m = .entered run) ∨
      m = .effected name runId ∧ name ≠ "" ∧ completable result.status) :
    Follows (protocol k approver) Settles m (completeSmartActionRun runId result k name).run := by
  have hallowed : m.Calm ∨ (∃ run, m = .entered run) ∨ ∃ name, m = .effected name runId := by
    rcases hm with hm | hm | ⟨hm, -⟩
    · exact .inl hm
    · exact .inr (.inl hm)
    · exact .inr (.inr ⟨name, hm⟩)
  refine follows_ask_bind (.inr hallowed) fun found => ?_
  have hcalm_or : ((protocol k approver).move m (.selectRun runId) found).Calm ∨
      m = .effected name runId ∧ name ≠ "" ∧ completable result.status := by
    rcases hm with hm | ⟨run, rfl⟩ | hm
    · rcases hm.cases with rfl | rfl | rfl <;> exact .inl trivial
    · exact .inl trivial
    · exact .inr hm
  rcases hcalm_or with hcalm | ⟨rfl, hname, hcompletable⟩
  · cases found with
    | none => exact follows_raise _ hcalm.atRest
    | some current =>
        refine follows_check hcalm.atRest fun _ => ?_
        refine follows_check hcalm.atRest fun hcompletable => ?_
        refine follows_check hcalm.atRest fun _ => ?_
        exact follows_finishUnderApproval (by simpa using hcompletable) (.inl hcalm)
  · cases found with
    | none => exact follows_lost settles_lost _
    | some current =>
        by_cases hpending : current.status = .pendingApproval
        · by_cases hlinked : current.approvalId = some k
          · have hmove : (protocol k approver).move (.effected name runId) (.selectRun runId)
                (some current) = .confirmed name runId := by
              simp [protocol, hpending, hlinked]
            rw [hmove]
            simp only [check, hpending, hlinked, hname, hcompletable, ne_eq, not_true_eq_false,
              if_false, or_self]
            exact follows_finishUnderApproval hcompletable (.inr rfl)
          · have hmove : (protocol k approver).move (.effected name runId) (.selectRun runId)
                (some current) = .lost := by
              simp [protocol, hpending, hlinked]
            rw [hmove]
            exact follows_lost settles_lost _
        · have hmove : (protocol k approver).move (.effected name runId) (.selectRun runId)
              (some current) = .idle := if_pos hpending
          rw [hmove]
          refine follows_check trivial fun hnot => ?_
          exact absurd hpending hnot

variable {role : Option Access.Role}

/-- A check of the approver ends the call or returns an approver that is named. -/
theorem follows_requireApprover_bind {f : String → Service β}
    (hm : m.AtRest) (hf : ∀ name, approver = some name → name ≠ "" →
      Follows (protocol k approver) Settles m (f name).run) :
    Follows (protocol k approver) Settles m (requireApprover approver role >>= f).run := by
  unfold requireApprover
  cases hname : approver.filter fun name => Text.strip name != "" with
  | none => exact follows_raise _ hm
  | some name =>
      obtain ⟨happrover, hstrip⟩ := Option.filter_eq_some_iff.mp hname
      simp only
      split
      · refine hf name happrover ?_
        rintro rfl
        exact absurd hstrip (by decide)
      · exact follows_raise _ hm

theorem follows_requireRegisteredRole_bind {actionId : String}
    {f : Unit → Service β} (hm : m.AtRest)
    (hf : Follows (protocol k approver) Settles m (f ()).run) :
    Follows (protocol k approver) Settles m
      (requireRegisteredRole registry actionId role >>= f).run := by
  unfold requireRegisteredRole
  split
  · exact follows_check hm fun _ => hf
  · exact hf

/-- The approved action is run and its run finished, or given up. -/
theorem follows_runApproved {approval : ApprovalRequest} {run : SmartActionRun} {name : String}
    (happrover : approver = some name) (hname : name ≠ "")
    (hactor : name ≠ run.actor) :
    Follows (protocol k approver) Settles (.entered run)
      (runApproved rt registry k approval run name role).run := by
  refine follows_requireRegisteredRole_bind trivial ?_
  have hgiven : ∀ result : ActionResult, Follows (protocol k approver) Settles (.entered run)
      (completeSmartActionRun run.id (approvedResult rt result) k name >>= fun _ =>
        (pure { approvedResult rt result with
          runId := some run.id, approvalId := some k } : Service ActionResult)).run := by
    intro result
    exact follows_bind (follows_completeSmartActionRun (.inr (.inl ⟨run, rfl⟩)))
      fun _ m hm => follows_pure _ hm
  unfold callAction
  simp only
  split
  · exact hgiven _
  · exact hgiven _
  · rename_i payload manifest _ _
    refine follows_ask_bind (.inr ⟨rfl, run, name, rfl, rfl, happrover, hactor⟩) fun result => ?_
    by_cases hcompletable : completable result.status = true
    · have hmove : (protocol k approver).move (.entered run) (.runAction k
            ⟨actionIdOf approval, run.actor, approval.clientId, payload⟩) result =
          .effected name run.id := by
        simp [protocol, happrover, hcompletable]
      rw [hmove]
      exact follows_bind (follows_completeSmartActionRun (.inr (.inr ⟨rfl, hname, hcompletable⟩)))
        fun _ m hm => follows_pure _ hm
    · have hmove : (protocol k approver).move (.entered run) (.runAction k
            ⟨actionIdOf approval, run.actor, approval.clientId, payload⟩) result = .lost := by
        simp [protocol, happrover, hcompletable]
      rw [hmove]
      exact follows_lost settles_lost _

theorem follows_isQuarantined_entered {run : SmartActionRun} {ticketId : Option String}
    {f : Bool → Service β} (htrue : Follows (protocol k approver) Settles .idle (f true).run)
    (hfalse : Follows (protocol k approver) Settles (.entered run) (f false).run) :
    Follows (protocol k approver) Settles (.entered run)
      (isQuarantined .completion ticketId >>= f).run := by
  cases ticketId with
  | none => exact hfalse
  | some ticketId =>
      refine follows_ask_bind (.inr (.inr ⟨run, rfl⟩)) fun r => ?_
      cases r with
      | true => exact htrue
      | false => exact hfalse

theorem follows_completeApproval (hm : m.Calm) :
    Follows (protocol k approver) Settles m
      (completeApproval rt registry k approver role).run := by
  refine (follows_getApproval hm).bindExcept (fun m found hsees => ?_) fun m e he => he
  obtain ⟨hcalm, hsees⟩ := hsees
  cases hsmart : found.filter ApprovalRequest.isSmartAction with
  | none => exact follows_pure _ hcalm
  | some approval =>
      obtain ⟨hfound, hsmart⟩ := Option.filter_eq_some_iff.mp hsmart
      refine follows_ask_bind (.inr ⟨hcalm, rfl⟩) fun listed => ?_
      rcases hsees approval hfound hsmart with rfl | hseen
      · exact follows_lost settles_lost _
      cases listed with
      | none =>
          refine follows_throw _ ?_
          rcases hcalm.cases with rfl | rfl | rfl <;> trivial
      | some run =>
          by_cases hentered : m = .seen ∧ run.status = .pendingApproval
          · obtain ⟨rfl, hpending⟩ := hentered
            have happroved : approval.status = .approved := hseen.mp rfl
            have hmove : (protocol k approver).move .seen (.listRuns k) (some run) =
                .entered run := if_pos hpending
            rw [hmove]
            refine follows_isQuarantined_entered (follows_pure _ trivial) ?_
            refine follows_requireApprover_bind trivial fun name happrover hname => ?_
            refine follows_check trivial fun hactor => ?_
            simp only [happroved, hpending]
            exact follows_bind (follows_runApproved happrover hname (Ne.intro hactor)) fun _ m hm =>
              follows_pure _ hm
          · have hidle : ((protocol k approver).move m (.listRuns k) (some run)).Calm := by
              rcases hcalm.cases with rfl | rfl | rfl
              · trivial
              · have hmove : (protocol k approver).move .seen (.listRuns k) (some run) = .idle :=
                  if_neg fun hpending => hentered ⟨rfl, hpending⟩
                rw [hmove]
                trivial
              · trivial
            refine follows_bind (follows_isQuarantined hidle) fun quarantined m' hm' => ?_
            cases quarantined with
            | true => exact follows_pure _ hm'
            | false =>
                refine follows_requireApprover_bind hm'.atRest fun name happrover hname => ?_
                refine follows_check hm'.atRest fun _ => ?_
                cases hstatus : approval.status with
                | expired => exact follows_pure _ hm'
                | rejected =>
                    exact follows_bind (follows_completeSmartActionRun (.inl hm'))
                      fun _ _ hm => follows_pure _ hm
                | pending => exact follows_pure _ hm'
                | approved =>
                    have hdone : run.status ≠ .pendingApproval := fun hpending =>
                      hentered ⟨hseen.mpr hstatus, hpending⟩
                    simp only [if_pos hdone]
                    exact follows_pure _ hm'

/-! ## Whole calls -/

theorem follows_getApproval_bind {f : Option ApprovalRequest → Service β} (hm : m.Calm)
    (hf : ∀ found m, m.Calm → Follows (protocol k approver) Settles m (f found).run) :
    Follows (protocol k approver) Settles m (getApproval rt k >>= f).run :=
  follows_bind ((follows_getApproval hm).imp fun _ _ => Sees.settles) hf

theorem follows_decideApproval {status comment : String}
    (hm : m.Calm) : Follows (protocol k approver) Settles m
      (decideApproval rt registry k status comment approver role).run := by
  refine follows_getApproval_bind hm fun found m hm => ?_
  cases found with
  | none => exact follows_raise _ hm.atRest
  | some approval =>
      refine follows_bind (follows_isQuarantined hm) fun quarantined m hm => ?_
      refine follows_check hm.atRest fun _ => ?_
      split
      · refine follows_requireApprover_bind hm.atRest fun name _ _ => ?_
        have hstored : Follows (protocol k approver) Settles m
            (storeUpdate rt ⟨k, status, comment, some name, false, true⟩ >>= fun updated =>
              (pure (updated, true) : Service (ApprovalRequest × Bool))).run :=
          follows_bind (follows_storeUpdate rfl rfl hm) fun _ _ hm => follows_pure _ hm
        unfold requireDecisionRole
        split
        · exact follows_requireRegisteredRole_bind hm.atRest hstored
        · exact hstored
      · exact follows_bind (follows_storeUpdate rfl rfl hm) fun _ _ hm => follows_pure _ hm

theorem follows_updateApproval {status comment : String}
    (hm : m.Calm) : Follows (protocol k approver) Settles m
      (updateApproval rt registry k status comment approver role).run := by
  refine follows_bind (follows_decideApproval hm) fun decided m hm => ?_
  obtain ⟨updated, smartAction⟩ := decided
  cases smartAction with
  | false => exact follows_pure _ hm
  | true =>
      refine follows_bind (follows_completeApproval hm) fun _ m hm => ?_
      exact follows_getApproval_bind hm fun _ _ hm => follows_pure _ hm

theorem follows_completion {name : String} {role : Access.Role} (hm : m.Calm) :
    Follows (protocol k (some name)) Settles m
      (completeApproval rt registry k (some name) (some role) >>= fun completed =>
        match completed with
        | none => throw (.agentDefinition "agent approval could not be completed")
        | some result => pure (some result) : Service (Option ActionResult)).run := by
  refine follows_bind (follows_completeApproval hm) fun completed m hm => ?_
  cases completed with
  | none => exact follows_throw _ hm.atRest
  | some result => exact follows_pure _ hm

theorem follows_resume {run : PausedRun} {name : String} {role : Access.Role} (hm : m.Calm) :
    Follows (protocol k (some name)) Settles m (resume rt registry run k name role).run := by
  unfold resume
  split
  · exact follows_pure _ hm
  · refine follows_bind (follows_isQuarantined hm) fun quarantined m hm => ?_
    split
    · exact follows_pure _ hm
    · refine follows_check hm.atRest fun _ => ?_
      refine follows_getApproval_bind hm fun found m hm => ?_
      cases found with
      | none => exact follows_throw _ hm.atRest
      | some approval =>
          refine follows_bind ?_ fun _ m hm => follows_completion hm
          unfold approvePending
          split
          · exact follows_bind (follows_updateApproval hm) fun _ _ hm => follows_pure _ hm
          · exact follows_pure _ hm

/-- Every call keeps to the protocol, and ends at rest. -/
theorem follows_program (call : ServiceCall) :
    Follows (protocol k call.approver) (fun m _ => m.AtRest) .idle
      (call.program rt registry k).run := by
  have hends : ∀ m (x : Except ServiceError Unit), Settles m x → m.AtRest := by
    intro m x hx
    cases x with
    | ok _ => exact hx.atRest
    | error _ => exact hx
  refine Follows.imp ?_ hends
  cases call with
  | updateApproval status comment approver role =>
      exact follows_bind (follows_updateApproval trivial) fun _ _ hm => follows_pure _ hm
  | completeApproval approver role =>
      exact follows_bind (follows_completeApproval trivial) fun _ _ hm => follows_pure _ hm
  | resume run approver role =>
      exact follows_bind (follows_resume trivial) fun _ _ hm => follows_pure _ hm

end Follows

end WaitLocalAgent.SmartActions
