import WaitLocalAgent.Verification.Approvals.Finality
import WaitLocalAgent.Verification.SmartActions.Protocol
import WaitLocalAgent.Verification.SmartActions.Refusal

/-! # An approved action runs once

The runs in which the protocol lets an action run once at most, and only under an approval by
somebody else. -/

namespace WaitLocalAgent.SmartActions

open Foundation Approvals Program

variable {rt : Runtime} {registry : Registry} {k : ℕ} {s s' : Approvals.Store}

/-! ## What the store keeps -/

/-- The newest run of an approval survives under its id, and does not become pending again. -/
structure Kept (k : ℕ) (s s' : Approvals.Store) : Prop where
  request : ∀ row, s.requests.find? k = some row → row.status = .approved →
    s'.requests.find? k = some row
  newest : ∀ run, newestRun s k = some run → ∃ run', newestRun s' k = some run' ∧
    run'.id = run.id ∧ (run.status ≠ .pendingApproval → run'.status ≠ .pendingApproval)

theorem Kept.refl (k : ℕ) (s : Approvals.Store) : Kept k s s :=
  ⟨fun _ hrow _ => hrow, fun run hrun => ⟨run, hrun, rfl, id⟩⟩

theorem newestRun_eq_some {run : SmartActionRun} (h : newestRun s k = some run) :
    s.actionRuns.find? run.id = some run ∧ run.approvalId = some k := by
  refine ⟨AutoTable.find?_eq_some_iff.mpr ⟨?_, rfl⟩, ?_⟩
  · exact List.mem_reverse.mp (List.mem_of_find?_eq_some h)
  · simpa using List.find?_some h

/-- Runs that are only ever settled. -/
theorem newest_of_update {p : SmartActionRun → Bool} {f : SmartActionRun → SmartActionRun}
    {hf : ∀ run, (f run).id = run.id}
    (hruns : s'.actionRuns = s.actionRuns.update p f hf)
    (happroval : ∀ run, (f run).approvalId = run.approvalId)
    (hstatus : ∀ run, (f run).status ≠ .pendingApproval) (run : SmartActionRun)
    (hrun : newestRun s k = some run) : ∃ run', newestRun s' k = some run' ∧
      run'.id = run.id ∧ (run.status ≠ .pendingApproval → run'.status ≠ .pendingApproval) := by
  have hfound : newestRun s' k = (newestRun s k).map fun run => if p run then f run else run := by
    rw [newestRun, newestRun, hruns]
    exact Table.find?_reverse_update hf fun run => by rw [happroval]
  rw [hfound, hrun]
  refine ⟨if p run then f run else run, rfl, ?_, ?_⟩
  · split
    · exact hf run
    · rfl
  · intro hdone
    split
    · exact hstatus run
    · exact hdone

theorem kept_expireApprovalRequest (rt : Runtime) (row : ApprovalRequest) (clock : ExpiryClock) :
    Kept k s (expireApprovalRequest rt s row clock).2 := by
  cases hdue : row.isDue rt.calendar clock.checkedAt with
  | false =>
      rw [expireApprovalRequest_of_not_due hdue]
      exact Kept.refl k s
  | true =>
      refine ⟨?_, ?_⟩
      · intro stored hstored happroved
        rw [expireApprovalRequest_requests, AutoTable.find?_update, hstored]
        simp [happroved]
      · by_cases hsmart : row.isSmartAction = true
        · have hruns : (expireApprovalRequest rt s row clock).2.actionRuns =
              s.actionRuns.update
                (fun run => run.approvalId == some row.id && run.status == .pendingApproval)
                (SmartActionRun.become .rejected (rt.text clock.expiredAt))
                (SmartActionRun.become_id .rejected (rt.text clock.expiredAt)) := by
            simp [expireApprovalRequest, hdue, hsmart]
          exact newest_of_update hruns (fun _ => rfl) fun _ => by simp [SmartActionRun.become]
        · have hruns : (expireApprovalRequest rt s row clock).2.actionRuns = s.actionRuns := by
            simp [expireApprovalRequest, hdue, hsmart]
          intro run hrun
          refine ⟨run, ?_, rfl, id⟩
          rw [newestRun, hruns]
          exact hrun

theorem decideSelected_actionRuns {row : ApprovalRequest} {update : UpdateRequest}
    {context : CallContext} (h : decideSelected rt s row update context = .ok s') :
    s'.actionRuns = (expireApprovalRequest rt s row context.expiry).2.actionRuns := by
  simp only [decideSelected, bind_eq_ok, raiseIf_eq_ok] at h
  obtain ⟨_, _, _, _, h⟩ := h
  split at h
  · cases h
  · simp only [bind_eq_ok, pure_eq_ok] at h
    obtain ⟨_, _, _, _, rfl⟩ := h
    rfl

/-- A decision that finds its request pending overwrites nothing. -/
theorem kept_decideSelected {row : ApprovalRequest} {update : UpdateRequest}
    {context : CallContext} (hallow : update.allowCompleted = false) (hid : row.id = k)
    (hpending : Proceeds rt row context → ∀ stored, s.requests.find? k = some stored →
      stored.status = .pending)
    (h : decideSelected rt s row update context = .ok s') : Kept k s s' := by
  refine ⟨?_, ?_⟩
  · intro stored hstored happroved
    have hproceeds := ((decideSelected_eq_ok hallow hid hstored).mp h).1
    rw [hpending hproceeds stored hstored] at happroved
    cases happroved
  · intro run hrun
    have hnewest := (kept_expireApprovalRequest rt row context.expiry).newest run hrun
    rwa [newestRun, ← decideSelected_actionRuns h] at hnewest

/-! ## What a caller may rely on -/

def Approved (k : ℕ) (s : Approvals.Store) : Prop :=
  ∃ row, s.requests.find? k = some row ∧ row.status = .approved ∧ row.isSmartAction

def ApprovedBy (k : ℕ) (name : String) (s : Approvals.Store) : Prop :=
  ∃ row, s.requests.find? k = some row ∧ row.status = .approved ∧ row.isSmartAction ∧
    row.approverId = some name

def Newest (k runId : ℕ) (s : Approvals.Store) : Prop :=
  ∃ run, newestRun s k = some run ∧ run.id = runId

/-- The newest run of an approval is not pending any more. -/
def Finished (k : ℕ) (s : Approvals.Store) : Prop :=
  ∃ run, newestRun s k = some run ∧ run.status ≠ .pendingApproval

theorem Approved.kept (h : Approved k s) (hkept : Kept k s s') : Approved k s' := by
  obtain ⟨row, hrow, happroved, hsmart⟩ := h
  exact ⟨row, hkept.request row hrow happroved, happroved, hsmart⟩

theorem ApprovedBy.kept {name : String} (h : ApprovedBy k name s) (hkept : Kept k s s') :
    ApprovedBy k name s' := by
  obtain ⟨row, hrow, happroved, hrest⟩ := h
  exact ⟨row, hkept.request row hrow happroved, happroved, hrest⟩

variable {runId : ℕ}

theorem Newest.kept (h : Newest k runId s) (hkept : Kept k s s') :
    Newest k runId s' := by
  obtain ⟨run, hrun, hid⟩ := h
  obtain ⟨run', hrun', hid', -⟩ := hkept.newest run hrun
  exact ⟨run', hrun', hid'.trans hid⟩

theorem Finished.kept (h : Finished k s) (hkept : Kept k s s') : Finished k s' := by
  obtain ⟨run, hrun, hdone⟩ := h
  obtain ⟨run', hrun', -, hdone'⟩ := hkept.newest run hrun
  exact ⟨run', hrun', hdone' hdone⟩

/-- What the mode of a caller says about the store. -/
def Mode.Sound (k : ℕ) (s : Approvals.Store) : Mode → Prop
  | idle => True
  | selected row => row.id = k ∧ (row.status = .approved → row.isSmartAction → Approved k s)
  | seen => Approved k s
  | entered run => Approved k s ∧ Newest k run.id s
  | effected name runId | confirmed name runId | ready name runId =>
      ApprovedBy k name s ∧ Newest k runId s
  | lost => False

theorem Mode.Sound.kept {m : Mode} (h : m.Sound k s) (hkept : Kept k s s') : m.Sound k s' := by
  cases m with
  | idle => trivial
  | selected row => exact ⟨h.1, fun happroved hsmart => (h.2 happroved hsmart).kept hkept⟩
  | seen => exact Approved.kept h hkept
  | entered run => exact ⟨h.1.kept hkept, h.2.kept hkept⟩
  | effected name runId => exact ⟨h.1.kept hkept, h.2.kept hkept⟩
  | confirmed name runId => exact ⟨h.1.kept hkept, h.2.kept hkept⟩
  | ready name runId => exact ⟨h.1.kept hkept, h.2.kept hkept⟩
  | lost => exact h

/-- Between the action and the end of its run. -/
def Mode.Running : Mode → Prop
  | effected _ _ | confirmed _ _ | ready _ _ => True
  | _ => False

theorem Mode.AtRest.not_running {m : Mode} (h : m.AtRest) : ¬ m.Running := by
  intro hrunning
  cases m <;> trivial

/-- A call of the action while its request was approved by somebody other than its actor. -/
def ProperlyApproved (called : ActionCall × Option ApprovalRequest) : Prop :=
  ∃ row name, called.2 = some row ∧ row.status = .approved ∧ row.approverId = some name ∧
    name ≠ called.1.actor

/-- One call at most, and none that was not approved properly. -/
def RunOnce (s : Workspace) : Prop :=
  s.calls.length ≤ 1 ∧ ∀ called ∈ s.calls, ProperlyApproved called

/-- The invariant: every caller is right about the store, and a call that was made is being
finished or has been. -/
structure Sound {W : Type} (k : ℕ) (s : Workspace) (modes : W → Mode) : Prop where
  once : RunOnce s
  callers : ∀ w, (modes w).Sound k s.store
  running : s.calls ≠ [] → (∃ w, (modes w).Running) ∨ Finished k s.store

section Steps

variable {W : Type} [DecidableEq W] {modes : W → Mode} {w : W} {m : Mode} {t t' : Workspace}

/-- A statement that calls nothing takes its caller to a mode that is right about the store. -/
theorem Sound.move (h : Sound k t modes) (hkept : Kept k t.store t'.store)
    (hcalls : t'.calls = t.calls) (hm : m.Sound k t'.store)
    (hrunning : (modes w).Running → m.Running ∨ Finished k t'.store) :
    Sound k t' (Function.update modes w m) := by
  refine ⟨?_, ?_, ?_⟩
  · rw [RunOnce, hcalls]
    exact h.once
  · intro w'
    by_cases hw : w' = w
    · rw [hw, Function.update_self]
      exact hm
    · rw [Function.update_of_ne hw]
      exact (h.callers w').kept hkept
  · intro hmade
    rw [hcalls] at hmade
    rcases h.running hmade with ⟨w', hw'⟩ | hfinished
    · by_cases hw : w' = w
      · rw [hw] at hw'
        exact (hrunning hw').imp (fun hm => ⟨w, by rwa [Function.update_self]⟩) id
      · exact .inl ⟨w', by rwa [Function.update_of_ne hw]⟩
    · exact .inr (hfinished.kept hkept)

theorem Sound.rest (h : Sound k t modes) (hrest : (modes w).AtRest) :
    Sound k t (Function.update modes w .idle) :=
  h.move (Kept.refl k t.store) rfl trivial fun hrunning => absurd hrunning hrest.not_running

end Steps

/-! ## Statements -/

section Statements

variable {m : Mode} {approver : Option String}

theorem Mode.Sound.calm_cases (h : m.Sound k s) (hcalm : m.Calm) : m = .idle ∨ m = .seen := by
  rcases hcalm.cases with hidle | hseen | rfl
  · exact .inl hidle
  · exact .inr hseen
  · exact absurd h id

theorem sound_selectRequest (h : m.Sound k s) (hcalm : m.Calm) :
    ((protocol k approver).move m (.selectRequest k) (s.requests.find? k)).Sound k s := by
  have hselected : (Mode.ofSelect (s.requests.find? k)).Sound k s := by
    cases hrow : s.requests.find? k with
    | none => trivial
    | some row =>
        exact ⟨find?_eq_some_id hrow, fun happroved hsmart => ⟨row, hrow, happroved, hsmart⟩⟩
  rcases h.calm_cases hcalm with rfl | rfl
  · exact hselected
  · exact hselected

/-- A row that comes back approved is the stored one. -/
theorem sound_expireRequest {row : ApprovalRequest} {clock : ExpiryClock}
    (h : (Mode.selected row).Sound k s) :
    ((protocol k approver).move (.selected row) (.expireRequest row)
      (expireApprovalRequest rt s row clock).1).Sound k
        (expireApprovalRequest rt s row clock).2 := by
  by_cases happroved : (expireApprovalRequest rt s row clock).1.status = .approved ∧
    (expireApprovalRequest rt s row clock).1.isSmartAction
  · have hseen : (protocol k approver).move (.selected row) (.expireRequest row)
        (expireApprovalRequest rt s row clock).1 = .seen := if_pos happroved
    rw [hseen]
    cases hdue : row.isDue rt.calendar clock.checkedAt with
    | false =>
        rw [expireApprovalRequest_of_not_due hdue] at happroved ⊢
        exact h.2 happroved.1 happroved.2
    | true =>
        cases hstored : s.requests.find? k with
        | some stored =>
            have hfind := (expireApprovalRequest_of_due hdue h.1 hstored).find?
            exact ⟨_, hfind, happroved⟩
        | none =>
            have hsame : (expireApprovalRequest rt s row clock).1 = row := by
              simp [expireApprovalRequest, hdue, h.1, AutoTable.find?_update, hstored]
            rw [hsame] at happroved
            simp [ApprovalRequest.isDue, happroved.1] at hdue
  · have hidle : (protocol k approver).move (.selected row) (.expireRequest row)
        (expireApprovalRequest rt s row clock).1 = .idle := if_neg happroved
    rw [hidle]
    trivial

theorem sound_getTicket {ticketId : String} {site : CallSite} {quarantined : Bool}
    (h : m.Sound k s) (hallowed : m.Calm ∨ ∃ run, m = .entered run) :
    ((protocol k approver).move m (.getTicket site ticketId) quarantined).Sound k s := by
  rcases hallowed with hcalm | ⟨run, rfl⟩
  · rcases h.calm_cases hcalm with rfl | rfl <;> trivial
  · cases quarantined with
    | true => trivial
    | false => exact h

theorem sound_listRuns (h : m.Sound k s) (hcalm : m.Calm) :
    ((protocol k approver).move m (.listRuns k) (newestRun s k)).Sound k s := by
  rcases h.calm_cases hcalm with rfl | rfl
  · trivial
  · cases hrun : newestRun s k with
    | none => trivial
    | some run =>
        by_cases hpending : run.status = .pendingApproval
        · have hentered : (protocol k approver).move .seen (.listRuns k) (some run) =
              .entered run := if_pos hpending
          rw [hentered]
          exact ⟨h, run, hrun, rfl⟩
        · have hidle : (protocol k approver).move .seen (.listRuns k) (some run) = .idle :=
            if_neg hpending
          rw [hidle]
          trivial

/-- A run that was called is found: pending and linked, or finished. -/
theorem sound_selectRun (approver : Option String) (h : m.Sound k s)
    (hallowed : m.Calm ∨ (∃ run, m = .entered run) ∨ ∃ name, m = .effected name runId) :
    ((protocol k approver).move m (.selectRun runId) (s.actionRuns.find? runId)).Sound k s ∧
      (m.Running → ((protocol k approver).move m (.selectRun runId)
        (s.actionRuns.find? runId)).Running ∨ Finished k s) := by
  rcases hallowed with hcalm | ⟨run, rfl⟩ | ⟨name, rfl⟩
  · refine ⟨?_, fun hrunning => absurd hrunning hcalm.atRest.not_running⟩
    rcases h.calm_cases hcalm with rfl | rfl <;> trivial
  · exact ⟨trivial, fun hrunning => nomatch hrunning⟩
  · obtain ⟨happroved, run, hrun, rfl⟩ := h
    obtain ⟨hfind, hlinked⟩ := newestRun_eq_some hrun
    rw [hfind]
    by_cases hpending : run.status = .pendingApproval
    · have hmove : (protocol k approver).move (.effected name run.id) (.selectRun run.id)
          (some run) = .confirmed name run.id := by
        simp [protocol, hpending, hlinked]
      rw [hmove]
      exact ⟨⟨happroved, run, hrun, rfl⟩, fun _ => .inl trivial⟩
    · have hmove : (protocol k approver).move (.effected name run.id) (.selectRun run.id)
          (some run) = .idle := if_pos hpending
      rw [hmove]
      exact ⟨trivial, fun _ => .inr ⟨run, hrun, hpending⟩⟩

theorem sound_selectApproval (approver : Option String) (h : m.Sound k s)
    (hallowed : m.Calm ∨ ∃ name id, m = .confirmed name id) :
    ((protocol k approver).move m (.selectApproval k) (s.requests.find? k)).Sound k s ∧
      (m.Running → ((protocol k approver).move m (.selectApproval k)
        (s.requests.find? k)).Running) := by
  rcases hallowed with hcalm | ⟨name, runId, rfl⟩
  · refine ⟨?_, fun hrunning => absurd hrunning hcalm.atRest.not_running⟩
    rcases h.calm_cases hcalm with rfl | rfl <;> trivial
  · obtain ⟨⟨row, hrow, happroved, hsmart, hname⟩, hnewest⟩ := h
    have hready : (protocol k approver).move (.confirmed name runId) (.selectApproval k)
        (some row) = .ready name runId := by
      simp [protocol, happroved, hsmart, hname]
    rw [hrow, hready]
    exact ⟨⟨⟨row, hrow, happroved, hsmart, hname⟩, hnewest⟩, fun _ => trivial⟩

theorem kept_finishRun {result : ActionResult} {now : String}
    (hcompletable : completable result.status) :
    Kept k s { s with
      actionRuns := s.actionRuns.update (fun run => run.id == runId)
        (finishSmartActionRun rt result now) (finishSmartActionRun_id rt result now) } := by
  refine ⟨fun _ hrow _ => hrow, newest_of_update rfl (fun _ => rfl) ?_⟩
  intro run hpending
  rw [show result.status = .pendingApproval from hpending] at hcompletable
  cases hcompletable

theorem finished_finishRun {result : ActionResult} {now : String}
    (hcompletable : completable result.status) (h : Newest k runId s) :
    Finished k { s with
      actionRuns := s.actionRuns.update (fun run => run.id == runId)
        (finishSmartActionRun rt result now) (finishSmartActionRun_id rt result now) } := by
  obtain ⟨run, hrun, rfl⟩ := h
  refine ⟨finishSmartActionRun rt result now run, ?_, ?_⟩
  · have hfound := Table.find?_reverse_update (t := s.actionRuns.table)
      (p := fun r => r.id == run.id) (finishSmartActionRun_id rt result now)
      (q := fun r => r.approvalId == some k) fun _ => rfl
    exact hfound.trans (by simp [show s.actionRuns.table.rows.reverse.find? _ = _ from hrun])
  · intro hpending
    rw [show result.status = .pendingApproval from hpending] at hcompletable
    cases hcompletable

theorem calm_or_ready_idle {result : ActionResult} {updated : Bool}
    (h : m.Sound k s) (hallowed : m.Calm ∨ ∃ name, m = .ready name runId) :
    (protocol k approver).move m (.finishRun runId result) updated = .idle := by
  rcases hallowed with hcalm | ⟨name, rfl⟩
  · rcases h.calm_cases hcalm with rfl | rfl <;> rfl
  · rfl

end Statements

/-! ## Orderly runs -/

def ServiceAction.completes : ServiceAction → Bool
  | .selectRun _ | .selectApproval _ | .finishRun _ _ => true
  | _ => false

abbrev ServicePool (W : Type) :=
  Pool W ServiceCall Workspace ServiceAction ServiceAction.Answer (Except ServiceError Unit)

section Orderly

variable {W : Type} (rt : Runtime) (k : ℕ) (p : ServicePool W) (w : W) (input : ServiceInput)
  (call : ServiceCall)

/-- A decision does not overwrite another one. An action is run by the approver that its request
names, returns a result that its run can be completed with, finds the newest run still pending, and
nobody else about to complete it. -/
def OrderlyAction : ServiceAction → Prop
  | .decideRequest row _ => Proceeds rt row input.context →
      ∀ stored ∈ p.shared.store.requests.find? k, stored.status = .pending
  | .runAction _ _ => completable input.result.status ∧
      (∀ stored ∈ p.shared.store.requests.find? k, stored.approverId = call.approver) ∧
      (∀ run ∈ newestRun p.shared.store k, run.status = .pendingApproval) ∧
      ∀ w', w' ≠ w → ∀ next ∈ p.next? w', next.2.completes = false
  | _ => True

def Orderly : PoolStep W ServiceCall ServiceInput → Prop
  | .start _ _ => True
  | .act w input => ∀ next ∈ p.next? w, OrderlyAction rt k p w input next.1 next.2

instance [DecidableEq W] [Fintype W] :
    ∀ a, Decidable (OrderlyAction rt k p w input call a)
  | .decideRequest row _ => inferInstanceAs (Decidable (Proceeds rt row input.context →
      ∀ stored ∈ p.shared.store.requests.find? k, stored.status = .pending))
  | .runAction _ _ => inferInstanceAs (Decidable (completable input.result.status ∧
      (∀ stored ∈ p.shared.store.requests.find? k, stored.approverId = call.approver) ∧
      (∀ run ∈ newestRun p.shared.store k, run.status = .pendingApproval) ∧
      ∀ w', w' ≠ w → ∀ next ∈ p.next? w', next.2.completes = false))
  | .selectRequest _ | .expireRequest _ | .getTicket _ _ | .listRuns _ | .selectRun _
  | .selectApproval _ | .finishRun _ _ => inferInstanceAs (Decidable True)

instance [DecidableEq W] [Fintype W] : ∀ step, Decidable (Orderly rt k p step)
  | .start _ _ => inferInstanceAs (Decidable True)
  | .act w input => inferInstanceAs (Decidable (∀ next ∈ p.next? w,
      OrderlyAction rt k p w input next.1 next.2))

end Orderly

section Steps

variable {W : Type} [DecidableEq W] {modes : W → Mode} {w : W} {p : ServicePool W}
  {call : ServiceCall} {input : ServiceInput}

/-- Whoever has run the action may only complete its run. -/
theorem completes_of_running {m : Mode} {approver : Option String} {a : ServiceAction}
    (hrunning : m.Running) (hallowed : (protocol k approver).allowed m a) : a.completes := by
  have hcalm : ¬ m.Calm := fun hcalm => hcalm.atRest.not_running hrunning
  have hentered : ¬ ∃ run, m = .entered run := by
    rintro ⟨run, rfl⟩
    cases hrunning
  have hselected : ¬ ∃ row, m = .selected row := by
    rintro ⟨row, rfl⟩
    cases hrunning
  rcases hallowed with rfl | hallowed
  · cases hrunning
  · cases a with
    | selectRequest approvalId => exact absurd hallowed.1 hcalm
    | expireRequest row => exact absurd ⟨row, hallowed⟩ hselected
    | getTicket site ticketId =>
        cases site with
        | update => exact absurd hallowed hcalm
        | completion => exact (hallowed.elim hcalm hentered).elim
        | resume => exact absurd hallowed hcalm
    | decideRequest row update => exact absurd ⟨row, hallowed.1⟩ hselected
    | listRuns approvalId => exact absurd hallowed.1 hcalm
    | runAction approvalId call =>
        obtain ⟨-, run, name, hm, -⟩ := hallowed
        exact absurd ⟨run, hm⟩ hentered
    | selectRun runId => rfl
    | selectApproval approvalId => rfl
    | finishRun runId result => rfl

omit [DecidableEq W] in
theorem completes_of_tracks (htracks : Tracks (fun call => protocol k (ServiceCall.approver call))
      Mode.AtRest .idle p.threads modes) (hrunning : (modes w).Running) :
    ∃ call a, p.next? w = some (call, a) ∧ a.completes := by
  have hidle : modes w ≠ .idle := by
    intro hidle
    rw [hidle] at hrunning
    exact hrunning
  obtain ⟨call, a, hnext, hallowed⟩ := htracks.exists_next hidle
  exact ⟨call, a, hnext, completes_of_running hrunning hallowed⟩

/-- An orderly run of the action is the first, and properly approved. -/
theorem sound_runAction {action : ActionCall}
    (htracks : Tracks (fun call => protocol k (ServiceCall.approver call)) Mode.AtRest .idle
      p.threads modes) (h : Sound k p.shared modes)
    (hnext : p.next? w = some (call, .runAction k action))
    (hallowed : ∃ run name, modes w = .entered run ∧ action.actor = run.actor ∧
      call.approver = some name ∧ name ≠ run.actor)
    (horderly : Orderly rt k p (.act w input)) :
    Sound k ((ServiceAction.runAction k action).answer rt p.shared input).2
      (Function.update modes w ((protocol k call.approver).move (modes w) (.runAction k action)
        input.result)) := by
  obtain ⟨run, name, hentered, hactor, happrover, hname⟩ := hallowed
  obtain ⟨hcompletable, hby, hpending, halone⟩ := horderly _ hnext
  have hsound := h.callers w
  rw [hentered] at hsound
  obtain ⟨⟨row, hrow, happroved, hsmart⟩, newest, hnewest, hid⟩ := hsound
  have hmove : (protocol k call.approver).move (modes w) (.runAction k action) input.result =
      .effected name run.id := by
    simp [protocol, hentered, happrover, hcompletable]
  rw [hmove]
  have hnone : p.shared.calls = [] := by
    by_contra hmade
    rcases h.running hmade with ⟨w', hrunning⟩ | ⟨finished, hfinished, hdone⟩
    · obtain ⟨call', a', hnext', hcompletes⟩ := completes_of_tracks htracks hrunning
      have hother : w' ≠ w := by
        rintro rfl
        rw [hentered] at hrunning
        exact hrunning
      rw [halone w' hother (call', a') hnext'] at hcompletes
      cases hcompletes
    · exact hdone (hpending finished hfinished)
  have hrowby : row.approverId = some name := (hby row hrow).trans happrover
  have hcalls : ((ServiceAction.runAction k action).answer rt p.shared input).2.calls =
      [(action, some row)] := by
    simp [ServiceAction.answer, hnone, hrow]
  refine ⟨⟨?_, ?_⟩, ?_, ?_⟩
  · rw [hcalls]
    exact Nat.le_refl 1
  · intro called hcalled
    rw [hcalls, List.mem_singleton] at hcalled
    subst hcalled
    exact ⟨row, name, rfl, happroved, hrowby, by rwa [hactor]⟩
  · intro w'
    by_cases hw : w' = w
    · rw [hw, Function.update_self]
      exact ⟨⟨row, hrow, happroved, hsmart, hrowby⟩, newest, hnewest, hid⟩
    · rw [Function.update_of_ne hw]
      exact h.callers w'
  · refine fun _ => .inl ⟨w, ?_⟩
    rw [Function.update_self]
    trivial

/-- One orderly step keeps the invariant. -/
theorem sound_act {a : ServiceAction}
    (htracks : Tracks (fun call => protocol k (ServiceCall.approver call)) Mode.AtRest .idle
      p.threads modes) (h : Sound k p.shared modes) (hnext : p.next? w = some (call, a))
    (hallowed : (protocol k call.approver).allowed (modes w) a)
    (horderly : Orderly rt k p (.act w input)) :
    Sound k (a.answer rt p.shared input).2 (Function.update modes w
      ((protocol k call.approver).move (modes w) a (a.answer rt p.shared input).1)) := by
  have hsound := h.callers w
  rcases hallowed with hlost | hallowed
  · rw [hlost] at hsound
    exact absurd hsound id
  have hcalm : ∀ {m : Mode}, (modes w).Calm →
      (modes w).Running → m.Running ∨ Finished k (a.answer rt p.shared input).2.store :=
    fun hcalm hrunning => absurd hrunning hcalm.atRest.not_running
  cases a with
  | selectRequest approvalId =>
      obtain ⟨hcalmed, rfl⟩ := hallowed
      exact h.move (Kept.refl _ _) rfl (sound_selectRequest hsound hcalmed) (hcalm hcalmed)
  | expireRequest row =>
      rw [hallowed] at hsound ⊢
      refine h.move (kept_expireApprovalRequest rt row _) rfl (sound_expireRequest hsound) ?_
      intro hrunning
      rw [hallowed] at hrunning
      exact absurd hrunning id
  | getTicket site ticketId =>
      have hcalm_or : (modes w).Calm ∨ ∃ run, modes w = .entered run := by
        cases site with
        | update => exact .inl hallowed
        | completion => exact hallowed
        | resume => exact .inl hallowed
      refine h.move (Kept.refl _ _) rfl (sound_getTicket hsound hcalm_or) ?_
      intro hrunning
      rcases hcalm_or with hcalmed | ⟨run, hentered⟩
      · exact hcalm hcalmed hrunning
      · rw [hentered] at hrunning
        exact absurd hrunning id
  | decideRequest row update =>
      obtain ⟨hselected, hupdate, hallow⟩ := hallowed
      have hpending := horderly _ hnext
      rw [hselected] at hsound
      have hmove : ∀ r, (protocol k call.approver).move (modes w) (.decideRequest row update) r =
          .idle := by
        rw [hselected]
        exact fun _ => rfl
      have hrunning : ¬ (modes w).Running := by
        rw [hselected]
        exact id
      rw [hmove]
      cases hdecide : decideSelected rt p.shared.store row update input.context with
      | error e =>
          simp only [ServiceAction.answer, hdecide]
          exact h.move (Kept.refl _ _) rfl trivial fun hrun => absurd hrun hrunning
      | ok store =>
          simp only [ServiceAction.answer, hdecide]
          exact h.move (kept_decideSelected hallow hsound.1 hpending hdecide) rfl trivial
            fun hrun => absurd hrun hrunning
  | listRuns approvalId =>
      obtain ⟨hcalmed, rfl⟩ := hallowed
      exact h.move (Kept.refl _ _) rfl (sound_listRuns hsound hcalmed) (hcalm hcalmed)
  | runAction approvalId action =>
      obtain ⟨rfl, hallowed⟩ := hallowed
      exact sound_runAction htracks h hnext hallowed horderly
  | selectRun runId =>
      obtain ⟨hmoved, hrunning⟩ := sound_selectRun call.approver hsound hallowed
      exact h.move (Kept.refl _ _) rfl hmoved hrunning
  | selectApproval approvalId =>
      obtain ⟨rfl, hallowed⟩ := hallowed
      obtain ⟨hmoved, hrunning⟩ := sound_selectApproval call.approver hsound hallowed
      exact h.move (Kept.refl _ _) rfl hmoved fun hrun => .inl (hrunning hrun)
  | finishRun runId result =>
      obtain ⟨hcompletable, hallowed⟩ := hallowed
      refine h.move (kept_finishRun hcompletable) rfl ?_ ?_
      · rw [calm_or_ready_idle hsound hallowed]
        trivial
      · intro hrunning
        rcases hallowed with hcalmed | ⟨name, hready⟩
        · exact absurd hrunning hcalmed.atRest.not_running
        · rw [hready] at hsound
          exact .inr (finished_finishRun hcompletable hsound.2)

end Steps

/-- In an orderly run the action is called once at most, and properly approved. -/
theorem run_once {W : Type} [DecidableEq W] (rt : Runtime) (registry : Registry)
    (store : Approvals.Store) (approvalId : ℕ) (ls : List (PoolStep W ServiceCall ServiceInput))
    (horderly : (approvalPool rt registry store approvalId).Guarded (Orderly rt approvalId) ls) :
    RunOnce ((approvalPool rt registry store approvalId).run ls).shared := by
  have hinit : Sound approvalId ⟨store, []⟩ fun _ : W => Mode.idle :=
    ⟨⟨Nat.zero_le 1, fun _ hcalled => nomatch hcalled⟩, fun _ => trivial,
      fun hmade => absurd rfl hmade⟩
  obtain ⟨modes, -, hsound⟩ := pool_invariant (I := Sound approvalId) follows_program hinit
    (fun _ _ _ h hrest => h.rest hrest)
    (fun p modes w call a next input htracks h hw hallowed hguard =>
      sound_act htracks h (by simp [Pool.next?, hw, head?]) hallowed hguard) horderly
  exact hsound.once

/-! ## One morning -/

/-- One caller, who makes a call and performs so many of its statements. -/
def alone (call : ServiceCall) (statements : ℕ) : List (PoolStep Unit ServiceCall ServiceInput) :=
  .start () call :: List.replicate statements (.act () (morningInput 1))

def approvedByTess : List (PoolStep Unit ServiceCall ServiceInput) :=
  alone (.updateApproval "approved" "" (some "tess") (some .technician)) 15

/-- Rob approves his own reset, which tess then completes twice. -/
def approvedByRob : List (PoolStep Unit ServiceCall ServiceInput) :=
  alone (.updateApproval "approved" "" (some "rob") (some .technician)) 10 ++
    alone (.completeApproval (some "tess") (some .technician)) 7 ++
      alone (.completeApproval (some "tess") (some .technician)) 7

def resetRun (ls : List (PoolStep Unit ServiceCall ServiceInput)) (store : Approvals.Store) :
    Workspace :=
  ((approvalPool morningRuntime morningRegistry store 1).run ls).shared

theorem approvedByTess_orderly : pendingReset.map (fun store =>
      (decide ((approvalPool morningRuntime morningRegistry store 1).Guarded
        (Orderly morningRuntime 1) approvedByTess), (resetRun approvedByTess store).calls.length)) =
    .ok (true, 1) := by
  decide +kernel

theorem run_once_approvedByTess : ∃ store, pendingReset = .ok store ∧
    (resetRun approvedByTess store).calls.length = 1 ∧ RunOnce (resetRun approvedByTess store) := by
  obtain ⟨store, hstore, hout⟩ := map_eq_ok.mp approvedByTess_orderly
  simp only [Prod.mk.injEq, decide_eq_true_eq] at hout
  exact ⟨store, hstore, hout.2,
    run_once morningRuntime morningRegistry store 1 approvedByTess hout.1⟩

theorem approvedByRob_calls : pendingReset.map (fun store =>
      (resetRun approvedByRob store).calls.map fun called =>
        (called.1.actor, called.2.bind ApprovalRequest.approverId)) =
    .ok [("rob", some "rob"), ("rob", some "rob")] := by
  decide +kernel

/-- An actor who approves its own request lets the action run again and again. -/
theorem not_run_once : ¬ ∀ (rt : Runtime) (registry : Registry) (pending : PendingAction)
    (context : CallContext) (store : Approvals.Store)
    (ls : List (PoolStep Unit ServiceCall ServiceInput)),
    createPendingSmartAction rt ⟨.empty, .empty, .empty⟩ pending context = .ok store →
    RunOnce ((approvalPool rt registry store 1).run ls).shared := by
  intro h
  obtain ⟨store, hstore, hcalls⟩ := map_eq_ok.mp approvedByRob_calls
  have honce : (resetRun approvedByRob store).calls.length ≤ 1 :=
    (h morningRuntime morningRegistry resetPassword (morningContext 0) store approvedByRob hstore).1
  have htwice := congrArg List.length hcalls
  simp only [List.length_map, List.length_cons, List.length_nil] at htwice
  omega

end WaitLocalAgent.SmartActions
