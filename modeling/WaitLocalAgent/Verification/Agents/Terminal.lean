import WaitLocalAgent.Verification.Agents.Dependencies
import WaitLocalAgent.Verification.Agents.Quiet

/-! # Terminal agent runs

A call acts on the run that it has read, and never looks at the status of the stored one again. -/

namespace WaitLocalAgent.AgentRuns

open Foundation Approvals Agents Program
open SmartActions (ActionResult ServiceError)

variable {rt : RunRuntime} {definition : AgentDefinition} {α β : Type}

/-! ## What a caller holds -/

/-- The run that a caller acts on. `lost` is where a row leads that is not as it was written. -/
inductive Mode where
  | idle
  | holds (run : AgentRun)
  | wrote (written : AgentRun)
  | lost

def Mode.ofSelect : Option AgentRun → Mode
  | some run => .holds run
  | none => .idle

def Mode.ofInsert (draft : ℕ → AgentRun) : Except RunError ℕ → Mode
  | .ok id => .wrote (draft id)
  | .error _ => .idle

/-- What the closing read of a write leads to. -/
def Mode.ofReadBack (written : AgentRun) : Option AgentRun → Mode
  | some run => if run.status = written.status then .holds run else .lost
  | none => .lost

def Mode.Live (m : Mode) (run : AgentRun) : Prop := m = .holds run ∧ run.status.isTerminal = false

/-- Callers act on the run that they hold, while its status is not terminal. -/
def protocol : Protocol Mode RunAction RunAction.Answer where
  allowed m a := m = .lost ∨ match a with
    | .query _ => True
    | .selectRun _ => m = .idle
    | .insertRun _ _ => m = .idle
    | .invoke run _ => m.Live run
    | .decideApproval run _ => m.Live run
    | .completeApproval run _ _ _ => m.Live run
    | .updateRun run _ => m.Live run
    | .readBack written => m = .wrote written
  move m a := match m, a with
    | .lost, _ => fun _ => .lost
    | _, .selectRun _ => Mode.ofSelect
    | _, .insertRun draft _ => Mode.ofInsert draft
    | _, .updateRun run write => fun _ => .wrote (write.apply run)
    | _, .readBack written => Mode.ofReadBack written
    | m, _ => fun _ => m

/-- A program that reads, or calls tools, leaves its caller with the run that it held. -/
def Stays (m : Mode) (p : Call α) : Prop := Follows protocol (fun m' _ => m' = m) m p.run

/-- A program follows the protocol, wherever it ends. -/
def Complies (m : Mode) (p : Call α) : Prop := Follows protocol (fun _ _ => True) m p.run

theorem complies_lost (p : Program RunAction RunAction.Answer (Except RunError α)) :
    Follows protocol (fun _ _ => True) .lost p := by
  induction p with
  | done result => trivial
  | act a next ih => exact ⟨.inl rfl, ih⟩

variable {p : Call α}

section Rules

variable {m : Mode} {run : AgentRun}

theorem Stays.complies (h : Stays m p) : Complies m p := h.imp fun _ _ _ => trivial

theorem stays_pure (x : α) : Stays m (pure x : Call α) := rfl

theorem stays_throw (error : RunError) : Stays m (throw error : Call α) := rfl

theorem follows_bind {Q : Mode → Except RunError α → Prop} {Q' : Mode → Except RunError β → Prop}
    {f : α → Call β} (hp : Follows protocol Q m p.run)
    (hf : ∀ m x, Q m (.ok x) → Follows protocol Q' m (f x).run)
    (herror : ∀ m e, Q m (.error e) → Q' m (.error e)) :
    Follows protocol Q' m (p >>= f).run :=
  Follows.bindExcept hp hf herror

theorem Stays.bind_complies {f : α → Call β} (hp : Stays m p)
    (hf : ∀ x, Complies m (f x)) : Complies m (p >>= f) :=
  follows_bind hp (fun _ x hm => hm ▸ hf x) fun _ _ _ => trivial

/-- What a caller reads does not change what it holds. -/
theorem Reads.stays (h : Reads p) : Stays m p := by
  refine Performs.follows h (fun a ha => ?_) fun a ha r => ?_
  · cases a with
    | query q => exact .inr trivial
    | _ => cases ha
  · cases a with
    | query q => cases m <;> rfl
    | _ => cases ha

theorem Serves.stays (h : Serves run p) (hm : m.Live run) : Stays m p := by
  refine Performs.follows h (fun a ha => ?_) fun a ha r => ?_
  · cases a with
    | query q => exact .inr trivial
    | invoke run' call | decideApproval run' decision | completeApproval run' =>
        cases ha
        exact .inr hm
    | _ => cases ha
  · obtain ⟨rfl, -⟩ := hm
    cases a with
    | query q => rfl
    | invoke run' call | decideApproval run' decision | completeApproval run' => rfl
    | _ => cases ha

/-! ## Writes -/

/-- After a write and its closing read the caller holds the row that was read, or is lost. -/
def Writes (status : RunStatus) (m : Mode) : Except RunError AgentRun → Prop
  | .ok row => m = .lost ∨ m = .holds row ∧ row.status = status
  | .error _ => True

theorem follows_readBack {written : AgentRun} :
    Follows protocol (Writes written.status) (.wrote written) (readBack written).run := by
  refine ⟨.inr rfl, fun found => ?_⟩
  cases found with
  | none => trivial
  | some row =>
      by_cases hstatus : row.status = written.status
      · have hmove : protocol.move (.wrote written) (.readBack written) (some row) =
            .holds row := if_pos hstatus
        rw [hmove]
        exact .inr ⟨rfl, hstatus⟩
      · have hmove : protocol.move (.wrote written) (.readBack written) (some row) =
            .lost := if_neg hstatus
        rw [hmove]
        exact .inl rfl

variable {state : RunState}

theorem follows_updateAgentRun {status : RunStatus} {currentStep : ℕ}
    (hm : m.Live run) :
    Follows protocol (Writes status) m (updateAgentRun rt run status currentStep state).run := by
  obtain ⟨rfl, hlive⟩ := hm
  refine ⟨.inr trivial, fun finishedAt => ⟨.inr ⟨rfl, hlive⟩, fun updated => ?_⟩⟩
  cases updated with
  | false => trivial
  | true => exact follows_readBack

/-- What follows a write, from the row that it reads back. -/
theorem Complies.of_update {status : RunStatus} {currentStep : ℕ}
    {f : AgentRun → Call α} (hm : m.Live run)
    (hf : ∀ row, row.status = status → Complies (.holds row) (f row)) :
    Complies m (updateAgentRun rt run status currentStep state >>= f) := by
  refine follows_bind (follows_updateAgentRun hm) ?_ fun _ _ _ => trivial
  intro m row hrow
  rcases hrow with rfl | ⟨rfl, hstatus⟩
  · exact complies_lost _
  · exact hf row hstatus

theorem complies_finish {status : RunStatus} {currentStep : ℕ}
    (hm : m.Live run) : Complies m (finish rt run status currentStep state) :=
  Complies.of_update hm fun _ _ => (stays_pure _).complies

theorem complies_finishFailed {index : ℕ} {directive : Option Directive}
    (hm : m.Live run) : Complies m (finishFailed rt run index state directive) := by
  cases directive with
  | none => exact complies_finish hm
  | some directive => cases directive <;> exact complies_finish hm

/-! ## Loops -/

/-- A row that was read back with a status that is not terminal. -/
theorem Mode.live_holds (hstatus : run.status = .queued) : (Mode.holds run).Live run :=
  ⟨rfl, by rw [hstatus]; rfl⟩

theorem complies_continueSteps {actor : String} {actorRole : Option Access.Role}
    {queued : List (Fin definition.steps.length)} {attempted : List String}
    (hm : m.Live run) :
    Complies m (continueSteps rt definition actor actorRole queued attempted run state) := by
  induction hmeasure : (unattempted definition attempted).length + queued.length
    using Nat.strong_induction_on generalizing m run queued attempted state with
  | _ n ih =>
      rw [continueSteps.eq_def]
      cases queued with
      | nil => exact complies_finish hm
      | cons index queued =>
          refine (reads_query _).stays.bind_complies fun elapsed => ?_
          split
          · exact complies_finish hm
          · split
            · exact complies_finish hm
            · split
              · exact ih _ (by rw [← hmeasure]; simp) hm rfl
              · rename_i hattempted
                have hless := length_unattempted_lt hattempted
                refine (serves_executeStepAttempts.stays hm).bind_complies fun attempts => ?_
                dsimp only
                split
                · exact complies_finish hm
                · split
                  · refine Complies.of_update hm fun row hrow => ?_
                    exact ih _ (by simp only [← hmeasure, List.length_cons]; omega)
                      (Mode.live_holds hrow) rfl
                  · split
                    · exact complies_finishFailed hm
                    · refine Complies.of_update hm fun row hrow => ?_
                      exact ih _ (by simp only [← hmeasure, List.length_cons]; omega)
                        (Mode.live_holds hrow) rfl

theorem complies_continueResultAware {actor : String} {actorRole : Option Access.Role}
    {fallback : Option AgentStep} (hm : m.Live run) :
    Complies m (continueResultAware rt definition actor actorRole fallback run state) := by
  induction hmeasure : (definition.maxSteps - state.steps.length).toNat
    using Nat.strong_induction_on generalizing m run fallback state with
  | _ n ih =>
      rw [continueResultAware]
      split
      · refine (reads_query _).stays.bind_complies fun elapsed => ?_
        split
        · exact complies_finish hm
        · refine reads_nextResultAwareStep.stays.bind_complies fun next => ?_
          cases next with
          | none => exact complies_finish hm
          | some step =>
              dsimp only
              split
              · exact complies_finish hm
              · refine (serves_executeStepAttempts.stays hm).bind_complies fun attempts => ?_
                have hlength := List.length_pos_of_ne_nil attempts.nonempty
                have hless : (definition.maxSteps - (state.extend attempts).steps.length).toNat <
                    n := by
                  simp only [RunState.extend, List.length_append]
                  omega
                split
                · exact complies_finish hm
                · split
                  · refine Complies.of_update hm fun row hrow => ?_
                    exact ih _ hless (Mode.live_holds hrow) rfl
                  · split
                    · exact complies_finish hm
                    · refine Complies.of_update hm fun row hrow => ?_
                      exact ih _ hless (Mode.live_holds hrow) rfl
      · exact complies_finish hm

theorem complies_continueRun {actor : String} {actorRole : Option Access.Role} {startStep : ℕ}
    (hm : m.Live run) :
    Complies m (continueRun rt definition actor actorRole startStep run state) := by
  rw [continueRun]
  split
  · exact complies_continueResultAware hm
  · exact complies_continueSteps hm

/-! ## Calls -/

/-- After a read, wherever the reader was. -/
theorem Stays.follows_bind {Q : Mode → Except RunError β → Prop} {f : α → Call β}
    (hp : Stays m p) (hf : ∀ x, Follows protocol Q m (f x).run) (herror : ∀ e, Q m (.error e)) :
    Follows protocol Q m (p >>= f).run :=
  AgentRuns.follows_bind hp (fun _ x hm => hm ▸ hf x) fun _ e hm => hm ▸ herror e

/-- The new run that a caller holds, unless it is lost. -/
def Begins (m : Mode) : Except RunError (AgentRun × RunState) → Prop
  | .ok (run, _) => m = .lost ∨ m = .holds run ∧ run.status = .queued
  | .error _ => True

theorem follows_createAgentRun {request : RunRequest} :
    Follows protocol (Writes .queued) .idle (createAgentRun rt definition request state).run := by
  refine ⟨.inr trivial, fun now => ⟨.inr rfl, fun inserted => ?_⟩⟩
  cases inserted with
  | error e => trivial
  | ok id => exact follows_readBack

theorem follows_beginRun {request : RunRequest} :
    Follows protocol Begins .idle (beginRun rt definition request).run := by
  refine reads_check.stays.follows_bind (fun _ => ?_) fun _ => trivial
  refine reads_executionWindowOpen.stays.follows_bind (fun windowOpen => ?_) fun _ => trivial
  refine reads_check.stays.follows_bind (fun _ => ?_) fun _ => trivial
  refine reads_check.stays.follows_bind (fun _ => ?_) fun _ => trivial
  refine reads_requireTicket.stays.follows_bind (fun _ => ?_) fun _ => trivial
  refine reads_buildContext.stays.follows_bind (fun context => ?_) fun _ => trivial
  exact follows_bind follows_createAgentRun (fun _ _ hrow => hrow) fun _ _ _ => trivial

theorem complies_run {request : RunRequest} :
    Complies .idle (AgentRuns.run rt definition request) := by
  refine follows_bind follows_beginRun ?_ fun _ _ _ => trivial
  rintro m ⟨run, state⟩ hbegins
  rcases hbegins with rfl | ⟨rfl, hstatus⟩
  · exact complies_lost _
  · exact complies_continueRun (Mode.live_holds hstatus)

theorem complies_resume {approver : String} {role : Access.Role} {correlationId : Option String} :
    Complies (.holds run) (resume rt definition run approver role correlationId) := by
  rw [resume]
  split
  · exact (stays_pure _).complies
  · rename_i hstatus
    have hm : (Mode.holds run).Live run := ⟨rfl, by rw [not_not.mp hstatus]; rfl⟩
    refine (reads_query _).stays.bind_complies fun ticket => ?_
    split
    · exact (stays_pure _).complies
    · refine reads_definitionForRun.stays.bind_complies fun definition => ?_
      refine reads_check.stays.bind_complies fun _ => ?_
      refine reads_pendingStep.stays.bind_complies fun pending => ?_
      refine (serves_approvedResult.stays hm).bind_complies fun result => ?_
      rw [resumeWith]
      split
      · exact complies_continueRun hm
      · exact complies_finish hm

theorem complies_cancel {actor : String} {role : Access.Role} {correlationId : Option String} :
    Complies (.holds run) (cancel rt definition run actor role correlationId) := by
  rw [cancel]
  split
  · exact (stays_pure _).complies
  · by_cases hlive : run.status.isTerminal = false
    · have hm : (Mode.holds run).Live run := ⟨rfl, hlive⟩
      refine reads_check.stays.bind_complies fun _ => ?_
      refine reads_definitionForRun.stays.bind_complies fun _ => ?_
      exact (serves_withdrawApproval.stays hm).bind_complies fun _ => complies_finish hm
    · -- the call is refused
      rw [check, if_pos (by cases hstatus : run.status <;> simp_all [RunStatus.isTerminal])]
      exact (stays_throw _).complies

/-- Every call acts on the run that it holds. -/
theorem follows_program (call : RunCall) :
    Follows protocol (fun _ _ => True) .idle (call.program rt) := by
  have hget : ∀ (runId : ℕ) (f : AgentRun → Call AgentExecutionResult),
      (∀ run, Complies (.holds run) (f run)) → Complies .idle (getAgentRun runId >>= f) := by
    intro runId f hf
    refine ⟨.inr rfl, fun found => ?_⟩
    cases found with
    | none => trivial
    | some run => exact hf run
  cases call with
  | run definition request => exact complies_run
  | resume definition runId approver role correlationId =>
      exact hget runId _ fun _ => complies_resume
  | cancel definition runId actor role correlationId =>
      exact hget runId _ fun _ => complies_cancel

end Rules

/-! ## Undisturbed runs -/

/-- A call that can execute a tool: a rejection does not. -/
def ToolEvent.mayExecute : ToolEvent → Bool
  | .invoked _ _ _ => true
  | .decided _ decision _ => decision.status == "approved"
  | .completed _ _ _ => true

/-- The calls that can have executed a tool of a run. -/
def toolEvents (runId : ℕ) (s : Workspace) : List ToolEvent :=
  s.events.filter fun event => event.runId == runId && event.mayExecute

def storedStatus (runId : ℕ) (s : Workspace) : Option RunStatus :=
  (s.runs.find? runId).map AgentRun.status

/-- The stored status is the one that the caller acts on: that of the run it holds when it calls a
tool or writes, and the one it has just written when it reads the row back. -/
def RunAction.Undisturbed (s : Workspace) : RunAction → Prop
  | .invoke run _ => storedStatus run.id s = some run.status
  | .decideApproval run decision =>
      decision.status = "approved" → storedStatus run.id s = some run.status
  | .completeApproval run _ _ _ => storedStatus run.id s = some run.status
  | .updateRun run write => storedStatus run.id s = some run.status ∨
      storedStatus run.id s = some write.status
  | .readBack written => storedStatus written.id s = some written.status
  | _ => True

/-- No other caller has changed the status of the run under the one that steps. -/
def Undisturbed {W : Type}
    (p : Pool W RunCall Workspace RunAction RunAction.Answer
      (Except RunError AgentExecutionResult)) : PoolStep W RunCall Surroundings → Prop
  | .start _ _ => True
  | .act w _ => ∀ next ∈ p.next? w, next.2.Undisturbed p.shared

instance (s : Workspace) : DecidablePred (RunAction.Undisturbed s)
  | .invoke run _ => inferInstanceAs (Decidable (storedStatus run.id s = some run.status))
  | .decideApproval run decision => inferInstanceAs (Decidable
      (decision.status = "approved" → storedStatus run.id s = some run.status))
  | .completeApproval run _ _ _ =>
      inferInstanceAs (Decidable (storedStatus run.id s = some run.status))
  | .updateRun run write => inferInstanceAs (Decidable
      (storedStatus run.id s = some run.status ∨ storedStatus run.id s = some write.status))
  | .readBack written =>
      inferInstanceAs (Decidable (storedStatus written.id s = some written.status))
  | .query _ | .selectRun _ | .insertRun _ _ => inferInstanceAs (Decidable True)

instance {W : Type} (p : Pool W RunCall Workspace RunAction RunAction.Answer
    (Except RunError AgentExecutionResult)) : DecidablePred (Undisturbed p)
  | .start _ _ => inferInstanceAs (Decidable True)
  | .act w _ => inferInstanceAs (Decidable (∀ next ∈ p.next? w, next.2.Undisturbed p.shared))

/-- The run has ended with a status, and once it is cancelled its tools are those of `events`. -/
structure Ended (runId : ℕ) (status : RunStatus) (events : List ToolEvent) (s : Workspace) :
    Prop where
  stored : storedStatus runId s = some status
  tools : status = .cancelled → toolEvents runId s = events

theorem storedStatus_update {s : Workspace} {runId key : ℕ} {write : RunWrite} :
    storedStatus runId { s with runs := (updateRow s.runs key write).2 } =
      if runId = key then (storedStatus runId s).map fun _ => write.status
      else storedStatus runId s := by
  simp only [storedStatus, updateRow, AutoTable.find?_update]
  cases hrow : s.runs.find? runId with
  | none => simp
  | some row =>
      have hid : row.id = runId := (AutoTable.find?_eq_some_iff.mp hrow).2
      by_cases hkey : runId = key
      · simp [hid, hkey, RunWrite.apply]
      · simp [hid, hkey]

theorem storedStatus_insert {s : Workspace} {runId : ℕ} {status : RunStatus}
    {draft : ℕ → AgentRun} {h : ∀ n, (draft n).id = n} {quarantined : Bool}
    (hstored : storedStatus runId s = some status) :
    storedStatus runId { s with runs := (insertRow s.runs draft h quarantined).2 } =
      some status := by
  rw [insertRow]
  split
  · exact hstored
  · rw [storedStatus] at hstored ⊢
    have hold : runId ≠ s.runs.lastKey + 1 := by
      rintro rfl
      rw [AutoTable.find?_next] at hstored
      cases hstored
    rwa [AutoTable.find?_insert, if_neg hold]

section Step

variable {m : Mode} {a : RunAction} {s : Workspace} {env : Surroundings} {runId : ℕ}
  {status : RunStatus} {events : List ToolEvent}

/-- A caller that nobody disturbs is never lost. -/
theorem move_ne_lost (hm : m ≠ .lost) (hallowed : protocol.allowed m a)
    (hund : a.Undisturbed s) : protocol.move m a (a.answer s env).1 ≠ .lost := by
  have hallowed := hallowed.resolve_left hm
  cases a with
  | query q => cases m <;> exact hm
  | selectRun runId =>
      subst hallowed
      simp only [protocol, RunAction.answer]
      cases s.runs.find? runId <;> nofun
  | insertRun draft h =>
      subst hallowed
      simp only [protocol, RunAction.answer]
      cases (insertRow s.runs draft h _).1 <;> nofun
  | invoke run call => rw [hallowed.1]; nofun
  | decideApproval run decision => rw [hallowed.1]; nofun
  | completeApproval run approvalId approver role => rw [hallowed.1]; nofun
  | updateRun run write => rw [hallowed.1]; nofun
  | readBack written =>
      subst hallowed
      obtain ⟨row, hrow, hstatus⟩ := Option.map_eq_some_iff.mp hund
      simp only [protocol, RunAction.answer, hrow, Mode.ofReadBack, if_pos hstatus]
      nofun

/-- A tool is called for a run whose status is not terminal, so not for this one. -/
theorem Ended.tool {run : AgentRun} {event : ToolEvent} (h : Ended runId status events s)
    (hterminal : status.isTerminal) (hlive : run.status.isTerminal = false)
    (hevent : event.runId = run.id)
    (hund : event.mayExecute → storedStatus run.id s = some run.status) :
    Ended runId status events { s with events := s.events ++ [event] } := by
  refine ⟨h.stored, fun hcancelled => ?_⟩
  rw [← h.tools hcancelled]
  have hother : ¬ (event.runId == runId && event.mayExecute) := by
    intro hsame
    simp only [Bool.and_eq_true, beq_iff_eq] at hsame
    obtain ⟨rfl, hexecute⟩ := hsame
    have hstored := h.stored
    rw [hevent, hund hexecute] at hstored
    cases hstored
    rw [hlive] at hterminal
    cases hterminal
  simp [toolEvents, List.filter_append, hother]

/-- What a caller does that nobody disturbs leaves an ended run as it is. -/
theorem Ended.answer (h : Ended runId status events s) (hterminal : status.isTerminal)
    (hm : m ≠ .lost) (hallowed : protocol.allowed m a) (hund : a.Undisturbed s) :
    Ended runId status events (a.answer s env).2 := by
  have hallowed := hallowed.resolve_left hm
  cases a with
  | query q => exact h
  | selectRun runId => exact h
  | insertRun draft hid => exact ⟨storedStatus_insert h.stored, h.tools⟩
  | invoke run call => exact h.tool hterminal hallowed.2 rfl fun _ => hund
  | decideApproval run decision =>
      exact h.tool hterminal hallowed.2 rfl fun happroved =>
        hund (by simpa [ToolEvent.mayExecute] using happroved)
  | completeApproval run approvalId approver role =>
      exact h.tool hterminal hallowed.2 rfl fun _ => hund
  | readBack written => exact h
  | updateRun run write =>
      refine ⟨?_, h.tools⟩
      refine storedStatus_update.trans ?_
      rw [h.stored]
      split
      · rename_i hid
        subst hid
        rcases hund with hheld | hwritten
        · -- the caller would hold a run that has ended
          rw [h.stored, Option.some_inj] at hheld
          rw [hheld, hallowed.2] at hterminal
          cases hterminal
        · rw [h.stored] at hwritten
          exact hwritten.symm
      · rfl

end Step

section Pool

variable {W : Type} [DecidableEq W] {runs : AutoTable AgentRun.id}

/-- No caller is lost, and the workspace meets `E`. -/
def InHand (E : Workspace → Prop) (p : Pool W RunCall Workspace RunAction RunAction.Answer
    (Except RunError AgentExecutionResult)) : Prop :=
  ∃ modes, Tracks (fun _ => protocol) (fun _ => True) .idle p.threads modes ∧
    (∀ w, modes w ≠ .lost) ∧ E p.shared

/-- What the actions of callers that nobody disturbs keep is kept by undisturbed steps. -/
theorem InHand.step {E : Workspace → Prop}
    (hE : ∀ s m a env, E s → m ≠ .lost → protocol.allowed m a → a.Undisturbed s →
      E (RunAction.answer a s env).2)
    {p : Pool W RunCall Workspace RunAction RunAction.Answer
      (Except RunError AgentExecutionResult)} {l : PoolStep W RunCall Surroundings}
    (hp : InHand E p) (hl : Undisturbed p l) : InHand E ((runPool W rt runs).step p l) := by
  refine pool_step (I := fun s (modes : W → Mode) => (∀ w, modes w ≠ .lost) ∧ E s)
    follows_program ?_ ?_ hp hl
  · rintro s modes w ⟨hlost, hs⟩ -
    refine ⟨fun w' => ?_, hs⟩
    rw [Function.update_apply]
    split
    · nofun
    · exact hlost w'
  · rintro p modes w call a next env - ⟨hlost, hs⟩ hw hallowed hundisturbed
    have hund : a.Undisturbed p.shared :=
      hundisturbed (call, a) (by simp [Pool.next?, hw, head?])
    refine ⟨fun w' => ?_, hE _ _ a env hs (hlost w) hallowed hund⟩
    rw [Function.update_apply]
    split
    · exact move_ne_lost (hlost w) hallowed hund
    · exact hlost w'

/-- Terminal runs stay terminal, and the tools of a cancelled run are executed no more, as long as
no other caller changes the status of a run under the one that acts on it. -/
theorem terminal_stays {ls rest : List (PoolStep W RunCall Surroundings)}
    (hguard : (runPool W rt runs).Guarded Undisturbed (ls ++ rest)) {runId : ℕ}
    {status : RunStatus}
    (hstored : storedStatus runId ((runPool W rt runs).run ls).shared = some status)
    (hterminal : status.isTerminal) :
    storedStatus runId ((runPool W rt runs).run (ls ++ rest)).shared = some status ∧
      (status = .cancelled → toolEvents runId ((runPool W rt runs).run (ls ++ rest)).shared =
        toolEvents runId ((runPool W rt runs).run ls).shared) := by
  obtain ⟨hbefore, hafter⟩ := (guardedFrom_append _ _ _ ls rest).mp hguard
  have hreached : InHand (fun _ => True) ((runPool W rt runs).run ls) :=
    Machine.run_invariant_of_guarded ⟨fun _ => .idle, fun _ => rfl, fun _ => nofun, trivial⟩
      (fun _ _ hp hl => hp.step (fun _ _ _ _ _ _ _ _ => trivial) hl) hbefore
  obtain ⟨modes, htracks, hlost, -⟩ := hreached
  have hended : Ended runId status (toolEvents runId ((runPool W rt runs).run ls).shared)
      ((runPool W rt runs).run ls).shared := ⟨hstored, fun _ => rfl⟩
  have hlast : InHand (Ended runId status (toolEvents runId ((runPool W rt runs).run ls).shared))
      (runFrom (runPool W rt runs).step ((runPool W rt runs).run ls) rest) :=
    runFrom_invariant (fun _ _ hp hl => hp.step
        (fun _ _ _ _ hs hm hallowed hund => hs.answer hterminal hm hallowed hund) hl)
      ⟨modes, htracks, hlost, hended⟩ hafter
  obtain ⟨-, -, -, hlast⟩ := hlast
  rw [Machine.run_append]
  exact ⟨hlast.stored, hlast.tools⟩

end Pool

/-! ## One morning -/

/-- Every text is a correlation id. -/
def morningRuns : RunRuntime where
  toAgentRuntime := morningAgents
  validCorrelationId := fun _ => true

def morningTicket : Tenancy.Ticket where
  id := "T-1"
  client := "Acme"
  subject := "Printer offline"
  body := "The printer on the second floor is offline."
  priority := "high"
  status := "open"
  clientId := acme
  requesterId := none
  createdAt := "08:00"
  updatedAt := "08:00"
  sourceSystem := none
  connectorInstanceId := none
  externalId := none
  externalClientId := none

/-- An agent that triages a ticket, and then summarizes it. -/
def morningAgent : AgentDefinition where
  id := "agent-1"
  name := "Triage"
  description := ""
  enabled := true
  trigger := "manual"
  entityType := "ticket"
  filters := ∅
  enabledTools := ["ticket-triage", "ticket-summary"]
  steps := [{ toolId := "ticket-triage" }, { toolId := "ticket-summary" }]
  maxSteps := 2
  executionTimeoutSeconds := 30
  clientId := none
  version := 1
  createdAt := "08:00"
  updatedAt := "08:00"

def morningAnswer : (q : Query) → q.Answer
  | .ticket _ _ => some morningTicket
  | .context _ _ => .ok ∅
  | .localMinutes _ => some 480
  | .elapsed => 0
  | .now => "08:05"
  | .revision _ _ _ => none
  | .approvalStatus _ => none
  | .nextTool _ _ _ => none

def succeeding : Surroundings where
  answer := morningAnswer
  invoked := .ok { status := .success }
  decided := .ok ()
  completed := .ok none

/-- Every tool waits for an approval. -/
def waiting : Surroundings :=
  { succeeding with
    invoked := .ok { status := .pendingApproval, runId := some 1, approvalId := some 1 } }

/-- Any interleaving on an empty store. -/
abbrev mornings : Machine (Pool Bool RunCall Workspace RunAction RunAction.Answer
    (Except RunError AgentExecutionResult)) (PoolStep Bool RunCall Surroundings) :=
  runPool Bool morningRuns .empty

def tessRuns (env : Surroundings) (n : ℕ) : List (PoolStep Bool RunCall Surroundings) :=
  .start true (.run morningAgent { entityId := "T-1", actor := "tess" }) ::
    List.replicate n (.act true env)

def omarCancels : List (PoolStep Bool RunCall Surroundings) :=
  .start false (.cancel morningAgent 1 "omar" .technician none) ::
    List.replicate 5 (.act false succeeding)

def omarResumes : List (PoolStep Bool RunCall Surroundings) :=
  .start false (.resume morningAgent 1 "omar" .technician none) ::
    List.replicate 5 (.act false succeeding)

/-- Once the run waits for an approval, it is cancelled for good. -/
theorem terminal_stays_cancelled :
    storedStatus 1 (mornings.run (tessRuns waiting 11 ++ omarCancels ++ omarResumes)).shared =
        some .cancelled ∧
      (RunStatus.cancelled = .cancelled →
        toolEvents 1 (mornings.run (tessRuns waiting 11 ++ omarCancels ++ omarResumes)).shared =
          toolEvents 1 (mornings.run (tessRuns waiting 11 ++ omarCancels)).shared) :=
  terminal_stays
    (show mornings.Guarded Undisturbed (tessRuns waiting 11 ++ omarCancels ++ omarResumes) by
      decide +kernel)
    (by decide +kernel) rfl

/-- Tess's call goes on after her run has been cancelled: it executes the second tool, and stores
that the run is completed. -/
theorem not_terminal_stays : ¬ ∀ (ls rest : List (PoolStep Bool RunCall Surroundings))
    (runId : ℕ) (status : RunStatus),
    storedStatus runId (mornings.run ls).shared = some status → status.isTerminal →
    storedStatus runId (mornings.run (ls ++ rest)).shared = some status ∧
      (status = .cancelled → toolEvents runId (mornings.run (ls ++ rest)).shared =
        toolEvents runId (mornings.run ls).shared) := by
  intro h
  obtain ⟨hstored, -⟩ := h (tessRuns succeeding 7 ++ omarCancels)
    (List.replicate 20 (.act true succeeding)) 1 .cancelled (by decide +kernel) rfl
  have hcompleted : storedStatus 1 (mornings.run (tessRuns succeeding 7 ++ omarCancels ++
      List.replicate 20 (.act true succeeding))).shared = some .completed := by decide +kernel
  rw [hcompleted] at hstored
  cases hstored

end WaitLocalAgent.AgentRuns
