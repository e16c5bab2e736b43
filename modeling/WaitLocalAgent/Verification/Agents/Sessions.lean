import WaitLocalAgent.Verification.Agents.Resumption
import WaitLocalAgent.Verification.Agents.Terminal

/-! # Sessions with and without approvals

A seamless session executes the tools that its run executes without approvals, and ends with the
same status. -/

namespace WaitLocalAgent.AgentRuns

open Foundation Approvals Agents Program
open SmartActions (ActionResult)

variable {rt : RunRuntime} {definition : AgentDefinition} {s : Scenario} {elapsed : ℕ → ℚ}
  {α β : Type}

/-! ## The start of a run -/

/-- The program is executed in the same way with and without approvals, whatever the time. -/
def Unaffected (s : Scenario) (elapsed : ℕ → ℚ) (p : Call α) : Prop :=
  ∀ w, p.run.exec s.answer w = p.run.exec (s.withoutApprovals elapsed).answer w

theorem unaffected_pure (x : α) : Unaffected s elapsed (pure x : Call α) := fun _ => rfl

theorem unaffected_throw (error : RunError) : Unaffected s elapsed (throw error : Call α) :=
  fun _ => rfl

theorem Unaffected.bind {p : Call α} {f : α → Call β} (hp : Unaffected s elapsed p)
    (hf : ∀ x, Unaffected s elapsed (f x)) : Unaffected s elapsed (p >>= f) := by
  intro w
  rw [exec_bindExcept, exec_bindExcept, hp w]
  rcases p.run.exec (s.withoutApprovals elapsed).answer w with ⟨result, w'⟩
  cases result with
  | ok x => exact hf x w'
  | error e => rfl

theorem unaffected_ask {a : RunAction}
    (ha : ∀ w, s.answer a w = (s.withoutApprovals elapsed).answer a w) :
    Unaffected s elapsed (ask a) := by
  intro w
  have h : ∀ s : Scenario, (ask a).run.exec s.answer w =
      (.ok (s.answer a w).1, (s.answer a w).2) := fun _ => rfl
  rw [h, h, ha]

theorem unaffected_query {q : Query}
    (hq : ∀ w, s.query w q = (s.withoutApprovals elapsed).query w q) :
    Unaffected s elapsed (query q) :=
  unaffected_ask fun w => congrArg (·, w.asked q) (hq w)

theorem unaffected_check {condition : Prop} [Decidable condition] {error : RunError} :
    Unaffected s elapsed (check condition error) := by
  rw [check]
  split
  · exact unaffected_throw error
  · exact unaffected_pure ()

theorem unaffected_executionWindowOpen : Unaffected s elapsed (executionWindowOpen definition) := by
  rw [executionWindowOpen]
  cases definition.executionWindowStart with
  | none => exact unaffected_pure _
  | some start =>
      refine Unaffected.bind (unaffected_query fun _ => rfl) fun minutes => ?_
      split
      · exact unaffected_pure _
      · exact unaffected_throw _

theorem unaffected_beginRun {request : RunRequest} :
    Unaffected s elapsed (beginRun rt definition request) := by
  refine unaffected_check.bind fun _ => ?_
  refine unaffected_executionWindowOpen.bind fun _ => ?_
  refine unaffected_check.bind fun _ => ?_
  refine unaffected_check.bind fun _ => ?_
  refine Unaffected.bind ?_ fun _ => ?_
  · refine Unaffected.bind (unaffected_query fun _ => rfl) fun ticket => ?_
    cases ticket with
    | none => exact unaffected_throw _
    | some ticket => exact unaffected_check
  · refine Unaffected.bind ?_ fun context => ?_
    · refine Unaffected.bind (unaffected_query fun _ => rfl) fun context => ?_
      cases context with
      | error e => exact unaffected_throw _
      | ok context => exact unaffected_pure _
    · refine Unaffected.bind ?_ fun _ => unaffected_pure _
      refine Unaffected.bind (unaffected_query fun _ => rfl) fun now => ?_
      refine (unaffected_ask fun _ => rfl).bind fun inserted => ?_
      cases inserted with
      | error e => exact unaffected_throw _
      | ok id =>
          refine (unaffected_ask fun _ => rfl).bind fun found => ?_
          cases found with
          | none => exact unaffected_throw _
          | some run => exact unaffected_pure _

/-! ## What a start leaves -/

section Start

variable {G : World → RunAction → Prop} {w : World} {request : RunRequest}

theorem Yields.bind_or {p : Call α} {f : α → Call β} {P : Except RunError α → World → Prop}
    {Q : Except RunError β → World → Prop} (hp : Yields s G w p P)
    (hf : ∀ x w', P (.ok x) w' → Yields s G w' (f x) Q)
    (herror : ∀ e w', P (.error e) w' → Q (.error e) w') : Yields s G w (p >>= f) Q :=
  Ensures.bindExcept hp hf herror

def Unchanged (w : World) (_ : Except RunError α) (w' : World) : Prop := w' = w

theorem Yields.bind_unchanged {p : Call α} {f : α → Call β}
    {Q : Except RunError β → World → Prop} (hp : Yields s G w p (Unchanged w))
    (hf : ∀ x, Yields s G w (f x) Q) (herror : ∀ e, Q (.error e) w) :
    Yields s G w (p >>= f) Q := by
  refine hp.bind_or ?_ ?_
  · rintro x w' rfl
    exact hf x
  · rintro e w' rfl
    exact herror e

theorem unchanged_check {condition : Prop} [Decidable condition] {error : RunError} :
    Yields s G w (check condition error) (Unchanged w) := by
  rw [check]
  split
  · exact yields_throw rfl
  · exact yields_pure rfl

theorem unchanged_executionWindowOpen :
    Yields s G w (executionWindowOpen definition) (Unchanged w) := by
  rw [executionWindowOpen]
  cases definition.executionWindowStart with
  | none => exact yields_pure rfl
  | some start =>
      refine yields_query_bind rfl ?_
      split
      · exact yields_pure rfl
      · exact yields_throw rfl

theorem unchanged_requireTicket {entityId : String} :
    Yields s G w (requireTicket definition entityId) (Unchanged w) := by
  refine yields_query_bind rfl ?_
  split
  · exact yields_throw rfl
  · exact unchanged_check

theorem unchanged_buildContext {entityId : String} :
    Yields s G w (buildContext definition entityId) (Unchanged w) := by
  refine yields_query_bind rfl ?_
  split
  · exact yields_pure rfl
  · exact yields_throw rfl

/-- A run that has been started: no tool has been called. -/
structure Started (s : Scenario) (definition : AgentDefinition) (actor : String) (w : World)
    (run : AgentRun) (w' : World) : Prop where
  own : OwnRow definition actor w' run
  ticket : isQuarantined s.ticket = false
  executed : w'.executed = w.executed
  requests : w'.requests = w.requests

/-- A start that succeeds leaves a new run, and one that fails leaves everything as it was. -/
def Starts (s : Scenario) (definition : AgentDefinition) (actor : String) (w : World) :
    Except RunError AgentRun → World → Prop
  | .ok run, w' => Started s definition actor w run w'
  | .error _, w' => w' = w

theorem starts_createAgentRun {state : RunState} :
    Yields s G w (createAgentRun rt definition request state)
      (Starts s definition request.actor w) := by
  refine yields_query_bind rfl ?_
  refine yields_ask_bind fun _ => ?_
  simp only [Scenario.answer, insertRow]
  cases hticket : isQuarantined s.ticket with
  | true => exact yields_throw rfl
  | false =>
      have hstored := AutoTable.find?_insert (t := w.runs) (k := w.runs.lastKey + 1)
        (h := newRun_id rt definition request state s.now)
      rw [if_pos rfl] at hstored
      refine (yields_readBack hstored).imp fun r w' hr => ?_
      cases r with
      | error e => exact hr.elim
      | ok run =>
          obtain ⟨rfl, rfl⟩ := hr
          exact ⟨⟨hstored, rfl, rfl⟩, hticket, rfl, rfl⟩

theorem starts_beginRun :
    Yields s G w (beginRun rt definition request) fun r w' =>
      Starts s definition request.actor w (r.map Prod.fst) w' := by
  have herror : ∀ e : RunError, Starts s definition request.actor w
      ((Except.error e : Except RunError (AgentRun × RunState)).map Prod.fst) w := fun _ => rfl
  refine unchanged_check.bind_unchanged (fun _ => ?_) herror
  refine unchanged_executionWindowOpen.bind_unchanged (fun _ => ?_) herror
  refine unchanged_check.bind_unchanged (fun _ => ?_) herror
  refine unchanged_check.bind_unchanged (fun _ => ?_) herror
  refine unchanged_requireTicket.bind_unchanged (fun _ => ?_) herror
  refine unchanged_buildContext.bind_unchanged (fun _ => ?_) herror
  exact starts_createAgentRun.bind_or (fun _ _ hstarted => yields_pure hstarted)
    fun _ _ hstarted => hstarted

theorem starts_exec (rt : RunRuntime) (definition : AgentDefinition) (request : RunRequest)
    (w : World) : Starts s definition request.actor w
      (((beginRun rt definition request).run.exec s.answer w).1.map Prod.fst)
      ((beginRun rt definition request).run.exec s.answer w).2 := by
  have hyields : Yields s (fun _ _ => True) w (beginRun rt definition request) fun r w' =>
      Starts s definition request.actor w (r.map Prod.fst) w' := starts_beginRun
  exact Ensures.exec hyields (meets_of_forall (fun _ _ => trivial) _ _)

end Start

/-! ## Sessions -/

section Sessions

variable {request : RunRequest} {runs : AutoTable AgentRun.id} {target : List String × RunStatus}
  {session : Session} {row : AgentRun} {p : Pause definition}

/-- The tools that the definition executes on its own, and the status that it ends with. -/
def wholeWalk (definition : AgentDefinition) (s : Scenario) : List String × RunStatus :=
  walk definition s.outcome (queuedSteps definition 0) [] []

/-- The call resumes the run, in the name of somebody who may approve its actions. -/
def SessionCall.Approves (actor : String) : SessionCall → Prop
  | .run _ => False
  | .resume approver _ _ => approver ≠ actor

def SeamlessCall (rt : RunRuntime) (s : Scenario) (definition : AgentDefinition)
    (session : Session) (call : SessionCall) : Prop :=
  (call.program rt definition session.runId).run.Meets s.answer (Seamless s definition)
    session.world

/-- No time check of the call fails. -/
def InTimeCall (rt : RunRuntime) (s : Scenario) (definition : AgentDefinition)
    (session : Session) (call : SessionCall) : Prop :=
  (call.program rt definition session.runId).run.Meets s.answer (InTime s definition) session.world

theorem SeamlessCall.inTime {session : Session} {call : SessionCall}
    (h : SeamlessCall rt s definition session call) : InTimeCall rt s definition session call := by
  refine Meets.imp h fun w a ha => ?_
  cases a with
  | invoke run call => trivial
  | completeApproval run approvalId approver role => trivial
  | _ => exact ha

instance decidableSeamlessCall (session : Session) (call : SessionCall) :
    Decidable (SeamlessCall rt s definition session call) :=
  inferInstanceAs (Decidable ((call.program rt definition session.runId).run.Meets s.answer
    (Seamless s definition) session.world))

instance decidableInTimeCall (session : Session) (call : SessionCall) :
    Decidable (InTimeCall rt s definition session call) :=
  inferInstanceAs (Decidable ((call.program rt definition session.runId).run.Meets s.answer
    (InTime s definition) session.world))

theorem Paused.length_lt (h : Paused s definition target p row session.world) :
    session.world.executed.length < target.1.length := by
  have htarget := h.target
  calc session.world.executed.length
      < (attemptTool s.outcome (policyAt definition p.index) (toolAt definition p.index) p.attempt
          session.world.executed).1.length := length_attemptTool
    _ ≤ target.1.length := by
        rw [htarget]
        exact length_le_afterStep

/-- After `n` resumptions the run has reached the target, or waits and has executed at least `n`
tools. -/
inductive Underway (s : Scenario) (definition : AgentDefinition) (actor : String)
    (target : List String × RunStatus) (n : ℕ) (session : Session) : Prop where
  | mk (row : AgentRun) (runId : session.runId = some row.id)
      (own : OwnRow definition actor session.world row) (ticket : isQuarantined s.ticket = false)
      (reached : row.status ≠ .pendingApproval ∧ (session.world.executed, row.status) = target ∨
        ∃ p, Paused s definition target p row session.world ∧ n ≤ session.world.executed.length)

variable {actor : String}

theorem Underway.of_settled {call : SessionCall} {run : AgentRun} {n : ℕ}
    {w w' : World} {result : AgentExecutionResult}
    (hcall : (call.program rt definition session.runId).run.exec s.answer session.world =
      (.ok result, w'))
    (h : Settled s definition target run w result w')
    (hown : OwnRow definition actor w run) (hticket : isQuarantined s.ticket = false)
    (hrun : session.runId = none ∨ session.runId = some run.id)
    (hn : n ≤ w'.executed.length) :
    Underway s definition actor target n (Session.step rt s definition session call) := by
  obtain ⟨row, rfl, hstored, hsame, -, hend⟩ := h
  rw [Session.step, hcall]
  refine ⟨row, ?_, ⟨hstored, hsame.actor.trans hown.actor, hsame.revision.trans hown.revision⟩,
    hticket, ?_⟩
  · rcases hrun with hrun | hrun
    · simp [hrun, startedRun, resultOf]
    · simp [hrun, hsame.id]
  · exact hend.imp_right fun ⟨p, hp⟩ => ⟨p, hp, hn⟩

/-- The loop of a run that was just started. -/
theorem exec_continueRun {run : AgentRun} {w : World}
    (hrules : RulesNormalize rt definition) (haware : definition.resultAware = false)
    (hrow : w.runs.find? run.id = some run) (hexecuted : w.executed = []) (request : RunRequest)
    (state : RunState)
    (hintime : (continueRun rt definition request.actor request.actorRole 0 run state).run.Meets
      s.answer (InTime s definition) w) :
    ∃ result w', (continueRun rt definition request.actor request.actorRole 0 run state).run.exec
        s.answer w = (.ok result, w') ∧
      Settled s definition (wholeWalk definition s) run w result w' := by
  refine Yields.exec (G := NotAgain s definition []) ?_ (hintime.imp fun w a ha => ?_)
  · rw [continueRun, if_neg (by simp [haware])]
    have hbefore : Before definition (queuedSteps definition 0) ([] ++ []) w.executed := by
      rw [hexecuted]
      exact ⟨List.Subset.refl _, List.Subset.refl _, List.nil_subset _, Covered.covers rfl⟩
    have htarget : wholeWalk definition s =
        walk definition s.outcome (queuedSteps definition 0) ([] ++ []) w.executed := by
      rw [hexecuted]
      rfl
    rw [htarget]
    exact yields_continueSteps hrules hrow hbefore
  · cases a with
    | invoke run call => exact fun _ => List.not_mem_nil
    | _ => exact ha

/-- The first call of a session, when the run could be started. -/
theorem underway_run {run : AgentRun} {state : RunState} {w : World}
    (hrules : RulesNormalize rt definition) (haware : definition.resultAware = false)
    (hintime : InTimeCall rt s definition (sessions rt s definition runs).init (.run request))
    (hbegin : (beginRun rt definition request).run.exec s.answer (sessions rt s definition
      runs).init.world = (.ok (run, state), w))
    (hstarted : Started s definition request.actor (sessions rt s definition runs).init.world
      run w) :
    Underway s definition request.actor (wholeWalk definition s) 0
      ((sessions rt s definition runs).run [.run request]) := by
  obtain ⟨result, w', hexec, hsettled⟩ := exec_continueRun hrules haware
    hstarted.own.stored hstarted.executed request state (hintime.of_bindExcept hbegin)
  have hcall : (SessionCall.program rt definition none (.run request)).run.exec s.answer
      (sessions rt s definition runs).init.world = (.ok result, w') := by
    rw [SessionCall.program, AgentRuns.run, exec_bindExcept, hbegin]
    exact hexec
  exact Underway.of_settled hcall hsettled hstarted.own hstarted.ticket (.inl rfl) (Nat.zero_le _)

theorem underway_resume {n : ℕ} {call : SessionCall}
    (hrules : RulesNormalize rt definition) (haware : definition.resultAware = false)
    (h : Underway s definition actor target n session) (hcall : call.Approves actor)
    (hguard : SeamlessCall rt s definition session call) :
    Underway s definition actor target (n + 1) (Session.step rt s definition session call) := by
  obtain ⟨row, hrunId, hown, hticket, hreached⟩ := h
  cases call with
  | run request => exact hcall.elim
  | resume approver role correlationId =>
      have hprogram : SessionCall.program rt definition session.runId
          (.resume approver role correlationId) =
          RunCall.program rt (.resume definition row.id approver role correlationId) := by
        rw [hrunId, SessionCall.program]
      rw [SeamlessCall, hprogram] at hguard
      rcases hreached with hend | ⟨p, hpaused, hn⟩
      · obtain ⟨result, w', hexec, rfl, rfl⟩ :=
          (yields_resume_of_not_pending hown.stored hend.1).exec hguard
        refine ⟨row, ?_, ?_, hticket, .inl ?_⟩
        all_goals simp only [Session.step, hprogram, hexec]
        · simp [hrunId]
        · exact hown
        · exact hend
      · obtain ⟨result, w', hexec, hsettled, hlength⟩ :=
          (yields_resume hrules haware hticket hown hcall hpaused).exec hguard
        rw [← hprogram] at hexec
        exact Underway.of_settled hexec hsettled hown hticket (.inr hrunId) (by omega)

theorem answer_withoutApprovals (a : RunAction) (w : World) (hw : w.requests = []) :
    ((s.withoutApprovals elapsed).answer a w).2.requests = [] := by
  cases a with
  | invoke run call =>
      simp only [Scenario.answer, Scenario.invoke]
      cases (s.withoutApprovals elapsed).outcome w.executed call.toolId with
      | none => exact hw
      | some result => exact hw
  | decideApproval run decision => simp [Scenario.answer, Scenario.decide, hw]
  | query q => cases q <;> exact hw
  | _ => exact hw

theorem requests_withoutApprovals (calls : List SessionCall) :
    ((sessions rt (s.withoutApprovals elapsed) definition runs).run calls).world.requests = [] := by
  refine Machine.run_invariant (I := fun session : Session => session.world.requests = []) rfl
    (fun session call hsession => ?_) calls
  exact exec_invariant (I := fun w : World => w.requests = []) answer_withoutApprovals _ hsession

/-- The status of a session whose run is under way. -/
theorem status_of_stored (hrunId : session.runId = some row.id)
    (hrow : session.world.runs.find? row.id = some row) : session.status = some row.status := by
  simp [Session.status, hrunId, hrow]

/-- A session is still waiting only when it has not executed all the tools of its target. -/
theorem Underway.outcome {n : ℕ}
    (h : Underway s definition actor target n session) :
    (session.status = some .pendingApproval → n < target.1.length) ∧
      (session.status ≠ some .pendingApproval →
        session.world.executed = target.1 ∧ session.status = some target.2) := by
  obtain ⟨row, hrunId, hown, -, hreached⟩ := h
  rw [status_of_stored hrunId hown.stored]
  rcases hreached with ⟨hstatus, rfl⟩ | ⟨p, hpaused, hn⟩
  · exact ⟨fun h => absurd (Option.some.inj h) hstatus, fun _ => ⟨rfl, rfl⟩⟩
  · have := hpaused.length_lt
    exact ⟨fun _ => by omega, fun h => absurd (congrArg some hpaused.status) h⟩

/-- Without approvals a run does not wait. -/
theorem Underway.status_ne {n : ℕ}
    (h : Underway s definition actor target n session) (hrequests : session.world.requests = []) :
    session.status ≠ some .pendingApproval := by
  obtain ⟨row, hrunId, hown, -, hreached⟩ := h
  rw [status_of_stored hrunId hown.stored]
  rcases hreached with ⟨hstatus, -⟩ | ⟨p, hpaused, -⟩
  · exact fun h => hstatus (Option.some.inj h)
  · have hrequest := hpaused.request
    rw [hrequests] at hrequest
    cases hrequest

/-- A session whose run could not be started executes nothing. -/
structure Refused (session : Session) : Prop where
  runId : session.runId = none
  executed : session.world.executed = []

theorem refused_run {error : RunError}
    (hbegin : (beginRun rt definition request).run.exec s.answer
      (sessions rt s definition runs).init.world =
        (.error error, (sessions rt s definition runs).init.world)) :
    Refused ((sessions rt s definition runs).run [.run request]) := by
  have hcall : (SessionCall.program rt definition none (.run request)).run.exec s.answer
      (sessions rt s definition runs).init.world =
        (.error error, (sessions rt s definition runs).init.world) := by
    rw [SessionCall.program, AgentRuns.run, exec_bindExcept, hbegin]
  change Refused (Session.step rt s definition ⟨(sessions rt s definition runs).init.world, none⟩ _)
  rw [Session.step, hcall]
  exact ⟨rfl, rfl⟩

theorem refused_resume {call : SessionCall} (h : Refused session)
    (hcall : call.Approves actor) : Refused (Session.step rt s definition session call) := by
  cases call with
  | run request => exact hcall.elim
  | resume approver role correlationId =>
      rw [Session.step, h.runId]
      exact ⟨rfl, h.executed⟩

theorem Refused.status (h : Refused session) : session.status = none := by
  simp [Session.status, h.runId]

/-- The calls that resume a session, each of them seamless. -/
def Resuming (rt : RunRuntime) (s : Scenario) (definition : AgentDefinition) (actor : String)
    (session : Session) (call : SessionCall) : Prop :=
  SeamlessCall rt s definition session call ∧ call.Approves actor

/-- The start of a session decides whether anything is executed at all. -/
theorem refused_or_underway (hrules : RulesNormalize rt definition)
    (haware : definition.resultAware = false)
    (hintime : InTimeCall rt s definition (sessions rt s definition runs).init (.run request))
    (hdirect : InTimeCall rt (s.withoutApprovals elapsed) definition
      (sessions rt s definition runs).init (.run request)) :
    (Refused ((sessions rt s definition runs).run [.run request]) ∧
      Refused ((sessions rt (s.withoutApprovals elapsed) definition runs).run [.run request])) ∨
    (Underway s definition request.actor (wholeWalk definition s) 0
        ((sessions rt s definition runs).run [.run request]) ∧
      Underway (s.withoutApprovals elapsed) definition request.actor (wholeWalk definition s) 0
        ((sessions rt (s.withoutApprovals elapsed) definition runs).run [.run request])) := by
  have hstarts : Starts s definition request.actor _ _ _ :=
    starts_exec rt definition request (sessions rt s definition runs).init.world
  rcases hbegin : (beginRun rt definition request).run.exec s.answer
    (sessions rt s definition runs).init.world with ⟨result, w⟩
  have hbegin' := hbegin
  have hsame : Unaffected s elapsed (beginRun rt definition request) := unaffected_beginRun
  rw [hsame] at hbegin'
  rw [hbegin] at hstarts
  cases result with
  | error error =>
      obtain rfl : w = (sessions rt s definition runs).init.world := hstarts
      exact .inl ⟨refused_run hbegin, refused_run hbegin'⟩
  | ok started =>
      have hstarted' : Started (s.withoutApprovals elapsed) definition request.actor
          (sessions rt s definition runs).init.world started.1 w :=
        ⟨hstarts.own, hstarts.ticket, hstarts.executed, hstarts.requests⟩
      exact .inr ⟨underway_run hrules haware hintime hbegin hstarts,
        underway_run hrules haware hdirect hbegin' hstarted'⟩

/-- A seamless session executes the tools that its run executes without approvals and in time, with
the same final status, and comes to its end after fewer resumptions than tools. -/
theorem seamless_session (resumes : List SessionCall)
    (haware : definition.resultAware = false) (hrules : RulesNormalize rt definition)
    (hresumes : ∀ call ∈ resumes, call.Approves request.actor)
    (hintime : (sessions rt (s.withoutApprovals elapsed) definition runs).Guarded
      (InTimeCall rt (s.withoutApprovals elapsed) definition) [.run request])
    (hguard : (sessions rt s definition runs).Guarded (SeamlessCall rt s definition)
      (.run request :: resumes)) :
    let direct := (sessions rt (s.withoutApprovals elapsed) definition runs).run [.run request]
    let paused := (sessions rt s definition runs).run (.run request :: resumes)
    (paused.status = some .pendingApproval → resumes.length < direct.world.executed.length) ∧
      (paused.status ≠ some .pendingApproval →
        paused.world.executed = direct.world.executed ∧ paused.status = direct.status) := by
  intro direct paused
  have hrun : paused = runFrom (Session.step rt s definition)
      ((sessions rt s definition runs).run [.run request]) resumes := rfl
  have hguard' : GuardedFrom (Session.step rt s definition)
      (Resuming rt s definition request.actor)
      ((sessions rt s definition runs).run [.run request]) resumes :=
    hguard.2.imp_of_mem fun session call hcall hseamless => ⟨hseamless, hresumes call hcall⟩
  rcases refused_or_underway hrules haware hguard.1.inTime hintime.1 with
    ⟨hfirst, hdirect⟩ | ⟨hfirst, hdirect⟩
  · have hpaused : Refused paused := by
      rw [hrun]
      exact runFrom_invariant (fun session call h hcall => refused_resume h hcall.2) hfirst hguard'
    rw [hpaused.status, hpaused.executed, hdirect.executed, hdirect.status]
    exact ⟨nofun, fun _ => ⟨rfl, rfl⟩⟩
  · have hpaused : Underway s definition request.actor (wholeWalk definition s)
        (0 + resumes.length) paused := by
      rw [hrun]
      exact runFrom_counted (fun n session call h hcall =>
        underway_resume hrules haware h hcall.2 hcall.1) hfirst hguard'
    obtain ⟨hexecuted, hstatus⟩ :=
      hdirect.outcome.2 (hdirect.status_ne (requests_withoutApprovals _))
    rw [hexecuted, hstatus]
    rw [Nat.zero_add] at hpaused
    exact hpaused.outcome

end Sessions

/-! ## A morning -/

/-- Every tool succeeds, and the summary waits for an approval. -/
def morningScenario : Scenario where
  outcome := fun _ _ => some { status := .success }
  needsApproval := fun _ toolId => toolId == "ticket-summary"
  elapsed := fun _ => 0
  ticket := some morningTicket
  context := .ok ∅
  minutes := some 480
  now := "08:05"
  outcome_status := fun _ _ _ hresult => by
    cases hresult
    nofun

def morningRequest : RunRequest := { entityId := "T-1", actor := "tess" }

def omarApproves : SessionCall := .resume "omar" .technician none

theorem seamless_session_morning :
    let direct := (sessions morningRuns (morningScenario.withoutApprovals fun _ => 1) morningAgent
      .empty).run [.run morningRequest]
    let paused := (sessions morningRuns morningScenario morningAgent .empty).run
      [.run morningRequest, omarApproves]
    (paused.status = some .pendingApproval → 1 < direct.world.executed.length) ∧
      (paused.status ≠ some .pendingApproval →
        paused.world.executed = direct.world.executed ∧ paused.status = direct.status) :=
  seamless_session [omarApproves] rfl ⟨[], rfl⟩ (by simp [omarApproves, morningRequest,
    SessionCall.Approves]) (by decide +kernel) (by decide +kernel)

/-- A triage that is asked for twice, around a summary. -/
def repeatedTriage : DefinitionRequest :=
  { triageRequest [] with
    enabledTools := ["ticket-triage", "ticket-summary"]
    steps := [{ toolId := "ticket-triage" }, { toolId := "ticket-summary" },
      { toolId := "ticket-triage" }]
    maxSteps := 3
    approvalRequiredTools := ["ticket-summary"] }

def triageTwice : Option AgentDefinition :=
  (create morningAgents ⟨.empty, .empty⟩ repeatedTriage none 1 (Instant.morning 0)).toOption.map
    Prod.fst

theorem triageTwice_sessions : ∃ definition ∈ triageTwice, definition.resultAware = false ∧
    (0 : ℚ) < definition.executionTimeoutSeconds ∧
    ((sessions morningRuns morningScenario definition .empty).run
      [.run morningRequest, omarApproves]).status = some .completed ∧
    ((sessions morningRuns morningScenario definition .empty).run
      [.run morningRequest, omarApproves]).world.executed =
        ["ticket-triage", "ticket-summary", "ticket-triage"] ∧
    ((sessions morningRuns (morningScenario.withoutApprovals fun _ => 0) definition .empty).run
      [.run morningRequest]).world.executed = ["ticket-triage", "ticket-summary"] := by
  decide +kernel

/-- A resumed run may execute a tool again that it has executed before its pause. -/
theorem not_session_direct : ¬ ∀ (rt : RunRuntime) (s : Scenario) (elapsed : ℕ → ℚ)
    (store store' : Agents.Store)
    (asked : DefinitionRequest) (clientId : Option String) (uuid : BitVec 128) (now : Instant)
    (definition : AgentDefinition) (runs : AutoTable AgentRun.id) (request : RunRequest)
    (resumes : List SessionCall),
    create rt.toAgentRuntime store asked clientId uuid now = .ok (definition, store') →
    definition.resultAware = false → (∀ call ∈ resumes, call.Approves request.actor) →
    (∀ n, s.elapsed n < definition.executionTimeoutSeconds) →
    (∀ n, elapsed n < definition.executionTimeoutSeconds) →
    let direct := (sessions rt (s.withoutApprovals elapsed) definition runs).run [.run request]
    let paused := (sessions rt s definition runs).run (.run request :: resumes)
    paused.status ≠ some .pendingApproval →
      paused.world.executed = direct.world.executed ∧ paused.status = direct.status := by
  intro h
  obtain ⟨definition, hdefinition, haware, htimeout, hstatus, hpaused, hdirect⟩ :=
    triageTwice_sessions
  obtain ⟨⟨_, store'⟩, hcreated, rfl⟩ := Option.map_eq_some_iff.mp hdefinition
  obtain ⟨hsame, -⟩ := h morningRuns morningScenario (fun _ => 0) ⟨.empty, .empty⟩ store'
    repeatedTriage none 1 (Instant.morning 0) _ .empty morningRequest [omarApproves]
    (toOption_eq_some.mp hcreated) haware
    (by simp [omarApproves, morningRequest, SessionCall.Approves]) (fun _ => htimeout)
    (fun _ => htimeout) (by rw [hstatus]; nofun)
  rw [hpaused, hdirect] at hsame
  exact absurd hsame (by decide)

end WaitLocalAgent.AgentRuns
