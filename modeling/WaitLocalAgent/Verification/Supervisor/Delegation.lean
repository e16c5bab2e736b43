import WaitLocalAgent.Verification.Supervisor.Preparation

/-! # The order of a delegation

A call without a cancellation starts its children in topological order, each after its
dependencies have ended completed, and nothing after a child that has not. -/

namespace WaitLocalAgent.Supervisor

open Foundation
open Agents (AgentDefinition)
open AgentRuns (RunStatus)

/-! ## Traces -/

abbrev Event := Σ action : SupervisorAction, action.Answer

/-- The child that a call starts, once more if it is a retry. -/
def SupervisorAction.childId? : SupervisorAction → Option String
  | run definition .. | retry definition .. => some definition.id
  | cancel .. | getAgentRun .. => none

/-- The call has ended in a completed run. -/
def Event.completes : Event → Bool
  | ⟨.run .., .ok result⟩ | ⟨.retry .., .ok result⟩ => result.status = .completed
  | _ => false

/-- The children that the calls have started, in order. -/
def starts (trace : List Event) : List String := trace.filterMap fun e => e.1.childId?

def callsOf (trace : List Event) (id : String) : List Event :=
  trace.filter fun e => e.1.childId? = some id

/-- The last call of the child has ended in a completed run. -/
def EndsCompleted (trace : List Event) (id : String) : Prop :=
  ∃ e, (callsOf trace id).getLast? = some e ∧ e.completes = true

@[simp] theorem starts_append (trace rest : List Event) :
    starts (trace ++ rest) = starts trace ++ starts rest := List.filterMap_append ..

theorem starts_singleton (e : Event) : starts [e] = e.1.childId?.toList := by
  cases h : e.1.childId? <;> simp [starts, h]

theorem callsOf_append (trace rest : List Event) (id : String) :
    callsOf (trace ++ rest) id = callsOf trace id ++ callsOf rest id := List.filter_append ..

variable {trace : List Event}

/-- Calls of others leave the last call of a child the last. -/
theorem EndsCompleted.concat {id : String} (h : EndsCompleted trace id)
    {e : Event} (he : e.1.childId? ≠ some id) : EndsCompleted (trace ++ [e]) id := by
  obtain ⟨last, hlast, hcompletes⟩ := h
  refine ⟨last, ?_, hcompletes⟩
  rw [callsOf_append]
  simpa [callsOf, he] using hlast

theorem endsCompleted_concat {id : String} {e : Event}
    (he : e.1.childId? = some id) (hcompletes : e.completes = true) :
    EndsCompleted (trace ++ [e]) id := by
  refine ⟨e, ?_, hcompletes⟩
  rw [callsOf_append]
  simp [callsOf, he]

/-! ## When a child may be started -/

/-- After the calls `before`, the delegation may start the child. -/
structure Startable (d : Delegation) (before : List Event) (id : String) : Prop where
  listed : id ∈ d.orderedIds
  uncovered : d.completed? id = none
  dependencies : ∀ definition ∈ d.ordered, definition.id = id →
    ∀ dependencyId ∈ definition.dependsOnAgentIds,
      (d.completed? dependencyId).isSome ∨ EndsCompleted before dependencyId
  budget : (starts before).count id ≤ d.retryLimit
  sorted : ∀ a ∈ starts before, d.orderedIds.idxOf a ≤ d.orderedIds.idxOf id
  stops : ∀ a ∈ starts before, a ≠ id → EndsCompleted before a

def StartsAllowed (d : Delegation) (before : List Event) (action : SupervisorAction) : Prop :=
  ∀ id, action.childId? = some id → Startable d before id

/-- What the loop relies on: the ids in order are distinct, and the dependencies of a child come
before it. -/
structure InOrder (d : Delegation) : Prop where
  nodup : (d.ordered.map AgentDefinition.id).Nodup
  ordered : d.ordered.map AgentDefinition.id = d.orderedIds
  dependencies : ∀ done definition rest, d.ordered = done ++ definition :: rest →
    ∀ dependencyId ∈ definition.dependsOnAgentIds, dependencyId ∈ done.map AgentDefinition.id

theorem Prepared.inOrder {rt : SupervisorRuntime} {runs : Table AgentRun.id}
    {request : DelegationRequest} {d : Delegation} (h : Prepared rt runs request d) :
    InOrder d := by
  refine ⟨?_, h.ordered, ?_⟩
  · rw [h.ordered]
    exact h.perm.nodup_iff.mpr h.selected_nodup
  · intro done definition rest hordered dependencyId hdependency
    have hids : d.orderedIds =
        done.map AgentDefinition.id ++ definition.id :: rest.map AgentDefinition.id := by
      rw [← h.ordered, hordered]
      simp
    obtain ⟨nexts, hnexts, hbefore⟩ := h.topological _ _ _ hids
    rw [h.dependencies definition (by simp [hordered])] at hnexts
    cases hnexts
    exact hbefore dependencyId hdependency

section Loop

variable {d : Delegation} {done rest : List AgentDefinition} {definition : AgentDefinition}
  {events : List Event}

/-- The children in `done` have been dealt with, and no other was started. -/
structure Advanced (d : Delegation) (done : List AgentDefinition) (events : List Event) :
    Prop where
  started : ∀ a ∈ starts events, a ∈ done.map AgentDefinition.id ∧ d.completed? a = none
  ended : ∀ a ∈ done.map AgentDefinition.id, (d.completed? a).isSome ∨ EndsCompleted events a

/-- The children in `done` have been dealt with, and the next was called `calls` times. -/
structure Attempting (d : Delegation) (done : List AgentDefinition) (definition : AgentDefinition)
    (events : List Event) (calls : ℕ) : Prop where
  started : ∀ a ∈ starts events,
    a = definition.id ∨ a ∈ done.map AgentDefinition.id ∧ d.completed? a = none
  ended : ∀ a ∈ done.map AgentDefinition.id, (d.completed? a).isSome ∨ EndsCompleted events a
  calls : (starts events).count definition.id = calls

theorem InOrder.split (hd : InOrder d) (hordered : d.ordered = done ++ definition :: rest) :
    d.orderedIds =
        done.map AgentDefinition.id ++ definition.id :: rest.map AgentDefinition.id ∧
      definition.id ∉ done.map AgentDefinition.id := by
  have hids : d.ordered.map AgentDefinition.id =
      done.map AgentDefinition.id ++ definition.id :: rest.map AgentDefinition.id := by
    simp [hordered]
  refine ⟨hd.ordered ▸ hids, ?_⟩
  have hnodup := hd.nodup
  rw [hids, List.nodup_append] at hnodup
  exact fun hmem => hnodup.2.2 _ hmem _ List.mem_cons_self rfl

theorem Advanced.attempting (h : Advanced d done events) (hd : InOrder d)
    (hordered : d.ordered = done ++ definition :: rest) :
    Attempting d done definition events 0 := by
  refine ⟨fun a ha => .inr (h.started a ha), h.ended, ?_⟩
  rw [List.count_eq_zero]
  exact fun hmem => (hd.split hordered).2 (h.started _ hmem).1

theorem Attempting.startable {calls : ℕ} (h : Attempting d done definition events calls)
    (hd : InOrder d) (hordered : d.ordered = done ++ definition :: rest)
    (huncovered : d.completed? definition.id = none) (hcalls : calls ≤ d.retryLimit) :
    Startable d events definition.id := by
  obtain ⟨hids, hnew⟩ := hd.split hordered
  refine ⟨by simp [hids], huncovered, ?_, h.calls ▸ hcalls, ?_, ?_⟩
  · intro definition' hmem hid dependencyId hdependency
    have hsame : definition' = definition :=
      List.inj_on_of_nodup_map hd.nodup hmem (by simp [hordered]) hid
    subst hsame
    exact h.ended dependencyId (hd.dependencies done definition' rest hordered dependencyId
      hdependency)
  · intro a ha
    rcases h.started a ha with rfl | ⟨hmem, -⟩
    · exact le_refl _
    · rw [hids, List.idxOf_append_of_mem hmem, List.idxOf_append_of_notMem hnew]
      have hlt := List.idxOf_lt_length_of_mem hmem
      omega
  · intro a ha hne
    rcases h.started a ha with rfl | ⟨hmem, hnone⟩
    · exact absurd rfl hne
    · rcases h.ended a hmem with hsome | hended
      · simp [hnone] at hsome
      · exact hended

/-- A call of the child, or a read, goes on attempting. -/
theorem Attempting.concat {calls : ℕ} (h : Attempting d done definition events calls)
    (hd : InOrder d) (hordered : d.ordered = done ++ definition :: rest) {e : Event}
    (he : ∀ a, e.1.childId? = some a → a = definition.id) :
    Attempting d done definition (events ++ [e]) (calls + e.1.childId?.toList.length) := by
  obtain ⟨-, hnew⟩ := hd.split hordered
  refine ⟨?_, ?_, ?_⟩
  · intro a ha
    rw [starts_append, starts_singleton] at ha
    rcases List.mem_append.mp ha with ha | ha
    · exact h.started a ha
    · exact .inl (he a (by simpa using ha))
  · intro a ha
    refine (h.ended a ha).imp_right fun hended => hended.concat ?_
    intro hchild
    rw [he a hchild] at ha
    exact hnew ha
  · rw [starts_append, starts_singleton, List.count_append, h.calls]
    cases hchild : e.1.childId? with
    | none => simp
    | some a => simp [he a hchild]

/-- A child that has ended completed is dealt with. -/
theorem Attempting.advanced {calls : ℕ} (h : Attempting d done definition events calls)
    (huncovered : d.completed? definition.id = none)
    (hended : EndsCompleted events definition.id) :
    Advanced d (done ++ [definition]) events := by
  refine ⟨?_, ?_⟩
  · intro a ha
    rcases h.started a ha with rfl | ⟨hmem, hnone⟩
    · exact ⟨by simp, huncovered⟩
    · exact ⟨by simp only [List.map_append]; exact List.mem_append_left _ hmem, hnone⟩
  · intro a ha
    rw [List.map_append] at ha
    rcases List.mem_append.mp ha with ha | ha
    · exact h.ended a ha
    · obtain rfl : a = definition.id := by simpa using ha
      exact .inr hended

theorem Advanced.resume (h : Advanced d done events)
    (hcovered : (d.completed? definition.id).isSome) :
    Advanced d (done ++ [definition]) events := by
  refine ⟨?_, ?_⟩
  · intro a ha
    obtain ⟨hmem, hnone⟩ := h.started a ha
    exact ⟨by simp only [List.map_append]; exact List.mem_append_left _ hmem, hnone⟩
  · intro a ha
    rw [List.map_append] at ha
    rcases List.mem_append.mp ha with ha | ha
    · exact h.ended a ha
    · obtain rfl : a = definition.id := by simpa using ha
      exact .inl hcovered

/-! ## The loop -/

/-- The loop goes on from `events` and leaves events and a result of `Q`. -/
abbrev Follows {α : Type} (d : Delegation) (Q : List Event → α → Prop) (events : List Event)
    (p : Supervising α) : Prop :=
  Program.Follows (Program.recorder (StartsAllowed d)) Q events p

theorem follows_ask {α : Type} {Q : List Event → α → Prop} {a : SupervisorAction}
    {f : a.Answer → Supervising α} (ha : StartsAllowed d events a)
    (hf : ∀ answer, Follows d Q (events ++ [⟨a, answer⟩]) (f answer)) :
    Follows d Q events (Program.perform a >>= f) := ⟨ha, hf⟩

/-- What is left of the calls of a child: they were attempts, and a completed result is that of the
last call. -/
def Attempted (d : Delegation) (done : List AgentDefinition) (definition : AgentDefinition)
    (events : List Event) (attempts : Attempts) : Prop :=
  (∃ calls, Attempting d done definition events calls) ∧
    (attempts.result.status = .completed → EndsCompleted events definition.id)

theorem follows_retries (rt : SupervisorRuntime) (hd : InOrder d)
    (hordered : d.ordered = done ++ definition :: rest)
    (huncovered : d.completed? definition.id = none) (context : SupervisorContext)
    (remaining : ℕ) {calls : ℕ} {attempts : Attempts}
    (hcalls : calls + remaining ≤ d.retryLimit + 1)
    (h : Attempting d done definition events calls)
    (hended : attempts.result.status = .completed → EndsCompleted events definition.id) :
    Follows d (Attempted d done definition) events
      (d.retries rt definition context remaining attempts) := by
  induction remaining generalizing events calls attempts with
  | zero => exact ⟨⟨calls, h⟩, hended⟩
  | succ remaining ih =>
      unfold Delegation.retries
      split
      · exact ⟨⟨calls, h⟩, hended⟩
      · rename_i hfailed
        have hfailed : attempts.result.status = .failed := not_not.mp hfailed
        refine follows_ask (by rintro id ⟨⟩) fun stored => ?_
        have hread := h.concat hd hordered
          (e := ⟨.getAgentRun attempts.result.runId d.tenant, stored⟩) (by rintro a ⟨⟩)
        cases stored with
        | none =>
            refine ⟨⟨_, hread⟩, fun hcompleted => ?_⟩
            simp [hfailed] at hcompleted
        | some priorRun =>
            have hstart := hread.startable hd hordered huncovered (by
              simp only [SupervisorAction.childId?, Option.toList_none, List.length_nil]
              omega)
            refine follows_ask (by rintro id ⟨⟩; exact hstart) fun answer => ?_
            have hretry := hread.concat hd hordered (e := ⟨.retry definition priorRun d.actor
              d.actorRole { context with
                attempt := attempts.summaries.length + 1
                retryOfRunId := some priorRun.id }, answer⟩) (by rintro a ⟨⟩; rfl)
            cases answer with
            | error message =>
                refine ⟨⟨_, hretry⟩, fun hcompleted => ?_⟩
                simp [hfailed] at hcompleted
            | ok result =>
                refine ih (by simp only [SupervisorAction.childId?, Option.toList_none,
                  Option.toList_some, List.length_nil, List.length_singleton]; omega) hretry ?_
                intro hcompleted
                exact endsCompleted_concat rfl (by simpa [Event.completes] using hcompleted)

theorem follows_delegate (rt : SupervisorRuntime) (hd : InOrder d)
    (htarget : d.cancellationTarget = none) (hordered : d.ordered = done ++ rest)
    (sequence : ℕ) (s : Progress) (h : Advanced d done events) :
    Follows d (fun _ execution => execution.orderedChildAgentIds = d.orderedIds) events
      (d.delegate rt rest sequence s) := by
  induction rest generalizing done events sequence s with
  | nil => rfl
  | cons definition rest ih =>
      have hnext : d.ordered = (done ++ [definition]) ++ rest := by simp [hordered]
      unfold Delegation.delegate
      cases hcovered : d.completed? definition.id with
      | some run => exact ih hnext _ _ (h.resume (by simp [hcovered]))
      | none =>
          simp only [htarget, Option.filter_none]
          have hattempting := h.attempting hd hordered
          have hstart := hattempting.startable hd hordered hcovered (Nat.zero_le _)
          refine follows_ask (by rintro id ⟨⟩; exact hstart) fun answer => ?_
          cases answer with
          | error message => rfl
          | ok result =>
              have hrun := hattempting.concat hd hordered (e := ⟨.run definition d.entityId d.actor
                d.payload (d.context s sequence definition) d.actorRole, .ok result⟩)
                (by rintro a ⟨⟩; rfl)
              refine Program.Follows.bind (follows_retries rt hd hordered hcovered _ _
                (by simp [SupervisorAction.childId?]; omega) hrun ?_) ?_
              · intro hcompleted
                exact endsCompleted_concat rfl (by simpa [Event.completes] using hcompleted)
              · rintro events' attempts ⟨⟨calls, hattempts⟩, hended⟩
                by_cases hstatus : attempts.result.status = .completed
                · simp only [hstatus, if_true]
                  exact ih hnext _ _ (hattempts.advanced hcovered (hended hstatus))
                · simp only [hstatus, if_false]
                  rfl

end Loop

/-! ## Whole traces -/

theorem exists_split_of_mem_starts {id : String} (h : id ∈ starts trace) :
    ∃ before e after, trace = before ++ e :: after ∧ e.1.childId? = some id := by
  obtain ⟨e, he, hid⟩ := List.mem_filterMap.mp h
  obtain ⟨before, after, rfl⟩ := List.append_of_mem he
  exact ⟨before, e, after, rfl, hid⟩

/-- A relation of every start to the starts before it orders the starts. -/
theorem pairwise_starts {r : String → String → Prop}
    (h : ∀ before e after id, trace = before ++ e :: after → e.1.childId? = some id →
      ∀ a ∈ starts before, r a id) : (starts trace).Pairwise r := by
  induction trace using List.reverseRecOn with
  | nil => exact List.Pairwise.nil
  | append_singleton trace e ih =>
      rw [starts_append, starts_singleton, List.pairwise_append]
      refine ⟨ih ?_, ?_, ?_⟩
      · intro before e' after id htrace hid
        exact h before e' (after ++ [e]) id (by simp [htrace]) hid
      · cases e.1.childId? <;> simp
      · intro a ha b hb
        exact h trace e [] b rfl (by simpa using hb) a ha

/-- A bound on the starts of a child before each of its starts bounds them all. -/
theorem count_starts_le {id : String} {n : ℕ}
    (h : ∀ before e after, trace = before ++ e :: after → e.1.childId? = some id →
      (starts before).count id ≤ n) : (starts trace).count id ≤ n + 1 := by
  induction trace using List.reverseRecOn with
  | nil => simp [starts]
  | append_singleton trace e ih =>
      rw [starts_append, starts_singleton, List.count_append]
      by_cases hid : e.1.childId? = some id
      · have hlast := h trace e [] rfl hid
        simp only [hid, Option.toList_some, List.count_singleton_self]
        omega
      · have hnone : (e.1.childId?.toList).count id = 0 := by
          rw [List.count_eq_zero]
          simpa using hid
        have hrest := ih fun before e' after htrace =>
          h before e' (after ++ [e]) (by simp [htrace])
        omega

/-- The calls of a delegation in the order of its children: `order` is a topological permutation of
the selection, children are started in this order, each within its retries, none that is covered by
`completed_run_ids`, each after its dependencies have ended completed, and none after another that
has not. -/
structure Orderly (rt : SupervisorRuntime) (runs : Table AgentRun.id)
    (request : DelegationRequest) (order : List String) (trace : List Event) : Prop where
  selection : ∃ selectedIds, request.childAgentIds.mapM (fun value =>
    identifier rt value "child_agent_id") = .ok selectedIds ∧ selectedIds.Nodup ∧
      order.Perm selectedIds
  topological : Postorder.Topological (dependencies request.definitions) order
  listed : ∀ id ∈ starts trace, id ∈ order
  sorted : (starts trace).Pairwise fun a b => order.idxOf a ≤ order.idxOf b
  attempts : ∀ id, ((starts trace).count id : ℤ) ≤ 1 + request.maxRetries
  uncovered : ∀ id ∈ starts trace, ¬ Covers runs request id
  dependencies : ∀ before e after id dependencyIds, trace = before ++ e :: after →
    e.1.childId? = some id → dependencies request.definitions id = .ok dependencyIds →
      ∀ dependencyId ∈ dependencyIds,
        Covers runs request dependencyId ∨ EndsCompleted before dependencyId
  stops : ∀ before e after id, trace = before ++ e :: after → e.1.childId? = some id →
    ∀ a ∈ starts before, a ≠ id → EndsCompleted before a

theorem Prepared.orderly {rt : SupervisorRuntime} {runs : Table AgentRun.id}
    {request : DelegationRequest} {d : Delegation} (hp : Prepared rt runs request d)
    (h : ∀ before e after id, trace = before ++ e :: after →
      e.1.childId? = some id → Startable d before id) :
    Orderly rt runs request d.orderedIds trace where
  selection := ⟨d.selectedIds, hp.selected, hp.selected_nodup, hp.perm⟩
  topological := hp.topological
  listed id hid := by
    obtain ⟨before, e, after, htrace, he⟩ := exists_split_of_mem_starts hid
    exact (h before e after id htrace he).listed
  sorted := pairwise_starts fun before e after id htrace he =>
    (h before e after id htrace he).sorted
  attempts id := by
    have hcount := count_starts_le (n := d.retryLimit) fun before e after htrace he =>
      (h before e after id htrace he).budget
    have hlimit := hp.retryLimit
    omega
  uncovered id hid := by
    obtain ⟨before, e, after, htrace, he⟩ := exists_split_of_mem_starts hid
    have hnone := (h before e after id htrace he).uncovered
    rw [← hp.covered, hnone]
    simp
  dependencies before e after id dependencyIds htrace he hdependencies dependencyId hmem := by
    have hstart := h before e after id htrace he
    have hlisted := hstart.listed
    rw [← hp.ordered] at hlisted
    obtain ⟨definition, hdefinition, rfl⟩ := List.mem_map.mp hlisted
    rw [hp.dependencies definition hdefinition] at hdependencies
    cases hdependencies
    rw [← hp.covered]
    exact hstart.dependencies definition hdefinition rfl dependencyId hmem
  stops before e after id htrace he := (h before e after id htrace he).stops

/-- Without a cancellation, a delegation raises before any call, or starts its children orderly. -/
theorem executeSupervisorDelegation_orderly (rt : SupervisorRuntime) (runs : Table AgentRun.id)
    (request : DelegationRequest) (hcancel : request.cancelRunId = none)
    (answers : ℕ → (a : SupervisorAction) → a.Answer) :
    (∃ e, (executeSupervisorDelegation rt runs request).traced answers = (.error e, [])) ∨
      ∃ execution trace,
        (executeSupervisorDelegation rt runs request).traced answers = (.ok execution, trace) ∧
          Orderly rt runs request execution.orderedChildAgentIds trace := by
  unfold executeSupervisorDelegation
  cases hprepare : prepare rt runs request with
  | error e => exact .inl ⟨e, rfl⟩
  | ok d =>
      right
      have hp := prepare_ok hprepare
      have hstart : Advanced d [] [] := ⟨by simp [starts], by simp⟩
      have hfollows := follows_delegate rt hp.inOrder (hp.untargeted hcancel)
        (show d.ordered = [] ++ d.ordered from rfl) 1 {} hstart
      refine ⟨_, _, Program.traced_map _ _ answers, ?_⟩
      rw [hfollows.traced answers]
      apply hp.orderly
      intro before e after id htrace he
      exact hfollows.allowed_of_traced htrace id he

/-! ## A small selection -/

/-- No text is folded or redacted, and every payload is short. -/
def plainRuntime : SupervisorRuntime where
  casefold := fun text => text
  redactText := fun text => text
  redactValue := fun payload => payload
  dumpsLength := fun _ => 2

def childDefinition (id : String) (dependsOnAgentIds : List String) : AgentDefinition where
  id := id
  name := id
  description := ""
  enabled := true
  trigger := "manual"
  entityType := "ticket"
  filters := ∅
  enabledTools := []
  steps := []
  maxSteps := 1
  executionTimeoutSeconds := 1
  clientId := none
  version := 1
  createdAt := ""
  updatedAt := ""
  dependsOnAgentIds := dependsOnAgentIds

/-- The agent `report` depends on the agent `triage`, and is named first. -/
def reportAfterTriage : DelegationRequest where
  clientId := "acme"
  entityId := "T-1"
  task := "report"
  childAgentIds := ["report", "triage"]
  definitions := [childDefinition "report" ["triage"], childDefinition "triage" []]
  actor := "technician"
  actorRole := .technician
  maxRetries := 1

/-- Every call ends in a completed run. -/
def completedAnswer : (a : SupervisorAction) → a.Answer
  | .run .. | .retry .. | .cancel .. => .ok
      { runId := 1, status := .completed, currentStep := 1, finalResult := .null
        approvalId := none, errorDetail := "" }
  | .getAgentRun .. => none

theorem reportAfterTriage_orderly :
    starts ((executeSupervisorDelegation plainRuntime .empty reportAfterTriage).traced
      fun _ => completedAnswer).2 = ["triage", "report"] ∧
    ((∃ e, (executeSupervisorDelegation plainRuntime .empty reportAfterTriage).traced
        (fun _ => completedAnswer) = (.error e, [])) ∨
      ∃ execution trace,
        (executeSupervisorDelegation plainRuntime .empty reportAfterTriage).traced
          (fun _ => completedAnswer) = (.ok execution, trace) ∧
          Orderly plainRuntime .empty reportAfterTriage execution.orderedChildAgentIds trace) :=
  ⟨by decide, executeSupervisorDelegation_orderly plainRuntime .empty reportAfterTriage rfl
    fun _ => completedAnswer⟩

end WaitLocalAgent.Supervisor
