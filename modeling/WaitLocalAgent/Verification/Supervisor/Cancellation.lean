import WaitLocalAgent.Verification.Supervisor.Delegation

/-! # Cancellation of a child run

A call with a run to cancel asks for just that if the loop meets the agent of the run before any
other agent that it would start. -/

namespace WaitLocalAgent.Supervisor

open Foundation
open Agents (AgentDefinition)

def SupervisorAction.cancelledId? : SupervisorAction → Option ℤ
  | cancel _ target .. => some target.id
  | run .. | retry .. | getAgentRun .. => none

/-- The ids of the runs that the agent service is asked to cancel, in order. -/
def cancels (trace : List Event) : List ℤ := trace.filterMap fun e => e.1.cancelledId?

/-- No child is started, and unless the call raises, just the run is asked to be cancelled. -/
structure CancelsOnly (runId : ℤ) (result : Except SupervisorPlanError SupervisorExecution)
    (trace : List Event) : Prop where
  starts_eq : starts trace = []
  asks : (∃ e, result = .error e) ∨ cancels trace = [runId]

section Loop

variable {d : Delegation} {target : AgentRun}

/-- The first child that no completed run covers. -/
def Delegation.pending? (d : Delegation) (definitions : List AgentDefinition) :
    Option AgentDefinition :=
  definitions.find? fun definition => (d.completed? definition.id).isNone

theorem Delegation.pending?_cons_some {definition : AgentDefinition}
    {rest : List AgentDefinition} {run : CompletedRun}
    (h : d.completed? definition.id = some run) :
    d.pending? (definition :: rest) = d.pending? rest := by
  simp [pending?, h]

theorem Delegation.pending?_cons_none {definition : AgentDefinition}
    {rest : List AgentDefinition} (h : d.completed? definition.id = none) :
    d.pending? (definition :: rest) = some definition := by
  simp [pending?, h]

theorem cancelChild_traced (rt : SupervisorRuntime) (s : Progress) (sequence : ℕ)
    (definition : AgentDefinition) (target : AgentRun)
    (answers : ℕ → (a : SupervisorAction) → a.Answer) :
    ((d.cancelChild rt s sequence definition target).traced answers).2 =
      [⟨.cancel definition target d.actor d.actorRole, answers 0 _⟩] := by
  rw [Delegation.cancelChild, Delegation.cancel, Program.traced_perform_bind]
  split <;> rfl

/-- The loop passes over the children that are covered; it cancels the run if the next child is its
agent, and starts the next child otherwise. -/
theorem delegate_cancels_iff (rt : SupervisorRuntime) (htarget : d.cancellationTarget = some target)
    (rest : List AgentDefinition) (sequence : ℕ) (s : Progress)
    (answers : ℕ → (a : SupervisorAction) → a.Answer) :
    starts ((d.delegate rt rest sequence s).traced answers).2 = [] ∧
        cancels ((d.delegate rt rest sequence s).traced answers).2 = [(target.id : ℤ)] ↔
      ∃ definition, d.pending? rest = some definition ∧ target.agentId = definition.id := by
  induction rest generalizing sequence s with
  | nil => simp [Delegation.delegate, Delegation.pending?, Program.traced, cancels]
  | cons definition rest ih =>
      unfold Delegation.delegate
      cases hcovered : d.completed? definition.id with
      | some run =>
          rw [Delegation.pending?_cons_some hcovered]
          exact ih _ _
      | none =>
          rw [Delegation.pending?_cons_none hcovered, htarget]
          by_cases hagent : target.agentId = definition.id
          · have htrace := cancelChild_traced rt s sequence definition target answers (d := d)
            simp [Option.filter, hagent, htrace, starts, cancels, SupervisorAction.childId?,
              SupervisorAction.cancelledId?]
          · simp only [Option.filter, hagent, decide_false, Bool.false_eq_true, if_false,
              Option.some.injEq, exists_eq_left', iff_false, not_and]
            intro hstarts
            rw [Delegation.run, Program.traced_perform_bind] at hstarts
            simp [starts, SupervisorAction.childId?] at hstarts

end Loop

/-- The loop comes to the agent of the run to cancel before any other child that it would start. -/
def ReachesTarget (runs : Table AgentRun.id) (request : DelegationRequest) (d : Delegation) :
    Prop :=
  ∃ target, d.cancellationTarget = some target ∧ ¬ Covers runs request target.agentId ∧
    ∃ before after, d.orderedIds = before ++ target.agentId :: after ∧
      ∀ id ∈ before, Covers runs request id

theorem Prepared.pending?_iff {rt : SupervisorRuntime} {runs : Table AgentRun.id}
    {request : DelegationRequest} {d : Delegation} (hp : Prepared rt runs request d)
    {target : AgentRun} (htarget : d.cancellationTarget = some target) :
    (∃ definition, d.pending? d.ordered = some definition ∧ target.agentId = definition.id) ↔
      ReachesTarget runs request d := by
  have hcovered : ∀ id, d.completed? id = none ↔ ¬ Covers runs request id := by
    intro id
    rw [← hp.covered, Option.not_isSome_iff_eq_none]
  constructor
  · rintro ⟨definition, hpending, hagent⟩
    obtain ⟨hnone, before, after, hordered, hbefore⟩ := List.find?_eq_some_iff_append.mp hpending
    refine ⟨target, htarget, ?_, before.map AgentDefinition.id, after.map AgentDefinition.id,
      ?_, ?_⟩
    · rw [hagent, ← hcovered]
      simpa using hnone
    · rw [← hp.ordered, hordered, hagent]
      simp
    · intro id hid
      obtain ⟨earlier, hearlier, rfl⟩ := List.mem_map.mp hid
      have hsome := hbefore earlier hearlier
      by_contra hnot
      simp [(hcovered _).mpr hnot] at hsome
  · rintro ⟨target', htarget', huncovered, before, after, hids, hbefore⟩
    rw [htarget] at htarget'
    cases htarget'
    rw [← hp.ordered] at hids
    obtain ⟨done, rest, hordered, hdone, hrest⟩ := List.map_eq_append_iff.mp hids
    obtain ⟨definition, rest, rfl, hdefinition, -⟩ := List.map_eq_cons_iff.mp hrest
    refine ⟨definition, ?_, hdefinition.symm⟩
    refine List.find?_eq_some_iff_append.mpr ⟨?_, done, rest, hordered, ?_⟩
    · rw [hdefinition, (hcovered _).mpr huncovered]
      rfl
    · intro earlier hearlier
      have hcovers := hbefore earlier.id (by rw [← hdone]; exact List.mem_map_of_mem hearlier)
      have hsome := (hp.covered earlier.id).mpr hcovers
      cases h : d.completed? earlier.id with
      | none => simp [h] at hsome
      | some run => rfl

/-- A call with a run to cancel starts nothing and asks for just this cancellation, whatever the
calls answer, exactly if it is refused or the loop reaches the target before another child. -/
theorem cancelsOnly_iff (rt : SupervisorRuntime) (runs : Table AgentRun.id)
    (request : DelegationRequest) (runId : ℤ) (hcancel : request.cancelRunId = some runId)
    (answers : ℕ → (a : SupervisorAction) → a.Answer) :
    CancelsOnly runId ((executeSupervisorDelegation rt runs request).traced answers).1
        ((executeSupervisorDelegation rt runs request).traced answers).2 ↔
      ∀ d, prepare rt runs request = .ok d → ReachesTarget runs request d := by
  unfold executeSupervisorDelegation
  cases hprepare : prepare rt runs request with
  | error e =>
      constructor
      · intro _ d hd
        cases hd
      · intro _
        exact ⟨rfl, .inl ⟨e, rfl⟩⟩
  | ok d =>
      have hp := prepare_ok hprepare
      obtain ⟨target, htarget, rfl, -⟩ := hp.targeted runId hcancel
      have hloop := delegate_cancels_iff rt htarget d.ordered 1 {} answers
      simp only [Program.pure_def, Program.traced_map]
      rw [hp.pending?_iff htarget] at hloop
      constructor
      · rintro ⟨hstarts, hraises | hcancels⟩ d' hd'
        · obtain ⟨e, he⟩ := hraises
          cases he
        · cases hd'
          exact hloop.mp ⟨hstarts, hcancels⟩
      · intro hreaches
        obtain ⟨hstarts, hcancels⟩ := hloop.mpr (hreaches d rfl)
        exact ⟨hstarts, .inr hcancels⟩

def queuedReport : AgentRun where
  id := 7
  agentId := "report"
  entityId := "T-1"
  status := .queued
  currentStep := 0
  state := none
  revisionVersion := none
  clientId := some acme

/-- The run of `report` is to be cancelled; its dependency `triage` was not run before. -/
def cancelReport : DelegationRequest := { reportAfterTriage with cancelRunId := some 7 }

theorem cancelReport_cancelsOnly_iff :
    CancelsOnly 7 ((executeSupervisorDelegation plainRuntime (.singleton queuedReport)
        cancelReport).traced fun _ => completedAnswer).1
      ((executeSupervisorDelegation plainRuntime (.singleton queuedReport)
        cancelReport).traced fun _ => completedAnswer).2 ↔
      ∀ d, prepare plainRuntime (.singleton queuedReport) cancelReport = .ok d →
        ReachesTarget (.singleton queuedReport) cancelReport d :=
  cancelsOnly_iff plainRuntime (.singleton queuedReport) cancelReport 7 rfl fun _ => completedAnswer

theorem starts_cancelReport : starts ((executeSupervisorDelegation plainRuntime
    (.singleton queuedReport) cancelReport).traced fun _ => completedAnswer).2 = ["triage"] := by
  decide

/-- The call to cancel the run of `report` runs `triage` first. -/
theorem not_cancelsOnly : ¬ ∀ (rt : SupervisorRuntime) (runs : Table AgentRun.id)
    (request : DelegationRequest) (runId : ℤ) (answers : ℕ → (a : SupervisorAction) → a.Answer),
    request.cancelRunId = some runId →
      CancelsOnly runId ((executeSupervisorDelegation rt runs request).traced answers).1
        ((executeSupervisorDelegation rt runs request).traced answers).2 := by
  intro h
  have hstarts := (h plainRuntime (.singleton queuedReport) cancelReport 7
    (fun _ => completedAnswer) rfl).starts_eq
  rw [starts_cancelReport] at hstarts
  cases hstarts

end WaitLocalAgent.Supervisor
