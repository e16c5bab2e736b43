import WaitLocalAgent.Model.EventDispatch

/-! # The agent loop and the playbook loop

What settling or blocking one definition writes does not depend on the pass so far, so a pass
is read off the list of its settlements. -/

namespace WaitLocalAgent.Events

open Foundation

variable {id : String}

namespace Attempts

variable {ρ : Type}

theorem mem_keys_iff {attempts : Attempts ρ} :
    id ∈ attempts.keys ↔ (attempts.status? id).isSome = true := by
  simp [status?, AList.lookup_isSome, AList.mem_keys]

@[simp] theorem status?_empty (id : String) : (∅ : Attempts ρ).status? id = none := by
  simp [status?]

@[simp] theorem status?_insert_self (attempts : Attempts ρ) (id : String) (a : Attempt ρ) :
    Attempts.status? (attempts.insert id a) id = some a.status := by
  simp [status?]

theorem status?_insert_ne {attempts : Attempts ρ} {id key : String} (a : Attempt ρ)
    (h : id ≠ key) : Attempts.status? (attempts.insert key a) id = attempts.status? id := by
  simp [status?, AList.lookup_insert_ne h]

/-- Redaction changes error texts only. -/
@[simp] theorem status?_redactErrors (redact : String → String) (attempts : Attempts ρ)
    (id : String) : (attempts.redactErrors redact).status? id = attempts.status? id := by
  have h := List.dlookup_map₂ (f := fun _ (a : Attempt ρ) => { a with error := redact a.error })
    (l := attempts.entries) (a := id)
  exact (congrArg (Option.map Attempt.status) h).trans (by simp [status?, AList.lookup,
    Function.comp_def])

theorem mem_idsWith {attempts : Attempts ρ} {p : AttemptStatus → Bool} :
    id ∈ attempts.idsWith p ↔ ∃ s, attempts.status? id = some s ∧ p s = true := by
  rw [idsWith, List.mem_filter, mem_keys_iff]
  cases attempts.status? id <;> simp

/-- Writing the same kind of entry for every id of a list. -/
theorem status?_foldl_insert (ids : List String) (f : String → Attempt ρ) (attempts : Attempts ρ)
    (id : String) :
    Attempts.status? (ids.foldl (fun as i => as.insert i (f i)) attempts) id =
      if id ∈ ids then some (f id).status else attempts.status? id := by
  induction ids generalizing attempts with
  | nil => simp
  | cons i ids ih =>
      rw [List.foldl_cons, ih]
      by_cases hmem : id ∈ ids
      · simp [hmem]
      · by_cases hid : id = i
        · subst hid
          simp [hmem]
        · simp [hmem, hid, status?_insert_ne (f i) hid]

end Attempts

namespace Processing

variable {p : Processing}

/-- What one settlement of the agent loop writes. -/
structure Effect where
  attempt : Option (Attempt ℕ) := none
  error : Option String := none
  call : Option AgentCall := none
  completes : Bool := false

def runAttempt (p : Processing) (d : AgentDefinition) : Attempt ℕ :=
  match p.env.runAgent (p.request d) with
  | .ok result =>
      { status := if result.status = .completed then .completed else .pending
        runIds := [result.runId] }
  | .error message => { status := .failed, error := p.env.redact.text s!"{d.id}: {message}" }

def effect (p : Processing) : Settlement AgentDefinition (List String) → Effect
  | .settled d =>
      if p.alreadyRun d then { completes := p.hasCompletedRun d.id }
      else
        { attempt := some (p.runAttempt d)
          error := if (p.runAttempt d).status = .failed then some (p.runAttempt d).error else none
          call := some (p.call d)
          completes := (p.call d).completed }
  | .gaveUp d unmet =>
      let error := p.env.redact.text
        (s!"{d.id}: dependency not completed: " ++ ", ".intercalate unmet)
      { attempt := some { status := .blocked, error }, error := some error }

theorem runAttempt_completed_iff (d : AgentDefinition) :
    (p.runAttempt d).status = .completed ↔ (p.call d).completed = true := by
  unfold runAttempt AgentCall.completed call
  cases p.env.runAgent (p.request d) with
  | error message => simp
  | ok result => by_cases h : result.status = .completed <;> simp [h]

theorem runAttempt_retryable_iff (d : AgentDefinition) :
    (p.runAttempt d).status.retryable = true ↔ (p.runAttempt d).status = .failed := by
  unfold runAttempt
  cases p.env.runAgent (p.request d) with
  | error message => simp [AttemptStatus.retryable]
  | ok result => by_cases h : result.status = .completed <;> simp [h, AttemptStatus.retryable]

theorem apply_eq_effect (s : AgentPass) (e : Settlement AgentDefinition (List String)) :
    (p.worklist.apply s e).calls = s.calls ++ (p.effect e).call.toList ∧
    (p.worklist.apply s e).errors = s.errors ++ (p.effect e).error.toList ∧
    (p.worklist.apply s e).completedAgents =
      (if (p.effect e).completes then e.item.id :: s.completedAgents else s.completedAgents) ∧
    (p.worklist.apply s e).attempts =
      ((p.effect e).attempt.elim s.attempts fun a => s.attempts.insert e.item.id a) := by
  cases e with
  | gaveUp d unmet => simp [worklist, effect]
  | settled d =>
      by_cases hrun : p.alreadyRun d = true
      · by_cases hdone : p.hasCompletedRun d.id = true
        · simp [worklist, effect, hrun, hdone]
        · simp [worklist, effect, hrun, hdone]
      · cases hout : p.env.runAgent (p.request d) with
        | error message =>
            simp [worklist, effect, hrun, runDefinition, runAttempt, hout, AgentCall.completed,
              call]
        | ok result =>
            by_cases hc : result.status = .completed
            · simp [worklist, effect, hrun, runDefinition, runAttempt, hout,
                AgentCall.completed, call, hc]
            · simp [worklist, effect, hrun, runDefinition, runAttempt, hout,
                AgentCall.completed, call, hc]

theorem waits_eq_none_iff {s : AgentPass} {d : AgentDefinition} :
    p.worklist.waits s d = none ↔
      p.alreadyRun d = true ∨ p.unmet s.completedAgents d = [] := by
  unfold worklist
  by_cases hrun : p.alreadyRun d = true
  · simp [hrun]
  · by_cases hunmet : p.unmet s.completedAgents d = []
    · simp [hunmet]
    · simp [hrun, hunmet]

section Runs

variable (p) (s : AgentPass) (es : List (Settlement AgentDefinition (List String)))

theorem runFrom_calls :
    (runFrom p.worklist.apply s es).calls = s.calls ++ es.filterMap fun e => (p.effect e).call := by
  induction es generalizing s with
  | nil => simp
  | cons e es ih =>
      rw [runFrom_cons, ih, (apply_eq_effect s e).1]
      cases h : (p.effect e).call <;> simp [h]

theorem runFrom_errors :
    (runFrom p.worklist.apply s es).errors =
      s.errors ++ es.filterMap fun e => (p.effect e).error := by
  induction es generalizing s with
  | nil => simp
  | cons e es ih =>
      rw [runFrom_cons, ih, (apply_eq_effect s e).2.1]
      cases h : (p.effect e).error <;> simp [h]

/-- Frame: a pass leaves the attempts of the ids it does not settle alone. -/
theorem runFrom_lookup_of_not_mem {id : String} (h : ∀ e ∈ es, e.item.id ≠ id) :
    (runFrom p.worklist.apply s es).attempts.lookup id = s.attempts.lookup id := by
  induction es generalizing s with
  | nil => rfl
  | cons e es ih =>
      have he : id ≠ e.item.id := (h e List.mem_cons_self).symm
      rw [runFrom_cons, ih _ fun e' he' => h e' (List.mem_cons_of_mem _ he'),
        (apply_eq_effect s e).2.2.2]
      cases (p.effect e).attempt with
      | none => rfl
      | some a => exact AList.lookup_insert_ne he

/-- What the one settlement of an id writes is what is stored for it in the end. -/
theorem runFrom_lookup_of_mem (hnodup : (es.map fun e => e.item.id).Nodup)
    {e : Settlement AgentDefinition (List String)} (he : e ∈ es) :
    (runFrom p.worklist.apply s es).attempts.lookup e.item.id =
      (p.effect e).attempt.or (s.attempts.lookup e.item.id) := by
  induction es generalizing s with
  | nil => cases he
  | cons e' es ih =>
      simp only [List.map_cons, List.nodup_cons, List.mem_map, not_exists, not_and] at hnodup
      rw [runFrom_cons]
      rcases List.mem_cons.mp he with rfl | hmem
      · rw [runFrom_lookup_of_not_mem p _ es fun e'' h'' => hnodup.1 e'' h'',
          (apply_eq_effect s e).2.2.2]
        cases (p.effect e).attempt with
        | none => rfl
        | some a => exact AList.lookup_insert _
      · have hne : e.item.id ≠ e'.item.id := hnodup.1 e hmem
        rw [ih _ hnodup.2 hmem, (apply_eq_effect s e').2.2.2]
        cases (p.effect e').attempt with
        | none => rfl
        | some a => exact congrArg _ (AList.lookup_insert_ne hne)

theorem runFrom_attempts_of_not_mem (h : ∀ e ∈ es, e.item.id ≠ id) :
    (runFrom p.worklist.apply s es).attempts.status? id = s.attempts.status? id :=
  congrArg (Option.map Attempt.status) (runFrom_lookup_of_not_mem p s es h)

theorem runFrom_attempts_of_mem (hnodup : (es.map fun e => e.item.id).Nodup)
    {e : Settlement AgentDefinition (List String)} (he : e ∈ es) :
    (runFrom p.worklist.apply s es).attempts.status? e.item.id =
      ((p.effect e).attempt.elim (s.attempts.status? e.item.id) fun a => some a.status) := by
  rw [Attempts.status?, runFrom_lookup_of_mem p s es hnodup he]
  cases (p.effect e).attempt <;> rfl

theorem mem_runFrom_completedAgents (id : String) :
    id ∈ (runFrom p.worklist.apply s es).completedAgents ↔
      id ∈ s.completedAgents ∨ ∃ e ∈ es, e.item.id = id ∧ (p.effect e).completes = true := by
  induction es generalizing s with
  | nil => simp
  | cons e es ih =>
      rw [runFrom_cons, ih, (apply_eq_effect s e).2.2.1]
      by_cases hc : (p.effect e).completes = true
      · simp only [hc, if_true, List.mem_cons, exists_eq_or_imp]
        constructor
        · rintro ((rfl | h) | h)
          · exact .inr (.inl ⟨rfl, trivial⟩)
          · exact .inl h
          · exact .inr (.inr h)
        · rintro (h | ⟨rfl, -⟩ | h)
          · exact .inl (.inr h)
          · exact .inl (.inl rfl)
          · exact .inr h
      · simp [hc]

end Runs

theorem nodup_candidates_ids : (p.candidates.map AgentDefinition.id).Nodup := by
  have hperm : (p.env.listAgentDefinitions.map AgentDefinition.id).Perm
      (p.env.definitions.rows.map AgentDefinition.id) :=
    (List.perm_insertionSort _ _).map _
  exact (hperm.nodup_iff.mpr p.env.definitions.nodup).sublist (List.filter_sublist.map _)

/-- A candidate is a stored definition that is eligible and, in a retry, was left failed or
blocked. -/
theorem mem_candidates {d : AgentDefinition} :
    d ∈ p.candidates ↔ d ∈ p.env.definitions ∧ p.eligible d = true ∧
      (p.retryOnly = true → p.startAttempts.retryable d.id = true) := by
  simp only [candidates, DispatchEnv.listAgentDefinitions, List.mem_filter,
    List.mem_insertionSort, Bool.and_eq_true, Bool.or_eq_true, Bool.not_eq_true',
    Table.mem_def]
  cases p.retryOnly <;> simp

theorem mem_ineligibleIds :
    id ∈ p.ineligibleIds ↔ p.retryOnly = true ∧ p.startAttempts.retryable id = true ∧
      id ∉ p.candidates.map AgentDefinition.id := by
  unfold ineligibleIds
  split
  · rename_i hr
    simp [hr, Attempts.mem_idsWith, Attempts.retryable, Option.any_eq_true]
  · rename_i hr
    simp [hr]

theorem startAttempts_of_dispatch (h : p.retryOnly = false) :
    p.startAttempts = p.delivery.agentAttempts := by
  simp [startAttempts, h]

theorem startAttempts_of_attempted (h : p.delivery.agentAttempts.keys ≠ []) :
    p.startAttempts = p.delivery.agentAttempts := by
  simp [startAttempts, h]

/-- The rebuilt map of a retry without attempts: every matched id counts as failed. -/
theorem startAttempts_rebuilt (hr : p.retryOnly = true)
    (h : p.delivery.agentAttempts.keys = []) (id : String) :
    p.startAttempts.status? id = if id ∈ p.delivery.agentIds then some .failed else none := by
  have hs : p.startAttempts = p.delivery.agentIds.foldl
      (fun attempts id => attempts.insert id { status := .failed }) ∅ := by
    simp [startAttempts, hr, h]
  rw [hs, Attempts.status?_foldl_insert p.delivery.agentIds fun _ => { status := .failed }]
  simp

theorem startPass_status? (id : String) :
    p.startPass.attempts.status? id =
      if id ∈ p.ineligibleIds then some .failed else p.startAttempts.status? id :=
  Attempts.status?_foldl_insert p.ineligibleIds
    (fun id => { status := .failed, error := ineligibleError id }) p.startAttempts id

theorem mem_startPass_completedAgents :
    id ∈ p.startPass.completedAgents ↔ p.startAttempts.status? id = some .completed := by
  have hmem : id ∈ p.startPass.completedAgents ↔
      p.startPass.attempts.status? id = some .completed := by
    change id ∈ Attempts.idsWith _ _ ↔ _
    rw [Attempts.mem_idsWith]
    simp [startPass]
  rw [hmem, startPass_status?]
  split
  · rename_i hid
    have hret := (mem_ineligibleIds.mp hid).2.1
    constructor
    · intro h
      simp at h
    · intro h
      simp [Attempts.retryable, h, AttemptStatus.retryable] at hret
  · rfl

/-- The pass settles or blocks every candidate exactly once, in an order in which nothing is
settled while it waits. -/
structure PassTrace (p : Processing) (es : List (Settlement AgentDefinition (List String))) :
    Prop where
  items : (es.map Settlement.item).Perm p.candidates
  admissible : GuardedFrom p.worklist.apply p.worklist.Admissible p.startPass es
  result : p.agentPass = runFrom p.worklist.apply p.startPass es

theorem exists_passTrace (p : Processing) : ∃ es, PassTrace p es := by
  obtain ⟨es, hitems, hadm, hrun⟩ :=
    Worklist.drain_replay (w := p.worklist) p.startPass p.candidates le_rfl
  exact ⟨es, hitems, hadm, hrun⟩

namespace PassTrace

variable {es : List (Settlement AgentDefinition (List String))} (h : PassTrace p es)

include h

theorem nodup_ids : (es.map fun e => e.item.id).Nodup := by
  have hperm := h.items.map AgentDefinition.id
  rw [List.map_map] at hperm
  exact hperm.nodup_iff.mpr nodup_candidates_ids

theorem mem_candidates {e : Settlement AgentDefinition (List String)} (he : e ∈ es) :
    e.item ∈ p.candidates :=
  h.items.subset (List.mem_map_of_mem he)

theorem exists_of_candidate {d : AgentDefinition} (hd : d ∈ p.candidates) :
    ∃ e ∈ es, e.item = d :=
  List.mem_map.mp (h.items.symm.subset hd)

theorem calls_eq : p.agentPass.calls = es.filterMap fun e => (p.effect e).call := by
  rw [h.result, runFrom_calls]
  rfl

theorem errors_eq : p.agentPass.errors =
    p.ineligibleIds.map ineligibleError ++ es.filterMap fun e => (p.effect e).error := by
  rw [h.result, runFrom_errors]
  rfl

theorem status?_of_mem {e : Settlement AgentDefinition (List String)} (he : e ∈ es) :
    p.agentPass.attempts.status? e.item.id =
      ((p.effect e).attempt.elim (p.startAttempts.status? e.item.id) fun a => some a.status) := by
  have hnot : e.item.id ∉ p.ineligibleIds := fun hin =>
    (mem_ineligibleIds.mp hin).2.2 (List.mem_map_of_mem (h.mem_candidates he))
  rw [h.result, runFrom_attempts_of_mem p _ es h.nodup_ids he, startPass_status?, if_neg hnot]

theorem status?_of_not_candidate
    (hid : id ∉ p.candidates.map AgentDefinition.id) :
    p.agentPass.attempts.status? id =
      if id ∈ p.ineligibleIds then some .failed else p.startAttempts.status? id := by
  have hne : ∀ e ∈ es, e.item.id ≠ id := by
    rintro e he rfl
    exact hid (List.mem_map_of_mem (h.mem_candidates he))
  rw [h.result, runFrom_attempts_of_not_mem p _ es hne, startPass_status?]

/-- A call of the pass is the run of a candidate that was not skipped. -/
theorem mem_calls {c : AgentCall} : c ∈ p.agentPass.calls ↔
    ∃ d, Settlement.settled d ∈ es ∧ p.alreadyRun d = false ∧ p.call d = c := by
  rw [h.calls_eq, List.mem_filterMap]
  constructor
  · rintro ⟨e, he, hc⟩
    cases e with
    | gaveUp d unmet => simp [effect] at hc
    | settled d =>
        by_cases hrun : p.alreadyRun d = true
        · simp [effect, hrun] at hc
        · exact ⟨d, he, by simpa using hrun, by simpa [effect, hrun] using hc⟩
  · rintro ⟨d, he, hrun, rfl⟩
    exact ⟨.settled d, he, by simp [effect, hrun]⟩

end PassTrace

@[simp] theorem scopedDefinition_id (d : AgentDefinition) : (p.scopedDefinition d).id = d.id := by
  unfold scopedDefinition
  split <;> rfl

@[simp] theorem scopedDefinition_runOnce (d : AgentDefinition) :
    (p.scopedDefinition d).runOncePerEntity = d.runOncePerEntity := by
  unfold scopedDefinition
  split <;> rfl

@[simp] theorem scopedDefinition_dependsOn (d : AgentDefinition) :
    (p.scopedDefinition d).dependsOnAgentIds = d.dependsOnAgentIds := by
  unfold scopedDefinition
  split <;> rfl

end Processing

end WaitLocalAgent.Events
