import WaitLocalAgent.Model.RecordedRuns
import WaitLocalAgent.Verification.Observability.OneRecord

/-! # What a recording adds

A worker that nothing overlaps adds the steps that it is given to those that are listed already, and
leaves the other records as they are. -/

namespace WaitLocalAgent.Observability

open Foundation Program

variable {rt : Runtime} {s : Store}

/-- The rows of a record, in the order of their insertion. -/
def Store.stepRows (s : Store) (executionRunId : ℕ) : List ExecutionStep :=
  s.steps.table.rows.filter fun p : ExecutionStep => p.executionRunId == executionRunId

/-- The steps of every record are numbered from zero on, and no step is older than its record. -/
structure Numbered (s : Store) : Prop where
  ordinals : ∀ id, (s.stepRows id).map ExecutionStep.ordinal = List.range (s.stepRows id).length
  known : ∀ id, s.runs.lastKey < id → s.stepRows id = []

theorem numbered_fresh : Numbered .fresh := ⟨fun _ => rfl, fun _ _ => rfl⟩

theorem max?_range (n : ℕ) : ((List.range n).max?.map (· + 1)).getD 0 = n := by
  cases n with
  | zero => rfl
  | succ n =>
      have hmax : (List.range (n + 1)).max? = some n := by
        rw [List.max?_eq_some_iff]
        exact ⟨List.mem_range.mpr (Nat.lt_succ_self n), fun m hm =>
          Nat.le_of_lt_succ (List.mem_range.mp hm)⟩
      rw [hmax]
      rfl

theorem Numbered.nextOrdinal (h : Numbered s) (id : ℕ) :
    s.nextExecutionStepOrdinal id = (s.stepRows id).length := by
  have hnext : s.nextExecutionStepOrdinal id =
      (((s.stepRows id).map ExecutionStep.ordinal).max?.map (· + 1)).getD 0 := rfl
  rw [hnext, h.ordinals, max?_range]

/-- The steps of a record are listed in the order of their insertion. -/
theorem Numbered.list (h : Numbered s) (id : ℕ) : s.listExecutionSteps id = s.stepRows id := by
  have hsorted : (s.stepRows id).Pairwise fun p q => p.ordinal < q.ordinal := by
    rw [← List.pairwise_map, h.ordinals]
    exact List.pairwise_lt_range
  exact List.Pairwise.insertionSort_eq (hsorted.imp .inl)

/-- The steps that a worker inserts, one after the other. -/
def Store.addSteps (rt : Runtime) (executionRunId : ℕ) (now : String) :
    ℕ → List StepRecord → Store → Store
  | _, [], s => s
  | ordinal, step :: steps, s =>
      addSteps rt executionRunId now (ordinal + 1) steps { s with
        steps := s.steps.insert (step.row rt executionRunId ordinal now)
          (step.row_id rt executionRunId ordinal now) }

theorem addSteps_runs {executionRunId ordinal : ℕ} {now : String} {steps : List StepRecord} :
    (s.addSteps rt executionRunId now ordinal steps).runs = s.runs := by
  induction steps generalizing s ordinal with
  | nil => rfl
  | cons step steps ih => exact ih

theorem stepRows_addSteps_of_ne {executionRunId ordinal id : ℕ} {now : String}
    {steps : List StepRecord} (hid : id ≠ executionRunId) :
    (s.addSteps rt executionRunId now ordinal steps).stepRows id = s.stepRows id := by
  induction steps generalizing s ordinal with
  | nil => rfl
  | cons step steps ih =>
      rw [Store.addSteps, ih]
      simp [Store.stepRows, AutoTable.insert, StepRecord.row, hid.symm]

theorem stepRows_addSteps {executionRunId ordinal : ℕ} {now : String} {steps : List StepRecord} :
    ∃ rows, (s.addSteps rt executionRunId now ordinal steps).stepRows executionRunId =
        s.stepRows executionRunId ++ rows ∧
      rows.map ExecutionStep.content = steps.map (StepRecord.content rt) ∧
      rows.map ExecutionStep.ordinal = List.range' ordinal steps.length := by
  induction steps generalizing s ordinal with
  | nil => exact ⟨[], by simp [Store.addSteps], rfl, rfl⟩
  | cons step steps ih =>
      obtain ⟨rows, hrows, hcontents, hordinals⟩ := @ih { s with
        steps := s.steps.insert (step.row rt executionRunId ordinal now)
          (step.row_id rt executionRunId ordinal now) } (ordinal + 1)
      refine ⟨step.row rt executionRunId ordinal now (s.steps.lastKey + 1) :: rows, ?_, ?_, ?_⟩
      · rw [Store.addSteps, hrows]
        simp [Store.stepRows, AutoTable.insert, StepRecord.row]
      · rw [List.map_cons, List.map_cons, hcontents]
        rfl
      · rw [List.map_cons, hordinals, List.length_cons, List.range'_succ]
        rfl

variable {call : RecordCall}

section Worker

variable {α : Type}

/-- What a worker comes to that nothing overlaps. -/
def exec (rt : Runtime) (p : Recording α) (s : Store) : Except RecordError α × Store :=
  ((p.run.run (RecorderAction.answer rt) (fun _ => none) s).1,
    (p.run.run (RecorderAction.answer rt) (fun _ => none) s).2.1)

theorem exec_pure (x : α) (s : Store) : exec rt (pure x) s = (.ok x, s) := rfl

theorem inputs_run (p : RecorderProgram α) (s : Store) :
    (p.run (RecorderAction.answer rt) (fun _ => none) s).2.2 = fun _ => none := by
  induction p generalizing s with
  | done result => rfl
  | act a next ih => exact ih _ _

theorem exec_bind {β : Type} {p : Recording α} {f : α → Recording β} {x : α} {s' : Store}
    (h : exec rt p s = (.ok x, s')) : exec rt (p >>= f) s = exec rt (f x) s' := by
  have hinputs := @inputs_run rt _ p.run s
  have hrun : (p >>= f : Recording β).run.run (RecorderAction.answer rt) (fun _ => none) s = _ :=
    run_bindExcept p f (fun _ => none) s
  rcases hp : p.run.run (RecorderAction.answer rt) (fun _ => none) s with ⟨result, t, inputs⟩
  rw [hp] at hinputs hrun
  rw [exec, hp, Prod.mk.injEq] at h
  obtain ⟨rfl, rfl⟩ := h
  subst hinputs
  rw [exec, exec, hrun]

theorem exec_act {a : RecorderAction} {x : a.Value} {s' : Store}
    (h : a.perform rt s = (.ok x, s')) : exec rt (act a) s = (.ok x, s') := h

theorem exec_recordSteps {executionRunId ordinal : ℕ} {now : String} {steps : List StepRecord} :
    exec rt (recordSteps executionRunId now ordinal steps) s =
      (.ok (), s.addSteps rt executionRunId now ordinal steps) := by
  induction steps generalizing s ordinal with
  | nil => rfl
  | cons step steps ih =>
      rw [recordSteps, exec_bind (exec_act rfl), ih]
      rfl

theorem exec_persisted {id : ℕ} {run : ExecutionRun} (h : s.runs.find? id = some run) :
    exec rt (persisted id) s = (.ok run, s) := by
  have hact : RecorderAction.perform rt (.getExecutionRun id) s = (.ok (some run), s) := by
    rw [RecorderAction.perform, h]
  rw [persisted, exec_bind (exec_act hact)]
  rfl

/-- The store once a record is brought up to date. -/
def Store.finishRun (s : Store) (id : ℕ) (status finishedAt : String) : Store :=
  { s with
    runs := s.runs.update (fun r => r.id = id) (ExecutionRun.finish status finishedAt)
      (ExecutionRun.finish_id status finishedAt) }

def Store.createRun (rt : Runtime) (s : Store) (call : RecordCall) : Store :=
  { s with
    runs := s.runs.insert (call.row rt (call.effectiveMetadata rt))
      (call.row_id rt (call.effectiveMetadata rt)) }

/-- A record that is there is brought up to date, and its steps are counted. -/
theorem exec_recordRun_some (h : Numbered s) {existing : ExecutionRun}
    (hexisting : s.runs.find? existing.id = some existing) :
    exec rt (recordRun rt call (some existing)) s =
      (.ok (existing.id, (s.stepRows existing.id).length),
        s.finishRun existing.id call.status call.now) := by
  have hupdate : RecorderAction.perform rt
      (.updateExecutionRun existing.id call.status call.now) s =
        (.ok (), s.finishRun existing.id call.status call.now) := by
    rw [RecorderAction.perform, Store.updateExecutionRun, hexisting]
    rfl
  have hfinished : (s.finishRun existing.id call.status call.now).runs.find? existing.id =
      some (existing.finish call.status call.now) := by
    have hfind := @AutoTable.find?_update_key _ _ s.runs (fun r => decide (r.id = existing.id))
      (ExecutionRun.finish call.status call.now)
      (ExecutionRun.finish_id call.status call.now) existing.id existing.id
      fun r => decide_eq_true_iff
    rw [if_pos rfl, hexisting] at hfind
    exact hfind
  have hordinal : RecorderAction.perform rt (.nextExecutionStepOrdinal existing.id)
      (s.finishRun existing.id call.status call.now) =
        (.ok (s.stepRows existing.id).length, s.finishRun existing.id call.status call.now) := by
    rw [← h.nextOrdinal existing.id]
    rfl
  have hrun : exec rt (updateExecutionRun existing.id call.status call.now) s =
      (.ok (existing.finish call.status call.now),
        s.finishRun existing.id call.status call.now) := by
    rw [updateExecutionRun, exec_bind (exec_act hupdate), exec_persisted hfinished]
  rw [recordRun, exec_bind hrun, exec_bind (exec_act hordinal)]
  rfl

theorem exec_recordRun_none :
    exec rt (recordRun rt call none) s = (.ok (s.runs.lastKey + 1, 0), s.createRun rt call) := by
  have hcreate : RecorderAction.perform rt
      (.createExecutionRun call (call.effectiveMetadata rt)) s =
        (.ok (s.runs.lastKey + 1), s.createRun rt call) := rfl
  have hcreated : (s.createRun rt call).runs.find? (s.runs.lastKey + 1) =
      some (call.row rt (call.effectiveMetadata rt) (s.runs.lastKey + 1)) := by
    rw [Store.createRun, AutoTable.find?_insert, if_pos rfl]
  have hrun : exec rt (createExecutionRun call (call.effectiveMetadata rt)) s =
      (.ok (call.row rt (call.effectiveMetadata rt) (s.runs.lastKey + 1)),
        s.createRun rt call) := by
    rw [createExecutionRun, exec_bind (exec_act hcreate), exec_persisted hcreated]
  rw [recordRun, exec_bind hrun]
  rfl

/-- What a worker without artifacts leaves behind. -/
theorem record_eq {runId : ℤ} {id ordinal : ℕ} {s' : Store}
    (hsource : call.sourceRunId = some runId) (hartifacts : call.artifacts = [])
    (hrun : exec rt (recordRun rt call (s.findExecutionRun call.runKind runId)) s =
      (.ok (id, ordinal), s')) :
    s.record rt call = s'.addSteps rt id call.now ordinal call.steps := by
  have hfind : exec rt (findExisting call) s =
      (.ok (s.findExecutionRun call.runKind runId), s) := by
    rw [findExisting, hsource]
    rfl
  have hrecord : exec rt (recordExecution rt call) s =
      (.ok id, s'.addSteps rt id call.now ordinal call.steps) := by
    rw [recordExecution, exec_bind hfind, exec_bind hrun]
    dsimp only
    rw [exec_bind exec_recordSteps, hartifacts]
    rfl
  exact congrArg Prod.snd hrecord

end Worker

def Store.recordId (s : Store) (runId : ℕ) : Option ℕ :=
  (s.findExecutionRun .agent runId).map ExecutionRun.id

theorem Numbered.agentSteps (h : Numbered s) (runId : ℕ) :
    s.agentSteps runId = (s.recordId runId).elim [] s.stepRows := by
  rw [Store.agentSteps, Store.recordId]
  cases s.findExecutionRun .agent runId with
  | none => rfl
  | some run => exact h.list run.id

theorem find?_of_findExecutionRun {runKind : RunKind} {runId : ℤ} {run : ExecutionRun}
    (h : s.findExecutionRun runKind runId = some run) : s.runs.find? run.id = some run :=
  AutoTable.find?_eq_some_iff.mpr ⟨(findExecutionRun_eq_some h).1, rfl⟩

theorem recordId_inj {runId j id : ℕ} (hrun : s.recordId runId = some id)
    (hj : s.recordId j = some id) : j = runId := by
  obtain ⟨run, hfind, rfl⟩ := Option.map_eq_some_iff.mp hrun
  obtain ⟨other, hother, hid⟩ := Option.map_eq_some_iff.mp hj
  have hsame := find?_of_findExecutionRun hother
  rw [hid, find?_of_findExecutionRun hfind] at hsame
  cases hsame
  have hkey := (findExecutionRun_eq_some hfind).2.symm.trans (findExecutionRun_eq_some hother).2
  simp only [Prod.mk.injEq, Option.some.injEq, Nat.cast_inj, true_and] at hkey
  exact hkey.symm

theorem recordId_finishRun {id runId : ℕ} {status finishedAt : String} :
    (s.finishRun id status finishedAt).recordId runId = s.recordId runId := by
  have hrows : (s.finishRun id status finishedAt).runs.table.rows =
      s.runs.table.rows.map fun r =>
        if decide (r.id = id) = true then r.finish status finishedAt else r := rfl
  have hsame : ∀ r : ExecutionRun,
      (if decide (r.id = id) = true then r.finish status finishedAt else r).runKind = r.runKind ∧
      (if decide (r.id = id) = true then r.finish status finishedAt else r).sourceRunId =
        r.sourceRunId ∧
      (if decide (r.id = id) = true then r.finish status finishedAt else r).id = r.id := by
    intro r
    split <;> exact ⟨rfl, rfl, rfl⟩
  rw [Store.recordId, Store.recordId, Store.findExecutionRun, Store.findExecutionRun, hrows,
    ← List.map_reverse, List.find?_map, Option.map_map]
  refine congr (congrArg Option.map (funext fun r => (hsame r).2.2)) ?_
  refine congrArg (List.find? · _) (funext fun r => ?_)
  simp only [Function.comp, (hsame r).1, (hsame r).2.1]

theorem recordId_createRun {runId : ℕ} (hkind : call.runKind = .agent)
    (hsource : call.sourceRunId = some (runId : ℤ)) (j : ℕ) :
    (s.createRun rt call).recordId j =
      if j = runId then some (s.runs.lastKey + 1) else s.recordId j := by
  have hrows : (s.createRun rt call).runs.table.rows =
      s.runs.table.rows ++ [call.row rt (call.effectiveMetadata rt) (s.runs.lastKey + 1)] := rfl
  rw [Store.recordId, Store.recordId, Store.findExecutionRun, hrows, List.reverse_append,
    List.reverse_singleton, List.singleton_append, List.find?_cons]
  by_cases hj : j = runId
  · subst hj
    simp [RecordCall.row, hkind, hsource]
  · have hne : ((runId : ℤ) == (j : ℤ)) = false := by
      rw [beq_eq_false_iff_ne, ne_eq, Nat.cast_inj]
      exact fun heq => hj heq.symm
    simp [RecordCall.row, hkind, hsource, hne, hj, Store.findExecutionRun]

/-- What the steps of the agent runs are once a run is recorded. -/
structure Adds (rt : Runtime) (s s' : Store) (runId : ℕ) (steps : List StepRecord) : Prop where
  numbered : Numbered s'
  own : (s'.agentSteps runId).map ExecutionStep.content =
    (s.agentSteps runId).map ExecutionStep.content ++ steps.map (StepRecord.content rt)
  other : ∀ j, j ≠ runId → s'.agentSteps j = s.agentSteps j

/-- The steps of a call follow those of a record that has been numbered up to there. -/
theorem numbered_addSteps (h : Numbered s) {id ordinal : ℕ} {now : String}
    {steps : List StepRecord} (hid : id ≤ s.runs.lastKey)
    (hordinal : ordinal = (s.stepRows id).length) :
    Numbered (s.addSteps rt id now ordinal steps) := by
  obtain ⟨rows, hrows, -, hordinals⟩ := @stepRows_addSteps rt s id ordinal now steps
  have hlength : rows.length = steps.length := by
    simpa using congrArg List.length hordinals
  refine ⟨fun j => ?_, fun j hj => ?_⟩
  · by_cases hj : j = id
    · subst hj
      rw [hrows, List.map_append, h.ordinals, hordinals, hordinal, List.length_append, hlength,
        List.range_eq_range', List.range_eq_range']
      simpa using List.range'_append_1 (s := 0) (m := (s.stepRows j).length) (n := steps.length)
    · rw [stepRows_addSteps_of_ne hj]
      exact h.ordinals j
  · rw [addSteps_runs] at hj
    rw [stepRows_addSteps_of_ne (by omega)]
    exact h.known j hj

/-- The steps of a run follow those of its record, once that is found or made. -/
theorem adds_addSteps {t : Store} {runId id : ℕ} {now : String} {steps : List StepRecord}
    (h : Numbered s) (hsteps : t.steps = s.steps) (hkeys : s.runs.lastKey ≤ t.runs.lastKey)
    (hid : id ≤ t.runs.lastKey) (hown : s.agentSteps runId = s.stepRows id)
    (hrecords : ∀ j, t.recordId j = if j = runId then some id else s.recordId j)
    (hother : ∀ j, j ≠ runId → s.recordId j ≠ some id) :
    Adds rt s (t.addSteps rt id now (s.stepRows id).length steps) runId steps := by
  have hrows : ∀ j, t.stepRows j = s.stepRows j := by
    intro j
    rw [Store.stepRows, Store.stepRows, hsteps]
  have ht : Numbered t := by
    refine ⟨fun j => ?_, fun j hj => ?_⟩
    · rw [hrows]
      exact h.ordinals j
    · rw [hrows]
      exact h.known j (by omega)
  have hlength : (s.stepRows id).length = (t.stepRows id).length := by rw [hrows]
  have hnumbered : Numbered (t.addSteps rt id now (s.stepRows id).length steps) :=
    numbered_addSteps ht hid hlength
  have hrecordId : ∀ j, (t.addSteps rt id now (s.stepRows id).length steps).recordId j =
      t.recordId j := by
    intro j
    rw [Store.recordId, Store.recordId, Store.findExecutionRun, Store.findExecutionRun,
      addSteps_runs]
  refine ⟨hnumbered, ?_, fun j hj => ?_⟩
  · obtain ⟨rows, hadded, hcontents, -⟩ :=
      @stepRows_addSteps rt t id (s.stepRows id).length now steps
    rw [hnumbered.agentSteps, hrecordId, hrecords, if_pos rfl, Option.elim_some, hadded, hrows,
      hown, List.map_append, hcontents]
  · rw [hnumbered.agentSteps, hrecordId, hrecords, if_neg hj, h.agentSteps]
    cases hrecord : s.recordId j with
    | none => rfl
    | some other =>
        have hne : other ≠ id := fun heq => hother j hj (heq ▸ hrecord)
        rw [Option.elim_some, Option.elim_some, stepRows_addSteps_of_ne hne, hrows]

theorem adds_record (h : Numbered s) {runId : ℕ}
    (hkind : call.runKind = .agent) (hsource : call.sourceRunId = some (runId : ℤ))
    (hartifacts : call.artifacts = []) :
    Adds rt s (s.record rt call) runId call.steps := by
  cases hfind : s.findExecutionRun .agent runId with
  | none =>
      have hrun : exec rt (recordRun rt call (s.findExecutionRun call.runKind runId)) s =
          (.ok (s.runs.lastKey + 1, 0), s.createRun rt call) := by
        rw [hkind, hfind]
        exact exec_recordRun_none
      have hnew : s.stepRows (s.runs.lastKey + 1) = [] := h.known _ (Nat.lt_succ_self _)
      have hnone : s.recordId runId = none := by rw [Store.recordId, hfind, Option.map_none]
      rw [record_eq hsource hartifacts hrun,
        show 0 = (s.stepRows (s.runs.lastKey + 1)).length by rw [hnew, List.length_nil]]
      refine adds_addSteps h rfl (Nat.le_succ _) le_rfl ?_ (recordId_createRun hkind hsource) ?_
      · rw [h.agentSteps, hnone, Option.elim_none, hnew]
      · intro j _ hj
        obtain ⟨run, hrun', hid⟩ := Option.map_eq_some_iff.mp hj
        have hle := s.runs.key_le run (findExecutionRun_eq_some hrun').1
        omega
  | some existing =>
      have hexisting := find?_of_findExecutionRun hfind
      have hrun : exec rt (recordRun rt call (s.findExecutionRun call.runKind runId)) s =
          (.ok (existing.id, (s.stepRows existing.id).length),
            s.finishRun existing.id call.status call.now) := by
        rw [hkind, hfind]
        exact exec_recordRun_some h hexisting
      have hsome : s.recordId runId = some existing.id := by
        rw [Store.recordId, hfind, Option.map_some]
      have hle := s.runs.key_le existing (findExecutionRun_eq_some hfind).1
      rw [record_eq hsource hartifacts hrun]
      refine adds_addSteps h rfl le_rfl hle ?_ (fun j => ?_) ?_
      · rw [h.agentSteps, hsome, Option.elim_some]
      · rw [recordId_finishRun]
        by_cases hj : j = runId
        · rw [if_pos hj, hj, hsome]
        · rw [if_neg hj]
      · exact fun j hj hrecord => hj (recordId_inj hsome hrecord)

end WaitLocalAgent.Observability
