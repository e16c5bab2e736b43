import WaitLocalAgent.Model.Scheduler

/-! # Live jobs and persisted jobs

After every call the live jobs are the persisted ones that still have a run time, unless a job was
rescheduled to a moment that passed before the call could register it. -/

namespace WaitLocalAgent.Scheduling

open Foundation

variable {rt : Runtime}

/-! ## Schedules that were validated -/

theorem validateTimezone_idem {timezone normalized : String}
    (h : validateTimezone rt timezone = .ok normalized) :
    validateTimezone rt normalized = .ok normalized := by
  unfold validateTimezone at h
  split at h
  · cases h
  · rename_i hne
    split at h
    · rename_i hzone
      obtain rfl := Except.ok.inj h
      simp [validateTimezone, hne, hzone]
    · cases h

variable {trigger : Trigger}

theorem Trigger.runsAfter_of_le {s t : ℤ} (hst : s ≤ t)
    (h : trigger.runsAfter rt t) : trigger.runsAfter rt s := by
  cases trigger with
  | cron expression timezone => exact rt.cronRunsAfter_of_le hst h
  | interval seconds timezone => rfl
  | date runDate timezone =>
      simp only [Trigger.runsAfter, decide_eq_true_eq] at h ⊢
      omega

variable {now : ℤ}

theorem Schedule.trigger_of_check {s : Schedule} {timezone : String}
    (hzone : validateTimezone rt timezone = .ok timezone) (h : s.check rt timezone now = .ok ()) :
    ∃ trigger, { s with timezone }.trigger rt = .ok trigger := by
  by_cases hinterval : s.scheduleType = "interval"
  · exact ⟨_, by simp only [Schedule.trigger, hinterval, if_true, hzone]; rfl⟩
  by_cases honce : s.scheduleType = "once"
  · have hparsed : ∃ runDate, parseRunAt rt (s.runAt.getD "") = .ok runDate := by
      simp only [Schedule.check, honce, String.reduceEq, if_false, if_true] at h
      split at h
      · cases h
      · rename_i runAt hrun
        split at h
        · cases h
        · split at h
          · cases h
          · split at h
            · cases h
            · rename_i parsed hparse
              exact ⟨parsed, by rw [hrun]; exact hparse⟩
    obtain ⟨runDate, hparse⟩ := hparsed
    exact ⟨.date runDate timezone, by
      simp [Schedule.trigger, honce, hparse, hzone, Except.bind, Except.map]⟩
  · by_cases hcron : s.scheduleType = "cron"
    · simp only [Schedule.check, hcron, if_true] at h
      split at h
      · cases h
      · rename_i haccepted
        have hnone : rt.fromCrontab s.cron timezone = none := by simpa using haccepted
        exact ⟨.cron s.cron timezone, by
          simp [Schedule.trigger, hcron, hzone, hnone, Except.bind]⟩
    · simp [Schedule.check, hcron, hinterval, honce] at h

theorem validateSchedule_trigger {s normalized : Schedule}
    (h : validateSchedule rt s now = .ok normalized) :
    ∃ trigger, normalized.trigger rt = .ok trigger := by
  unfold validateSchedule at h
  split at h
  · cases h
  · rename_i timezone hzone
    split at h
    · cases h
    · rename_i hcheck
      obtain rfl := Except.ok.inj h
      -- a normalized zone passes where the zone itself did
      have hsame := validateTimezone_idem hzone
      exact Schedule.trigger_of_check hsame hcheck

theorem validateSchedule_fields {s normalized : Schedule}
    (h : validateSchedule rt s now = .ok normalized) :
    normalized.scheduleType = s.scheduleType ∧ normalized.runAt = s.runAt := by
  unfold validateSchedule at h
  split at h
  · cases h
  · split at h
    · cases h
    · obtain rfl := Except.ok.inj h
      exact ⟨rfl, rfl⟩

theorem Schedule.trigger_once {s : Schedule} (honce : s.scheduleType = "once")
    (h : s.trigger rt = .ok trigger) :
    ∃ runDate timezone, parseRunAt rt (s.runAt.getD "") = .ok runDate ∧
      trigger = .date runDate timezone := by
  simp only [Schedule.trigger, honce, String.reduceEq, if_false, if_true] at h
  cases hparse : parseRunAt rt (s.runAt.getD "") with
  | error e => simp [hparse, Except.bind] at h
  | ok runDate =>
      cases hzone : validateTimezone rt s.timezone with
      | error e => simp [hparse, hzone, Except.bind, Except.map] at h
      | ok timezone =>
          simp only [hparse, hzone, Except.bind, Except.map, Except.ok.injEq] at h
          exact ⟨runDate, timezone, rfl, h.symm⟩

/-! ## One job -/

def LiveJob.view (l : LiveJob) : Trigger × Bool := (l.trigger, l.paused)

/-- What should be live of a persisted job while it has a run time: its schedule, its pause. -/
def ScheduledJob.expected (rt : Runtime) (now : ℤ) (job : ScheduledJob) : Option (Trigger × Bool) :=
  match job.schedule.trigger rt with
  | .error _ => none
  | .ok trigger => if trigger.runsAfter rt now then some (trigger, job.paused) else none

def Shows (rt : Runtime) (now : ℤ) (live : Option LiveJob) (row : Option ScheduledJob) : Prop :=
  live.map LiveJob.view = row.bind (ScheduledJob.expected rt now)

variable {job : ScheduledJob}

theorem ScheduledJob.expected_of_trigger
    (h : job.schedule.trigger rt = .ok trigger) :
    job.expected rt now =
      if trigger.runsAfter rt now then some (trigger, job.paused) else none := by
  simp only [expected, h]

theorem ScheduledJob.expected_trigger {paused : Bool}
    (h : job.expected rt now = some (trigger, paused)) :
    job.schedule.trigger rt = .ok trigger ∧ paused = job.paused := by
  unfold expected at h
  split at h
  · cases h
  · rename_i trigger' htrigger
    split at h
    · obtain ⟨rfl, rfl⟩ := Prod.mk.inj (Option.some.inj h)
      exact ⟨htrigger, rfl⟩
    · cases h

theorem ScheduledJob.expected_of_le {s t : ℤ} (hst : s ≤ t)
    (h : job.expected rt s = none) : job.expected rt t = none := by
  unfold expected at h ⊢
  split
  · rfl
  · rename_i trigger htrigger
    simp only [htrigger, ite_eq_right_iff, reduceCtorEq, imp_false] at h
    exact if_neg fun hruns => h (Trigger.runsAfter_of_le hst hruns)

/-- Time passes, and exhausted jobs are dropped. -/
theorem Shows.elapse {s t : ℤ} {live : Option LiveJob} {row : Option ScheduledJob}
    (h : Shows rt s live row) (hst : s ≤ t) :
    Shows rt t (live.filter fun l => l.trigger.runsAfter rt t) row := by
  cases row with
  | none =>
      obtain rfl : live = none := by simpa [Shows] using h
      rfl
  | some job =>
      cases live with
      | none =>
          have hnone : job.expected rt s = none := h.symm
          exact (ScheduledJob.expected_of_le hst hnone).symm
      | some l =>
          have hsome : job.expected rt s = some (l.trigger, l.paused) := h.symm
          obtain ⟨htrigger, hpaused⟩ := ScheduledJob.expected_trigger hsome
          rw [Shows, Option.bind_some, ScheduledJob.expected_of_trigger htrigger,
            Option.filter_some]
          split <;> simp [LiveJob.view, hpaused]

theorem Shows.setPaused {live : Option LiveJob} {row : Option ScheduledJob}
    (h : Shows rt now live row) (paused : Bool) :
    Shows rt now (live.map fun l => { l with paused })
      (row.map (ScheduledJob.setPaused paused)) := by
  cases row with
  | none =>
      obtain rfl : live = none := by simpa [Shows] using h
      rfl
  | some job =>
      have hsame : (ScheduledJob.setPaused paused job).expected rt now =
          (job.expected rt now).map fun view => (view.1, paused) := by
        unfold ScheduledJob.expected
        show (match job.schedule.trigger rt with
          | .error _ => none
          | .ok trigger => if trigger.runsAfter rt now then some (trigger, paused) else none) = _
        split
        · rfl
        · split <;> rfl
      have hview : live.map LiveJob.view = job.expected rt now := h
      rw [Shows, Option.map_some, Option.bind_some, hsame, ← hview, Option.map_map, Option.map_map]
      rfl

/-! ## Registering a job -/

variable {jobId : ℕ}

theorem LiveJobs.register_ne {live live' : LiveJobs}
    (h : live.register rt now job = .ok live') (hne : jobId ≠ job.id) :
    live' jobId = live jobId := by
  unfold register at h
  split at h
  · cases h
  · cases h
    rfl
  · split at h
    · cases h
    · obtain rfl := Except.ok.inj h
      split <;> simp [addJob, setPaused, hne]

/-- A job that is not passed over replaces whatever was live under its id. -/
theorem LiveJobs.register_eq {live live' : LiveJobs}
    (h : live.register rt now job = .ok live')
    (hfuture : job.isPast rt now = .ok false) (htrigger : job.schedule.trigger rt = .ok trigger) :
    live' job.id = some { job, trigger, paused := job.paused } := by
  simp only [register, hfuture, htrigger, Except.ok.injEq] at h
  subst h
  split
  · rename_i hpaused
    simp [addJob, setPaused, hpaused]
  · rename_i hpaused
    simp [addJob, hpaused]

theorem ScheduledJob.isPast_cases (now : ℤ)
    (htrigger : job.schedule.trigger rt = .ok trigger) :
    job.isPast rt now = .ok false ∨
      job.isPast rt now = .ok true ∧ job.scheduleType = "once" ∧
        ∃ runDate timezone, parseRunAt rt (job.runAt.getD "") = .ok runDate ∧ runDate ≤ now ∧
          trigger = .date runDate timezone := by
  by_cases honce : job.scheduleType = "once"
  · obtain ⟨runDate, timezone, hparse, rfl⟩ := Schedule.trigger_once honce htrigger
    have hparse : parseRunAt rt (job.runAt.getD "") = .ok runDate := hparse
    by_cases hpast : runDate ≤ now
    · refine .inr ⟨?_, honce, runDate, timezone, hparse, hpast, rfl⟩
      simp [isPast, honce, hparse, hpast, Except.map]
    · refine .inl ?_
      simp [isPast, honce, hparse, hpast, Except.map]
  · exact .inl (by simp [isPast, honce])

/-- A job whose trigger can be built is registered, or passed over. -/
theorem LiveJobs.exists_register (now : ℤ)
    (htrigger : job.schedule.trigger rt = .ok trigger) (live : LiveJobs) :
    ∃ live', live.register rt now job = .ok live' := by
  rcases ScheduledJob.isPast_cases now htrigger with hfuture | ⟨hpast, -⟩
  · exact ⟨_, by simp only [register, hfuture, htrigger]; rfl⟩
  · exact ⟨live, by simp only [register, hpast]⟩

/-- The job shows its row, if nothing goes on under its id in case that it is passed over. -/
theorem LiveJobs.register_shows_iff {now t : ℤ} {live live' : LiveJobs}
    (h : live.register rt now job = .ok live') (hnow : now ≤ t)
    (htrigger : job.schedule.trigger rt = .ok trigger) :
    Shows rt t ((live' job.id).filter fun l => l.trigger.runsAfter rt t) (some job) ↔
      (job.isPast rt now = .ok true →
        (live job.id).filter (fun l => l.trigger.runsAfter rt t) = none) := by
  rcases ScheduledJob.isPast_cases now htrigger with hfuture | ⟨hpast, -, hdate⟩
  · rw [register_eq h hfuture htrigger, Shows, Option.bind_some,
      ScheduledJob.expected_of_trigger htrigger, Option.filter_some]
    refine iff_of_true ?_ (by simp [hfuture])
    split <;> rfl
  · obtain ⟨runDate, timezone, -, hle, rfl⟩ := hdate
    have hsame : live' = live := by
      simp only [register, hpast, Except.ok.injEq] at h
      exact h.symm
    have hnone : job.expected rt t = none := by
      rw [ScheduledJob.expected_of_trigger htrigger]
      exact if_neg (by simp only [Trigger.runsAfter, decide_eq_true_eq]; omega)
    simp [hsame, Shows, hnone, hpast]

/-! ## All jobs -/

/-- Every live job shows a persisted one, and the other way round. -/
def Mirrors (rt : Runtime) (now : ℤ) (jobs : AutoTable ScheduledJob.id) (live : LiveJobs) : Prop :=
  ∀ jobId, Shows rt now (live jobId) (jobs.find? jobId)

theorem Mirrors.elapse {s t : ℤ} {jobs : AutoTable ScheduledJob.id} {live : LiveJobs}
    (h : Mirrors rt s jobs live) (hst : s ≤ t) : Mirrors rt t jobs (live.dropExhausted rt t) :=
  fun jobId => (h jobId).elapse hst

/-- `start` registers the jobs one after the other. -/
theorem registerAll_ok (now : ℕ → ℤ) {t : ℤ} (hnow : ∀ jobId, now jobId ≤ t)
    (js : List ScheduledJob) (live : LiveJobs)
    (hvalid : ∀ job ∈ js, ∃ trigger, job.schedule.trigger rt = .ok trigger)
    (hids : (js.map ScheduledJob.id).Nodup) (hempty : ∀ job ∈ js, live job.id = none) :
    ∃ live', registerAll rt now js live = (.ok (), live') ∧
      (∀ jobId, jobId ∉ js.map ScheduledJob.id → live' jobId = live jobId) ∧
      ∀ job ∈ js, Shows rt t ((live' job.id).filter fun l => l.trigger.runsAfter rt t)
        (some job) := by
  induction js generalizing live with
  | nil => exact ⟨live, rfl, fun _ _ => rfl, by simp⟩
  | cons job js ih =>
      obtain ⟨trigger, htrigger⟩ := hvalid job List.mem_cons_self
      obtain ⟨live₁, hregister⟩ := LiveJobs.exists_register (now job.id) htrigger live
      rw [List.map_cons, List.nodup_cons] at hids
      obtain ⟨hnew, hids⟩ := hids
      have hempty₁ : ∀ other ∈ js, live₁ other.id = none := by
        intro other hother
        have hne : other.id ≠ job.id := by
          intro heq
          exact hnew (heq ▸ List.mem_map_of_mem hother)
        rw [LiveJobs.register_ne hregister hne]
        exact hempty other (List.mem_cons_of_mem job hother)
      obtain ⟨live', hall, hother, hshows⟩ := ih live₁
        (fun other hother => hvalid other (List.mem_cons_of_mem job hother)) hids hempty₁
      refine ⟨live', by simp only [registerAll, hregister, hall], ?_, ?_⟩
      · intro jobId hjobId
        rw [List.map_cons, List.mem_cons, not_or] at hjobId
        rw [hother jobId hjobId.2, LiveJobs.register_ne hregister hjobId.1]
      · intro other hmem
        rcases List.mem_cons.mp hmem with rfl | hmem
        · rw [hother other.id hnew,
            LiveJobs.register_shows_iff hregister (hnow other.id) htrigger]
          intro _
          rw [hempty other List.mem_cons_self]
          rfl
        · exact hshows other hmem

/-- After every call, if the scheduler runs. -/
def LiveMirrors (rt : Runtime) (m : SchedulerManager) : Prop :=
  ∀ live ∈ m.live, Mirrors rt m.clock m.jobs live

/-- What every call keeps. -/
structure SchedulerManager.Sound (rt : Runtime) (m : SchedulerManager) : Prop where
  valid : ∀ job ∈ m.jobs, ∃ trigger, job.schedule.trigger rt = .ok trigger
  started_iff : m.started = true ↔ m.live.isSome = true

/-- A job whose present schedule goes on is rescheduled to a moment that passes before the call
registers it. -/
def Overtaken (rt : Runtime) (m : SchedulerManager) (l : SchedulerStep) : Prop :=
  match l.call with
  | .reschedule jobId schedule =>
      m.live.isSome ∧ l.refusal = none ∧ ∃ existing ∈ m.jobs.find? jobId,
        (∃ normalized, validateSchedule rt schedule (m.validatedAt l) = .ok normalized) ∧
        validateScheduleTarget existing.jobKind existing.templateId existing.agentId
          existing.entityId = .ok () ∧
        schedule.scheduleType = "once" ∧
        (∃ runDate, parseRunAt rt (schedule.runAt.getD "") = .ok runDate ∧
          runDate ≤ m.registeredAt l jobId) ∧
        (existing.expected rt (m.finishedAt l)).isSome
  | _ => False

section Calls

variable {m : SchedulerManager} {l : SchedulerStep}

theorem SchedulerManager.clock_le_finishedAt : m.clock ≤ m.finishedAt l := by
  simp only [finishedAt, validatedAt]
  omega

theorem SchedulerManager.registeredAt_le (jobId : ℕ) : m.registeredAt l jobId ≤ m.finishedAt l := by
  have hle := l.delays.registered_le jobId
  simp only [finishedAt, registeredAt]
  omega

/-- A call that changes no job. -/
theorem LiveMirrors.elapse (h : LiveMirrors rt m) :
    LiveMirrors rt (m.elapse rt (m.finishedAt l)) := by
  intro live hlive
  obtain ⟨old, hold, rfl⟩ := Option.map_eq_some_iff.mp hlive
  exact (h old hold).elapse SchedulerManager.clock_le_finishedAt

theorem find?_table {jobs : AutoTable ScheduledJob.id} :
    jobs.find? jobId = jobs.table.rows.find? fun job => job.id = jobId := rfl

theorem LiveMirrors.start (hsound : m.Sound rt) (h : LiveMirrors rt m) :
    LiveMirrors rt ((m.start rt l).2.elapse rt (m.finishedAt l)) := by
  unfold SchedulerManager.start
  split
  · exact h.elapse
  · obtain ⟨live, hall, hother, hshows⟩ :=
      registerAll_ok (m.registeredAt l) SchedulerManager.registeredAt_le
        m.jobs.table.rows.reverse (fun _ => none)
        (fun job hjob => hsound.valid job (List.mem_reverse.mp hjob))
        (by rw [List.map_reverse, List.nodup_reverse]; exact m.jobs.table.nodup)
        (fun _ _ => rfl)
    simp only [hall]
    rintro _ ⟨⟩ jobId
    show Shows rt (m.finishedAt l) ((live jobId).filter _) (m.jobs.find? jobId)
    cases hfind : m.jobs.find? jobId with
    | none =>
        rw [hother jobId]
        · rfl
        · rw [List.map_reverse, List.mem_reverse]
          intro hmem
          obtain ⟨job, hjob, rfl⟩ := List.mem_map.mp hmem
          have hnone := List.find?_eq_none.mp (find?_table ▸ hfind) job hjob
          simp at hnone
    | some job =>
        obtain ⟨hmem, rfl⟩ := AutoTable.find?_eq_some_iff.mp hfind
        exact hshows job (List.mem_reverse.mpr hmem)

/-- `_register_live_job` after a write: only the job of the written row may differ. -/
theorem liveMirrors_mirror (m' : SchedulerManager)
    (h : LiveMirrors rt m) (hlive : m'.live = m.live)
    (hfind : ∀ jobId, m'.jobs.find? jobId =
      if jobId = job.id then some job else m.jobs.find? jobId)
    (htrigger : job.schedule.trigger rt = .ok trigger) :
    LiveMirrors rt ((m'.mirror rt (m.registeredAt l job.id) job).2.elapse rt (m.finishedAt l)) ↔
      ∀ live ∈ m.live, job.isPast rt (m.registeredAt l job.id) = .ok true →
        (live job.id).filter (fun l' => l'.trigger.runsAfter rt (m.finishedAt l)) = none := by
  unfold SchedulerManager.mirror
  rw [hlive]
  cases hold : m.live with
  | none => simp [LiveMirrors, SchedulerManager.elapse, hlive, hold]
  | some live =>
      obtain ⟨live', hregister⟩ :=
        LiveJobs.exists_register (m.registeredAt l job.id) htrigger live
      have hshows := LiveJobs.register_shows_iff hregister
        (SchedulerManager.registeredAt_le (l := l) job.id) htrigger
      have hothers : ∀ jobId, jobId ≠ job.id → Shows rt (m.finishedAt l)
          ((live' jobId).filter fun l' => l'.trigger.runsAfter rt (m.finishedAt l))
          (m.jobs.find? jobId) := by
        intro jobId hne
        rw [LiveJobs.register_ne hregister hne]
        exact (h live hold jobId).elapse SchedulerManager.clock_le_finishedAt
      simp only [hregister, Option.mem_def, Option.some.injEq, forall_eq', ← hshows]
      constructor
      · intro hmirrors
        have hjob := hmirrors _ rfl job.id
        simp only [SchedulerManager.elapse, hfind, if_true] at hjob
        exact hjob
      · rintro hjob _ ⟨⟩ jobId
        simp only [SchedulerManager.elapse, hfind]
        split
        · rename_i heq
          subst heq
          exact hjob
        · rename_i hne
          exact hothers jobId hne

theorem RegisterRequest.validate_trigger {r : RegisterRequest} {schedule : Schedule}
    {clientId : Option String} (h : r.validate rt now = .ok (schedule, clientId)) :
    ∃ trigger, schedule.trigger rt = .ok trigger := by
  cases hschedule : validateSchedule rt r.schedule now with
  | error e => simp [validate, hschedule, bind, Except.bind] at h
  | ok normalized =>
      cases htarget : validateScheduleTarget r.jobKind r.templateId r.agentId r.entityId with
      | error e => simp [validate, hschedule, htarget, bind, Except.bind] at h
      | ok u =>
          cases hclient : r.client with
          | error e => simp [validate, hschedule, htarget, hclient, bind, Except.bind] at h
          | ok c =>
              simp only [validate, hschedule, htarget, hclient, bind, Except.bind, pure,
                Except.pure, Except.ok.injEq, Prod.mk.injEq] at h
              obtain ⟨rfl, -⟩ := h
              exact validateSchedule_trigger hschedule

/-- The row and the table of a new job. -/
theorem SchedulerManager.createScheduledJob_ok {m' : SchedulerManager} {r : RegisterRequest}
    {schedule : Schedule} {clientId : Option String}
    (h : m.createScheduledJob l r schedule clientId = .ok (job, m')) :
    job = r.row schedule clientId (m.jobs.lastKey + 1) ∧
      m' = { m with
        jobs := m.jobs.insert (r.row schedule clientId) (r.row_id schedule clientId) } := by
  unfold createScheduledJob at h
  split at h
  · cases h
  · split at h
    · cases h
    · obtain ⟨rfl, rfl⟩ := Prod.mk.inj (Except.ok.inj h)
      exact ⟨rfl, rfl⟩
  · obtain ⟨rfl, rfl⟩ := Prod.mk.inj (Except.ok.inj h)
    exact ⟨rfl, rfl⟩

theorem LiveMirrors.register {r : RegisterRequest} (h : LiveMirrors rt m) :
    LiveMirrors rt ((m.register rt l r).2.elapse rt (m.finishedAt l)) := by
  unfold SchedulerManager.register
  split
  · exact h.elapse
  · rename_i schedule clientId hvalidate
    split
    · exact h.elapse
    · rename_i job m' hcreate
      obtain ⟨rfl, rfl⟩ := SchedulerManager.createScheduledJob_ok hcreate
      obtain ⟨trigger, htrigger⟩ := RegisterRequest.validate_trigger hvalidate
      have hrow : (r.row schedule clientId (m.jobs.lastKey + 1)).schedule.trigger rt =
        .ok trigger := htrigger
      refine (liveMirrors_mirror { m with
        jobs := m.jobs.insert (r.row schedule clientId) (r.row_id schedule clientId) } h rfl
        (fun jobId => AutoTable.find?_insert (h := r.row_id schedule clientId)) hrow).mpr ?_
      intro live hlive _
      -- nothing was live under a new id
      have hnone := h live hlive (m.jobs.lastKey + 1)
      rw [AutoTable.find?_next] at hnone
      have hlast : live (m.jobs.lastKey + 1) = none := by simpa [Shows] using hnone
      show Option.filter _ (live (m.jobs.lastKey + 1)) = none
      rw [hlast]
      rfl

theorem SchedulerManager.updateRow_ok {m' : SchedulerManager}
    {f : ScheduledJob → ScheduledJob} {hf : ∀ job, (f job).id = job.id}
    (h : m.updateRow l jobId f hf = .ok (job, m')) :
    l.refusal = none ∧ (∃ old, m.jobs.find? jobId = some old ∧ job = f old) ∧
      m' = { m with jobs := m.jobs.update (fun job => job.id = jobId) f hf } := by
  unfold updateRow at h
  split at h
  · cases h
  · cases h
  · rename_i old hrefusal hold
    obtain ⟨rfl, rfl⟩ := Prod.mk.inj (Except.ok.inj h)
    exact ⟨hrefusal, ⟨old, hold, rfl⟩, rfl⟩

theorem LiveMirrors.setPaused {paused : Bool} (h : LiveMirrors rt m) :
    LiveMirrors rt ((m.setPaused l jobId paused).2.elapse rt (m.finishedAt l)) := by
  unfold SchedulerManager.setPaused
  split
  · exact h.elapse
  · rename_i job m' hupdate
    obtain ⟨-, -, rfl⟩ := SchedulerManager.updateRow_ok hupdate
    refine LiveMirrors.elapse (m := { m with
      jobs := m.jobs.update (fun job => job.id = jobId) (ScheduledJob.setPaused paused)
        (ScheduledJob.setPaused_id paused)
      live := m.live.map fun live => live.setPaused jobId paused }) ?_
    intro live' hlive' k
    obtain ⟨live, hlive, rfl⟩ := Option.map_eq_some_iff.mp hlive'
    simp only [LiveJobs.setPaused]
    rw [AutoTable.find?_update_key (k := jobId) (by simp)]
    by_cases hk : k = jobId
    · subst hk
      rw [if_pos rfl, Function.update_self]
      exact (h live hlive k).setPaused paused
    · rw [if_neg hk, Function.update_of_ne hk]
      exact h live hlive k

theorem LiveMirrors.remove (h : LiveMirrors rt m) :
    LiveMirrors rt ((m.remove l jobId).2.elapse rt (m.finishedAt l)) := by
  unfold SchedulerManager.remove
  split
  · exact h.elapse
  · exact h.elapse
  · refine LiveMirrors.elapse (m := { m with
      jobs := m.jobs.delete fun job => job.id = jobId
      live := m.live.map fun live => live.removeJob jobId }) ?_
    intro live' hlive' k
    obtain ⟨live, hlive, rfl⟩ := Option.map_eq_some_iff.mp hlive'
    simp only [AutoTable.find?_delete_key, LiveJobs.removeJob]
    by_cases hk : k = jobId
    · rw [if_pos hk, hk, Function.update_self]
      rfl
    · rw [if_neg hk, Function.update_of_ne hk]
      exact h live hlive k

/-- The one call that may leave a live job behind its row. -/
theorem liveMirrors_reschedule_iff {schedule : Schedule}
    (hcall : l.call = .reschedule jobId schedule) (h : LiveMirrors rt m) :
    LiveMirrors rt ((m.reschedule rt l jobId schedule).2.elapse rt (m.finishedAt l)) ↔
      ¬ Overtaken rt m l := by
  have hover : Overtaken rt m l ↔ m.live.isSome ∧ l.refusal = none ∧
      ∃ existing ∈ m.jobs.find? jobId,
        (∃ normalized, validateSchedule rt schedule (m.validatedAt l) = .ok normalized) ∧
        validateScheduleTarget existing.jobKind existing.templateId existing.agentId
          existing.entityId = .ok () ∧
        schedule.scheduleType = "once" ∧
        (∃ runDate, parseRunAt rt (schedule.runAt.getD "") = .ok runDate ∧
          runDate ≤ m.registeredAt l jobId) ∧
        (existing.expected rt (m.finishedAt l)).isSome := by
    simp only [Overtaken, hcall]
  unfold SchedulerManager.reschedule
  split
  · rename_i hnone
    refine iff_of_true h.elapse ?_
    simp [hover, hnone]
  rename_i existing hexisting
  split
  · rename_i e hinvalid
    refine iff_of_true h.elapse ?_
    simp [hover, hinvalid]
  rename_i normalized hvalid
  split
  · rename_i e htarget
    refine iff_of_true h.elapse ?_
    simp [hover, hexisting, htarget]
  rename_i htarget
  split
  · rename_i e hupdate
    refine iff_of_true h.elapse ?_
    have hrefused : l.refusal ≠ none := by
      intro hnone
      simp [SchedulerManager.updateRow, hnone, hexisting] at hupdate
    simp [hover, hrefused]
  rename_i job m' hupdate
  obtain ⟨hrefusal, ⟨old, hold, rfl⟩, rfl⟩ := SchedulerManager.updateRow_ok hupdate
  obtain rfl : existing = old := by
    rw [hexisting] at hold
    exact Option.some.inj hold
  obtain ⟨trigger, htrigger⟩ := validateSchedule_trigger hvalid
  obtain ⟨htype, hrunAt⟩ := validateSchedule_fields hvalid
  have hid : existing.id = jobId := (AutoTable.find?_eq_some_iff.mp hexisting).2
  have hnew : (existing.setSchedule normalized).schedule.trigger rt = .ok trigger := htrigger
  have hmirror := liveMirrors_mirror (l := l) { m with
      jobs := m.jobs.update (fun job => job.id = jobId) (ScheduledJob.setSchedule normalized)
        (ScheduledJob.setSchedule_id normalized) } h rfl ?_ hnew
  · rw [ScheduledJob.setSchedule_id, hid] at hmirror
    rw [hmirror, hover]
    -- what is live of the job, once the call has returned
    have hkept : ∀ live ∈ m.live,
        ((live jobId).filter fun l' => l'.trigger.runsAfter rt (m.finishedAt l)).map LiveJob.view =
          existing.expected rt (m.finishedAt l) := by
      intro live hlive
      have hshows := (h live hlive jobId).elapse (SchedulerManager.clock_le_finishedAt (l := l))
      rw [hexisting] at hshows
      exact hshows
    have hpast : (existing.setSchedule normalized).isPast rt (m.registeredAt l jobId) = .ok true ↔
        schedule.scheduleType = "once" ∧ ∃ runDate,
          parseRunAt rt (schedule.runAt.getD "") = .ok runDate ∧
            runDate ≤ m.registeredAt l jobId := by
      simp only [ScheduledJob.isPast, ScheduledJob.setSchedule, htype, hrunAt]
      by_cases honce : schedule.scheduleType = "once"
      · cases parseRunAt rt (schedule.runAt.getD "") <;> simp [honce, Except.map]
      · simp [honce]
    rw [hpast]
    constructor
    · rintro hnone ⟨hlive, -, found, hfound, -, -, honce, hrun, hsome⟩
      obtain ⟨live, hlive⟩ := Option.isSome_iff_exists.mp hlive
      obtain rfl : existing = found := Option.some.inj (hexisting.symm.trans hfound)
      rw [← hkept live hlive, hnone live hlive ⟨honce, hrun⟩] at hsome
      cases hsome
    · intro hnot live hlive ⟨honce, hrun⟩
      by_contra hsome
      refine hnot ⟨Option.isSome_iff_exists.mpr ⟨live, hlive⟩, hrefusal, existing, hexisting,
        ⟨normalized, hvalid⟩, htarget, honce, hrun, ?_⟩
      rw [← hkept live hlive, Option.isSome_map]
      exact Option.isSome_iff_ne_none.mpr hsome
  · intro k
    show (m.jobs.update _ _ _).find? k = _
    rw [AutoTable.find?_update_key (k := jobId) (by simp), ScheduledJob.setSchedule_id, hid,
      hexisting]
    rfl

/-! ## Sound managers -/

/-- A call whose jobs are old ones, or have triggers. -/
theorem SchedulerManager.Sound.of_jobs {m' : SchedulerManager} (h : m.Sound rt)
    (hjobs : ∀ job ∈ m'.jobs, (∃ old ∈ m.jobs, job.schedule = old.schedule) ∨
      ∃ trigger, job.schedule.trigger rt = .ok trigger)
    (hstarted : m'.started = m.started) (hlive : m'.live.isSome = m.live.isSome) :
    m'.Sound rt where
  valid job hjob := by
    rcases hjobs job hjob with ⟨old, hold, hsame⟩ | htrigger
    · rw [hsame]
      exact h.valid old hold
    · exact htrigger
  started_iff := by
    rw [hstarted, hlive]
    exact h.started_iff

theorem SchedulerManager.mirror_kept (rt : Runtime) (m : SchedulerManager) (now : ℤ)
    (job : ScheduledJob) :
    (m.mirror rt now job).2.jobs = m.jobs ∧ (m.mirror rt now job).2.started = m.started ∧
      (m.mirror rt now job).2.live.isSome = m.live.isSome := by
  unfold mirror
  split
  · exact ⟨rfl, rfl, rfl⟩
  · rename_i live hlive
    split
    · exact ⟨rfl, rfl, rfl⟩
    · exact ⟨rfl, rfl, by rw [hlive]; rfl⟩

theorem SchedulerManager.Sound.mirror (h : m.Sound rt) (now : ℤ) (job : ScheduledJob) :
    (m.mirror rt now job).2.Sound rt := by
  obtain ⟨hjobs, hstarted, hlive⟩ := m.mirror_kept rt now job
  exact h.of_jobs (fun job hjob => .inl ⟨job, hjobs ▸ hjob, rfl⟩) hstarted hlive

/-- A row is an old one, or was written by the update. -/
theorem mem_update_jobs {jobs : AutoTable ScheduledJob.id} {p : ScheduledJob → Bool}
    {f : ScheduledJob → ScheduledJob} {hf : ∀ job, (f job).id = job.id}
    (h : job ∈ jobs.update p f hf) : job ∈ jobs ∨ ∃ old ∈ jobs, job = f old := by
  obtain ⟨old, hold, rfl⟩ := AutoTable.mem_update.mp h
  split
  · exact .inr ⟨old, hold, rfl⟩
  · exact .inl hold

theorem SchedulerManager.Sound.start (h : m.Sound rt) : (m.start rt l).2.Sound rt := by
  unfold SchedulerManager.start
  split
  · exact h
  · exact ⟨h.valid, by simp⟩

theorem SchedulerManager.Sound.register {r : RegisterRequest} (h : m.Sound rt) :
    (m.register rt l r).2.Sound rt := by
  unfold SchedulerManager.register
  split
  · exact h
  · rename_i schedule clientId hvalidate
    split
    · exact h
    · rename_i job m' hcreate
      obtain ⟨rfl, rfl⟩ := SchedulerManager.createScheduledJob_ok hcreate
      obtain ⟨trigger, htrigger⟩ := RegisterRequest.validate_trigger hvalidate
      refine SchedulerManager.Sound.mirror (m := { m with
        jobs := m.jobs.insert (r.row schedule clientId) (r.row_id schedule clientId) })
        (h.of_jobs ?_ rfl rfl) _ _
      intro job hjob
      rcases (AutoTable.mem_insert (h := r.row_id schedule clientId)).mp hjob with hold | rfl
      · exact .inl ⟨job, hold, rfl⟩
      · exact .inr ⟨trigger, htrigger⟩

theorem SchedulerManager.Sound.setPaused {paused : Bool} (h : m.Sound rt) :
    (m.setPaused l jobId paused).2.Sound rt := by
  unfold SchedulerManager.setPaused
  split
  · exact h
  · rename_i job m' hupdate
    obtain ⟨-, -, rfl⟩ := SchedulerManager.updateRow_ok hupdate
    refine h.of_jobs ?_ rfl (by simp)
    intro job hjob
    rcases mem_update_jobs hjob with hold | ⟨old, hold, rfl⟩
    · exact .inl ⟨job, hold, rfl⟩
    · exact .inl ⟨old, hold, rfl⟩

theorem SchedulerManager.Sound.reschedule {schedule : Schedule} (h : m.Sound rt) :
    (m.reschedule rt l jobId schedule).2.Sound rt := by
  unfold SchedulerManager.reschedule
  split
  · exact h
  · split
    · exact h
    · rename_i normalized hvalid
      obtain ⟨trigger, htrigger⟩ := validateSchedule_trigger hvalid
      split
      · exact h
      · split
        · exact h
        · rename_i job m' hupdate
          obtain ⟨-, -, rfl⟩ := SchedulerManager.updateRow_ok hupdate
          refine SchedulerManager.Sound.mirror (m := { m with
            jobs := m.jobs.update (fun job => job.id = jobId) (ScheduledJob.setSchedule normalized)
              (ScheduledJob.setSchedule_id normalized) }) (h.of_jobs ?_ rfl rfl) _ _
          intro job hjob
          rcases mem_update_jobs hjob with hold | ⟨old, -, rfl⟩
          · exact .inl ⟨job, hold, rfl⟩
          · exact .inr ⟨trigger, htrigger⟩

theorem SchedulerManager.Sound.remove (h : m.Sound rt) :
    (m.remove l jobId).2.Sound rt := by
  unfold SchedulerManager.remove
  split
  · exact h
  · exact h
  · refine h.of_jobs ?_ rfl (by simp)
    intro job hjob
    exact .inl ⟨job, (AutoTable.mem_delete.mp hjob).1, rfl⟩

theorem SchedulerManager.Sound.step (h : m.Sound rt) (l : SchedulerStep) :
    (m.step rt l).Sound rt := by
  have hperform : (m.perform rt l).2.Sound rt := by
    unfold SchedulerManager.perform
    split
    · exact h.start
    · exact ⟨h.valid, by simp [SchedulerManager.shutdown]⟩
    · exact h.register
    · exact h.setPaused
    · exact h.setPaused
    · exact h.reschedule
    · exact h.remove
  exact hperform.of_jobs (fun job hjob => .inl ⟨job, hjob, rfl⟩) rfl
    (by simp [SchedulerManager.step, SchedulerManager.elapse])

/-! ## Runs -/

theorem liveMirrors_step_iff (hsound : m.Sound rt) (h : LiveMirrors rt m) :
    LiveMirrors rt (m.step rt l) ↔ ¬ Overtaken rt m l := by
  unfold SchedulerManager.step SchedulerManager.perform
  cases hcall : l.call with
  | reschedule jobId schedule => exact liveMirrors_reschedule_iff hcall h
  | start => exact iff_of_true (.start hsound h) (by simp [Overtaken, hcall])
  | shutdown =>
      refine iff_of_true ?_ (by simp [Overtaken, hcall])
      intro live hlive
      cases hlive
  | register request => exact iff_of_true h.register (by simp [Overtaken, hcall])
  | pause jobId => exact iff_of_true h.setPaused (by simp [Overtaken, hcall])
  | resume jobId => exact iff_of_true h.setPaused (by simp [Overtaken, hcall])
  | remove jobId => exact iff_of_true h.remove (by simp [Overtaken, hcall])

end Calls

/-- After every call of a run the live jobs are the persisted ones that go on, as scheduled and as
paused, if and only if no call is overtaken. -/
theorem forall_liveMirrors_iff (rt : Runtime) (jobs : ScheduledJobs rt) (clock : ℤ)
    (ls : List SchedulerStep) :
    (∀ ks, ks <+: ls → LiveMirrors rt ((schedulerMachine rt jobs clock).run ks)) ↔
      (schedulerMachine rt jobs clock).Guarded (fun m l => ¬ Overtaken rt m l) ls := by
  refine Machine.forall_prefix_iff_guarded (J := SchedulerManager.Sound rt) ?_ ?_
    (fun m l h => h.step l) (fun m l hsound h => liveMirrors_step_iff hsound h) ls
  · intro live hlive
    cases hlive
  · exact ⟨jobs.property, by simp [schedulerMachine]⟩

/-! ## A job that is rescheduled to the next second -/

/-- Times of day in seconds, and one cron expression. -/
def daytimeRuntime : Runtime where
  zoneInfo zone := zone == "UTC"
  fromisoformat text :=
    if text = "2026-01-05T09:00:01+00:00" then some (some 1767603601000000) else none
  fromCrontab cron _ :=
    if cron = "0 9 * * *" then none else some "Wrong number of fields"
  cronRunsAfter _ _ _ := true
  cronRunsAfter_of_le _ _ := rfl

def noJobs : ScheduledJobs daytimeRuntime := ⟨.empty, by simp⟩

def everyMorning : Schedule :=
  { scheduleType := "cron", cron := "0 9 * * *", intervalSeconds := none, runAt := none
    timezone := "UTC" }

def oneSecondLater : Schedule :=
  { scheduleType := "once", cron := "", intervalSeconds := none
    runAt := some "2026-01-05T09:00:01+00:00", timezone := "UTC" }

/-- The database takes two seconds for the new schedule. -/
def lateReschedule : List SchedulerStep :=
  [{ call := .start },
    { call := .register { templateId := "triage", schedule := everyMorning, params := [] } },
    { call := .reschedule 1 oneSecondLater
      delays := { registered := fun _ => 2000000, finished := 2000000 } }]

def rescheduledLate : SchedulerManager :=
  (schedulerMachine daytimeRuntime noJobs 1767603600000000).run lateReschedule

/-- The job stays live, and goes on every morning. -/
theorem not_liveMirrors : ¬ LiveMirrors daytimeRuntime rescheduledLate := by
  intro h
  have hlive : rescheduledLate.live.map (fun live => (live 1).map LiveJob.view) =
      some (some (.cron "0 9 * * *" "UTC", false)) := by decide
  have hexpected : (rescheduledLate.jobs.find? 1).bind
      (ScheduledJob.expected daytimeRuntime rescheduledLate.clock) = none := by decide
  obtain ⟨live, hlive, hview⟩ := Option.map_eq_some_iff.mp hlive
  have hshows := h live hlive 1
  rw [Shows, hview, hexpected] at hshows
  cases hshows

end WaitLocalAgent.Scheduling
