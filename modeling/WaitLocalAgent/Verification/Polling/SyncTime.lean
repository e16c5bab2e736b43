import WaitLocalAgent.Model.IngestionPoller
import WaitLocalAgent.Verification.Polling.Fencing

/-! # The successful sync time

A sweep that does not finish idle writes back the sync time that it read before it was granted the
lease. The time of the latest idle sweep is kept exactly as long as no such sweep read an older
one. -/

namespace WaitLocalAgent.Polling

open Foundation

variable {W : Type} {fleet : Fleet W} {p p' : Pollers W} {w : W}

namespace Fleet

/-- The lease of the poll cursor is in the hands of `w`. -/
def Holds (fleet : Fleet W) (p : Pollers W) (w : W) : Prop :=
  ∃ row, fleet.cursor? p.store = some row ∧ row.status = .syncing ∧
    row.leaseToken = some (fleet.token w)

def syncedAt (fleet : Fleet W) (p : Pollers W) : Option NormalizedText :=
  lastSynced (fleet.cursor? p.store)

/-- The cursor has the sync time of the latest idle sweep, if there was one. -/
def Latest (fleet : Fleet W) (p : Pollers W) : Prop :=
  ∀ v, p.synced.getLast? = some v → fleet.syncedAt p = some v

/-- Whoever holds the lease was granted it on a cursor with the sync time that it has now. -/
structure Leased (fleet : Fleet W) (p : Pollers W) : Prop where
  granted : ∀ w previousCursor granted, fleet.Holds p w →
    p.phases w = .sweeping previousCursor granted → granted = fleet.syncedAt p
  registered : ∀ w, fleet.Holds p w → fleet.instanceId ∈ p.store.instances

/-- A sweep that finishes degraded or failed, with the lease still in its hands and after some idle
sweep, had read the sync time on which it was granted the lease. -/
def Fresh (fleet : Fleet W) (p : Pollers W) : PollStep W → Prop
  | .finish w _ _ _ status _ _ _ => ∀ previousCursor granted,
      p.phases w = .sweeping previousCursor granted → status ≠ .idle → fleet.Holds p w →
        p.synced ≠ [] → lastSynced previousCursor = granted
  | _ => True

end Fleet

/-! ## Finishes -/

variable {cal : Calendar} {s : Store}

theorem requireStatus_label (status : SweepStatus) (message : String) :
    ∃ parsed, requireStatus status.toPollStatus.label CursorStatus.isTerminal message =
      .ok parsed := by
  cases status with
  | idle => exact ⟨.idle, rfl⟩
  | degraded => exact ⟨.degraded, rfl⟩
  | failed => exact ⟨.failed, rfl⟩

def writtenTime (cal : Calendar) (previousCursor : Option SyncCursor) (status : SweepStatus)
    (recordedAt : Instant) : Option NormalizedText :=
  if status = .idle then some (cal.isoformat recordedAt) else lastSynced previousCursor

theorem toPollStatus_eq_idle {status : SweepStatus} :
    status.toPollStatus = .idle ↔ status = .idle := by
  cases status <;> decide

variable {previousCursor : Option SyncCursor}

theorem lastSyncedAt_finishRequest {token : NormalizedText}
    {summary : PollSummary} {status : SweepStatus} {recordedAt now : Instant}
    (hstatus : summary.status = status.toPollStatus) :
    normalizeClientId
        (finishRequest cal token previousCursor summary recordedAt now).lastSyncedAt =
      writtenTime cal previousCursor status recordedAt := by
  simp only [finishRequest, writtenTime, hstatus, toPollStatus_eq_idle]
  by_cases hidle : status = .idle
  · simp only [hidle, if_true, normalizeClientId_val]
  · simp only [hidle, if_false, normalizeClientId_map_val]

section Finish

variable (previousCursor : Option SyncCursor) {summary : PollSummary} {status : SweepStatus}
  (recordedAt now : Instant)

/-- The row after a finish that goes through. -/
structure Ended (fleet : Fleet W) (p p' : Pollers W) (written : Option NormalizedText) :
    Prop where
  cursor : ∃ row, fleet.cursor? p'.store = some row ∧ row.status ≠ .syncing ∧
    row.lastSyncedAt = written
  instances : p'.store.instances = p.store.instances

/-- The row after any other step that does not claim it. -/
structure Untouched (fleet : Fleet W) (p p' : Pollers W) : Prop where
  cursor : fleet.cursor? p'.store = fleet.cursor? p.store
  instances : p'.store.instances = p.store.instances
  synced : p'.synced = p.synced

theorem finishPollLease_instances {request : FinishRequest} {finished : Bool} {s' : Store}
    (h : finishPollLease cal s request = .ok (finished, s')) : s'.instances = s.instances := by
  simp only [finishPollLease, bind_eq_ok] at h
  obtain ⟨token, -, instanceId, -, cursorType, -, status, -, -, -, h⟩ := h
  split at h
  · cases h
    rfl
  · cases h
    rfl

/-- A finish by the holder goes through. -/
theorem finishPollLease_of_holds (hinstance : summary.connectorInstanceId = fleet.instanceId)
    (hstatus : summary.status = status.toPollStatus) (hholds : fleet.Holds p w)
    (hregistered : fleet.instanceId ∈ p.store.instances) :
    ∃ s', finishPollLease fleet.calendar p.store (finishRequest fleet.calendar (fleet.token w)
      previousCursor summary recordedAt now) = .ok (true, s') := by
  obtain ⟨parsed, hparsed⟩ := requireStatus_label status "unsupported terminal sync cursor status"
  obtain ⟨row, hrow, hsyncing, htoken⟩ := hholds
  have hmatch : row.isHeldBy fleet.key (fleet.token w) = true :=
    isHeldBy_iff.mpr ⟨Table.key_of_find?_eq_some hrow, hsyncing, htoken⟩
  have hpos : 0 < p.store.cursors.rowcount (SyncCursor.isHeldBy fleet.key (fleet.token w)) :=
    Table.rowcount_pos.mpr ⟨row, Table.mem_of_find?_eq_some hrow, hmatch⟩
  have hone : p.store.cursors.rowcount (SyncCursor.isHeldBy fleet.key (fleet.token w)) ≤ 1 :=
    Table.rowcount_le_one fun r hr => (isHeldBy_iff.mp hr).1
  have hcount : p.store.cursors.rowcount (SyncCursor.isHeldBy fleet.key (fleet.token w)) = 1 := by
    omega
  have hrequired : ∀ (text : NormalizedText) (message : String),
      required text.val message = .ok text := by
    intro text message
    rw [required_eq_ok]
    exact normalizeClientId_val text
  simp only [Fleet.key] at hcount
  simp [finishPollLease, finishRequest, hrequired, hstatus, hparsed, parse_isoformat, hinstance,
    hregistered, hcount, ok_bind]

variable {previousCursor recordedAt now}

theorem Finished.holds {request : FinishRequest} {s' : Store} {key : CursorKey}
    {token : NormalizedText} {parsed : CursorStatus}
    (h : Finished p.store s' request key token parsed)
    (hrequest : request = finishRequest fleet.calendar (fleet.token w) previousCursor summary
      recordedAt now) (hinstance : summary.connectorInstanceId = fleet.instanceId) :
    key = fleet.key ∧ fleet.Holds p w := by
  have hkey := h.key_eq
  have htoken := h.token_eq
  simp only [hrequest, finishRequest, hinstance, cursorKey?, normalizeClientId_val,
    Option.bind_some, Option.map_some, Option.some.injEq] at hkey htoken
  refine ⟨hkey.symm, ?_⟩
  obtain ⟨row, hrow, hsyncing, hlease⟩ := h.held
  rw [← hkey] at hrow
  rw [← htoken] at hlease
  exact ⟨row, hrow, hsyncing, hlease⟩

variable [DecidableEq W]

theorem finishSweep_ended (hinstance : summary.connectorInstanceId = fleet.instanceId)
    (hstatus : summary.status = status.toPollStatus) (hholds : fleet.Holds p w)
    (hregistered : fleet.instanceId ∈ p.store.instances) :
    Ended fleet p (fleet.finishSweep p w previousCursor summary recordedAt now)
      (writtenTime fleet.calendar previousCursor status recordedAt) := by
  obtain ⟨s', hfinish⟩ :=
    finishPollLease_of_holds previousCursor recordedAt now hinstance hstatus hholds hregistered
  have hstore : (fleet.finishSweep p w previousCursor summary recordedAt now).store = s' := by
    simp [Fleet.finishSweep, finish, hfinish, Fleet.enter]
  refine ⟨?_, ?_⟩
  · rcases finishPollLease_eq_ok hfinish with ⟨hfalse, -⟩ | ⟨-, key, token, parsed, h⟩
    · cases hfalse
    · have hkey := (h.holds rfl hinstance).1
      obtain ⟨row, hrow, hsyncing, -⟩ := hholds
      have hafter := h.find? fleet.key
      rw [if_pos hkey.symm, show p.store.cursors.find? fleet.key = some row from hrow,
        Option.map_some, ← Fleet.cursor?, ← hstore] at hafter
      refine ⟨_, hafter, ?_, lastSyncedAt_finishRequest hstatus⟩
      have hterminal := h.terminal
      intro hsame
      rw [show parsed = CursorStatus.syncing from hsame] at hterminal
      cases hterminal
  · rw [hstore]
    exact finishPollLease_instances hfinish

theorem finishSweep_synced (hinstance : summary.connectorInstanceId = fleet.instanceId)
    (hstatus : summary.status = status.toPollStatus) (hholds : fleet.Holds p w)
    (hregistered : fleet.instanceId ∈ p.store.instances) :
    (fleet.finishSweep p w previousCursor summary recordedAt now).synced = p.synced ++
      if status = .idle then [fleet.calendar.isoformat recordedAt] else [] := by
  obtain ⟨s', hfinish⟩ :=
    finishPollLease_of_holds previousCursor recordedAt now hinstance hstatus hholds hregistered
  simp only [Fleet.finishSweep, Fleet.recorded, hfinish, hstatus, toPollStatus_eq_idle]

theorem finishSweep_of_not_holds (hinstance : summary.connectorInstanceId = fleet.instanceId)
    (hholds : ¬ fleet.Holds p w) :
    Untouched fleet p (fleet.finishSweep p w previousCursor summary recordedAt now) := by
  cases hfinish : finishPollLease fleet.calendar p.store (finishRequest fleet.calendar
      (fleet.token w) previousCursor summary recordedAt now) with
  | error e =>
      constructor <;> simp [Fleet.finishSweep, Fleet.recorded, finish, hfinish, Fleet.enter]
  | ok result =>
      obtain ⟨finished, s'⟩ := result
      rcases finishPollLease_eq_ok hfinish with ⟨rfl, hsame⟩ | ⟨-, key, token, parsed, h⟩
      · have hstore :
            (fleet.finishSweep p w previousCursor summary recordedAt now).store = s' := by
          simp only [Fleet.finishSweep, finish, hfinish, Fleet.enter]
          split <;> rfl
        refine ⟨?_, ?_, ?_⟩
        · rw [Fleet.cursor?, hstore, hsame, ← Fleet.cursor?]
        · rw [hstore]
          exact finishPollLease_instances hfinish
        · simp [Fleet.finishSweep, Fleet.recorded, hfinish]
      · exact absurd (h.holds rfl hinstance).2 hholds

theorem finishSweep_phases : (fleet.finishSweep p w previousCursor summary recordedAt now).phases =
    Function.update p.phases w (.done (finish fleet.calendar p.store (fleet.token w)
      previousCursor summary recordedAt now).1) := rfl

end Finish

/-! ## Claims -/

section Claim

variable [DecidableEq W]

/-- The row after a claim that is granted. -/
structure Granted (fleet : Fleet W) (p p' : Pollers W) (w : W)
    (previousCursor : Option SyncCursor) : Prop where
  cursor : ∃ row, fleet.cursor? p'.store = some row ∧ row.leaseToken = some (fleet.token w) ∧
    row.lastSyncedAt = fleet.syncedAt p
  instances : p'.store.instances = p.store.instances
  registered : fleet.instanceId ∈ p.store.instances
  synced : p'.synced = p.synced
  phases : p'.phases = Function.update p.phases w (.sweeping previousCursor (fleet.syncedAt p))

theorem claimPollLease_instances {request : ClaimRequest} {result : PollLeaseClaimResult}
    {s' : Store} (h : claimPollLease cal s request = .ok (result, s')) :
    s'.instances = s.instances ∧ (result = .granted →
      ∀ i, normalizeClientId (some request.connectorInstanceId) = some i → i ∈ s.instances) := by
  simp only [claimPollLease, bind_eq_ok, required_eq_ok] at h
  obtain ⟨token, -, instanceId, hinstance, cursorType, -, now, -, expiresAt, -, h⟩ := h
  split at h
  · cases h
    exact ⟨rfl, fun hgranted => by cases hgranted⟩
  · rename_i hregistered
    have hmem : instanceId ∈ s.instances := by simpa using hregistered
    split at h
    · cases h
      exact ⟨rfl, fun hgranted => by cases hgranted⟩
    · cases h
      refine ⟨rfl, ?_⟩
      intro _ i hi
      rw [hinstance, Option.some.injEq] at hi
      rwa [← hi]

theorem claim_cases (fleet : Fleet W) (p : Pollers W) (w : W)
    (previousCursor : Option SyncCursor) (ttlSeconds : Option ℚ) (now : Instant) :
    Granted fleet p (fleet.claim p w previousCursor ttlSeconds now) w previousCursor ∨
      (Untouched fleet p (fleet.claim p w previousCursor ttlSeconds now) ∧ ∃ summary,
        (fleet.claim p w previousCursor ttlSeconds now).phases =
          Function.update p.phases w (.done summary)) := by
  unfold Fleet.claim
  split
  · exact .inr ⟨⟨rfl, rfl, rfl⟩, _, rfl⟩
  · rename_i s' hclaim
    left
    obtain ⟨hinstances, hregistered⟩ := claimPollLease_instances hclaim
    rcases claimPollLease_eq_ok hclaim with ⟨hnot, -⟩ | ⟨-, key, token, expiresAt, now, h⟩
    · exact absurd rfl hnot
    · have hkey := h.key_eq
      have htoken := h.token_eq
      simp only [cursorKey?, normalizeClientId_val, Option.bind_some, Option.map_some,
        Option.some.injEq] at hkey htoken
      refine ⟨?_, hinstances, hregistered rfl _ (normalizeClientId_val _), rfl, rfl⟩
      have hafter := h.find? fleet.key
      rw [if_pos (show fleet.key = key from hkey), ← Fleet.cursor?] at hafter
      refine ⟨_, hafter, ?_⟩
      rw [htoken, Fleet.syncedAt, Fleet.cursor?]
      cases p.store.cursors.find? fleet.key with
      | none => exact ⟨rfl, rfl⟩
      | some row => exact ⟨rfl, rfl⟩
  · rename_i s' hclaim
    obtain ⟨hinstances, -⟩ := claimPollLease_instances hclaim
    rcases claimPollLease_eq_ok hclaim with ⟨-, rfl⟩ | ⟨hgranted, -⟩
    · exact .inr ⟨⟨rfl, rfl, rfl⟩, _, rfl⟩
    · cases hgranted
  · rename_i s' hclaim
    rcases claimPollLease_eq_ok hclaim with ⟨-, rfl⟩ | ⟨hgranted, -⟩
    · exact .inr ⟨⟨rfl, rfl, rfl⟩, _, rfl⟩
    · cases hgranted

end Claim

/-! ## Steps -/

theorem Untouched.syncedAt (h : Untouched fleet p p') : fleet.syncedAt p' = fleet.syncedAt p := by
  rw [Fleet.syncedAt, h.cursor, ← Fleet.syncedAt]

theorem Untouched.holds (h : Untouched fleet p p') (hholds : fleet.Holds p' w) :
    fleet.Holds p w := by
  rwa [Fleet.Holds, h.cursor] at hholds

theorem Untouched.latest_iff (h : Untouched fleet p p') : fleet.Latest p' ↔ fleet.Latest p := by
  rw [Fleet.Latest, Fleet.Latest, h.synced, h.syncedAt]

theorem Untouched.leased (h : Untouched fleet p p') (hp : fleet.Leased p)
    (hphases : ∀ w previousCursor granted, p'.phases w = .sweeping previousCursor granted →
      p.phases w = .sweeping previousCursor granted) : fleet.Leased p' where
  granted w previousCursor granted hholds hphase := by
    rw [h.syncedAt]
    exact hp.granted w previousCursor granted (h.holds hholds) (hphases _ _ _ hphase)
  registered w hholds := by
    rw [h.instances]
    exact hp.registered w (h.holds hholds)

theorem Ended.not_holds {written : Option NormalizedText} (h : Ended fleet p p' written) :
    ¬ fleet.Holds p' w := by
  rintro ⟨row, hrow, hsyncing, -⟩
  obtain ⟨row', hrow', hended, -⟩ := h.cursor
  rw [hrow', Option.some.injEq] at hrow
  rw [hrow] at hended
  exact hended hsyncing

theorem Ended.leased {written : Option NormalizedText} (h : Ended fleet p p' written) :
    fleet.Leased p' :=
  ⟨fun _ _ _ hholds => absurd hholds h.not_holds, fun _ hholds => absurd hholds h.not_holds⟩

theorem Ended.syncedAt {written : Option NormalizedText} (h : Ended fleet p p' written) :
    fleet.syncedAt p' = written := by
  obtain ⟨row, hrow, -, hwritten⟩ := h.cursor
  rw [Fleet.syncedAt, hrow]
  exact hwritten

section Steps

variable [DecidableEq W]

theorem Granted.syncedAt
    (h : Granted fleet p p' w previousCursor) : fleet.syncedAt p' = fleet.syncedAt p := by
  obtain ⟨row, hrow, -, hsynced⟩ := h.cursor
  rw [Fleet.syncedAt, hrow]
  exact hsynced

/-- A claim that is granted lets its run in and everybody else out. -/
theorem Granted.leased
    (h : Granted fleet p p' w previousCursor) : fleet.Leased p' where
  granted w' previousCursor' granted hholds hphase := by
    obtain ⟨row, hrow, -, htoken⟩ := hholds
    obtain ⟨row', hrow', htoken', -⟩ := h.cursor
    rw [hrow', Option.some.injEq] at hrow
    rw [hrow, htoken, Option.some.injEq] at htoken'
    rw [h.phases, fleet.distinct htoken', Function.update_self] at hphase
    cases hphase
    exact h.syncedAt.symm
  registered _ _ := by
    rw [h.instances]
    exact h.registered

/-- A run that is not sweeping afterwards changes nobody's sweep. -/
theorem sweeping_of_update {phases : W → Phase} {phase : Phase} {w' : W}
    {granted : Option NormalizedText}
    (hphase : ∀ previousCursor granted, phase ≠ .sweeping previousCursor granted)
    (h : Function.update phases w phase w' = .sweeping previousCursor granted) :
    phases w' = .sweeping previousCursor granted := by
  by_cases hsame : w' = w
  · rw [hsame, Function.update_self] at h
    exact absurd h (hphase _ _)
  · rwa [Function.update_of_ne hsame] at h

theorem step_leased (p : Pollers W) (l : PollStep W) (hp : fleet.Leased p) :
    fleet.Leased (fleet.step p l) := by
  cases l with
  | read w raises =>
      simp only [Fleet.step]
      split
      · exact Untouched.leased (p := p) ⟨rfl, rfl, rfl⟩ hp fun _ _ _ =>
          sweeping_of_update (by simp)
      · exact hp
  | claim w ttlSeconds now =>
      simp only [Fleet.step]
      split
      · rename_i previousCursor _
        rcases claim_cases fleet p w previousCursor ttlSeconds now with
          hgranted | ⟨huntouched, summary, hphases⟩
        · exact hgranted.leased
        · refine huntouched.leased hp ?_
          rw [hphases]
          exact fun _ _ _ => sweeping_of_update (by simp)
      · exact hp
  | finish w pagesFetched written quarantined status reason recordedAt now =>
      simp only [Fleet.step]
      split
      · by_cases hholds : fleet.Holds p w
        · exact Ended.leased (finishSweep_ended rfl rfl hholds (hp.registered w hholds))
        · refine (finishSweep_of_not_holds rfl hholds).leased hp ?_
          rw [finishSweep_phases]
          exact fun _ _ _ => sweeping_of_update (by simp)
      · exact hp

/-- A finish leaves the cursor with the time of the latest idle sweep exactly if it is fresh. -/
theorem finish_latest_iff {pagesFetched written quarantined : ℕ} {status : SweepStatus}
    {reason : String} {recordedAt now : Instant} (hp : fleet.Leased p) (hlatest : fleet.Latest p) :
    fleet.Latest (fleet.step p
        (.finish w pagesFetched written quarantined status reason recordedAt now)) ↔
      fleet.Fresh p (.finish w pagesFetched written quarantined status reason recordedAt now) := by
  simp only [Fleet.step, Fleet.Fresh]
  split
  · rename_i previousCursor granted hphase
    by_cases hholds : fleet.Holds p w
    · have hregistered := hp.registered w hholds
      have hgranted := hp.granted w previousCursor granted hholds hphase
      by_cases hidle : status = .idle
      · refine iff_of_true ?_ (fun _ _ _ hnot => absurd hidle hnot)
        intro v hv
        rw [finishSweep_synced rfl rfl hholds hregistered, if_pos hidle,
          List.getLast?_concat] at hv
        rw [(finishSweep_ended rfl rfl hholds hregistered).syncedAt, writtenTime, if_pos hidle, hv]
      · rw [Fleet.Latest, finishSweep_synced rfl rfl hholds hregistered, if_neg hidle,
          List.append_nil, (finishSweep_ended rfl rfl hholds hregistered).syncedAt, writtenTime,
          if_neg hidle]
        constructor
        · intro hkept previousCursor' granted' hsame _ _ hne
          rw [hphase] at hsame
          cases hsame
          have hlast := List.getLast?_eq_some_getLast hne
          rw [hkept _ hlast, hgranted, hlatest _ hlast]
        · intro hfresh v hv
          have hne : p.synced ≠ [] := by
            intro hempty
            rw [hempty] at hv
            cases hv
          rw [hfresh previousCursor granted hphase hidle hholds hne, hgranted, hlatest v hv]
    · rw [(finishSweep_of_not_holds rfl hholds).latest_iff]
      exact iff_of_true hlatest fun _ _ _ _ h => absurd h hholds
  · rename_i hphase
    refine iff_of_true hlatest ?_
    intro previousCursor granted h
    exact absurd h (hphase previousCursor granted)

theorem step_latest_iff (p : Pollers W) (l : PollStep W) (hp : fleet.Leased p)
    (hlatest : fleet.Latest p) : fleet.Latest (fleet.step p l) ↔ fleet.Fresh p l := by
  cases l with
  | read w raises =>
      refine iff_of_true ?_ trivial
      simp only [Fleet.step]
      split
      · exact hlatest
      · exact hlatest
  | claim w ttlSeconds now =>
      refine iff_of_true ?_ trivial
      simp only [Fleet.step]
      split
      · rename_i previousCursor _
        rcases claim_cases fleet p w previousCursor ttlSeconds now with
          hgranted | ⟨huntouched, -⟩
        · intro v hv
          rw [hgranted.synced] at hv
          rw [hgranted.syncedAt, hlatest v hv]
        · exact huntouched.latest_iff.mpr hlatest
      · exact hlatest
  | finish w pagesFetched written quarantined status reason recordedAt now =>
      exact finish_latest_iff hp hlatest

end Steps

/-! ## Runs -/

/-- The clock reading that a finish may record. -/
def PollStep.recordedAt? : PollStep W → Option Instant
  | .finish _ _ _ _ _ _ recordedAt _ => some recordedAt
  | _ => none

theorem recordedAt?_sublist (ls : List (PollStep W)) :
    (ls.filterMap PollStep.recordedAt?).Sublist (ls.flatMap PollStep.clock) := by
  induction ls with
  | nil => exact .slnil
  | cons l ls ih =>
      cases l with
      | read w raises => exact ih
      | claim w ttlSeconds now => exact ih.cons now
      | finish w pagesFetched written quarantined status reason recordedAt now =>
          exact (ih.cons now).cons_cons recordedAt

theorem recorded_sublist {summary : PollSummary}
    {recordedAt now : Instant} :
    (fleet.recorded p w previousCursor summary recordedAt now).Sublist
      [fleet.calendar.isoformat recordedAt] := by
  unfold Fleet.recorded
  split
  · split
    · exact List.Sublist.refl _
    · exact List.nil_sublist _
  · exact List.nil_sublist _

variable [DecidableEq W]

/-- A step records at most the one time at which it reads the clock for it. -/
theorem step_synced (fleet : Fleet W) (p : Pollers W) (l : PollStep W) : ∃ times,
    (fleet.step p l).synced = p.synced ++ times ∧
      times.Sublist (l.recordedAt?.toList.map fleet.calendar.isoformat) := by
  cases l with
  | read w raises =>
      refine ⟨[], ?_, List.nil_sublist _⟩
      simp only [Fleet.step, List.append_nil]
      split
      · rfl
      · rfl
  | claim w ttlSeconds now =>
      refine ⟨[], ?_, List.nil_sublist _⟩
      simp only [Fleet.step, List.append_nil]
      split
      · rename_i previousCursor _
        rcases claim_cases fleet p w previousCursor ttlSeconds now with
          hgranted | ⟨huntouched, -⟩
        · exact hgranted.synced
        · exact huntouched.synced
      · rfl
  | finish w pagesFetched written quarantined status reason recordedAt now =>
      simp only [Fleet.step]
      split
      · exact ⟨_, rfl, recorded_sublist⟩
      · exact ⟨[], (List.append_nil _).symm, List.nil_sublist _⟩

theorem run_synced_sublist (fleet : Fleet W) (ls : List (PollStep W)) :
    (fleet.machine.run ls).synced.Sublist
      ((ls.filterMap PollStep.recordedAt?).map fleet.calendar.isoformat) := by
  induction ls using List.reverseRecOn with
  | nil => exact .slnil
  | append_singleton ls l ih =>
      obtain ⟨times, hsynced, hsub⟩ := step_synced fleet (fleet.machine.run ls) l
      rw [Machine.run_concat, List.filterMap_append, List.map_append]
      rw [show (fleet.machine.step (fleet.machine.run ls) l).synced = _ from hsynced]
      refine ih.append ?_
      cases hclock : l.recordedAt? with
      | none => simpa [hclock] using hsub
      | some t => simpa [hclock] using hsub

/-- The cursor has the time of the latest idle sweep, and these times never go back. -/
structure Fleet.Kept (fleet : Fleet W) (p : Pollers W) : Prop where
  latest : fleet.Latest p
  forward : p.synced.Pairwise fun v v' => ∃ t t', fleet.calendar.fromisoformat v.val = some t ∧
    fleet.calendar.fromisoformat v'.val = some t' ∧ t ≤ t'

theorem run_forward (fleet : Fleet W) (ls : List (PollStep W))
    (hclock : (ls.flatMap PollStep.clock).Pairwise (· ≤ ·)) :
    (fleet.machine.run ls).synced.Pairwise fun v v' => ∃ t t',
      fleet.calendar.fromisoformat v.val = some t ∧
        fleet.calendar.fromisoformat v'.val = some t' ∧ t ≤ t' := by
  have htimes := hclock.sublist (recordedAt?_sublist ls)
  refine List.Pairwise.sublist (run_synced_sublist fleet ls) ?_
  rw [List.pairwise_map]
  refine htimes.imp ?_
  intro t t' hle
  exact ⟨t, t', fleet.calendar.fromisoformat_isoformat t,
    fleet.calendar.fromisoformat_isoformat t', hle⟩

/-- Under clocks that never run backwards, the sync time is kept in all states of a run exactly if
no sweep finishes degraded or failed with a time that was overtaken before it was granted the
lease. -/
theorem kept_run_iff (fleet : Fleet W) (ls : List (PollStep W))
    (hclock : (ls.flatMap PollStep.clock).Pairwise (· ≤ ·)) :
    (∀ ks, ks <+: ls → fleet.Kept (fleet.machine.run ks)) ↔
      fleet.machine.Guarded fleet.Fresh ls := by
  have hleased : fleet.Leased fleet.machine.init := by
    have hfree : ∀ w, ¬ fleet.Holds fleet.machine.init w := by
      rintro w ⟨row, hrow, -, htoken⟩
      rw [fleet.unleased row (Table.mem_of_find?_eq_some hrow)] at htoken
      cases htoken
    exact ⟨fun w _ _ h => absurd h (hfree w), fun w h => absurd h (hfree w)⟩
  have hlatest : fleet.Latest fleet.machine.init := by
    intro v hv
    cases hv
  have hguarded := Machine.forall_prefix_iff_guarded (m := fleet.machine) hlatest hleased
    (fun p l => step_leased p l) (fun p l => step_latest_iff p l) ls
  rw [← hguarded]
  constructor
  · intro h ks hks
    exact (h ks hks).latest
  · intro h ks hks
    refine ⟨h ks hks, run_forward fleet ks ?_⟩
    obtain ⟨ms, rfl⟩ := hks
    rw [List.flatMap_append] at hclock
    exact (List.pairwise_append.mp hclock).1

/-- Two runs on a connector instance that was never polled. -/
def psaFleet : Fleet Bool where
  calendar := morningCalendar
  instanceId := psa
  token w := if w then secondWorker else firstWorker
  distinct := by
    intro v w
    cases v <;> cases w <;> decide
  store := ⟨[psa], .empty⟩
  unleased := by simp

/-- The second run reads the cursor before the first one is done with it. -/
def overtakenRun : List (PollStep Bool) :=
  [.read true false, .read false false, .claim false (some 300) (Instant.morning 0),
    .finish false 1 0 0 .idle "empty_page" (Instant.morning 1) (Instant.morning 1),
    .claim true (some 300) (Instant.morning 5),
    .finish true 0 0 0 .failed "factory_error" (Instant.morning 10) (Instant.morning 10)]

theorem overtakenRun_forgets : (psaFleet.machine.run overtakenRun).synced ≠ [] ∧
    psaFleet.syncedAt (psaFleet.machine.run overtakenRun) = none := by decide +kernel

theorem not_kept : ¬ ∀ (fleet : Fleet Bool) (ls : List (PollStep Bool)),
    (ls.flatMap PollStep.clock).Pairwise (· ≤ ·) → fleet.Kept (fleet.machine.run ls) := by
  intro h
  obtain ⟨hsynced, hnone⟩ := overtakenRun_forgets
  have hlatest := (h psaFleet overtakenRun (by decide)).latest _
    (List.getLast?_eq_some_getLast hsynced)
  rw [hnone] at hlatest
  cases hlatest

theorem kept_run_iff_overtakenRun : ¬ psaFleet.machine.Guarded psaFleet.Fresh overtakenRun := by
  rw [← kept_run_iff psaFleet overtakenRun (by decide)]
  intro h
  obtain ⟨hsynced, hnone⟩ := overtakenRun_forgets
  have hlatest := (h overtakenRun (List.prefix_refl _)).latest _
    (List.getLast?_eq_some_getLast hsynced)
  rw [hnone] at hlatest
  cases hlatest

end WaitLocalAgent.Polling
