import WaitLocalAgent.Model.ExecutionRecords

/-! # One record for a run

Workers that create a record only while there is none, and that write in the order of their calls,
leave one record of each run, with the status of its latest call. -/

namespace WaitLocalAgent.Observability

open Foundation

variable {rt : Runtime} {s : Store} {call : RecordCall}

/-! ## What a worker does -/

/-- A worker performs these actions up to its write of the record. -/
def RecorderAction.precedesRecord : RecorderAction → Bool
  | .findExecutionRun .. | .updateExecutionRun .. | .createExecutionRun .. => true
  | _ => false

inductive Mode where
  | looking
  | found (id : ℕ)
  | missed
  | wrote
  | failed

def Mode.Ended (m : Mode) : Prop := m = .wrote ∨ m = .failed

/-- A worker looks for the record of its run, and updates what it has found or creates one. -/
def protocol (call : RecordCall) :
    Program.Protocol Mode RecorderAction RecorderAction.Answer where
  allowed
    | .looking, .findExecutionRun runKind sourceRunId => (runKind, some sourceRunId) = call.run
    | .looking, .createExecutionRun c _ => c = call
    | .missed, .createExecutionRun c _ => c = call
    | .found id, .updateExecutionRun j status _ => j = id ∧ status = call.status
    | .wrote, a => a.precedesRecord = false
    | _, _ => False
  move
    | _, .findExecutionRun .., r =>
        match r with
        | .ok (some existing) => .found existing.id
        | .ok none => .missed
        | .error _ => .failed
    | _, .updateExecutionRun .., r | _, .createExecutionRun .., r =>
        match r with
        | .ok _ => .wrote
        | .error _ => .failed
    | m, _, _ => m

variable {a : RecorderAction}

theorem move_wrote (ha : a.precedesRecord = false) (r : a.Answer) :
    (protocol call).move .wrote a r = .wrote := by
  cases a <;> first | rfl | cases ha

section Follows

variable {α : Type} {m : Mode}

abbrev Follows (call : RecordCall) (m : Mode) (p : Recording α) : Prop :=
  Program.Follows (protocol call) (fun m _ => m.Ended) m p.run

theorem follows_act {f : a.Value → Recording α}
    (ha : (protocol call).allowed m a)
    (hok : ∀ x, Follows call ((protocol call).move m a (.ok x)) (f x))
    (herror : ∀ e, ((protocol call).move m a (.error e)).Ended) :
    Follows call m (act a >>= f) := by
  refine ⟨ha, ?_⟩
  intro r
  cases r with
  | ok x => exact hok x
  | error e => exact herror e

/-- After its write of the record, a worker may do anything else. -/
theorem follows_act_wrote {f : a.Value → Recording α}
    (ha : a.precedesRecord = false) (hok : ∀ x, Follows call .wrote (f x)) :
    Follows call .wrote (act a >>= f) := by
  refine follows_act ha ?_ ?_
  · intro x
    rw [move_wrote ha]
    exact hok x
  · intro e
    rw [move_wrote ha]
    exact .inl rfl

theorem follows_persisted {id : ℕ} {f : ExecutionRun → Recording α}
    (h : ∀ run, Follows call .wrote (f run)) : Follows call .wrote (persisted id >>= f) := by
  rw [persisted, bind_assoc]
  refine follows_act_wrote rfl ?_
  intro found
  cases found with
  | none => exact .inl rfl
  | some run => exact h run

theorem follows_recordSteps {id : ℕ} {now : String} {ordinal : ℕ} {steps : List StepRecord}
    {f : Unit → Recording α} (h : ∀ u, Follows call .wrote (f u)) :
    Follows call .wrote (recordSteps id now ordinal steps >>= f) := by
  induction steps generalizing ordinal with
  | nil =>
      rw [recordSteps, pure_bind]
      exact h ()
  | cons step steps ih =>
      rw [recordSteps, bind_assoc]
      exact follows_act_wrote rfl fun _ => ih

theorem follows_recordArtifact {id : ℕ} {artifact : ArtifactRecord} {f : Unit → Recording α}
    (h : ∀ u, Follows call .wrote (f u)) :
    Follows call .wrote (recordArtifact id artifact >>= f) := by
  unfold recordArtifact
  split
  · rw [pure_bind]
    exact h ()
  · simp only [bind_assoc]
    refine follows_act_wrote rfl fun _ => follows_act_wrote rfl fun id => follows_act_wrote rfl ?_
    intro found
    cases found with
    | none => exact .inl rfl
    | some stored => exact h ()

theorem follows_recordArtifacts {id : ℕ} {artifacts : List ArtifactRecord}
    {f : Unit → Recording α} (h : ∀ u, Follows call .wrote (f u)) :
    Follows call .wrote (recordArtifacts id artifacts >>= f) := by
  induction artifacts with
  | nil =>
      rw [recordArtifacts, pure_bind]
      exact h ()
  | cons artifact artifacts ih =>
      rw [recordArtifacts, bind_assoc]
      exact follows_recordArtifact fun _ => ih

theorem follows_createExecutionRun {metadata : Option Approvals.JsonObject}
    {f : ExecutionRun → Recording α} (hm : m = .looking ∨ m = .missed)
    (h : ∀ run, Follows call .wrote (f run)) :
    Follows call m (createExecutionRun call metadata >>= f) := by
  rw [createExecutionRun, bind_assoc]
  rcases hm with rfl | rfl
  · exact follows_act rfl (fun _ => follows_persisted h) fun _ => .inr rfl
  · exact follows_act rfl (fun _ => follows_persisted h) fun _ => .inr rfl

theorem follows_updateExecutionRun {id : ℕ} {finishedAt : String}
    {f : ExecutionRun → Recording α} (h : ∀ run, Follows call .wrote (f run)) :
    Follows call (.found id) (updateExecutionRun id call.status finishedAt >>= f) := by
  rw [updateExecutionRun, bind_assoc]
  exact follows_act ⟨rfl, rfl⟩ (fun _ => follows_persisted h) fun _ => .inr rfl

theorem follows_recordRun_none {f : ℕ × ℕ → Recording α} (hm : m = .looking ∨ m = .missed)
    (h : ∀ x, Follows call .wrote (f x)) : Follows call m (recordRun rt call none >>= f) := by
  rw [recordRun, bind_assoc]
  exact follows_createExecutionRun hm fun run => h _

theorem follows_recordRun_some {existing : ExecutionRun} {f : ℕ × ℕ → Recording α}
    (h : ∀ x, Follows call .wrote (f x)) :
    Follows call (.found existing.id) (recordRun rt call (some existing) >>= f) := by
  simp only [recordRun, bind_assoc]
  exact follows_updateExecutionRun fun run => follows_act_wrote rfl fun ordinal => h _

theorem recordExecution_follows (rt : Runtime) (call : RecordCall) :
    Follows call .looking (recordExecution rt call) := by
  have hrest : ∀ x : ℕ × ℕ, Follows call .wrote (do
      recordSteps x.1 call.now x.2 call.steps
      recordArtifacts x.1 call.artifacts
      return x.1) :=
    fun x => follows_recordSteps fun _ => follows_recordArtifacts fun _ => .inl rfl
  rw [recordExecution, findExisting]
  cases hsource : call.sourceRunId with
  | none =>
      rw [pure_bind]
      exact follows_recordRun_none (.inl rfl) hrest
  | some sourceRunId =>
      refine follows_act (by simp [protocol, RecordCall.run, hsource]) ?_ fun _ => .inr rfl
      intro found
      cases found with
      | none => exact follows_recordRun_none (.inr rfl) hrest
      | some existing => exact follows_recordRun_some hrest

end Follows

/-! ## Workers in order -/

def RecorderAction.writesRecord : RecorderAction → Bool
  | .updateExecutionRun .. | .createExecutionRun .. => true
  | _ => false

def RecorderAction.createsRecord : RecorderAction → Bool
  | .createExecutionRun .. => true
  | _ => false

/-- A worker creates a record only while its run has none, and writes one only before all workers
of later calls for its run. If it is refused its record, there is a later call for the run. -/
structure InOrder (c : Recorder) (i : ℕ) (call : RecordCall) (a : RecorderAction)
    (refusal : Option RecordError) : Prop where
  refused : refusal.isSome → ∃ v ∈ c.later i, v.1.run = call.run
  first : refusal = none → a.writesRecord → ∀ v ∈ c.later i, v.1.run = call.run →
    v.2.head?.any RecorderAction.precedesRecord
  unrecorded : refusal = none → a.createsRecord → ∀ r ∈ c.shared.runs.table.rows, r.run ≠ call.run

def RecordsInOrder (c : Recorder) : RecorderStep → Prop
  | .start _ => True
  | .act i refusal => ∀ w ∈ c.workers[i]?, ∀ a ∈ w.2.head?, a.precedesRecord →
      InOrder c i w.1 a refusal

/-- Every run has at most one record, which is that of the last call whose worker has written. -/
structure Recorded (calls : ℕ → Option RecordCall) (runs : AutoTable ExecutionRun.id)
    (modes : ℕ → Mode) : Prop where
  unique : ∀ r ∈ runs, ∀ q ∈ runs, r.run = q.run → r = q
  latest : ∀ r ∈ runs, ∃ i call, calls i = some call ∧ modes i = .wrote ∧ call.run = r.run ∧
    call.status = r.status ∧
      ∀ j later, i < j → calls j = some later → later.run = r.run → modes j ≠ .wrote
  wrote : ∀ i call, calls i = some call → modes i = .wrote → ∃ r ∈ runs, r.run = call.run
  found : ∀ i call id, calls i = some call → modes i = .found id →
    ∃ r ∈ runs, r.id = id ∧ r.run = call.run
  failed : ∀ i call, calls i = some call → modes i = .failed →
    ∃ j later, i < j ∧ calls j = some later ∧ later.run = call.run

namespace Recorded

variable {calls : ℕ → Option RecordCall} {runs runs' : AutoTable ExecutionRun.id}
  {modes : ℕ → Mode} {i : ℕ}

theorem start {n : ℕ} (h : Recorded calls runs modes) (hn : calls n = none)
    (hidle : modes n = .looking) : Recorded (Function.update calls n (some call)) runs modes := by
  have hold : ∀ j k, calls j = some k → Function.update calls n (some call) j = some k := by
    intro j k hj
    rw [Function.update_of_ne, hj]
    rintro rfl
    rw [hn] at hj
    cases hj
  have hnew : ∀ j k, Function.update calls n (some call) j = some k → modes j ≠ .looking →
      calls j = some k := by
    intro j k hj hmode
    rwa [Function.update_of_ne] at hj
    rintro rfl
    exact hmode hidle
  refine ⟨h.unique, ?_, ?_, ?_, ?_⟩
  · intro r hr
    obtain ⟨i, k, hk, hwrote, hrun, hstatus, hlast⟩ := h.latest r hr
    refine ⟨i, k, hold i k hk, hwrote, hrun, hstatus, ?_⟩
    intro j later hij hj hlater hmode
    exact hlast j later hij (hnew j later hj (by simp [hmode])) hlater hmode
  · intro i k hk hmode
    exact h.wrote i k (hnew i k hk (by simp [hmode])) hmode
  · intro i k id hk hmode
    exact h.found i k id (hnew i k hk (by simp [hmode])) hmode
  · intro i k hk hmode
    obtain ⟨j, later, hij, hj, hrun⟩ := h.failed i k (hnew i k hk (by simp [hmode])) hmode
    exact ⟨j, later, hij, hold j later hj, hrun⟩

/-- A worker that does not write changes its own mode alone. -/
theorem turn {m : Mode} (h : Recorded calls runs modes) (hi : calls i = some call)
    (hbefore : modes i ≠ .wrote) (hwrote : m ≠ .wrote)
    (hfound : ∀ id, m = .found id → ∃ r ∈ runs, r.id = id ∧ r.run = call.run)
    (hfailed : m = .failed → ∃ j later, i < j ∧ calls j = some later ∧ later.run = call.run) :
    Recorded calls runs (Function.update modes i m) := by
  have hmodes : ∀ j, Function.update modes i m j = .wrote ↔ modes j = .wrote := by
    intro j
    by_cases hj : j = i
    · subst hj
      simp [hbefore, hwrote]
    · rw [Function.update_of_ne hj]
  refine ⟨h.unique, ?_, ?_, ?_, ?_⟩
  · intro r hr
    obtain ⟨j, k, hk, hmode, hrun, hstatus, hlast⟩ := h.latest r hr
    exact ⟨j, k, hk, (hmodes j).mpr hmode, hrun, hstatus,
      fun j' later hlt hj' hlater hmode' => hlast j' later hlt hj' hlater ((hmodes j').mp hmode')⟩
  · intro j k hk hmode
    exact h.wrote j k hk ((hmodes j).mp hmode)
  · intro j k id hk hmode
    by_cases hj : j = i
    · subst hj
      cases hi.symm.trans hk
      rw [Function.update_self] at hmode
      exact hfound id hmode
    · rw [Function.update_of_ne hj] at hmode
      exact h.found j k id hk hmode
  · intro j k hk hmode
    by_cases hj : j = i
    · subst hj
      cases hi.symm.trans hk
      rw [Function.update_self] at hmode
      exact hfailed hmode
    · rw [Function.update_of_ne hj] at hmode
      exact h.failed j k hk hmode

/-- A worker writes the record of its run, before all workers of later calls for it. -/
theorem write {d : ExecutionRun} (h : Recorded calls runs modes) (hi : calls i = some call)
    (hruns : ∀ q, q ∈ runs' ↔ q = d ∨ q ∈ runs ∧ q.run ≠ call.run)
    (hrun : d.run = call.run) (hstatus : d.status = call.status)
    (hid : ∀ q ∈ runs, q.run = call.run → q.id = d.id)
    (hwait : ∀ j later, i < j → calls j = some later → later.run = call.run → modes j ≠ .wrote) :
    Recorded calls runs' (Function.update modes i .wrote) := by
  have hrecord : d ∈ runs' := (hruns d).mpr (.inl rfl)
  -- a row of another run is still there
  have hkept : ∀ q ∈ runs, ∃ q' ∈ runs', q'.run = q.run ∧ q'.id = q.id := by
    intro q hq
    by_cases hqrun : q.run = call.run
    · exact ⟨d, hrecord, hrun.trans hqrun.symm, (hid q hq hqrun).symm⟩
    · exact ⟨q, (hruns q).mpr (.inr ⟨hq, hqrun⟩), rfl, rfl⟩
  refine ⟨?_, ?_, ?_, ?_, ?_⟩
  · intro r hr q hq hsame
    rcases (hruns r).mp hr with rfl | ⟨hr, hrne⟩ <;> rcases (hruns q).mp hq with rfl | ⟨hq, hqne⟩
    · rfl
    · exact absurd (hsame.symm.trans hrun) hqne
    · exact absurd (hsame.trans hrun) hrne
    · exact h.unique r hr q hq hsame
  · intro r hr
    rcases (hruns r).mp hr with rfl | ⟨hr, hrne⟩
    · refine ⟨i, call, hi, Function.update_self .., hrun.symm, hstatus.symm, ?_⟩
      intro j later hij hj hlater
      rw [Function.update_of_ne (by omega)]
      exact hwait j later hij hj (hlater.trans hrun)
    · obtain ⟨j, k, hk, hmode, hkrun, hkstatus, hlast⟩ := h.latest r hr
      have hji : ∀ j later, calls j = some later → later.run = r.run → j ≠ i := by
        rintro j later hj hlater rfl
        cases hi.symm.trans hj
        exact hrne hlater.symm
      refine ⟨j, k, hk, ?_, hkrun, hkstatus, ?_⟩
      · rwa [Function.update_of_ne (hji j k hk hkrun)]
      · intro j' later hlt hj' hlater
        rw [Function.update_of_ne (hji j' later hj' hlater)]
        exact hlast j' later hlt hj' hlater
  · intro j k hk hmode
    by_cases hj : j = i
    · subst hj
      cases hi.symm.trans hk
      exact ⟨d, hrecord, hrun⟩
    · rw [Function.update_of_ne hj] at hmode
      obtain ⟨r, hr, hrk⟩ := h.wrote j k hk hmode
      obtain ⟨q, hq, hqrun, -⟩ := hkept r hr
      exact ⟨q, hq, hqrun.trans hrk⟩
  · intro j k id hk hmode
    by_cases hj : j = i
    · subst hj
      rw [Function.update_self] at hmode
      cases hmode
    · rw [Function.update_of_ne hj] at hmode
      obtain ⟨r, hr, hrid, hrk⟩ := h.found j k id hk hmode
      obtain ⟨q, hq, hqrun, hqid⟩ := hkept r hr
      exact ⟨q, hq, hqid.trans hrid, hqrun.trans hrk⟩
  · intro j k hk hmode
    by_cases hj : j = i
    · subst hj
      rw [Function.update_self] at hmode
      cases hmode
    · rw [Function.update_of_ne hj] at hmode
      exact h.failed j k hk hmode

end Recorded

/-! ## Steps -/

theorem RecorderAction.answer_runs {refusal : Option RecordError}
    (ha : a.writesRecord = false) : (a.answer rt s refusal).2.runs = s.runs := by
  cases refusal with
  | some e => rfl
  | none => cases a <;> first | rfl | cases ha

theorem findExecutionRun_eq_some {runKind : RunKind} {sourceRunId : ℤ} {r : ExecutionRun}
    (h : s.findExecutionRun runKind sourceRunId = some r) :
    r ∈ s.runs ∧ r.run = (runKind, some sourceRunId) := by
  have hmem := List.mem_of_find?_eq_some h
  have hrun := List.find?_some h
  simp only [Bool.and_eq_true, beq_iff_eq] at hrun
  refine ⟨List.mem_reverse.mp hmem, ?_⟩
  rw [ExecutionRun.run, hrun.1, hrun.2]

theorem updateExecutionRun_eq_ok {s' : Store} {id : ℕ} {status finishedAt : String}
    (h : s.updateExecutionRun id status finishedAt = .ok s') (q : ExecutionRun) :
    q ∈ s'.runs ↔ ∃ r ∈ s.runs, (if r.id = id then r.finish status finishedAt else r) = q := by
  unfold Store.updateExecutionRun at h
  split at h
  · cases h
    simp [AutoTable.mem_update]
  · cases h

section Steps

variable {c : Recorder} {modes : ℕ → Mode} {i : ℕ} {refusal : Option RecordError}

abbrev Tracks (c : Recorder) (modes : ℕ → Mode) : Prop :=
  Crew.Tracks protocol (fun m _ => m.Ended) .looking c modes

/-- A worker that is still to look, to create or to update has not written. -/
theorem ne_wrote_of_precedesRecord {j : ℕ} {later : RecordCall}
    (htracks : Tracks c modes) (hj : c.call? j = some later) (ha : c.next? j = some a)
    (hbefore : a.precedesRecord = true) : modes j ≠ .wrote := by
  intro hmode
  rcases htracks.cases hj with ⟨b, hb, hallowed⟩ | ⟨hnone, -⟩
  · obtain rfl : a = b := Option.some.inj (ha.symm.trans hb)
    rw [hmode] at hallowed
    have hafter : a.precedesRecord = false := hallowed
    rw [hbefore] at hafter
    cases hafter
  · rw [ha] at hnone
    cases hnone

theorem InOrder.wait (h : InOrder c i call a none)
    (hwrites : a.writesRecord = true) (htracks : Tracks c modes) :
    ∀ j later, i < j → c.call? j = some later → later.run = call.run → modes j ≠ .wrote := by
  intro j later hij hj hrun
  obtain ⟨v, hv, rfl⟩ := Option.map_eq_some_iff.mp hj
  have hnext := h.first rfl hwrites v (Crew.mem_later.mpr ⟨j, hij, hv⟩) hrun
  obtain ⟨b, hb, hbefore⟩ := (Option.any_eq_true _ _).mp hnext
  refine ne_wrote_of_precedesRecord htracks hj ?_ hbefore
  rw [Crew.next?, hv]
  exact hb

theorem InOrder.exists_later {e : RecordError}
    (h : InOrder c i call a (some e)) :
    ∃ j later, i < j ∧ c.call? j = some later ∧ later.run = call.run := by
  obtain ⟨v, hv, hrun⟩ := h.refused rfl
  obtain ⟨j, hij, hj⟩ := Crew.mem_later.mp hv
  exact ⟨j, v.1, hij, by rw [Crew.call?, hj]; rfl, hrun⟩

theorem RecordsInOrder.inOrder (h : RecordsInOrder c (.act i refusal))
    (hi : c.call? i = some call) (ha : c.next? i = some a) (hbefore : a.precedesRecord = true) :
    InOrder c i call a refusal := by
  obtain ⟨w, hw, rfl⟩ := Option.map_eq_some_iff.mp hi
  rw [Crew.next?, hw] at ha
  exact h w hw a ha hbefore

namespace Recorded

theorem refused {e : RecordError}
    (h : Recorded c.call? c.shared.runs modes) (hi : c.call? i = some call)
    (horder : InOrder c i call a (some e)) (hmode : modes i ≠ .wrote) :
    Recorded c.call? c.shared.runs (Function.update modes i .failed) :=
  h.turn hi hmode (by nofun) (by nofun) fun _ => horder.exists_later

theorem create {metadata : Option Approvals.JsonObject}
    (h : Recorded c.call? c.shared.runs modes) (hi : c.call? i = some call)
    (htracks : Tracks c modes)
    (horder : InOrder c i call (.createExecutionRun call metadata) none) :
    Recorded c.call? (c.shared.runs.insert (call.row rt metadata) (call.row_id rt metadata))
      (Function.update modes i .wrote) := by
  have hnew : ∀ q ∈ c.shared.runs, q.run ≠ call.run := horder.unrecorded rfl rfl
  refine h.write (d := call.row rt metadata (c.shared.runs.lastKey + 1)) hi ?_ rfl rfl ?_
    (horder.wait rfl htracks)
  · intro q
    rw [AutoTable.mem_insert, or_comm, and_iff_left_of_imp (hnew q)]
  · intro q hq hrun
    exact absurd hrun (hnew q hq)

theorem update {id : ℕ} {finishedAt : String} {s' : Store}
    (h : Recorded c.call? c.shared.runs modes) (hi : c.call? i = some call)
    (htracks : Tracks c modes) (hmode : modes i = .found id)
    (horder : InOrder c i call (.updateExecutionRun id call.status finishedAt) none)
    (hs' : c.shared.updateExecutionRun id call.status finishedAt = .ok s') :
    Recorded c.call? s'.runs (Function.update modes i .wrote) := by
  obtain ⟨r, hr, rfl, hrun⟩ := h.found i call id hi hmode
  have hsame : ∀ q ∈ c.shared.runs, q.id = r.id ↔ q.run = call.run := by
    intro q hq
    constructor
    · intro hid
      rw [AutoTable.eq_of_key_eq hq hr hid, hrun]
    · intro hqrun
      rw [h.unique q hq r hr (hqrun.trans hrun.symm)]
  refine h.write (d := r.finish call.status finishedAt) hi ?_ hrun rfl ?_
    (horder.wait rfl htracks)
  · intro q
    rw [updateExecutionRun_eq_ok hs']
    constructor
    · rintro ⟨p, hp, rfl⟩
      split
      · rename_i hid
        left
        rw [AutoTable.eq_of_key_eq hp hr hid]
      · rename_i hid
        exact .inr ⟨hp, fun hprun => hid ((hsame p hp).mpr hprun)⟩
    · rintro (rfl | ⟨hq, hqrun⟩)
      · exact ⟨r, hr, if_pos rfl⟩
      · exact ⟨q, hq, if_neg fun hid => hqrun ((hsame q hq).mp hid)⟩
  · intro q hq hqrun
    exact (hsame q hq).mpr hqrun

end Recorded

theorem RecorderAction.perform_update (rt : Runtime) {id : ℕ} {status finishedAt : String}
    {r : ExecutionRun}
    (h : s.runs.find? id = some r) :
    ∃ s', s.updateExecutionRun id status finishedAt = .ok s' ∧
      (RecorderAction.updateExecutionRun id status finishedAt).perform rt s = (.ok (), s') := by
  have hsome : (s.runs.find? id).isSome := by rw [h]; rfl
  refine ⟨_, if_pos hsome, ?_⟩
  simp only [RecorderAction.perform, Store.updateExecutionRun, if_pos hsome]

/-- The step lemma, one case for each action that a worker is allowed in its mode. -/
theorem Recorded.act (h : Recorded c.call? c.shared.runs modes)
    (htracks : Tracks c modes) (hi : c.call? i = some call) (ha : c.next? i = some a)
    (hallowed : (protocol call).allowed (modes i) a) (hguard : RecordsInOrder c (.act i refusal)) :
    Recorded c.call? (a.answer rt c.shared refusal).2.runs
      (Function.update modes i
        ((protocol call).move (modes i) a (a.answer rt c.shared refusal).1)) := by
  have horder := hguard.inOrder hi ha
  cases hmode : modes i with
  | looking =>
      have hne : modes i ≠ .wrote := by simp [hmode]
      rw [hmode] at hallowed
      cases a with
      | findExecutionRun runKind sourceRunId =>
          cases refusal with
          | some e => exact h.refused hi (horder rfl) hne
          | none =>
              simp only [RecorderAction.answer, RecorderAction.perform]
              cases hfind : c.shared.findExecutionRun runKind sourceRunId with
              | none => exact h.turn (m := .missed) hi hne (by nofun) (by nofun) (by nofun)
              | some existing =>
                  obtain ⟨hmem, hrun⟩ := findExecutionRun_eq_some hfind
                  refine h.turn (m := .found existing.id) hi hne (by nofun) ?_ (by nofun)
                  intro id hid
                  cases hid
                  exact ⟨existing, hmem, rfl, hrun.trans hallowed⟩
      | createExecutionRun k metadata =>
          obtain rfl : k = call := hallowed
          cases refusal with
          | some e => exact h.refused hi (horder rfl) hne
          | none => exact h.create hi htracks (horder rfl)
      | _ => exact hallowed.elim
  | missed =>
      have hne : modes i ≠ .wrote := by simp [hmode]
      rw [hmode] at hallowed
      cases a with
      | createExecutionRun k metadata =>
          obtain rfl : k = call := hallowed
          cases refusal with
          | some e => exact h.refused hi (horder rfl) hne
          | none => exact h.create hi htracks (horder rfl)
      | _ => exact hallowed.elim
  | found id =>
      have hne : modes i ≠ .wrote := by simp [hmode]
      rw [hmode] at hallowed
      cases a with
      | updateExecutionRun k status finishedAt =>
          obtain ⟨rfl, rfl⟩ := hallowed
          cases refusal with
          | some e => exact h.refused hi (horder rfl) hne
          | none =>
              obtain ⟨r, hr, hid, -⟩ := h.found i call k hi hmode
              obtain ⟨s', hs', hperform⟩ := RecorderAction.perform_update rt
                (AutoTable.find?_eq_some_iff.mpr ⟨hr, hid⟩)
              rw [RecorderAction.answer, hperform]
              exact h.update hi htracks hmode (horder rfl) hs'
      | _ => exact hallowed.elim
  | wrote =>
      rw [hmode] at hallowed
      have hafter : a.precedesRecord = false := hallowed
      have hruns : a.writesRecord = false := by cases a <;> first | rfl | cases hafter
      rw [move_wrote hafter, RecorderAction.answer_runs hruns, ← hmode, Function.update_eq_self]
      exact h
  | failed =>
      rw [hmode] at hallowed
      cases a <;> exact hallowed.elim

end Steps

/-! ## Runs -/

theorem recorded_fresh : Recorded (fun _ => none) Store.fresh.runs fun _ => .looking :=
  ⟨by simp [Store.fresh], by simp [Store.fresh], by nofun, by nofun, by nofun⟩

theorem recorded_run {ls : List RecorderStep} (hguard : (recorder rt).Guarded RecordsInOrder ls) :
    ∃ modes, Tracks ((recorder rt).run ls) modes ∧
      Recorded ((recorder rt).run ls).call? ((recorder rt).run ls).shared.runs modes :=
  Crew.machine_invariant (I := fun calls (s : Store) modes => Recorded calls s.runs modes)
    (recordExecution_follows rt) recorded_fresh
    (fun _ _ _ _ _ h hcalls hidle => h.start (hcalls _ (Nat.le_refl _)) (hidle _ (Nat.le_refl _)))
    (fun _ _ _ _ _ _ htracks h hi ha hallowed hguard => h.act htracks hi ha hallowed hguard)
    hguard

/-! ## Counts -/

theorem activityCounts_sum (rows : List CountedRun) :
    ((activityCounts rows).map ActivityCount.count).sum = rows.length := by
  have hperm := List.perm_insertionSort earlierActivity (rows.map CountedRun.activity).dedup
  have hcount : ∀ activity, @List.count _ instBEqOfDecidableEq activity
      (rows.map CountedRun.activity) = rows.countP fun r => r.activity = activity := by
    intro activity
    show (rows.map CountedRun.activity).countP (fun x => decide (x = activity)) = _
    rw [List.countP_map]
    rfl
  have hsum := List.sum_map_count_dedup_eq_length (rows.map CountedRun.activity)
  simp only [hcount] at hsum
  calc ((activityCounts rows).map ActivityCount.count).sum
      = (((rows.map CountedRun.activity).dedup.insertionSort earlierActivity).map
          fun activity => rows.countP fun r => r.activity = activity).sum := by
        simp [activityCounts, Function.comp_def]
    _ = ((rows.map CountedRun.activity).dedup.map
          fun activity => rows.countP fun r => r.activity = activity).sum := (hperm.map _).sum_nat
    _ = rows.length := by rw [hsum, List.length_map]

theorem SourceRuns.nodup_rows (sources : SourceRuns) :
    (sources.rows.map CountedRun.run).Nodup := by
  have hkind : ∀ (kind : RunKind) (t : Table SourceRun.id),
      ((t.rows.map (SourceRun.counted kind)).map CountedRun.run).Nodup := by
    intro kind t
    rw [List.map_map]
    refine List.Nodup.map_on ?_ (List.Nodup.of_map _ t.nodup)
    intro r hr q hq hsame
    have hid : r.id = q.id := by simpa [CountedRun.run, SourceRun.counted] using hsame
    exact Table.eq_of_key_eq hr hq hid
  rw [SourceRuns.rows, List.map_append]
  refine (hkind _ _).append (hkind _ _) ?_
  intro run hworkflow hsmart
  simp only [List.map_map, List.mem_map, Function.comp_apply] at hworkflow hsmart
  obtain ⟨r, -, rfl⟩ := hworkflow
  obtain ⟨q, -, hq⟩ := hsmart
  cases hq

theorem nodup_records (h : ∀ r ∈ s.runs, ∀ q ∈ s.runs, r.run = q.run → r = q) :
    (s.runs.table.rows.map ExecutionRun.run).Nodup :=
  List.Nodup.map_on (fun r hr q hq hsame => h r hr q hq hsame)
    (List.Nodup.of_map _ s.runs.table.nodup)

/-- No run is counted twice while it has one record. -/
theorem nodup_allRuns (sources : SourceRuns)
    (h : ∀ r ∈ s.runs, ∀ q ∈ s.runs, r.run = q.run → r = q) :
    ((s.allRuns sources).map CountedRun.run).Nodup := by
  rw [Store.allRuns, List.map_append]
  refine List.Nodup.append ?_ ?_ ?_
  · rw [List.map_map]
    exact nodup_records h
  · exact (SourceRuns.nodup_rows sources).sublist (List.filter_sublist.map _)
  · intro run hrecorded hsource
    simp only [List.map_map, List.mem_map, Function.comp_apply,
      List.mem_filter] at hrecorded hsource
    obtain ⟨r, hr, rfl⟩ := hrecorded
    obtain ⟨q, ⟨-, hq⟩, hqr⟩ := hsource
    simp only [Bool.not_eq_true', List.any_eq_false, beq_iff_eq] at hq
    exact hq r hr hqr.symm

/-! ## One record for each run -/

/-- Every run has at most one record, which has the status of the latest call once all workers
have finished, and the counts add up to the number of runs that they count. -/
structure OneRecordEach (rt : Runtime) (c : Recorder) : Prop where
  unique : ∀ run, c.shared.runs.table.rowcount (fun r => r.run = run) ≤ 1
  status : c.Finished → ∀ i call, c.call? i = some call →
    (∀ j later, i < j → c.call? j = some later → later.run ≠ call.run) →
    ∃ r ∈ c.shared.runs, r.run = call.run ∧ r.status = call.status
  counts : ∀ sources startedFrom startedTo clientId filters counts,
    executionRangeFilters rt startedFrom startedTo clientId = .ok filters →
    executionActivityCounts rt c.shared sources startedFrom startedTo clientId = .ok counts →
    (counts.map ActivityCount.count).sum =
      (((c.shared.allRuns sources).filter filters).map CountedRun.run).dedup.length

theorem Recorded.status {c : Recorder} {modes : ℕ → Mode} (htracks : Tracks c modes)
    (h : Recorded c.call? c.shared.runs modes) (hfinished : c.Finished) {i : ℕ}
    (hi : c.call? i = some call)
    (hlatest : ∀ j later, i < j → c.call? j = some later → later.run ≠ call.run) :
    ∃ r ∈ c.shared.runs, r.run = call.run ∧ r.status = call.status := by
  rcases htracks.cases hi with ⟨a, ha, -⟩ | ⟨-, -, hwrote | hfailed⟩
  · rw [hfinished i] at ha
    cases ha
  · obtain ⟨r, hr, hrun⟩ := h.wrote i call hi hwrote
    obtain ⟨j, k, hj, hjwrote, hjrun, hstatus, hlast⟩ := h.latest r hr
    have hij : j = i := by
      rcases Nat.lt_trichotomy j i with hlt | heq | hgt
      · exact absurd hwrote (hlast i call hlt hi hrun.symm)
      · exact heq
      · exact absurd (hjrun.trans hrun) (hlatest j k hgt hj)
    subst hij
    cases hi.symm.trans hj
    exact ⟨r, hr, hrun, hstatus.symm⟩
  · obtain ⟨j, later, hij, hj, hrun⟩ := h.failed i call hi hfailed
    exact absurd hrun (hlatest j later hij hj)

/-- In every run whose workers record in order, each run has one record. -/
theorem oneRecordEach (rt : Runtime) (ls : List RecorderStep)
    (hguard : (recorder rt).Guarded RecordsInOrder ls) :
    OneRecordEach rt ((recorder rt).run ls) := by
  obtain ⟨modes, htracks, hrecorded⟩ := recorded_run hguard
  refine ⟨?_, ?_, ?_⟩
  · intro run
    have hcount := List.nodup_iff_count_le_one.mp (nodup_records hrecorded.unique) run
    rw [List.count_eq_countP, List.countP_map] at hcount
    simpa [Table.rowcount, Function.comp_def, beq_eq_decide] using hcount
  · intro hfinished i call hi hlatest
    exact hrecorded.status htracks hfinished hi hlatest
  · intro sources startedFrom startedTo clientId filters counts hfilters hcounts
    have hnodup := nodup_allRuns sources hrecorded.unique
    rw [executionActivityCounts, hfilters] at hcounts
    cases hcounts
    have hkept := hnodup.sublist ((List.filter_sublist (p := filters)).map CountedRun.run)
    rw [activityCounts_sum, hkept.dedup, List.length_map]

/-! ## A run that waits for its approval -/

/-- The library functions on the records below, which hold nothing to redact. -/
def consoleRuntime : Runtime where
  validCorrelationId _ := false
  jsonDumpsValue _ := "{}"
  cappedPayloadJson _ :=
    ("null", "74234e98afe7498fb5daf1f36ac2d78acc339464f950703b8c019892f982b90b")
  redactText := id
  sha256 _ := ""
  artifactPath := id
  date startedAt := some (startedAt.take 10).toString

/-- The smart-action run 7 is recorded as pending, and as a success once it is approved. -/
def recordRestart (status now : String) : RecordCall where
  runKind := .smartAction
  sourceRunId := some 7
  actor := "technician"
  status := status
  triggerSource := "invoke"
  now := now

def pending : RecordCall := recordRestart "pending_approval" "2026-01-05T09:00:00+00:00"

def approved : RecordCall := recordRestart "success" "2026-01-05T09:00:01+00:00"

/-- The second worker starts when the first is done. -/
def recordsInTurn : List RecorderStep :=
  [.start pending, .act 0 none, .act 0 none, .act 0 none, .start approved, .act 1 none,
    .act 1 none, .act 1 none, .act 1 none]

/-- Both workers look for a record before one of them creates it. -/
def recordsTogether : List RecorderStep :=
  [.start pending, .start approved, .act 0 none, .act 1 none, .act 0 none, .act 1 none]

instance (c : Recorder) (i : ℕ) (call : RecordCall) (a : RecorderAction)
    (refusal : Option RecordError) : Decidable (InOrder c i call a refusal) :=
  decidable_of_iff
    ((refusal.isSome → ∃ v ∈ c.later i, v.1.run = call.run) ∧
      (refusal = none → a.writesRecord → ∀ v ∈ c.later i, v.1.run = call.run →
        v.2.head?.any RecorderAction.precedesRecord) ∧
      (refusal = none → a.createsRecord → ∀ r ∈ c.shared.runs.table.rows, r.run ≠ call.run))
    ⟨fun h => ⟨h.1, h.2.1, h.2.2⟩, fun h => ⟨h.refused, h.first, h.unrecorded⟩⟩

instance (c : Recorder) : (l : RecorderStep) → Decidable (RecordsInOrder c l)
  | .start _ => inferInstanceAs (Decidable True)
  | .act i refusal => inferInstanceAs (Decidable (∀ w ∈ c.workers[i]?, ∀ a ∈ w.2.head?,
      a.precedesRecord → InOrder c i w.1 a refusal))

theorem oneRecordEach_recordsInTurn :
    OneRecordEach consoleRuntime ((recorder consoleRuntime).run recordsInTurn) :=
  oneRecordEach consoleRuntime recordsInTurn (by decide)

theorem not_oneRecordEach :
    ¬ ∀ ls, OneRecordEach consoleRuntime ((recorder consoleRuntime).run ls) := by
  intro h
  have hunique := (h recordsTogether).unique (.smartAction, some 7)
  have htwice : ((recorder consoleRuntime).run recordsTogether).shared.runs.table.rowcount
      (fun r => r.run = (.smartAction, some 7)) = 2 := by decide
  omega

end WaitLocalAgent.Observability
