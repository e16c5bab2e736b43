import WaitLocalAgent.Model.FounderPolling

/-! # What an iteration does

Between its `get_scan` and the write of its progress, an iteration does nothing but fetch the
report. -/

namespace WaitLocalAgent.Founder

open Foundation

variable {rt : Runtime} {α : Type}

/-- A call that has made a `get_scan` for an artifact goes on to write its progress. -/
inductive Mode where
  | idle
  | polled (artifactId : String) (attempts : ℤ)

/-- An iteration asks for a scan only below its bound. -/
def FounderCall.mayPoll (call : FounderCall) (attempts : ℤ) : Prop :=
  match call with
  | .advance call => attempts < call.maxAttempts
  | .queue .. => False

def FounderAction.allowedIdle (call : FounderCall) : FounderAction → Prop
  | .request (.getScan _ attempts _) => call.mayPoll attempts
  | .desk (.persistPollProgress _ attempts outcome _ _) => outcome.attempts = attempts
  | _ => True

/-- What a call may do after its `get_scan`. -/
def FounderAction.allowedPolled (artifactId : String) (attempts : ℤ) : FounderAction → Prop
  | .request (.latestReport artifact _) => artifact = some artifactId
  | .desk (.persistPollProgress artifact known outcome _ _) =>
      artifact = artifactId ∧ known = attempts ∧ outcome.attempts = attempts + 1
  | _ => False

def FounderAction.moveIdle : FounderAction → Mode
  | .request (.getScan (some artifactId) attempts _) => .polled artifactId attempts
  | _ => .idle

def FounderAction.movePolled (m : Mode) : FounderAction → Mode
  | .desk (.persistPollProgress ..) => .idle
  | _ => m

def protocol (call : FounderCall) :
    Program.Protocol Mode FounderAction FounderAction.Answer where
  allowed m a :=
    match m with
    | .idle => a.allowedIdle call
    | .polled artifactId attempts => a.allowedPolled artifactId attempts
  move m a _ :=
    match m with
    | .idle => a.moveIdle
    | .polled _ _ => a.movePolled m

/-- The program of a call, from a mode; it may end, or raise, when it is idle. -/
@[irreducible] def Follows (call : FounderCall) (m : Mode) (p : Polling α) : Prop :=
  Program.Follows (protocol call) (fun m _ => m = .idle) m p.run

section Follows

variable {call : FounderCall} {m : Mode} {artifactId : Option String} {attempts : ℤ}

theorem follows_def {p : Polling α} : Follows call m p ↔
    Program.Follows (protocol call) (fun m _ => m = .idle) m p.run := by
  rw [Follows]

theorem follows_pure {x : α} : Follows call .idle (pure x : Polling α) :=
  follows_def.mpr rfl

theorem follows_throw {e : FounderError} : Follows call .idle (throw e : Polling α) :=
  follows_def.mpr rfl

/-- An action after which the call is idle, whether it raises or not. -/
theorem follows_act {a : DeskAction} {f : a.Value → Polling α}
    (ha : (protocol call).allowed m (.desk a))
    (hmove : ∀ r, (protocol call).move m (.desk a) r = .idle)
    (h : ∀ x, Follows call .idle (f x)) : Follows call m (act a >>= f) := by
  refine follows_def.mpr ⟨ha, ?_⟩
  intro r
  show Program.Follows _ _ ((protocol call).move m (.desk a) r) _
  rw [hmove]
  cases r with
  | ok x => exact follows_def.mp (h x)
  | error e => rfl

theorem follows_request {q : Request}
    {f : Except LaunchPassportFailure q.Value → Polling α}
    (hq : (protocol call).allowed m (.request q))
    (h : ∀ r, Follows call ((protocol call).move m (.request q) r) (f r)) :
    Follows call m (request q >>= f) :=
  follows_def.mpr ⟨hq, fun r => follows_def.mp (h r)⟩

theorem follows_raiseIf {p : Prop} [Decidable p] {message : String} {f : Unit → Polling α}
    (h : Follows call .idle (f ())) : Follows call .idle (raiseIf p message >>= f) := by
  unfold raiseIf
  split
  · exact follows_throw
  · exact h

theorem follows_map {β : Type} {p : Polling α} {g : α → β} (h : Follows call m p) :
    Follows call m (g <$> p) := by
  rw [map_eq_pure_bind]
  refine follows_def.mpr (Program.Follows.bindExcept (follows_def.mp h) ?_ ?_)
  · rintro m x rfl
    rfl
  · rintro m e rfl
    rfl

/-- Where a call is after its `get_scan`: a poll for no artifact has no progress to write. -/
def afterScan (artifactId : Option String) (attempts : ℤ) : Mode :=
  match artifactId with
  | none => .idle
  | some artifactId => .polled artifactId attempts

theorem withReport_attempts (outcome : PollOutcome)
    (report : Except LaunchPassportFailure JsonValue) :
    (outcome.withReport report).attempts = outcome.attempts := by
  rcases report with e | report
  · cases e <;> rfl
  · rfl

theorem ofFailure_attempts (scanId : String) (attempts : ℤ) (elapsed : ℚ)
    (e : LaunchPassportFailure) :
    (PollOutcome.ofFailure scanId attempts elapsed e).attempts = attempts := by
  cases e <;> rfl

theorem ofScan_attempts (scanId : String) (attempts : ℤ) (elapsed : ℚ) (scan : JsonFields) :
    (PollOutcome.ofScan scanId attempts elapsed scan).attempts = attempts := by
  unfold PollOutcome.ofScan
  split <;> rfl

theorem bounded_attempts (call : ScanCall) (elapsed : ℚ) (outcome : PollOutcome) :
    (outcome.bounded call elapsed).attempts = outcome.attempts := by
  unfold PollOutcome.bounded
  split <;> rfl

theorem follows_scanOutcome {projectId : String} {outcome : PollOutcome}
    {f : PollOutcome → Polling α}
    (h : ∀ polled : PollOutcome, polled.attempts = outcome.attempts →
      Follows call (afterScan artifactId attempts) (f polled)) :
    Follows call (afterScan artifactId attempts)
      (scanOutcome artifactId projectId outcome >>= f) := by
  unfold scanOutcome
  split
  · cases artifactId with
    | none =>
        exact follows_request trivial fun report => h _ (withReport_attempts outcome report)
    | some artifactId =>
        exact follows_request rfl fun report => h _ (withReport_attempts outcome report)
  · exact h outcome rfl

theorem follows_pollScanOnce {projectId scanId : String} {elapsed : ℚ}
    {f : PollOutcome → Polling α} (hmay : call.mayPoll attempts)
    (h : ∀ polled : PollOutcome, polled.attempts = attempts + 1 →
      Follows call (afterScan artifactId attempts) (f polled)) :
    Follows call .idle (pollScanOnce artifactId projectId scanId attempts elapsed >>= f) := by
  simp only [pollScanOnce, bind_assoc]
  refine follows_raiseIf (follows_raiseIf (follows_request hmay ?_))
  intro answer
  have hmove : (protocol call).move .idle (.request (.getScan artifactId attempts scanId)) answer =
      afterScan artifactId attempts := by
    cases artifactId <;> rfl
  rw [hmove]
  cases answer with
  | error e => exact h _ (ofFailure_attempts scanId (attempts + 1) elapsed e)
  | ok scan =>
      refine follows_scanOutcome fun polled hpolled => h polled ?_
      rw [hpolled, ofScan_attempts]

variable {scan : ScanCall}

/-- The write after a `get_scan`. -/
theorem follows_persist_polled {outcome : PollOutcome}
    {startedAt : Option String} {f : Unit → Polling α} (ha : outcome.attempts = attempts + 1)
    (h : ∀ u, Follows call .idle (f u)) :
    Follows call (afterScan artifactId attempts)
      (persistPollProgress scan artifactId attempts outcome startedAt >>= f) := by
  cases artifactId with
  | none => exact h ()
  | some artifactId => exact follows_act ⟨rfl, rfl, ha⟩ (fun _ => rfl) h

/-- The write of an outcome without a `get_scan`. -/
theorem follows_persist_idle {outcome : PollOutcome}
    {startedAt : Option String} {f : Unit → Polling α} (ha : outcome.attempts = attempts)
    (h : ∀ u, Follows call .idle (f u)) :
    Follows call .idle
      (persistPollProgress scan artifactId attempts outcome startedAt >>= f) := by
  cases artifactId with
  | none => exact h ()
  | some artifactId => exact follows_act ha (fun _ => rfl) h

theorem follows_releasing {body : Polling α} (h : Follows call .idle body) :
    Follows call .idle (releasing artifactId body) := by
  cases artifactId with
  | none => exact h
  | some artifactId =>
      refine follows_def.mpr (Program.Follows.bind (follows_def.mp h) ?_)
      rintro m result rfl
      refine ⟨trivial, ?_⟩
      intro r
      cases r with
      | ok u => rfl
      | error e => rfl

theorem pollClaimed_follows {startedText : String} {started : Instant}
    {elapsed : ℚ} (hmay : call.mayPoll attempts) :
    Follows call .idle (pollClaimed scan artifactId attempts startedText started elapsed) := by
  unfold pollClaimed
  refine follows_act trivial (fun _ => rfl) ?_
  intro opened
  refine follows_pollScanOnce hmay ?_
  intro polled hpolled
  exact follows_persist_polled ((bounded_attempts _ _ _).trans hpolled) fun _ => follows_pure

theorem advanceFrom_follows {startedText : String} :
    Follows (.advance scan) .idle (advanceFrom rt scan artifactId attempts startedText) := by
  unfold advanceFrom
  simp only
  split
  · exact follows_persist_idle rfl fun _ => follows_pure
  · rename_i hbounds
    have hmay : (FounderCall.advance scan).mayPoll attempts := by
      simp only [not_or, not_le, ge_iff_le] at hbounds
      exact hbounds.1
    have hbody : Follows (.advance scan) .idle (some <$> releasing artifactId
        (pollClaimed scan artifactId attempts startedText
          ((rt.parseTimestamp startedText).getD scan.clock.unparsedAt)
          (elapsedSeconds ((rt.parseTimestamp startedText).getD scan.clock.unparsedAt)
            scan.clock.now))) :=
      follows_map (follows_releasing (pollClaimed_follows hmay))
    cases artifactId with
    | none => exact hbody
    | some artifactId =>
        refine follows_act trivial (fun _ => rfl) fun claimed => ?_
        cases claimed with
        | true => exact hbody
        | false => exact follows_pure

theorem advanceRecord_follows {record : Option FounderArtifact} :
    Follows (.advance scan) .idle (advanceRecord rt scan record) := by
  unfold advanceRecord
  split
  · exact follows_pure
  · exact advanceFrom_follows

theorem advanceFounderScanOnce_follows (rt : Runtime) (scan : ScanCall) :
    Follows (.advance scan) .idle (advanceFounderScanOnce rt scan) := by
  unfold advanceFounderScanOnce
  refine follows_raiseIf ?_
  split
  · exact follows_persist_idle rfl fun _ => follows_pure
  · unfold findRecord
    split
    · split
      · rw [pure_bind]
        exact advanceRecord_follows
      · exact follows_act trivial (fun _ => rfl) fun _ => advanceRecord_follows
    · rw [bind_assoc]
      exact follows_act trivial (fun _ => rfl) fun _ => advanceRecord_follows

theorem queueScan_follows {result : JsonFields} {queuedAt : Instant} :
    Follows (.queue artifactId result queuedAt) .idle
      (queueScan artifactId result queuedAt) := by
  unfold queueScan
  split
  · exact follows_pure
  · split
    · exact follows_pure
    · exact follows_act trivial (fun _ => rfl) fun _ => follows_pure

theorem FounderCall.program_follows (rt : Runtime) (call : FounderCall) :
    Program.Follows (protocol call) (fun m _ => m = .idle) .idle (call.program rt) := by
  cases call with
  | advance scan => exact follows_def.mp (advanceFounderScanOnce_follows rt scan)
  | queue artifactId result queuedAt => exact follows_def.mp queueScan_follows

end Follows

end WaitLocalAgent.Founder
