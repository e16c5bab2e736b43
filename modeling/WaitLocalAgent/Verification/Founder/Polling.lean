import WaitLocalAgent.Verification.Founder.Protocol

/-! # Attempts and terminal statuses

Callers that poll an artifact one after the other, each from the attempts that are stored, count
their `get_scan` calls, and leave a scan that has ended as it is. -/

namespace WaitLocalAgent.Founder

open Foundation

variable {rt : Runtime}

/-! ## Progress -/

/-- The stored attempts, and whether the stored status is terminal. -/
def FounderArtifact.progress (a : FounderArtifact) : ℤ × Bool := (a.pollingAttempts, a.isTerminal)

def Desk.progress (d : Desk) (artifactId : String) : Option (ℤ × Bool) :=
  (d.artifacts.find? artifactId).map FounderArtifact.progress

/-- A write of an artifact, or of none that has a progress. -/
def DeskAction.writes : DeskAction → Option (String × ℤ × Bool)
  | .persistPollProgress artifactId _ outcome _ _ =>
      some (artifactId, outcome.attempts, outcome.status.isTerminal)
  | .queueScan artifactId _ _ => some (artifactId, 0, false)
  | _ => none

theorem progress_update_same {artifacts : Table FounderArtifact.artifactId}
    {p : FounderArtifact → Bool} {f : FounderArtifact → FounderArtifact}
    (hf : ∀ a, (f a).artifactId = a.artifactId) (h : ∀ a, (f a).progress = a.progress)
    (id : String) : ((artifacts.update p f hf).find? id).map FounderArtifact.progress =
      (artifacts.find? id).map FounderArtifact.progress := by
  rw [Table.find?_update, Option.map_map]
  refine Option.map_congr fun a _ => ?_
  simp only [Function.comp_apply]
  split
  · exact h a
  · rfl

variable {artifactId : String} {attempts : ℤ}

theorem Desk.progress_updateRemote {d : Desk} {fields : RemoteFields}
    {status : PollStatus} (hattempts : fields.pollingAttempts = some attempts)
    (hstatus : fields.pollingStatus = some status) (id : String) :
    (d.updateRemote rt artifactId fields).progress id =
      if id = artifactId then (d.progress id).map fun _ => (attempts, status.isTerminal)
      else d.progress id := by
  rw [Desk.progress, Desk.updateRemote, Table.find?_update_key (k := artifactId) (by simp)]
  split
  · rename_i hid
    subst hid
    rw [Desk.progress, Option.map_map, Option.map_map]
    refine Option.map_congr fun a _ => ?_
    simp [FounderArtifact.progress, FounderArtifact.isTerminal, RemoteFields.assign, hattempts,
      hstatus]
  · rfl

theorem DeskAction.progress_perform (rt : Runtime) (a : DeskAction) (d : Desk) (id : String) :
    (a.perform rt d).2.progress id =
      match a.writes with
      | some (artifactId, written) =>
          if id = artifactId then (d.progress id).map fun _ => written else d.progress id
      | none => d.progress id := by
  cases a with
  | claimFounderArtifactPoll artifactId claimedAt staleBefore =>
      have hclaim : ∀ r : FounderArtifact, (r.claim claimedAt).progress = r.progress := fun _ => rfl
      exact progress_update_same (FounderArtifact.claim_artifactId _) hclaim id
  | releaseFounderArtifactPoll artifactId =>
      have hclaim : ∀ r : FounderArtifact, (r.claim "").progress = r.progress := fun _ => rfl
      exact progress_update_same (FounderArtifact.claim_artifactId _) hclaim id
  | persistPollProgress artifactId attempts outcome startedAt now =>
      have hattempts : (outcome.fields rt startedAt now).pollingAttempts =
        some outcome.attempts := rfl
      have hstatus : (outcome.fields rt startedAt now).pollingStatus = some outcome.status := rfl
      exact Desk.progress_updateRemote hattempts hstatus id
  | queueScan artifactId result queuedAt =>
      have hattempts : (queuedFields rt result queuedAt).pollingAttempts = some 0 := rfl
      have hstatus : (queuedFields rt result queuedAt).pollingStatus = some .queued := rfl
      exact Desk.progress_updateRemote hattempts hstatus id
  | getFounderArtifact artifactId => rfl
  | listFounderArtifacts projectId => rfl
  | openClient => rfl

/-! ## Turns -/

/-- An action between a `get_scan` and the write of its progress. -/
def FounderAction.concludes (artifactId : String) : FounderAction → Bool
  | .request (.latestReport artifact _) => artifact == some artifactId
  | .desk (.persistPollProgress artifact _ _ _ _) => artifact == artifactId
  | _ => false

variable {W : Type}

/-- The caller is about to conclude a poll of the artifact. -/
def Concludes (p : FounderPool W) (w : W) (artifactId : String) : Prop :=
  (p.next? w).any fun next => next.2.concludes artifactId

/-- A `get_scan` is made for an artifact only from its stored attempts and while nobody else
concludes a poll of it; progress is written only over the attempts that it goes on from, and never
over a terminal status unless it is terminal; a launch finds nobody who concludes a poll. The write
after a `get_scan` is not refused. -/
def InTurn (p : FounderPool W) (w : W) (input : FounderInput) : FounderAction → Prop
  | .request (.getScan (some artifactId) attempts _) =>
      (∀ v, v ≠ w → ¬ Concludes p v artifactId) ∧
        ∀ stored ∈ p.shared.progress artifactId, stored.1 = attempts
  | .desk (.persistPollProgress artifactId attempts outcome _ _) =>
      (input.refusal.isSome → outcome.attempts = attempts) ∧
        ∀ stored ∈ p.shared.progress artifactId,
          stored.1 = attempts ∧ (stored.2 → outcome.status.isTerminal)
  | .desk (.queueScan artifactId _ _) => ∀ v, ¬ Concludes p v artifactId
  | _ => True

def TakesTurns (p : FounderPool W) : Program.PoolStep W FounderCall FounderInput → Prop
  | .start _ _ => True
  | .act w input => ∀ next ∈ p.next? w, InTurn p w input next.2

abbrev Tracks (p : FounderPool W) (modes : W → Mode) : Prop :=
  Program.Tracks protocol (fun m => m = .idle) .idle p.threads modes

theorem Tracks.not_polled {p : FounderPool W} {modes : W → Mode} (h : Tracks p modes) {w : W}
    (hw : ¬ Concludes p w artifactId) (n : ℤ) :
    modes w ≠ .polled artifactId n := by
  intro hmode
  have hidle : modes w ≠ .idle := by simp [hmode]
  obtain ⟨call, a, hnext, hallowed⟩ := Program.Tracks.exists_next h hidle
  apply hw
  rw [Concludes, hnext]
  rw [hmode] at hallowed
  cases a with
  | desk a =>
      cases a with
      | persistPollProgress artifact known outcome startedAt now =>
          obtain ⟨rfl, -, -⟩ := hallowed
          simp [FounderAction.concludes]
      | _ => exact hallowed.elim
  | request q =>
      cases q with
      | latestReport artifact projectId =>
          obtain rfl : artifact = some artifactId := hallowed
          simp [FounderAction.concludes]
      | getScan artifact attempts scanId => exact hallowed.elim

/-! ## Counts -/

/-- The stored attempts count the calls of `get_scan`, but for the one whose progress is still to be
written. -/
inductive Counted (d : Desk) (modes : W → Mode) (artifactId : String) (attempts : ℤ) : Prop where
  | settled (hnone : ∀ w n, modes w ≠ .polled artifactId n) (hscans : d.scans artifactId = attempts)
  | pending (w : W) (hw : modes w = .polled artifactId attempts)
      (hother : ∀ v n, modes v = .polled artifactId n → v = w)
      (hscans : d.scans artifactId = attempts + 1)

variable {d d' : Desk}

theorem Counted.congr {modes modes' : W → Mode}
    (h : Counted d modes artifactId attempts) (hscans : d'.scans artifactId = d.scans artifactId)
    (hmodes : ∀ w n, modes' w = .polled artifactId n ↔ modes w = .polled artifactId n) :
    Counted d' modes' artifactId attempts := by
  cases h with
  | settled hnone hcount =>
      exact .settled (fun w n hw => hnone w n ((hmodes w n).mp hw)) (hscans.trans hcount)
  | pending w hw hother hcount =>
      exact .pending w ((hmodes w _).mpr hw) (fun v n hv => hother v n ((hmodes v n).mp hv))
        (hscans.trans hcount)

/-- The stored attempts of all artifacts are counted, and stay within the bound. -/
def Tallied (bound : ℤ) (d : Desk) (modes : W → Mode) : Prop :=
  ∀ id stored, d.progress id = some stored →
    Counted d modes id stored.1 ∧ d.scans id ≤ bound

/-- Nothing that the attempts of artifacts depend on has changed. -/
theorem Tallied.congr {bound : ℤ} {modes : W → Mode} (h : Tallied bound d modes)
    (hprogress : d'.progress = d.progress) (hscans : d'.scans = d.scans) :
    Tallied bound d' modes := by
  intro id stored hstored
  rw [hprogress] at hstored
  obtain ⟨hcounted, hbound⟩ := h id stored hstored
  rw [hscans]
  exact ⟨hcounted.congr (by rw [hscans]) fun _ _ => Iff.rfl, hbound⟩

section Writes

variable {bound : ℤ} {d d' : Desk} {modes : W → Mode} {w : W}
  {artifactId : String}

/-- A caller that turns from one poll to another, or to none, is seen by these artifacts alone. -/
theorem update_polled_iff [DecidableEq W] {m : Mode} {id : String}
    (hold : ∀ n, modes w ≠ .polled id n) (hnew : ∀ n, m ≠ .polled id n) (v : W) (n : ℤ) :
    Function.update modes w m v = .polled id n ↔ modes v = .polled id n := by
  by_cases hv : v = w
  · subst hv
    rw [Function.update_self]
    exact iff_of_false (hnew n) (hold n)
  · rw [Function.update_of_ne hv]

theorem Counted.settled_of_idle (h : Counted d modes artifactId attempts)
    (hidle : ∀ v n, modes v ≠ .polled artifactId n) : d.scans artifactId = attempts := by
  cases h with
  | settled hnone hscans => exact hscans
  | pending v hv => exact absurd hv (hidle v attempts)

/-- A `get_scan` from the stored attempts, while nobody else concludes a poll. -/
theorem Tallied.scan [DecidableEq W] (h : Tallied bound d modes)
    (hidle : modes w = .idle) (hattempts : attempts < bound)
    (hother : ∀ v n, v ≠ w → modes v ≠ .polled artifactId n)
    (hstored : ∀ stored ∈ d.progress artifactId, stored.1 = attempts) :
    Tallied bound (d.countScan (some artifactId))
      (Function.update modes w (.polled artifactId attempts)) := by
  have hnone : ∀ v n, modes v ≠ .polled artifactId n := by
    intro v n hv
    by_cases hvw : v = w
    · rw [hvw, hidle] at hv
      cases hv
    · exact hother v n hvw hv
  intro id stored hid
  have hid : d.progress id = some stored := hid
  obtain ⟨hcounted, hbound⟩ := h id stored hid
  by_cases hsame : id = artifactId
  · subst hsame
    obtain rfl : stored.1 = attempts := hstored stored hid
    have hscans : d.scans id = stored.1 := hcounted.settled_of_idle hnone
    have hcount : (d.countScan (some id)).scans id = stored.1 + 1 := by
      simp [Desk.countScan, hscans]
    refine ⟨.pending w (Function.update_self ..) ?_ hcount, by omega⟩
    intro v n hv
    by_contra hvw
    rw [Function.update_of_ne hvw] at hv
    exact hnone v n hv
  · have hcount : (d.countScan (some artifactId)).scans id = d.scans id := by
      simp [Desk.countScan, hsame]
    rw [hcount]
    refine ⟨hcounted.congr hcount (update_polled_iff ?_ ?_), hbound⟩
    · simp [hidle]
    · intro n hn
      cases hn
      exact hsame rfl

/-- The write after a `get_scan`. -/
theorem Tallied.conclude [DecidableEq W] {terminal : Bool}
    (h : Tallied bound d modes) (hw : modes w = .polled artifactId attempts)
    (hscans : d'.scans = d.scans)
    (hprogress : ∀ id, d'.progress id =
      if id = artifactId then (d.progress id).map fun _ => (attempts + 1, terminal)
      else d.progress id) : Tallied bound d' (Function.update modes w .idle) := by
  intro id stored hid
  rw [hprogress] at hid
  rw [hscans]
  split at hid
  · rename_i hsame
    subst hsame
    obtain ⟨old, hold, rfl⟩ := Option.map_eq_some_iff.mp hid
    obtain ⟨hcounted, hbound⟩ := h id old hold
    refine ⟨?_, hbound⟩
    cases hcounted with
    | settled hnone hcount => exact absurd hw (hnone w attempts)
    | pending v hv hother hcount =>
        obtain rfl := hother w attempts hw
        obtain rfl : attempts = old.1 := by
          rw [hw] at hv
          cases hv
          rfl
        refine .settled ?_ (by rw [hscans]; exact hcount)
        intro u n hu
        by_cases huw : u = w
        · rw [huw, Function.update_self] at hu
          cases hu
        · rw [Function.update_of_ne huw] at hu
          exact huw (hother u n hu)
  · rename_i hsame
    obtain ⟨hcounted, hbound⟩ := h id stored hid
    refine ⟨hcounted.congr (by rw [hscans]) (update_polled_iff ?_ (by simp)), hbound⟩
    intro n hn
    rw [hw] at hn
    cases hn
    exact hsame rfl

theorem Tallied.rewrite {terminal : Bool} (h : Tallied bound d modes)
    (hstored : ∀ stored ∈ d.progress artifactId, stored.1 = attempts) (hscans : d'.scans = d.scans)
    (hprogress : ∀ id, d'.progress id =
      if id = artifactId then (d.progress id).map fun _ => (attempts, terminal)
      else d.progress id) : Tallied bound d' modes := by
  intro id stored hid
  rw [hprogress] at hid
  have hold : ∃ old, d.progress id = some old ∧ old.1 = stored.1 := by
    split at hid
    · rename_i hsame
      subst hsame
      obtain ⟨old, hold, rfl⟩ := Option.map_eq_some_iff.mp hid
      exact ⟨old, hold, hstored old hold⟩
    · exact ⟨stored, hid, rfl⟩
  obtain ⟨old, hold, hsame⟩ := hold
  obtain ⟨hcounted, hbound⟩ := h id old hold
  rw [hscans, ← hsame]
  exact ⟨hcounted.congr (by rw [hscans]) fun _ _ => Iff.rfl, hbound⟩

/-- A launch starts a new count, when nobody concludes a poll. -/
theorem Tallied.launch {terminal : Bool} (h : Tallied bound d modes) (hbound : 0 ≤ bound)
    (hnone : ∀ v n, modes v ≠ .polled artifactId n)
    (hscans : d'.scans = Function.update d.scans artifactId 0)
    (hprogress : ∀ id, d'.progress id =
      if id = artifactId then (d.progress id).map fun _ => (0, terminal)
      else d.progress id) : Tallied bound d' modes := by
  intro id stored hid
  rw [hprogress] at hid
  split at hid
  · rename_i hsame
    subst hsame
    obtain ⟨old, -, rfl⟩ := Option.map_eq_some_iff.mp hid
    have hzero : d'.scans id = 0 := by rw [hscans, Function.update_self]
    exact ⟨.settled hnone hzero, by rwa [hzero]⟩
  · rename_i hsame
    obtain ⟨hcounted, hle⟩ := h id stored hid
    have hkept : d'.scans id = d.scans id := by rw [hscans, Function.update_of_ne hsame]
    rw [hkept]
    exact ⟨hcounted.congr hkept fun _ _ => Iff.rfl, hle⟩

end Writes

/-! ## Terminal statuses -/

/-- A terminal status is still there, unless there was a launch. -/
def Desk.KeepsTerminal (d d' : Desk) : Prop :=
  ∀ id, d.launches id ≤ d'.launches id ∧
    (d'.launches id = d.launches id → ∀ stored ∈ d.progress id, stored.2 →
      ∃ later ∈ d'.progress id, later.2)

theorem Desk.KeepsTerminal.refl (d : Desk) : d.KeepsTerminal d :=
  fun _ => ⟨Nat.le_refl _, fun _ stored hstored hterminal => ⟨stored, hstored, hterminal⟩⟩

theorem Desk.KeepsTerminal.trans {d d' d'' : Desk} (h : d.KeepsTerminal d')
    (h' : d'.KeepsTerminal d'') : d.KeepsTerminal d'' := by
  intro id
  obtain ⟨hle, hkept⟩ := h id
  obtain ⟨hle', hkept'⟩ := h' id
  refine ⟨hle.trans hle', ?_⟩
  intro hsame stored hstored hterminal
  obtain ⟨later, hlater, hlaterTerminal⟩ := hkept (by omega) stored hstored hterminal
  exact hkept' (by omega) later hlater hlaterTerminal

theorem Desk.KeepsTerminal.of_progress (hprogress : d'.progress = d.progress)
    (hlaunches : d'.launches = d.launches) : d.KeepsTerminal d' := by
  intro id
  rw [hprogress, hlaunches]
  exact ⟨Nat.le_refl _, fun _ stored hstored hterminal => ⟨stored, hstored, hterminal⟩⟩

theorem Desk.KeepsTerminal.of_write {written : ℤ × Bool}
    (hlaunches : d'.launches = d.launches)
    (hprogress : ∀ id, d'.progress id =
      if id = artifactId then (d.progress id).map fun _ => written else d.progress id)
    (hterminal : ∀ stored ∈ d.progress artifactId, stored.2 → written.2) :
    d.KeepsTerminal d' := by
  intro id
  rw [hlaunches, hprogress]
  refine ⟨Nat.le_refl _, ?_⟩
  intro _ stored hstored hended
  split
  · rename_i hsame
    subst hsame
    refine ⟨written, ?_, hterminal stored hstored hended⟩
    rw [Option.mem_def.mp hstored]
    rfl
  · exact ⟨stored, hstored, hended⟩

theorem Desk.KeepsTerminal.of_launch
    (hlaunches : d'.launches =
      Function.update d.launches artifactId (d.launches artifactId + 1))
    (hprogress : ∀ id, id ≠ artifactId → d'.progress id = d.progress id) :
    d.KeepsTerminal d' := by
  intro id
  rw [hlaunches]
  by_cases hsame : id = artifactId
  · subst hsame
    rw [Function.update_self]
    exact ⟨Nat.le_succ _, fun h => absurd h (Nat.succ_ne_self _)⟩
  · rw [Function.update_of_ne hsame, hprogress id hsame]
    exact ⟨Nat.le_refl _, fun _ stored hstored hended => ⟨stored, hstored, hended⟩⟩

/-! ## Steps -/

/-- The bound on the attempts of all iterations under way. -/
def BoundedBy (bound : ℤ) (p : FounderPool W) : Prop :=
  ∀ w scan left, p.threads w = some (.advance scan, left) → scan.maxAttempts ≤ bound

section Steps

variable {bound : ℤ} {p : FounderPool W} {modes : W → Mode} {w : W}
  {call : FounderCall} {input : FounderInput}

/-- What is kept from one step to the next. -/
def Keeps (bound : ℤ) (d d' : Desk) (modes : W → Mode) : Prop :=
  Tallied bound d' modes ∧ d.KeepsTerminal d'

theorem Keeps.of_same (h : Tallied bound d modes)
    (hprogress : d'.progress = d.progress) (hscans : d'.scans = d.scans)
    (hlaunches : d'.launches = d.launches) : Keeps bound d d' modes :=
  ⟨h.congr hprogress hscans, .of_progress hprogress hlaunches⟩

theorem Keeps.desk {a : DeskAction} (h : Tallied bound p.shared modes) (hbound : 0 ≤ bound)
    (htracks : Tracks p modes) (hnext : p.next? w = some (call, .desk a))
    (hallowed : (FounderAction.desk a).allowedIdle call) (hguard : TakesTurns p (.act w input)) :
    Keeps bound p.shared (a.perform rt p.shared).2 modes := by
  have hturn := hguard (call, .desk a) hnext
  have hprogress := fun id => a.progress_perform rt p.shared id
  cases a with
  | persistPollProgress artifactId known outcome startedAt now =>
      obtain ⟨-, hstored⟩ := hturn
      obtain rfl : outcome.attempts = known := hallowed
      exact ⟨h.rewrite (fun stored hs => (hstored stored hs).1) rfl hprogress,
        .of_write rfl hprogress fun stored hs => (hstored stored hs).2⟩
  | queueScan artifactId result queuedAt =>
      refine ⟨h.launch hbound (fun v n => htracks.not_polled (hturn v) n) rfl hprogress,
        .of_launch rfl ?_⟩
      intro id hid
      rw [hprogress]
      exact if_neg hid
  | _ => exact .of_same h (funext hprogress) rfl rfl

/-- The write after a `get_scan`. -/
theorem Keeps.conclude [DecidableEq W] (rt : Runtime) {a : DeskAction}
    (h : Tallied bound p.shared modes) (hw : modes w = .polled artifactId attempts)
    (hnext : p.next? w = some (call, .desk a))
    (hallowed : (FounderAction.desk a).allowedPolled artifactId attempts)
    (hguard : TakesTurns p (.act w input)) :
    input.refusal = none ∧
      Keeps bound p.shared (a.perform rt p.shared).2 (Function.update modes w .idle) := by
  have hturn := hguard (call, .desk a) hnext
  have hprogress := fun id => a.progress_perform rt p.shared id
  cases a with
  | persistPollProgress artifact known outcome startedAt now =>
      obtain ⟨hrefusal, hstored⟩ := hturn
      obtain ⟨rfl, rfl, hattempts⟩ := hallowed
      refine ⟨?_, ?_, .of_write rfl hprogress fun stored hs => (hstored stored hs).2⟩
      · by_contra hsome
        have hsame := hrefusal (Option.isSome_iff_ne_none.mpr hsome)
        omega
      · simp only [DeskAction.writes, hattempts] at hprogress
        exact h.conclude hw rfl hprogress
  | _ => exact hallowed.elim

/-- The step lemma: a caller in its turn keeps the counts and the terminal statuses. -/
theorem Keeps.act [DecidableEq W] (rt : Runtime) {a : FounderAction} {next : a.Answer → _}
    (h : Tallied bound p.shared modes) (hbound : 0 ≤ bound) (hcalls : BoundedBy bound p)
    (htracks : Tracks p modes) (hw : p.threads w = some (call, .act a next))
    (hallowed : (protocol call).allowed (modes w) a) (hguard : TakesTurns p (.act w input)) :
    Keeps bound p.shared (a.answer rt p.shared input).2 (Function.update modes w
      ((protocol call).move (modes w) a (a.answer rt p.shared input).1)) := by
  have hnext : p.next? w = some (call, a) := by simp [Program.Pool.next?, hw, Program.head?]
  cases hmode : modes w with
  | idle =>
      rw [hmode] at hallowed
      have hsame : Function.update modes w .idle = modes := by rw [← hmode, Function.update_eq_self]
      cases a with
      | desk a =>
          show Keeps bound p.shared _ (Function.update modes w .idle)
          rw [hsame]
          cases hrefusal : input.refusal with
          | some e =>
              simp only [FounderAction.answer, hrefusal]
              exact .of_same h rfl rfl rfl
          | none =>
              simp only [FounderAction.answer, hrefusal]
              exact .desk h hbound htracks hnext hallowed hguard
      | request q =>
          cases q with
          | latestReport artifactId projectId =>
              show Keeps bound p.shared p.shared (Function.update modes w .idle)
              rw [hsame]
              exact .of_same h rfl rfl rfl
          | getScan artifactId attempts scanId =>
              cases artifactId with
              | none =>
                  show Keeps bound p.shared p.shared (Function.update modes w .idle)
                  rw [hsame]
                  exact .of_same h rfl rfl rfl
              | some artifactId =>
                  obtain ⟨hother, hstored⟩ := hguard _ hnext
                  have hmay : attempts < bound := by
                    cases call with
                    | advance scan => exact lt_of_lt_of_le hallowed (hcalls w scan _ hw)
                    | queue => exact hallowed.elim
                  refine ⟨h.scan hmode hmay ?_ hstored, .of_progress rfl rfl⟩
                  intro v n hv
                  exact htracks.not_polled (hother v hv) n
  | polled artifactId attempts =>
      rw [hmode] at hallowed
      cases a with
      | desk a =>
          obtain ⟨hrefusal, hkeeps⟩ := Keeps.conclude rt h hmode hnext hallowed hguard
          have hmove : (FounderAction.desk a).movePolled (.polled artifactId attempts) = .idle := by
            cases a with
            | persistPollProgress => rfl
            | _ => exact hallowed.elim
          simp only [FounderAction.answer, hrefusal, protocol, hmove]
          exact hkeeps
      | request q =>
          cases q with
          | latestReport artifact projectId =>
              show Keeps bound p.shared p.shared
                (Function.update modes w (.polled artifactId attempts))
              rw [← hmode, Function.update_eq_self]
              exact .of_same h rfl rfl rfl
          | getScan => exact hallowed.elim

/-! ## Runs -/

abbrev FounderPool.step [DecidableEq W] (rt : Runtime) :
    FounderPool W → Program.PoolStep W FounderCall FounderInput → FounderPool W :=
  Program.Pool.step (FounderAction.answer rt) (FounderCall.program rt)

def StartsWithin (bound : ℤ) : Program.PoolStep W FounderCall FounderInput → Prop
  | .start _ (.advance scan) => scan.maxAttempts ≤ bound
  | _ => True

theorem exists_startsWithin (ls : List (Program.PoolStep W FounderCall FounderInput)) :
    ∃ bound : ℤ, 0 ≤ bound ∧ ∀ l ∈ ls, StartsWithin bound l := by
  induction ls with
  | nil => exact ⟨0, le_refl 0, by simp⟩
  | cons l ls ih =>
      obtain ⟨bound, hbound, hls⟩ := ih
      have hmono : ∀ {b c : ℤ} {k : Program.PoolStep W FounderCall FounderInput}, b ≤ c →
          StartsWithin b k → StartsWithin c k := by
        intro b c k hbc hk
        cases k with
        | act w input => trivial
        | start w call =>
            cases call with
            | advance scan => exact le_trans hk hbc
            | queue => trivial
      have hl : ∃ b : ℤ, StartsWithin b l := by
        cases l with
        | act w input => exact ⟨0, trivial⟩
        | start w call =>
            cases call with
            | advance scan => exact ⟨scan.maxAttempts, le_refl _⟩
            | queue => exact ⟨0, trivial⟩
      obtain ⟨b, hb⟩ := hl
      refine ⟨max bound b, le_trans hbound (le_max_left bound b), ?_⟩
      intro k hk
      rcases List.mem_cons.mp hk with rfl | hk
      · exact hmono (le_max_right bound b) hb
      · exact hmono (le_max_left bound b) (hls k hk)

theorem BoundedBy.step [DecidableEq W] {l : Program.PoolStep W FounderCall FounderInput}
    (h : BoundedBy bound p) (hl : StartsWithin bound l) :
    BoundedBy bound (p.step rt l) := by
  intro v scan left hv
  -- the thread that the step leaves behind is an old one, or has been started
  have hold : (∃ left', p.threads v = some (.advance scan, left')) ∨
      l = .start v (.advance scan) := by
    cases l with
    | start w call =>
        simp only [Program.Pool.step] at hv
        split at hv
        · by_cases hvw : v = w
          · subst hvw
            simp only [Function.update_self, Option.some.injEq, Prod.mk.injEq] at hv
            rw [hv.1]
            exact .inr rfl
          · simp only [Function.update_of_ne hvw] at hv
            exact .inl ⟨left, hv⟩
        · exact .inl ⟨left, hv⟩
    | act w input =>
        left
        simp only [Program.Pool.step] at hv
        split at hv
        · exact ⟨left, hv⟩
        · by_cases hvw : v = w
          · simp [hvw] at hv
          · simp only [Function.update_of_ne hvw] at hv
            exact ⟨left, hv⟩
        · rename_i call a next hw
          by_cases hvw : v = w
          · subst hvw
            simp only [Function.update_self, Option.some.injEq, Prod.mk.injEq] at hv
            rw [← hv.1]
            exact ⟨_, hw⟩
          · simp only [Function.update_of_ne hvw] at hv
            exact ⟨left, hv⟩
  rcases hold with ⟨left', hp⟩ | rfl
  · exact h v scan left' hp
  · exact hl

/-- The run lemma: callers in their turns keep the counts and the terminal statuses. -/
theorem Keeps.run [DecidableEq W] (rt : Runtime)
    {ls : List (Program.PoolStep W FounderCall FounderInput)} (hbound : 0 ≤ bound)
    (hcalls : BoundedBy bound p) (htracks : Tracks p modes) (h : Tallied bound p.shared modes)
    (hstarts : ∀ l ∈ ls, StartsWithin bound l)
    (hg : GuardedFrom (FounderPool.step rt) TakesTurns p ls) :
    BoundedBy bound (runFrom (FounderPool.step rt) p ls) ∧
      ∃ modes', Tracks (runFrom (FounderPool.step rt) p ls) modes' ∧
        Keeps bound p.shared (runFrom (FounderPool.step rt) p ls).shared modes' := by
  have hinit : ∃ modes', Tracks p modes' ∧ Keeps bound p.shared p.shared modes' :=
    ⟨modes, htracks, h, .refl p.shared⟩
  refine runFrom_invariant (I := fun q => BoundedBy bound q ∧
      ∃ modes', Tracks q modes' ∧ Keeps bound p.shared q.shared modes')
    (G := fun q l => TakesTurns q l ∧ StartsWithin bound l) ?_ ⟨hcalls, hinit⟩
    (hg.imp_of_mem fun q l hl hturn => ⟨hturn, hstarts l hl⟩)
  rintro q l ⟨hq, hkept⟩ ⟨hturn, hl⟩
  refine ⟨hq.step hl, ?_⟩
  refine Program.pool_step
    (G := fun q l => BoundedBy bound q ∧ TakesTurns q l)
    (I := fun d modes' => Keeps bound p.shared d modes')
    (FounderCall.program_follows rt) ?_ ?_ hkept ⟨hq, hturn⟩
  · intro d modes' w hd hidle
    rwa [← hidle, Function.update_eq_self]
  · intro q modes' w call a next input hq' hd hw hallowed hguard
    have hstep := Keeps.act rt hd.1 hbound hguard.1 hq' hw hallowed hguard.2
    exact ⟨hstep.1, hd.2.trans hstep.2⟩

end Steps

/-! ## The initial artifacts -/

theorem progress_withArtifacts {saved : List SavedArtifact} {id : String} {stored : ℤ × Bool}
    (h : (Desk.withArtifacts saved).progress id = some stored) : stored = (0, false) := by
  have hrows : ∀ artifacts : Table FounderArtifact.artifactId,
      (∀ a ∈ artifacts, a.progress = (0, false)) → ∀ a ∈ saved.foldl
        (fun artifacts a => (artifacts.insert? a.row).getD artifacts) artifacts,
        a.progress = (0, false) := by
    clear h
    induction saved with
    | nil => exact fun artifacts hall => hall
    | cons new saved ih =>
        intro artifacts hall
        refine ih _ ?_
        intro a ha
        cases hinsert : artifacts.insert? new.row with
        | none =>
            simp only [hinsert, Option.getD_none] at ha
            exact hall a ha
        | some inserted =>
            simp only [hinsert, Option.getD_some] at ha
            rcases (Table.mem_of_insert? hinsert).mp ha with hold | rfl
            · exact hall a hold
            · rfl
  obtain ⟨a, ha, rfl⟩ := Option.map_eq_some_iff.mp h
  exact hrows .empty (by simp) a (Table.mem_of_find?_eq_some ha)

theorem tallied_withArtifacts {bound : ℤ} (hbound : 0 ≤ bound) (saved : List SavedArtifact) :
    Tallied bound (Desk.withArtifacts saved) fun _ : W => .idle := by
  intro id stored hstored
  rw [progress_withArtifacts hstored]
  exact ⟨.settled (by simp) rfl, hbound⟩

/-! ## Agreement -/

section Agreement

variable [DecidableEq W]

/-- What a run of iterations, uploads and launches leaves of an artifact. -/
structure PollingAgrees (rt : Runtime) (saved : List SavedArtifact)
    (ls : List (Program.PoolStep W FounderCall FounderInput)) : Prop where
  /-- A terminal status stays terminal until a new upload or launch. -/
  terminal : ∀ ks, ks <+: ls → ∀ id,
    ((founderPolling W rt saved).run ls).shared.launches id =
      ((founderPolling W rt saved).run ks).shared.launches id →
    ∀ stored ∈ ((founderPolling W rt saved).run ks).shared.progress id, stored.2 →
      ∃ later ∈ ((founderPolling W rt saved).run ls).shared.progress id, later.2
  /-- The stored attempts are the calls of `get_scan` since the last launch, when there is none
  whose progress is still to be written. -/
  attempts : ∀ id, ∀ stored ∈ ((founderPolling W rt saved).run ls).shared.progress id,
    (∀ w, ¬ Concludes ((founderPolling W rt saved).run ls) w id) →
      stored.1 = ((founderPolling W rt saved).run ls).shared.scans id
  /-- There are never more of them than the iterations allow. -/
  bounded : ∀ id, ∀ stored ∈ ((founderPolling W rt saved).run ls).shared.progress id,
    ∀ bound, 0 ≤ bound → (∀ l ∈ ls, StartsWithin bound l) →
      ((founderPolling W rt saved).run ls).shared.scans id ≤ bound

/-- Callers that take turns. -/
theorem pollingAgrees (rt : Runtime) (saved : List SavedArtifact)
    (ls : List (Program.PoolStep W FounderCall FounderInput))
    (hturns : (founderPolling W rt saved).Guarded TakesTurns ls) :
    PollingAgrees rt saved ls := by
  have hrun : ∀ {bound : ℤ} {ks : List (Program.PoolStep W FounderCall FounderInput)}, 0 ≤ bound →
      (∀ l ∈ ks, StartsWithin bound l) → (founderPolling W rt saved).Guarded TakesTurns ks →
      BoundedBy bound ((founderPolling W rt saved).run ks) ∧
        ∃ modes, Tracks ((founderPolling W rt saved).run ks) modes ∧
          Keeps bound (Desk.withArtifacts saved) ((founderPolling W rt saved).run ks).shared
            modes := by
    intro bound ks hbound hstarts hks
    have hcalls : BoundedBy bound (founderPolling W rt saved).init := by
      intro w scan left hw
      cases hw
    exact Keeps.run rt hbound hcalls (fun _ => rfl) (tallied_withArtifacts hbound saved) hstarts hks
  obtain ⟨bound, hbound, hstarts⟩ := exists_startsWithin ls
  refine ⟨?_, ?_, ?_⟩
  · rintro ks ⟨rest, rfl⟩ id hlaunches stored hstored hended
    obtain ⟨hks, hrest⟩ := (guardedFrom_append _ _ _ ks rest).mp hturns
    obtain ⟨hcalls, modes, htracks, htallied, -⟩ :=
      hrun hbound (fun l hl => hstarts l (List.mem_append_left rest hl)) hks
    obtain ⟨-, modes', -, -, hkept⟩ := Keeps.run rt hbound hcalls htracks htallied
      (fun l hl => hstarts l (List.mem_append_right ks hl)) hrest
    rw [Machine.run_append] at hlaunches ⊢
    exact (hkept id).2 hlaunches stored hstored hended
  · intro id stored hstored hnone
    obtain ⟨-, modes, htracks, htallied, -⟩ := hrun hbound hstarts hturns
    have hcounted := (htallied id stored hstored).1
    exact (hcounted.settled_of_idle fun w n => htracks.not_polled (hnone w) n).symm
  · intro id stored hstored bound' hbound' hstarts'
    obtain ⟨-, modes, -, htallied, -⟩ := hrun hbound' hstarts' hturns
    exact (htallied id stored hstored).2

end Agreement

/-! ## A scheduler and a watcher -/

instance decidableConcludes (p : FounderPool W) (w : W) (artifactId : String) :
    Decidable (Concludes p w artifactId) :=
  inferInstanceAs (Decidable (_ = true))

instance decidableInTurn [Fintype W] [DecidableEq W] (p : FounderPool W) (w : W)
    (input : FounderInput) : (a : FounderAction) → Decidable (InTurn p w input a)
  | .request (.getScan none _ _) => inferInstanceAs (Decidable True)
  | .request (.getScan (some artifactId) attempts _) =>
      inferInstanceAs (Decidable ((∀ v, v ≠ w → ¬ Concludes p v artifactId) ∧
        ∀ stored ∈ p.shared.progress artifactId, stored.1 = attempts))
  | .request (.latestReport _ _) => inferInstanceAs (Decidable True)
  | .desk (.persistPollProgress artifactId attempts outcome _ _) =>
      inferInstanceAs (Decidable ((input.refusal.isSome → outcome.attempts = attempts) ∧
        ∀ stored ∈ p.shared.progress artifactId,
          stored.1 = attempts ∧ (stored.2 → outcome.status.isTerminal)))
  | .desk (.queueScan artifactId _ _) =>
      inferInstanceAs (Decidable (∀ v, ¬ Concludes p v artifactId))
  | .desk (.getFounderArtifact _) => inferInstanceAs (Decidable True)
  | .desk (.listFounderArtifacts _) => inferInstanceAs (Decidable True)
  | .desk (.claimFounderArtifactPoll ..) => inferInstanceAs (Decidable True)
  | .desk (.releaseFounderArtifactPoll _) => inferInstanceAs (Decidable True)
  | .desk .openClient => inferInstanceAs (Decidable True)

instance decidableTakesTurns [Fintype W] [DecidableEq W] (p : FounderPool W) :
    (l : Program.PoolStep W FounderCall FounderInput) → Decidable (TakesTurns p l)
  | .start _ _ => inferInstanceAs (Decidable True)
  | .act w input => inferInstanceAs (Decidable (∀ next ∈ p.next? w, InTurn p w input next.2))

/-- The moments of one morning, in microseconds, with their texts. -/
def watchTexts : List (ℤ × String) :=
  [((Instant.morning 0).val - 60000000, "2026-01-05T08:59:00+00:00"),
    ((Instant.morning 0).val, "2026-01-05T09:00:00+00:00"),
    ((Instant.morning 1).val, "2026-01-05T09:01:00+00:00"),
    ((Instant.morning 3).val, "2026-01-05T09:03:00+00:00"),
    ((Instant.morning 5).val, "2026-01-05T09:05:00+00:00")]

def watchText (t : ℤ) : String :=
  ((watchTexts.find? fun entry => entry.1 = t).map Prod.snd).getD "2026-01-05T10:00:00+00:00"

/-- Payloads without secrets, on that morning. -/
def watchRuntime : Runtime where
  parseTimestamp text := if text = "2026-01-05T09:00:00+00:00" then some (.morning 0) else none
  isoformat t := watchText t.val
  shifted t seconds := watchText (t.val + roundHalfEven (seconds * 1000000))
  redactFields fields := fields
  redactValue value := value

def PollClock.at (t : Instant) : PollClock :=
  { startedAt := t, unparsedAt := t, now := t, claimedAt := t, staleAt := t, polledAt := t
    persistedAt := t }

def watchedArtifact : SavedArtifact where
  artifactId := "artifact"
  projectId := "project"
  bundleHash := "hash"
  bundle := .object []
  createdAt := "2026-01-05T09:00:00+00:00"

/-- An iteration of the watcher, or of the scheduler. -/
def pollAt (t : Instant) : FounderCall :=
  .advance
    { lpProjectId := "project", scanId := "scan", artifactId := some "artifact", clock := .at t }

def launch : List (Program.PoolStep Bool FounderCall FounderInput) :=
  [.start true (.queue (some "artifact") [("scanId", .text "scan"), ("status", .text "queued")]
    (.morning 0)), .act true {}, .act true {}]

/-- What an iteration does up to its `get_scan`: it reads, claims and opens the client. -/
def upToScan (w : Bool) (t : Instant) (scan : JsonFields) :
    List (Program.PoolStep Bool FounderCall FounderInput) :=
  [.start w (pollAt t), .act w {}, .act w {}, .act w {}, .act w { scan := .ok scan }]

/-- The write of the progress, the release of the claim and the return. -/
def afterwards (w : Bool) : List (Program.PoolStep Bool FounderCall FounderInput) :=
  [.act w {}, .act w {}, .act w {}]

def reportTo (w : Bool) : Program.PoolStep Bool FounderCall FounderInput :=
  .act w { report := .ok (.object [("reportId", .text "report")]) }

/-- The watcher finds the scan running, the scheduler finds it completed. -/
def oneByOne : List (Program.PoolStep Bool FounderCall FounderInput) :=
  launch ++ upToScan true (.morning 1) [("status", .text "running")] ++ afterwards true ++
    upToScan false (.morning 5) [("status", .text "completed")] ++ [reportTo false] ++
    afterwards false

/-- The answer to the watcher takes four minutes, in which the scheduler claims the poll anew. -/
def overtaken : List (Program.PoolStep Bool FounderCall FounderInput) :=
  launch ++ upToScan true (.morning 1) [("status", .text "running")] ++
    upToScan false (.morning 5) [("status", .text "completed")] ++ [reportTo false] ++
    afterwards false ++ afterwards true

theorem pollingAgrees_oneByOne : PollingAgrees watchRuntime [watchedArtifact] oneByOne :=
  pollingAgrees watchRuntime [watchedArtifact] oneByOne (by decide +kernel)

/-- The write of the watcher brings a completed scan back, and two calls count as one attempt. -/
theorem not_pollingAgrees : ¬ PollingAgrees watchRuntime [watchedArtifact] overtaken := by
  intro h
  have hattempts := h.attempts "artifact" (1, false) (by decide +kernel) (by decide +kernel)
  have hscans : ((founderPolling Bool watchRuntime [watchedArtifact]).run
      overtaken).shared.scans "artifact" = 2 := by decide +kernel
  rw [hscans] at hattempts
  simp at hattempts

end WaitLocalAgent.Founder
