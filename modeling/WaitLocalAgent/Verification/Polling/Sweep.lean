import WaitLocalAgent.Model.PollSweep

/-! # How a sweep is classified

A sweep ends idle after clean answers only. It is degraded when the deadline or the page cap ends
it between two pages, but failed when the deadline ends it between two attempts at a page. -/

namespace WaitLocalAgent.Polling

open Foundation

namespace SweepEnv

variable {τ : Type} (env : SweepEnv τ)

/-! ## What the claims say -/

/-- A ready 2xx page without a transient condition. -/
def CleanAnswer : FetchAnswer τ → Prop
  | .page page => env.pageStatus page = "ready" ∧
      (∃ status, page.httpStatus = some status ∧ 200 ≤ status ∧ status ≤ 299) ∧
        env.transientPage page = false
  | .raised _ => False

/-- All answers are clean, no page dropped a row, and the last one had no rows. -/
structure Clean (answers : List (FetchAnswer τ)) : Prop where
  fetched : ∀ answer ∈ answers, env.CleanAnswer answer
  kept : ∀ page, .page page ∈ answers → page.droppedCount = 0
  ended : ∃ page, answers.getLast? = some (.page page) ∧ page.rawCount = 0

/-- The sweep ended because the deadline ran out or the page cap was reached. -/
def Exhausted (summary : PollSummary) : Prop :=
  summary.reason = "deadline_exhausted" ∨ summary.reason = "max_pages_exhausted"

structure Classified (maxPages : ℕ) : Prop where
  idle : env.refusal = none → (∀ n, env.holdsLease n = true) →
    (∀ n records, env.ingest n records ≠ none) →
      ((env.sweep maxPages).1.status = .idle ↔ env.Clean (env.sweep maxPages).2)
  exhausted : Exhausted (env.sweep maxPages).1 → (env.sweep maxPages).1.status = .degraded

/-! ## Retries -/

/-- The answer is one that is asked for again, as long as attempts are left. -/
def Retries (pageNumber attempt : ℕ) : Prop :=
  match env.fetchPage pageNumber attempt with
  | .raised exc => exceptionReason exc ∈ retryableExceptionReasons
  | .page page => env.transientPage page = true ∧ retryAfterValue page.retryAfter ≠ none

def waitAfter (pageNumber attempt : ℕ) : Option ℚ :=
  match env.fetchPage pageNumber attempt with
  | .raised _ => none
  | .page page => (retryAfterValue page.retryAfter).getD none

/-- The deadline has not run out before the wait, nor after it. -/
def InTime (pageNumber attempt : ℕ) : Prop :=
  env.sleepForRetry pageNumber attempt (env.waitAfter pageNumber attempt) = true

/-- From attempt `a` on, every attempt before `k` is answered by one that asks for another. -/
def Repeats (pageNumber a k : ℕ) : Prop :=
  ∀ attempt, a ≤ attempt → attempt < k →
    env.Retries pageNumber attempt ∧ env.InTime pageNumber attempt

/-- The deadline runs out at one of the waits for the page. -/
def CutFrom (pageNumber a : ℕ) : Prop :=
  ∃ k, a ≤ k ∧ k < maxPageRetries ∧ env.Repeats pageNumber a k ∧ env.Retries pageNumber k ∧
    ¬ env.InTime pageNumber k

def GetsFrom (pageNumber a : ℕ) (page : ProviderPage τ) : Prop :=
  ∃ k, a ≤ k ∧ k ≤ maxPageRetries ∧ env.Repeats pageNumber a k ∧
    env.fetchPage pageNumber k = .page page ∧
      ¬ (env.transientPage page = true ∧ k < maxPageRetries)

/-- A valid page with provider rows which the lease and the sink let through. -/
def Passes (pageNumber : ℕ) : Prop :=
  ∃ page, env.GetsFrom pageNumber 0 page ∧ env.pageFailure page = none ∧ page.rawCount ≠ 0 ∧
    (page.records ≠ [] → env.holdsLease pageNumber = true ∧
      env.ingest pageNumber page.records ≠ none)

/-- No page that the sweep comes to is cut short. -/
def RetriesInTime (maxPages : ℕ) : Prop :=
  env.refusal = none → ∀ n < maxPages,
    (∀ m ≤ n, 0 < env.remaining (env.beforePage (1 + m))) → (∀ m < n, env.Passes (1 + m)) →
      ¬ env.CutFrom (1 + n) 0

/-- What an attempt ends the loop with if it is not followed by another one. -/
def lastResult (pageNumber attempt : ℕ) : Except String (ProviderPage τ) :=
  match env.fetchPage pageNumber attempt with
  | .raised exc => .error (exceptionReason exc)
  | .page page =>
      if env.transientPage page ∧ attempt < maxPageRetries then .error "invalid_retry_after"
      else .ok page

variable {env} {n a left : ℕ} {seen : Bool}

/-- After an answer that is retried, the wait either fits into the deadline or it ends the fetch. -/
theorem fetchFrom_of_retries (hretries : env.Retries n a) (ha : a < maxPageRetries) :
    (env.InTime n a → env.fetchFrom n seen a (left + 1) =
      ((env.fetchFrom n true (a + 1) left).1,
        env.fetchPage n a :: (env.fetchFrom n true (a + 1) left).2)) ∧
    (¬ env.InTime n a →
      (env.fetchFrom n seen a (left + 1)).1.result = .error "deadline_exhausted") := by
  unfold Retries at hretries
  unfold InTime waitAfter
  cases hanswer : env.fetchPage n a with
  | raised exc =>
      simp only [hanswer] at hretries
      constructor <;> intro htime <;> simp [fetchFrom, hanswer, hretries, ha, htime]
  | page page =>
      simp only [hanswer] at hretries
      obtain ⟨htransient, hvalue⟩ := hretries
      obtain ⟨retryAfter, hvalue⟩ := Option.ne_none_iff_exists'.mp hvalue
      simp only [hvalue, Option.getD_some]
      constructor <;> intro htime <;> simp [fetchFrom, hanswer, htransient, ha, hvalue, htime]

theorem fetchFrom_last (h : ¬ (env.Retries n a ∧ a < maxPageRetries)) :
    (env.fetchFrom n seen a (left + 1)).1.result = env.lastResult n a := by
  unfold Retries at h
  unfold lastResult
  cases hanswer : env.fetchPage n a with
  | raised exc =>
      simp only [hanswer] at h
      simp [fetchFrom, hanswer, h]
  | page page =>
      simp only [hanswer] at h
      by_cases hagain : env.transientPage page = true ∧ a < maxPageRetries
      · have hvalue : retryAfterValue page.retryAfter = none := by
          by_contra hvalue
          exact h ⟨⟨hagain.1, hvalue⟩, hagain.2⟩
        simp [fetchFrom, hanswer, hagain, hvalue]
      · simp [fetchFrom, hanswer, hagain]

/-- The reasons of an answer are not those of the clock. -/
theorem lastResult_ne {reason : String} (h : env.lastResult n a = .error reason) :
    reason ≠ "deadline_exhausted" ∧ reason ≠ "max_pages_exhausted" := by
  unfold lastResult at h
  split at h
  · rename_i exc _
    cases h
    unfold exceptionReason
    split_ifs
    · decide
    · decide
    · decide
    · decide
    · decide
    · split <;> decide
  · split at h
    · cases h
      decide
    · cases h

variable {page : ProviderPage τ}

theorem lastResult_eq_ok : env.lastResult n a = .ok page ↔
    env.fetchPage n a = .page page ∧ ¬ (env.transientPage page = true ∧ a < maxPageRetries) := by
  unfold lastResult
  cases hanswer : env.fetchPage n a with
  | raised exc => simp
  | page page' =>
      simp only [FetchAnswer.page.injEq]
      split
      · rename_i hagain
        simp only [reduceCtorEq, false_iff]
        rintro ⟨rfl, hlast⟩
        exact hlast hagain
      · rename_i hagain
        simp only [Except.ok.injEq]
        constructor
        · rintro rfl
          exact ⟨rfl, hagain⟩
        · exact And.left

theorem repeats_succ_iff {k : ℕ} (hretries : env.Retries n a) (htime : env.InTime n a) :
    env.Repeats n a k ↔ env.Repeats n (a + 1) k := by
  constructor
  · intro h b hb hk
    exact h b (by omega) hk
  · intro h b hb hk
    rcases Nat.eq_or_lt_of_le hb with rfl | hlt
    · exact ⟨hretries, htime⟩
    · exact h b hlt hk

theorem transientPage_of_retries (hretries : env.Retries n a)
    (hpage : env.fetchPage n a = .page page) : env.transientPage page = true := by
  simp only [Retries, hpage] at hretries
  exact hretries.1

theorem cutFrom_succ_iff (hretries : env.Retries n a) (htime : env.InTime n a) :
    env.CutFrom n a ↔ env.CutFrom n (a + 1) := by
  simp only [CutFrom, repeats_succ_iff hretries htime]
  constructor
  · rintro ⟨k, hak, hk, hrepeats, hlast, hcut⟩
    have hne : a ≠ k := by
      rintro rfl
      exact hcut htime
    exact ⟨k, by omega, hk, hrepeats, hlast, hcut⟩
  · rintro ⟨k, hak, hk, hrepeats, hlast, hcut⟩
    exact ⟨k, by omega, hk, hrepeats, hlast, hcut⟩

theorem getsFrom_succ_iff (hretries : env.Retries n a)
    (ha : a < maxPageRetries) (htime : env.InTime n a) :
    env.GetsFrom n a page ↔ env.GetsFrom n (a + 1) page := by
  simp only [GetsFrom, repeats_succ_iff hretries htime]
  constructor
  · rintro ⟨k, hak, hk, hrepeats, hpage, hlast⟩
    have hne : a ≠ k := by
      rintro rfl
      exact hlast ⟨transientPage_of_retries hretries hpage, ha⟩
    exact ⟨k, by omega, hk, hrepeats, hpage, hlast⟩
  · rintro ⟨k, hak, hk, hrepeats, hpage, hlast⟩
    exact ⟨k, by omega, hk, hrepeats, hpage, hlast⟩

theorem fetchFrom_result (h : a + left = maxPageRetries + 1) :
    ((env.fetchFrom n seen a left).1.result = .error "deadline_exhausted" ↔ env.CutFrom n a) ∧
      (∀ page, (env.fetchFrom n seen a left).1.result = .ok page ↔ env.GetsFrom n a page) ∧
        (env.fetchFrom n seen a left).1.result ≠ .error "max_pages_exhausted" := by
  induction left generalizing a seen with
  | zero =>
      refine ⟨?_, ?_, ?_⟩
      · simp only [fetchFrom, Except.error.injEq]
        refine iff_of_false (by decide) ?_
        rintro ⟨k, hak, hk, _⟩
        omega
      · intro page
        simp only [fetchFrom, reduceCtorEq, false_iff]
        rintro ⟨k, hak, hk, _⟩
        omega
      · simp [fetchFrom]
  | succ left ih =>
      by_cases hretried : env.Retries n a ∧ a < maxPageRetries
      · obtain ⟨hretries, ha⟩ := hretried
        by_cases htime : env.InTime n a
        · rw [(fetchFrom_of_retries hretries ha).1 htime, cutFrom_succ_iff hretries htime]
          simp only [getsFrom_succ_iff hretries ha htime]
          exact ih (by omega)
        · rw [(fetchFrom_of_retries hretries ha).2 htime]
          refine ⟨iff_of_true rfl ⟨a, le_rfl, ha, ?_, hretries, htime⟩, ?_, by simp⟩
          · intro b hab hba
            omega
          · intro page
            simp only [reduceCtorEq, false_iff]
            rintro ⟨k, hak, hk, hrepeats, hpage, hlast⟩
            rcases Nat.eq_or_lt_of_le hak with rfl | hlt
            · exact hlast ⟨transientPage_of_retries hretries hpage, ha⟩
            · exact htime (hrepeats a le_rfl hlt).2
      · rw [fetchFrom_last hretried]
        refine ⟨iff_of_false ?_ ?_, ?_, ?_⟩
        · intro hcut
          exact (lastResult_ne hcut).1 rfl
        · rintro ⟨k, hak, hk, hrepeats, hlast, _⟩
          rcases Nat.eq_or_lt_of_le hak with rfl | hlt
          · exact hretried ⟨hlast, hk⟩
          · exact hretried ⟨(hrepeats a le_rfl hlt).1, by omega⟩
        · intro page
          rw [lastResult_eq_ok]
          constructor
          · intro hpage
            exact ⟨a, le_rfl, by omega, fun b hab hba => absurd hba (by omega), hpage⟩
          · rintro ⟨k, hak, hk, hrepeats, hpage⟩
            rcases Nat.eq_or_lt_of_le hak with rfl | hlt
            · exact hpage
            · exact absurd ⟨(hrepeats a le_rfl hlt).1, by omega⟩ hretried
        · intro hcap
          exact (lastResult_ne hcap).2 rfl

theorem getsFrom_unique {page page' : ProviderPage τ} (h : env.GetsFrom n 0 page)
    (h' : env.GetsFrom n 0 page') : page = page' := by
  have hspec := (@fetchFrom_result _ env n 0 (maxPageRetries + 1) false (Nat.zero_add _)).2.1
  have heq := ((hspec page).mpr h).symm.trans ((hspec page').mpr h')
  exact Except.ok.inj heq

theorem not_cutFrom_of_getsFrom (h : env.GetsFrom n 0 page) :
    ¬ env.CutFrom n 0 := by
  obtain ⟨hcut, hpage, _⟩ :=
    @fetchFrom_result _ env n 0 (maxPageRetries + 1) false (Nat.zero_add _)
  intro hc
  have h₁ := hcut.mpr hc
  rw [(hpage page).mpr h] at h₁
  cases h₁

/-! ## Exhaustion -/

theorem pageFailure_ne {failure : String}
    (h : env.pageFailure page = some failure) :
    failure ≠ "deadline_exhausted" ∧ failure ≠ "max_pages_exhausted" := by
  unfold pageFailure at h
  split_ifs at h <;> cases h <;> decide

/-- How the loop body ends a sweep, or lets it go on. -/
theorem handleFetched_cases (state : SweepState) {fetched : FetchOutcome τ}
    (hfetched : (env.fetchWithRetries n).1 = fetched) :
    (env.CutFrom n 0 ∧ ∃ summary, env.handleFetched state n fetched = .error summary ∧
        Exhausted summary ∧ summary.status = .failed) ∨
      (¬ env.CutFrom n 0 ∧ ¬ env.Passes n ∧ ∃ summary,
        env.handleFetched state n fetched = .error summary ∧
          (Exhausted summary → summary.status = .degraded)) ∨
      (¬ env.CutFrom n 0 ∧ env.Passes n ∧ ∃ state',
        env.handleFetched state n fetched = .ok state') := by
  obtain ⟨hcut, hpage, hcap⟩ :=
    @fetchFrom_result _ env n 0 (maxPageRetries + 1) false (Nat.zero_add _)
  change ((env.fetchWithRetries n).1.result = _ ↔ _) at hcut
  change ∀ page, (env.fetchWithRetries n).1.result = _ ↔ _ at hpage
  change (env.fetchWithRetries n).1.result ≠ _ at hcap
  rw [hfetched] at hcut hcap
  simp only [hfetched] at hpage
  unfold handleFetched
  cases hresult : fetched.result with
  | error reason =>
      simp only
      by_cases hdeadline : reason = "deadline_exhausted"
      · subst hdeadline
        exact .inl ⟨hcut.mp hresult, _, rfl, .inl rfl, rfl⟩
      · right
        left
        refine ⟨?_, ?_, _, rfl, ?_⟩
        · intro hc
          have h := hcut.mpr hc
          rw [hresult] at h
          exact hdeadline (Except.error.inj h)
        · rintro ⟨page, hgets, _⟩
          have h := (hpage page).mpr hgets
          rw [hresult] at h
          cases h
        · rintro (h | h)
          · exact absurd h hdeadline
          · refine absurd (hresult.trans ?_) hcap
            rw [show reason = _ from h]
  | ok page =>
      have hgets := (hpage page).mp hresult
      have hno := not_cutFrom_of_getsFrom hgets
      simp only
      cases hfailure : env.pageFailure page with
      | some failure =>
          right
          left
          refine ⟨hno, ?_, _, rfl, ?_⟩
          · rintro ⟨page', hgets', hvalid, _⟩
            rw [getsFrom_unique hgets' hgets, hfailure] at hvalid
            cases hvalid
          · rintro (h | h)
            · exact absurd h (pageFailure_ne hfailure).1
            · exact absurd h (pageFailure_ne hfailure).2
      | none =>
          have hunique : env.Passes n → page.rawCount ≠ 0 ∧ (page.records ≠ [] →
              env.holdsLease n = true ∧ env.ingest n page.records ≠ none) := by
            rintro ⟨page', hgets', _, hpasses⟩
            rwa [getsFrom_unique hgets' hgets] at hpasses
          simp only
          by_cases hraw : page.rawCount = 0
          · right
            left
            rw [if_pos hraw]
            refine ⟨hno, fun h => (hunique h).1 hraw, _, rfl, ?_⟩
            cases degradedAfter state fetched page with
            | none =>
                rintro (h | h)
                · exact absurd h (by simp [summary])
                · exact absurd h (by simp [summary])
            | some reason => exact fun _ => rfl
          · rw [if_neg hraw]
            by_cases hrecords : page.records = []
            · right
              right
              rw [if_pos (by simp [hrecords])]
              exact ⟨hno, ⟨page, hgets, hfailure, hraw, fun h => absurd hrecords h⟩, _, rfl⟩
            · rw [if_neg (by simp [hrecords])]
              cases hlease : env.holdsLease n with
              | false =>
                  right
                  left
                  refine ⟨hno, ?_, _, rfl, fun _ => rfl⟩
                  intro h
                  have hheld := ((hunique h).2 hrecords).1
                  rw [hlease] at hheld
                  cases hheld
              | true =>
                  cases hingest : env.ingest n page.records with
                  | none =>
                      right
                      left
                      refine ⟨hno, fun h => ((hunique h).2 hrecords).2 hingest, _, rfl, ?_⟩
                      rintro (h | h)
                      · exact absurd h (by simp [summary])
                      · exact absurd h (by simp [summary])
                  | some ingest =>
                      right
                      right
                      refine ⟨hno, ⟨page, hgets, hfailure, hraw, fun _ => ⟨hlease, ?_⟩⟩, _, rfl⟩
                      rw [hingest]
                      exact Option.some_ne_none _

/-- An exhausted sweep is degraded unless it comes to a page that is cut short. -/
theorem sweepFrom_exhausted_iff (n : ℕ) (state : SweepState) (left : ℕ) :
    (Exhausted (env.sweepFrom n state left).1 →
      (env.sweepFrom n state left).1.status = .degraded) ↔
    ∀ k < left, (∀ m ≤ k, 0 < env.remaining (env.beforePage (n + m))) →
      (∀ m < k, env.Passes (n + m)) → ¬ env.CutFrom (n + k) 0 := by
  induction left generalizing n state with
  | zero => simp [sweepFrom, summary, SweepStatus.toPollStatus]
  | succ left ih =>
      by_cases hstart : env.remaining (env.beforePage n) ≤ 0
      · simp only [sweepFrom, if_pos hstart]
        refine iff_of_true (fun _ => rfl) ?_
        intro k _ hstarts
        exact absurd (hstarts 0 (Nat.zero_le _)) (not_lt.mpr hstart)
      · simp only [sweepFrom, if_neg hstart]
        have hfirst : 0 < env.remaining (env.beforePage (n + 0)) := not_le.mp hstart
        rcases handleFetched_cases (n := n) { state with pagesFetched := state.pagesFetched + 1 }
          rfl with ⟨hcut, summary, hend, hexhausted, hstatus⟩ |
            ⟨hcut, hpasses, summary, hend, hdegraded⟩ | ⟨hcut, hpasses, state', hgoes⟩
        · rw [hend]
          refine iff_of_false ?_ ?_
          · intro h
            rw [hstatus] at h
            cases h hexhausted
          · intro h
            refine h 0 (Nat.succ_pos _) ?_ (fun m hm => absurd hm (Nat.not_lt_zero _)) hcut
            intro m hm
            rwa [Nat.le_zero.mp hm]
        · rw [hend]
          refine iff_of_true hdegraded ?_
          intro k hk hstarts hpast
          cases k with
          | zero => exact hcut
          | succ k => exact absurd (hpast 0 (Nat.succ_pos _)) hpasses
        · rw [hgoes]
          simp only
          rw [ih (n + 1) state']
          constructor
          · intro h k hk hstarts hpast
            cases k with
            | zero => exact hcut
            | succ k =>
                have hnext := h k (by omega) ?_ ?_
                · rwa [Nat.add_right_comm, Nat.add_assoc] at hnext
                · intro m hm
                  have := hstarts (m + 1) (by omega)
                  rwa [Nat.add_right_comm, Nat.add_assoc]
                · intro m hm
                  have := hpast (m + 1) (by omega)
                  rwa [Nat.add_right_comm, Nat.add_assoc]
          · intro h k hk hstarts hpast
            have hnext := h (k + 1) (by omega) ?_ ?_
            · rwa [Nat.add_right_comm, Nat.add_assoc]
            · intro m hm
              cases m with
              | zero => exact hfirst
              | succ m =>
                  have := hstarts m (by omega)
                  rwa [Nat.add_right_comm, Nat.add_assoc] at this
            · intro m hm
              cases m with
              | zero => exact hpasses
              | succ m =>
                  have := hpast m (by omega)
                  rwa [Nat.add_right_comm, Nat.add_assoc] at this

/-! ## Idle sweeps -/

theorem validRetryAfter_of_success {status : ℤ}
    (h : page.httpStatus = some status) (hlow : 200 ≤ status) (hhigh : status ≤ 299) :
    validRetryAfter page.retryAfter = true := by
  rw [page.throttled (by simp [h]; omega) (by simp [h]; omega)]
  rfl

/-- A clean page is handed on unless its counts are no counts. -/
theorem pageFailure_of_clean (h : env.CleanAnswer (.page page)) :
    env.pageFailure page = none ↔ 0 ≤ page.rawCount ∧ 0 ≤ page.droppedCount := by
  obtain ⟨hready, ⟨status, hstatus, hlow, hhigh⟩, _⟩ := h
  have hvalid := validRetryAfter_of_success hstatus hlow hhigh
  have hserver : isServerError page = false := by
    simp [isServerError, hstatus]
    omega
  have htimeout : status ≠ 408 := by omega
  have hlimited : status ≠ 429 := by omega
  by_cases hraw : page.rawCount < 0
  · simp [pageFailure, hvalid, hraw]
  · by_cases hdropped : page.droppedCount < 0
    · simp [pageFailure, hvalid, hraw, hdropped]
    · simp [pageFailure, hvalid, hraw, hdropped, hready, hstatus, htimeout, hlimited, hserver, hlow,
        hhigh]
      omega

theorem fetchWithRetries_of_clean (hpage : env.fetchPage n 0 = .page page)
    (h : env.CleanAnswer (.page page)) :
    env.fetchWithRetries n = (⟨.ok page, false⟩, [.page page]) := by
  simp [fetchWithRetries, fetchFrom, hpage, h.2.2]

theorem head_mem_fetchFrom (seen : Bool) (a left : ℕ) :
    env.fetchPage n a ∈ (env.fetchFrom n seen a (left + 1)).2 := by
  simp only [fetchFrom]
  split
  · rename_i hanswer
    rw [hanswer]
    split_ifs <;> simp
  · rename_i hanswer
    rw [hanswer]
    split_ifs
    · split
      · simp
      · split_ifs <;> simp
    · simp

theorem transientSeen_fetchFrom (a left : ℕ) :
    (env.fetchFrom n true a left).1.transientSeen = true := by
  induction left generalizing a with
  | zero => rfl
  | succ left ih =>
      simp only [fetchFrom]
      split
      · split_ifs
        · exact ih _
        · rfl
        · rfl
      · split_ifs
        · split
          · rfl
          · split_ifs
            · exact ih _
            · rfl
        · rfl

theorem ready_of_pageFailure (h : env.pageFailure page = none) :
    env.pageStatus page = "ready" ∧
      ∃ status, page.httpStatus = some status ∧ 200 ≤ status ∧ status ≤ 299 := by
  unfold pageFailure at h
  split_ifs at h with _ _ _ _ _ _ _ hready _ hsuccess
  simp only [Bool.not_eq_true', Bool.not_eq_false, Option.any_eq_true, Bool.and_eq_true,
    decide_eq_true_eq] at hsuccess
  exact ⟨not_not.mp hready, hsuccess⟩

/-- What an answer that is not clean leaves behind: no page, a transient condition, or a page that
is turned down. -/
theorem fetchWithRetries_of_not_clean (h : ¬ env.CleanAnswer (env.fetchPage n 0)) :
    (∃ reason, (env.fetchWithRetries n).1.result = .error reason) ∨
      (env.fetchWithRetries n).1.transientSeen = true ∨
        ∃ page, (env.fetchWithRetries n).1.result = .ok page ∧ env.pageFailure page ≠ none := by
  by_cases hretried : env.Retries n 0 ∧ 0 < maxPageRetries
  · by_cases htime : env.InTime n 0
    · right
      left
      rw [fetchWithRetries, (fetchFrom_of_retries hretried.1 hretried.2).1 htime]
      exact transientSeen_fetchFrom _ _
    · left
      exact ⟨_, (fetchFrom_of_retries hretried.1 hretried.2).2 htime⟩
  · have hlast : (env.fetchWithRetries n).1.result = env.lastResult n 0 := fetchFrom_last hretried
    rw [hlast]
    cases hresult : env.lastResult n 0 with
    | error reason => exact .inl ⟨reason, rfl⟩
    | ok page =>
        obtain ⟨hpage, hnot⟩ := lastResult_eq_ok.mp hresult
        have htransient : env.transientPage page = false := by
          rw [Bool.eq_false_iff]
          exact fun ht => hnot ⟨ht, by decide⟩
        refine .inr (.inr ⟨page, rfl, ?_⟩)
        rw [hpage] at h
        intro hvalid
        obtain ⟨hready, hsuccess⟩ := ready_of_pageFailure hvalid
        exact h ⟨hready, hsuccess, htransient⟩

theorem handleFetched_not_idle {state : SweepState} {fetched : FetchOutcome τ}
    (h : ∀ page, fetched.result = .ok page → env.pageFailure page = none →
      degradedAfter state fetched page ≠ none) :
    (∀ summary, env.handleFetched state n fetched = .error summary → summary.status ≠ .idle) ∧
      ∀ state', env.handleFetched state n fetched = .ok state' → state'.degradedReason ≠ none := by
  unfold handleFetched
  cases hresult : fetched.result with
  | error reason =>
      simp only [Except.error.injEq, reduceCtorEq, false_implies, implies_true, and_true]
      rintro _ rfl
      split_ifs <;> simp [summary, SweepStatus.toPollStatus]
  | ok page =>
      simp only
      cases hfailure : env.pageFailure page with
      | some failure =>
          simp only [Except.error.injEq, reduceCtorEq, false_implies, implies_true, and_true]
          rintro _ rfl
          split_ifs <;> simp [summary, SweepStatus.toPollStatus]
      | none =>
          obtain ⟨reason, hreason⟩ := Option.ne_none_iff_exists'.mp (h page hresult hfailure)
          simp only [hreason]
          by_cases hraw : page.rawCount = 0
          · simp [hraw, summary, SweepStatus.toPollStatus]
          · by_cases hrecords : page.records = []
            · simp [hraw, hrecords]
            · cases hlease : env.holdsLease n with
              | false => simp [hraw, hrecords, summary, SweepStatus.toPollStatus]
              | true =>
                  cases hingest : env.ingest n page.records with
                  | none => simp [hraw, hrecords, summary, SweepStatus.toPollStatus]
                  | some ingest => simp [hraw, hrecords]

/-- A reason that sticks keeps a sweep from ending idle. -/
theorem status_ne_idle_of_degraded (n : ℕ) {state : SweepState} (left : ℕ)
    (h : state.degradedReason ≠ none) : (env.sweepFrom n state left).1.status ≠ .idle := by
  induction left generalizing n state with
  | zero => simp [sweepFrom, summary, SweepStatus.toPollStatus]
  | succ left ih =>
      simp only [sweepFrom]
      split
      · simp [summary, SweepStatus.toPollStatus]
      · obtain ⟨hends, hgoes⟩ := @handleFetched_not_idle _ env n
          { state with pagesFetched := state.pagesFetched + 1 } (env.fetchWithRetries n).1
            (by
              intro page _ _
              unfold degradedAfter
              split_ifs <;> simp [h])
        split
        · rename_i summary hsummary
          exact hends summary hsummary
        · rename_i state' hstate
          exact ih (n + 1) (hgoes state' hstate)

theorem status_ne_idle_of_not_clean (n : ℕ) (state : SweepState) (left : ℕ)
    (hstart : ¬ env.remaining (env.beforePage n) ≤ 0)
    (h : ¬ env.CleanAnswer (env.fetchPage n 0)) :
    (env.sweepFrom n state (left + 1)).1.status ≠ .idle := by
  obtain ⟨hends, hgoes⟩ := @handleFetched_not_idle _ env n
    { state with pagesFetched := state.pagesFetched + 1 } (env.fetchWithRetries n).1 (by
      intro page hpage hvalid
      rcases fetchWithRetries_of_not_clean h with ⟨reason, hreason⟩ | hseen | ⟨page', hpage', hno⟩
      · rw [hpage] at hreason
        cases hreason
      · unfold degradedAfter
        rw [if_pos hseen]
        split_ifs <;> simp
      · rw [hpage] at hpage'
        cases hpage'
        exact absurd hvalid hno)
  simp only [sweepFrom, if_neg hstart]
  split
  · rename_i summary hsummary
    exact hends summary hsummary
  · rename_i state' hstate
    exact status_ne_idle_of_degraded (n + 1) left (hgoes state' hstate)

theorem clean_cons_iff {answers : List (FetchAnswer τ)}
    (h : env.CleanAnswer (.page page)) (hraw : page.rawCount ≠ 0) :
    env.Clean (.page page :: answers) ↔ page.droppedCount = 0 ∧ env.Clean answers := by
  constructor
  · intro hclean
    refine ⟨hclean.kept page List.mem_cons_self, ?_, ?_, ?_⟩
    · exact fun answer hmem => hclean.fetched answer (List.mem_cons_of_mem _ hmem)
    · exact fun page' hmem => hclean.kept page' (List.mem_cons_of_mem _ hmem)
    · obtain ⟨last, hlast, hzero⟩ := hclean.ended
      cases answers with
      | nil =>
          cases hlast
          exact absurd hzero hraw
      | cons answer answers => exact ⟨last, by rwa [List.getLast?_cons_cons] at hlast, hzero⟩
  · rintro ⟨hkept, hclean⟩
    refine ⟨?_, ?_, ?_⟩
    · intro answer hmem
      rcases List.mem_cons.mp hmem with rfl | hmem
      · exact h
      · exact hclean.fetched answer hmem
    · intro page' hmem
      rcases List.mem_cons.mp hmem with heq | hmem
      · cases heq
        exact hkept
      · exact hclean.kept page' hmem
    · obtain ⟨last, hlast, hzero⟩ := hclean.ended
      cases answers with
      | nil => cases hlast
      | cons answer answers => exact ⟨last, by rwa [List.getLast?_cons_cons], hzero⟩

theorem not_clean_nil : ¬ env.Clean [] := by
  intro h
  obtain ⟨_, hlast, _⟩ := h.ended
  cases hlast

/-- A clean page: the sweep ends with it, or goes on as the rest of the pages decides. -/
theorem sweepFrom_idle_step (hlease : ∀ n, env.holdsLease n = true)
    (hingest : ∀ n records, env.ingest n records ≠ none) (state : SweepState)
    (hstart : ¬ env.remaining (env.beforePage n) ≤ 0)
    (hclean : env.CleanAnswer (env.fetchPage n 0)) (hstate : state.degradedReason = none)
    (ih : ∀ (n : ℕ) (state : SweepState), state.degradedReason = none →
      ((env.sweepFrom n state left).1.status = .idle ↔
        env.Clean (env.sweepFrom n state left).2)) :
    (env.sweepFrom n state (left + 1)).1.status = .idle ↔
      env.Clean (env.sweepFrom n state (left + 1)).2 := by
  cases hpage : env.fetchPage n 0 with
  | raised exc =>
      rw [hpage] at hclean
      cases hclean
  | page page =>
      rw [hpage] at hclean
      have hfetch := fetchWithRetries_of_clean hpage hclean
      have hafter : degradedAfter { state with pagesFetched := state.pagesFetched + 1 }
          ⟨.ok page, false⟩ page = if page.droppedCount ≠ 0 then some "dropped_rows" else none := by
        simp [degradedAfter, hstate]
      simp only [sweepFrom, if_neg hstart, hfetch, handleFetched, hafter]
      cases hfailure : env.pageFailure page with
      | some failure =>
          refine iff_of_false ?_ ?_
          · simp only
            split_ifs <;> simp [summary, SweepStatus.toPollStatus]
          · intro h
            obtain ⟨last, hlast, hzero⟩ := h.ended
            cases hlast
            have hkept := h.kept page List.mem_cons_self
            have hvalid := (pageFailure_of_clean hclean).mpr ⟨hzero.ge, hkept.ge⟩
            rw [hvalid] at hfailure
            cases hfailure
      | none =>
          by_cases hraw : page.rawCount = 0
          · have hsingle : env.Clean [.page page] ↔ page.droppedCount = 0 := by
              constructor
              · exact fun h => h.kept page List.mem_cons_self
              · intro hkept
                refine ⟨by simpa using hclean, ?_, page, rfl, hraw⟩
                simpa using hkept
            simp only [if_pos hraw, hsingle]
            by_cases hdropped : page.droppedCount = 0
            · simp [hdropped, summary, SweepStatus.toPollStatus]
            · simp [hdropped, summary, SweepStatus.toPollStatus]
          · simp only [if_neg hraw, hlease, Bool.not_true, Bool.false_eq_true, if_false]
            have hrest : ∀ state' : SweepState, state'.degradedReason =
                (if page.droppedCount ≠ 0 then some "dropped_rows" else none) →
                  ((env.sweepFrom (n + 1) state' left).1.status = .idle ↔
                    env.Clean (.page page :: (env.sweepFrom (n + 1) state' left).2)) := by
              intro state' hstate'
              rw [clean_cons_iff hclean hraw]
              by_cases hdropped : page.droppedCount = 0
              · rw [ih (n + 1) state' (by simpa [hdropped] using hstate')]
                simp [hdropped]
              · have hne : state'.degradedReason ≠ none := by simp [hstate', hdropped]
                exact iff_of_false (status_ne_idle_of_degraded (n + 1) left hne)
                  fun h => hdropped h.1
            obtain ⟨ingested, hingested⟩ :=
              Option.ne_none_iff_exists'.mp (hingest n page.records)
            rw [hingested]
            by_cases hrecords : page.records.isEmpty = true
            · rw [if_pos hrecords]
              exact hrest _ rfl
            · rw [if_neg hrecords]
              exact hrest _ rfl

/-- With its lease kept and its ingests done, a sweep that no reason sticks to ends idle exactly if
its answers are clean. -/
theorem sweepFrom_idle_iff (hlease : ∀ n, env.holdsLease n = true)
    (hingest : ∀ n records, env.ingest n records ≠ none) (n : ℕ) (state : SweepState)
    (left : ℕ) (hstate : state.degradedReason = none) :
    (env.sweepFrom n state left).1.status = .idle ↔ env.Clean (env.sweepFrom n state left).2 := by
  induction left generalizing n state with
  | zero =>
      exact iff_of_false (by simp [sweepFrom, summary, SweepStatus.toPollStatus]) not_clean_nil
  | succ left ih =>
      by_cases hstart : env.remaining (env.beforePage n) ≤ 0
      · simp only [sweepFrom, if_pos hstart]
        exact iff_of_false (by simp [summary, SweepStatus.toPollStatus]) not_clean_nil
      · by_cases hclean : env.CleanAnswer (env.fetchPage n 0)
        · exact sweepFrom_idle_step hlease hingest state hstart hclean hstate ih
        · refine iff_of_false (status_ne_idle_of_not_clean n state left hstart hclean) ?_
          intro h
          apply hclean
          apply h.fetched
          have hhead := @head_mem_fetchFrom _ env n false 0 maxPageRetries
          change _ ∈ (env.fetchWithRetries n).2 at hhead
          simp only [sweepFrom, if_neg hstart]
          split
          · exact hhead
          · exact List.mem_append_left _ hhead

/-! ## The law -/

/-- Every sweep is classified as described exactly if no page that it comes to is cut short by the
deadline between two attempts. -/
theorem classified_iff_retriesInTime (env : SweepEnv τ) (maxPages : ℕ) :
    env.Classified maxPages ↔ env.RetriesInTime maxPages := by
  have hidle : env.refusal = none → (∀ n, env.holdsLease n = true) →
      (∀ n records, env.ingest n records ≠ none) →
        ((env.sweep maxPages).1.status = .idle ↔ env.Clean (env.sweep maxPages).2) := by
    intro hopen hlease hingest
    simp only [sweep, hopen]
    exact sweepFrom_idle_iff hlease hingest 1 {} maxPages rfl
  have hexhausted : (Exhausted (env.sweep maxPages).1 →
      (env.sweep maxPages).1.status = .degraded) ↔ env.RetriesInTime maxPages := by
    unfold RetriesInTime sweep
    cases hopen : env.refusal with
    | none => simpa using sweepFrom_exhausted_iff 1 {} maxPages
    | some reason =>
        have hreason : reason ≠ "deadline_exhausted" ∧ reason ≠ "max_pages_exhausted" := by
          unfold refusal at hopen
          split at hopen
          · cases hopen
            decide
          · split_ifs at hopen <;> cases hopen <;> decide
        simp [Exhausted, summary, hreason.1, hreason.2]
  constructor
  · exact fun h => hexhausted.mp h.exhausted
  · exact fun h => ⟨hidle, hexhausted.mpr h⟩

end SweepEnv

/-! ## A provider that stays unavailable -/

def unavailable : FetchAnswer Unit :=
  .page ⟨[], "failed", 0, 0, some 503, none, by decide⟩

/-- The deadline of a second runs out during the first wait. -/
def unavailableEnv : SweepEnv Unit where
  casefold := Text.lower
  connectorInstanceId := ⟨"psa-1", by decide, by decide⟩
  instance? := some ("active", "halopsa")
  clientBuilds := true
  startedAt := 0
  deadlineSeconds := 1
  beforePage _ := 0
  beforeSleep _ _ := 0
  afterSleep _ _ delay := delay
  fetchPage _ _ := unavailable
  holdsLease _ := true
  ingest _ _ := some ⟨0, 0⟩

theorem not_classified : ¬ ∀ (env : SweepEnv Unit) (maxPages : ℕ), env.Classified maxPages := by
  intro h
  have hclassified := (h unavailableEnv 1).exhausted
  have hended : (unavailableEnv.sweep 1).1 =
      ⟨⟨"psa-1", by decide, by decide⟩, 1, 0, 0, .failed, "deadline_exhausted"⟩ := by
    decide +kernel
  rw [hended] at hclassified
  cases hclassified (.inl rfl)

end WaitLocalAgent.Polling
