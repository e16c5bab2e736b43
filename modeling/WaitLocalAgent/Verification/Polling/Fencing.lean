import WaitLocalAgent.Model.PollLeases

/-! # Poll leases are fenced

The rows of `sync_cursors` refine fenced leases: what a call does to a row is a step of its
lease. -/

namespace WaitLocalAgent.Polling

open Foundation

variable {cal : Calendar} {s s' : Store} {key : CursorKey}

/-! ## Checked arguments -/

theorem required_eq_ok {value message : String} {text : NormalizedText} :
    required value message = .ok text ↔ normalizeClientId (some value) = some text := by
  unfold required
  split
  · rename_i heq
    simp [heq]
  · rename_i heq
    simp [heq]

theorem fromisoformat_of_parse {value : String} {moment : Instant}
    (h : parseLeaseTimestamp cal value = .ok moment) : cal.fromisoformat value = some moment := by
  unfold parseLeaseTimestamp at h
  split at h
  · cases h
  · split at h
    · rename_i hparse
      cases h
      exact hparse
    · cases h

theorem parse_isoformat (moment : Instant) :
    parseLeaseTimestamp cal (cal.isoformat moment).val = .ok moment := by
  obtain ⟨hstrip, hne⟩ := (cal.isoformat moment).property
  simp [parseLeaseTimestamp, hstrip, hne, cal.fromisoformat_isoformat]

theorem leaseExpiry_eq_ok {now expiresAt : Instant} {ttlSeconds : Option ℚ}
    (h : leaseExpiry now ttlSeconds = .ok expiresAt) :
    ttlSeconds.bind now.add? = some expiresAt := by
  unfold leaseExpiry at h
  split at h
  · cases h
  · rename_i ttl httl
    split at h
    · rename_i hadd
      cases h
      rw [(Option.filter_eq_some_iff.mp httl).1, Option.bind_some, hadd]
    · cases h

theorem status_of_requireStatus {status message : String} {allowed : CursorStatus → Bool}
    {parsed : CursorStatus} (h : requireStatus status allowed message = .ok parsed) :
    allowed parsed = true := by
  unfold requireStatus at h
  split at h
  · rename_i hparsed
    cases h
    exact (Option.filter_eq_some_iff.mp hparsed).2
  · cases h

theorem cursorKey?_eq_some {connectorInstanceId cursorType : String}
    {instanceId type : NormalizedText}
    (hinstance : normalizeClientId (some connectorInstanceId) = some instanceId)
    (htype : normalizeClientId (some cursorType) = some type) :
    cursorKey? connectorInstanceId cursorType = some (instanceId, type) := by
  simp [cursorKey?, hinstance, htype]

/-! ## The lease of a row -/

/-- The expiry of a lease, when its text can be read. -/
def SyncCursor.expiry? (cal : Calendar) (row : SyncCursor) : Option Instant :=
  row.leaseExpiresAt.bind fun text => (parseLeaseTimestamp cal text).toOption

/-- What is left of a row when only its lease counts. -/
def leaseState (cal : Calendar) : Option SyncCursor → LeaseState NormalizedText Instant
  | none => ⟨none, none⟩
  | some row =>
      if row.status = .syncing then ⟨row.leaseToken, row.expiry? cal⟩ else ⟨none, none⟩

variable {row : SyncCursor} {now : Instant}

theorem leaseIsActive_iff : leaseIsActive cal row now = true ↔
    row.status = .syncing ∧ ∃ e, row.expiry? cal = some e ∧ now ≤ e := by
  unfold leaseIsActive SyncCursor.expiry?
  cases row.leaseExpiresAt with
  | none => simp
  | some text =>
      cases hparse : parseLeaseTimestamp cal text with
      | error e => simp [hparse, Except.toOption]
      | ok expiresAt => simp [hparse, Except.toOption]

/-- The program takes a row over exactly if its lease is free. -/
theorem free_of_not_active {row? : Option SyncCursor}
    (h : row?.any (fun row => leaseIsActive cal row now) = false) :
    (leaseState cal row?).Free now := by
  cases row? with
  | none =>
      intro e he
      cases he
  | some row =>
      intro e he
      have hinactive : ¬ leaseIsActive cal row now = true := by simpa using h
      rw [leaseIsActive_iff] at hinactive
      by_cases hsyncing : row.status = .syncing
      · simp only [leaseState, hsyncing, if_true] at he
        rw [← not_le]
        intro hle
        exact hinactive ⟨hsyncing, e, he, hle⟩
      · simp [leaseState, hsyncing] at he

variable {token : NormalizedText}

theorem leaseState_lease {expiresAt : Instant}
    (hstatus : row.status = .syncing) (htoken : row.leaseToken = some token)
    (hexpiry : row.leaseExpiresAt = some (cal.isoformat expiresAt).val) :
    leaseState cal (some row) = ⟨some token, some expiresAt⟩ := by
  simp [leaseState, hstatus, htoken, SyncCursor.expiry?, hexpiry, parse_isoformat,
    Except.toOption]

/-- A row without lease columns, whatever its status. -/
theorem leaseState_unleased (htoken : row.leaseToken = none)
    (hexpiry : row.leaseExpiresAt = none) : leaseState cal (some row) = ⟨none, none⟩ := by
  simp [leaseState, htoken, SyncCursor.expiry?, hexpiry]

/-! ## The operations -/

/-- A claim that is granted. -/
structure Claimed (cal : Calendar) (s s' : Store) (request : ClaimRequest) (key : CursorKey)
    (token : NormalizedText) (expiresAt now : Instant) : Prop where
  key_eq : cursorKey? request.connectorInstanceId request.cursorType = some key
  token_eq : normalizeClientId (some request.token) = some token
  now_eq : cal.fromisoformat request.now = some now
  expiry_eq : request.ttlSeconds.bind now.add? = some expiresAt
  free : (leaseState cal (s.cursors.find? key)).Free now
  result : s'.cursors = s.cursors.upsert
    (SyncCursor.leased key token (cal.isoformat expiresAt).val request.now)
    (SyncCursor.lease token (cal.isoformat expiresAt).val request.now)
    (SyncCursor.lease_key token (cal.isoformat expiresAt).val request.now)

theorem claimPollLease_eq_ok {request : ClaimRequest} {result : PollLeaseClaimResult}
    (h : claimPollLease cal s request = .ok (result, s')) :
    (result ≠ .granted ∧ s' = s) ∨
      (result = .granted ∧ ∃ key token expiresAt now,
        Claimed cal s s' request key token expiresAt now) := by
  simp only [claimPollLease, bind_eq_ok, required_eq_ok] at h
  obtain ⟨token, htoken, instanceId, hinstance, cursorType, htype, now, hnow, expiresAt,
    hexpiry, h⟩ := h
  split at h
  · cases h
    exact .inl ⟨by decide, rfl⟩
  · split at h
    · cases h
      exact .inl ⟨by decide, rfl⟩
    · rename_i hfree
      cases h
      right
      refine ⟨rfl, (instanceId, cursorType), token, expiresAt, now, ?_⟩
      exact {
        key_eq := cursorKey?_eq_some hinstance htype
        token_eq := htoken
        now_eq := fromisoformat_of_parse hnow
        expiry_eq := leaseExpiry_eq_ok hexpiry
        free := free_of_not_active (Bool.eq_false_iff.mpr hfree)
        result := rfl }

/-- A finish that returns true; every other finish leaves the rows alone. -/
structure Finished (s s' : Store) (request : FinishRequest) (key : CursorKey)
    (token : NormalizedText) (status : CursorStatus) : Prop where
  key_eq : cursorKey? request.connectorInstanceId request.cursorType = some key
  token_eq : normalizeClientId (some request.token) = some token
  terminal : status.isTerminal = true
  held : ∃ row, s.cursors.find? key = some row ∧ row.status = .syncing ∧
    row.leaseToken = some token
  result : s'.cursors = s.cursors.update (SyncCursor.isHeldBy key token)
    (SyncCursor.finish status (normalizeClientId request.cursorValue)
      (normalizeClientId request.lastSyncedAt) request.now)
    (SyncCursor.finish_key status (normalizeClientId request.cursorValue)
      (normalizeClientId request.lastSyncedAt) request.now)

theorem isHeldBy_iff :
    row.isHeldBy key token = true ↔
      row.key = key ∧ row.status = .syncing ∧ row.leaseToken = some token := by
  simp only [SyncCursor.isHeldBy, Bool.and_eq_true, decide_eq_true_eq, beq_iff_eq, and_assoc]

theorem finishPollLease_eq_ok {request : FinishRequest} {finished : Bool}
    (h : finishPollLease cal s request = .ok (finished, s')) :
    (finished = false ∧ s'.cursors = s.cursors) ∨
      (finished = true ∧ ∃ key token status, Finished s s' request key token status) := by
  simp only [finishPollLease, bind_eq_ok, required_eq_ok] at h
  obtain ⟨token, htoken, instanceId, hinstance, cursorType, htype, status, hstatus, -, -, h⟩ := h
  split at h
  · cases h
    exact .inl ⟨rfl, rfl⟩
  · cases h
    have hone : s.cursors.rowcount (SyncCursor.isHeldBy (instanceId, cursorType) token) ≤ 1 :=
      Table.rowcount_le_one fun row hrow => (isHeldBy_iff.mp hrow).1
    by_cases hheld : 0 < s.cursors.rowcount (SyncCursor.isHeldBy (instanceId, cursorType) token)
    · right
      refine ⟨by simp; omega, (instanceId, cursorType), token, status, ?_⟩
      obtain ⟨row, hrow, hmatch⟩ := Table.rowcount_pos.mp hheld
      obtain ⟨hkey, hsyncing, hlease⟩ := isHeldBy_iff.mp hmatch
      exact {
        key_eq := cursorKey?_eq_some hinstance htype
        token_eq := htoken
        terminal := status_of_requireStatus hstatus
        held := ⟨row, Table.find?_eq_some_iff.mpr ⟨hrow, hkey⟩, hsyncing, hlease⟩
        result := rfl }
    · left
      refine ⟨by simp; omega, ?_⟩
      have hnone : ∀ row ∈ s.cursors,
          SyncCursor.isHeldBy (instanceId, cursorType) token row = false := by
        intro row hrow
        by_contra hmatch
        exact hheld (Table.rowcount_pos.mpr ⟨row, hrow, by simpa using hmatch⟩)
      rw [Table.update_congr (q := fun _ => false) hnone, Table.update_false]

/-- An upsert that goes through. -/
structure Overwritten (cal : Calendar) (s s' : Store) (request : UpsertRequest) (key : CursorKey)
    (now : Instant) : Prop where
  key_eq : cursorKey? request.connectorInstanceId request.cursorType = some key
  free : (leaseState cal (s.cursors.find? key)).Free now
  result : ∃ status cursorValue lastSyncedAt text, s'.cursors = s.cursors.upsert
    (SyncCursor.unleased key status cursorValue lastSyncedAt text)
    (SyncCursor.finish status cursorValue lastSyncedAt text)
    (SyncCursor.finish_key status cursorValue lastSyncedAt text)

theorem upsertSyncCursor_eq_ok {request : UpsertRequest}
    (h : upsertSyncCursor cal s request now = .ok (row, s')) :
    ∃ key, Overwritten cal s s' request key now := by
  simp only [upsertSyncCursor, bind_eq_ok, required_eq_ok, raiseIf_eq_ok, pure_eq_ok] at h
  obtain ⟨instanceId, hinstance, cursorType, htype, status, -, -, -, -, hfree, h⟩ := h
  cases h
  refine ⟨(instanceId, cursorType), ?_⟩
  exact {
    key_eq := cursorKey?_eq_some hinstance htype
    free := free_of_not_active (Bool.eq_false_iff.mpr hfree)
    result := ⟨status, _, _, _, rfl⟩ }

/-! ## Calls are steps of leases -/

theorem Claimed.find? {request : ClaimRequest} {expiresAt now : Instant}
    (h : Claimed cal s s' request key token expiresAt now) (other : CursorKey) :
    s'.cursors.find? other = if other = key then
      some (((s.cursors.find? other).map
        (SyncCursor.lease token (cal.isoformat expiresAt).val request.now)).getD
          (SyncCursor.leased key token (cal.isoformat expiresAt).val request.now))
    else s.cursors.find? other := by
  rw [h.result, Table.find?_upsert, SyncCursor.leased_key]

theorem Claimed.leaseState {request : ClaimRequest}
    {expiresAt now : Instant} (h : Claimed cal s s' request key token expiresAt now) :
    leaseState cal (s'.cursors.find? key) = ⟨some token, some expiresAt⟩ := by
  rw [h.find?, if_pos rfl]
  cases s.cursors.find? key with
  | none => exact leaseState_lease rfl rfl rfl
  | some row => exact leaseState_lease rfl rfl rfl

theorem Finished.find? {request : FinishRequest} {status : CursorStatus}
    (h : Finished s s' request key token status) (other : CursorKey) :
    s'.cursors.find? other = if other = key then
      (s.cursors.find? other).map (SyncCursor.finish status (normalizeClientId request.cursorValue)
        (normalizeClientId request.lastSyncedAt) request.now)
    else s.cursors.find? other := by
  rw [h.result, Table.find?_update]
  cases hrow : s.cursors.find? other with
  | none => simp
  | some row =>
      have hkey := Table.key_of_find?_eq_some hrow
      by_cases hother : other = key
      · obtain ⟨held, hheld, hsyncing, htoken⟩ := h.held
        rw [hother, hheld, Option.some.injEq] at hrow
        have hmatch : row.isHeldBy key token = true := by
          rw [isHeldBy_iff, ← hrow]
          exact ⟨Table.key_of_find?_eq_some hheld, hsyncing, htoken⟩
        simp [hother, hmatch]
      · have hmiss : ¬ row.isHeldBy key token = true := by
          rw [isHeldBy_iff, hkey]
          exact fun hmatch => hother hmatch.1
        simp [hother, hmiss]

theorem Finished.leaseState {request : FinishRequest}
    {status : CursorStatus} (h : Finished s s' request key token status) :
    leaseState cal (s'.cursors.find? key) = ⟨none, none⟩ := by
  obtain ⟨row, hrow, -, -⟩ := h.held
  rw [h.find?, if_pos rfl, hrow]
  exact leaseState_unleased rfl rfl

theorem Overwritten.find? {request : UpsertRequest}
    (h : Overwritten cal s s' request key now) {other : CursorKey} (hother : other ≠ key) :
    s'.cursors.find? other = s.cursors.find? other := by
  obtain ⟨status, cursorValue, lastSyncedAt, text, hresult⟩ := h.result
  rw [hresult, Table.find?_upsert, SyncCursor.unleased_key, if_neg hother]

theorem Overwritten.leaseState {request : UpsertRequest}
    (h : Overwritten cal s s' request key now) :
    leaseState cal (s'.cursors.find? key) = ⟨none, none⟩ := by
  obtain ⟨status, cursorValue, lastSyncedAt, text, hresult⟩ := h.result
  rw [hresult, Table.find?_upsert, SyncCursor.unleased_key, if_pos rfl]
  cases s.cursors.find? key with
  | none => exact leaseState_unleased rfl rfl
  | some row => exact leaseState_unleased rfl rfl

theorem ne_of_event_eq_none {connectorInstanceId cursorType : String} {key' : CursorKey}
    (hkey : cursorKey? connectorInstanceId cursorType = some key')
    (hne : ¬ cursorKey? connectorInstanceId cursorType = some key) : key ≠ key' := by
  intro hsame
  rw [hsame] at hne
  exact hne hkey

/-- What a call does to a row: nothing, or the step of its lease that its result reports. -/
theorem LeaseCall.apply_refines (cal : Calendar) (s : Store) (l : LeaseCall) (key : CursorKey) :
    (l.event? cal s key = none ∧ (l.apply cal s).cursors.find? key = s.cursors.find? key) ∨
      ∃ e, l.event? cal s key = some e ∧ (∀ t, e.takenAt? = some t → l.clock? cal = some t) ∧
        LeaseState.Step (leaseState cal (s.cursors.find? key)) e
          (leaseState cal ((l.apply cal s).cursors.find? key)) := by
  cases l with
  | claimPollLease request =>
      simp only [event?, apply, clock?]
      cases hcall : Polling.claimPollLease cal s request with
      | error e => exact .inl ⟨rfl, rfl⟩
      | ok result =>
          obtain ⟨result, s'⟩ := result
          rcases claimPollLease_eq_ok hcall with ⟨hresult, rfl⟩ | ⟨rfl, key', token, e, now, h⟩
          · left
            cases result with
            | granted => exact absurd rfl hresult
            | locked => exact ⟨rfl, rfl⟩
            | instanceMissing => exact ⟨rfl, rfl⟩
          · by_cases hkey : cursorKey? request.connectorInstanceId request.cursorType = some key
            · right
              obtain rfl : key' = key := Option.some.inj (h.key_eq.symm.trans hkey)
              refine ⟨.granted token e now, ?_, ?_, ?_⟩
              · simp only [hkey, if_true, h.token_eq, h.now_eq, h.expiry_eq, Option.bind_some,
                  Option.map_some]
              · intro t ht
                cases ht
                exact h.now_eq
              · simp only [Except.map, committed]
                rw [h.leaseState]
                exact .granted h.free
            · left
              refine ⟨by simp [hkey], ?_⟩
              simp only [Except.map, committed]
              rw [h.find?, if_neg (ne_of_event_eq_none h.key_eq hkey)]
  | finishPollLease request =>
      simp only [event?, apply, clock?]
      cases hcall : Polling.finishPollLease cal s request with
      | error e => exact .inl ⟨rfl, rfl⟩
      | ok result =>
          obtain ⟨finished, s'⟩ := result
          rcases finishPollLease_eq_ok hcall with ⟨rfl, hsame⟩ | ⟨rfl, key', token, status, h⟩
          · left
            refine ⟨rfl, ?_⟩
            simp only [Except.map, committed]
            rw [hsame]
          · by_cases hkey : cursorKey? request.connectorInstanceId request.cursorType = some key
            · right
              obtain rfl : key' = key := Option.some.inj (h.key_eq.symm.trans hkey)
              refine ⟨.finished token, by simp [hkey, h.token_eq], by simp [LeaseEvent.takenAt?],
                ?_⟩
              obtain ⟨row, hrow, hsyncing, htoken⟩ := h.held
              simp only [Except.map, committed]
              rw [h.leaseState]
              apply LeaseState.Step.finished
              simp [hrow, Polling.leaseState, hsyncing, htoken]
            · left
              refine ⟨by simp [hkey], ?_⟩
              simp only [Except.map, committed]
              rw [h.find?, if_neg (ne_of_event_eq_none h.key_eq hkey)]
  | upsertSyncCursor request now =>
      simp only [event?, apply, clock?]
      cases hcall : Polling.upsertSyncCursor cal s request now with
      | error e => exact .inl ⟨rfl, rfl⟩
      | ok result =>
          obtain ⟨row, s'⟩ := result
          obtain ⟨key', h⟩ := upsertSyncCursor_eq_ok hcall
          by_cases hkey : cursorKey? request.connectorInstanceId request.cursorType = some key
          · right
            obtain rfl : key' = key := Option.some.inj (h.key_eq.symm.trans hkey)
            refine ⟨.overwritten now, by simp [hkey], ?_, ?_⟩
            · intro t ht
              exact ht
            · simp only [Except.map, committed]
              rw [h.leaseState]
              exact .overwritten h.free
          · left
            refine ⟨by simp [hkey], ?_⟩
            simp only [Except.map, committed]
            rw [h.find? (ne_of_event_eq_none h.key_eq hkey)]

/-! ## Runs -/

/-- A run moves the lease of a row by the events that it reports. -/
theorem leaseEvents_steps (cal : Calendar) (key : CursorKey) (s : Store) (ls : List LeaseCall) :
    LeaseState.Steps (leaseState cal (s.cursors.find? key)) (leaseEvents cal key s ls)
      (leaseState cal ((runFrom (LeaseCall.apply cal) s ls).cursors.find? key)) := by
  induction ls generalizing s with
  | nil => exact .nil _
  | cons l ls ih =>
      rw [leaseEvents, runFrom_cons]
      have hrest := ih (l.apply cal s)
      rcases l.apply_refines cal s key with ⟨hevent, hsame⟩ | ⟨e, hevent, -, hstep⟩
      · rw [hevent, ← hsame]
        exact hrest
      · rw [hevent]
        exact .cons hstep hrest

/-- The moments of the events are clock values of the calls, in order. -/
theorem leaseEvents_clock (cal : Calendar) (key : CursorKey) (s : Store) (ls : List LeaseCall) :
    ((leaseEvents cal key s ls).filterMap LeaseEvent.takenAt?).Sublist
      (ls.filterMap (LeaseCall.clock? cal)) := by
  induction ls generalizing s with
  | nil => exact .slnil
  | cons l ls ih =>
      have hrest := ih (l.apply cal s)
      have hskip : (ls.filterMap (LeaseCall.clock? cal)).Sublist
          ((l :: ls).filterMap (LeaseCall.clock? cal)) :=
        (List.sublist_cons_self l ls).filterMap _
      rcases l.apply_refines cal s key with ⟨hevent, -⟩ | ⟨e, hevent, hclock, -⟩
      · rw [leaseEvents, hevent]
        exact hrest.trans hskip
      · rw [leaseEvents, hevent, Option.toList_some, List.singleton_append]
        cases htaken : e.takenAt? with
        | none =>
            rw [List.filterMap_cons_none htaken]
            exact hrest.trans hskip
        | some t =>
            rw [List.filterMap_cons_some htaken, List.filterMap_cons_some (hclock t htaken)]
            exact hrest.cons_cons t

/-- Poll leases are fenced, in any interleaving of calls on rows that start without a token. A
finish goes through only right after the claim that was granted to its token, with no other claim,
finish or upsert of the row in between. Under clocks that never run backwards, the row is claimed
or upserted again before a granted lease has expired only if its holder has finished first. -/
theorem leaseEvents_fenced (cal : Calendar) (key : CursorKey) (s : Store) (ls : List LeaseCall)
    (hlegacy : ∀ row ∈ s.cursors, row.leaseToken = none)
    (hclock : (ls.filterMap (LeaseCall.clock? cal)).Pairwise (· ≤ ·)) :
    (∀ es token fs, leaseEvents cal key s ls = es ++ .finished token :: fs →
      ∃ es' expiresAt now, es = es' ++ [.granted token expiresAt now]) ∧
    ∀ es token expiresAt now mid e fs later,
      leaseEvents cal key s ls = es ++ .granted token expiresAt now :: mid ++ e :: fs →
      e.takenAt? = some later → later ≤ expiresAt → ∃ mid', mid = .finished token :: mid' := by
  have hsteps := leaseEvents_steps cal key s ls
  refine ⟨?_, ?_⟩
  · intro es token fs hes
    rw [hes] at hsteps
    apply hsteps.finished_after_granted
    cases hrow : s.cursors.find? key with
    | none => rfl
    | some row =>
        have htoken := hlegacy row (Table.mem_of_find?_eq_some hrow)
        by_cases hsyncing : row.status = .syncing
        · simp [leaseState, hsyncing, htoken]
        · simp [leaseState, hsyncing]
  · intro es token expiresAt now mid e fs later hes htaken hactive
    rw [hes] at hsteps
    refine hsteps.finished_before_taken htaken ?_ hactive
    intro m hm t ht
    have hsorted := hclock.sublist (leaseEvents_clock cal key s ls)
    rw [hes, List.filterMap_append, List.pairwise_append] at hsorted
    refine hsorted.2.2 t ?_ later ?_
    · refine List.mem_filterMap.mpr ⟨m, ?_, ht⟩
      simp [hm]
    · exact List.mem_filterMap.mpr ⟨e, List.mem_cons_self, htaken⟩

def psa : NormalizedText := ⟨"psa", by decide, by decide⟩

def ticketSync : NormalizedText := ⟨"ticket_sync", by decide, by decide⟩

def firstWorker : NormalizedText := ⟨"5f0e", by decide, by decide⟩

def secondWorker : NormalizedText := ⟨"91bc", by decide, by decide⟩

def claimAt (token : NormalizedText) (now : String) : LeaseCall :=
  .claimPollLease
    { connectorInstanceId := "psa", cursorType := "ticket_sync", token := token.val,
      ttlSeconds := some 300, now }

def finishAt (token : NormalizedText) (now : String) : LeaseCall :=
  .finishPollLease
    { connectorInstanceId := "psa", cursorType := "ticket_sync", token := token.val,
      status := "idle", cursorValue := none, lastSyncedAt := some now, now }

/-- The second worker waits for the lease of the first one to expire. -/
def handoverRun : List LeaseCall :=
  [claimAt firstWorker "2026-01-05T09:00:00+00:00",
    claimAt secondWorker "2026-01-05T09:01:00+00:00",
    claimAt secondWorker "2026-01-05T09:10:00+00:00",
    finishAt firstWorker "2026-01-05T09:10:00+00:00",
    finishAt secondWorker "2026-01-05T09:15:00+00:00"]

def handoverEvents : List (LeaseEvent NormalizedText Instant) :=
  [.granted firstWorker (Instant.morning 5) (Instant.morning 0),
    .granted secondWorker (Instant.morning 15) (Instant.morning 10)]

theorem leaseEvents_fenced_handover : ∃ es' expiresAt now,
    handoverEvents = es' ++ [.granted secondWorker expiresAt now] :=
  (leaseEvents_fenced morningCalendar (psa, ticketSync) ⟨[psa], .empty⟩ handoverRun
    (by simp) (by decide)).1 handoverEvents secondWorker [] (by decide +kernel)

end WaitLocalAgent.Polling
