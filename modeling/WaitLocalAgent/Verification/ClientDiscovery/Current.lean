import WaitLocalAgent.Verification.ClientDiscovery.Refresh
import WaitLocalAgent.Verification.Tickets.Backing

/-! # Current matches

When the discoveries of a history show the matches of the day. -/

namespace WaitLocalAgent.ClientDiscovery

open Foundation Tenancy

variable {rt : Runtime TicketInput} {lib : Library} {s s' s'' : DiscoveryStore}
  {candidate : ClientCandidate} {rows : List ClientCandidate} {shown m m' : CandidateMatch}
  {k : NormalizedText × NormalizedText} {d : DiscoveryRun} {ls : List Listing}

/-! ### The administrator's answers -/

/-- Candidates keep their matches, unless they are verified or dismissed. -/
def Answered (s s' : DiscoveryStore) : Prop :=
  ∀ k, s'.shownFor k = s.shownFor k ∨
    (s.shownFor k).isSome ∧ ∃ m, s'.shownFor k = some m ∧ m.state.settled = true

theorem Answered.of_eq (h : s'.candidates = s.candidates) : Answered s s' := by
  intro k
  exact .inl (by rw [DiscoveryStore.shownFor, h, DiscoveryStore.shownFor])

theorem Answered.refl (s : DiscoveryStore) : Answered s s := .of_eq rfl

theorem Answered.trans (h : Answered s s') (h' : Answered s' s'') : Answered s s'' := by
  intro k
  rcases h' k with hsame | ⟨hsome, m, hm, hsettled⟩
  · rw [hsame]
    exact h k
  · refine .inr ⟨?_, m, hm, hsettled⟩
    rcases h k with hsame | ⟨hsome', -⟩
    · rwa [hsame] at hsome
    · exact hsome'

theorem answered_of_setClientCandidateState {candidateId : String}
    (h : setClientCandidateState s candidateId shown = .ok s')
    (hsettled : shown.state.settled = true) : Answered s s' := by
  unfold setClientCandidateState at h
  cases hid : normalizeClientId (some candidateId) with
  | none =>
      simp only [hid, Except.ok.injEq] at h
      exact h ▸ .refl s
  | some id =>
      simp only [hid, bind_eq_ok, pure_eq_ok] at h
      obtain ⟨_, -, _, -, rfl⟩ := h
      intro k
      simp only [DiscoveryStore.shownFor, Table.find?_update]
      cases hfind : s.candidates.find? k with
      | none => exact .inl rfl
      | some c =>
          by_cases hc : c.candidateId = id.val
          · refine .inr ⟨rfl, shown, ?_, hsettled⟩
            simp [hc, ClientCandidate.withMatch]
          · exact .inl (by simp [hc])

theorem mapCandidate_answered {clientId : ClientId} {stamp : AcceptStamp} :
    Answered s (mapCandidate rt s candidate clientId stamp).1 := by
  unfold mapCandidate
  split
  · exact .refl s
  · split <;> exact .of_eq rfl

theorem settle_answered {mapped : DiscoveryStore × Except TenancyError Unit}
    {refusal : TenancyError → DiscoveryError} (h : Answered s mapped.1)
    (hsettled : shown.state.settled = true) :
    Answered s (settle mapped candidate shown refusal).1 := by
  unfold settle
  split
  · exact h
  · rename_i t
    split
    · exact h
    · rename_i hset
      exact h.trans (answered_of_setClientCandidateState hset hsettled)

theorem acceptDiscoveryCandidate_answered {stamp : AcceptStamp} :
    Answered s (acceptDiscoveryCandidate rt s candidate stamp).1 := by
  unfold acceptDiscoveryCandidate
  split
  · split
    · exact .refl s
    · exact settle_answered mapCandidate_answered rfl
  · exact .refl s

theorem acceptClientDiscoveryCandidate_answered {candidateId : String} {stamp : AcceptStamp} :
    Answered s (acceptClientDiscoveryCandidate rt s candidateId stamp).1 := by
  unfold acceptClientDiscoveryCandidate
  split
  · exact .refl s
  · exact acceptDiscoveryCandidate_answered

theorem acceptEach_answered {resolved : List (ClientCandidate × AcceptStamp)} :
    Answered s (acceptEach rt s resolved).1 := by
  induction resolved generalizing s with
  | nil => exact .refl s
  | cons request resolved ih =>
      have hfirst : Answered s (acceptDiscoveryCandidate rt s request.1 request.2).1 :=
        acceptDiscoveryCandidate_answered
      rw [acceptEach]
      split
      · rename_i t e haccept
        rwa [haccept] at hfirst
      · rename_i t haccept
        rw [haccept] at hfirst
        exact hfirst.trans ih

theorem bulkAccept_answered {requests : List (String × AcceptStamp)} :
    Answered s (bulkAccept rt s requests).1 := by
  unfold bulkAccept
  split
  · exact .refl s
  · split
    · exact .refl s
    · exact acceptEach_answered

theorem createClientFromCandidate_answered {candidateId : String} {stamp : AcceptStamp} :
    Answered s (createClientFromCandidate rt s candidateId stamp).1 := by
  unfold createClientFromCandidate
  split
  · exact .refl s
  · split
    · exact .refl s
    · dsimp only
      split
      · rename_i created client _ _
        have hcreated : Answered s { s with tenancy := created } := .of_eq rfl
        exact settle_answered (hcreated.trans mapCandidate_answered) rfl
      · exact .refl s

theorem dismissClientDiscoveryCandidate_answered {candidateId : String}
    (h : dismissClientDiscoveryCandidate s candidateId = .ok s') : Answered s s' := by
  unfold dismissClientDiscoveryCandidate at h
  split at h
  · cases h
  · obtain ⟨_, -, hset⟩ := bind_eq_ok.mp h
    exact answered_of_setClientCandidateState hset rfl

/-- Only a discovery stores candidates. -/
theorem DiscoveryCall.apply_answered (l : DiscoveryCall) (h : ∀ d, l ≠ .discover d) :
    Answered s (l.apply rt lib s) := by
  cases l with
  | store l => exact .of_eq rfl
  | discover d => exact absurd rfl (h d)
  | accept candidateId stamp => exact acceptClientDiscoveryCandidate_answered
  | bulkAccept requests => exact bulkAccept_answered
  | createClient candidateId stamp => exact createClientFromCandidate_answered
  | dismiss candidateId =>
      exact committed_relation (.refl s) fun _ => dismissClientDiscoveryCandidate_answered

/-! ### First listings -/

/-- In the history, an organization was first listed with this match. -/
inductive FirstListed (rt : Runtime TicketInput) (lib : Library) (history : List DiscoveryCall)
    (k : NormalizedText × NormalizedText) : CandidateMatch → Prop where
  | intro {before after : List DiscoveryCall} {d : DiscoveryRun} {ls : List Listing} {l : Listing}
      (split : history = before ++ .discover d :: after)
      (connector : k.1 = d.connector.connectorInstanceId) (listed : d.listings lib = .ok ls)
      (first : ls.find? (fun l => l.externalId = k.2) = some l)
      (unknown : ((discovery rt lib).run before).shownFor k = none)
      (stored : (((discovery rt lib).run (before ++ [.discover d])).shownFor k).isSome = true) :
      FirstListed rt lib history k (l.found lib ((discovery rt lib).run before).tenancy d.connector)

theorem FirstListed.append {history more : List DiscoveryCall}
    (h : FirstListed rt lib history k m) :
    FirstListed rt lib (history ++ more) k m := by
  obtain ⟨hsplit, hconnector, hlisted, hfirst, hunknown, hstored⟩ := h
  exact .intro (by rw [hsplit, List.append_assoc, List.cons_append]) hconnector hlisted hfirst
    hunknown hstored

theorem shownFor_discoverInstance (h : (discoverInstance lib s d).1.shownFor k = some m) :
    s.shownFor k = some m ∨ s.shownFor k = none ∧ k.1 = d.connector.connectorInstanceId ∧
      ∃ ls l, d.listings lib = .ok ls ∧ ls.find? (fun l => l.externalId = k.2) = some l ∧
        m = l.found lib s.tenancy d.connector := by
  unfold discoverInstance at h
  split at h
  · exact .inl h
  · rename_i ls hls
    rcases shownFor_recordListings h with hm | ⟨hnone, hconnector, l, hl, hm⟩
    · exact .inl hm
    · exact .inr ⟨hnone, hconnector, ls, l, hls, hl, hm⟩

theorem discoverInstance_shownFor (h : s.shownFor k = some m) :
    (discoverInstance lib s d).1.shownFor k = some m := by
  unfold discoverInstance
  split
  · exact h
  · exact recordListings_shownFor h

/-- A stored match stays, unless the candidate is verified or dismissed. -/
def Kept (k : NormalizedText × NormalizedText) (m : CandidateMatch) (s : DiscoveryStore) : Prop :=
  ∃ m', s.shownFor k = some m' ∧ (m' = m ∨ m'.state.settled = true)

theorem kept_apply (l : DiscoveryCall) (h : Kept k m s) : Kept k m (l.apply rt lib s) := by
  obtain ⟨m', hm', hkept⟩ := h
  by_cases hl : ∃ d, l = .discover d
  · obtain ⟨d, rfl⟩ := hl
    exact ⟨m', discoverInstance_shownFor hm', hkept⟩
  · push Not at hl
    have hanswered : Answered s (l.apply rt lib s) := l.apply_answered hl
    rcases hanswered k with hsame | ⟨-, m'', hm'', hsettled⟩
    · exact ⟨m', hsame.trans hm', hkept⟩
    · exact ⟨m'', hm'', .inr hsettled⟩

/-- Every stored match is verified, dismissed or that of the first listing. -/
theorem firstListed_of_run (history : List DiscoveryCall)
    (h : ((discovery rt lib).run history).shownFor k = some m) :
    m.state.settled = true ∨ FirstListed rt lib history k m := by
  induction history using List.reverseRecOn generalizing m with
  | nil => cases h
  | append_singleton history l ih =>
      have hkept : ∀ {m}, ((discovery rt lib).run history).shownFor k = some m →
          m.state.settled = true ∨ FirstListed rt lib (history ++ [l]) k m := fun hm =>
        (ih hm).imp_right FirstListed.append
      have hstep := h
      rw [Machine.run_concat] at hstep
      by_cases hl : ∃ d, l = .discover d
      · obtain ⟨d, rfl⟩ := hl
        rcases shownFor_discoverInstance hstep with hm | ⟨hnone, hconnector, ls, q, hls, hq, rfl⟩
        · exact hkept hm
        · exact .inr (.intro rfl hconnector hls hq hnone (by rw [h]; rfl))
      · push Not at hl
        have hanswered : Answered _ (l.apply rt lib ((discovery rt lib).run history)) :=
          l.apply_answered hl
        rcases hanswered k with hsame | ⟨-, m', hm', hsettled⟩
        · exact hkept (hsame.symm.trans hstep)
        · obtain rfl := Option.some.inj (hm'.symm.trans hstep)
          exact .inl hsettled

theorem kept_of_firstListed {history : List DiscoveryCall} (h : FirstListed rt lib history k m) :
    Kept k m ((discovery rt lib).run history) := by
  obtain ⟨hsplit, hconnector, hlisted, hfirst, hunknown, hstored⟩ := h
  rename_i before after d ls l
  have hafter : Kept k (l.found lib ((discovery rt lib).run before).tenancy d.connector)
      ((discovery rt lib).run (before ++ [.discover d])) := by
    obtain ⟨m', hm'⟩ := Option.isSome_iff_exists.mp hstored
    refine ⟨m', hm', .inl ?_⟩
    rw [Machine.run_concat] at hm'
    rcases shownFor_discoverInstance hm' with hm | ⟨-, -, ls', q, hls', hq, rfl⟩
    · rw [hunknown] at hm
      cases hm
    · obtain rfl := Except.ok.inj (hlisted.symm.trans hls')
      obtain rfl := Option.some.inj (hfirst.symm.trans hq)
      rfl
  rw [hsplit, show before ++ DiscoveryCall.discover d :: after =
    (before ++ [.discover d]) ++ after by simp, Machine.run_append]
  exact runFrom_invariant_of_step (fun s l => kept_apply l) hafter after

/-! ### Current matches -/

/-- A returned candidate that was verified or dismissed before is as it was; any other one shows the
match that it has now. -/
def Current (lib : Library) (s s' : DiscoveryStore) (r : ClientCandidate) : Prop :=
  match (s.shownFor r.key).filter fun m => m.state.settled with
  | some m => r.shown = m
  | none => r.shown =
      matchCandidate lib s'.tenancy r.connectorInstanceId r.externalId r.displayName

/-- The matches of the listed organizations have not changed since they were first listed. -/
structure StillMatches (rt : Runtime TicketInput) (lib : Library) (history : List DiscoveryCall)
    (d : DiscoveryRun) (ls : List Listing) : Prop where
  /-- The candidates that are neither verified nor dismissed. -/
  earlier : ∀ l ∈ ls, (∀ m, ((discovery rt lib).run history).shownFor (l.key d.connector) = some m →
      m.state.settled = false) →
    ∀ m, FirstListed rt lib history (l.key d.connector) m →
      m = l.found lib ((discovery rt lib).run history).tenancy d.connector
  /-- The new organizations that are listed twice. -/
  repeated : ∀ l ∈ ls, ∀ q ∈ ls, l.externalId = q.externalId →
    ((discovery rt lib).run history).shownFor (l.key d.connector) = none →
      l.found lib ((discovery rt lib).run history).tenancy d.connector =
        q.found lib ((discovery rt lib).run history).tenancy d.connector

/-- The organization was verified or dismissed. -/
def DiscoveryStore.settledFor (s : DiscoveryStore) (k : NormalizedText × NormalizedText) : Prop :=
  ∃ m, s.shownFor k = some m ∧ m.state.settled = true

theorem firstMatch_of_shownFor {l : Listing} (h : s.shownFor (l.key d.connector) = some m) :
    firstMatch lib s d.connector ls l.externalId = some m := by
  rw [Listing.key] at h
  rw [firstMatch, h]
  rfl

/-- An organization is returned with its current match exactly if the match that it has in the
store, or where it is listed first, is settled or current. -/
theorem current_iff {l : Listing} {row : ClientCandidate} (htenancy : s'.tenancy = s.tenancy)
    (hkey : row.key = l.key d.connector) (hname : row.displayName = l.displayName)
    (hshown : some row.shown = firstMatch lib s d.connector ls l.externalId) :
    Current lib s s' row ↔ s.settledFor (l.key d.connector) ∨
      firstMatch lib s d.connector ls l.externalId = some (l.found lib s.tenancy d.connector) := by
  have hfound : matchCandidate lib s'.tenancy row.connectorInstanceId row.externalId
      row.displayName = l.found lib s.tenancy d.connector := by
    obtain ⟨hinstance, hid⟩ := Prod.mk.inj hkey
    rw [htenancy, hinstance, hid, hname, Listing.found]
  by_cases hsettled : s.settledFor (l.key d.connector)
  · obtain ⟨m, hm, hsettled⟩ := hsettled
    refine iff_of_true ?_ (.inl ⟨m, hm, hsettled⟩)
    rw [firstMatch_of_shownFor hm] at hshown
    have hfilter : (some m).filter (fun m => m.state.settled) = some m :=
      Option.filter_eq_some_iff.mpr ⟨rfl, hsettled⟩
    simp only [Current, hkey, hm, hfilter]
    exact Option.some.inj hshown
  · have hfilter : (s.shownFor row.key).filter (fun m => m.state.settled) = none := by
      rw [hkey, Option.filter_eq_none_iff]
      intro m hm hs
      exact hsettled ⟨m, hm, hs⟩
    rw [or_iff_right hsettled, ← hshown, Option.some.injEq, ← hfound]
    simp only [Current, hfilter]

theorem forall_mem_iff_of_forall₂ {α β : Type*} {p : α → Prop} {q : β → Prop} {as : List α}
    {bs : List β} (h : List.Forall₂ (fun a b => p a ↔ q b) as bs) :
    (∀ a ∈ as, p a) ↔ ∀ b ∈ bs, q b := by
  induction h with
  | nil => simp
  | cons hab _ ih => rw [List.forall_mem_cons, List.forall_mem_cons, hab, ih]

theorem rows_current_iff
    (h : discoverInstance lib s d = (s', .ok rows)) (hls : d.listings lib = .ok ls) :
    (∀ r ∈ rows, Current lib s s' r) ↔ ∀ l ∈ ls, s.settledFor (l.key d.connector) ∨
      firstMatch lib s d.connector ls l.externalId = some (l.found lib s.tenancy d.connector) := by
  unfold discoverInstance at h
  rw [hls] at h
  obtain ⟨htenancy, hall⟩ := forall₂_of_recordListings h
  refine (forall_mem_iff_of_forall₂ (hall.imp fun l r hr => ?_)).symm
  exact (current_iff htenancy hr.1 hr.2.1 hr.2.2).symm

/-- The matches of a discovery are settled or current exactly if they have not changed since the
organizations were first listed. -/
theorem settled_or_current_iff_stillMatches (history : List DiscoveryCall) :
    (∀ l ∈ ls, ((discovery rt lib).run history).settledFor (l.key d.connector) ∨
      firstMatch lib ((discovery rt lib).run history) d.connector ls l.externalId =
        some (l.found lib ((discovery rt lib).run history).tenancy d.connector)) ↔
      StillMatches rt lib history d ls := by
  constructor
  · intro h
    refine ⟨fun l hl hopen m hfirst => ?_, fun l hl q hq hid hnew => ?_⟩
    · obtain ⟨m', hm', hkept⟩ := kept_of_firstListed hfirst
      have hunsettled := hopen m' hm'
      obtain rfl : m' = m := hkept.resolve_right (by simp [hunsettled])
      rcases h l hl with ⟨m, hm, hsettled⟩ | hcurrent
      · simp [hopen m hm] at hsettled
      · rw [firstMatch_of_shownFor hm'] at hcurrent
        exact Option.some.inj hcurrent
    · have hnone : ∀ p ∈ ls, p.externalId = l.externalId →
          firstMatch lib ((discovery rt lib).run history) d.connector ls p.externalId =
            some (p.found lib ((discovery rt lib).run history).tenancy d.connector) := by
        intro p hp hpid
        refine (h p hp).resolve_left ?_
        rintro ⟨m, hm, -⟩
        rw [Listing.key, hpid] at hm
        rw [Listing.key, hm] at hnew
        cases hnew
      have hsame := (hnone l hl rfl).symm.trans (hid ▸ hnone q hq hid.symm)
      exact Option.some.inj hsame
  · intro h l hl
    cases hstored : ((discovery rt lib).run history).shownFor (l.key d.connector) with
    | some m =>
        by_cases hsettled : m.state.settled = true
        · exact .inl ⟨m, hstored, hsettled⟩
        · have hfirst := (firstListed_of_run history hstored).resolve_left hsettled
          refine .inr ?_
          rw [firstMatch_of_shownFor hstored]
          refine congrArg some (h.earlier l hl (fun m' hm' => ?_) m hfirst)
          obtain rfl := Option.some.inj (hstored.symm.trans hm')
          simpa using hsettled
    | none =>
        refine .inr ?_
        have hlisted : (ls.find? fun q => q.externalId = l.externalId).isSome = true := by
          rw [List.find?_isSome]
          exact ⟨l, hl, by simp⟩
        obtain ⟨q, hq⟩ := Option.isSome_iff_exists.mp hlisted
        have hid : l.externalId = q.externalId := by
          simpa [eq_comm] using List.find?_some hq
        rw [h.repeated l hl q (List.mem_of_find?_eq_some hq) hid hstored]
        rw [Listing.key] at hstored
        rw [firstMatch, hstored, hq]
        rfl

/-- In any history, the discoveries that succeed show current matches exactly if, in each of them,
the matches of the listed organizations are still those of their first listing. -/
theorem discoveries_current_iff (rt : Runtime TicketInput) (lib : Library)
    (calls : List DiscoveryCall) :
    (∀ history d after s' rows, calls = history ++ .discover d :: after →
        discoverInstance lib ((discovery rt lib).run history) d = (s', .ok rows) →
          ∀ r ∈ rows, Current lib ((discovery rt lib).run history) s' r) ↔
      ∀ history d after ls, calls = history ++ .discover d :: after →
        (discoverInstance lib ((discovery rt lib).run history) d).2.isOk = true →
          d.listings lib = .ok ls → StillMatches rt lib history d ls := by
  constructor
  · intro h history d after ls hcalls hok hls
    obtain ⟨rows, hrows⟩ := exists_eq_ok hok
    have hdiscover : discoverInstance lib ((discovery rt lib).run history) d =
        ((discoverInstance lib ((discovery rt lib).run history) d).1, .ok rows) :=
      Prod.ext rfl hrows
    rw [← settled_or_current_iff_stillMatches, ← rows_current_iff hdiscover hls]
    exact h history d after _ rows hcalls hdiscover
  · intro h history d after s' rows hcalls hdiscover
    have hok : (discoverInstance lib ((discovery rt lib).run history) d).2.isOk = true := by
      rw [hdiscover]
      rfl
    obtain ⟨ls, hls⟩ : ∃ ls, d.listings lib = .ok ls := by
      unfold discoverInstance at hdiscover
      split at hdiscover
      · cases hdiscover
      · exact ⟨_, ‹_›⟩
    rw [rows_current_iff hdiscover hls, settled_or_current_iff_stillMatches]
    exact h history d after ls hcalls hok hls

/-! ### A second client of the same name -/

def asciiLibrary : Library where
  casefold := Text.lower
  str := fun _ => ""
  uuid5 := id

/-- A ConnectWise instance that lists one organization. -/
def acmeListed : DiscoveryRun where
  connector := ⟨desk, "connectwise", "PSA", none, .active⟩
  client := .ok fun _ => .list [[("id", .text "42"), ("name", .text "Acme Ltd")]]
  now := "2026-01-05T10:00:00+00:00"

def proposedRun : List DiscoveryCall :=
  [.store (.createClient "acme" "Acme Ltd"),
    .store (.createConnectorInstance desk "connectwise" "PSA" none),
    .store (.updateConnectorInstance desk.val { status := some "active" }),
    .discover acmeListed, .store (.createClient "acme-2" "Acme GmbH")]

/-- What a discovery that follows `proposedRun` returns: the state the candidate was stored with,
the state that it is returned with, and the state of its match. -/
def discoveredAgain : Option (List (Option MatchState × MatchState × MatchState)) :=
  let s := (discovery deskRuntime asciiLibrary).run proposedRun
  (discoverInstance asciiLibrary s acmeListed).2.toOption.map fun rows => rows.map fun r =>
    ((s.shownFor r.key).map CandidateMatch.state, r.shown.state,
      (matchCandidate asciiLibrary (discoverInstance asciiLibrary s acmeListed).1.tenancy
        r.connectorInstanceId r.externalId r.displayName).state)

theorem discoveredAgain_eq : discoveredAgain = some [(some .proposed, .proposed, .ambiguous)] := by
  decide +kernel

/-- The candidate is still proposed for the first of the two clients. -/
theorem not_discoveries_current : ¬ ∀ (calls history after : List DiscoveryCall) (d : DiscoveryRun)
    (s' : DiscoveryStore) (rows : List ClientCandidate), calls = history ++ .discover d :: after →
      discoverInstance asciiLibrary ((discovery deskRuntime asciiLibrary).run history) d =
        (s', .ok rows) →
          ∀ r ∈ rows,
            Current asciiLibrary ((discovery deskRuntime asciiLibrary).run history) s' r := by
  intro h
  have hagain := discoveredAgain_eq
  simp only [discoveredAgain] at hagain
  obtain ⟨rows, hrows, hmap⟩ := Option.map_eq_some_iff.mp hagain
  obtain ⟨r, rfl, hr⟩ := List.map_eq_singleton_iff.mp hmap
  simp only [Prod.mk.injEq, Option.map_eq_some_iff] at hr
  obtain ⟨⟨m, hm, hproposed⟩, hshown, hnow⟩ := hr
  have hcurrent := h _ proposedRun [] acmeListed _ [r] rfl
    (Prod.ext rfl (toOption_eq_some.mp hrows)) r List.mem_cons_self
  have hopen : (some m).filter (fun m => m.state.settled) = none := by
    rw [Option.filter_eq_none_iff]
    intro q hq hsettled
    rw [Option.some.inj hq.symm, hproposed] at hsettled
    cases hsettled
  rw [Current, hm, hopen] at hcurrent
  dsimp only at hcurrent
  rw [hcurrent, hnow] at hshown
  cases hshown

end WaitLocalAgent.ClientDiscovery
