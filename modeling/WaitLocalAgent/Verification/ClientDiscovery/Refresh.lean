import WaitLocalAgent.Model.ClientDiscovery

/-! # What a second discovery shows

A discovery returns the match that each candidate was stored with. It is the match of the day
exactly if nothing that the match depends on has changed since the organization was first listed. -/

namespace WaitLocalAgent.ClientDiscovery

open Foundation Tenancy

variable {rt : Runtime TicketInput} {lib : Library} {s s' s'' : DiscoveryStore}
  {connector : ConnectorInstance} {provider now : String} {row candidate : ClientCandidate}
  {rows : List ClientCandidate} {l : Listing} {ls : List Listing} {m m' : CandidateMatch}
  {k : NormalizedText × NormalizedText} {externalId : NormalizedText}

/-- The match columns that are stored for an organization of an instance. -/
def DiscoveryStore.shownFor (s : DiscoveryStore) (k : NormalizedText × NormalizedText) :
    Option CandidateMatch :=
  (s.candidates.find? k).map ClientCandidate.shown

/-- What `match_candidate` says of a listed organization. -/
def Listing.found (lib : Library) (s : Store) (connector : ConnectorInstance) (l : Listing) :
    CandidateMatch :=
  matchCandidate lib s connector.connectorInstanceId l.externalId l.displayName

def Listing.key (connector : ConnectorInstance) (l : Listing) : NormalizedText × NormalizedText :=
  (connector.connectorInstanceId, l.externalId)

theorem Listing.candidate_key (shown : CandidateMatch) :
    (l.candidate lib connector provider now shown).key = l.key connector := rfl

/-- A stored candidate keeps its match; a new one is stored with the match that it comes with. -/
structure Upserted (s : DiscoveryStore) (candidate : ClientCandidate) (s' : DiscoveryStore)
    (row : ClientCandidate) : Prop where
  tenancy : s'.tenancy = s.tenancy
  key : row.key = candidate.key
  displayName : row.displayName = candidate.displayName
  shown : row.shown = (s.shownFor candidate.key).getD candidate.shown
  shownFor : ∀ k, s'.shownFor k = if k = candidate.key then some row.shown else s.shownFor k

theorem ClientCandidate.refresh_shown (seen stored : ClientCandidate) :
    (seen.refresh true stored).shown = stored.shown := by
  simp [refresh]

theorem upserted_of_eq_ok (h : upsertClientCandidate s candidate = .ok (s', row)) :
    Upserted s candidate s' row := by
  simp only [upsertClientCandidate, bind_eq_ok] at h
  obtain ⟨_, -, h⟩ := h
  cases hfind : s.candidates.find? candidate.key with
  | some stored =>
      have hkey : stored.key = candidate.key := Table.key_of_find?_eq_some hfind
      simp only [hfind, bind_eq_ok, pure_eq_ok, Prod.mk.injEq] at h
      obtain ⟨_, -, rfl, rfl⟩ := h
      have hshown := candidate.refresh_shown stored
      refine ⟨rfl, hkey, rfl, ?_, fun k => ?_⟩
      · rw [hshown, DiscoveryStore.shownFor, hfind]
        rfl
      · simp only [DiscoveryStore.shownFor]
        rw [Table.find?_update_key (k := candidate.key) (by simp)]
        by_cases hk : k = candidate.key
        · simp [hk, hfind, hshown]
        · simp [hk]
  | none =>
      simp only [hfind, bind_eq_ok] at h
      obtain ⟨_, -, _, -, _, -, h⟩ := h
      cases hinsert : s.candidates.insert? candidate with
      | none => simp [hinsert] at h
      | some candidates =>
          simp only [hinsert, Except.ok.injEq, Prod.mk.injEq] at h
          obtain ⟨rfl, rfl⟩ := h
          refine ⟨rfl, rfl, rfl, ?_, fun k => ?_⟩
          · rw [DiscoveryStore.shownFor, hfind]
            rfl
          · simp only [DiscoveryStore.shownFor, Table.find?_of_insert? hinsert]
            by_cases hk : k = candidate.key <;> simp [hk]

/-- The match that an organization has in the store or, if it is new, where it is listed first. -/
def firstMatch (lib : Library) (s : DiscoveryStore) (connector : ConnectorInstance)
    (ls : List Listing) (externalId : NormalizedText) : Option CandidateMatch :=
  s.shownFor (connector.connectorInstanceId, externalId) <|>
    (ls.find? fun l => l.externalId = externalId).map (Listing.found lib s.tenancy connector)

theorem firstMatch_cons (h : Upserted s
      (l.candidate lib connector provider now (l.found lib s.tenancy connector)) s' row) :
    firstMatch lib s' connector ls externalId =
      firstMatch lib s connector (l :: ls) externalId := by
  simp only [firstMatch, h.shownFor, h.tenancy, Listing.candidate_key, Listing.key, h.shown]
  by_cases hid : externalId = l.externalId
  · subst hid
    cases hstored : s.shownFor (connector.connectorInstanceId, l.externalId) with
    | none => simp [Listing.candidate]
    | some m => simp
  · simp [hid, Ne.symm hid]

theorem forall₂_of_recordListings
    (h : recordListings lib connector provider now s ls = (s', .ok rows)) :
    s'.tenancy = s.tenancy ∧ List.Forall₂ (fun l r => r.key = l.key connector ∧
      r.displayName = l.displayName ∧ some r.shown = firstMatch lib s connector ls l.externalId)
      ls rows := by
  induction ls generalizing s rows with
  | nil =>
      simp only [recordListings, Prod.mk.injEq, Except.ok.injEq] at h
      obtain ⟨rfl, rfl⟩ := h
      exact ⟨rfl, .nil⟩
  | cons l ls ih =>
      rw [recordListings] at h
      dsimp only at h
      split at h
      · cases h
      · rename_i t row hrow
        have hup := upserted_of_eq_ok hrow
        simp only [Prod.mk.injEq, map_eq_ok] at h
        obtain ⟨rfl, rest, hrest, rfl⟩ := h
        obtain ⟨htenancy, hall⟩ := ih (Prod.ext rfl hrest)
        refine ⟨htenancy.trans hup.tenancy, .cons ⟨hup.key, hup.displayName, ?_⟩ ?_⟩
        · rw [← firstMatch_cons hup, firstMatch, hup.shownFor, Listing.candidate_key, Listing.key,
            if_pos rfl]
          rfl
        · refine hall.imp fun a r hr => ⟨hr.1, hr.2.1, ?_⟩
          rw [hr.2.2, firstMatch_cons hup]

/-- What a discovery stores, whether it succeeds or not. -/
theorem shownFor_recordListings
    (h : (recordListings lib connector provider now s ls).1.shownFor k = some m) :
    s.shownFor k = some m ∨ s.shownFor k = none ∧ k.1 = connector.connectorInstanceId ∧
      ∃ l, ls.find? (fun l => l.externalId = k.2) = some l ∧
        m = l.found lib s.tenancy connector := by
  induction ls generalizing s with
  | nil => exact .inl h
  | cons l ls ih =>
      rw [recordListings] at h
      dsimp only at h
      split at h
      · exact .inl h
      · rename_i t row hrow
        have hup := upserted_of_eq_ok hrow
        have hstep := ih h
        rw [hup.shownFor, hup.tenancy, Listing.candidate_key, Listing.key] at hstep
        by_cases hk : k = (connector.connectorInstanceId, l.externalId)
        · subst hk
          rw [if_pos rfl, hup.shown, Listing.candidate_key, Listing.key] at hstep
          rcases hstep with hm | ⟨hnone, -⟩
          · cases hstored : s.shownFor (connector.connectorInstanceId, l.externalId) with
            | some m' =>
                rw [hstored] at hm
                exact .inl hm
            | none =>
                rw [hstored] at hm
                refine .inr ⟨rfl, rfl, l, by simp, ?_⟩
                exact (Option.some.inj hm).symm
          · cases hnone
        · rw [if_neg hk] at hstep
          rcases hstep with hm | ⟨hnone, hinstance, q, hq, hm⟩
          · exact .inl hm
          · have hid : l.externalId ≠ k.2 := by
              rintro hid
              exact hk (Prod.ext hinstance hid.symm)
            exact .inr ⟨hnone, hinstance, q, by simpa [hid] using hq, hm⟩

theorem recordListings_shownFor (h : s.shownFor k = some m) :
    (recordListings lib connector provider now s ls).1.shownFor k = some m := by
  induction ls generalizing s with
  | nil => exact h
  | cons l ls ih =>
      rw [recordListings]
      dsimp only
      split
      · exact h
      · rename_i t row hrow
        have hup := upserted_of_eq_ok hrow
        refine ih ?_
        rw [hup.shownFor]
        split
        · rename_i hk
          rw [hup.shown, ← hk, h]
          rfl
        · exact h

end WaitLocalAgent.ClientDiscovery
