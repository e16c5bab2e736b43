import WaitLocalAgent.Model.Assets

/-! # Whose assets are written

A row changes only when it is the target of a write, and keeps its identity even then. -/

namespace WaitLocalAgent.Assets

open Foundation

variable {δ : Type} {dumps : δ → String} {s t u : Store} {write : AssetWrite δ}
  {ws vs : List (AssetWrite δ)} {row row' : CanonicalAsset}

/-- What no write changes about a row. -/
structure SameAsset (row row' : CanonicalAsset) : Prop where
  id : row'.id = row.id
  canonicalId : row'.canonicalId = row.canonicalId
  clientId : row'.clientId = row.clientId
  firstSeen : row'.firstSeen = row.firstSeen

theorem SameAsset.refl (row : CanonicalAsset) : SameAsset row row := ⟨rfl, rfl, rfl, rfl⟩

theorem SameAsset.trans {row'' : CanonicalAsset} (h : SameAsset row row')
    (h' : SameAsset row' row'') : SameAsset row row'' :=
  ⟨h'.id.trans h.id, h'.canonicalId.trans h.canonicalId, h'.clientId.trans h.clientId,
    h'.firstSeen.trans h.firstSeen⟩

variable {now : String}

theorem sameAsset_refresh : SameAsset row (row.refresh dumps write now) :=
  ⟨rfl, rfl, rfl, rfl⟩

theorem firstAsset_eq_some {assets : AutoTable CanonicalAsset.id} {p : CanonicalAsset → Bool}
    (h : firstAsset assets p = some row) :
    row ∈ assets ∧ p row ∧ ∀ other ∈ assets, p other → row.id ≤ other.id := by
  have : Std.Total fun a b : CanonicalAsset => a.id ≤ b.id := ⟨fun a b => Nat.le_total _ _⟩
  have : IsTrans CanonicalAsset fun a b => a.id ≤ b.id := ⟨fun a b c => Nat.le_trans⟩
  obtain ⟨hmem, hleast⟩ := head?_insertionSort h
  simp only [List.mem_filter] at hmem hleast
  exact ⟨hmem.1, hmem.2, fun other hother hp => hleast other ⟨hother, hp⟩⟩

theorem firstAsset_eq_none {assets : AutoTable CanonicalAsset.id} {p : CanonicalAsset → Bool}
    (h : firstAsset assets p = none) : ∀ row ∈ assets, p row = false := by
  intro row hrow
  by_contra hp
  have hne : assets.table.rows.filter p ≠ [] := by
    have hmem : row ∈ assets.table.rows.filter p :=
      List.mem_filter.mpr ⟨hrow, by simpa using hp⟩
    exact List.ne_nil_of_mem hmem
  obtain ⟨first, hfirst⟩ := exists_head?_insertionSort (r := fun a b => a.id ≤ b.id) hne
  rw [firstAsset, hfirst] at h
  cases h

/-- A write is meant for a row: under its client, or without a client as the first row of its
canonical id. -/
def Targets (s : Store) (write : AssetWrite δ) (row : CanonicalAsset) : Prop :=
  write.canonicalId = row.canonicalId ∧
    (normalizeClientId write.clientId = row.clientId ∨
      normalizeClientId write.clientId = none ∧
        ∀ other ∈ s.assets, other.canonicalId = row.canonicalId → row.id ≤ other.id)

theorem targets_of_findAsset (h : findAsset s.assets write.canonicalId
    (normalizeClientId write.clientId) = some row) : row ∈ s.assets ∧ Targets s write row := by
  cases hclient : normalizeClientId write.clientId with
  | none =>
      rw [hclient] at h
      obtain ⟨hrow, hsame, hfirst⟩ := firstAsset_eq_some h
      have hsame : row.canonicalId = write.canonicalId := by simpa using hsame
      refine ⟨hrow, hsame.symm, .inr ⟨hclient, fun other hother heq => ?_⟩⟩
      exact hfirst other hother (by simp [heq, hsame])
  | some c =>
      rw [hclient] at h
      obtain ⟨hrow, hsame, -⟩ := firstAsset_eq_some h
      simp only [Bool.and_eq_true, beq_iff_eq] at hsame
      exact ⟨hrow, hsame.2.symm, .inl (hclient.trans hsame.1.symm)⟩

/-- Between two stores, the rows stay themselves, and those that are no target of a write stay as
they are. -/
structure Keeps (writes : List (AssetWrite δ)) (s t : Store) : Prop where
  same : ∀ row ∈ s.assets, ∃ row' ∈ t.assets, SameAsset row row'
  others : ∀ row ∈ s.assets, row ∈ t.assets ∨ ∃ write ∈ writes, Targets s write row

theorem Keeps.refl (writes : List (AssetWrite δ)) (s : Store) : Keeps writes s s :=
  ⟨fun row hrow => ⟨row, hrow, .refl row⟩, fun _ hrow => .inl hrow⟩

/-- The first row of a canonical id was the first before. -/
theorem Targets.of_same (hsame : ∀ row ∈ s.assets, ∃ row' ∈ t.assets, SameAsset row row')
    (h : Targets t write row) : Targets s write row := by
  refine ⟨h.1, h.2.imp_right fun ⟨hclient, hfirst⟩ => ⟨hclient, fun other hother heq => ?_⟩⟩
  obtain ⟨other', hother', hsame⟩ := hsame other hother
  have hle := hfirst other' hother' (hsame.canonicalId.trans heq)
  rwa [hsame.id] at hle

theorem Keeps.append (h : Keeps ws s t) (h' : Keeps vs t u) : Keeps (ws ++ vs) s u := by
  constructor
  · intro row hrow
    obtain ⟨row₁, hrow₁, hsame⟩ := h.same row hrow
    obtain ⟨row₂, hrow₂, hsame'⟩ := h'.same row₁ hrow₁
    exact ⟨row₂, hrow₂, hsame.trans hsame'⟩
  · intro row hrow
    rcases h.others row hrow with hrow₁ | ⟨write, hwrite, htarget⟩
    · rcases h'.others row hrow₁ with hrow₂ | ⟨write, hwrite, htarget⟩
      · exact .inl hrow₂
      · exact .inr ⟨write, List.mem_append_right _ hwrite, htarget.of_same h.same⟩
    · exact .inr ⟨write, List.mem_append_left _ hwrite, htarget⟩

theorem keeps_of_assets_eq (h : t.assets = s.assets) : Keeps ws s t := by
  refine ⟨fun row hrow => ⟨row, ?_, .refl row⟩, fun row hrow => .inl ?_⟩
  · rwa [h]
  · rwa [h]

theorem keeps_upsertRow {assets : AutoTable CanonicalAsset.id}
    (hassets : assets = upsertRow dumps s.assets write now) :
    Keeps [write] s { s with assets } := by
  rw [upsertRow] at hassets
  cases hfind : findAsset s.assets write.canonicalId (normalizeClientId write.clientId) with
  | none =>
      simp only [hfind] at hassets
      subst hassets
      have hmem : ∀ row ∈ s.assets,
          row ∈ insertAsset dumps s.assets write (normalizeClientId write.clientId) now :=
        fun row hrow => AutoTable.mem_insert.mpr (.inl hrow)
      exact ⟨fun row hrow => ⟨row, hmem row hrow, .refl row⟩, fun row hrow => .inl (hmem row hrow)⟩
  | some first =>
      simp only [hfind] at hassets
      subst hassets
      obtain ⟨hfirst, htarget⟩ := targets_of_findAsset hfind
      constructor
      · intro row hrow
        refine ⟨_, AutoTable.mem_update.mpr ⟨row, hrow, rfl⟩, ?_⟩
        split
        · exact sameAsset_refresh
        · exact .refl row
      · intro row hrow
        by_cases hid : row.id = first.id
        · obtain rfl := AutoTable.eq_of_key_eq hrow hfirst hid
          exact .inr ⟨write, List.mem_singleton_self write, htarget⟩
        · exact .inl (AutoTable.mem_update.mpr ⟨row, hrow, by simp [hid]⟩)

theorem eq_of_upsertCanonicalAsset {asset : CanonicalAsset}
    (h : upsertCanonicalAsset dumps s write now = .ok (asset, t)) :
    t = { s with assets := upsertRow dumps s.assets write now } := by
  simp only [upsertCanonicalAsset] at h
  split at h
  · cases h
  · cases h
    rfl

theorem keeps_upsertCanonicalAsset {asset : CanonicalAsset}
    (h : upsertCanonicalAsset dumps s write now = .ok (asset, t)) : Keeps [write] s t := by
  rw [eq_of_upsertCanonicalAsset h]
  exact keeps_upsertRow rfl

theorem keeps_upsertAssets {written : Written} :
    Keeps ws s (upsertAssets dumps now s written ws).2 := by
  induction ws generalizing s written with
  | nil => exact .refl [] s
  | cons write ws ih =>
      rw [upsertAssets]
      split
      · exact .refl _ s
      · rename_i asset t hupsert
        exact (keeps_upsertCanonicalAsset hupsert).append ih

theorem assets_addEvidence {runId : ℕ} {clientId : Option String} {written : Written}
    {evidence : List EvidenceWrite} :
    (addEvidence runId clientId written s evidence).2.assets = s.assets := by
  induction evidence generalizing s with
  | nil => rfl
  | cons write evidence ih =>
      rw [addEvidence]
      split
      · rfl
      · exact ih

def AssetCall.writes : AssetCall δ → List (AssetWrite δ)
  | .upsert write _ => [write]
  | .persist _ moduleId result clientId _ => result.assets.map (AssetWrite.within moduleId clientId)

theorem keeps_persistCollectorResult {runId : ℕ} {moduleId now : String}
    {result : CollectorResult δ} {clientId : Option String} :
    Keeps (result.assets.map (AssetWrite.within moduleId clientId)) s
      (persistCollectorResult dumps s runId moduleId result clientId now).2 := by
  have hkeeps : Keeps _ s (upsertAssets dumps now s ∅
      (result.assets.map (AssetWrite.within moduleId clientId))).2 := keeps_upsertAssets
  rw [persistCollectorResult]
  split
  · rename_i e t hassets
    rwa [hassets] at hkeeps
  · rename_i written t hassets
    rw [hassets] at hkeeps
    have hsame : Keeps ([] : List (AssetWrite δ)) t
        (addEvidence runId clientId written t result.evidence).2 :=
      keeps_of_assets_eq assets_addEvidence
    simpa using hkeeps.append hsame

theorem keeps_step (dumps : δ → String) (s : Store) (l : AssetCall δ) :
    Keeps l.writes s (s.step dumps l) := by
  cases l with
  | upsert write now =>
      simp only [Store.step]
      cases hupsert : upsertCanonicalAsset dumps s write now with
      | error e => exact .refl _ s
      | ok result => exact keeps_upsertCanonicalAsset hupsert
  | persist runId moduleId result clientId now => exact keeps_persistCollectorResult

/-- `unique (client_id, canonical_id)`, where no client is like no other. -/
def UniquePerClient (assets : AutoTable CanonicalAsset.id) : Prop :=
  ∀ row ∈ assets, ∀ row' ∈ assets, ∀ c : ClientId, row.clientId = some c → row'.clientId = some c →
    row.canonicalId = row'.canonicalId → row = row'

theorem uniquePerClient_upsertRow {assets : AutoTable CanonicalAsset.id}
    (h : UniquePerClient assets) : UniquePerClient (upsertRow dumps assets write now) := by
  rw [upsertRow]
  cases hfind : findAsset assets write.canonicalId (normalizeClientId write.clientId) with
  | none =>
      have hnew : ∀ row ∈ assets, ∀ c : ClientId, row.clientId = some c →
          normalizeClientId write.clientId = some c → row.canonicalId ≠ write.canonicalId := by
        intro row hrow c hclient hwrite hsame
        rw [hwrite] at hfind
        have hnone := firstAsset_eq_none hfind row hrow
        simp [hclient, hsame] at hnone
      intro row hrow row' hrow' c hc hc' hsame
      rcases AutoTable.mem_insert.mp hrow with hold | rfl
      · rcases AutoTable.mem_insert.mp hrow' with hold' | rfl
        · exact h row hold row' hold' c hc hc' hsame
        · exact absurd hsame (hnew row hold c hc hc')
      · rcases AutoTable.mem_insert.mp hrow' with hold' | rfl
        · exact absurd hsame.symm (hnew row' hold' c hc' hc)
        · rfl
  | some first =>
      have hsame : ∀ r ∈ assets, SameAsset r
          (if r.id == first.id then r.refresh dumps write now else r) := by
        intro r _
        split
        · exact sameAsset_refresh
        · exact .refl r
      intro row hrow row' hrow' c hc hc' heq
      obtain ⟨r, hr, rfl⟩ := AutoTable.mem_update.mp hrow
      obtain ⟨r', hr', rfl⟩ := AutoTable.mem_update.mp hrow'
      have hrr : r = r' := by
        refine h r hr r' hr' c ?_ ?_ ?_
        · rw [← (hsame r hr).clientId, hc]
        · rw [← (hsame r' hr').clientId, hc']
        · rw [← (hsame r hr).canonicalId, heq, (hsame r' hr').canonicalId]
      rw [hrr]

theorem uniquePerClient_upsertAssets {written : Written}
    (h : UniquePerClient s.assets) :
    UniquePerClient (upsertAssets dumps now s written ws).2.assets := by
  induction ws generalizing s written with
  | nil => exact h
  | cons write ws ih =>
      rw [upsertAssets]
      split
      · exact h
      · rename_i asset t hupsert
        refine ih ?_
        rw [eq_of_upsertCanonicalAsset hupsert]
        exact uniquePerClient_upsertRow h

theorem uniquePerClient_step (l : AssetCall δ) (h : UniquePerClient s.assets) :
    UniquePerClient (s.step dumps l).assets := by
  cases l with
  | upsert write now =>
      simp only [Store.step]
      cases hupsert : upsertCanonicalAsset dumps s write now with
      | error e => exact h
      | ok result =>
          change UniquePerClient result.2.assets
          rw [eq_of_upsertCanonicalAsset hupsert]
          exact uniquePerClient_upsertRow h
  | persist runId moduleId result clientId now =>
      have hassets : UniquePerClient (upsertAssets dumps now s ∅
          (result.assets.map (AssetWrite.within moduleId clientId))).2.assets :=
        uniquePerClient_upsertAssets h
      simp only [Store.step, persistCollectorResult]
      split
      · rename_i e t hupsert
        rwa [hupsert] at hassets
      · rename_i written t hupsert
        rw [hupsert] at hassets
        rwa [assets_addEvidence]

/-- The assets that a call was given, before a result is written under its module and client. -/
def AssetCall.assets : AssetCall δ → List (AssetWrite δ)
  | .upsert write _ => [write]
  | .persist _ _ result _ _ => result.assets

/-- No asset of a result that is written for a client has a client id of blanks alone. -/
def AssetCall.NamesClients : AssetCall δ → Prop
  | .upsert _ _ => True
  | .persist _ _ result clientId _ => normalizeClientId clientId ≠ none →
      ∀ write ∈ result.assets, ∀ text, write.clientId = some text → text ≠ "" →
        normalizeClientId (some text) ≠ none

/-- The client that an asset is written under: its own one, or that of the call. -/
theorem normalize_within {moduleId : String} {clientId : Option String}
    (hnamed : normalizeClientId clientId ≠ none → ∀ text, write.clientId = some text → text ≠ "" →
      normalizeClientId (some text) ≠ none) :
    normalizeClientId (write.within moduleId clientId).clientId =
      (normalizeClientId write.clientId).or (normalizeClientId clientId) := by
  rw [AssetWrite.within]
  cases htext : write.clientId with
  | none => rfl
  | some text =>
      by_cases hempty : text = ""
      · subst hempty
        rfl
      · have hor : orText (some text) clientId = some text := by
          unfold orText
          split <;> simp_all
        simp only [hor]
        cases hown : normalizeClientId (some text) with
        | some c => rfl
        | none =>
            have hnone : normalizeClientId clientId = none := by
              by_contra hclient
              exact hnamed hclient text htext hempty hown
            rw [hnone]
            rfl

/-- An asset names the client of the row, or names none and the call is made for that client, or
both name none and the row is the first one of its canonical id. -/
def Reaches (s : Store) (l : AssetCall δ) (row : CanonicalAsset) (c : ClientId) : Prop :=
  ∃ write ∈ l.assets, write.canonicalId = row.canonicalId ∧
    (normalizeClientId write.clientId = some c ∨ normalizeClientId write.clientId = none ∧
      (l.clientId = some c ∨ l.clientId = none ∧
        ∀ other ∈ s.assets, other.canonicalId = row.canonicalId → row.id ≤ other.id))

theorem reaches_of_targets {l : AssetCall δ} {c : ClientId} (hnamed : l.NamesClients)
    (hc : row.clientId = some c) (hwrite : write ∈ l.writes) (h : Targets s write row) :
    Reaches s l row c := by
  obtain ⟨hsame, htarget⟩ := h
  rw [hc] at htarget
  cases l with
  | upsert own now =>
      obtain rfl := List.mem_singleton.mp hwrite
      refine ⟨write, List.mem_singleton_self write, hsame, ?_⟩
      exact htarget.imp_right fun ⟨hnone, hfirst⟩ => ⟨hnone, .inr ⟨hnone, hfirst⟩⟩
  | persist runId moduleId result clientId now =>
      obtain ⟨own, hown, rfl⟩ := List.mem_map.mp hwrite
      refine ⟨own, hown, hsame, ?_⟩
      rw [normalize_within fun hclient => hnamed hclient own hown] at htarget
      cases howner : normalizeClientId own.clientId with
      | some d =>
          rw [howner] at htarget
          simpa using htarget
      | none =>
          rw [howner, Option.none_or] at htarget
          exact .inr ⟨rfl, htarget⟩

/-- A call leaves the row of a named client as it is, unless one of its assets names that client,
or names none while the call is made for that client, or for none and no earlier row has the
canonical id. The row keeps its identity in every case, and no other row has its client and its
canonical id. -/
theorem assets_stay (dumps : δ → String) (ls : List (AssetCall δ)) (l : AssetCall δ) :
    let s := (warehouse dumps).run ls
    let t := (warehouse dumps).run (ls ++ [l])
    (∀ row ∈ s.assets, ∀ c : ClientId, row.clientId = some c →
      (∃ row' ∈ t.assets, SameAsset row row') ∧
      (l.NamesClients → row ∈ t.assets ∨ Reaches s l row c)) ∧
    UniquePerClient s.assets := by
  intro s t
  have hkeeps : Keeps l.writes s t := by
    simp only [t, Machine.run_concat]
    exact keeps_step dumps s l
  refine ⟨fun row hrow c hc => ⟨hkeeps.same row hrow, fun hnamed => ?_⟩, ?_⟩
  · refine (hkeeps.others row hrow).imp_right ?_
    rintro ⟨write, hwrite, htarget⟩
    exact reaches_of_targets hnamed hc hwrite htarget
  · refine Machine.run_invariant (I := fun s : Store => UniquePerClient s.assets) ?_ ?_ ls
    · exact fun row hrow => absurd hrow (AutoTable.not_mem_empty row)
    · exact fun s l h => uniquePerClient_step l h

/-- A server that a client and then a host without a client report. -/
def serverWrite (displayName : String) (clientId : Option String) : AssetWrite Unit where
  canonicalId := "server-1"
  assetType := "server"
  displayName := displayName
  attributes := ()
  clientId := clientId

def acmeServer : CanonicalAsset :=
  newAsset (fun _ => "{}") (serverWrite "Server" (some "acme")) (some acme) "08:00" 1

def contosoClient : ClientId := ⟨"contoso", by decide, by decide⟩

/-- A call without a client rewrites the row of a named client, and so does a result of another
client with an asset that names it. -/
theorem not_assets_untouched :
    (¬ ∀ (dumps : Unit → String) (ls : List (AssetCall Unit)) (l : AssetCall Unit),
      l.clientId = none → ∀ row ∈ ((warehouse dumps).run ls).assets, ∀ d : ClientId,
        row.clientId = some d → row ∈ ((warehouse dumps).run (ls ++ [l])).assets) ∧
    ¬ ∀ (dumps : Unit → String) (ls : List (AssetCall Unit)) (l : AssetCall Unit) (c : ClientId),
      l.clientId = some c → ∀ row ∈ ((warehouse dumps).run ls).assets, ∀ d : ClientId,
        row.clientId = some d → d ≠ c → row ∈ ((warehouse dumps).run (ls ++ [l])).assets := by
  constructor
  · intro h
    have hrow := h (fun _ => "{}") [.upsert (serverWrite "Server" (some "acme")) "08:00"]
      (.upsert (serverWrite "Host" none) "08:05") rfl acmeServer (by decide) acme rfl
    exact absurd hrow (by decide)
  · intro h
    have hrow := h (fun _ => "{}") [.upsert (serverWrite "Server" (some "acme")) "08:00"]
      (.persist 1 "inventory" ⟨[serverWrite "Host" (some "acme")], []⟩ (some "contoso") "08:05")
      contosoClient (by decide) acmeServer (by decide) acme rfl (by decide)
    exact absurd hrow (by decide)

end WaitLocalAgent.Assets
