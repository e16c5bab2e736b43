import WaitLocalAgent.Verification.Knowledge.Approval

/-! # The vector index and the store

The index only ever replaces points by their ids. As long as no document is ingested again that has
points, every point is the current chunk of its document. -/

namespace WaitLocalAgent.Knowledge

open Foundation

variable {pointId : ℕ → String} {s s' : KnowledgeStore} {clientId : Option ClientId}
  {now : String} {index : VectorIndex} {p : Payload}

def clientText (clientId : Option ClientId) : String := (clientId.map Subtype.val).getD ""

/-- The point is a chunk of the store, with its text, of a document of the client that it names. -/
def Current (s : KnowledgeStore) (p : Payload) : Prop :=
  ∃ c ∈ s.chunks, c.id = p.chunkId ∧ c.text = p.text ∧ c.documentId = p.documentId ∧
    ∃ d ∈ s.documents, d.id = c.documentId ∧ clientText d.clientId = p.clientId

def AllCurrent (s : KnowledgeStore) (index : VectorIndex) : Prop :=
  ∀ key p, index key = some p → Current s p

theorem AllCurrent.upsertDocumentChunks {chunks : List KnowledgeChunk}
    (hchunks : ∀ chunk ∈ chunks, Current s chunk.payload) (h : AllCurrent s index) :
    AllCurrent s (upsertDocumentChunks pointId chunks index) := by
  induction chunks generalizing index with
  | nil => exact h
  | cons chunk chunks ih =>
      refine ih (fun c hc => hchunks c (List.mem_cons_of_mem _ hc)) ?_
      intro key p hp
      by_cases hkey : key = pointId chunk.id
      · rw [hkey, Function.update_self, Option.some.injEq] at hp
        exact hp ▸ hchunks chunk List.mem_cons_self
      · rw [Function.update_of_ne hkey] at hp
        exact h key p hp

theorem current_of_mem_list {documentId : ℕ} {chunk : KnowledgeChunk}
    (h : chunk ∈ listKnowledgeChunksForDocument s documentId) : Current s chunk.payload := by
  unfold listKnowledgeChunksForDocument at h
  split at h
  · cases h
  · rename_i d hd
    obtain ⟨hmem, hid⟩ := AutoTable.find?_eq_some_iff.mp hd
    obtain ⟨c, hc, rfl⟩ := List.mem_map.mp h
    obtain ⟨hrow, hdocument⟩ := List.mem_filter.mp hc
    have hdocument : c.documentId = documentId := beq_iff_eq.mp hdocument
    exact ⟨c, hrow, rfl, rfl, rfl, d, hmem, hid.trans hdocument.symm, rfl⟩

theorem AllCurrent.foldl (documentIds : List ℕ) (h : AllCurrent s index) :
    AllCurrent s (documentIds.foldl (fun index documentId =>
      Knowledge.upsertDocumentChunks pointId (listKnowledgeChunksForDocument s documentId) index)
      index) := by
  induction documentIds generalizing index with
  | nil => exact h
  | cons documentId documentIds ih =>
      exact ih (h.upsertDocumentChunks fun chunk hchunk => current_of_mem_list hchunk)

theorem mem_insertChunks {chunks : AutoTable ChunkRow.id} {c : ChunkRow} (documentId : ℕ)
    (texts : List String) (first : ℕ) (hc : c ∈ chunks) :
    c ∈ insertChunks documentId first texts chunks := by
  induction texts generalizing first chunks with
  | nil => exact hc
  | cons text texts ih => exact ih (first + 1) (AutoTable.mem_insert.mpr (.inl hc))

theorem upsertDocument_keeps {w : KnowledgeDocumentWrite} {c : ChunkRow} {d : KnowledgeDocument}
    (hc : c ∈ s.chunks) (hd : d ∈ s.documents) (hid : d.id = c.documentId)
    (hpath : w.path ≠ d.path) : c ∈ (upsertDocument s clientId now w).1.chunks := by
  unfold upsertDocument
  cases hfind : s.findPath w.path with
  | none => exact mem_insertChunks _ _ _ hc
  | some e =>
      obtain ⟨he, hepath⟩ := findPath_eq_some hfind
      refine mem_insertChunks _ _ _ (AutoTable.mem_delete.mpr ⟨hc, ?_⟩)
      rw [beq_eq_false_iff_ne, ← hid]
      intro hsame
      have hde : d = e := AutoTable.eq_of_key_eq hd he hsame
      exact hpath (by rw [hde, hepath])

theorem upsertAll_keeps {ws : List KnowledgeDocumentWrite} {c : ChunkRow} {d : KnowledgeDocument}
    (hpaths : UniquePaths s) (hc : c ∈ s.chunks) (hd : d ∈ s.documents) (hid : d.id = c.documentId)
    (hpath : ∀ w ∈ ws, w.path ≠ d.path) : c ∈ (upsertAll clientId now ws s).1.chunks := by
  induction ws generalizing s d with
  | nil => exact hc
  | cons w ws ih =>
      obtain ⟨d', hd', hrw⟩ := (upsertDocument_rewrites hpaths).kept d hd
      refine ih (upsertDocument_uniquePaths clientId now w hpaths)
        (upsertDocument_keeps hc hd hid (hpath w List.mem_cons_self)) hd' (hrw.id.trans hid) ?_
      intro v hv
      rw [hrw.path]
      exact hpath v (List.mem_cons_of_mem w hv)

/-- A point of a document that is not written stays current. -/
theorem Current.upsertAll {ws : List KnowledgeDocumentWrite} (hpaths : UniquePaths s)
    (h : Current s p)
    (hws : ∀ d ∈ s.documents, d.id = p.documentId → ∀ w ∈ ws, w.path ≠ d.path) :
    Current (upsertAll clientId now ws s).1 p := by
  obtain ⟨c, hc, hchunk, htext, hdocument, d, hd, hid, hclient⟩ := h
  have hpath := hws d hd (hid.trans hdocument)
  obtain ⟨hrewrites, -⟩ := upsertAll_rewrites clientId now hpaths ws
  obtain ⟨d', hd', hrw⟩ := hrewrites.kept d hd
  refine ⟨c, upsertAll_keeps hpaths hc hd hid hpath, hchunk, htext, hdocument, d', hd',
    hrw.id.trans hid, ?_⟩
  rw [hrw.clientId, lastWrite_eq_none hpath]
  exact hclient

/-- The scope of a search admits documents of this client. -/
def ScopeHolds (scope : Option ScopeArgument) (clientId : Option ClientId) : Prop :=
  ∃ requested, requestedClientIds scope = .ok requested ∧
    ∀ ids, requested = some ids → clientText clientId ∈ ids

/-- Whatever the collection answers out of its points, a search returns chunks of the store with
their texts, of documents of the clients it was made for. -/
def SearchAgrees (k : KnowledgeState) : Prop :=
  ∀ hits : String → ℕ → List Payload,
    (∀ query limit, ∀ p ∈ hits query limit, ∃ key, k.index key = some p) →
    ∀ query limit scope chunks, search hits query limit scope = .ok chunks →
      ∀ chunk ∈ chunks, ∃ c ∈ k.store.chunks, c.id = chunk.id ∧ c.text = chunk.text ∧
        ∃ d ∈ k.store.documents, d.id = c.documentId ∧ d.id = chunk.documentId ∧
          ScopeHolds scope d.clientId

theorem chunk_clientId (p : Payload) : p.chunk.clientId.getD "" = p.clientId := by
  unfold Payload.chunk
  by_cases h : p.clientId = "" <;> simp [h]

/-- What a search returns was a hit of a client that it was made for. -/
theorem search_hit {hits : String → ℕ → List Payload} {query : String} {limit : ℤ}
    {scope : Option ScopeArgument} {chunks : List KnowledgeChunk} {chunk : KnowledgeChunk}
    (h : search hits query limit scope = .ok chunks) (hchunk : chunk ∈ chunks) :
    ∃ requested, requestedClientIds scope = .ok requested ∧
      ∃ wanted, ∃ p ∈ hits query wanted, chunk = p.chunk ∧
        ∀ ids, requested = some ids → p.clientId ∈ ids := by
  unfold search at h
  simp only at h
  split at h
  · cases h
    cases hchunk
  · simp only [bind_eq_ok, pure_eq_ok] at h
    obtain ⟨requested, hrequested, rfl⟩ := h
    refine ⟨requested, hrequested, ?_⟩
    have hmem := List.mem_of_mem_take hchunk
    cases requested with
    | none =>
        obtain ⟨p, hp, rfl⟩ := List.mem_map.mp hmem
        exact ⟨_, p, hp, rfl, nofun⟩
    | some ids =>
        obtain ⟨hmem, hids⟩ := List.mem_filter.mp hmem
        obtain ⟨p, hp, rfl⟩ := List.mem_map.mp hmem
        refine ⟨_, p, hp, rfl, ?_⟩
        intro ids' hsame
        rw [Option.some.injEq] at hsame
        rw [chunk_clientId] at hids
        exact hsame ▸ List.contains_iff_mem.mp hids

theorem AllCurrent.searchAgrees {k : KnowledgeState} (h : AllCurrent k.store k.index) :
    SearchAgrees k := by
  intro hits hhits query limit scope chunks hsearch chunk hchunk
  obtain ⟨requested, hrequested, wanted, p, hp, rfl, hids⟩ := search_hit hsearch hchunk
  obtain ⟨key, hkey⟩ := hhits query wanted p hp
  obtain ⟨c, hc, hid, htext, hdocument, d, hd, hdid, hclient⟩ := h key p hkey
  refine ⟨c, hc, hid, htext, d, hd, hdid, hdid.trans hdocument, requested, hrequested, ?_⟩
  intro ids hsome
  rw [hclient]
  exact hids ids hsome

/-- The call writes no document that is there and has points. -/
def WritesUnindexed (k : KnowledgeState) : KnowledgeStep → Prop
  | .setAuthority _ _ => True
  | .ingest request _ =>
      ∀ writes, request.source.pendingDocuments request.path = .ok writes →
        ∀ key p, k.index key = some p → ∀ d ∈ k.store.documents, d.id = p.documentId →
          ∀ w ∈ writes, w.path ≠ d.path

/-- An authority says nothing about chunks and clients. -/
theorem Current.assigned {row : KnowledgeDocument} {authority : KnowledgeAuthority}
    {actor : String} {sopVersion : Option String} {supersededBy : Option ℕ}
    (hrow : row ∈ s.documents) (h : Current s p) :
    Current { s with
      documents := s.documents.update (fun d => d.id == row.id)
        (authority.assign actor now sopVersion supersededBy)
        (authority.assign_id actor now sopVersion supersededBy) } p := by
  obtain ⟨c, hc, hchunk, htext, hdocument, d, hd, hid, hclient⟩ := h
  refine ⟨c, hc, hchunk, htext, hdocument, ?_⟩
  by_cases hsame : d.id = row.id
  · rw [AutoTable.eq_of_key_eq hd hrow hsame] at hid hclient
    exact ⟨_, (mem_assigned hrow).mpr (.inl rfl), hid, hclient⟩
  · exact ⟨d, (mem_assigned hrow).mpr (.inr ⟨hd, hsame⟩), hid, hclient⟩

theorem step_allCurrent (k : KnowledgeState) (l : KnowledgeStep) (hs : Sound k.store)
    (h : AllCurrent k.store k.index) (hguard : WritesUnindexed k l) :
    AllCurrent (k.step pointId l).store (k.step pointId l).index := by
  cases l with
  | ingest request now =>
      simp only [KnowledgeState.step, ingestPath]
      cases hpending : request.source.pendingDocuments request.path with
      | error e => exact h
      | ok writes =>
          refine AllCurrent.foldl _ fun key p hp => ?_
          refine (h key p hp).upsertAll hs.paths ?_
          exact hguard writes hpending key p hp
  | setAuthority request now =>
      simp only [KnowledgeState.step]
      cases hset : setKnowledgeDocumentAuthority k.store request now with
      | error e => exact h
      | ok result =>
          obtain ⟨s', d⟩ := result
          rcases setAuthority_cases hset with ⟨rfl, -⟩ | ⟨row, hrow, _, _, _, _, -, rfl, -⟩
          · exact h
          · exact fun key p hp => (h key p hp).assigned hrow

/-- In every run that writes no document that has points already, searches agree with the store. -/
theorem search_agrees (pointId : ℕ → String) (ls : List KnowledgeStep)
    (h : (knowledge pointId).Guarded WritesUnindexed ls) :
    SearchAgrees ((knowledge pointId).run ls) := by
  have hinvariant : Sound ((knowledge pointId).run ls).store ∧
      AllCurrent ((knowledge pointId).run ls).store ((knowledge pointId).run ls).index := by
    refine Machine.run_invariant_of_guarded
      (I := fun k => Sound k.store ∧ AllCurrent k.store k.index) ?_ ?_ h
    · exact ⟨⟨fun d hd => absurd hd (AutoTable.not_mem_empty d),
        fun d hd => absurd hd (AutoTable.not_mem_empty d)⟩, nofun⟩
    · intro k l hk hguard
      exact ⟨step_sound pointId k l hk.1, step_allCurrent k l hk.1 hk.2 hguard⟩
  exact hinvariant.2.searchAgrees

def printerRunbook : DocumentSource :=
  { runbook "Clear the queue." "77d0" with
    isFile := fun path => path == ["docs", "printer.md"] }

def twoRunbooks : List KnowledgeStep :=
  [ingestRunbook "Reset the tunnel." "41af" (some "acme"),
    .ingest { source := printerRunbook, path := ["docs", "printer.md"], clientId := some "initech",
              indexed := 1 } "10:00"]

theorem writesUnindexed_of_paths {k : KnowledgeState} {request : IngestRequest}
    (h : ∀ d ∈ k.store.documents.table.rows,
      ∀ w ∈ (request.source.pendingDocuments request.path).toOption.getD [], w.path ≠ d.path) :
    WritesUnindexed k (.ingest request now) := by
  intro writes hwrites key p _ d hd _ w hw
  rw [hwrites] at h
  exact h d hd w hw

/-- A search finds both of them as they are stored. -/
theorem search_agrees_twoRunbooks : SearchAgrees ((knowledge toString).run twoRunbooks) :=
  search_agrees toString twoRunbooks
    ⟨writesUnindexed_of_paths (by decide), writesUnindexed_of_paths (by decide +kernel),
      trivial⟩

/-- A runbook is ingested, and then again with another text, by another client. -/
def reingestedRunbook : List KnowledgeStep :=
  [ingestRunbook "Reset the tunnel." "41af" (some "acme"),
    ingestRunbook "Disable the firewall." "9c02" (some "initech")]

/-- The hits of a collection that answers with everything it holds under these ids. -/
def pointsOf (k : KnowledgeState) (keys : List String) (_query : String) (_limit : ℕ) :
    List Payload :=
  keys.filterMap k.index

/-- After a runbook is ingested again, a search returns the text that is gone. -/
theorem not_search_agrees : ¬ ∀ (pointId : ℕ → String) (ls : List KnowledgeStep),
    SearchAgrees ((knowledge pointId).run ls) := by
  intro hall
  let k := (knowledge toString).run reingestedRunbook
  have hpoints : ∀ query limit, ∀ p ∈ pointsOf k ["1"] query limit,
      ∃ key, k.index key = some p := by
    intro query limit p hp
    obtain ⟨key, -, hkey⟩ := List.mem_filterMap.mp hp
    exact ⟨key, hkey⟩
  have hfound : ((search (pointsOf k ["1"]) "tunnel" 3 (some (.text "acme"))).toOption.getD []).map
      (fun chunk => (chunk.id, chunk.text)) = [(1, "Reset the tunnel.")] ∧
      k.store.chunks.table.rows.map ChunkRow.id = [2] := by
    decide +kernel
  obtain ⟨hfound, hstored⟩ := hfound
  cases hsearch : search (pointsOf k ["1"]) "tunnel" 3 (some (.text "acme")) with
  | error e =>
      rw [hsearch] at hfound
      cases hfound
  | ok chunks =>
      rw [hsearch] at hfound
      have hmem : (1, "Reset the tunnel.") ∈ chunks.map fun chunk => (chunk.id, chunk.text) := by
        rw [show chunks.map _ = _ from hfound]
        exact List.mem_singleton_self _
      obtain ⟨chunk, hchunk, hfields⟩ := List.mem_map.mp hmem
      obtain ⟨c, hc, hid, -⟩ :=
        hall toString reingestedRunbook _ hpoints _ _ _ _ hsearch chunk hchunk
      have hids : c.id ∈ k.store.chunks.table.rows.map ChunkRow.id :=
        List.mem_map_of_mem hc
      rw [hstored, List.mem_singleton, hid, (Prod.mk.inj hfields).1] at hids
      cases hids

end WaitLocalAgent.Knowledge
