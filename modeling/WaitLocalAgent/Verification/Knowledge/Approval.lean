import WaitLocalAgent.Verification.Knowledge.Documents

/-! # What an approval is bound to

An approval stays bound to the content and the client that were approved, and a superseding document
to the client of the one that it supersedes, in every run whose ingestions leave both alone. -/

namespace WaitLocalAgent.Knowledge

open Foundation

/-- The service, and every document as it was when its authority was last set. -/
structure Tracked where
  knowledge : KnowledgeState
  lastSet : ℕ → Option KnowledgeDocument

abbrev Tracked.store (t : Tracked) : KnowledgeStore := t.knowledge.store

def Tracked.step (pointId : ℕ → String) (t : Tracked) (l : KnowledgeStep) : Tracked where
  knowledge := t.knowledge.step pointId l
  lastSet :=
    match l with
    | .ingest _ _ => t.lastSet
    | .setAuthority request now =>
        match setKnowledgeDocumentAuthority t.store request now with
        | .ok (_, some d) => Function.update t.lastSet d.id (some d)
        | _ => t.lastSet

def tracked (pointId : ℕ → String) : Machine Tracked KnowledgeStep where
  init := ⟨(knowledge pointId).init, fun _ => none⟩
  step := Tracked.step pointId

/-- Approved documents have the checksum and the client that they had when their authority was last
set, and superseding documents are of the same client. -/
structure ApprovalsBind (t : Tracked) : Prop where
  approved : ∀ d ∈ t.store.documents, d.authority.isApproved = true →
    ∃ e, t.lastSet d.id = some e ∧ e.checksum = d.checksum ∧ e.clientId = d.clientId
  superseding : ∀ d ∈ t.store.documents, ∀ k, d.supersededBy = some k →
    ∃ e ∈ t.store.documents, e.id = k ∧ e.clientId = d.clientId

def Supersedes (s : KnowledgeStore) (d : KnowledgeDocument) : Prop :=
  ∃ e ∈ s.documents, e.supersededBy = some d.id

/-- The call gives an approved document the content that it has, and no approved or superseding
document another client. -/
def KeepsApprovals (t : Tracked) : KnowledgeStep → Prop
  | .setAuthority _ _ => True
  | .ingest request _ =>
      ∀ writes, request.source.pendingDocuments request.path = .ok writes →
        ∀ d ∈ t.store.documents, ∀ w, lastWrite writes d.path = some w →
          (d.authority.isApproved = true → w.checksum = d.checksum) ∧
            (d.authority.isApproved = true ∨ Supersedes t.store d →
              normalizeClientId request.clientId = none ∨
                normalizeClientId request.clientId = d.clientId)

/-- What every call keeps. -/
structure Sound (s : KnowledgeStore) : Prop where
  paths : UniquePaths s
  approved : ∀ d ∈ s.documents, d.supersededBy ≠ none → d.authority.isApproved = true

variable {pointId : ℕ → String} {s s' : KnowledgeStore} {t t' : Tracked} {l : KnowledgeStep}
  {clientId : Option ClientId} {writes : List KnowledgeDocumentWrite} {request : AuthorityRequest}
  {now : String}

/-- A call of `ingest_path` that is committed rewrites the documents of its writes. -/
theorem ingest_cases (pointId : ℕ → String) (k : KnowledgeState) (request : IngestRequest)
    (now : String) :
    (k.step pointId (.ingest request now) = k ∧
      ∀ writes, request.source.pendingDocuments request.path ≠ .ok writes) ∨
    ∃ writes, request.source.pendingDocuments request.path = .ok writes ∧
      (k.step pointId (.ingest request now)).store =
        (upsertAll (normalizeClientId request.clientId) now writes k.store).1 := by
  simp only [KnowledgeState.step, ingestPath]
  cases hpending : request.source.pendingDocuments request.path with
  | error e => exact .inl ⟨rfl, nofun⟩
  | ok writes => exact .inr ⟨writes, rfl, rfl⟩

theorem Rewrites.sound (h : Rewrites clientId writes s s') (hpaths : UniquePaths s')
    (hs : Sound s) : Sound s' := by
  refine ⟨hpaths, ?_⟩
  intro d' hd' hne
  rcases h.source d' hd' with ⟨d, hd, hrw⟩ | hnew
  · rw [hrw.supersededBy] at hne
    rw [hrw.authority]
    exact hs.approved d hd hne
  · exact absurd hnew.supersededBy hne

/-- A document whose client is not written or written again keeps it. -/
theorem Rewritten.clientId_eq_iff {d d' : KnowledgeDocument} (h : Rewritten clientId writes d d') :
    d'.clientId = d.clientId ↔ ∀ w, lastWrite writes d.path = some w →
      clientId = none ∨ clientId = d.clientId := by
  rw [h.clientId]
  cases lastWrite writes d.path with
  | none => simp
  | some w => cases clientId <;> simp [eq_comm]

theorem Rewrites.approved_kept {lastSet : ℕ → Option KnowledgeDocument} {k k' : KnowledgeState}
    (h : Rewrites clientId writes k.store k'.store) (hbind : ApprovalsBind ⟨k, lastSet⟩)
    (hbind' : ApprovalsBind ⟨k', lastSet⟩) {d : KnowledgeDocument} (hd : d ∈ k.store.documents)
    (happroved : d.authority.isApproved = true) {w : KnowledgeDocumentWrite}
    (hw : lastWrite writes d.path = some w) :
    w.checksum = d.checksum ∧ (clientId = none ∨ clientId = d.clientId) := by
  obtain ⟨d', hd', hrw⟩ := h.kept d hd
  obtain ⟨e, he, hchecksum, hclient⟩ := hbind.approved d hd happroved
  obtain ⟨e', he', hchecksum', hclient'⟩ :=
    hbind'.approved d' hd' (by rw [hrw.authority]; exact happroved)
  have hsame : e = e' := by
    have he : lastSet d.id = some e := he
    have he' : lastSet d'.id = some e' := he'
    rw [hrw.id, he] at he'
    exact Option.some.inj he'
  subst hsame
  rw [hrw.checksum, hw] at hchecksum'
  exact ⟨hchecksum'.symm.trans hchecksum,
    hrw.clientId_eq_iff.mp (hclient'.symm.trans hclient) w hw⟩

/-- The writes keep the bindings exactly if they leave the approved contents and the clients
alone. -/
theorem Rewrites.approvalsBind_iff {lastSet : ℕ → Option KnowledgeDocument} {k k' : KnowledgeState}
    (h : Rewrites clientId writes k.store k'.store) (hs : Sound k.store)
    (hbind : ApprovalsBind ⟨k, lastSet⟩) :
    ApprovalsBind ⟨k', lastSet⟩ ↔
      ∀ d ∈ k.store.documents, ∀ w, lastWrite writes d.path = some w →
        (d.authority.isApproved = true → w.checksum = d.checksum) ∧
          (d.authority.isApproved = true ∨ Supersedes k.store d →
            clientId = none ∨ clientId = d.clientId) := by
  constructor
  · intro hbind' d hd w hw
    refine ⟨fun happroved => (h.approved_kept hbind hbind' hd happroved hw).1, ?_⟩
    rintro (happroved | ⟨x, hx, hxd⟩)
    · exact (h.approved_kept hbind hbind' hd happroved hw).2
    · -- The document that this one supersedes is approved, so its client is not rewritten.
      have hx_approved : x.authority.isApproved = true := hs.approved x hx (by simp [hxd])
      obtain ⟨x', hx', hxrw⟩ := h.kept x hx
      have hxclient : x'.clientId = x.clientId := hxrw.clientId_eq_iff.mpr fun v hxw =>
        (h.approved_kept hbind hbind' hx hx_approved hxw).2
      obtain ⟨e, he, heid, heclient⟩ := hbind.superseding x hx d.id hxd
      obtain ⟨e', he', heid', heclient'⟩ :=
        hbind'.superseding x' hx' d.id (hxrw.supersededBy.trans hxd)
      have hed : e = d := AutoTable.eq_of_key_eq he hd heid
      obtain ⟨d', hd', hrw⟩ := h.kept d hd
      have hed' : e' = d' := AutoTable.eq_of_key_eq he' hd' (heid'.trans hrw.id.symm)
      have hsame : d'.clientId = d.clientId := by
        rw [← hed', heclient', hxclient, ← heclient, hed]
      exact hrw.clientId_eq_iff.mp hsame w hw
  · intro hkeeps
    have hclient : ∀ d ∈ k.store.documents, ∀ d', Rewritten clientId writes d d' →
        d.authority.isApproved = true ∨ Supersedes k.store d → d'.clientId = d.clientId := by
      intro d hd d' hrw hbound
      exact hrw.clientId_eq_iff.mpr fun w hw => (hkeeps d hd w hw).2 hbound
    refine ⟨?_, ?_⟩
    · intro d' hd' hd'_approved
      rcases h.source d' hd' with ⟨d, hd, hrw⟩ | hnew
      · rw [hrw.authority] at hd'_approved
        obtain ⟨e, he, hchecksum, heclient⟩ := hbind.approved d hd hd'_approved
        refine ⟨e, by rw [hrw.id]; exact he, ?_, ?_⟩
        · rw [hchecksum, hrw.checksum]
          cases hw : lastWrite writes d.path with
          | none => rfl
          | some w => exact ((hkeeps d hd w hw).1 hd'_approved).symm
        · rw [heclient, hclient d hd d' hrw (.inl hd'_approved)]
      · rw [hnew.authority] at hd'_approved
        cases hd'_approved
    · intro d' hd' id hid
      rcases h.source d' hd' with ⟨d, hd, hrw⟩ | hnew
      · rw [hrw.supersededBy] at hid
        have hd_approved : d.authority.isApproved = true := hs.approved d hd (by simp [hid])
        obtain ⟨e, he, heid, heclient⟩ := hbind.superseding d hd id hid
        obtain ⟨e', he', herw⟩ := h.kept e he
        have hsupersedes : Supersedes k.store e := ⟨d, hd, by rw [hid, heid]⟩
        refine ⟨e', he', herw.id.trans heid, ?_⟩
        rw [hclient e he e' herw (.inr hsupersedes), heclient,
          hclient d hd d' hrw (.inl hd_approved)]
      · rw [hnew.supersededBy] at hid
        cases hid

/-- A call that sets an authority assigns it to one row, whose successor is of the same client. -/
theorem setAuthority_cases {d : Option KnowledgeDocument}
    (h : setKnowledgeDocumentAuthority s request now = .ok (s', d)) :
    (s' = s ∧ d = none) ∨
      ∃ row ∈ s.documents, ∃ authority actor sopVersion supersededBy,
        requireSuperseding s row supersededBy = .ok () ∧
        s' = { s with
          documents := s.documents.update (fun d => d.id == row.id)
            (KnowledgeAuthority.assign authority actor now sopVersion supersededBy)
            (authority.assign_id actor now sopVersion supersededBy) } ∧
        d = some (authority.assign actor now sopVersion supersededBy row) := by
  simp only [setKnowledgeDocumentAuthority, bind_eq_ok] at h
  obtain ⟨authority, -, _, -, _, -, _, -, admits, -, h⟩ := h
  split at h
  · cases h
    exact .inl ⟨rfl, rfl⟩
  · rename_i row hrow
    simp only [bind_eq_ok, pure_eq_ok] at h
    obtain ⟨_, hsuperseding, h⟩ := h
    cases h
    have hfind : s.documents.find? request.documentId = some row :=
      Option.eq_some_of_filter_eq_some hrow
    exact .inr ⟨row, (AutoTable.find?_eq_some_iff.mp hfind).1, _, _, _, _, hsuperseding, rfl, rfl⟩

theorem exists_superseding {row : KnowledgeDocument} {id : ℕ}
    (h : requireSuperseding s row (some id) = .ok ()) :
    id ≠ row.id ∧ ∃ e ∈ s.documents, e.id = id ∧ e.clientId = row.clientId := by
  simp only [requireSuperseding, bind_eq_ok, raiseIf_eq_ok, not_not] at h
  obtain ⟨_, hne, e, he, hid, hclient⟩ := h
  exact ⟨hne, e, he, hid, hclient⟩

section Assigned

variable {row : KnowledgeDocument} {authority : KnowledgeAuthority} {actor : String}
  {sopVersion : Option String} {supersededBy : Option ℕ}

theorem mem_assigned {d' : KnowledgeDocument} (hrow : row ∈ s.documents) :
    d' ∈ s.documents.update (fun d => d.id == row.id)
        (authority.assign actor now sopVersion supersededBy)
        (authority.assign_id actor now sopVersion supersededBy) ↔
      d' = authority.assign actor now sopVersion supersededBy row ∨
        d' ∈ s.documents ∧ d'.id ≠ row.id := by
  rw [AutoTable.mem_update]
  constructor
  · rintro ⟨d, hd, rfl⟩
    by_cases hid : d.id = row.id
    · rw [AutoTable.eq_of_key_eq hd hrow hid]
      simp
    · simp [hid, hd]
  · rintro (rfl | ⟨hd, hid⟩)
    · exact ⟨row, hrow, by simp⟩
    · exact ⟨d', hd, by simp [hid]⟩

theorem sound_assigned (hrow : row ∈ s.documents) (hs : Sound s) :
    Sound { s with
      documents := s.documents.update (fun d => d.id == row.id)
        (authority.assign actor now sopVersion supersededBy)
        (authority.assign_id actor now sopVersion supersededBy) } := by
  refine ⟨?_, ?_⟩
  · intro d' hd' e' he' hpath
    rcases (mem_assigned hrow).mp hd' with rfl | ⟨hd, hid⟩
    · rcases (mem_assigned hrow).mp he' with rfl | ⟨he, hid⟩
      · rfl
      · exact absurd (congrArg KnowledgeDocument.id (hs.paths row hrow e' he hpath)) hid.symm
    · rcases (mem_assigned hrow).mp he' with rfl | ⟨he, -⟩
      · exact absurd (congrArg KnowledgeDocument.id (hs.paths d' hd row hrow hpath)) hid
      · exact hs.paths d' hd e' he hpath
  · intro d' hd' hne
    rcases (mem_assigned hrow).mp hd' with rfl | ⟨hd, -⟩
    · by_contra happroved
      exact hne (if_neg happroved)
    · exact hs.approved d' hd hne

theorem approvalsBind_assigned {lastSet : ℕ → Option KnowledgeDocument} {k : KnowledgeState}
    (hrow : row ∈ k.store.documents)
    (hsuperseding : requireSuperseding k.store row supersededBy = .ok ())
    (hbind : ApprovalsBind ⟨k, lastSet⟩) :
    ApprovalsBind ⟨{ k with
      store := { k.store with
        documents := k.store.documents.update (fun d => d.id == row.id)
          (authority.assign actor now sopVersion supersededBy)
          (authority.assign_id actor now sopVersion supersededBy) } },
      Function.update lastSet row.id
        (some (authority.assign actor now sopVersion supersededBy row))⟩ := by
  -- A document of the same client can still be pointed to.
  have hkept : ∀ e ∈ k.store.documents, ∃ e' ∈ k.store.documents.update (fun d => d.id == row.id)
      (authority.assign actor now sopVersion supersededBy)
      (authority.assign_id actor now sopVersion supersededBy),
      e'.id = e.id ∧ e'.clientId = e.clientId := by
    intro e he
    by_cases hid : e.id = row.id
    · rw [AutoTable.eq_of_key_eq he hrow hid]
      exact ⟨_, (mem_assigned hrow).mpr (.inl rfl), rfl, rfl⟩
    · exact ⟨e, (mem_assigned hrow).mpr (.inr ⟨he, hid⟩), rfl, rfl⟩
  refine ⟨?_, ?_⟩
  · intro d' hd' happroved
    rcases (mem_assigned hrow).mp hd' with rfl | ⟨hd, hid⟩
    · exact ⟨_, Function.update_self .., rfl, rfl⟩
    · obtain ⟨e, he, hsame⟩ := hbind.approved d' hd happroved
      exact ⟨e, (Function.update_of_ne hid ..).trans he, hsame⟩
  · intro d' hd' id hid
    rcases (mem_assigned hrow).mp hd' with rfl | ⟨hd, -⟩
    · have hsome : supersededBy = some id := by
        have hid : (if authority.isApproved then supersededBy else none) = some id := hid
        split at hid
        · exact hid
        · cases hid
      rw [hsome] at hsuperseding
      obtain ⟨-, e, he, heid, heclient⟩ := exists_superseding hsuperseding
      obtain ⟨e', he', heid', heclient'⟩ := hkept e he
      exact ⟨e', he', heid'.trans heid, heclient'.trans heclient⟩
    · obtain ⟨e, he, heid, heclient⟩ := hbind.superseding d' hd id hid
      obtain ⟨e', he', heid', heclient'⟩ := hkept e he
      exact ⟨e', he', heid'.trans heid, heclient'.trans heclient⟩

end Assigned

theorem step_sound (pointId : ℕ → String) (k : KnowledgeState) (l : KnowledgeStep)
    (hs : Sound k.store) : Sound (k.step pointId l).store := by
  cases l with
  | ingest request now =>
      rcases ingest_cases pointId k request now with ⟨hsame, -⟩ | ⟨writes, -, hstore⟩
      · rwa [hsame]
      · obtain ⟨hrewrites, hpaths⟩ := upsertAll_rewrites (normalizeClientId request.clientId) now
          hs.paths writes
        rw [hstore]
        exact hrewrites.sound hpaths hs
  | setAuthority request now =>
      show Sound (committed k.store ((setKnowledgeDocumentAuthority k.store request now).map
        Prod.fst))
      refine committed_map_invariant ?_ hs
      rintro ⟨s', d⟩ h hs
      rcases setAuthority_cases h with ⟨rfl, -⟩ | ⟨row, hrow, _, _, _, _, -, rfl, -⟩
      · exact hs
      · exact sound_assigned hrow hs

theorem step_approvalsBind_iff (t : Tracked) (l : KnowledgeStep) (hs : Sound t.store)
    (hbind : ApprovalsBind t) : ApprovalsBind (t.step pointId l) ↔ KeepsApprovals t l := by
  cases l with
  | ingest request now =>
      rcases ingest_cases pointId t.knowledge request now with
        ⟨hsame, hnone⟩ | ⟨writes, hwrites, hstore⟩
      · have hstep : t.step pointId (.ingest request now) = t := by
          rw [Tracked.step, hsame]
        rw [hstep]
        exact iff_of_true hbind fun writes hwrites => absurd hwrites (hnone writes)
      · obtain ⟨hrewrites, -⟩ := upsertAll_rewrites (normalizeClientId request.clientId) now
          hs.paths writes
        rw [← hstore] at hrewrites
        rw [Tracked.step, hrewrites.approvalsBind_iff hs hbind]
        simp only [KeepsApprovals, hwrites, Except.ok.injEq, forall_eq']
  | setAuthority request now =>
      refine iff_of_true ?_ trivial
      simp only [Tracked.step, KnowledgeState.step]
      cases h : setKnowledgeDocumentAuthority t.store request now with
      | error e =>
          simp only [Except.map, committed]
          exact hbind
      | ok result =>
          obtain ⟨s', d⟩ := result
          simp only [Except.map, committed]
          rcases setAuthority_cases h with ⟨rfl, rfl⟩ | ⟨row, hrow, _, _, _, _, hok, rfl, rfl⟩
          · exact hbind
          · exact approvalsBind_assigned hrow hok hbind

/-- Approvals and supersessions are bound in every state of a run exactly if every ingestion of the
run keeps them. -/
theorem approvals_bind_iff (pointId : ℕ → String) (ls : List KnowledgeStep) :
    (∀ ks, ks <+: ls → ApprovalsBind ((tracked pointId).run ks)) ↔
      (tracked pointId).Guarded KeepsApprovals ls := by
  have hnone : ∀ d, d ∉ (tracked pointId).init.store.documents := AutoTable.not_mem_empty
  exact Machine.forall_prefix_iff_guarded (J := fun t => Sound t.store)
    ⟨fun d hd => absurd hd (hnone d), fun d hd => absurd hd (hnone d)⟩
    ⟨fun d hd => absurd hd (hnone d), fun d hd => absurd hd (hnone d)⟩
    (fun t => step_sound pointId t.knowledge) step_approvalsBind_iff ls

def runbook (text checksum : String) : DocumentSource where
  allowedRoot := ["docs"]
  resolve := id
  isFile path := path == ["docs", "vpn.md"]
  isDir path := path == ["docs"]
  rglob _ := [["docs", "vpn.md"]]
  supportedSuffixes := [".md", ".txt", ".pdf"]
  extract path := .ok
    { path, title := "VPN", kind := "md", text, checksum, modifiedAt := "08:00" }

def ingestRunbook (text checksum : String) (clientId : Option String) : KnowledgeStep :=
  .ingest { source := runbook text checksum, path := ["docs", "vpn.md"], clientId, indexed := 1 }
    "09:00"

/-- The runbook is approved, and then ingested again with another text, by another client. -/
def replacedRunbook : List KnowledgeStep :=
  [ingestRunbook "Reset the tunnel." "41af" (some "acme"),
    .setAuthority { documentId := 1, authority := "APPROVED_SOP", actor := "tess" } "10:00",
    ingestRunbook "Disable the firewall." "9c02" (some "initech")]

/-- The text that nobody approved is approved. -/
theorem not_approvals_bind : ¬ ∀ (pointId : ℕ → String) (ls : List KnowledgeStep),
    ApprovalsBind ((tracked pointId).run ls) := by
  intro hall
  have hbind := hall toString replacedRunbook
  have hfacts : (((tracked toString).run replacedRunbook).store.documents.find? 1).map
      (fun d => (d.authority.isApproved, d.checksum)) = some (true, "9c02") ∧
      (((tracked toString).run replacedRunbook).lastSet 1).map KnowledgeDocument.checksum =
        some "41af" := by
    decide +kernel
  obtain ⟨hdocument, hset⟩ := hfacts
  obtain ⟨d, hd, hfields⟩ := Option.map_eq_some_iff.mp hdocument
  obtain ⟨happroved, hchecksum⟩ := Prod.mk.inj hfields
  obtain ⟨hmem, hid⟩ := AutoTable.find?_eq_some_iff.mp hd
  obtain ⟨e, he, hsame, -⟩ := hbind.approved d hmem happroved
  rw [hid] at he
  rw [he, Option.map_some, hsame, hchecksum] at hset
  exact absurd hset (by decide)

end WaitLocalAgent.Knowledge
