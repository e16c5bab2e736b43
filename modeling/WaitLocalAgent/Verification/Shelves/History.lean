import WaitLocalAgent.Verification.Agents.Updates
import WaitLocalAgent.Verification.Shelves.Calls

/-! # Linear histories

Whatever calls on the gallery, on the playbooks and on the agents are interleaved, the revisions of
an entry have the versions `1..n`, and the last one has the content of the entry exactly if
redaction leaves that content alone. -/

namespace WaitLocalAgent.Shelves

open Foundation Approvals Agents AgentRuns

/-- The revisions of every entry have the versions `1..n` of its version `n`, each of them once, the
last one has its content, and the calls that have raised have changed nothing. -/
structure KeepsHistory {W κ S E R K A ε α : Type} {Answer : A → Type} (V : Versioned S κ E R)
    (rows : S → List R) (key : R → κ × ℕ)
    (p : Program.Watched W K S A Answer (Except ε α)) : Prop where
  linear : V.Linear p.shared
  once : Set.InjOn key {r | r ∈ rows p.shared}
  unchanged : ∀ w call e, p.threads w = some (call, .done (.error e)) → ¬ p.changed w

/-- A history that is linear for what the revisions record is kept for the contents of the entries
that have `P`. -/
theorem keepsHistory_iff {W κ S E R K A ε α : Type} {Answer : A → Type} {V : Versioned S κ E R}
    {rows : S → List R} {key : R → κ × ℕ} {p : Program.Watched W K S A Answer (Except ε α)}
    {Same : E → R → Prop} {P : E → Prop} (hsame : ∀ e r, V.Records e r → (Same e r ↔ P e))
    (h : KeepsHistory V rows key p) :
    KeepsHistory { V with Records := Same } rows key p ↔
      ∀ k e, V.entry p.shared k = some e → P e := by
  rw [← h.linear.records_iff hsame]
  exact ⟨KeepsHistory.linear, fun hlinear => ⟨hlinear, h.once, h.unchanged⟩⟩

section Shelves

variable {E R N : Type} {C : Columns E R}

def revisionKey (C : Columns E R) (r : R) : String × ℕ := (C.entryId r, C.revisionVersion r)

def UniqueVersions (s : Shelf C) : Prop :=
  Set.InjOn (revisionKey C) {r | r ∈ s.revisions.table.rows}

theorem insertRevision_unique {s s' : Shelf C} {draft : ℕ → R}
    {hdraft : ∀ n, C.revisionId (draft n) = n} {event : AuditEvent}
    (h : s.insertRevision draft hdraft event = .ok s')
    (hkey : ∀ n, revisionKey C (draft n) = revisionKey C (draft 0)) (hs : UniqueVersions s) :
    UniqueVersions s' := by
  simp only [Shelf.insertRevision, bind_eq_ok, raiseIf_eq_ok, pure_eq_ok] at h
  obtain ⟨_, hfree, rfl⟩ := h
  have hnew : ∀ r ∈ s.revisions.table.rows, revisionKey C r ≠ revisionKey C (draft 0) := by
    intro r hr hsame
    refine hfree ?_
    simp only [revisionKey, Prod.mk.injEq] at hsame
    rw [Shelf.selectRevision, List.find?_isSome]
    exact ⟨r, hr, by simp [hsame]⟩
  show Set.InjOn (revisionKey C) {r | r ∈ s.revisions.table.rows ++ [draft _]}
  intro r hr q hq hsame
  simp only [Set.mem_ofPred_eq, List.mem_append, List.mem_singleton] at hr hq
  rcases hr with hr | rfl
  · rcases hq with hq | rfl
    · exact hs hr hq hsame
    · exact absurd (hsame.trans (hkey _)) (hnew r hr)
  · rcases hq with hq | rfl
    · exact absurd (hsame.symm.trans (hkey _)) (hnew q hq)
    · rfl

theorem insertEntry_unique {s s' : Shelf C} {row : E} {draft : ℕ → R}
    {hdraft : ∀ n, C.revisionId (draft n) = n} {event : AuditEvent}
    (h : s.insertEntry row draft hdraft event = .ok s')
    (hkey : ∀ n, revisionKey C (draft n) = revisionKey C (draft 0)) (hs : UniqueVersions s) :
    UniqueVersions s' := by
  unfold Shelf.insertEntry at h
  split at h
  · cases h
  · exact insertRevision_unique h hkey hs

theorem updateEntry_unique {s s' : Shelf C} {id : String} {set : E → E}
    {hset : ∀ e, C.id (set e) = C.id e} {draft : ℕ → R}
    {hdraft : ∀ n, C.revisionId (draft n) = n} {event : AuditEvent}
    (h : s.updateEntry id set hset draft hdraft event = .ok s')
    (hkey : ∀ n, revisionKey C (draft n) = revisionKey C (draft 0)) (hs : UniqueVersions s) :
    UniqueVersions s' := by
  simp only [Shelf.updateEntry, bind_eq_ok] at h
  obtain ⟨_, -, h⟩ := h
  exact insertRevision_unique h hkey hs

variable {W K α : Type} [DecidableEq W]

/-- The history of a shelf whose entries have the contents that `Same` compares. -/
def ShelfHistory (Same : E → R → Prop) (p : ShelfPool C N W K α) : Prop :=
  KeepsHistory (shelfVersions C Same) (fun s => s.revisions.table.rows) (revisionKey C) p

/-- A kind whose transactions insert one revision. -/
theorem shelfCalls_history {kind : ShelfKind C N} {Records : E → R → Prop}
    (hkind : kind.Sound Records)
    (hunique : ∀ write s s', kind.commit write s = .ok s' → UniqueVersions s → UniqueVersions s')
    {program : K → ShelfCall E R N α}
    (hprogram : ∀ call, ShelfFollows kind Records (.reading []) (program call))
    (ls : List (Program.PoolStep W K Unit)) :
    ShelfHistory Records ((shelfCalls W kind program).run ls) := by
  have hempty : (shelfLedger kind Records).Linear Shelf.empty :=
    .of_empty (fun _ => rfl) fun _ _ => rfl
  obtain ⟨hlinear, hunchanged⟩ :=
    Ledger.run_linear (W := W) (shelfLedger_lawful hkind) hempty hprogram ls
  have hnone : UniqueVersions (C := C) .empty := fun r hr => by cases hr
  exact ⟨hlinear, Ledger.run_commit (L := shelfLedger kind Records) hnone hunique ls, hunchanged⟩

end Shelves

section Stores

variable {W : Type} [DecidableEq W]

def GalleryHistory (p : ShelfPool
    (galleryColumns JsonObject (List String) (GalleryContent JsonObject))
      (GalleryContent JsonObject)
    W (GalleryOperation JsonObject) (TemplateGalleryEntry JsonObject (List String))) : Prop :=
  ShelfHistory (fun entry revision => revision.definitionJson = entry.content) p

def PlaybookHistory (p : ShelfPool
    (playbookColumns String JsonObject (PlaybookContent JsonObject)) (PlaybookContent JsonObject) W
    PlaybookOperation (MspPlaybookEntry String JsonObject)) : Prop :=
  ShelfHistory (fun entry revision => revision.snapshotJson = entry.content) p

def AgentHistory (p : AgentPool W) : Prop :=
  KeepsHistory (definitionVersions fun definition revision => revision.definition = definition)
    (fun s => s.revisions.table.rows) (fun revision => (revision.agentId, revision.version)) p

theorem commitGallery_unique {A D P S : Type} (format : GalleryFormat A D P S)
    (write : ShelfWrite (TemplateGalleryEntry D P) (GalleryContent D)) (s s' : Gallery D P S)
    (h : commitGallery format write s = .ok s') (hs : UniqueVersions s) : UniqueVersions s' := by
  cases write with
  | create entry => exact insertEntry_unique h (fun _ => rfl) hs
  | update entryId existing next now => exact updateEntry_unique h (fun _ => rfl) hs

theorem commitPlaybook_unique {I A D S : Type} [StoredId I] (format : PlaybookFormat A D S)
    (write : ShelfWrite (MspPlaybookEntry I D) (PlaybookContent D)) (s s' : Playbooks I D S)
    (h : commitPlaybook format write s = .ok s') (hs : UniqueVersions s) : UniqueVersions s' := by
  cases write with
  | create entry => exact insertEntry_unique h (fun _ => rfl) hs
  | update entryId existing next now => exact updateEntry_unique h (fun _ => rfl) hs

theorem galleryHistory_iff (rt : GalleryRuntime)
    (ls : List (Program.PoolStep W (GalleryOperation JsonObject) Unit)) :
    GalleryHistory ((galleryCalls W rt).run ls) ↔
      ∀ id entry, ((galleryCalls W rt).run ls).shared.entries.find? id = some entry →
        entry.content.redacted rt.toRuntime = entry.content := by
  refine keepsHistory_iff (V := shelfVersions (galleryColumns _ _ _) (GalleryRecords rt.format)) ?_
    (shelfCalls_history (galleryKind_sound rt.format) (commitGallery_unique rt.format)
      (GalleryOperation.follows rt.format) ls)
  intro entry revision hrecords
  rw [hrecords]
  exact Iff.rfl

theorem playbookHistory_iff (rt : Runtime)
    (ls : List (Program.PoolStep W PlaybookOperation Unit)) :
    PlaybookHistory ((playbookCalls W rt).run ls) ↔
      ∀ id entry, ((playbookCalls W rt).run ls).shared.entries.find? id = some entry →
        entry.content.redacted rt = entry.content := by
  refine keepsHistory_iff
    (V := shelfVersions (playbookColumns _ _ _) (PlaybookRecords (playbookFormat rt))) ?_
    (shelfCalls_history (playbookKind_sound (playbookFormat rt))
      (commitPlaybook_unique (playbookFormat rt))
      (PlaybookOperation.follows rt) ls)
  intro entry revision hrecords
  rw [hrecords]
  exact Iff.rfl

theorem agentHistory_iff (rt : AgentRuntime) (ls : List (Program.PoolStep W AgentOperation Unit)) :
    AgentHistory ((agentCalls W rt).run ls) ↔
      ∀ id definition, ((agentCalls W rt).run ls).shared.definitions.find? id = some definition →
        rt.redactText definition.name = definition.name ∧
          rt.redactText definition.description = definition.description := by
  have hempty : (agentLedger rt).Linear ⟨.empty, .empty⟩ :=
    .of_empty (fun _ => rfl) fun _ _ => rfl
  obtain ⟨hlinear, hunchanged⟩ := Ledger.run_linear (W := W) (agentLedger_lawful rt) hempty
    (AgentOperation.follows rt) ls
  have hnone : UniqueRevisions ⟨.empty, .empty⟩ := fun r hr => by cases hr
  have hunique : UniqueRevisions ((agentCalls W rt).run ls).shared :=
    Ledger.run_commit (L := agentLedger rt) hnone (fun _ _ _ => commit_unique) ls
  refine keepsHistory_iff (V := definitionVersions (RecordsDefinition rt)) ?_
    ⟨hlinear, ?_, hunchanged⟩
  · intro definition revision hrecords
    rw [hrecords]
    cases definition
    simp
  · intro r hr q hq hsame
    exact hunique r hr q hq (congrArg Prod.fst hsame) (congrArg Prod.snd hsame)

/-- In every run, the histories of the gallery, the playbooks and the agents are kept exactly as far
as redaction leaves the stored contents alone. -/
theorem histories_kept_iff (rt : GalleryRuntime) (agents : AgentRuntime)
    (gallerySteps : List (Program.PoolStep W (GalleryOperation JsonObject) Unit))
    (playbookSteps : List (Program.PoolStep W PlaybookOperation Unit))
    (agentSteps : List (Program.PoolStep W AgentOperation Unit)) :
    (GalleryHistory ((galleryCalls W rt).run gallerySteps) ↔
      ∀ id entry, ((galleryCalls W rt).run gallerySteps).shared.entries.find? id = some entry →
        entry.content.redacted rt.toRuntime = entry.content) ∧
    (PlaybookHistory ((playbookCalls W rt.toRuntime).run playbookSteps) ↔
      ∀ id entry,
        ((playbookCalls W rt.toRuntime).run playbookSteps).shared.entries.find? id = some entry →
        entry.content.redacted rt.toRuntime = entry.content) ∧
    (AgentHistory ((agentCalls W agents).run agentSteps) ↔
      ∀ id definition,
        ((agentCalls W agents).run agentSteps).shared.definitions.find? id = some definition →
        agents.redactText definition.name = definition.name ∧
          agents.redactText definition.description = definition.description) :=
  ⟨galleryHistory_iff rt gallerySteps, playbookHistory_iff rt.toRuntime playbookSteps,
    agentHistory_iff agents agentSteps⟩

end Stores

def redactingAgents : AgentRuntime where
  toRuntime := { morningAgents.toRuntime with
    redactText := fun text => if text = "password: hunter2" then "password: [redacted]" else text }
  tools := morningAgents.tools
  zone := morningAgents.zone
  casefold := morningAgents.casefold
  recursionLimit := morningAgents.recursionLimit
  redactText_plain := by
    intro text hplain
    refine if_neg ?_
    rintro rfl
    exact absurd (hplain ':' (by decide)) (by simp)

/-- An agent is created whose description is that text. -/
def describedAgent : List (Program.PoolStep Unit AgentOperation Unit) :=
  [.start () (.create { triageRequest [] with description := "password: hunter2" } none 1
      (Instant.morning 0)),
    .act () (), .act () (), .act () ()]

/-- The agent keeps the text, and its revision does not. -/
theorem not_histories_kept : ¬ ∀ (rt : AgentRuntime)
    (ls : List (Program.PoolStep Unit AgentOperation Unit)),
    AgentHistory ((agentCalls Unit rt).run ls) := by
  intro hall
  have hkept := hall redactingAgents describedAgent
  have hstored : (((agentCalls Unit redactingAgents).run describedAgent).shared.definitions.find?
      (newAgentId 1)).map AgentDefinition.description = some "password: hunter2" := by
    decide
  obtain ⟨definition, hdefinition, hdescription⟩ := Option.map_eq_some_iff.mp hstored
  have hplain := ((agentHistory_iff redactingAgents describedAgent).mp hkept _ _ hdefinition).2
  rw [hdescription] at hplain
  exact absurd hplain (by decide)

end WaitLocalAgent.Shelves
