import WaitLocalAgent.Verification.Shelves.Linear

/-! # The calls on the gallery and on the playbooks

Both kinds write a revision that is the snapshot of its entry, and all their calls raise before they
write. -/

namespace WaitLocalAgent.Shelves

open Foundation Approvals

theorem ofClient_admits (clientId : Option ClientId) :
    ∃ admits, (ScopeArgument.ofClient clientId).admits = .ok admits ∧ admits clientId = true := by
  cases clientId with
  | none => exact ⟨_, rfl, rfl⟩
  | some c =>
      simp [ScopeArgument.ofClient, ScopeArgument.admits, normalizeClientId_val]

section Kinds

variable {I A D P S : Type}

def GalleryRecords (format : GalleryFormat A D P S) (e : TemplateGalleryEntry D P)
    (r : TemplateGalleryRevision S) : Prop :=
  r.definitionJson = format.templateGalleryDefinitionJson e.content

theorem galleryCreate_writes {format : GalleryFormat A D P S} {entry : TemplateGalleryEntry D P}
    {s s' : Gallery D P S} (h : commitGallery format (.create entry) s = .ok s') :
    s.entries.find? entry.id = none ∧ ∃ r, (shelfVersions (galleryColumns D P S)
      (GalleryRecords format)).Writes entry.id { entry with version := 1 } r s s' := by
  have hdraft : DraftOf (galleryColumns D P S) (GalleryRecords format) { entry with version := 1 }
      (galleryRevision format entry.id 1 entry.content entry.createdAt entry.clientId) :=
    ⟨fun _ => rfl, fun _ => rfl, fun _ => rfl⟩
  exact insertEntry_writes h hdraft

theorem galleryUpdate_writes {format : GalleryFormat A D P S} {id : String}
    {existing d : TemplateGalleryEntry D P} {next : GalleryContent D} {now : String}
    {s s' : Gallery D P S} (h : commitGallery format (.update id existing next now) s = .ok s')
    (hd : s.entries.find? id = some d) : ∃ r, (shelfVersions (galleryColumns D P S)
      (GalleryRecords format)).Writes id (next.assign (existing.version + 1) now d) r s s' := by
  have hdraft : DraftOf (galleryColumns D P S) (GalleryRecords format)
      (next.assign (existing.version + 1) now d)
      (galleryRevision format id (existing.version + 1) next now existing.clientId) :=
    ⟨fun _ => (Table.key_of_find?_eq_some hd).symm, fun _ => rfl, fun _ => rfl⟩
  exact updateEntry_writes h hd hdraft

theorem galleryKind_sound (format : GalleryFormat A D P S) :
    (galleryKind format).Sound (GalleryRecords format) := by
  refine ⟨fun _ => rfl, fun _ => rfl, ?_, ?_⟩
  · intro entry s s' h
    obtain ⟨hnew, r, hw⟩ := galleryCreate_writes h
    exact ⟨_, r, hw, hnew, rfl, rfl⟩
  · intro entryId existing next now s s' d h hd
    obtain ⟨r, hw⟩ := galleryUpdate_writes h hd
    exact ⟨_, r, hw, rfl, rfl⟩

def PlaybookRecords (format : PlaybookFormat A D S) (e : MspPlaybookEntry I D)
    (r : MspPlaybookRevision S) : Prop :=
  r.snapshotJson = format.mspPlaybookSnapshotJson e.content

variable [StoredId I]

theorem playbookCreate_writes {format : PlaybookFormat A D S} {entry : MspPlaybookEntry I D}
    {s s' : Playbooks I D S} (h : commitPlaybook format (.create entry) s = .ok s') :
    s.entries.find? (StoredId.text entry.id) = none ∧ ∃ r, (shelfVersions (playbookColumns I D S)
      (PlaybookRecords format)).Writes (StoredId.text entry.id) { entry with version := 1 } r
        s s' := by
  have hdraft : DraftOf (playbookColumns I D S) (PlaybookRecords format)
      { entry with version := 1 }
      (playbookRevision format (StoredId.text entry.id) 1 entry.content entry.createdAt
        entry.clientId) :=
    ⟨fun _ => rfl, fun _ => rfl, fun _ => rfl⟩
  exact insertEntry_writes h hdraft

theorem playbookUpdate_writes {format : PlaybookFormat A D S} {id : String}
    {existing d : MspPlaybookEntry I D} {next : PlaybookContent D} {now : String}
    {s s' : Playbooks I D S} (h : commitPlaybook format (.update id existing next now) s = .ok s')
    (hd : s.entries.find? id = some d) : ∃ r, (shelfVersions (playbookColumns I D S)
      (PlaybookRecords format)).Writes id (next.assign (existing.version + 1) now d) r s s' := by
  have hdraft : DraftOf (playbookColumns I D S) (PlaybookRecords format)
      (next.assign (existing.version + 1) now d)
      (playbookRevision format id (existing.version + 1) next now existing.clientId) :=
    ⟨fun _ => (Table.key_of_find?_eq_some hd).symm, fun _ => rfl, fun _ => rfl⟩
  exact updateEntry_writes h hd hdraft

theorem playbookKind_sound (format : PlaybookFormat A D S) :
    (playbookKind (I := I) format).Sound (PlaybookRecords format) := by
  refine ⟨fun _ => rfl, fun _ => rfl, ?_, ?_⟩
  · intro entry s s' h
    obtain ⟨hnew, r, hw⟩ := playbookCreate_writes h
    exact ⟨_, r, hw, hnew, rfl, rfl⟩
  · intro entryId existing next now s s' d h hd
    obtain ⟨r, hw⟩ := playbookUpdate_writes h hd
    exact ⟨_, r, hw, rfl, rfl⟩

end Kinds

section Gallery

variable {A D P S α : Type} {format : GalleryFormat A D P S}
  {seen : List (Seen String (Option ClientId))}

abbrev GalleryFollows (format : GalleryFormat A D P S)
    (m : Ledger.Mode String (Option ClientId)) (p : GalleryCall D P S α) : Prop :=
  ShelfFollows (galleryKind format) (GalleryRecords format) m p

theorem follows_getTemplateGalleryEntry {id : String} {scope : ScopeArgument}
    {f : Option (TemplateGalleryEntry D P) → GalleryCall D P S α}
    (hnone : GalleryFollows format (.reading seen) (f none))
    (hsome : ∀ e, GalleryFollows format (.reading (⟨id, e.version, e.clientId⟩ :: seen))
      (f (some e))) :
    GalleryFollows format (.reading seen) (getTemplateGalleryEntry id scope >>= f) := by
  simp only [getTemplateGalleryEntry, bind_assoc]
  exact follows_ofExcept fun admits => follows_readEntry hnone hsome

theorem follows_readBack (id : String) (clientId : Option ClientId) :
    GalleryFollows format (.wrote id clientId) (readBack id clientId) := by
  obtain ⟨admits, hscope, hadmits⟩ := ofClient_admits clientId
  have hread : (getTemplateGalleryEntry id (.ofClient clientId) :
      GalleryCall D P S (Option (TemplateGalleryEntry D P))) = readEntry id admits := by
    rw [getTemplateGalleryEntry, hscope]
    rfl
  unfold readBack
  rw [hread]
  exact follows_closing hadmits (fun _ => trivial) follows_lost

theorem follows_createTemplateGalleryEntry (request : GalleryRequest A) (id now : String) :
    GalleryFollows format (.reading []) (createTemplateGalleryEntry format request id now) :=
  follows_ofExcept fun entry => follows_create (follows_readBack entry.id entry.clientId)

variable [DecidableEq D]

theorem follows_updateExisting {id : String} {existing : TemplateGalleryEntry D P}
    (hmem : ⟨id, existing.version, existing.clientId⟩ ∈ seen) (update : GalleryUpdate A)
    (now : String) :
    GalleryFollows format (.reading seen) (updateExisting format id existing update now) := by
  refine follows_ofExcept fun next => ?_
  split
  · trivial
  · exact follows_update hmem (follows_readBack id existing.clientId)

theorem follows_updateTemplateGalleryEntry (id : String) (update : GalleryUpdate A)
    (clientId : Option String) (now : String) :
    GalleryFollows format (.reading seen)
      (updateTemplateGalleryEntry format id update clientId now) := by
  refine follows_getTemplateGalleryEntry follows_raise fun existing => ?_
  exact follows_updateExisting (List.mem_cons_self ..) update now

theorem follows_restoreTemplateGalleryRevision (id : String) (version : ℕ) (scope : ScopeArgument)
    (now : String) :
    GalleryFollows format (.reading seen)
      (restoreTemplateGalleryRevision format id version scope now) := by
  refine follows_getTemplateGalleryEntry follows_raise fun existing => ?_
  simp only [getTemplateGalleryRevision, bind_assoc]
  refine follows_getTemplateGalleryEntry follows_raise fun _ => ?_
  refine follows_readRevision fun r => ?_
  cases r with
  | none => exact follows_raise
  | some revision => exact follows_updateTemplateGalleryEntry id _ _ now

theorem GalleryOperation.follows (format : GalleryFormat A D P S)
    (operation : GalleryOperation A) :
    GalleryFollows format (.reading []) (operation.program format) := by
  cases operation with
  | create request id now => exact follows_createTemplateGalleryEntry request id now
  | update id changes clientId now =>
      exact follows_updateTemplateGalleryEntry id changes clientId now
  | restore id version scope now =>
      exact follows_restoreTemplateGalleryRevision id version scope now

end Gallery

section Playbooks

variable {I A D S α : Type} [StoredId I] {format : PlaybookFormat A D S}
  {seen : List (Seen String (Option ClientId))}

abbrev PlaybookFollows (format : PlaybookFormat A D S)
    (m : Ledger.Mode String (Option ClientId)) (p : PlaybookCall I D S α) : Prop :=
  ShelfFollows (playbookKind format) (PlaybookRecords format) m p

theorem follows_readBackPlaybook (id : String) (clientId : Option ClientId) :
    PlaybookFollows (I := I) format (.wrote id clientId) (readBackPlaybook id clientId) := by
  refine follows_closing ?_ (fun _ => trivial) follows_lost
  rw [normalizeClientId_map_val, withinScope_self]

theorem follows_createMspPlaybookEntry (request : PlaybookRequest A) (id : I) (now : String) :
    PlaybookFollows format (.reading []) (createMspPlaybookEntry format request id now) :=
  follows_ofExcept fun entry =>
    follows_create (follows_readBackPlaybook (StoredId.text entry.id) entry.clientId)

variable [DecidableEq D]

theorem follows_updateExistingPlaybook {id : String} {existing : MspPlaybookEntry I D}
    (hmem : ⟨id, existing.version, existing.clientId⟩ ∈ seen) (update : PlaybookUpdate A)
    (now : String) :
    PlaybookFollows format (.reading seen)
      (updateExistingPlaybook format id existing update now) := by
  refine follows_ofExcept fun next => ?_
  split
  · trivial
  · exact follows_update hmem (follows_readBackPlaybook id existing.clientId)

theorem follows_updateMspPlaybookEntry (id : String) (update : PlaybookUpdate A)
    (clientId : Option String) (now : String) :
    PlaybookFollows (I := I) format (.reading seen)
      (updateMspPlaybookEntry format id update clientId now) := by
  refine follows_readEntry follows_raise fun existing => ?_
  exact follows_updateExistingPlaybook (List.mem_cons_self ..) update now

theorem follows_restoreMspPlaybookRevision (rt : Runtime) (id : String) (version : ℕ)
    (clientId : Option String) (now : String) :
    PlaybookFollows (playbookFormat rt) (.reading seen)
      (restoreMspPlaybookRevision rt id version clientId now) := by
  refine follows_readEntry follows_raise fun existing => ?_
  simp only [getMspPlaybookRevision, bind_assoc]
  refine follows_readEntry follows_raise fun _ => ?_
  refine follows_readRevision fun r => ?_
  cases r with
  | none => exact follows_raise
  | some revision => exact follows_updateMspPlaybookEntry id _ _ now

theorem PlaybookOperation.follows (rt : Runtime) (operation : PlaybookOperation) :
    PlaybookFollows (playbookFormat rt) (.reading []) (operation.program rt) := by
  cases operation with
  | create request id now => exact follows_createMspPlaybookEntry request id now
  | update id changes clientId now => exact follows_updateMspPlaybookEntry id changes clientId now
  | restore id version clientId now =>
      exact follows_restoreMspPlaybookRevision rt id version clientId now

end Playbooks

end WaitLocalAgent.Shelves

/-! ## Calls that nothing overlaps

What a call on a shelf comes to, action by action. -/

namespace WaitLocalAgent.Shelves

open Foundation

variable {E R N α β : Type} {C : Columns E R} {kind : ShelfKind C N} {s s' : Shelf C}

theorem exec_bind (kind : ShelfKind C N) (call : ShelfCall E R N α)
    (f : α → ShelfCall E R N β) (s : Shelf C) :
    kind.exec (call >>= f) s =
      match kind.exec call s with
      | (.ok a, s') => kind.exec (f a) s'
      | (.error e, s') => (.error e, s') := by
  refine (Program.exec_bindExcept _ call f s).trans ?_
  change _ = match kind.exec call s with
    | (.ok a, s') => kind.exec (f a) s'
    | (.error e, s') => (.error e, s')
  rcases hcall : kind.exec call s with ⟨result, s'⟩
  have hrun : Program.exec (fun a s => LedgerAction.respond kind.read kind.commit a s ())
      call.run s = (result, s') := hcall
  rw [hrun]
  cases result <;> rfl

theorem exec_ofExcept (x : Except ShelfError α) (s : Shelf C) :
    kind.exec (ofExcept x) s = (x, s) := rfl

theorem exec_readEntry (id : String) (admits : Option ClientId → Bool) (s : Shelf C) :
    kind.exec (readEntry id admits) s =
      (.ok ((s.selectEntry id admits).map kind.entryFromRow), s) := rfl

theorem exec_readRevision (id : String) (version : ℕ) (s : Shelf C) :
    kind.exec (readRevision id version) s =
      (.ok ((s.selectRevision id version).map kind.revisionFromRow), s) := rfl

theorem exec_writeEntry_of_ok {write : ShelfWrite E N} (h : kind.commit write s = .ok s') :
    kind.exec (writeEntry write) s = (.ok (), s') := by
  change LedgerAction.respond kind.read kind.commit (.write write) s () = _
  rw [LedgerAction.respond, h]

theorem exec_writeEntry_of_error {write : ShelfWrite E N} {error : ShelfError}
    (h : kind.commit write s = .error error) :
    kind.exec (writeEntry write) s = (.error error, s) := by
  change LedgerAction.respond kind.read kind.commit (.write write) s () = _
  rw [LedgerAction.respond, h]

theorem selectEntry_of_admits {id : String} {e : E} {admits : Option ClientId → Bool}
    (he : s.entries.find? id = some e) (hadmits : admits (C.clientId e) = true) :
    s.selectEntry id admits = some e := by
  rw [Shelf.selectEntry, he]
  exact Option.filter_some_pos hadmits

end WaitLocalAgent.Shelves
