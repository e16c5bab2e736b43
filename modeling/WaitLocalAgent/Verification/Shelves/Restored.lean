import WaitLocalAgent.Model.TemplateDesigns
import WaitLocalAgent.Verification.Shelves.Calls
import WaitLocalAgent.Verification.Workflows.Restored

/-! # Restored templates

A revision keeps the whole content of its version, but it is restored by an update, for which no
design means the design of today, and which checks a stored design once more. -/

namespace WaitLocalAgent.TemplateDesigns

open Foundation JsonValue Redaction WorkflowDesigner
open Shelves (ShelfError galleryText nextText nextDefinition galleryEntryFromRow
  galleryRevisionFromRow commitGallery galleryKind getTemplateGalleryEntry readBack
  createTemplateGalleryEntry updateExisting updateTemplateGalleryEntry getTemplateGalleryRevision
  restoreTemplateGalleryRevision GalleryRecords shelfVersions galleryCreate_writes
  galleryUpdate_writes ofClient_admits selectEntry_eq_some selectEntry_of_admits exec_bind
  exec_ofExcept exec_readEntry exec_readRevision exec_writeEntry_of_ok exec_writeEntry_of_error)

variable {lib : Library}

/-! ### Stored content -/

/-- What `_gallery_text` returns. -/
structure IsGalleryText (lib : Library) (limit : ℕ) (allowEmpty : Bool) (s : String) : Prop where
  strip : Text.strip s = s
  redacted : redactText lib.words s = s
  nonempty : s = "" → allowEmpty = true
  length : s.length ≤ limit

theorem format_redactText (lib : Library) : lib.format.redactText = redactText lib.words := rfl

theorem format_workflowDefinitionJson (lib : Library) :
    lib.format.workflowDefinitionJson = workflowDefinitionJson lib := rfl

theorem format_redactRevisionJson (lib : Library) :
    lib.format.redactRevisionJson = redactJsonText lib.words lib.floats.repr := rfl

theorem galleryText_eq_ok {value field s : String} {limit : ℕ} {allowEmpty : Bool}
    (h : galleryText lib.format.redactText value field limit allowEmpty = .ok s) :
    IsGalleryText lib limit allowEmpty s := by
  simp only [galleryText, format_redactText, bind_eq_ok, pure_eq_ok] at h
  obtain ⟨_, hne, _, hlimit, rfl⟩ := h
  refine ⟨strip_redactText (Text.strip_strip value), redactText_redactText _ _, ?_,
    Nat.not_lt.mp (raiseIf_eq_ok.mp hlimit)⟩
  intro hempty
  simpa [hempty] using raiseIf_eq_ok.mp hne

theorem galleryText_of_isGalleryText {s : String} {limit : ℕ} {allowEmpty : Bool}
    (h : IsGalleryText lib limit allowEmpty s) (field : String) :
    galleryText lib.format.redactText s field limit allowEmpty = .ok s := by
  have hne : ¬ (s = "" ∧ ¬ allowEmpty = true) := fun hempty => hempty.2 (h.nonempty hempty.1)
  simp only [galleryText, format_redactText, h.strip, h.redacted]
  rw [raiseIf_of_not hne, raiseIf_of_not (Nat.not_lt.mpr h.length)]
  rfl

/-- The text of an entry without a design. -/
def noDesign : String := "\x7b\x7d"

/-- The text of a design that was accepted. -/
structure IsDesignText (lib : Library) (design : WorkflowDesign) (text : String) : Prop where
  accepted : design.Accepted lib.toLibrary
  exact : (JsonValue.object design.payload).exact lib.floats = true
  text : text = designJson lib design

/-- The content of an entry between two calls. -/
structure Stored (lib : Library) (content : GalleryContent) : Prop where
  name : IsGalleryText lib 120 false content.name
  description : IsGalleryText lib 2000 false content.description
  instructions : IsGalleryText lib 4000 true content.instructions
  definition : content.definitionJson = noDesign ∨
    ∃ design, IsDesignText lib design content.definitionJson

theorem jsonObject_noDesign (repr : String → String) : jsonObject repr noDesign = [] := rfl

theorem redactJsonText_noDesign (w : WordClass) (repr : String → String) :
    redactJsonText w repr noDesign = noDesign := rfl

variable {design : WorkflowDesign}

theorem IsDesignText.jsonObject {text : String}
    (h : IsDesignText lib design text) :
    jsonObject lib.floats.repr text = design.stored lib.toLibrary := by
  rw [h.text]
  exact jsonObject_jsonDumpsValue lib.floats h.exact

theorem IsDesignText.ne_noDesign {text : String}
    (h : IsDesignText lib design text) : text ≠ noDesign := by
  rintro rfl
  have hformat := isFormat_stored lib.toLibrary design
  rw [← h.jsonObject] at hformat
  cases hformat

theorem IsDesignText.redacted {text : String}
    (h : IsDesignText lib design text) : redactJsonText lib.words lib.floats.repr text = text := by
  rw [h.text]
  exact redactJsonText_jsonDumpsValue lib.floats h.exact

theorem isDesignText_of_normalize {fields : Fields}
    (hexact : (JsonValue.object fields).exact lib.floats = true)
    (h : normalizeWorkflowDesign lib.toLibrary (.object fields) = .ok design) :
    IsDesignText lib design (designJson lib design) :=
  ⟨accepted_of_normalize h, floatsMeet_normalize h hexact, rfl⟩

theorem workflowDefinitionJson_eq_ok {definition : Option Fields} (hexact : Exact lib definition)
    {text : String} (h : workflowDefinitionJson lib definition = .ok text) :
    text = noDesign ∨ ∃ design, IsDesignText lib design text := by
  cases definition with
  | none =>
      cases h
      exact .inl rfl
  | some fields =>
      rw [workflowDefinitionJson] at h
      split at h
      · next design hdesign =>
          cases h
          exact .inr ⟨design, isDesignText_of_normalize (hexact fields rfl) hdesign⟩
      · cases h

variable {e : TemplateGalleryEntry}

theorem content_entryFromRow (h : Stored lib e.content) :
    (galleryEntryFromRow lib.format e).content = e.content := by
  have hdefinition : redactJsonText lib.words lib.floats.repr e.definitionJson =
      e.definitionJson := by
    rcases h.definition with hnone | ⟨design, hdesign⟩
    · have hnone : e.definitionJson = noDesign := hnone
      rw [hnone, redactJsonText_noDesign]
    · exact hdesign.redacted
  have hinstructions : redactText lib.words e.instructions = e.instructions :=
    h.instructions.redacted
  simp [Shelves.TemplateGalleryEntry.content, galleryEntryFromRow, Library.format, hdefinition,
    hinstructions]

/-! ### Snapshots -/

section Snapshot

variable {content : GalleryContent}

def designFields (lib : Library) (content : GalleryContent) : Fields :=
  jsonObject lib.floats.repr content.definitionJson

theorem storedFields_fields (h : Stored lib content) :
    storedFields lib.words (designFields lib content) = designFields lib content := by
  rcases h.definition with hnone | ⟨design, hdesign⟩
  · rw [designFields, hnone, jsonObject_noDesign]
    rfl
  · rw [designFields, hdesign.jsonObject, WorkflowDesign.stored,
      storedFields_storedFields]

theorem exact_fields (h : Stored lib content) :
    (JsonValue.object (designFields lib content)).exact lib.floats = true := by
  rcases h.definition with hnone | ⟨design, hdesign⟩
  · rw [designFields, hnone, jsonObject_noDesign]
    rfl
  · rw [designFields, hdesign.jsonObject, WorkflowDesign.stored,
      ← redactValue_sortKeys_object]
    exact floatsMeet_redactValue lib.words ((floatsMeet_sortKeys _ _).trans hdesign.exact)

theorem exact_snapshot (h : Stored lib content) :
    (JsonValue.object (contentSnapshot lib content)).exact lib.floats = true := by
  have hfields := exact_fields h
  rw [JsonValue.exact, floatsMeet] at hfields
  simp only [contentSnapshot, JsonValue.exact, floatsMeet, floatsMeetFields,
    Bool.and_true, Bool.true_and]
  exact hfields

theorem get_snapshot (lib : Library) (content : GalleryContent) {key : String}
    (hkey : isSensitiveKey key = false) {v : JsonValue}
    (hget : get? (contentSnapshot lib content) key = some v) :
    JsonValue.get (storedFields lib.words (contentSnapshot lib content)) key =
      redactValue lib.words v.sortKeys :=
  get_stored lib.words hkey hget

theorem plain_snapshot : ∀ key ∈ ["name", "description", "instructions", "enabled", "definition"],
    isSensitiveKey key = false := by
  decide

def design? (lib : Library) (content : GalleryContent) : Option Fields :=
  if content.definitionJson = noDesign then none else some (designFields lib content)

theorem safeWorkflowDefinition_fields (h : Stored lib content) :
    safeWorkflowDefinition (.object (designFields lib content)) = design? lib content := by
  rw [design?]
  rcases h.definition with hnone | ⟨design, hdesign⟩
  · rw [if_pos hnone, designFields, hnone, jsonObject_noDesign]
    rfl
  · have hformat := isFormat_stored lib.toLibrary design
    rw [if_neg hdesign.ne_noDesign, designFields, hdesign.jsonObject,
      safeWorkflowDefinition, if_pos hformat]

theorem get_snapshot_text (lib : Library) (content : GalleryContent) {key s : String}
    (hkey : isSensitiveKey key = false) (hredacted : redactText lib.words s = s)
    (hget : get? (contentSnapshot lib content) key = some (.text s)) :
    JsonValue.get (storedFields lib.words (contentSnapshot lib content)) key = .text s := by
  rw [get_snapshot lib content hkey hget, sortKeys, redactValue, hredacted]
  · exact fun vs hvs => by cases hvs
  · exact fun fs hfs => by cases hfs

def restoring (lib : Library) (content : GalleryContent) : GalleryUpdate where
  name := some content.name
  description := some content.description
  instructions := some content.instructions
  enabled := some content.enabled
  definition := design? lib content

theorem restoring_revision (h : Stored lib content) {revision : TemplateGalleryRevision}
    (hrevision : revision.definitionJson = templateGalleryDefinitionJson lib content) :
    restoringUpdate lib (galleryRevisionFromRow lib.format revision).definitionJson =
      restoring lib content := by
  have hread :
      jsonObject lib.floats.repr (galleryRevisionFromRow lib.format revision).definitionJson =
      storedFields lib.words (contentSnapshot lib content) := by
    rw [← jsonObject_stored lib.floats (exact_snapshot h), galleryRevisionFromRow, hrevision,
      templateGalleryDefinitionJson, format_redactRevisionJson]
  have hname := get_snapshot_text lib content (plain_snapshot "name" (by decide))
    h.name.redacted rfl
  have hdescription := get_snapshot_text lib content (plain_snapshot "description" (by decide))
    h.description.redacted rfl
  have hinstructions := get_snapshot_text lib content (plain_snapshot "instructions" (by decide))
    h.instructions.redacted rfl
  have henabled : JsonValue.get (storedFields lib.words (contentSnapshot lib content)) "enabled" =
      .bool content.enabled :=
    get_snapshot lib content (plain_snapshot "enabled" (by decide)) rfl
  have hdefinition :
      JsonValue.get (storedFields lib.words (contentSnapshot lib content)) "definition" =
      .object (designFields lib content) := by
    refine (get_snapshot lib content (plain_snapshot "definition" (by decide)) rfl).trans ?_
    exact (redactValue_sortKeys_object _).trans (congrArg JsonValue.object (storedFields_fields h))
  rw [restoringUpdate, hread, hname, hdescription, hinstructions,
    henabled, hdefinition, safeWorkflowDefinition_fields h]
  rfl

end Snapshot

/-! ### Updates -/

/-- An update gives an entry the content that it says. -/
theorem stored_next {update : GalleryUpdate} {existing : TemplateGalleryEntry}
    {next : GalleryContent} (hexisting : Stored lib existing.content)
    (hexact : Exact lib update.definition) (h : update.next lib.format existing = .ok next) :
    Stored lib next := by
  have htext : ∀ {value : Option String} {existing field text : String} {limit : ℕ}
      {allowEmpty : Bool}, IsGalleryText lib limit allowEmpty existing →
      nextText lib.format.redactText value existing field limit allowEmpty = .ok text →
        IsGalleryText lib limit allowEmpty text := by
    intro value existing field text limit allowEmpty hexisting hnext
    cases value with
    | none =>
        cases hnext
        exact hexisting
    | some value => exact galleryText_eq_ok hnext
  simp only [Shelves.GalleryUpdate.next, bind_eq_ok, pure_eq_ok] at h
  obtain ⟨name, hname, description, hdescription, instructions, hinstructions, definition,
    hdefinition, rfl⟩ := h
  refine ⟨htext hexisting.name hname, htext hexisting.description hdescription,
    htext hexisting.instructions hinstructions, ?_⟩
  cases hgiven : update.definition with
  | none =>
      rw [hgiven] at hdefinition
      cases hdefinition
      exact hexisting.definition
  | some fields =>
      rw [hgiven] at hdefinition hexact
      exact workflowDefinitionJson_eq_ok hexact hdefinition

theorem exact_design? {content : GalleryContent} (h : Stored lib content) :
    Exact lib (design? lib content) := by
  intro fields hfields
  rw [design?] at hfields
  split at hfields
  · cases hfields
  · cases hfields
    exact exact_fields h

/-- What a restored content becomes, once its design is read again. -/
theorem next_restoring {content : GalleryContent} (h : Stored lib content)
    (existing : TemplateGalleryEntry) : (restoring lib content).next lib.format existing =
      (nextDefinition lib.format (design? lib content) existing.definitionJson).map
        fun definitionJson => { content with definitionJson } := by
  simp only [restoring, Shelves.GalleryUpdate.next, nextText,
    galleryText_of_isGalleryText h.name, galleryText_of_isGalleryText h.description,
    galleryText_of_isGalleryText h.instructions, ok_bind, Option.getD_some]
  rfl

/-- The condition under which a content is restored: without a design, that the entry has none
today; else that redaction left the design intact. -/
def Restorable (lib : Library) (current content : GalleryContent) : Prop :=
  if content.definitionJson = noDesign then current.definitionJson = noDesign
  else isIntactDesign (jsonObject lib.floats.repr content.definitionJson) = true

theorem workflowDefinitionJson_stored_iff {text text' : String}
    (h : IsDesignText lib design text) :
    workflowDefinitionJson lib (some (jsonObject lib.floats.repr text)) = .ok text' ↔
      isIntactDesign (jsonObject lib.floats.repr text) = true ∧ text' = text := by
  rw [h.jsonObject, isIntactDesign_stored_iff h.accepted, workflowDefinitionJson]
  constructor
  · intro hread
    split at hread
    · next design' hdesign =>
        have hintact := intact_of_normalize_stored h.accepted hdesign
        cases (normalize_stored h.accepted hintact).symm.trans hdesign
        cases hread
        exact ⟨hintact, (jsonDumpsValue_ordered lib.toLibrary design).trans h.text.symm⟩
    · cases hread
  · rintro ⟨hintact, rfl⟩
    rw [normalize_stored h.accepted hintact]
    exact congrArg Except.ok ((jsonDumpsValue_ordered lib.toLibrary design).trans h.text.symm)

/-- A stored content is what the entry becomes exactly when it is restorable. -/
theorem next_restoring_iff {content : GalleryContent} (h : Stored lib content)
    (existing : TemplateGalleryEntry) :
    (restoring lib content).next lib.format existing = .ok content ↔
      Restorable lib existing.content content := by
  rw [next_restoring h, map_eq_ok, design?, Restorable]
  have hsame : ∀ text, ({ content with definitionJson := text } : GalleryContent) = content ↔
      text = content.definitionJson := by
    intro text
    exact ⟨fun heq => congrArg Shelves.GalleryContent.definitionJson heq, fun heq => by rw [heq]⟩
  simp only [hsame]
  rcases h.definition with hnone | ⟨design, hdesign⟩
  · rw [if_pos hnone, if_pos hnone, nextDefinition, hnone]
    simp [Shelves.TemplateGalleryEntry.content]
  · rw [if_neg hdesign.ne_noDesign, if_neg hdesign.ne_noDesign]
    simp [nextDefinition, designFields, format_workflowDefinitionJson,
      workflowDefinitionJson_stored_iff hdesign]

/-! ### Calls -/

variable {id : String}

section Calls

variable {s : Gallery} {α β : Type}

theorem exec_getTemplateGalleryEntry {scope : ScopeArgument} {admits : Option ClientId → Bool}
    (hscope : scope.admits = .ok admits) (id : String) (s : Gallery) :
    (galleryKind lib.format).exec (getTemplateGalleryEntry id scope) s =
      (.ok ((s.selectEntry id admits).map (galleryEntryFromRow lib.format)), s) := by
  rw [getTemplateGalleryEntry, hscope, exec_bind]
  exact exec_readEntry id admits s

theorem exec_get_of_admits {scope : ScopeArgument}
    {admits : Option ClientId → Bool} (he : s.entries.find? id = some e)
    (hscope : scope.admits = .ok admits) (hadmits : admits e.clientId = true) :
    (galleryKind lib.format).exec (getTemplateGalleryEntry id scope) s =
      (.ok (some (galleryEntryFromRow lib.format e)), s) := by
  rw [exec_getTemplateGalleryEntry hscope, selectEntry_of_admits he hadmits]
  rfl

theorem exec_readBack (he : s.entries.find? id = some e) :
    (galleryKind lib.format).exec (readBack id e.clientId) s =
      (.ok (galleryEntryFromRow lib.format e), s) := by
  obtain ⟨admits, hscope, hadmits⟩ := ofClient_admits e.clientId
  rw [readBack, exec_bind, exec_get_of_admits he hscope hadmits]
  rfl

end Calls

/-! ### Histories -/

abbrev Keeps (lib : Library) : TemplateGalleryEntry → TemplateGalleryRevision → Prop :=
  GalleryRecords lib.format

abbrev versions (lib : Library) := shelfVersions columns (Keeps lib)

/-- What holds of a gallery between two calls. -/
structure Kept (lib : Library) (s : Gallery) : Prop where
  linear : (versions lib).Linear s
  entries : ∀ id e, s.entries.find? id = some e → Stored lib e.content
  revisions : ∀ id v r, s.selectRevision id v = some r →
    ∃ e : TemplateGalleryEntry, Stored lib e.content ∧ Keeps lib e r

/-- A call writes a stored content as the next version of its entry, or it writes nothing. -/
inductive Moves (lib : Library) (s : Gallery) : Gallery → Prop
  | stays : Moves lib s s
  | creates {id : String} {e : TemplateGalleryEntry} {r : TemplateGalleryRevision} {s' : Gallery}
      (hstored : Stored lib e.content) (hw : (versions lib).Writes id e r s s')
      (hnew : s.entries.find? id = none) (hfirst : e.version = 1) : Moves lib s s'
  | updates {id : String} {d e : TemplateGalleryEntry} {r : TemplateGalleryRevision} {s' : Gallery}
      (hstored : Stored lib e.content) (hw : (versions lib).Writes id e r s s')
      (hd : s.entries.find? id = some d) (hnext : e.version = d.version + 1) : Moves lib s s'

section Histories

variable {s s' : Gallery}

/-- The transaction that updates an entry as it stands cannot fail. -/
theorem update_writes (hs : Kept lib s) {d : TemplateGalleryEntry}
    (hd : s.entries.find? id = some d) (next : GalleryContent) (now : String) :
    ∃ s', commitGallery lib.format (.update id (galleryEntryFromRow lib.format d) next now) s =
      .ok s' ∧
      ∃ r, (versions lib).Writes id (next.assign (d.version + 1) now d) r s s' := by
  have hid : d.id = id := Table.key_of_find?_eq_some hd
  have hrow : s.entries.rowcount (fun e => columns.id e == id) = 1 := by
    refine le_antisymm (Table.rowcount_le_one fun e he => beq_iff_eq.mp he) ?_
    exact Table.rowcount_pos.mpr ⟨d, Table.mem_of_find?_eq_some hd, beq_iff_eq.mpr hid⟩
  have hfree : s.selectRevision id (d.version + 1) = none := by
    rw [← Option.not_isSome_iff_eq_none]
    intro hsome
    obtain ⟨e, he, -, hle⟩ := (hs.linear.versions id (d.version + 1)).mp hsome
    cases hd.symm.trans he
    exact absurd hle (Nat.not_succ_le_self d.version)
  have hcommit : ∃ s', commitGallery lib.format
      (.update id (galleryEntryFromRow lib.format d) next now) s = .ok s' := by
    simp only [commitGallery, Shelves.Shelf.updateEntry, Shelves.Shelf.insertRevision, bind_eq_ok,
      raiseIf_eq_ok, pure_eq_ok]
    refine ⟨_, (), not_not.mpr hrow, (), ?_, rfl⟩
    rw [Option.not_isSome_iff_eq_none]
    exact hfree
  obtain ⟨s', hs'⟩ := hcommit
  exact ⟨s', hs', galleryUpdate_writes hs' hd⟩

theorem kept_of_writes {r : TemplateGalleryRevision}
    (h : Kept lib s) (hstored : Stored lib e.content) (hw : (versions lib).Writes id e r s s')
    (hlinear : (versions lib).Linear s') : Kept lib s' := by
  refine ⟨hlinear, fun j x hx => ?_, fun j v q hq => ?_⟩
  · have hentry := hw.entry j
    split at hentry
    · cases hentry.symm.trans hx
      exact hstored
    · exact h.entries j x (hentry.symm.trans hx)
  · have hrevision := hw.revision j v
    split at hrevision
    · cases hrevision.symm.trans hq
      exact ⟨e, hstored, hw.records⟩
    · exact h.revisions j v q (hrevision.symm.trans hq)

theorem Moves.kept (h : Moves lib s s') (hs : Kept lib s) : Kept lib s' := by
  cases h with
  | stays => exact hs
  | creates hstored hw hnew hfirst =>
      exact kept_of_writes hs hstored hw (hs.linear.insert hw hnew hfirst)
  | updates hstored hw hd hnext =>
      exact kept_of_writes hs hstored hw
        (hs.linear.update hw (hs.linear.current _ _ hd).isSome hnext)

theorem Moves.recorded (h : Moves lib s s')
    (he : (versions lib).Recorded s id e) : (versions lib).Recorded s' id e := by
  cases h with
  | stays => exact he
  | creates _ hw _ _ => exact hw.recorded he
  | updates _ hw _ _ => exact hw.recorded he

/-- A revision that was not there before is that of an entry that is there now. -/
theorem Moves.revision (h : Moves lib s s') {v : ℕ}
    (hv : (s'.selectRevision id v).isSome) :
    (s.selectRevision id v).isSome ∨ ∃ e, s'.entries.find? id = some e ∧ e.version = v := by
  have hwrites : ∀ {j : String} {e : TemplateGalleryEntry} {r : TemplateGalleryRevision},
      (versions lib).Writes j e r s s' →
        (s.selectRevision id v).isSome ∨ ∃ e, s'.entries.find? id = some e ∧ e.version = v := by
    intro j e r hw
    have hrevision := hw.revision id v
    split at hrevision
    · next hkey =>
        obtain ⟨rfl, rfl⟩ := hkey
        exact .inr ⟨e, hw.entry_self, rfl⟩
    · refine .inl ?_
      have hsame : s'.selectRevision id v = s.selectRevision id v := hrevision
      rwa [← hsame]
  cases h with
  | stays => exact .inl hv
  | creates _ hw _ _ => exact hwrites hw
  | updates _ hw _ _ => exact hwrites hw

theorem exec_updateExisting_of_error {existing : TemplateGalleryEntry}
    {update : GalleryUpdate} {error : ShelfError}
    (h : update.next lib.format existing = .error error)
    (now : String) (s : Gallery) :
    (galleryKind lib.format).exec (updateExisting lib.format id existing update now) s =
      (.error error, s) := by
  rw [updateExisting, exec_bind, exec_ofExcept, h]

/-- An update of an entry as it stands returns it with its next content. -/
theorem exec_updateExisting_of_ok (hs : Kept lib s) {d : TemplateGalleryEntry}
    (hd : s.entries.find? id = some d) {update : GalleryUpdate}
    (hexact : Exact lib update.definition) {next : GalleryContent}
    (h : update.next lib.format (galleryEntryFromRow lib.format d) = .ok next) (now : String) :
    ∃ result s', (galleryKind lib.format).exec
      (updateExisting lib.format id (galleryEntryFromRow lib.format d) update now) s =
      (.ok result, s') ∧ result.content = next ∧ Moves lib s s' := by
  have hread := content_entryFromRow (hs.entries id d hd)
  have hnext : Stored lib next := stored_next (hread.symm ▸ hs.entries id d hd) hexact h
  rw [updateExisting, exec_bind, exec_ofExcept, h]
  dsimp only
  split
  · next hsame => exact ⟨_, s, rfl, hsame.symm, .stays⟩
  · obtain ⟨s', hcommit, r, hw⟩ := update_writes hs hd next now
    have hrow : s'.entries.find? id = some (next.assign (d.version + 1) now d) := hw.entry_self
    have hback :
        (galleryKind lib.format).exec (readBack id (galleryEntryFromRow lib.format d).clientId) s' =
        (.ok (galleryEntryFromRow lib.format (next.assign (d.version + 1) now d)), s') :=
          exec_readBack hrow
    have hcontent : (galleryEntryFromRow lib.format (next.assign (d.version + 1) now d)).content =
        next :=
      @content_entryFromRow lib (next.assign (d.version + 1) now d) hnext
    rw [exec_bind, exec_writeEntry_of_ok hcommit]
    exact ⟨_, s', hback, hcontent,
      .updates (e := next.assign (d.version + 1) now d) hnext hw hd rfl⟩

theorem moves_updateTemplateGalleryEntry (hs : Kept lib s) (id : String) {update : GalleryUpdate}
    (hexact : Exact lib update.definition) (clientId : Option String) (now : String) :
    Moves lib s
      ((galleryKind lib.format).exec
        (updateTemplateGalleryEntry lib.format id update clientId now) s).2 := by
  rw [updateTemplateGalleryEntry, exec_bind]
  cases hscope : (ScopeArgument.ofText clientId).admits with
  | error message =>
      rw [getTemplateGalleryEntry, hscope]
      exact .stays
  | ok admits =>
      rw [exec_getTemplateGalleryEntry hscope]
      cases hselect : s.selectEntry id admits with
      | none => exact .stays
      | some d =>
          rw [Option.map_some]
          dsimp only
          have hd := selectEntry_eq_some hselect
          cases hnext : update.next lib.format (galleryEntryFromRow lib.format d) with
          | error error =>
              rw [exec_updateExisting_of_error hnext]
              exact .stays
          | ok next =>
              obtain ⟨result, s', hexec, -, hmoves⟩ :=
                exec_updateExisting_of_ok hs hd hexact hnext now
              rw [hexec]
              exact hmoves

theorem moves_createTemplateGalleryEntry {request : Shelves.GalleryRequest Fields}
    (hexact : Exact lib request.definition) (id now : String) (s : Gallery) :
    Moves lib s ((galleryKind lib.format).exec
      (createTemplateGalleryEntry lib.format request id now) s).2 := by
  rw [createTemplateGalleryEntry, exec_bind, exec_ofExcept]
  cases hentry : request.entry lib.format id now with
  | error error => exact .stays
  | ok entry =>
      dsimp only
      rw [exec_bind]
      cases hcommit : commitGallery lib.format (.create entry) s with
      | error error =>
          rw [exec_writeEntry_of_error hcommit]
          exact .stays
      | ok s' =>
          obtain ⟨hnew, r, hw⟩ := galleryCreate_writes hcommit
          have hrow : s'.entries.find? entry.id = some { entry with version := 1 } := hw.entry_self
          have hback := @exec_readBack lib _ _ _ hrow
          rw [exec_writeEntry_of_ok hcommit]
          dsimp only at hback ⊢
          rw [hback]
          refine .creates ?_ hw hnew rfl
          simp only [Shelves.GalleryRequest.entry, bind_eq_ok, pure_eq_ok] at hentry
          obtain ⟨name, hname, description, hdescription, instructions, hinstructions, provenance,
            -, definition, hdefinition, rfl⟩ := hentry
          exact ⟨galleryText_eq_ok hname, galleryText_eq_ok hdescription,
            galleryText_eq_ok hinstructions, workflowDefinitionJson_eq_ok hexact hdefinition⟩

/-- A restore, of an entry that it may read: the update by what the revision keeps. -/
theorem exec_restore {d e : TemplateGalleryEntry}
    (hd : s.entries.find? id = some d) {scope : ScopeArgument} {admits : Option ClientId → Bool}
    (hscope : scope.admits = .ok admits) (hadmits : admits d.clientId = true)
    {revision : TemplateGalleryRevision} {v : ℕ} (hrevision : s.selectRevision id v = some revision)
    (he : Stored lib e.content) (hkeeps : Keeps lib e revision) (now : String) :
    (galleryKind lib.format).exec (restoreTemplateGalleryRevision lib.format id v scope now) s =
      (galleryKind lib.format).exec
        (updateExisting lib.format id (galleryEntryFromRow lib.format d)
          (restoring lib e.content) now) s := by
  obtain ⟨admits', hscope', hadmits'⟩ := ofClient_admits d.clientId
  have hscope'' : (ScopeArgument.ofText (d.clientId.map Subtype.val)).admits = .ok admits' := by
    rw [← hscope']
    cases d.clientId <;> rfl
  have hclient : (galleryEntryFromRow lib.format d).clientId = d.clientId := rfl
  rw [restoreTemplateGalleryRevision, exec_bind, exec_get_of_admits hd hscope hadmits]
  dsimp only
  rw [exec_bind, getTemplateGalleryRevision, hclient, exec_bind,
    exec_get_of_admits hd hscope' hadmits']
  dsimp only
  rw [exec_readRevision, hrevision, Option.map_some]
  dsimp only
  have hrestoring :
      lib.format.restoring ((galleryKind lib.format).revisionFromRow revision).definitionJson =
        restoring lib e.content := restoring_revision he hkeeps
  rw [hrestoring, updateTemplateGalleryEntry, exec_bind,
    exec_get_of_admits hd hscope'' hadmits']

/-- A restore that reads no revision of an entry of its scope raises. -/
theorem moves_restore (hs : Kept lib s) (id : String) (v : ℕ) (scope : ScopeArgument)
    (now : String) :
    Moves lib s
      ((galleryKind lib.format).exec
        (restoreTemplateGalleryRevision lib.format id v scope now) s).2 := by
  cases hscope : scope.admits with
  | error message =>
      rw [restoreTemplateGalleryRevision, getTemplateGalleryEntry, hscope]
      exact .stays
  | ok admits =>
      cases hselect : s.selectEntry id admits with
      | none =>
          rw [restoreTemplateGalleryRevision, exec_bind, exec_getTemplateGalleryEntry hscope,
            hselect]
          exact .stays
      | some d =>
          have hd := selectEntry_eq_some hselect
          have hadmits : admits (columns.clientId d) = true := by
            rw [Shelves.Shelf.selectEntry, hd] at hselect
            simpa using hselect
          cases hrevision : s.selectRevision id v with
          | none =>
              obtain ⟨admits', hscope', hadmits'⟩ := ofClient_admits d.clientId
              have hclient : (galleryEntryFromRow lib.format d).clientId = d.clientId := rfl
              rw [restoreTemplateGalleryRevision, exec_bind, exec_get_of_admits hd hscope hadmits]
              dsimp only
              rw [exec_bind, getTemplateGalleryRevision, hclient, exec_bind,
                exec_get_of_admits hd hscope' hadmits']
              dsimp only
              rw [exec_readRevision, hrevision]
              exact .stays
          | some revision =>
              obtain ⟨e, he, hkeeps⟩ := hs.revisions id v revision hrevision
              rw [exec_restore hd hscope hadmits hrevision he hkeeps]
              cases hnext :
                  (restoring lib e.content).next lib.format (galleryEntryFromRow lib.format d) with
              | error error =>
                  rw [exec_updateExisting_of_error hnext]
                  exact .stays
              | ok next =>
                  obtain ⟨result, s', hexec, -, hmoves⟩ :=
                    exec_updateExisting_of_ok hs hd (exact_design? he) hnext now
                  rw [hexec]
                  exact hmoves

theorem moves_step (hs : Kept lib s) (operation : GalleryOperation lib) :
    Moves lib s ((galleryKind lib.format).exec (operation.1.program lib.format) s).2 := by
  obtain ⟨operation, hexact⟩ := operation
  cases operation with
  | create request id now =>
      rw [Shelves.GalleryOperation.program]
      exact moves_createTemplateGalleryEntry hexact id now s
  | update id changes clientId now =>
      rw [Shelves.GalleryOperation.program]
      exact moves_updateTemplateGalleryEntry hs id hexact clientId now
  | restore id version scope now =>
      rw [Shelves.GalleryOperation.program]
      exact moves_restore hs id version scope now

theorem kept_empty (lib : Library) : Kept lib .empty where
  linear := .of_empty (fun _ => rfl) fun _ _ => rfl
  entries _ _ h := by cases h
  revisions _ _ _ h := by cases h

theorem kept_run (calls : List (GalleryOperation lib)) : Kept lib ((gallery lib).run calls) :=
  Machine.run_invariant (I := Kept lib) (kept_empty lib)
    (fun _ operation hs => (moves_step hs operation).kept hs) calls

theorem recorded_run
    {before calls : List (GalleryOperation lib)} (hbefore : before <+: calls)
    (he : ((gallery lib).run before).entries.find? id = some e) :
    (versions lib).Recorded ((gallery lib).run calls) id e := by
  obtain ⟨after, rfl⟩ := hbefore
  induction after using List.reverseRecOn with
  | nil =>
      rw [List.append_nil]
      exact (kept_run before).linear.current id e he
  | append_singleton after operation ih =>
      rw [← List.append_assoc, Machine.run_concat]
      exact (moves_step (kept_run _) operation).recorded ih

/-- Every revision is that of an entry as it was at some time. -/
theorem exists_of_revision {v : ℕ} {calls : List (GalleryOperation lib)}
    (h : (((gallery lib).run calls).selectRevision id v).isSome) :
    ∃ before, before <+: calls ∧
      ∃ e, ((gallery lib).run before).entries.find? id = some e ∧ e.version = v := by
  induction calls using List.reverseRecOn with
  | nil => cases h
  | append_singleton calls operation ih =>
      rw [Machine.run_concat] at h
      rcases (moves_step (kept_run calls) operation).revision h with hold | ⟨e, he, hversion⟩
      · obtain ⟨before, hbefore, hentry⟩ := ih hold
        exact ⟨before, hbefore.trans (List.prefix_append _ _), hentry⟩
      · refine ⟨_, List.prefix_refl _, e, ?_, hversion⟩
        rw [Machine.run_concat]
        exact he

end Histories

/-! ### Restores -/

/-- The entry was read as `e` at some time. -/
def Had (calls : List (GalleryOperation lib)) (id : String) (e : TemplateGalleryEntry) : Prop :=
  ∃ before, before <+: calls ∧ entryAfter before id = some e

/-- Restoring the version of `e` returns an entry with the content of `e`. -/
def Restores (calls : List (GalleryOperation lib)) (id : String) (e : TemplateGalleryEntry)
    (scope : ScopeArgument) (now : String) : Prop :=
  ∃ result, ((galleryKind lib.format).exec
    (restoreTemplateGalleryRevision lib.format id e.version scope now)
    ((gallery lib).run calls)).1 = .ok result ∧ result.content = e.content

theorem exists_row_of_entryAfter {calls : List (GalleryOperation lib)}
    (h : entryAfter calls id = some e) :
    ∃ row, ((gallery lib).run calls).entries.find? id = some row ∧
      e = galleryEntryFromRow lib.format row ∧
      e.content = row.content ∧ Stored lib row.content := by
  obtain ⟨row, hrow, rfl⟩ := Option.map_eq_some_iff.mp h
  have hstored := (kept_run calls).entries id row hrow
  exact ⟨row, hrow, rfl, content_entryFromRow hstored, hstored⟩

theorem restores_iff {calls : List (GalleryOperation lib)}
    {e current : TemplateGalleryEntry} (he : Had calls id e)
    (hcurrent : entryAfter calls id = some current) {scope : ScopeArgument}
    {admits : Option ClientId → Bool} (hscope : scope.admits = .ok admits)
    (hadmits : admits current.clientId = true) (now : String) :
    Restores calls id e scope now ↔ Restorable lib current.content e.content := by
  obtain ⟨before, hbefore, he⟩ := he
  obtain ⟨row, hrow, rfl, hcontent, hstored⟩ := exists_row_of_entryAfter he
  obtain ⟨d, hd, rfl, -, -⟩ := exists_row_of_entryAfter hcurrent
  obtain ⟨revision, hrevision, hkeeps⟩ := recorded_run hbefore hrow
  have hrevision : ((gallery lib).run calls).selectRevision id
      (galleryEntryFromRow lib.format row).version =
      some revision := hrevision
  have hs := kept_run calls
  rw [Restores, hcontent, ← next_restoring_iff hstored,
    exec_restore hd hscope hadmits hrevision hstored hkeeps]
  constructor
  · rintro ⟨result, hresult, hsame⟩
    cases hnext : (restoring lib row.content).next lib.format
        (galleryEntryFromRow lib.format d) with
    | error error =>
        rw [exec_updateExisting_of_error hnext] at hresult
        cases hresult
    | ok next =>
        obtain ⟨result', s', hexec, hresult', -⟩ :=
          exec_updateExisting_of_ok hs hd (exact_design? hstored) hnext now
        rw [hexec] at hresult
        cases hresult
        rw [← hsame, hresult']
  · intro hnext
    obtain ⟨result, s', hexec, hresult, -⟩ :=
      exec_updateExisting_of_ok hs hd (exact_design? hstored) hnext now
    exact ⟨result, by rw [hexec], hresult⟩

/-- Every stored version is one that the entry had, and it is restored exactly when it is
restorable. -/
theorem restores_iff_restorable {calls : List (GalleryOperation lib)} {id : String} {v : ℕ}
    (hstored : (((gallery lib).run calls).selectRevision id v).isSome) :
    ∃ current, entryAfter calls id = some current ∧ (∃ e, Had calls id e ∧ e.version = v) ∧
      ∀ e, Had calls id e → e.version = v → ∀ scope admits now, scope.admits = .ok admits →
        admits current.clientId = true →
          (Restores calls id e scope now ↔ Restorable lib current.content e.content) := by
  obtain ⟨before, hbefore, row, hrow, hversion⟩ := exists_of_revision hstored
  obtain ⟨d, hd, -⟩ := ((kept_run calls).linear.versions id v).mp hstored
  have hcurrent : entryAfter calls id = some (galleryEntryFromRow lib.format d) :=
    congrArg (Option.map _) hd
  have hthen : entryAfter before id = some (galleryEntryFromRow lib.format row) :=
    congrArg (Option.map _) hrow
  refine ⟨_, hcurrent, ⟨_, ⟨before, hbefore, hthen⟩, hversion⟩, ?_⟩
  intro e he _ scope admits now hscope hadmits
  exact restores_iff he hcurrent hscope hadmits now

section Example

def galleryLibrary : Library where
  toLibrary := exampleLibrary
  floats := .verbatim

def triageTemplate : Shelves.WorkflowTemplate where
  id := "ticket-triage"
  name := "Triage"
  trigger := "ticket.created"
  description := "Sorts new tickets"
  actionType := "triage"
  approvalRequired := true

def addTriage : GalleryOperation galleryLibrary :=
  ⟨.create { template := triageTemplate, provenance := "catalog" } "g1" "t0", fun _ h => by cases h⟩

def examplePayloadFields : Fields :=
  match examplePayload with
  | .object fields => fields
  | _ => []

def designTriage : GalleryOperation galleryLibrary :=
  ⟨.update "g1" { definition := some examplePayloadFields } none "t1",
    fun _ h => by cases h; decide⟩

def renameTriage : GalleryOperation galleryLibrary :=
  ⟨.update "g1" { name := some "Sorting" } none "t1", fun _ h => by cases h⟩

theorem restores_triage : ∃ e, Had [addTriage, renameTriage] "g1" e ∧ e.name = "Triage" ∧
    Restores [addTriage, renameTriage] "g1" e .allClients "t2" := by
  have hfirst : ((entryAfter [addTriage] "g1").any fun e =>
      e.version == 1 && e.name == "Triage" && e.definitionJson == noDesign) = true := by
    decide
  have hlast : ((entryAfter [addTriage, renameTriage] "g1").all fun e =>
      e.definitionJson == noDesign) = true := by decide
  obtain ⟨e, he, hprops⟩ := Option.any_eq_true _ _ |>.mp hfirst
  simp only [Bool.and_eq_true, beq_iff_eq] at hprops
  have hhad : Had [addTriage, renameTriage] "g1" e := ⟨[addTriage], ⟨[renameTriage], rfl⟩, he⟩
  obtain ⟨current, hcurrent, -, hall⟩ :=
    @restores_iff_restorable galleryLibrary [addTriage, renameTriage] "g1" 1 (by decide)
  refine ⟨e, hhad, hprops.1.2, (hall e hhad hprops.1.1 .allClients _ "t2" rfl rfl).mpr ?_⟩
  rw [hcurrent] at hlast
  have hcontent : e.content.definitionJson = noDesign := hprops.2
  rw [Restorable, if_pos hcontent]
  simpa [Shelves.TemplateGalleryEntry.content] using hlast

/-- The version without a design is not restored once the entry has one. -/
theorem not_restores : ¬ ∀ (lib : Library) (calls : List (GalleryOperation lib)) (id : String)
    (e current : TemplateGalleryEntry) (scope : ScopeArgument) (admits : Option ClientId → Bool)
    (now : String), Had calls id e → entryAfter calls id = some current →
      scope.admits = .ok admits → admits current.clientId = true →
        Restores calls id e scope now := by
  intro h
  have hfirst : ((entryAfter [addTriage] "g1").any fun e =>
      e.definitionJson == noDesign) = true := by decide
  have hlast : ((((gallery galleryLibrary).run [addTriage, designTriage]).entries.find? "g1").any
      fun e => e.definitionJson != noDesign) = true := by decide +kernel
  obtain ⟨e, he, hnone⟩ := Option.any_eq_true _ _ |>.mp hfirst
  obtain ⟨row, hrow, hdesign⟩ := Option.any_eq_true _ _ |>.mp hlast
  have hcurrent : entryAfter [addTriage, designTriage] "g1" =
      some (galleryEntryFromRow galleryLibrary.format row) := congrArg (Option.map _) hrow
  have hhad : Had [addTriage, designTriage] "g1" e := ⟨[addTriage], ⟨[designTriage], rfl⟩, he⟩
  have hrestores := h _ _ _ e _ .allClients _ "t2" hhad hcurrent rfl rfl
  rw [restores_iff hhad hcurrent rfl rfl, Restorable,
    if_pos (by simpa [Shelves.TemplateGalleryEntry.content] using hnone)] at hrestores
  rw [content_entryFromRow ((kept_run _).entries _ row hrow)] at hrestores
  have hnone : row.definitionJson = noDesign := hrestores
  simp [hnone] at hdesign

end Example

end WaitLocalAgent.TemplateDesigns
