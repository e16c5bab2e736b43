import WaitLocalAgent.Verification.Playbooks.RoundTrip
import WaitLocalAgent.Verification.Workflows.Restored

/-! # Authored playbooks

An entry keeps the playbook that the last call accepted for it, and resolves to it. -/

namespace WaitLocalAgent.PlaybookDefinitions

open Foundation Redaction
open Shelves (ShelfError exec_bind exec_ofExcept exec_readEntry exec_writeEntry_of_ok
  exec_writeEntry_of_error playbookCreate_writes playbookUpdate_writes selectEntry_eq_some
  selectEntry_of_admits PlaybookRequest PlaybookUpdate galleryText nextText getMspPlaybookEntry
  readBackPlaybook createMspPlaybookEntry updateExistingPlaybook updateMspPlaybookEntry
  playbookEntryFromRow commitPlaybook)
open WorkflowDesigner (isIdentifierStart isIdentifierChar isNodeId)
open Playbooks (MspPlaybookDefinition getMspPlaybook mspPlaybooks)

variable {lib : Library} {s s' : Playbooks}

/-! ### Ids of entries -/

theorem isIdentifierChar_spec {c : Char} (h : isIdentifierChar c = true) :
    c ≠ 'A' ∧ isValue c = true ∧ Text.isSpace c = false := by
  have hrange : 'a' ≤ c ∧ c ≤ 'z' ∨ '0' ≤ c ∧ c ≤ '9' ∨ c = '_' ∨ c = '.' ∨ c = ':' ∨ c = '-' := by
    simp only [isIdentifierChar, isIdentifierStart, Bool.or_eq_true, Bool.and_eq_true,
      decide_eq_true_eq, beq_iff_eq] at h
    tauto
  have hspace : Text.isSpace c = false := by
    have hcode : (97 ≤ c.toNat ∧ c.toNat ≤ 122) ∨ (45 ≤ c.toNat ∧ c.toNat ≤ 95) := by
      rcases hrange with ⟨hlow, hhigh⟩ | ⟨hlow, hhigh⟩ | rfl | rfl | rfl | rfl
      · exact .inl ⟨hlow, hhigh⟩
      · have hlow : 48 ≤ c.toNat := hlow
        have hhigh : c.toNat ≤ 57 := hhigh
        omega
      all_goals decide
    simp only [Text.isSpace, Bool.or_eq_false_iff, Bool.and_eq_false_iff, decide_eq_false_iff_not,
      beq_eq_false_iff_ne]
    omega
  have hcomma : c ≠ ',' ∧ c ≠ ';' ∧ c ≠ 'A' := by
    refine ⟨?_, ?_, ?_⟩
    all_goals
      intro heq
      subst heq
      revert h
      decide
  exact ⟨hcomma.2.2, by simp [isValue, hspace, hcomma.1, hcomma.2.1], hspace⟩

theorem EntryId.chars (id : EntryId) : ∀ c ∈ id.text.toList, isIdentifierChar c = true := by
  cases id with
  | published hex =>
      have hprefix : ∀ c ∈ "msp-playbook-".toList, isIdentifierChar c = true := by decide
      intro c hc
      rw [text, String.toList_append, List.mem_append] at hc
      rcases hc with hc | hc
      · exact hprefix c hc
      · have hstart := List.all_eq_true.mp hex.2.2 c hc
        simp [isIdentifierChar, hstart]
  | architect blueprintId =>
      have hprefix : ∀ c ∈ "architect-".toList, isIdentifierChar c = true := by decide
      intro c hc
      rw [text, String.toList_append, List.mem_append] at hc
      rcases hc with hc | hc
      · exact hprefix c hc
      · exact WorkflowDesigner.isNodeId_chars blueprintId.2 c hc

theorem EntryId.length (id : EntryId) : id.text.length ≤ 74 := by
  cases id with
  | published hex =>
      rw [text, String.length_append, hex.2.1]
      decide
  | architect blueprintId =>
      have hlength := WorkflowDesigner.isNodeId_length blueprintId.2
      rw [text, String.length_append]
      change 10 + _ ≤ 74
      omega

theorem EntryId.text_ne_empty (id : EntryId) : id.text ≠ "" := by
  cases id <;> simp [text]

theorem boundedText_entryId (id : EntryId) :
    ∃ t, boundedText lib (.text id.text) "playbook_id" 120 = .ok t := by
  have hstrip : Text.strip id.text = id.text :=
    Text.strip_of_not_isSpace fun c hc => (isIdentifierChar_spec (id.chars c hc)).2.2
  have hlength : (redactText lib.words id.text).length ≤ id.text.length + redacted.length :=
    length_redactText_le (fun c hc => (isIdentifierChar_spec (id.chars c hc)).2.1)
      fun hA => (isIdentifierChar_spec (id.chars 'A' hA)).1 rfl
  have hbound := id.length
  have hredacted : redacted.length = 10 := rfl
  rw [boundedText, hstrip, raiseIf_of_not id.text_ne_empty, ok_bind]
  dsimp only
  rw [raiseIf_of_not (by omega)]
  exact ⟨_, rfl⟩

theorem getMspPlaybook_entryId (id : EntryId) : getMspPlaybook id.text = none := by
  have hcatalog : ∀ playbook ∈ mspPlaybooks, ¬ "msp-playbook-".toList <+: playbook.id.toList ∧
      ¬ "architect-".toList <+: playbook.id.toList := by
    decide
  rw [getMspPlaybook, List.find?_eq_none]
  intro playbook hplaybook heq
  have heq : playbook.id = id.text := of_decide_eq_true heq
  have hnot := hcatalog playbook hplaybook
  rw [heq] at hnot
  cases id with
  | published hex =>
      rw [EntryId.text, String.toList_append] at hnot
      exact hnot.1 (List.prefix_append _ _)
  | architect blueprintId =>
      rw [EntryId.text, String.toList_append] at hnot
      exact hnot.2 (List.prefix_append _ _)

/-! ### Kept playbooks -/

/-- An entry keeps a playbook, under an id and a version of the store. -/
def Keeps (lib : Library) (playbook : MspPlaybookDefinition) (row : MspPlaybookEntry) : Prop :=
  ∃ id version, IsPlaybook lib { playbook with id := id, version := version } ∧
    (playbookEntryFromRow lib.format row).definitionJson =
      viewJson lib { playbook with id := id, version := version }

/-- What is read of a kept playbook is the playbook itself. -/
theorem parse_of_keeps {playbook : MspPlaybookDefinition} {row : MspPlaybookEntry}
    (h : Keeps lib playbook row) {playbookId t : String}
    (hid : boundedText lib (.text playbookId) "playbook_id" 120 = .ok t) (version : ℕ) :
    ∃ fields, storedObject lib (playbookEntryFromRow lib.format row).definitionJson = .ok fields ∧
      parseMspPlaybookDefinition lib fields playbookId version =
        .ok { playbook with id := t, version := version } := by
  obtain ⟨id, version', hplaybook, htext⟩ := h
  have hexact := exact_playbookView lib { playbook with id := id, version := version' }
  have hread := storedObject_viewJson hplaybook
  rw [viewJson_eq hplaybook, redactJsonText_jsonDumpsValue lib.floats hexact,
    ← viewJson_eq hplaybook, ← htext] at hread
  exact ⟨_, hread, parse_stored hplaybook hid version⟩

theorem format_redactDefinitionJson (lib : Library) :
    lib.format.redactDefinitionJson = redactJsonText lib.words lib.floats.repr := rfl

theorem keeps_of_viewJson {playbook : MspPlaybookDefinition} {row : MspPlaybookEntry}
    (hplaybook : IsPlaybook lib playbook) (htext : row.definitionJson = viewJson lib playbook) :
    Keeps lib playbook row := by
  refine ⟨playbook.id, playbook.version, hplaybook, ?_⟩
  rw [playbookEntryFromRow, format_redactDefinitionJson, htext, viewJson_eq hplaybook,
    redactJsonText_jsonDumpsValue lib.floats (exact_playbookView lib playbook)]

theorem resolve_of_keeps {playbook : MspPlaybookDefinition} {row : MspPlaybookEntry}
    (hrow : s.entries.find? row.id.text = some row) (h : Keeps lib playbook row)
    (henabled : row.enabled = true) {clientId : Option String}
    (hscope : withinScope (normalizeClientId clientId) row.clientId = true) :
    ∃ id, resolveMspPlaybook lib s row.id.text clientId =
      .ok { playbook with id := id, version := row.version } := by
  obtain ⟨t, ht⟩ := boundedText_entryId row.id
  obtain ⟨fields, hfields, hparse⟩ := parse_of_keeps h ht row.version
  have hread : (playbookKind lib).read
      (.entry row.id.text (withinScope (normalizeClientId clientId))) s =
        some (playbookEntryFromRow lib.format row) := by
    rw [Shelves.ShelfKind.read, selectEntry_of_admits hrow hscope]
    rfl
  have henabled : (playbookEntryFromRow lib.format row).enabled = true := henabled
  refine ⟨t, ?_⟩
  rw [resolveMspPlaybook, hread]
  simp only [resolveEntry, getMspPlaybook_entryId]
  rw [raiseIf_of_not (not_not.mpr henabled), ok_bind, hfields, ok_bind]
  exact congrArg (Except.mapError ResolveError.raised) hparse

/-! ### Calls -/

/-- What a call can come to. -/
inductive Effect (lib : Library) (call : AuthoringCall) (s : Playbooks) :
    Except ShelfError MspPlaybookEntry → Playbooks → Prop
  | refused {error : ShelfError} : Effect lib call s (.error error) s
  | stays {row : MspPlaybookEntry} {playbook : MspPlaybookDefinition}
      (haccepted : call.accepted lib s = .ok playbook)
      (hrow : s.entries.find? call.entryId = some row)
      (htext : (playbookEntryFromRow lib.format row).definitionJson = viewJson lib playbook) :
      Effect lib call s (.ok (playbookEntryFromRow lib.format row)) s
  | creates {row : MspPlaybookEntry} {playbook : MspPlaybookDefinition} {s' : Playbooks}
      (haccepted : call.accepted lib s = .ok playbook)
      (hnew : s.entries.find? call.entryId = none)
      (hentries : ∀ j, s'.entries.find? j =
        if j = call.entryId then some row else s.entries.find? j)
      (htext : row.definitionJson = viewJson lib playbook) :
      Effect lib call s (.ok (playbookEntryFromRow lib.format row)) s'
  | rewrites {row : MspPlaybookEntry} {playbook : MspPlaybookDefinition} {s' : Playbooks}
      {id : String} {clientId : Option String} {definition : Option Fields}
      {provenance : Option String} {enabled : Option Bool} {now : String}
      (hcall : call = .update id clientId definition provenance enabled now)
      (haccepted : call.accepted lib s = .ok playbook)
      (hentries : ∀ j, s'.entries.find? j = if j = id then some row else s.entries.find? j)
      (htext : row.definitionJson = viewJson lib playbook) :
      Effect lib call s (.ok (playbookEntryFromRow lib.format row)) s'

theorem exec_getMspPlaybookEntry (id : String) (clientId : Option String) (s : Playbooks) :
    (playbookKind lib).exec (getMspPlaybookEntry id clientId) s =
      (.ok ((s.selectEntry id (withinScope (normalizeClientId clientId))).map
        (playbookEntryFromRow lib.format)),
        s) :=
  exec_readEntry id _ s

/-- An entry is read back within the scope of its own client. -/
theorem exec_readBack {id : String} {row : MspPlaybookEntry}
    (hrow : s.entries.find? id = some row) :
    (playbookKind lib).exec (readBackPlaybook id row.clientId) s =
      (.ok (playbookEntryFromRow lib.format row), s) := by
  have hadmits : withinScope (normalizeClientId (row.clientId.map Subtype.val)) row.clientId =
      true := by
    rw [normalizeClientId_map_val, withinScope_self]
  rw [readBackPlaybook, exec_bind, exec_getMspPlaybookEntry, selectEntry_of_admits hrow hadmits]
  rfl

theorem entries_of_create {row : MspPlaybookEntry}
    (h : commitPlaybook lib.format (.create row) s = .ok s') : s.entries.find? row.id.text = none ∧
      ∀ j, s'.entries.find? j =
        if j = row.id.text then some { row with version := 1 } else s.entries.find? j := by
  obtain ⟨hnew, _, hwrites⟩ := playbookCreate_writes h
  exact ⟨hnew, hwrites.entry⟩

theorem entries_of_update {id : String} {row existing : MspPlaybookEntry} {next : PlaybookContent}
    {now : String} (hrow : s.entries.find? id = some row)
    (h : commitPlaybook lib.format (.update id existing next now) s = .ok s') (j : String) :
    s'.entries.find? j =
      if j = id then some (next.assign (existing.version + 1) now row) else s.entries.find? j := by
  obtain ⟨_, hwrites⟩ := playbookUpdate_writes h hrow
  exact hwrites.entry j

theorem effect_of_publish {sourcePlaybookId provenance : String} {clientId : Option String}
    {definition : Option Fields} {enabled : Bool} {hex : UuidHex} {now : String} :
    let call := AuthoringCall.publish sourcePlaybookId provenance clientId definition enabled hex
      now
    Effect lib call s ((playbookKind lib).exec (call.program lib) s).1
      ((playbookKind lib).exec (call.program lib) s).2 := by
  intro call
  have hprogram : call.program lib = publishMspPlaybook lib sourcePlaybookId provenance clientId
    definition enabled hex now := rfl
  rw [hprogram, publishMspPlaybook, exec_bind, exec_ofExcept]
  cases hparsed : parsePublished lib sourcePlaybookId definition with
  | error error => exact .refused
  | ok playbook =>
      dsimp only
      rw [createMspPlaybookEntry, exec_bind, exec_ofExcept]
      cases hentry : PlaybookRequest.entry lib.format
          { sourcePlaybookId, definition := playbook, provenance, clientId, enabled }
          (EntryId.published hex) now with
      | error error => exact .refused
      | ok row =>
          dsimp only
          rw [exec_bind]
          cases hcommit : (playbookKind lib).commit (.create row) s with
          | error error =>
              rw [exec_writeEntry_of_error hcommit]
              exact .refused
          | ok s' =>
              simp only [PlaybookRequest.entry, bind_eq_ok, pure_eq_ok] at hentry
              obtain ⟨_, -, _, -, rfl⟩ := hentry
              have ⟨hnew, hentries⟩ := entries_of_create hcommit
              rw [exec_writeEntry_of_ok hcommit]
              dsimp only at hentries ⊢
              have hrow := hentries (EntryId.published hex).text
              rw [if_pos rfl] at hrow
              have hback := @exec_readBack lib s' _ _ hrow
              dsimp only [Shelves.StoredId.text] at hback ⊢
              rw [hback]
              exact .creates hparsed hnew hentries rfl

/-- What the store does with an update of an entry that it holds. -/
theorem effect_of_updateEntry {id : String} {clientId : Option String}
    {definition : Option Fields} {provenance : Option String} {enabled : Option Bool}
    {now : String} {row : MspPlaybookEntry} {playbook : MspPlaybookDefinition}
    (hrow : s.entries.find? id = some row)
    (haccepted : (AuthoringCall.update id clientId definition provenance enabled
      now).accepted lib s = .ok playbook) :
    let call := updateMspPlaybookEntry lib.format id
      { definition := some playbook, provenance, enabled }
      (row.clientId.map Subtype.val) now
    Effect lib (.update id clientId definition provenance enabled now) s
      ((playbookKind lib).exec call s).1 ((playbookKind lib).exec call s).2 := by
  have hadmits : withinScope (normalizeClientId (row.clientId.map Subtype.val)) row.clientId =
      true := by
    rw [normalizeClientId_map_val, withinScope_self]
  intro call
  have hcall : call = updateMspPlaybookEntry lib.format id
      { definition := some playbook, provenance, enabled }
    (row.clientId.map Subtype.val) now := rfl
  rw [hcall, updateMspPlaybookEntry, exec_bind, exec_getMspPlaybookEntry,
    selectEntry_of_admits hrow hadmits]
  dsimp only [Option.map_some]
  rw [updateExistingPlaybook, exec_bind, exec_ofExcept]
  cases hnext : PlaybookUpdate.next lib.format { definition := some playbook, provenance, enabled }
      (playbookEntryFromRow lib.format row) with
  | error error => exact .refused
  | ok next =>
      have htext : next.definitionJson = viewJson lib playbook := by
        simp only [PlaybookUpdate.next, bind_eq_ok, pure_eq_ok] at hnext
        obtain ⟨_, -, rfl⟩ := hnext
        rfl
      dsimp only
      split
      · next hsame =>
          refine .stays haccepted hrow ?_
          rw [← htext, hsame.2]
          rfl
      · rw [exec_bind]
        cases hcommit :
            (playbookKind lib).commit (.update id (playbookEntryFromRow lib.format row) next now) s
          with
        | error error =>
            rw [exec_writeEntry_of_error hcommit]
            exact .refused
        | ok s' =>
            have hentries := entries_of_update hrow hcommit
            have hback := hentries id
            rw [if_pos rfl] at hback
            rw [exec_writeEntry_of_ok hcommit]
            dsimp only
            rw [show (playbookEntryFromRow lib.format row).clientId =
              (next.assign
                ((playbookEntryFromRow lib.format row).version + 1) now row).clientId from rfl,
              exec_readBack hback]
            exact .rewrites rfl haccepted hentries htext

theorem effect_of_exec (call : AuthoringCall) :
    Effect lib call s ((playbookKind lib).exec (call.program lib) s).1
      ((playbookKind lib).exec (call.program lib) s).2 := by
  cases call with
  | publish => exact effect_of_publish
  | update id clientId definition provenance enabled now =>
      have hread : (playbookKind lib).read
          (.entry id (withinScope (normalizeClientId clientId))) s =
            (s.selectEntry id (withinScope (normalizeClientId clientId))).map
              (playbookEntryFromRow lib.format) := rfl
      rw [AuthoringCall.program, updateMspPlaybook, exec_bind, exec_getMspPlaybookEntry]
      cases hselect : s.selectEntry id (withinScope (normalizeClientId clientId)) with
      | none => exact .refused
      | some row =>
          dsimp only [Option.map_some]
          rw [exec_bind, exec_ofExcept]
          cases hparsed : parseUpdated lib (playbookEntryFromRow lib.format row) definition with
          | error error => exact .refused
          | ok playbook =>
              have hrow := selectEntry_eq_some hselect
              have haccepted : (AuthoringCall.update id clientId definition provenance enabled
                  now).accepted lib s = .ok playbook := by
                rw [AuthoringCall.accepted, hread, hselect]
                exact hparsed
              exact @effect_of_updateEntry lib s id clientId definition provenance enabled now row
                playbook hrow haccepted

/-! ### Runs -/

theorem isPlaybook_of_accepted {call : AuthoringCall} {playbook : MspPlaybookDefinition}
    (h : call.accepted lib s = .ok playbook) : IsPlaybook lib playbook := by
  cases call with
  | publish =>
      simp only [AuthoringCall.accepted, parsePublished, bind_eq_ok] at h
      obtain ⟨_, -, h⟩ := h
      exact isPlaybook_of_parse h
  | update =>
      rw [AuthoringCall.accepted] at h
      split at h
      · cases h
      · simp only [parseUpdated, bind_eq_ok] at h
        obtain ⟨_, -, h⟩ := h
        exact isPlaybook_of_parse h

def Holds (lib : Library) (playbook : MspPlaybookDefinition) (s : Playbooks) (entryId : String) :
    Prop :=
  ∃ row, s.entries.find? entryId = some row ∧ Keeps lib playbook row

/-- An update without a definition accepts the playbook that the entry keeps. -/
theorem accepted_of_holds {id : String} {clientId provenance : Option String}
    {enabled : Option Bool} {now : String} {playbook accepted : MspPlaybookDefinition}
    (hholds : Holds lib playbook s id)
    (h : (AuthoringCall.update id clientId none provenance enabled now).accepted lib s =
      .ok accepted) :
    ∃ id version, accepted = { playbook with id := id, version := version } := by
  obtain ⟨row, hrow, hkeeps⟩ := hholds
  rw [AuthoringCall.accepted] at h
  split at h
  · cases h
  · next entry hentry =>
      obtain ⟨row', hselect, rfl⟩ := Option.map_eq_some_iff.mp hentry
      have hrow' := selectEntry_eq_some hselect
      cases hrow.symm.trans hrow'
      simp only [parseUpdated, nextDefinition, bind_eq_ok] at h
      obtain ⟨fields, hfields, hparse⟩ := h
      have hid : ∃ t, boundedText lib (.text (playbookEntryFromRow lib.format row).sourcePlaybookId)
          "playbook_id" 120 = .ok t := by
        simp only [parseMspPlaybookDefinition, bind_eq_ok] at hparse
        exact hparse.imp fun t ht => ht.1
      obtain ⟨t, ht⟩ := hid
      obtain ⟨fields', hfields', hparse'⟩ :=
        parse_of_keeps hkeeps ht ((playbookEntryFromRow lib.format row).version + 1)
      cases hfields.symm.trans hfields'
      exact ⟨t, _, Except.ok.inj (hparse.symm.trans hparse')⟩

/-- The entry that a call returns keeps the playbook that the call accepted. -/
theorem holds_of_exec {call : AuthoringCall} {entry : MspPlaybookEntry}
    (h : (playbookKind lib).exec (call.program lib) s = (.ok entry, s')) :
    entry.id.text = call.entryId ∧
      ∃ playbook, call.accepted lib s = .ok playbook ∧ Holds lib playbook s' call.entryId := by
  have heffect := @effect_of_exec lib s call
  rw [h] at heffect
  have hkey : ∀ {t : Playbooks} {row : MspPlaybookEntry},
      t.entries.find? call.entryId = some row →
        (playbookEntryFromRow lib.format row).id.text = call.entryId := by
    intro t row hrow
    have hid : columns.id row = call.entryId := Table.key_of_find?_eq_some hrow
    exact hid
  cases heffect with
  | stays haccepted hrow htext =>
      exact ⟨hkey hrow, _, haccepted, _, hrow, _, _, isPlaybook_of_accepted haccepted, htext⟩
  | creates haccepted hnew hentries htext =>
      have hrow := hentries call.entryId
      rw [if_pos rfl] at hrow
      exact ⟨hkey hrow, _, haccepted, _, hrow,
        keeps_of_viewJson (isPlaybook_of_accepted haccepted) htext⟩
  | rewrites hcall haccepted hentries htext =>
      have hrow := hentries call.entryId
      rw [if_pos (by rw [hcall]; rfl)] at hrow
      exact ⟨hkey hrow, _, haccepted, _, hrow,
        keeps_of_viewJson (isPlaybook_of_accepted haccepted) htext⟩

/-- A call that does not redefine an entry leaves it its playbook. -/
theorem holds_authored {call : AuthoringCall} {playbook : MspPlaybookDefinition} {entryId : String}
    (hcall : call.redefines entryId = false) (h : Holds lib playbook s entryId) :
    Holds lib playbook (authored lib s call) entryId := by
  have heffect := @effect_of_exec lib s call
  change Effect lib call s _ (authored lib s call) at heffect
  generalize authored lib s call = s', ((playbookKind lib).exec (call.program lib) s).1 = result
    at heffect
  cases heffect with
  | refused => exact h
  | stays => exact h
  | creates haccepted hnew hentries htext =>
      obtain ⟨row, hrow, hkeeps⟩ := h
      have hother : entryId ≠ call.entryId := by
        intro heq
        rw [heq, hnew] at hrow
        cases hrow
      exact ⟨row, by rw [hentries, if_neg hother, hrow], hkeeps⟩
  | rewrites hcall haccepted hentries htext =>
      subst hcall
      next row accepted id clientId definition provenance enabled now =>
      by_cases hid : entryId = id
      · subst hid
        have hdefinition : definition = none := by
          simpa [AuthoringCall.redefines] using hcall
        subst hdefinition
        obtain ⟨t, version, rfl⟩ := accepted_of_holds h haccepted
        have hkeeps := keeps_of_viewJson (isPlaybook_of_accepted haccepted) htext
        exact ⟨row, by rw [hentries, if_pos rfl], hkeeps⟩
      · obtain ⟨row', hrow, hkeeps⟩ := h
        exact ⟨row', by rw [hentries, if_neg hid, hrow], hkeeps⟩

theorem holds_runFrom {playbook : MspPlaybookDefinition} {entryId : String}
    {calls : List AuthoringCall} (hcalls : ∀ call ∈ calls, call.redefines entryId = false)
    (h : Holds lib playbook s entryId) :
    Holds lib playbook (runFrom (authored lib) s calls) entryId := by
  induction calls generalizing s with
  | nil => exact h
  | cons call calls ih =>
      rw [runFrom_cons]
      apply ih
      · exact fun other hother => hcalls other (List.mem_cons_of_mem call hother)
      · exact holds_authored (hcalls call List.mem_cons_self) h

/-- Until it is given another definition, an entry resolves while it is enabled, and to the playbook
that was accepted. -/
theorem resolves_to_accepted {call : AuthoringCall} {entry : MspPlaybookEntry}
    (h : (playbookKind lib).exec (call.program lib) s = (.ok entry, s'))
    {later : List AuthoringCall} (hlater : ∀ c ∈ later, c.redefines entry.id.text = false) :
    ∃ playbook, call.accepted lib s = .ok playbook ∧
      ∃ row, (runFrom (authored lib) s' later).entries.find? entry.id.text = some row ∧
        ∀ clientId, row.enabled = true →
          withinScope (normalizeClientId clientId) row.clientId = true →
            ∃ id, resolveMspPlaybook lib (runFrom (authored lib) s' later) entry.id.text clientId =
              .ok { playbook with id := id, version := row.version } := by
  obtain ⟨hid, playbook, haccepted, hholds⟩ := holds_of_exec h
  rw [← hid] at hholds
  obtain ⟨row, hrow, hkeeps⟩ := holds_runFrom hlater hholds
  have hrowId : row.id.text = entry.id.text := by
    have hcolumn : columns.id row = entry.id.text := Table.key_of_find?_eq_some hrow
    exact hcolumn
  refine ⟨playbook, haccepted, row, hrow, ?_⟩
  intro clientId henabled hscope
  rw [← hrowId] at hrow ⊢
  exact resolve_of_keeps hrow hkeeps henabled hscope

/-- An update of the provenance of a kept playbook is written. -/
theorem authored_rename {id t provenance next now : String} {row : MspPlaybookEntry}
    {playbook : MspPlaybookDefinition} (hrow : s.entries.find? id = some row)
    (hkeeps : Keeps lib playbook row)
    (hsource : boundedText lib (.text row.sourcePlaybookId) "playbook_id" 120 = .ok t)
    (hnext : galleryText lib.format.redactText provenance "provenance" 1000 = .ok next)
    (hchanged : next ≠ redactText lib.words row.provenance)
    (hcommit : ∀ content,
      (commitPlaybook lib.format
        (.update id (playbookEntryFromRow lib.format row) content now) s).isOk = true) :
    ∃ row', (authored lib s (.update id none none (some provenance) none now)).entries.find? id =
      some row' ∧ row'.provenance = next ∧ row'.enabled = row.enabled ∧
        row'.clientId = row.clientId := by
  obtain ⟨fields, hfields, hparse⟩ := parse_of_keeps hkeeps hsource (row.version + 1)
  have hparsed : parseUpdated lib (playbookEntryFromRow lib.format row) none =
      .ok { playbook with id := t, version := row.version + 1 } := by
    rw [parseUpdated, nextDefinition, hfields, ok_bind]
    exact hparse
  have hadmits : withinScope (normalizeClientId (row.clientId.map Subtype.val)) row.clientId =
      true := by
    rw [normalizeClientId_map_val, withinScope_self]
  generalize hplay : ({ playbook with id := t, version := row.version + 1 } :
    MspPlaybookDefinition) = parsed at hparsed
  obtain ⟨content, hcontent, hprovenance, henabled⟩ : ∃ content,
      PlaybookUpdate.next lib.format { definition := some parsed, provenance := some provenance }
        (playbookEntryFromRow lib.format row) =
        .ok content ∧ content.provenance = next ∧ content.enabled = row.enabled := by
    rw [PlaybookUpdate.next, nextText, hnext]
    exact ⟨_, rfl, rfl, rfl⟩
  have hclient : (playbookEntryFromRow lib.format row).clientId = row.clientId := rfl
  have hdiffers : content ≠ (playbookEntryFromRow lib.format row).content := by
    rintro rfl
    exact hchanged hprovenance.symm
  obtain ⟨s', hs'⟩ := exists_eq_ok (hcommit content)
  have hentries := entries_of_update hrow hs' id
  rw [if_pos rfl] at hentries
  have hback := @exec_readBack lib s' id _ hentries
  rw [authored, AuthoringCall.program, updateMspPlaybook, exec_bind, exec_getMspPlaybookEntry,
    show normalizeClientId none = none from rfl,
    selectEntry_of_admits hrow (withinScope_none row.clientId)]
  dsimp only [Option.map_some]
  rw [exec_bind, exec_ofExcept, hparsed]
  dsimp only
  rw [updateMspPlaybookEntry, exec_bind, exec_getMspPlaybookEntry, hclient,
    selectEntry_of_admits hrow hadmits]
  dsimp only [Option.map_some]
  rw [updateExistingPlaybook, exec_bind, exec_ofExcept, hcontent]
  dsimp only
  rw [if_neg fun hsame => hdiffers hsame.2, exec_bind, exec_writeEntry_of_ok hs']
  dsimp only
  rw [hclient, show ((playbookKind lib).exec (readBackPlaybook id row.clientId) s').2 = s' from
    congrArg Prod.snd hback]
  exact ⟨_, hentries, hprovenance, henabled, rfl⟩

section Example

def playbookLibrary : Library where
  words := .known
  floats := .verbatim

/-- A playbook of one report, with a text that redaction changes. -/
def reviewDefinition : Fields :=
  [("name", .text " Review "), ("trigger", .text "schedule.monthly"),
    ("description", .text "token=abc"), ("risk_level", .text "low"),
    ("steps", .array [.object [("id", .text "qbr"), ("name", .text "QBR"),
      ("kind", .text "report"), ("description", .text "Report"), ("report_type", .text "qbr")]]),
    ("output_evidence", .array [.text "report_id"])]

def reviewHex : UuidHex := ⟨"0123456789abcdef0123456789abcdef", by decide⟩

def publishReview : AuthoringCall :=
  .publish "review" "local" none (some reviewDefinition) true reviewHex "t0"

def renameReview : AuthoringCall :=
  .update (EntryId.published reviewHex).text none none (some "reviewed") none "t1"

/-- The store once the review is published and renamed. -/
def reviewed : Playbooks :=
  runFrom (authored playbookLibrary) (authored playbookLibrary .empty publishReview) [renameReview]

theorem resolves_to_accepted_review : ∃ (playbook : MspPlaybookDefinition)
    (row : MspPlaybookEntry) (id : String),
    publishReview.accepted playbookLibrary .empty = .ok playbook ∧
      playbook.description = "token=[redacted]" ∧ row.provenance = "reviewed" ∧
      resolveMspPlaybook playbookLibrary reviewed (EntryId.published reviewHex).text none =
        .ok { playbook with id := id, version := row.version } := by
  have hok : ((playbookKind playbookLibrary).exec (publishReview.program playbookLibrary)
      .empty).1.isOk = true := by decide
  have hpublished : ((authored playbookLibrary .empty publishReview).entries.find?
      (EntryId.published reviewHex).text).any (fun row => row.enabled && row.clientId.isNone &&
        row.provenance == "local" && row.sourcePlaybookId == "review" && row.version == 1) =
        true := by
    decide
  have hrevision : ((authored playbookLibrary .empty publishReview).selectRevision
      (EntryId.published reviewHex).text 2).isNone ∧
      (authored playbookLibrary .empty publishReview).entries.rowcount
        (fun entry => columns.id entry == (EntryId.published reviewHex).text) = 1 := by
    decide
  have haccepted : (publishReview.accepted playbookLibrary .empty).toOption.any (fun playbook =>
      playbook.description == "token=[redacted]") = true := by
    decide
  obtain ⟨entry, hentry⟩ := exists_eq_ok hok
  have hexec : (playbookKind playbookLibrary).exec (publishReview.program playbookLibrary) .empty =
      (.ok entry, authored playbookLibrary .empty publishReview) := Prod.ext hentry rfl
  obtain ⟨hid, playbook, hplaybook, row, hrow, hkeeps⟩ := holds_of_exec hexec
  have hlater : ∀ c ∈ [renameReview], c.redefines entry.id.text = false := by
    intro c hc
    rw [List.mem_singleton.mp hc, renameReview, AuthoringCall.redefines, Option.isSome_none,
      Bool.and_false]
  have hrow : _ = some row := hrow
  rw [show publishReview.entryId = (EntryId.published reviewHex).text from rfl] at hrow hid
  rw [hrow, Option.any_some] at hpublished
  simp only [Bool.and_eq_true, beq_iff_eq, Option.isNone_iff_eq_none] at hpublished
  obtain ⟨⟨⟨⟨henabled, -⟩, hlocal⟩, hsource⟩, hversion⟩ := hpublished
  have hnext : galleryText playbookLibrary.format.redactText "reviewed" "provenance" 1000 =
      .ok "reviewed" := by
    decide
  have hchanged : "reviewed" ≠ redactText playbookLibrary.words row.provenance := by
    rw [hlocal]
    decide
  have hid' : boundedText playbookLibrary (.text row.sourcePlaybookId) "playbook_id" 120 =
      .ok "review" := by
    rw [hsource]
    decide
  have hreviewed : reviewed = runFrom (authored playbookLibrary)
      (authored playbookLibrary .empty publishReview) [renameReview] := rfl
  rw [hreviewed]
  obtain ⟨playbook', hplaybook', row'', hfind, hresolve⟩ := resolves_to_accepted hexec hlater
  rw [hid, runFrom_cons, runFrom_nil, renameReview] at hfind hresolve
  rw [runFrom_cons, runFrom_nil, renameReview]
  generalize authored playbookLibrary .empty publishReview = published at *
  have hfree : published.selectRevision
      (EntryId.published reviewHex).text (row.version + 1) = none := by
    rw [hversion]
    exact Option.isNone_iff_eq_none.mp hrevision.1
  have hcommit : ∀ content, (commitPlaybook playbookLibrary.format (.update
      (EntryId.published reviewHex).text
        (playbookEntryFromRow playbookLibrary.format row) content "t1")
        published).isOk = true := by
    intro content
    rw [commitPlaybook]
    unfold Shelves.Shelf.updateEntry Shelves.Shelf.insertRevision
    rw [raiseIf_of_not (not_not.mpr hrevision.2), ok_bind]
    dsimp only
    rw [raiseIf_of_not]
    · rfl
    · exact Option.not_isSome_iff_eq_none.mpr hfree
  obtain ⟨row', hrow', hrenamed, hkept, -⟩ :=
    @authored_rename playbookLibrary _ _ _ _ _ _ row playbook hrow hkeeps hid' hnext hchanged
      hcommit
  cases hplaybook.symm.trans hplaybook'
  cases hrow'.symm.trans hfind
  obtain ⟨id, hread⟩ := hresolve none (hkept.trans henabled) (withinScope_none row''.clientId)
  rw [hplaybook] at haccepted
  exact ⟨playbook, row'', id, hplaybook, beq_iff_eq.mp haccepted, hrenamed, hread⟩

end Example

end WaitLocalAgent.PlaybookDefinitions
