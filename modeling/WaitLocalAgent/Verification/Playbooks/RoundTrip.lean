import WaitLocalAgent.Model.PlaybookDefinitions
import WaitLocalAgent.Verification.Redaction.Plain
import WaitLocalAgent.Verification.Redaction.Value
import WaitLocalAgent.Verification.Shelves.Calls

/-! # Playbooks that are stored and resolved

What the parser returns is redacted and within its bounds already, so that the redacting store and
the parser that reads from it leave it as it is. -/

namespace WaitLocalAgent.PlaybookDefinitions

open Foundation JsonValue Redaction
open Shelves (ShelfError exec_bind exec_ofExcept exec_readEntry exec_writeEntry_of_ok
  exec_writeEntry_of_error)
open Playbooks (RiskLevel ReportType StepKind MspPlaybookStep MspPlaybookDefinition
  getWorkflowTemplate)

variable {lib : Library}

/-- What `_bounded_text` returns. -/
structure IsBounded (lib : Library) (limit : ℕ) (s : String) : Prop where
  strip : Text.strip s = s
  redacted : redactText lib.words s = s
  nonempty : s ≠ ""
  length : s.length ≤ limit

theorem boundedText_eq_ok {value : JsonValue} {field s : String} {limit : ℕ}
    (h : boundedText lib value field limit = .ok s) : IsBounded lib limit s := by
  cases value with
  | text given =>
      simp only [boundedText, bind_eq_ok, raiseIf_eq_ok, pure_eq_ok] at h
      obtain ⟨_, hne, _, hlimit, rfl⟩ := h
      have hstrip := strip_redactText (w := lib.words) (Text.strip_strip given)
      refine ⟨hstrip, redactText_redactText _ _, fun hempty => ?_, Nat.not_lt.mp hlimit⟩
      have hblank : Text.strip (redactText lib.words (Text.strip given)) = "" := by
        rw [hstrip, hempty]
      rw [strip_redactText_eq_empty_iff, Text.strip_strip] at hblank
      exact hne hblank
  | _ => cases h

theorem boundedText_of_isBounded {s : String} {limit : ℕ} (h : IsBounded lib limit s)
    (field : String) : boundedText lib (.text s) field limit = .ok s := by
  simp only [boundedText, h.strip, h.redacted]
  rw [raiseIf_of_not h.nonempty, raiseIf_of_not (Nat.not_lt.mpr h.length)]
  rfl

/-- What `_bounded_string_list` returns. -/
structure IsBoundedList (lib : Library) (items : List String) : Prop where
  length : items.length ≤ 16
  distinct : items.Nodup
  bounded : ∀ item ∈ items, IsBounded lib 120 item

theorem boundedStringList_eq_ok {value : JsonValue} {field : String} {items : List String}
    (h : boundedStringList lib value field = .ok items) : IsBoundedList lib items := by
  cases value with
  | array raws =>
      simp only [boundedStringList, bind_eq_ok, raiseIf_eq_ok, pure_eq_ok, not_not] at h
      obtain ⟨_, hlength, result, hresult, _, hdistinct, rfl⟩ := h
      refine ⟨?_, hdistinct, fun item hitem => ?_⟩
      · exact length_of_mapM hresult ▸ Nat.not_lt.mp hlength
      · obtain ⟨raw, -, hraw⟩ := exists_of_mem_mapM hresult item hitem
        exact boundedText_eq_ok hraw
  | _ => cases h

theorem boundedStringList_of_isBounded {items : List String} (h : IsBoundedList lib items)
    (field : String) : boundedStringList lib (texts items) field = .ok items := by
  have hmap : ∀ items : List String, (∀ item ∈ items, IsBounded lib 120 item) →
      (items.map JsonValue.text).mapM (fun item => boundedText lib item field 120) = .ok items := by
    intro items
    induction items with
    | nil => exact fun _ => rfl
    | cons item items ih =>
        intro hall
        rw [List.map_cons, List.mapM_cons,
          boundedText_of_isBounded (hall item List.mem_cons_self), ok_bind,
          ih fun item hitem => hall item (List.mem_cons_of_mem _ hitem)]
        rfl
  rw [texts, boundedStringList, raiseIf_of_not (by simpa using h.length), ok_bind,
    hmap items h.bounded, ok_bind, raiseIf_of_not (not_not.mpr h.distinct)]
  rfl

theorem redactItems_texts {items : List String} (h : ∀ item ∈ items, IsBounded lib 120 item) :
    redactItems lib.words (items.map .text) = items.map .text := by
  rw [redactItems_eq_map, List.map_map]
  refine List.map_congr_left fun item hitem => ?_
  simp [redactValue, (h item hitem).redacted]

theorem redactValue_texts {items : List String} (h : ∀ item ∈ items, IsBounded lib 120 item) :
    redactValue lib.words (texts items).sortKeys = texts items := by
  have hsorted : sortItems (items.map .text) = items.map .text := by
    rw [sortItems_eq_map, List.map_map]
    rfl
  rw [texts, sortKeys, redactValue, hsorted, redactItems_texts h]

/-- What an accepted kind is. -/
inductive IsKind (lib : Library) : StepKind → Prop
  | workflow {templateId : String} (htext : IsBounded lib 120 templateId)
      (hknown : getWorkflowTemplate templateId ≠ none) : IsKind lib (.workflow templateId)
  | report {reportType : ReportType} (htext : IsBounded lib 80 reportType.value) :
      IsKind lib (.report reportType)

/-- What an accepted step is. -/
structure IsStep (lib : Library) (step : MspPlaybookStep) : Prop where
  id : IsBounded lib 80 step.id
  name : IsBounded lib 120 step.name
  kindValue : IsBounded lib 20 step.kind.value
  kind : IsKind lib step.kind
  description : IsBounded lib 1000 step.description
  requiredInputs : IsBoundedList lib step.requiredInputs

theorem parseStepKind_eq_ok {id kind : String} {fields : Fields} {parsed : StepKind}
    (h : parseStepKind lib id kind fields = .ok parsed) :
      parsed.value = kind ∧ IsKind lib parsed := by
  rw [parseStepKind] at h
  split at h
  · next hworkflow =>
      simp only [bind_eq_ok, raiseIf_eq_ok, pure_eq_ok] at h
      obtain ⟨t, ht, _, hknown, rfl⟩ := h
      exact ⟨hworkflow.symm, .workflow (boundedText_eq_ok ht) hknown⟩
  · split at h
    · next hreport =>
        simp only [bind_eq_ok] at h
        obtain ⟨t, ht, h⟩ := h
        cases hfound : ReportType.all.find? fun item => item.value = t with
        | none =>
            rw [hfound] at h
            cases h
        | some item =>
            rw [hfound] at h
            cases h
            have hvalue : item.value = t := by simpa using List.find?_some hfound
            exact ⟨hreport.symm, .report (hvalue ▸ boundedText_eq_ok ht)⟩
    · cases h

theorem parseStepBody_eq_ok {id : String} {fields : Fields} {step : MspPlaybookStep}
    (hid : IsBounded lib 80 id) (h : parseStepBody lib id fields = .ok step) :
    step.id = id ∧ IsStep lib step := by
  simp only [parseStepBody, bind_eq_ok] at h
  obtain ⟨name, hname, kind, hkind, description, hdescription, inputs, hinputs, parsed, hparsed,
    h⟩ := h
  cases h
  obtain ⟨rfl, hkindOk⟩ := parseStepKind_eq_ok hparsed
  exact ⟨rfl, hid, boundedText_eq_ok hname, boundedText_eq_ok hkind, hkindOk,
    boundedText_eq_ok hdescription, boundedStringList_eq_ok hinputs⟩

theorem parseSteps_eq_ok {raws : List JsonValue} {steps : List MspPlaybookStep}
    {seenIds : List String} (h : parseSteps lib seenIds raws = .ok steps) :
    steps.length = raws.length ∧ (∀ step ∈ steps, IsStep lib step ∧ step.id ∉ seenIds) ∧
      (steps.map MspPlaybookStep.id).Nodup := by
  induction raws generalizing steps seenIds with
  | nil =>
      cases h
      simp
  | cons raw raws ih =>
      simp only [parseSteps, bind_eq_ok, raiseIf_eq_ok, pure_eq_ok] at h
      obtain ⟨⟨id, fields⟩, hid, _, hnew, step, hbody, steps', hsteps, rfl⟩ := h
      have hbounded : IsBounded lib 80 id := by
        cases raw with
        | object raws =>
            simp only [parseStepId, bind_eq_ok, pure_eq_ok, Prod.mk.injEq] at hid
            obtain ⟨id', hid, rfl, -⟩ := hid
            exact boundedText_eq_ok hid
        | _ => cases hid
      obtain ⟨hstepId, hstep⟩ := parseStepBody_eq_ok hbounded hbody
      dsimp only at hstepId hnew hsteps
      subst hstepId
      obtain ⟨hlength, hall, hnodup⟩ := ih hsteps
      refine ⟨by simp [hlength], ?_, ?_⟩
      · intro other hother
        rcases List.mem_cons.mp hother with rfl | hother
        · exact ⟨hstep, hnew⟩
        · obtain ⟨hother, hnot⟩ := hall other hother
          exact ⟨hother, fun hseen => hnot (List.mem_cons_of_mem _ hseen)⟩
      · rw [List.map_cons, List.nodup_cons]
        refine ⟨fun hmem => ?_, hnodup⟩
        obtain ⟨other, hother, heq⟩ := List.mem_map.mp hmem
        exact (hall other hother).2 (heq ▸ List.mem_cons_self)

def stepFields : List String :=
  ["id", "name", "kind", "description", "workflow_template_id", "report_type", "required_inputs"]

theorem plain_stepFields : ∀ key ∈ stepFields, isSensitiveKey key = false := by
  decide

theorem get?_view (step : MspPlaybookStep) {key : String} (hkey : key ∈ stepFields)
    {v : JsonValue} (hget : get? (stepView step) key = some v) :
    get? (storedFields lib.words (stepView step)) key = some (redactValue lib.words v.sortKeys) :=
  get?_stored lib.words (plain_stepFields key hkey) hget

theorem get_view_text (step : MspPlaybookStep) {key : String} (hkey : key ∈ stepFields)
    {s : String} {limit : ℕ} (hs : IsBounded lib limit s)
    (hget : get? (stepView step) key = some (.text s)) :
    JsonValue.get (storedFields lib.words (stepView step)) key = .text s := by
  rw [JsonValue.get, get?_view step hkey hget]
  simp [sortKeys, redactValue, hs.redacted]

section StoredStep

variable {step : MspPlaybookStep}

theorem parseStepId_stored (h : IsStep lib step) :
    parseStepId lib (.object (storedFields lib.words (stepView step))) =
      .ok (step.id, storedFields lib.words (stepView step)) := by
  rw [parseStepId, get_view_text step (by decide) h.id rfl, boundedText_of_isBounded h.id]
  rfl

theorem find?_reportType (reportType : ReportType) :
    ReportType.all.find? (fun item => item.value = reportType.value) = some reportType := by
  cases reportType <;> decide

theorem parseStepKind_stored (h : IsStep lib step) :
    parseStepKind lib step.id step.kind.value (storedFields lib.words (stepView step)) =
      .ok step.kind := by
  obtain ⟨id, name, kind, description, inputs⟩ := step
  have hkind := h.kind
  dsimp only at hkind ⊢
  cases hkind with
  | workflow htext hknown =>
      rw [StepKind.value, parseStepKind, if_pos rfl, get_view_text _ (by decide) htext rfl,
        boundedText_of_isBounded htext, ok_bind, raiseIf_of_not hknown]
      rfl
  | report htext =>
      rw [StepKind.value, parseStepKind, if_neg (by decide), if_pos rfl,
        get_view_text _ (by decide) htext rfl, boundedText_of_isBounded htext, ok_bind,
        find?_reportType]
      rfl

theorem parseStepBody_stored (h : IsStep lib step) :
    parseStepBody lib step.id (storedFields lib.words (stepView step)) = .ok step := by
  rw [parseStepBody, get_view_text step (by decide) h.name rfl, boundedText_of_isBounded h.name,
    ok_bind, get_view_text step (by decide) h.kindValue rfl,
    boundedText_of_isBounded h.kindValue, ok_bind,
    get_view_text step (by decide) h.description rfl, boundedText_of_isBounded h.description,
    ok_bind, get?_view step (by decide) rfl, Option.getD_some,
    redactValue_texts h.requiredInputs.bounded, boundedStringList_of_isBounded h.requiredInputs,
    ok_bind, parseStepKind_stored h]
  rfl

/-- Redaction leaves an accepted step as it is. -/
theorem redactMapping_view (h : IsStep lib step) :
    redactMapping lib.words (stepView step) = stepView step := by
  have hplain := plain_stepFields
  simp only [stepFields, List.forall_mem_cons] at hplain
  obtain ⟨id, name, kind, description, inputs⟩ := step
  have hkind := h.kind
  dsimp only at hkind
  have hid := h.id.redacted
  have hname := h.name.redacted
  have hvalue := h.kindValue.redacted
  have hdescription := h.description.redacted
  have hinputs := redactItems_texts h.requiredInputs.bounded
  dsimp only at hid hname hvalue hdescription hinputs
  cases hkind with
  | workflow htext =>
      simp [stepView, redactMapping, hplain, redactValue, hid, hname, hvalue, hdescription, texts,
        hinputs, textOrNull, htext.redacted, StepKind.templateId?, StepKind.reportType?]
  | report htext =>
      simp [stepView, redactMapping, hplain, redactValue, hid, hname, hvalue, hdescription, texts,
        hinputs, textOrNull, htext.redacted, StepKind.templateId?, StepKind.reportType?]

end StoredStep

theorem parseSteps_stored {steps : List MspPlaybookStep} (h : ∀ step ∈ steps, IsStep lib step)
    (hnodup : (steps.map MspPlaybookStep.id).Nodup) {seenIds : List String}
    (hseen : ∀ step ∈ steps, step.id ∉ seenIds) :
    parseSteps lib seenIds
      (steps.map fun step => .object (storedFields lib.words (stepView step))) = .ok steps := by
  induction steps generalizing seenIds with
  | nil => rfl
  | cons step steps ih =>
      have hstep := h step List.mem_cons_self
      rw [List.map_cons, List.nodup_cons] at hnodup
      rw [List.map_cons, parseSteps, parseStepId_stored hstep, ok_bind]
      dsimp only
      rw [raiseIf_of_not (hseen step List.mem_cons_self), ok_bind, parseStepBody_stored hstep,
        ok_bind, ih (fun other hother => h other (List.mem_cons_of_mem _ hother)) hnodup.2]
      · rfl
      · intro other hother hmem
        rcases List.mem_cons.mp hmem with heq | hmem
        · exact hnodup.1 (heq ▸ List.mem_map_of_mem hother)
        · exact hseen other (List.mem_cons_of_mem _ hother) hmem

/-- What an accepted playbook is. -/
structure IsPlaybook (lib : Library) (playbook : MspPlaybookDefinition) : Prop where
  id : IsBounded lib 120 playbook.id
  name : IsBounded lib 120 playbook.name
  trigger : IsBounded lib 120 playbook.trigger
  description : IsBounded lib 2000 playbook.description
  riskLevel : IsBounded lib 20 playbook.riskLevel.value
  steps : ∀ step ∈ playbook.steps, IsStep lib step
  stepIds : (playbook.steps.map MspPlaybookStep.id).Nodup
  nonempty : 1 ≤ playbook.steps.length
  stepCount : playbook.steps.length ≤ 12
  outputEvidence : IsBoundedList lib playbook.outputEvidence
  evidence : playbook.outputEvidence ≠ []

theorem parseRiskLevel_eq_ok {text : String} {riskLevel : RiskLevel}
    (h : parseRiskLevel text = .ok riskLevel) : riskLevel.value = text := by
  rw [parseRiskLevel] at h
  cases hfound : [RiskLevel.low, .medium, .high].find? fun item => item.value = text with
  | none =>
      rw [hfound] at h
      cases h
  | some item =>
      rw [hfound] at h
      cases h
      simpa using List.find?_some hfound

theorem parseRiskLevel_value (riskLevel : RiskLevel) :
    parseRiskLevel riskLevel.value = .ok riskLevel := by
  cases riskLevel <;> rfl

theorem rawSteps_eq_ok {value : JsonValue} {raws : List JsonValue}
    (h : rawSteps value = .ok raws) : 1 ≤ raws.length ∧ raws.length ≤ 12 := by
  unfold rawSteps at h
  split at h
  · split at h
    · next hcount =>
        cases h
        exact hcount
    · cases h
  · cases h

theorem isPlaybook_of_parse {payload : Fields} {playbookId : String} {version : ℕ}
    {playbook : MspPlaybookDefinition}
    (h : parseMspPlaybookDefinition lib payload playbookId version = .ok playbook) :
    IsPlaybook lib playbook := by
  simp only [parseMspPlaybookDefinition, bind_eq_ok, raiseIf_eq_ok, pure_eq_ok] at h
  obtain ⟨id, hid, name, hname, trigger, htrigger, description, hdescription, risk, hrisk, level,
    hlevel, raws, hraws, steps, hsteps, evidence, hevidence, _, hnonempty, rfl⟩ := h
  have hcount := rawSteps_eq_ok hraws
  have ⟨hlength, hall, hnodup⟩ := parseSteps_eq_ok hsteps
  exact {
    id := boundedText_eq_ok hid
    name := boundedText_eq_ok hname
    trigger := boundedText_eq_ok htrigger
    description := boundedText_eq_ok hdescription
    riskLevel := parseRiskLevel_eq_ok hlevel ▸ boundedText_eq_ok hrisk
    steps := fun step hstep => (hall step hstep).1
    stepIds := hnodup
    nonempty := hlength ▸ hcount.1
    stepCount := hlength ▸ hcount.2
    outputEvidence := boundedStringList_eq_ok hevidence
    evidence := hnonempty }

def playbookFields : List String :=
  ["id", "name", "version", "trigger", "description", "risk_level", "steps", "output_evidence",
    "local_fixture"]

theorem plain_playbookFields : ∀ key ∈ playbookFields, isSensitiveKey key = false := by
  decide

section StoredPlaybook

variable {playbook : MspPlaybookDefinition}

/-- A field that is read of a stored playbook. -/
theorem get?_playbookView (playbook : MspPlaybookDefinition) {key : String}
    (hkey : key ∈ playbookFields) {v : JsonValue}
    (hget : get? (playbookView playbook) key = some v) :
    get? (storedFields lib.words (playbookView playbook)) key =
      some (redactValue lib.words v.sortKeys) :=
  get?_stored lib.words (plain_playbookFields key hkey) hget

theorem get_playbookView_text (playbook : MspPlaybookDefinition) {key : String}
    (hkey : key ∈ playbookFields) {s : String} {limit : ℕ} (hs : IsBounded lib limit s)
    (hget : get? (playbookView playbook) key = some (.text s)) :
    JsonValue.get (storedFields lib.words (playbookView playbook)) key = .text s := by
  rw [JsonValue.get, get?_playbookView playbook hkey hget]
  simp [sortKeys, redactValue, hs.redacted]

/-- A stored playbook is read as it is, under its new id and version. -/
theorem parse_stored (h : IsPlaybook lib playbook) {playbookId id : String}
    (hid : boundedText lib (.text playbookId) "playbook_id" 120 = .ok id) (version : ℕ) :
    parseMspPlaybookDefinition lib (storedFields lib.words (playbookView playbook)) playbookId
      version = .ok { playbook with id := id, version := version } := by
  have hsteps : rawSteps (JsonValue.get (storedFields lib.words (playbookView playbook)) "steps") =
      .ok (playbook.steps.map fun step => .object (storedFields lib.words (stepView step))) := by
    rw [JsonValue.get, get?_playbookView playbook (by decide) rfl, Option.getD_some,
      redactValue_objects, rawSteps, if_pos]
    simpa using ⟨h.nonempty, h.stepCount⟩
  have hevidence :
      JsonValue.get (storedFields lib.words (playbookView playbook)) "output_evidence" =
        texts playbook.outputEvidence := by
    rw [JsonValue.get, get?_playbookView playbook (by decide) rfl, Option.getD_some,
      redactValue_texts h.outputEvidence.bounded]
  have hfixture : (get? (storedFields lib.words (playbookView playbook)) "local_fixture").getD
      (.bool true) = .bool playbook.localFixture := by
    rw [get?_playbookView playbook (by decide) rfl]
    rfl
  rw [parseMspPlaybookDefinition, hid, ok_bind,
    get_playbookView_text playbook (by decide) h.name rfl, boundedText_of_isBounded h.name,
    ok_bind, get_playbookView_text playbook (by decide) h.trigger rfl,
    boundedText_of_isBounded h.trigger, ok_bind,
    get_playbookView_text playbook (by decide) h.description rfl,
    boundedText_of_isBounded h.description, ok_bind,
    get_playbookView_text playbook (by decide) h.riskLevel rfl,
    boundedText_of_isBounded h.riskLevel, ok_bind, parseRiskLevel_value, ok_bind, hsteps, ok_bind,
    parseSteps_stored h.steps h.stepIds fun _ _ => List.not_mem_nil, ok_bind, hevidence,
    boundedStringList_of_isBounded h.outputEvidence, ok_bind,
    raiseIf_of_not h.evidence, ok_bind, hfixture]
  rfl

/-- The tuples of a view hold nothing that redaction would change. -/
theorem viewJson_eq (h : IsPlaybook lib playbook) :
    viewJson lib playbook = jsonDumpsValue lib.words (.object (playbookView playbook)) := by
  have hsteps : redactItems lib.words (playbook.steps.map fun step => .object (stepView step)) =
      playbook.steps.map fun step => .object (stepView step) := by
    rw [redactItems_eq_map, List.map_map]
    refine List.map_congr_left fun step hstep => ?_
    exact congrArg JsonValue.object (redactMapping_view (h.steps step hstep))
  have hevidence := redactItems_texts h.outputEvidence.bounded
  have hview : redactMapping lib.words (playbookView playbook) =
      (playbookView playbook).map fun entry => (entry.1,
        if isSensitiveKey entry.1 then .text redacted else redactUntupled lib.words entry.2) := by
    simp [redactMapping_eq_map, playbookView, texts, redactEntry, redactUntupled, redactValue,
      hsteps, hevidence]
  rw [jsonDumpsValue, redactValue, hview]
  rfl

theorem exact_playbookView (lib : Library) (playbook : MspPlaybookDefinition) :
    (JsonValue.object (playbookView playbook)).exact lib.floats = true := by
  have htexts : ∀ (q : String → Bool) (items : List String),
      (texts items).floatsMeet q = true := by
    intro q items
    simp [texts, floatsMeet, floatsMeetItems_eq_all]
  have hnull : ∀ (q : String → Bool) (value : Option String),
      (textOrNull value).floatsMeet q = true := by
    intro q value
    cases value <;> rfl
  simp [exact, playbookView, floatsMeet, floatsMeetFields, floatsMeetItems_eq_all,
    stepView, htexts, hnull]

theorem storedObject_viewJson (h : IsPlaybook lib playbook) :
    storedObject lib (redactJsonText lib.words lib.floats.repr (viewJson lib playbook)) =
      .ok (storedFields lib.words (playbookView playbook)) := by
  have hexact := exact_playbookView lib playbook
  rw [viewJson_eq h, redactJsonText_jsonDumpsValue lib.floats hexact, storedObject,
    loads?_jsonDumpsValue lib.floats hexact, redactValue_sortKeys_object]

end StoredPlaybook

end WaitLocalAgent.PlaybookDefinitions
