import WaitLocalAgent.Model.PowerPlatformDeployment
import WaitLocalAgent.Verification.Redaction.Plain
import WaitLocalAgent.Verification.Redaction.Value

/-! # Rebuilding the plan of a stored request

Which accepted requests give the plan that was shown once more, out of the payload that was
stored. -/

namespace WaitLocalAgent.Deployment

open Foundation JsonValue Redaction

variable {lib : Library}

/-! ### Digests and other plain texts -/

theorem isChain_of_not_isSign {cs : List Char} (h : ∀ c ∈ cs, isSign c = false) : Numbered cs := by
  induction cs with
  | nil => exact List.IsChain.nil
  | cons c cs ih =>
      refine List.isChain_cons.mpr ⟨fun d hd hsign => ?_, ih fun d hd => h d (by simp [hd])⟩
      rw [h d (List.mem_cons_of_mem c (List.mem_of_mem_head? hd))] at hsign
      cases hsign

theorem isHexDigit_plain {c : Char} (h : isHexDigit c = true) :
    isSign c = false ∧ c ≠ 'A' ∧ Text.isSpace c = false := by
  have hA : 'A'.toNat = 65 := rfl
  have hrange : 48 ≤ c.toNat ∧ c.toNat ≤ 57 ∨ 97 ≤ c.toNat ∧ c.toNat ≤ 102 := by
    simpa [isHexDigit, Char.isDigit, Char.le_def, UInt32.le_iff_toNat_le] using h
  refine ⟨?_, ?_, ?_⟩
  · rw [isSign, Bool.or_eq_false_iff, beq_eq_false_iff_ne, beq_eq_false_iff_ne]
    constructor <;> rintro rfl <;> simp at hrange
  · rintro rfl
    simp at hrange
  · rw [Text.isSpace]
    simp
    omega

theorem toList_of_isDigest {s : String} (h : isDigest s = true) :
    ∃ hex, s.toList = "sha256:".toList ++ hex ∧ ∀ c ∈ hex, isHexDigit c = true := by
  rw [isDigest, Bool.and_eq_true, Bool.and_eq_true, List.isPrefixOf_iff_prefix] at h
  obtain ⟨⟨⟨hex, hhex⟩, -⟩, hall⟩ := h
  have hdrop : ("sha256:".toList ++ hex).drop 7 = hex := List.drop_left' rfl
  rw [← hhex, hdrop, List.all_eq_true] at hall
  exact ⟨hex, hhex.symm, hall⟩

variable {w : WordClass}

theorem redactText_of_isDigest {s : String} (h : isDigest s = true) :
    redactText w s = s := by
  obtain ⟨hex, hs, hhex⟩ := toList_of_isDigest h
  refine redactText_of_numbered ?_ ?_
  · rw [hs, Numbered, List.isChain_append]
    refine ⟨by decide, isChain_of_not_isSign fun c hc => (isHexDigit_plain (hhex c hc)).1, ?_⟩
    intro c _ d hd hsign
    rw [(isHexDigit_plain (hhex d (List.mem_of_mem_head? hd))).1] at hsign
    cases hsign
  · rw [hs, List.mem_append, not_or]
    exact ⟨by decide, fun hA => (isHexDigit_plain (hhex _ hA)).2.1 rfl⟩

theorem strip_of_isDigest {s : String} (h : isDigest s = true) : Text.strip s = s := by
  obtain ⟨hex, hs, hhex⟩ := toList_of_isDigest h
  refine Text.strip_of_not_isSpace fun c hc => ?_
  rw [hs, List.mem_append] at hc
  rcases hc with hc | hc
  · have hprefix : ∀ d ∈ "sha256:".toList, Text.isSpace d = false := by decide
    exact hprefix c hc
  · exact (isHexDigit_plain (hhex c hc)).2.2

theorem hasLowControl_strip {s : String} (h : hasLowControl s = false) :
    hasLowControl (Text.strip s) = false := by
  rw [hasLowControl, List.any_eq_false] at h ⊢
  intro c hc
  rw [Text.strip, String.toList_ofList] at hc
  have hmem : c ∈ s.toList.dropWhile Text.isSpace := (List.rdropWhile_prefix _ _).subset hc
  exact h c ((List.dropWhile_suffix _).subset hmem)

/-! ### Parts of a plan -/

theorem text_eq_ok {value field t : String} {maxLength : ℕ} :
    text value field maxLength = .ok t ↔ Text.strip value ≠ "" ∧
      ¬ (maxLength < (Text.strip value).length ∨ hasLowControl (Text.strip value) = true) ∧
        Text.strip value = t := by
  simp only [text, bind_eq_ok, pure_eq_ok, raiseIf_eq_ok, exists_const]

variable {texts : SolutionTexts}

theorem solutionPlan_eq_ok {solution : SolutionPlan} :
    solutionPlan lib texts = .ok solution ↔
      identifier lib texts.solutionName "solution_name" = .ok solution.name ∧
      text texts.publisherName "publisher_name" 100 = .ok solution.publisherName ∧
      (solution.publisherName.toList.all fun c => c.isAlphanum || c == '_') = true ∧
      isPublisherPrefix texts.publisherPrefix = true ∧
      text texts.outputDirectory "output_directory" 240 = .ok solution.outputDirectory ∧
      texts.publisherPrefix = solution.publisherPrefix := by
  simp only [solutionPlan, bind_eq_ok, pure_eq_ok, raiseIf_eq_ok, not_not]
  constructor
  · rintro ⟨name, hname, publisher, hpublisher, -, hchars, -, hprefix, directory, hdirectory, rfl⟩
    exact ⟨hname, hpublisher, hchars, hprefix, hdirectory, rfl⟩
  · rintro ⟨hname, hpublisher, hchars, hprefix, hdirectory, hsame⟩
    exact ⟨_, hname, _, hpublisher, (), hchars, (), hprefix, _, hdirectory, by rw [hsame]⟩

theorem safeEnvironmentUrl_strip {url : String} (h : safeEnvironmentUrl lib url = .ok true) :
    safeEnvironmentUrl lib (Text.strip url) = .ok true := by
  rw [safeEnvironmentUrl] at h ⊢
  rw [Text.strip_strip]
  split at h
  · cases h
  · next hshort =>
      rw [not_or, Bool.not_eq_true] at hshort
      rw [if_neg (by rw [not_or, hasLowControl_strip hshort.2]; exact ⟨hshort.1, by decide⟩)]
      exact h

variable {count : ℕ}

theorem target_eq_ok {expected : String} {raw : Fields} {t : Target} :
    target lib count expected raw = .ok t ↔ holdsText raw "name" expected = true ∧
      ∃ url, JsonValue.get? raw "environment_url" = some (.text url) ∧
        safeEnvironmentUrl lib url = .ok true ∧ (⟨expected, Text.strip url⟩ : Target) = t := by
  rw [target, bind_eq_ok]
  simp only [raiseIf_eq_ok, not_not, exists_const]
  refine and_congr_right fun _ => ?_
  split
  · next url hurl =>
      simp only [hurl, Option.some.injEq, JsonValue.text.injEq, exists_eq_left', bind_eq_ok,
        raiseIf_eq_ok, pure_eq_ok, not_not]
      constructor
      · rintro ⟨safe, hsafe, -, rfl, ht⟩
        exact ⟨hsafe, ht⟩
      · rintro ⟨hsafe, ht⟩
        exact ⟨true, hsafe, (), rfl, ht⟩
  · next hno =>
      simp only [raise, reduceCtorEq, false_iff, not_exists, not_and]
      intro url hurl
      exact absurd hurl (hno url)

variable {raws : List Fields} {ts : List Target}

theorem targets_eq_ok :
    targets lib raws = .ok ts ↔ (1 ≤ raws.length ∧ raws.length ≤ 3) ∧
      namedTargets lib raws.length targetNames raws = .ok ts := by
  simp [targets, bind_eq_ok]

def Plan.of (lib : Library) (directory : String) (solution : SolutionPlan)
    (targets : List Target) : Plan :=
  ⟨solution, targets, buildStage lib solution ::
    targets.map (Target.stage · (lib.joinPath directory s!"{solution.name}.zip"))⟩

variable {plan : Plan}

theorem buildPlan_eq_ok :
    buildPlan lib texts raws = .ok plan ↔ ∃ solution ts, solutionPlan lib texts = .ok solution ∧
      targets lib raws = .ok ts ∧ Plan.of lib texts.outputDirectory solution ts = plan := by
  simp only [buildPlan, bind_eq_ok, pure_eq_ok, Plan.of]
  constructor
  · rintro ⟨solution, hsolution, ts, hts, rfl⟩
    exact ⟨solution, ts, hsolution, hts, rfl⟩
  · rintro ⟨solution, ts, hsolution, hts, rfl⟩
    exact ⟨solution, hsolution, ts, hts, rfl⟩

/-! ### Redacted solutions and targets -/

def SolutionTexts.redact (w : WordClass) (texts : SolutionTexts) : SolutionTexts :=
  ⟨redactText w texts.solutionName, redactText w texts.publisherName,
    redactText w texts.publisherPrefix, redactText w texts.outputDirectory⟩

/-- Redaction leaves the texts of the plan's solution as they are. -/
structure SolutionTexts.Survives (lib : Library) (texts : SolutionTexts) : Prop where
  name : identifier lib (redactText lib.words texts.solutionName) "solution_name" =
    identifier lib texts.solutionName "solution_name"
  publisherName : redactText lib.words texts.publisherName = texts.publisherName
  publisherPrefix : redactText lib.words texts.publisherPrefix = texts.publisherPrefix
  outputDirectory : redactText lib.words texts.outputDirectory = texts.outputDirectory

theorem text_redactText_iff {value field t : String} {maxLength : ℕ}
    (h : text value field maxLength = .ok t) :
    text (redactText w value) field maxLength = .ok t ↔ redactText w value = value := by
  constructor
  · intro hredacted
    have hsame := (text_eq_ok.mp hredacted).2.2.trans (text_eq_ok.mp h).2.2.symm
    exact strip_redactText_iff.mp hsame
  · intro hsame
    rw [hsame, h]

theorem solutionPlan_redact_iff {solution : SolutionPlan}
    (h : solutionPlan lib texts = .ok solution) :
    solutionPlan lib (texts.redact lib.words) = .ok solution ↔ texts.Survives lib := by
  obtain ⟨hname, hpublisher, hchars, hprefix, hdirectory, hsame⟩ := solutionPlan_eq_ok.mp h
  rw [solutionPlan_eq_ok, ← hname]
  constructor
  · rintro ⟨hname', hpublisher', -, -, hdirectory', hsame'⟩
    exact ⟨hname', (text_redactText_iff hpublisher).mp hpublisher', hsame'.trans hsame.symm,
      (text_redactText_iff hdirectory).mp hdirectory'⟩
  · intro hsurvives
    refine ⟨hsurvives.name, (text_redactText_iff hpublisher).mpr hsurvives.publisherName, hchars,
      ?_, (text_redactText_iff hdirectory).mpr hsurvives.outputDirectory, ?_⟩
    · rwa [SolutionTexts.redact, hsurvives.publisherPrefix]
    · exact hsurvives.publisherPrefix.trans hsame

/-- The keys of the stored fields that are read back. -/
def plainKeys : List String :=
  ["solution_name", "publisher_name", "publisher_prefix", "output_directory", "deployment_targets",
    "stage", "promotion_evidence", "name", "environment_url", "production_readiness", "case_count",
    "status", "available", "strategy"] ++ evidenceKeys

theorem get?_stored {fs : Fields} {key : String} (hkey : key ∈ plainKeys) :
    JsonValue.get? (storedFields w fs) key =
      (JsonValue.get? fs key).map fun v => redactValue w v.sortKeys := by
  have hplain : ∀ key ∈ plainKeys, isSensitiveKey key = false := by decide
  exact get?_storedFields (hplain key hkey)

def payloadWords : List String := ["build", "dev", "test", "prod", "pass", "succeeded"]

theorem redactText_of_word : ∀ s ∈ payloadWords, redactText w s = s := by
  have hplain : ∀ s ∈ payloadWords, (∀ c ∈ s.toList, isSign c = false) ∧ 'A' ∉ s.toList := by
    decide
  exact fun s hs => redactText_of_numbered (isChain_of_not_isSign (hplain s hs).1) (hplain s hs).2

theorem holdsText_iff {raw : Fields} {key expected : String} :
    holdsText raw key expected = true ↔ JsonValue.get? raw key = some (.text expected) := by
  rw [holdsText]
  split
  · next s hs => rw [hs, beq_iff_eq, Option.some.injEq, JsonValue.text.injEq]
  · next hno => exact ⟨nofun, fun h => absurd h (hno expected)⟩

def Target.fields (t : Target) : Fields :=
  [("name", .text t.name), ("environment_url", .text t.environmentUrl)]

theorem get?_storedTarget (w : WordClass) (t : Target) :
    JsonValue.get? (storedFields w t.fields) "name" = some (.text (redactText w t.name)) ∧
      JsonValue.get? (storedFields w t.fields) "environment_url" =
        some (.text (redactText w t.environmentUrl)) := by
  rw [get?_stored (by decide), get?_stored (by decide)]
  exact ⟨rfl, rfl⟩

def plainUrl (w : WordClass) (raw : Fields) : Bool :=
  match JsonValue.get? raw "environment_url" with
  | some (.text url) => redactText w (Text.strip url) == Text.strip url
  | _ => true

theorem target_stored_iff {expected : String} (hname : expected ∈ targetNames)
    {raw : Fields} {t : Target} (h : target lib count expected raw = .ok t) :
    target lib count expected (storedFields lib.words t.fields) = .ok t ↔
      plainUrl lib.words raw = true := by
  obtain ⟨-, url, hurl, hsafe, rfl⟩ := target_eq_ok.mp h
  obtain ⟨hstoredName, hstoredUrl⟩ := get?_storedTarget lib.words ⟨expected, Text.strip url⟩
  have hwords : ∀ name ∈ targetNames, name ∈ payloadWords := by decide
  have hword : redactText lib.words expected = expected :=
    redactText_of_word expected (hwords expected hname)
  rw [target_eq_ok, plainUrl, hurl, hstoredUrl, holdsText_iff, hstoredName]
  simp only [hword, true_and, Option.some.injEq, JsonValue.text.injEq, exists_eq_left',
    Target.mk.injEq, beq_iff_eq]
  constructor
  · rintro ⟨-, hsame⟩
    exact strip_redactText_iff.mp (hsame.trans (Text.strip_strip url).symm)
  · intro hsame
    rw [hsame, Text.strip_strip]
    exact ⟨safeEnvironmentUrl_strip hsafe, rfl⟩

theorem namedTargets_cons_eq_ok {name : String} {names : List String} {raw : Fields} :
    namedTargets lib count (name :: names) (raw :: raws) = .ok ts ↔ ∃ t ts',
      target lib count name raw = .ok t ∧ namedTargets lib count names raws = .ok ts' ∧
        t :: ts' = ts := by
  simp only [namedTargets, bind_eq_ok, pure_eq_ok]
  constructor
  · rintro ⟨t, ht, ts', hts', hsame⟩
    exact ⟨t, ts', ht, hts', hsame⟩
  · rintro ⟨t, ts', ht, hts', hsame⟩
    exact ⟨t, ht, ts', hts', hsame⟩

theorem length_namedTargets {names : List String}
    (hlength : raws.length ≤ names.length)
    (h : namedTargets lib count names raws = .ok ts) : ts.length = raws.length := by
  induction names generalizing raws ts with
  | nil =>
      rw [List.length_eq_zero_iff.mp (Nat.le_zero.mp hlength)] at h ⊢
      cases h
      rfl
  | cons name names ih =>
      cases raws with
      | nil =>
          cases h
          rfl
      | cons raw raws =>
          obtain ⟨t, ts', -, hts', rfl⟩ := namedTargets_cons_eq_ok.mp h
          simpa using ih (by simpa using hlength) hts'

theorem namedTargets_stored_iff {names : List String}
    (hnames : ∀ name ∈ names, name ∈ targetNames)
    (hlength : raws.length ≤ names.length) (h : namedTargets lib count names raws = .ok ts) :
    namedTargets lib count names (ts.map fun t => storedFields lib.words t.fields) = .ok ts ↔
      ∀ raw ∈ raws, plainUrl lib.words raw = true := by
  induction names generalizing raws ts with
  | nil =>
      rw [List.length_eq_zero_iff.mp (Nat.le_zero.mp hlength)] at h ⊢
      cases h
      simp [namedTargets]
  | cons name names ih =>
      rw [List.forall_mem_cons] at hnames
      cases raws with
      | nil =>
          cases h
          simp [namedTargets]
      | cons raw raws =>
          obtain ⟨t, ts', ht, hts', rfl⟩ := namedTargets_cons_eq_ok.mp h
          rw [List.map_cons, namedTargets_cons_eq_ok, List.forall_mem_cons,
            ← target_stored_iff hnames.1 ht, ← ih hnames.2 (by simpa using hlength) hts']
          simp [List.cons.injEq]

theorem targets_stored_iff (h : targets lib raws = .ok ts) :
    targets lib (ts.map fun t => storedFields lib.words t.fields) = .ok ts ↔
      ∀ raw ∈ raws, plainUrl lib.words raw = true := by
  obtain ⟨hcount, hts⟩ := targets_eq_ok.mp h
  have hlength := length_namedTargets hcount.2 hts
  rw [targets_eq_ok, List.length_map, hlength, and_iff_right hcount,
    namedTargets_stored_iff (fun _ hname => hname) hcount.2 hts]

/-! ### Evidence -/

theorem digest_eq_ok {value : JsonValue} {field d : String} :
    digest value field = .ok d ↔ ∃ s, value = .text s ∧ isDigest (Text.strip s) = true ∧
      Text.strip s = d := by
  cases value with
  | text s =>
      rw [digest]
      split
      · next h => simp [h]
      · next h => simp [h, raise]
  | _ => simp [digest, raise]

theorem rejectKeys_eq_ok {value : Fields} {allowed : List String} {field : String} {u : Unit} :
    rejectKeys value allowed field = .ok u ↔ ∀ key ∈ value.map Prod.fst, key ∈ allowed := by
  have hnone (keys : List String) : keys.insertionSort (· ≤ ·) = [] ↔ keys = [] := by
    rw [← List.length_eq_zero_iff, List.length_insertionSort, List.length_eq_zero_iff]
  simp [rejectKeys, hnone]

/-- A part that does not have the form that is read. -/
theorem error_eq_ok_iff_exists {ε α β : Type} {e : ε} {a : α} {P Q : β → Prop}
    (hno : ∀ b, ¬ P b) : (.error e : Except ε α) = .ok a ↔ ∃ b, P b ∧ Q b := by
  refine iff_of_false (fun h => by cases h) ?_
  rintro ⟨b, hb, -⟩
  exact hno b hb

theorem sourceApprovalId_eq_ok {raw : Fields} {n : ℤ} :
    sourceApprovalId raw = .ok n ↔
      JsonValue.get? raw "source_approval_request_id" = some (.int n) ∧ 0 < n := by
  rw [sourceApprovalId]
  split
  · next m hm =>
      simp only [hm, bind_eq_ok, raiseIf_eq_ok, pure_eq_ok, exists_const, Option.some.injEq,
        JsonValue.int.injEq, not_le]
      constructor
      · rintro ⟨hpos, rfl⟩
        exact ⟨rfl, hpos⟩
      · rintro ⟨rfl, hpos⟩
        exact ⟨hpos, rfl⟩
  · next hno => exact iff_of_false (fun h => by cases h) fun h => hno n h.1

theorem evaluation_eq_ok {raw : Fields} {n : ℤ} :
    evaluation raw = .ok n ↔ ∃ fields, JsonValue.get? raw "evaluation" = some (.object fields) ∧
      holdsText fields "production_readiness" "pass" = true ∧
        (JsonValue.get? fields "case_count").getD (.int 0) = .int n ∧ 0 ≤ n ∧ n ≤ 100000 := by
  rw [evaluation]
  split
  · next fields hfields =>
      simp only [hfields, Option.some.injEq, JsonValue.object.injEq, exists_eq_left', bind_eq_ok,
        raiseIf_eq_ok, exists_const, not_not]
      refine and_congr_right fun _ => ?_
      split
      · next m hm =>
          simp only [hm, bind_eq_ok, raiseIf_eq_ok, exists_const, not_not, pure_eq_ok,
            JsonValue.int.injEq]
          constructor
          · rintro ⟨hbounds, rfl⟩
            exact ⟨rfl, hbounds⟩
          · rintro ⟨rfl, hbounds⟩
            exact ⟨hbounds, rfl⟩
      · next hno => exact iff_of_false (fun h => by cases h) fun h => hno n h.1
  · next hno => exact error_eq_ok_iff_exists hno

theorem governance_eq_ok {raw : Fields} {u : Unit} :
    governance raw = .ok u ↔ ∃ fields, JsonValue.get? raw "governance" = some (.object fields) ∧
      holdsText fields "status" "pass" = true := by
  rw [governance]
  split
  · next fields hfields => simp [hfields]
  · next hno => exact error_eq_ok_iff_exists hno

theorem rollback_eq_ok {raw : Fields} {strategy rollbackDigest : String} :
    rollback raw = .ok (strategy, rollbackDigest) ↔
      ∃ fields, JsonValue.get? raw "rollback" = some (.object fields) ∧
        holdsTrue fields "available" = true ∧
          ∃ s, JsonValue.get? fields "strategy" = some (.text s) ∧
            (1 ≤ (Text.strip s).length ∧ (Text.strip s).length ≤ 120) ∧
              digest (JsonValue.get fields "artifact_digest")
                "promotion_evidence.rollback.artifact_digest" = .ok rollbackDigest ∧
                  Text.strip s = strategy := by
  rw [rollback]
  split
  · next fields hfields =>
      simp only [hfields, Option.some.injEq, JsonValue.object.injEq, exists_eq_left', bind_eq_ok,
        raiseIf_eq_ok, exists_const, not_not]
      refine and_congr_right fun _ => ?_
      split
      · next s hs =>
          simp only [hs, Option.some.injEq, JsonValue.text.injEq, exists_eq_left', bind_eq_ok,
            raiseIf_eq_ok, exists_const, not_not, pure_eq_ok, Prod.mk.injEq]
          refine and_congr_right fun _ => ?_
          constructor
          · rintro ⟨d, hd, rfl, rfl⟩
            exact ⟨hd, rfl⟩
          · rintro ⟨hd, rfl⟩
            exact ⟨rollbackDigest, hd, rfl, rfl⟩
      · next hno => exact error_eq_ok_iff_exists hno
  · next hno => exact error_eq_ok_iff_exists hno

/-- What is checked of evidence. -/
structure IsEvidence (source : String) (raw : Fields) (e : PromotionEvidence) : Prop where
  keys : ∀ key ∈ raw.map Prod.fst, key ∈ evidenceKeys
  stage : holdsText raw "source_stage" source = true
  status : holdsText raw "source_status" "succeeded" = true
  sourceId : sourceApprovalId raw = .ok e.sourceApprovalRequestId
  artifact : digest (JsonValue.get raw "artifact_digest") "promotion_evidence.artifact_digest" =
    .ok e.artifactDigest
  evaluation : evaluation raw = .ok e.caseCount
  governance : governance raw = .ok ()
  rollback : rollback raw = .ok (e.strategy, e.rollbackDigest)
  source : source = e.sourceStage

variable {e : PromotionEvidence}

theorem promotionEvidence_eq_ok {source : String} {raw : Fields} :
    promotionEvidence source raw = .ok e ↔ IsEvidence source raw e := by
  simp only [promotionEvidence, bind_eq_ok, raiseIf_eq_ok, rejectKeys_eq_ok, exists_const, not_not,
    pure_eq_ok]
  constructor
  · rintro ⟨hkeys, hstage, hstatus, id, hid, artifact, hartifact, count, hcount, _, hgovernance,
      ⟨strategy, rollbackDigest⟩, hrollback, rfl⟩
    exact ⟨hkeys, hstage, hstatus, hid, hartifact, hcount, hgovernance, hrollback, rfl⟩
  · intro h
    exact ⟨h.keys, h.stage, h.status, _, h.sourceId, _, h.artifact, _, h.evaluation, (),
      h.governance, _, h.rollback, by rw [h.source]⟩

theorem holdsTrue_iff {raw : Fields} {key : String} :
    holdsTrue raw key = true ↔ JsonValue.get? raw key = some (.bool true) := by
  rw [holdsTrue]
  split
  · next h => simp [h]
  · next hno => exact ⟨nofun, fun h => absurd h hno⟩

theorem digest_redactText {d field : String} (h : isDigest d = true) :
    digest (.text (redactText w d)) field = .ok d := by
  rw [redactText_of_isDigest h, digest_eq_ok]
  exact ⟨d, rfl, by rwa [strip_of_isDigest h], strip_of_isDigest h⟩

def PromotionEvidence.evaluationFields (e : PromotionEvidence) : Fields :=
  [("production_readiness", .text "pass"), ("case_count", .int e.caseCount)]

def PromotionEvidence.rollbackFields (e : PromotionEvidence) : Fields :=
  [("available", .bool true), ("strategy", .text e.strategy),
    ("artifact_digest", .text e.rollbackDigest)]

/-- What a stage reads of stored evidence. -/
structure StoredEvidence (w : WordClass) (e : PromotionEvidence) (raw : Fields) : Prop where
  keys : ∀ key ∈ raw.map Prod.fst, key ∈ evidenceKeys
  stage : JsonValue.get? raw "source_stage" = some (.text (redactText w e.sourceStage))
  status : JsonValue.get? raw "source_status" = some (.text (redactText w "succeeded"))
  sourceId : JsonValue.get? raw "source_approval_request_id" =
    some (.int e.sourceApprovalRequestId)
  artifact : JsonValue.get? raw "artifact_digest" = some (.text (redactText w e.artifactDigest))
  evaluation : JsonValue.get? raw "evaluation" = some (.object (storedFields w e.evaluationFields))
  governance : JsonValue.get? raw "governance" =
    some (.object (storedFields w [("status", .text "pass")]))
  rollback : JsonValue.get? raw "rollback" = some (.object (storedFields w e.rollbackFields))

theorem storedEvidence (w : WordClass) (e : PromotionEvidence) :
    StoredEvidence w e (storedFields w e.fields) := by
  refine ⟨fun key hkey => (keys_storedFields_perm w e.fields).mem_iff.mp hkey, ?_, ?_, ?_, ?_, ?_,
    ?_, ?_⟩ <;> exact get?_stored (by decide)

theorem holdsText_storedWord {fs : Fields} {key word : String} (hkey : key ∈ plainKeys)
    (hword : word ∈ payloadWords) (h : holdsText fs key word = true) :
      holdsText (storedFields w fs) key word = true := by
  rw [holdsText_iff] at h ⊢
  rw [get?_stored hkey, h]
  simp [sortKeys, redactValue, redactText_of_word word hword]

theorem evaluation_stored
    (hcount : 0 ≤ e.caseCount ∧ e.caseCount ≤ 100000) {raw : Fields}
    (hstored : StoredEvidence w e raw) : evaluation raw = .ok e.caseCount := by
  have hcase : JsonValue.get? (storedFields w e.evaluationFields) "case_count" =
      some (.int e.caseCount) := get?_stored (by decide)
  exact evaluation_eq_ok.mpr ⟨_, hstored.evaluation,
    holdsText_storedWord (by decide) (by decide)
      (holdsText_iff.mpr rfl), by rw [hcase]; rfl, hcount⟩

theorem governance_stored {raw : Fields}
    (hstored : StoredEvidence w e raw) : governance raw = .ok () :=
  governance_eq_ok.mpr ⟨_, hstored.governance,
    holdsText_storedWord (by decide) (by decide) (holdsText_iff.mpr rfl)⟩

/-- The strategy of stored evidence may have grown too long. -/
theorem rollback_stored_iff
    (hstrategy : Text.strip e.strategy ≠ "") (hdigest : isDigest e.rollbackDigest = true)
    {raw : Fields} (hstored : StoredEvidence w e raw) :
    (∃ result, rollback raw = .ok result) ↔
      (Text.strip (redactText w e.strategy)).length ≤ 120 := by
  have havailable : JsonValue.get? (storedFields w e.rollbackFields) "available" =
      some (.bool true) := get?_stored (by decide)
  have htext : JsonValue.get? (storedFields w e.rollbackFields) "strategy" =
      some (.text (redactText w e.strategy)) := get?_stored (by decide)
  have hartifact : JsonValue.get? (storedFields w e.rollbackFields) "artifact_digest" =
      some (.text (redactText w e.rollbackDigest)) := get?_stored (by decide)
  constructor
  · rintro ⟨⟨strategy, rollbackDigest⟩, hrollback⟩
    obtain ⟨fields, hfields, -, s, hs, hlength, -⟩ := rollback_eq_ok.mp hrollback
    rw [hstored.rollback, Option.some.injEq, JsonValue.object.injEq] at hfields
    rw [← hfields, htext, Option.some.injEq, JsonValue.text.injEq] at hs
    rw [hs]
    exact hlength.2
  · intro hlength
    have hne : Text.strip (redactText w e.strategy) ≠ "" :=
      fun hempty => hstrategy (strip_redactText_eq_empty_iff.mp hempty)
    have hpos : (Text.strip (redactText w e.strategy)).length ≠ 0 := fun hzero =>
      hne (String.length_eq_zero_iff.mp hzero)
    refine ⟨(Text.strip (redactText w e.strategy), e.rollbackDigest), rollback_eq_ok.mpr
      ⟨_, hstored.rollback, holdsTrue_iff.mpr havailable, _, htext, ⟨by omega, hlength⟩, ?_, rfl⟩⟩
    rw [JsonValue.get, hartifact]
    exact digest_redactText hdigest

theorem promotionEvidence_stored_iff {source : String}
    (hsource : source ∈ payloadWords) {raw : Fields}
    (h : promotionEvidence source raw = .ok e) :
    (∃ e', promotionEvidence source (storedFields w e.fields) = .ok e') ↔
      (Text.strip (redactText w e.strategy)).length ≤ 120 := by
  have hevidence := promotionEvidence_eq_ok.mp h
  have hstored := storedEvidence w e
  obtain ⟨s, -, hartifact, hsame⟩ := digest_eq_ok.mp hevidence.artifact
  obtain ⟨fields, -, -, -, hcount⟩ := evaluation_eq_ok.mp hevidence.evaluation
  obtain ⟨fields, -, -, text, -, hlength, hdigest, hstrategy⟩ :=
    rollback_eq_ok.mp hevidence.rollback
  obtain ⟨s', -, hrollback, hsame'⟩ := digest_eq_ok.mp hdigest
  have hne : Text.strip e.strategy ≠ "" := by
    rw [← hstrategy, Text.strip_strip]
    intro hempty
    rw [hempty] at hlength
    exact absurd hlength.1 (by decide)
  rw [← rollback_stored_iff hne (hsame' ▸ hrollback) hstored]
  constructor
  · rintro ⟨e', he'⟩
    exact ⟨_, (promotionEvidence_eq_ok.mp he').rollback⟩
  · rintro ⟨⟨strategy, rollbackDigest⟩, hresult⟩
    refine ⟨⟨source, e.sourceApprovalRequestId, e.artifactDigest, e.caseCount, strategy,
      rollbackDigest⟩, promotionEvidence_eq_ok.mpr ⟨hstored.keys, ?_, ?_, ?_, ?_,
        evaluation_stored hcount hstored, governance_stored hstored, hresult, rfl⟩⟩
    · rw [holdsText_iff, hstored.stage, ← hevidence.source, redactText_of_word source hsource]
    · rw [holdsText_iff, hstored.status, redactText_of_word _ (by decide)]
    · exact sourceApprovalId_eq_ok.mpr
        ⟨hstored.sourceId, (sourceApprovalId_eq_ok.mp hevidence.sourceId).2⟩
    · rw [JsonValue.get, hstored.artifact]
      exact digest_redactText (hsame ▸ hartifact)

/-! ### Stored requests -/

/-- What the plan is rebuilt from. -/
structure StoredRequest (w : WordClass) (texts : SolutionTexts) (ts : List Target) (stage : Stage)
    (evidence : JsonValue) (payload : Fields) : Prop where
  solutionName : JsonValue.get? payload "solution_name" =
    some (.text (redactText w texts.solutionName))
  publisherName : JsonValue.get? payload "publisher_name" =
    some (.text (redactText w texts.publisherName))
  publisherPrefix : JsonValue.get? payload "publisher_prefix" =
    some (.text (redactText w texts.publisherPrefix))
  outputDirectory : JsonValue.get? payload "output_directory" =
    some (.text (redactText w texts.outputDirectory))
  targets : JsonValue.get? payload "deployment_targets" =
    some (.array (ts.map fun t => .object (storedFields w t.fields)))
  stage : JsonValue.get? payload "stage" = some (.text stage.id)
  evidence : (JsonValue.get? payload "promotion_evidence").getD (.object []) = evidence

theorem mapM_objectFields? (raws : List Fields) :
    (raws.map JsonValue.object).mapM objectFields? = some raws := by
  induction raws with
  | nil => rfl
  | cons raw raws ih =>
      rw [List.map_cons, List.mapM_cons, ih]
      rfl

variable {payload : Fields}

theorem payloadTargets_of_objects
    (h : JsonValue.get? payload "deployment_targets" = some (.array (raws.map .object))) :
    payloadTargets payload = .ok raws := by
  rw [payloadTargets, h]
  dsimp only
  rw [mapM_objectFields?]

theorem planFromPayload_eq_ok {stage : Stage}
    {evidence : JsonValue}
    (h : StoredRequest lib.words texts ts stage evidence payload)
    {e : Option PromotionEvidence} : planFromPayload lib payload = .ok (plan, e) ↔
      buildPlan lib (texts.redact lib.words)
          (ts.map fun t => storedFields lib.words t.fields) = .ok plan ∧
        validatePromotionEvidence stage.id evidence = .ok e := by
  have hobjects : JsonValue.get? payload "deployment_targets" =
      some (.array ((ts.map fun t => storedFields lib.words t.fields).map .object)) := by
    rw [h.targets, List.map_map]
    rfl
  have htargets := payloadTargets_of_objects hobjects
  simp only [planFromPayload, payloadText, h.solutionName, h.publisherName, h.publisherPrefix,
    h.outputDirectory, htargets, h.stage, h.evidence, ok_bind, bind_eq_ok, pure_eq_ok,
    Prod.mk.injEq]
  constructor
  · rintro ⟨plan, hplan, e, he, rfl, rfl⟩
    exact ⟨hplan, he⟩
  · rintro ⟨hplan, he⟩
    exact ⟨plan, hplan, e, he, rfl, rfl⟩

theorem buildPlan_stored_iff
    (h : buildPlan lib texts raws = .ok plan) :
    buildPlan lib (texts.redact lib.words)
        (plan.targets.map fun t => storedFields lib.words t.fields) = .ok plan ↔
      texts.Survives lib ∧ ∀ raw ∈ raws, plainUrl lib.words raw = true := by
  obtain ⟨solution, ts, hsolution, hts, rfl⟩ := buildPlan_eq_ok.mp h
  rw [buildPlan_eq_ok, ← solutionPlan_redact_iff hsolution, ← targets_stored_iff hts]
  constructor
  · rintro ⟨solution', ts', hsolution', hts', hplan⟩
    obtain ⟨rfl, rfl, -⟩ := Plan.mk.inj hplan
    exact ⟨hsolution', hts'⟩
  · rintro ⟨hsolution', hts'⟩
    have hdirectory := ((solutionPlan_redact_iff hsolution).mp hsolution').outputDirectory
    exact ⟨solution, ts, hsolution', hts', by rw [SolutionTexts.redact, hdirectory]⟩

theorem floatless_targets (ts : List Target) :
    floatlessItems (ts.map Target.json) = true := by
  induction ts with
  | nil => rfl
  | cons t ts ih => rw [List.map_cons, floatlessItems, ih]; rfl

theorem floatless_evidence (evidence : Option PromotionEvidence) :
    floatlessFields ((evidence.map PromotionEvidence.fields).getD []) = true := by
  cases evidence <;> rfl

theorem DeploymentRequest.exact_payload (request : DeploymentRequest) (ts : List Target)
    (evidence : Option PromotionEvidence) (floats : FloatRepr) :
    (JsonValue.object (request.payload ts evidence)).exact floats = true :=
  floatsMeet_of_floatless _ (by
    simp [payload, sharedFields, floatless, floatlessFields, floatless_targets,
      floatless_evidence])

theorem RollbackRequest.exact_payload (request : RollbackRequest) (ts : List Target)
    (path artifactDigest : String) (floats : FloatRepr) :
    (JsonValue.object (request.payload ts path artifactDigest)).exact floats = true :=
  floatsMeet_of_floatless _ (by
    simp [payload, sharedFields, floatless, floatlessFields, floatless_targets])

theorem sortKeys_targets (w : WordClass) (ts : List Target) :
    redactValue w (sortKeys (.array (ts.map Target.json))) =
      .array (ts.map fun t => .object (storedFields w t.fields)) := by
  rw [sortKeys, redactValue, redactItems_eq_map, sortItems_eq_map, List.map_map, List.map_map]
  rfl

theorem redactText_stage (w : WordClass) (stage : Stage) :
    redactText w stage.id = stage.id := by
  cases stage <;> exact redactText_of_word _ (by decide)

theorem DeploymentRequest.stored (lib : Library) (request : DeploymentRequest) (ts : List Target)
    (evidence : Option PromotionEvidence) :
    StoredRequest lib.words request.texts ts request.stage
      (.object (storedFields lib.words ((evidence.map PromotionEvidence.fields).getD [])))
      (storedPayload lib (request.payload ts evidence)) := by
  rw [storedPayload, jsonObject_stored lib.floats (request.exact_payload ts evidence lib.floats)]
  refine ⟨?_, ?_, ?_, ?_, ?_, ?_, ?_⟩ <;>
    rw [get?_stored (by decide)]
  · rfl
  · rfl
  · rfl
  · rfl
  · exact congrArg some (sortKeys_targets lib.words ts)
  · exact congrArg (fun s => some (JsonValue.text s)) (redactText_stage lib.words request.stage)
  · rfl

theorem RollbackRequest.stored (lib : Library) (request : RollbackRequest) (ts : List Target)
    (path artifactDigest : String) :
    StoredRequest lib.words request.texts ts request.stage (.object [])
      (storedPayload lib (request.payload ts path artifactDigest)) := by
  rw [storedPayload,
    jsonObject_stored lib.floats (request.exact_payload ts path artifactDigest lib.floats)]
  refine ⟨?_, ?_, ?_, ?_, ?_, ?_, ?_⟩ <;>
    rw [get?_stored (by decide)]
  · rfl
  · rfl
  · rfl
  · rfl
  · exact congrArg some (sortKeys_targets lib.words ts)
  · exact congrArg (fun s => some (JsonValue.text s)) (redactText_stage lib.words request.stage)
  · rfl

/-! ### Accepted requests -/

/-- The stored payload gives the plan once more. -/
def Rebuilds (lib : Library) (plan : Plan) (payload : Fields) : Prop :=
  ∃ evidence, planFromPayload lib (storedPayload lib payload) = .ok (plan, evidence)

theorem StoredRequest.rebuilds_iff
    {stage : Stage} {evidence : JsonValue}
    (h : StoredRequest lib.words texts plan.targets stage evidence (storedPayload lib payload))
    (hplan : buildPlan lib texts raws = .ok plan) :
    Rebuilds lib plan payload ↔ (texts.Survives lib ∧ ∀ raw ∈ raws, plainUrl lib.words raw = true) ∧
      ∃ e, validatePromotionEvidence stage.id evidence = .ok e := by
  simp only [Rebuilds, planFromPayload_eq_ok h, buildPlan_stored_iff hplan, exists_and_left]

def strategy? (evidence : Fields) : Option String :=
  match JsonValue.get? evidence "rollback" with
  | some (.object fields) =>
      match JsonValue.get? fields "strategy" with
      | some (.text s) => some s
      | _ => none
  | _ => none

/-- The strategy is short enough once it is redacted. -/
def ShortStrategy (w : WordClass) (evidence : Fields) : Prop :=
  ∀ s, strategy? evidence = some s →
    (Text.strip (redactText w (Text.strip s))).length ≤ 120

theorem shortStrategy_iff {source : String} {raw : Fields}
    (h : promotionEvidence source raw = .ok e) :
    ShortStrategy w raw ↔ (Text.strip (redactText w e.strategy)).length ≤ 120 := by
  obtain ⟨fields, hfields, -, s, hs, -, -, hstrategy⟩ :=
    rollback_eq_ok.mp (promotionEvidence_eq_ok.mp h).rollback
  rw [ShortStrategy, strategy?, hfields]
  dsimp only
  rw [hs, ← hstrategy]
  simp

theorem promotionSource?_stage (stage : Stage) : promotionSource? stage.id = some none ∨
    ∃ source ∈ payloadWords, promotionSource? stage.id = some (some source) := by
  cases stage with
  | build => exact .inl rfl
  | dev => exact .inl rfl
  | test => exact .inr ⟨"dev", by decide, rfl⟩
  | prod => exact .inr ⟨"test", by decide, rfl⟩

theorem validatePromotionEvidence_of_none {stage : String}
    (h : promotionSource? stage = some none) {raw : Fields} {evidence : Option PromotionEvidence} :
    validatePromotionEvidence stage (.object raw) = .ok evidence ↔ raw = [] ∧ none = evidence := by
  unfold validatePromotionEvidence
  rw [h]
  cases raw with
  | nil => simp
  | cons f fs => simp [raise]

theorem validatePromotionEvidence_of_source {stage source : String}
    (h : promotionSource? stage = some (some source)) {raw : Fields}
    {evidence : Option PromotionEvidence} :
    validatePromotionEvidence stage (.object raw) = .ok evidence ↔
      raw ≠ [] ∧ ∃ e, promotionEvidence source raw = .ok e ∧ some e = evidence := by
  unfold validatePromotionEvidence
  rw [h]
  cases raw with
  | nil => simp [raise]
  | cons f fs => simp [bind_eq_ok, pure_eq_ok, -bind_pure_comp]

theorem validatePromotionEvidence_stored_iff {stage : Stage} {raw : Fields}
    {evidence : Option PromotionEvidence}
    (h : validatePromotionEvidence stage.id (.object raw) = .ok evidence) :
    (∃ e, validatePromotionEvidence stage.id
        (.object (storedFields w ((evidence.map PromotionEvidence.fields).getD []))) = .ok e) ↔
      ShortStrategy w raw := by
  rcases promotionSource?_stage stage with hstage | ⟨source, hsource, hstage⟩
  · obtain ⟨rfl, rfl⟩ := (validatePromotionEvidence_of_none hstage).mp h
    exact iff_of_true ⟨none, (validatePromotionEvidence_of_none hstage).mpr ⟨rfl, rfl⟩⟩ nofun
  · obtain ⟨-, e, he, rfl⟩ := (validatePromotionEvidence_of_source hstage).mp h
    have hfields : storedFields w e.fields ≠ [] := fun hnil => by
      have hlength := (keys_storedFields_perm w e.fields).length_eq
      rw [hnil] at hlength
      cases hlength
    rw [shortStrategy_iff he, ← promotionEvidence_stored_iff hsource he]
    simp only [validatePromotionEvidence_of_source hstage, Option.map_some, Option.getD_some,
      ne_eq, hfields, not_false_eq_true, true_and]
    exact ⟨fun ⟨_, e', he', _⟩ => ⟨e', he'⟩, fun ⟨e', he'⟩ => ⟨some e', e', he', rfl⟩⟩

theorem DeploymentRequest.rebuilds_iff {source : ℤ → Option SourceRecord}
    {request : DeploymentRequest}
    (h : requestDeployment lib source request = .ok (plan, payload)) :
    Rebuilds lib plan payload ↔ (request.texts.Survives lib ∧
        ∀ raw ∈ request.targets, plainUrl lib.words raw = true) ∧
      ShortStrategy lib.words request.promotionEvidence := by
  obtain ⟨plan', hplan, h⟩ := bind_eq_ok.mp h
  obtain ⟨evidence, hevidence, h⟩ := bind_eq_ok.mp h
  have hresult : (plan', request.payload plan'.targets evidence) = (plan, payload) := by
    dsimp only at h
    split at h
    · exact pure_eq_ok.mp h
    · obtain ⟨-, -, h⟩ := bind_eq_ok.mp h
      exact pure_eq_ok.mp h
  cases hresult
  rw [(request.stored lib plan.targets evidence).rebuilds_iff hplan,
    validatePromotionEvidence_stored_iff hevidence]

theorem RollbackRequest.rebuilds_iff {archive : Archive} {request : RollbackRequest}
    (h : requestRollback lib archive request = .ok (plan, payload)) :
    Rebuilds lib plan payload ↔ (request.texts.Survives lib ∧
        ∀ raw ∈ request.targets, plainUrl lib.words raw = true) ∧ request.stage = .dev := by
  obtain ⟨plan', hplan, h⟩ := bind_eq_ok.mp h
  obtain ⟨expected, -, h⟩ := bind_eq_ok.mp h
  obtain ⟨actual, -, h⟩ := bind_eq_ok.mp h
  obtain ⟨-, -, h⟩ := bind_eq_ok.mp h
  cases pure_eq_ok.mp h
  rw [(request.stored lib plan.targets archive.path expected).rebuilds_iff hplan]
  refine and_congr_right fun _ => ?_
  cases hstage : request.stage with
  | build => exact absurd hstage request.notBuild
  | dev => exact ⟨fun _ => rfl, fun _ => ⟨none, rfl⟩⟩
  | test => exact ⟨nofun, nofun⟩
  | prod => exact ⟨nofun, nofun⟩

/-- Redaction leaves what the plan shows as it is, and the stage of a rollback needs no promotion
evidence. -/
def ApprovalRequest.Survives (lib : Library) : ApprovalRequest → Prop
  | deployment _ request => (request.texts.Survives lib ∧
        ∀ raw ∈ request.targets, plainUrl lib.words raw = true) ∧
      ShortStrategy lib.words request.promotionEvidence
  | rollback _ request => (request.texts.Survives lib ∧
        ∀ raw ∈ request.targets, plainUrl lib.words raw = true) ∧ request.stage = .dev

/-- The plan of an accepted request is rebuilt exactly when the request survives. -/
theorem rebuilds_iff_survives {request : ApprovalRequest} {plan : Plan} {payload : Fields}
    (h : request.accept lib = .ok (plan, payload)) :
    Rebuilds lib plan payload ↔ request.Survives lib := by
  cases request with
  | deployment source request => exact request.rebuilds_iff h
  | rollback archive request => exact request.rebuilds_iff h

section Example

/-- A library whose functions are those of Python on the texts below. -/
def exampleLibrary : Library where
  words := .known
  floats := .verbatim
  casefold := Text.lower
  joinPath directory name := directory ++ "/" ++ name
  urlsplit url :=
    if "https://".toList.isPrefixOf url.toList then
      some ⟨"https", String.ofList (url.toList.drop 8), "", "", "", ""⟩
    else some ⟨"", "", "", "", "", ""⟩

def exampleTexts : SolutionTexts := ⟨"helpdesk", "Contoso", "con", "out/helpdesk"⟩

def exampleTarget (name : String) : Fields :=
  [("name", .text name), ("environment_url", .text s!"https://{name}.crm.example.com")]

def exampleDigest : String := "sha256:" ++ String.ofList (List.replicate 64 'a')

/-- A rollback of the archive that the evidence names. -/
def exampleRollback (stage : Stage) (notBuild : stage ≠ .build) : ApprovalRequest :=
  .rollback ⟨"/workspace/helpdesk.zip", .ok exampleDigest⟩
    { clientId := "acme"
      texts := exampleTexts
      targets := [exampleTarget "dev", exampleTarget "test"]
      stage
      notBuild
      evidence := [("available", .bool true), ("strategy", .text rollbackStrategy),
        ("artifact_digest", .text exampleDigest)] }

theorem rebuilds_iff_survives_dev : ∃ plan payload,
    (exampleRollback .dev (by decide)).accept exampleLibrary = .ok (plan, payload) ∧
      Rebuilds exampleLibrary plan payload := by
  obtain ⟨⟨plan, payload⟩, haccept⟩ := exists_eq_ok (x := (exampleRollback .dev (by decide)).accept
    exampleLibrary) (by decide)
  have htexts : exampleTexts.Survives exampleLibrary :=
    ⟨by decide, by decide, by decide, by decide⟩
  exact ⟨plan, payload, haccept,
    (rebuilds_iff_survives haccept).mpr ⟨⟨htexts, by decide⟩, rfl⟩⟩

/-- A rollback of the test stage is accepted, and its plan is not rebuilt. -/
theorem not_rebuilds : ¬ ∀ (lib : Library) (request : ApprovalRequest) (plan : Plan)
    (payload : Fields), request.accept lib = .ok (plan, payload) → Rebuilds lib plan payload := by
  intro hall
  obtain ⟨⟨plan, payload⟩, haccept⟩ := exists_eq_ok (x := (exampleRollback .test
    (by decide)).accept exampleLibrary) (by decide)
  have hsurvives := RollbackRequest.rebuilds_iff haccept |>.mp (hall _ _ _ _ haccept)
  cases hsurvives.2

end Example

end WaitLocalAgent.Deployment
