import WaitLocalAgent.Model.BaselineDrift

/-! # Which drift is found

Nothing is found between sections that are alike. Sections with other canonical texts may be alike:
numbers are compared by what they stand for, and an empty mapping that is new or removed has no
entry to report. -/

namespace WaitLocalAgent.Baselines

open Foundation JsonValue

theorem canonicalizeFields_eq_map (fields : List (String × JsonValue)) :
    canonicalizeFields fields = fields.map fun entry => (entry.1, canonicalize entry.2) := by
  induction fields with
  | nil => rfl
  | cons entry fields ih => simp [canonicalizeFields, ih]

theorem canonicalizeItems_eq_map (items : List JsonValue) :
    canonicalizeItems items = items.map canonicalize := by
  induction items with
  | nil => rfl
  | cons item items ih => simp [canonicalizeItems, ih]

theorem get?_canonicalize (fields : List (String × JsonValue)) (key : String) :
    get? (byKey (canonicalizeFields fields)) key = (get? fields key).map canonicalize := by
  rw [get?_byKey, canonicalizeFields_eq_map, get?_map fun _ => canonicalize]

theorem mem_canonicalize {fields : List (String × JsonValue)} {key : String} {value : JsonValue} :
    (key, value) ∈ byKey (canonicalizeFields fields) ↔
      ∃ original, (key, original) ∈ fields ∧ canonicalize original = value := by
  rw [(byKey_perm _).mem_iff, canonicalizeFields_eq_map, List.mem_map]
  simp [and_left_comm]

section Values

variable {number : String → ℚ}

theorem pyEqFields_iff {fields others : List (String × JsonValue)} :
    pyEqFields number fields others = true ↔ ∀ key value, (key, value) ∈ fields →
      ∃ other, get? others key = some other ∧ pyEq number value other = true := by
  induction fields with
  | nil => simp [pyEqFields]
  | cons entry fields ih =>
      rw [pyEqFields, Bool.and_eq_true, ih]
      cases hget : get? others entry.1 with
      | none => simpa using ⟨entry.1, entry.2, .inl rfl, by simp [hget]⟩
      | some other =>
          constructor
          · intro ⟨hentry, hfields⟩ key value hmem
            rcases List.mem_cons.mp hmem with rfl | hmem
            · exact ⟨other, hget, hentry⟩
            · exact hfields key value hmem
          · intro h
            refine ⟨?_, fun key value hmem => h key value (List.mem_cons_of_mem _ hmem)⟩
            obtain ⟨other', hget', heq⟩ := h entry.1 entry.2 List.mem_cons_self
            rw [hget, Option.some.injEq] at hget'
            rw [hget']
            exact heq

/-- Two mappings have the same keys, and values that are equal once they are canonical. -/
def Agree (number : String → ℚ) (before after : List (String × JsonValue)) : Prop :=
  (∀ key value, (key, value) ∈ before → ∃ other, get? after key = some other ∧
    pyEq number (canonicalize value) (canonicalize other) = true) ∧
  ∀ key value, (key, value) ∈ after → (get? before key).isSome = true

theorem pyEq_canonicalize_iff {before after : List (String × JsonValue)} :
    pyEq number (canonicalize (.object before)) (canonicalize (.object after)) = true ↔
      Agree number before after := by
  rw [canonicalize, canonicalize, pyEq, Bool.and_eq_true, pyEqFields_iff, List.all_eq_true, Agree]
  refine and_congr ?_ ?_
  · simp only [mem_canonicalize, get?_canonicalize, Option.map_eq_some_iff]
    constructor
    · intro h key value hmem
      obtain ⟨_, ⟨other, hother, rfl⟩, heq⟩ := h key _ ⟨value, hmem, rfl⟩
      exact ⟨other, hother, heq⟩
    · rintro h key _ ⟨value, hmem, rfl⟩
      obtain ⟨other, hother, heq⟩ := h key value hmem
      exact ⟨_, ⟨other, hother, rfl⟩, heq⟩
  · constructor
    · intro h key value hmem
      have hsome := h (key, canonicalize value) (mem_canonicalize.mpr ⟨value, hmem, rfl⟩)
      simpa [get?_canonicalize] using hsome
    · intro h ⟨key, _⟩ hmem
      obtain ⟨value, hvalue, -⟩ := mem_canonicalize.mp hmem
      simpa [get?_canonicalize] using h key value hvalue

theorem inKeyOrder_eq_nil_iff {found : List (String × List Finding)} :
    inKeyOrder found = [] ↔ ∀ entry ∈ found, entry.2 = [] := by
  rw [inKeyOrder, List.flatMap_eq_nil_iff]
  simp only [(List.perm_insertionSort _ found).mem_iff]

theorem oneSided_eq_nil_iff {make : String → JsonValue → Finding} {path : String}
    {value : JsonValue} : oneSided make path value = [] ↔ value = .object [] := by
  cases value with
  | object values =>
      rw [oneSided, compareMappingEntries, List.map_eq_nil_iff, JsonValue.object.injEq,
        ← List.length_eq_zero_iff, (byKey_perm values).length_eq, List.length_eq_zero_iff]
  | _ => simp [oneSided]

theorem mem_missingFrom {fields others : List (String × JsonValue)} {key : String}
    {value : JsonValue} :
    (key, value) ∈ missingFrom fields others ↔ (key, value) ∈ fields ∧ get? others key = none := by
  simp [missingFrom]

theorem compareEntityMap_eq_nil_iff {before after : List (String × JsonValue)}
    {domain path : String} :
    compareEntityMap number before after domain path = [] ↔ Agree number before after := by
  rw [compareEntityMap, inKeyOrder_eq_nil_iff, Agree]
  simp only [List.mem_append, or_imp, forall_and, List.mem_map, forall_exists_index, and_imp]
  refine and_congr ⟨fun h key value hmem => ?_, ?_⟩ ⟨fun h key value hmem => ?_, ?_⟩
  · have hnil := h _ (key, value) hmem rfl
    dsimp only at hnil
    cases hget : get? after key with
    | none => simp [hget] at hnil
    | some other =>
        refine ⟨other, rfl, ?_⟩
        by_contra hne
        simp [hget, hne] at hnil
  · rintro h _ ⟨key, value⟩ hmem rfl
    obtain ⟨other, hget, heq⟩ := h key value hmem
    simp [hget, heq]
  · by_contra hnone
    rw [Bool.not_eq_true, Option.isSome_eq_false_iff, Option.isNone_iff_eq_none] at hnone
    have hnil := h _ (key, value) (mem_missingFrom.mpr ⟨hmem, hnone⟩) rfl
    cases hnil
  · rintro h _ ⟨key, value⟩ hmem rfl
    obtain ⟨hafter, hnone⟩ := mem_missingFrom.mp hmem
    have hsome := h key value hafter
    rw [hnone] at hsome
    cases hsome

theorem compareOthers_eq_nil_iff {before after : JsonValue} {domain path : String} :
    compareOthers number before after domain path = [] ↔
      pyEq number (canonicalize before) (canonicalize after) = true := by
  rw [compareOthers]
  split <;> simp_all

/-- Two values at a path are equal once they are canonical, or they are mappings that are not
compared entry by entry, with values that are alike under the keys of both and an empty mapping
under every other key. -/
inductive Alike (number : String → ℚ) : String → JsonValue → JsonValue → Prop
  | same {path : String} {before after : JsonValue}
      (h : pyEq number (canonicalize before) (canonicalize after) = true) :
      Alike number path before after
  | fields {path : String} {before after : List (String × JsonValue)}
      (hentity : isByEntity before after path = false)
      (hboth : ∀ key value other, (key, value) ∈ before → get? after key = some other →
        Alike number (path ++ "." ++ key) value other)
      (hremoved : ∀ key value, (key, value) ∈ before → get? after key = none → value = .object [])
      (hnew : ∀ key value, (key, value) ∈ after → get? before key = none → value = .object []) :
      Alike number path (.object before) (.object after)

theorem Alike.same_or_fields {path : String} {before after : JsonValue}
    (h : Alike number path before after) :
    pyEq number (canonicalize before) (canonicalize after) = true ∨
      ∃ old new, before = .object old ∧ after = .object new ∧ isByEntity old new path = false := by
  cases h with
  | same h => exact .inl h
  | fields hentity => exact .inr ⟨_, _, rfl, rfl, hentity⟩

/-- The fields of alike mappings that are not compared entry by entry. -/
theorem Alike.fields_iff {path : String} {before after : List (String × JsonValue)}
    (hentity : isByEntity before after path = false) :
    Alike number path (.object before) (.object after) ↔
      (∀ key value, (key, value) ∈ before → match get? after key with
        | none => value = .object []
        | some other => Alike number (path ++ "." ++ key) value other) ∧
      ∀ key value, (key, value) ∈ after → get? before key = none → value = .object [] := by
  constructor
  · intro h
    cases h with
    | same h =>
        obtain ⟨hbefore, hafter⟩ := pyEq_canonicalize_iff.mp h
        constructor
        · intro key value hmem
          obtain ⟨other, hget, heq⟩ := hbefore key value hmem
          rw [hget]
          exact .same heq
        · intro key value hmem hnone
          have hsome := hafter key value hmem
          rw [hnone] at hsome
          cases hsome
    | fields _ hboth hremoved hnew =>
        refine ⟨fun key value hmem => ?_, hnew⟩
        cases hget : get? after key with
        | none => exact hremoved key value hmem hget
        | some other => exact hboth key value other hmem hget
  · intro ⟨hbefore, hnew⟩
    refine .fields hentity (fun key value other hmem hget => ?_)
      (fun key value hmem hget => ?_) hnew
    · have halike := hbefore key value hmem
      rwa [hget] at halike
    · have hempty := hbefore key value hmem
      rwa [hget] at hempty

theorem mem_compareFields {domain path : String} {before after : List (String × JsonValue)}
    {found : String × List Finding} :
    found ∈ compareFields number domain path before after ↔ ∃ key value, (key, value) ∈ before ∧
      found = (key, match get? after key with
        | none => oneSided (fun path value => ⟨domain, path, .removed, value, .null⟩)
            (path ++ "." ++ key) value
        | some other => compareValues number domain (path ++ "." ++ key) value other) := by
  induction before with
  | nil => simp [compareFields]
  | cons entry before ih =>
      rw [compareFields, List.mem_cons, ih]
      constructor
      · rintro (rfl | ⟨key, value, hmem, rfl⟩)
        · exact ⟨_, _, List.mem_cons_self, rfl⟩
        · exact ⟨key, value, List.mem_cons_of_mem _ hmem, rfl⟩
      · rintro ⟨key, value, hmem, rfl⟩
        rcases List.mem_cons.mp hmem with rfl | hmem
        · exact .inl rfl
        · exact .inr ⟨key, value, hmem, rfl⟩

theorem compareOthers_eq_nil_iff_alike {domain path : String} {before after : JsonValue}
    (h : ∀ old new, before = .object old → after ≠ .object new) :
    compareOthers number before after domain path = [] ↔ Alike number path before after := by
  rw [compareOthers_eq_nil_iff]
  refine ⟨.same, fun halike => ?_⟩
  rcases halike.same_or_fields with halike | ⟨old, new, hold, hnew, -⟩
  · exact halike
  · exact absurd hnew (h old new hold)

/-- Nothing is found exactly between alike values, by induction on the value before. -/
theorem compareValues_eq_nil_iff (domain : String) (path : String) (before after : JsonValue) :
    compareValues number domain path before after = [] ↔ Alike number path before after := by
  induction before generalizing path after with
  | object before ih =>
      cases after with
      | object after =>
          rw [compareValues]
          cases hentity : isByEntity before after path with
          | true =>
              rw [if_pos rfl, compareEntityMap_eq_nil_iff, ← pyEq_canonicalize_iff]
              refine ⟨.same, fun h => ?_⟩
              rcases h.same_or_fields with h | ⟨old, new, hold, hnew, hfalse⟩
              · exact h
              · cases hold
                cases hnew
                rw [hentity] at hfalse
                cases hfalse
          | false =>
              rw [if_neg (by decide), inKeyOrder_eq_nil_iff, Alike.fields_iff hentity]
              simp only [List.mem_append, or_imp, forall_and]
              refine and_congr ⟨fun h key value hmem => ?_, fun h found hfound => ?_⟩
                ⟨fun h key value hmem hnone => ?_, fun h entry hmem => ?_⟩
              · have hnil := h _ (mem_compareFields.mpr ⟨key, value, hmem, rfl⟩)
                cases hget : get? after key with
                | none => exact oneSided_eq_nil_iff.mp (by simpa only [hget] using hnil)
                | some other =>
                    exact (ih (key, value) hmem _ other).mp (by simpa only [hget] using hnil)
              · obtain ⟨key, value, hmem, rfl⟩ := mem_compareFields.mp hfound
                have hentry := h key value hmem
                cases hget : get? after key with
                | none => exact oneSided_eq_nil_iff.mpr (by simpa only [hget] using hentry)
                | some other =>
                    exact (ih (key, value) hmem _ other).mpr (by simpa only [hget] using hentry)
              · have hnil := h _ (List.mem_map.mpr
                  ⟨(key, value), mem_missingFrom.mpr ⟨hmem, hnone⟩, rfl⟩)
                exact oneSided_eq_nil_iff.mp hnil
              · obtain ⟨⟨key, value⟩, hmissing, rfl⟩ := List.mem_map.mp hmem
                obtain ⟨hafter, hnone⟩ := mem_missingFrom.mp hmissing
                exact oneSided_eq_nil_iff.mpr (h key value hafter hnone)
      | null | bool _ | int _ | float _ | text _ | array _ =>
          rw [compareValues]
          · exact compareOthers_eq_nil_iff_alike fun _ _ _ h => by cases h
          all_goals exact fun after h => by cases h
  | null | bool _ | int _ | float _ | text _ | array _ =>
      rw [compareValues]
      · exact compareOthers_eq_nil_iff_alike fun _ _ h => by cases h
      all_goals exact fun before h => by cases h

def canonicalText (sections : List (String × JsonValue)) : String :=
  jsonSortKey (canonicalize (.object sections))

theorem normalizedHash_eq (sha256 : String → String) (sections : List (String × JsonValue)) :
    normalizedHash sha256 sections = sha256 (canonicalText sections) := rfl

/-- Every coverage entry is ready, and every domain has one. -/
structure AllReady (coverage : List (String × JsonValue)) : Prop where
  ready : ∀ entry ∈ coverage, jsonStatus entry.2 = .ready
  covered : ∀ domain ∈ sectionCoveragePrefixes, coverageOf domain.2 coverage ≠ []

theorem allReady_readyCoverage : AllReady readyCoverage := by
  have hready : ∀ entry ∈ sectionCoveragePrefixes, jsonStatus (.text "ready") = .ready := by
    decide
  refine ⟨fun entry hentry => ?_, ?_⟩
  · obtain ⟨domain, hdomain, rfl⟩ := List.mem_map.mp hentry
    exact hready domain hdomain
  · have hfound : ∀ domain ∈ sectionCoveragePrefixes,
        (coverageOf domain.2 readyCoverage).isEmpty = false := by decide
    exact fun domain hdomain => List.isEmpty_eq_false_iff.mp (hfound domain hdomain)

theorem AllReady.orElse {coverage : Option (List (String × JsonValue))}
    {other : List (String × JsonValue)} (h : ∀ given ∈ coverage, AllReady given)
    (hother : AllReady other) : AllReady (orElse coverage other) := by
  cases coverage with
  | none => exact hother
  | some given =>
      cases given with
      | nil => exact hother
      | cons entry given => exact h _ rfl

theorem isVerified_of_allReady {oldCoverage newCoverage : List (String × JsonValue)}
    (hold : AllReady oldCoverage) (hnew : AllReady newCoverage) {domain : String × List String}
    (hdomain : domain ∈ sectionCoveragePrefixes) :
    isVerified domain.2 oldCoverage newCoverage = true := by
  have hready : ∀ {coverage : List (String × JsonValue)}, AllReady coverage →
      ∀ status ∈ coverageOf domain.2 coverage, jsonStatus status = .ready := by
    intro coverage h status hstatus
    obtain ⟨entry, hentry, rfl⟩ := List.mem_map.mp hstatus
    exact h.ready entry (List.mem_of_mem_filter hentry)
  rw [isVerified, Bool.and_eq_true, Bool.not_eq_true', List.isEmpty_eq_false_iff, List.all_eq_true]
  refine ⟨List.append_ne_nil_of_left_ne_nil (hold.covered domain hdomain) _,
    fun status hstatus => ?_⟩
  rw [decide_eq_true_eq]
  exact (List.mem_append.mp hstatus).elim (hready hold status) (hready hnew status)

/-- The sections of every domain are alike, where a section that is missing is an empty mapping. -/
def AlikeSections (number : String → ℚ) (before after : List (String × JsonValue)) : Prop :=
  ∀ domain ∈ sectionCoveragePrefixes,
    Alike number domain.1 (sectionOf before domain.1) (sectionOf after domain.1)

section Complete

variable {sha256 : String → String} {before after : List (String × JsonValue)}
  {beforeCoverage afterCoverage : Option (List (String × JsonValue))}

theorem compareNormalizedSections_eq_nil_iff
    (hbefore : ∀ coverage ∈ beforeCoverage, AllReady coverage)
    (hafter : ∀ coverage ∈ afterCoverage, AllReady coverage) :
    compareNormalizedSections number sha256 before after beforeCoverage afterCoverage = [] ↔
      normalizedHash sha256 before = normalizedHash sha256 after ∨
        AlikeSections number before after := by
  have hold : AllReady (orElse beforeCoverage readyCoverage) :=
    .orElse hbefore allReady_readyCoverage
  have hnew : AllReady (orElse afterCoverage (orElse beforeCoverage readyCoverage)) :=
    .orElse hafter hold
  rw [compareNormalizedSections]
  dsimp only
  rw [List.flatMap_eq_nil_iff, AlikeSections]
  by_cases hhash : normalizedHash sha256 before = normalizedHash sha256 after
  · refine ⟨fun _ => .inl hhash, fun _ domain hdomain => ?_⟩
    rw [if_neg (by simp [isVerified_of_allReady hold hnew hdomain]), if_neg (by simp [hhash])]
  · rw [or_iff_right hhash]
    refine forall₂_congr fun domain hdomain => ?_
    rw [if_neg (by simp [isVerified_of_allReady hold hnew hdomain]), if_pos hhash,
      compareValues_eq_nil_iff]

/-- Drift is complete exactly where sections that are alike have the same canonical text, if the
hash tells the two texts apart. -/
theorem compareNormalizedSections_complete_iff
    (hbefore : ∀ coverage ∈ beforeCoverage, AllReady coverage)
    (hafter : ∀ coverage ∈ afterCoverage, AllReady coverage)
    (hcollision : sha256 (canonicalText before) = sha256 (canonicalText after) →
      canonicalText before = canonicalText after) :
    (compareNormalizedSections number sha256 before after beforeCoverage afterCoverage = [] ↔
      normalizedHash sha256 before = normalizedHash sha256 after) ↔
      (AlikeSections number before after → canonicalText before = canonicalText after) := by
  rw [compareNormalizedSections_eq_nil_iff hbefore hafter]
  constructor
  · intro h halike
    exact hcollision (h.mp (.inr halike))
  · intro h
    refine ⟨fun hnil => hnil.elim id fun halike => ?_, .inl⟩
    rw [normalizedHash_eq, normalizedHash_eq, h halike]

end Complete

end Values

def riskyPosture (count : ℤ) : List (String × JsonValue) :=
  [("microsoft_posture", .object [("summary", .object [("risky_users", .int count)])])]

theorem compareNormalizedSections_complete_iff_riskyUsers :
    compareNormalizedSections (fun _ => 0) id (riskyPosture 1) (riskyPosture 2)
        (some readyCoverage) none = [] ↔
      normalizedHash id (riskyPosture 1) = normalizedHash id (riskyPosture 2) := by
  have hready : ∀ coverage ∈ some readyCoverage, AllReady coverage := by
    simp [allReady_readyCoverage]
  have hnone : ∀ coverage ∈ (none : Option (List (String × JsonValue))),
      AllReady coverage := by simp
  refine (compareNormalizedSections_complete_iff hready hnone fun h => h).mpr fun halike => ?_
  have hnil : compareNormalizedSections (fun _ => 0) id (riskyPosture 1) (riskyPosture 2)
      (some readyCoverage) none = [] :=
    (compareNormalizedSections_eq_nil_iff hready hnone).mpr (.inr halike)
  exact absurd (List.isEmpty_iff.mpr hnil) (by decide)

/-- An empty summary that is removed is not found. -/
theorem not_compareNormalizedSections_complete : ¬ ∀ before after : List (String × JsonValue),
    compareNormalizedSections (fun _ => 0) id before after (some readyCoverage)
      (some readyCoverage) =
      [] ↔ normalizedHash id before = normalizedHash id after := by
  intro h
  have hcomplete := h
    [("microsoft_posture", .object [("summary", .object [])]), ("environment_graph", .object []),
      ("canonical_assets", .object []), ("connector_readiness", .object [])]
    [("microsoft_posture", .object []), ("environment_graph", .object []),
      ("canonical_assets", .object []), ("connector_readiness", .object [])]
  have hsame := hcomplete.mp (List.isEmpty_iff.mp (by decide))
  exact absurd hsame (by decide)

end WaitLocalAgent.Baselines
