import WaitLocalAgent.Model.BaselineService
import WaitLocalAgent.Verification.Baselines.Stored
import WaitLocalAgent.Verification.Redaction.Plain

/-! # Phantom drift

What is found between a baseline and the observation that it was made of. -/

namespace WaitLocalAgent.Baselines

open Foundation JsonValue Redaction

variable {w : WordClass} {number : String → ℚ} {sha256 : String → String}

theorem sortKeys_canonicalize (value : JsonValue) :
    (canonicalize value).sortKeys = canonicalize value := by
  induction value with
  | null | bool _ | int _ | float _ | text _ => simp [canonicalize, sortKeys]
  | array items ih =>
      rw [canonicalize, sortKeys, sortItems_eq_map, JsonValue.array.injEq, canonicalizeItems_eq_map]
      refine (List.map_congr_left ?_).trans (List.map_id _)
      simp only [(List.perm_insertionSort _ _).mem_iff, List.forall_mem_map]
      exact ih
  | object fields ih =>
      rw [canonicalize, sortKeys_object, sortFields_byKey, byKey_byKey, sortFields_eq_map,
        canonicalizeFields_eq_map, List.map_map]
      exact congrArg (JsonValue.object <| byKey ·)
        (List.map_congr_left fun entry hentry => Prod.ext rfl (ih entry hentry))

theorem floatsMeet_canonicalize (q : String → Bool) (value : JsonValue) :
    (canonicalize value).floatsMeet q = value.floatsMeet q := by
  induction value with
  | null | bool _ | int _ | float _ | text _ => simp [canonicalize]
  | array items ih =>
      rw [Bool.eq_iff_iff, canonicalize, floatsMeet_array_iff, floatsMeet_array_iff,
        canonicalizeItems_eq_map]
      simp only [(List.perm_insertionSort _ _).mem_iff, List.forall_mem_map]
      exact forall₂_congr fun item hitem => by rw [ih item hitem]
  | object fields ih =>
      rw [Bool.eq_iff_iff, canonicalize, floatsMeet_object_iff, floatsMeet_object_iff,
        canonicalizeFields_eq_map]
      simp only [(byKey_perm _).mem_iff, List.forall_mem_map]
      exact forall₂_congr fun entry hentry => by rw [ih entry hentry]

theorem loads?_canonicalText (floats : FloatRepr) {sections : List (String × JsonValue)}
    (hexact : (JsonValue.object sections).exact floats = true) :
    loads? floats.repr (canonicalText sections) = some (canonicalize (.object sections)) := by
  rw [canonicalText, jsonSortKey, sortKeys_canonicalize]
  refine loads?_write floats.repr compact_spaced ?_
  exact (floatsMeet_canonicalize _ _).trans (readable_of_exact floats hexact)

theorem canonicalize_inj (floats : FloatRepr) {before after : List (String × JsonValue)}
    (hbefore : (JsonValue.object before).exact floats = true)
    (hafter : (JsonValue.object after).exact floats = true)
    (h : canonicalText before = canonicalText after) :
    canonicalize (.object before) = canonicalize (.object after) := by
  have hloads := congrArg (loads? floats.repr) h
  rwa [loads?_canonicalText floats hbefore, loads?_canonicalText floats hafter,
    Option.some.injEq] at hloads

theorem mem_inKeyOrder {found : List (String × List Finding)} {finding : Finding} :
    finding ∈ inKeyOrder found ↔ ∃ entry ∈ found, finding ∈ entry.2 := by
  simp [inKeyOrder, (List.perm_insertionSort _ found).mem_iff]

theorem domain_of_oneSided {make : String → JsonValue → Finding} {domain : String}
    (hmake : ∀ path value, (make path value).domain = domain) {path : String} {value : JsonValue} :
    ∀ finding ∈ oneSided make path value, finding.domain = domain := by
  intro finding hmem
  cases value with
  | object values =>
      obtain ⟨entry, -, rfl⟩ := List.mem_map.mp hmem
      exact hmake _ _
  | _ =>
      rw [oneSided, List.mem_singleton] at hmem
      · exact hmem ▸ hmake _ _
      all_goals simp

theorem domain_of_compareEntityMap {before after : List (String × JsonValue)}
    {domain path : String} :
    ∀ finding ∈ compareEntityMap number before after domain path, finding.domain = domain := by
  intro finding hmem
  obtain ⟨entry, hentry, hfinding⟩ := mem_inKeyOrder.mp hmem
  rcases List.mem_append.mp hentry with hentry | hentry
  · obtain ⟨⟨key, value⟩, -, rfl⟩ := List.mem_map.mp hentry
    dsimp only at hfinding
    split at hfinding
    · rw [List.mem_singleton.mp hfinding]
    · split at hfinding
      · cases hfinding
      · rw [List.mem_singleton.mp hfinding]
  · obtain ⟨⟨key, value⟩, -, rfl⟩ := List.mem_map.mp hentry
    rw [List.mem_singleton.mp hfinding]

theorem domain_of_compareOthers {before after : JsonValue} {domain path : String} :
    ∀ finding ∈ compareOthers number before after domain path, finding.domain = domain := by
  intro finding hmem
  rw [compareOthers] at hmem
  split at hmem
  · cases hmem
  · rw [List.mem_singleton.mp hmem]

theorem domain_of_compareValues (domain : String) (path : String) (before after : JsonValue) :
    ∀ finding ∈ compareValues number domain path before after, finding.domain = domain := by
  induction before generalizing path after with
  | object before ih =>
      intro finding hmem
      cases after with
      | object after =>
          rw [compareValues] at hmem
          split at hmem
          · exact domain_of_compareEntityMap finding hmem
          · obtain ⟨entry, hentry, hfinding⟩ := mem_inKeyOrder.mp hmem
            rcases List.mem_append.mp hentry with hentry | hentry
            · obtain ⟨key, value, hkey, rfl⟩ := mem_compareFields.mp hentry
              dsimp only at hfinding
              split at hfinding
              · refine domain_of_oneSided ?_ finding hfinding
                exact fun _ _ => rfl
              · exact ih (key, value) hkey _ _ finding hfinding
            · obtain ⟨⟨key, value⟩, -, rfl⟩ := List.mem_map.mp hentry
              refine domain_of_oneSided ?_ finding hfinding
              exact fun _ _ => rfl
      | null | bool _ | int _ | float _ | text _ | array _ =>
          rw [compareValues] at hmem
          · exact domain_of_compareOthers finding hmem
          all_goals exact fun after h => by cases h
  | null | bool _ | int _ | float _ | text _ | array _ =>
      intro finding hmem
      rw [compareValues] at hmem
      · exact domain_of_compareOthers finding hmem
      all_goals exact fun before h => by cases h

/-- An entry of the coverage is one of the domain's. -/
def Covers (prefixes : List String) (key : String) : Prop :=
  (prefixes.any fun start => start.toList.isPrefixOf key.toList) = true

/-- Some entry of the domain is not ready. -/
def HasGap (coverage : List (String × CoverageStatus)) (domain : String) : Prop :=
  ∃ prefixes, (domain, prefixes) ∈ sectionCoveragePrefixes ∧
    ∃ entry ∈ coverage, Covers prefixes entry.1 ∧ entry.2 ≠ .ready

/-- Nothing is found but that a domain with such an entry is not verified. -/
def NoPhantom (coverage : List (String × CoverageStatus)) (findings : List Finding) : Prop :=
  ∀ finding ∈ findings,
    finding.classification = .verificationUnavailable ∧ HasGap coverage finding.domain

theorem noPhantom_flatMap_iff {α : Type} {coverage : List (String × CoverageStatus)}
    {domains : List α}
    {findings : α → List Finding} : NoPhantom coverage (domains.flatMap findings) ↔
      ∀ domain ∈ domains, NoPhantom coverage (findings domain) := by
  constructor
  · intro h domain hdomain finding hfinding
    exact h finding (List.mem_flatMap.mpr ⟨domain, hdomain, hfinding⟩)
  · intro h finding hfinding
    obtain ⟨domain, hdomain, hfinding⟩ := List.mem_flatMap.mp hfinding
    exact h domain hdomain finding hfinding

theorem prefixes_of_domain : ∀ domain ∈ sectionCoveragePrefixes, ∀ other ∈ sectionCoveragePrefixes,
    other.1 = domain.1 → other = domain := by decide

theorem hasGap_iff {coverage : List (String × CoverageStatus)} {domain : String × List String}
    (hdomain : domain ∈ sectionCoveragePrefixes) : HasGap coverage domain.1 ↔
      ∃ entry ∈ coverage, Covers domain.2 entry.1 ∧ entry.2 ≠ .ready := by
  constructor
  · rintro ⟨prefixes, hprefixes, hentry⟩
    have heq := prefixes_of_domain domain hdomain _ hprefixes rfl
    rwa [← heq]
  · intro hentry
    exact ⟨domain.2, hdomain, hentry⟩

theorem jsonStatus_text (status : CoverageStatus) : jsonStatus (.text status.text) = status := by
  cases status <;> decide

theorem redactText_status (w : WordClass) (status : CoverageStatus) :
    redactText w status.text = status.text := by
  have hplain : ∀ status : CoverageStatus, ∀ c ∈ status.text.toList, c ≠ ':' ∧ c ≠ '=' ∧
      c ≠ 'A' := by
    intro status
    cases status <;> decide
  exact redactText_of_plain (hplain status)

theorem jsonStatus_stored (w : WordClass) (key : String) (status : CoverageStatus) :
    jsonStatus (storedValue w key (.text status.text)) =
      if isSensitiveKey key then .failed else status := by
  rw [storedValue]
  split
  · decide
  · have hvalue : redactValue w (sortKeys (.text status.text)) = .text status.text := by
      simp [sortKeys, redactValue, redactText_status]
    rw [hvalue, jsonStatus_text]

section Coverage

open BaselineLibrary (coverageFields)

variable {coverage : List (String × CoverageStatus)} {prefixes : List String}

theorem mem_coverageOf {fields : List (String × JsonValue)} {value : JsonValue} :
    value ∈ coverageOf prefixes fields ↔ ∃ key, (key, value) ∈ fields ∧ Covers prefixes key := by
  rw [coverageOf, List.mem_map]
  constructor
  · rintro ⟨⟨key, value⟩, hentry, rfl⟩
    exact ⟨key, (List.mem_filter.mp hentry).1, (List.mem_filter.mp hentry).2⟩
  · rintro ⟨key, hmem, hcovers⟩
    exact ⟨(key, value), List.mem_filter.mpr ⟨hmem, hcovers⟩, rfl⟩

theorem mem_coverageFields {key : String} {value : JsonValue} :
    (key, value) ∈ coverageFields coverage ↔
      ∃ entry ∈ coverage, entry.1 = key ∧ .text entry.2.text = value := by
  simp [coverageFields]

theorem mem_storedFields {fields : List (String × JsonValue)} {key : String} {value : JsonValue} :
    (key, value) ∈ storedFields w fields ↔
      ∃ original, (key, original) ∈ fields ∧ storedValue w key original = value := by
  have hentry : fields.map (storedEntry w) =
      fields.map fun entry => (entry.1, storedValue w entry.1 entry.2) := rfl
  rw [storedFields_eq_byKey, (byKey_perm _).mem_iff, hentry, List.mem_map]
  constructor
  · rintro ⟨⟨key, original⟩, hmem, heq⟩
    cases heq
    exact ⟨original, hmem, rfl⟩
  · rintro ⟨original, hmem, rfl⟩
    exact ⟨(key, original), hmem, rfl⟩

/-- A domain is verified against what is stored of its coverage if every entry is ready, under a key
that redaction leaves alone. -/
theorem isVerified_stored_iff (hcovered : ∃ entry ∈ coverage, Covers prefixes entry.1) :
    isVerified prefixes (storedFields w (coverageFields coverage))
      (coverageFields coverage) = true ↔
      ∀ entry ∈ coverage, Covers prefixes entry.1 →
        entry.2 = .ready ∧ isSensitiveKey entry.1 = false := by
  obtain ⟨first, hfirst, hcovers⟩ := hcovered
  have hne : coverageOf prefixes (coverageFields coverage) ≠ [] :=
    List.ne_nil_of_mem (mem_coverageOf.mpr
      ⟨first.1, mem_coverageFields.mpr ⟨first, hfirst, rfl, rfl⟩, hcovers⟩)
  rw [isVerified, Bool.and_eq_true, Bool.not_eq_true', List.isEmpty_eq_false_iff,
    and_iff_right (List.append_ne_nil_of_right_ne_nil _ hne), List.all_eq_true]
  simp only [decide_eq_true_eq]
  constructor
  · intro h entry hentry hcovers
    have hfield : (entry.1, .text entry.2.text) ∈ coverageFields coverage :=
      mem_coverageFields.mpr ⟨entry, hentry, rfl, rfl⟩
    have hstored := h _ (List.mem_append_left _ (mem_coverageOf.mpr
      ⟨entry.1, mem_storedFields.mpr ⟨_, hfield, rfl⟩, hcovers⟩))
    rw [jsonStatus_stored] at hstored
    split at hstored
    · cases hstored
    · next hkey => exact ⟨hstored, Bool.not_eq_true _ ▸ hkey⟩
  · intro h value hvalue
    rcases List.mem_append.mp hvalue with hvalue | hvalue
    · obtain ⟨key, hstored, hcovers⟩ := mem_coverageOf.mp hvalue
      obtain ⟨original, hfield, rfl⟩ := mem_storedFields.mp hstored
      obtain ⟨entry, hentry, rfl, rfl⟩ := mem_coverageFields.mp hfield
      obtain ⟨hready, hkey⟩ := h entry hentry hcovers
      rw [jsonStatus_stored, hkey, hready]
      rfl
    · obtain ⟨key, hfield, hcovers⟩ := mem_coverageOf.mp hvalue
      obtain ⟨entry, hentry, rfl, rfl⟩ := mem_coverageFields.mp hfield
      rw [jsonStatus_text, (h entry hentry hcovers).1]

end Coverage

theorem sectionOf_stored {sections : List (String × JsonValue)} {name : String}
    (hname : isSensitiveKey name = false) :
    sectionOf (storedFields w sections) name =
      redactValue w (sectionOf sections name).sortKeys := by
  rw [sectionOf, sectionOf, get?_storedFields hname]
  cases get? sections name <;> rfl

theorem distinct_sectionOf {sections : List (String × JsonValue)}
    (h : distinct (.object sections) = true) (name : String) :
    distinct (sectionOf sections name) = true := by
  rw [sectionOf]
  cases hget : get? sections name with
  | none => decide
  | some value => exact (distinct_object_iff.mp h).2 _ (mem_of_get? hget)

theorem unaffected_sectionOf {sections : List (String × JsonValue)}
    (h : unaffected w (.object sections) = true) {name : String}
    (hname : isSensitiveKey name = false) : unaffected w (sectionOf sections name) = true := by
  rw [sectionOf]
  cases hget : get? sections name with
  | none => rfl
  | some value =>
      have hentry := unaffected_object_iff.mp h name value (mem_of_get? hget)
      rwa [unaffectedEntry, if_neg (by simp [hname])] at hentry

theorem domain_not_sensitive : ∀ domain ∈ sectionCoveragePrefixes,
    isSensitiveKey domain.1 = false := by decide

theorem orElse_of_ne_nil {fields other : List (String × JsonValue)} (h : fields ≠ []) :
    orElse (some fields) other = fields := by
  cases fields with
  | nil => exact absurd rfl h
  | cons entry fields => rfl

section Observed

variable {coverage : List (String × CoverageStatus)} {sections : List (String × JsonValue)}
  (floats : FloatRepr) (hdistinct : distinct (.object sections) = true)
  (hexact : (JsonValue.object sections).exact floats = true)
  (hcovered : ∀ domain ∈ sectionCoveragePrefixes, ∃ entry ∈ coverage, Covers domain.2 entry.1)
  (hcollision : sha256 (canonicalText (storedFields w sections)) = sha256 (canonicalText sections) →
    canonicalText (storedFields w sections) = canonicalText sections)

include hexact hcollision in
/-- If redaction changes nothing that the hash shows, it changes nothing. -/
theorem unaffected_of_sameHash
    (h : normalizedHash sha256 (storedFields w sections) = normalizedHash sha256 sections) :
    unaffected w (.object sections) = true := by
  have hstored : (JsonValue.object (storedFields w sections)).exact floats = true := by
    rw [← redactValue_sortKeys_object]
    exact floatsMeet_redactValue w ((floatsMeet_sortKeys _ _).trans hexact)
  have hcanonical := canonicalize_inj floats hstored hexact (hcollision h)
  rw [← unaffected_canonicalize, ← hcanonical, unaffected_canonicalize,
    ← redactValue_sortKeys_object]
  exact unaffected_stored w _

include hdistinct hexact hcovered hcollision in
theorem noPhantom_domain_iff {domain : String × List String}
    (hdomain : domain ∈ sectionCoveragePrefixes) (previous current : JsonValue) :
    NoPhantom coverage
      (if !isVerified domain.2 (storedFields w (BaselineLibrary.coverageFields coverage))
          (BaselineLibrary.coverageFields coverage) then
        [⟨domain.1, domain.1, .verificationUnavailable, previous, current⟩]
      else if normalizedHash sha256 (storedFields w sections) ≠ normalizedHash sha256 sections then
        compareValues number domain.1 domain.1 (sectionOf (storedFields w sections) domain.1)
          (sectionOf sections domain.1)
      else []) ↔
      (¬ HasGap coverage domain.1 →
        (∀ entry ∈ coverage, Covers domain.2 entry.1 → isSensitiveKey entry.1 = false) ∧
          unaffected w (sectionOf sections domain.1) = true) := by
  have hverified := isVerified_stored_iff (w := w) (hcovered domain hdomain)
  have hname := domain_not_sensitive domain hdomain
  by_cases hgap : HasGap coverage domain.1
  · -- the domain is not verified, and need not be
    have hnot : isVerified domain.2 (storedFields w (BaselineLibrary.coverageFields coverage))
        (BaselineLibrary.coverageFields coverage) = false := by
      obtain ⟨entry, hentry, hcovers, hready⟩ := (hasGap_iff hdomain).mp hgap
      rw [← Bool.not_eq_true, hverified]
      exact fun h => hready (h entry hentry hcovers).1
    rw [hnot]
    refine iff_of_true (fun finding hfinding => ?_) fun h => absurd hgap h
    rw [List.mem_singleton.mp hfinding]
    exact ⟨rfl, hgap⟩
  · have hready : ∀ entry ∈ coverage, Covers domain.2 entry.1 → entry.2 = .ready := by
      intro entry hentry hcovers
      by_contra hne
      exact hgap ((hasGap_iff hdomain).mpr ⟨entry, hentry, hcovers, hne⟩)
    by_cases hkeys : ∀ entry ∈ coverage, Covers domain.2 entry.1 → isSensitiveKey entry.1 = false
    · rw [hverified.mpr fun entry hentry hcovers =>
        ⟨hready entry hentry hcovers, hkeys entry hentry hcovers⟩, Bool.not_true,
        if_neg Bool.false_ne_true, forall_prop_of_true hgap, and_iff_right hkeys]
      split
      · have hnil : compareValues number domain.1 domain.1
            (sectionOf (storedFields w sections) domain.1) (sectionOf sections domain.1) = [] ↔
              unaffected w (sectionOf sections domain.1) = true := by
          rw [compareValues_eq_nil_iff, sectionOf_stored hname,
            alike_stored_iff (distinct_sectionOf hdistinct domain.1)]
        rw [← hnil]
        constructor
        · intro h
          refine List.eq_nil_iff_forall_not_mem.mpr fun finding hfinding => ?_
          exact hgap (domain_of_compareValues _ _ _ _ finding hfinding ▸ (h finding hfinding).2)
        · intro h
          rw [h, NoPhantom]
          simp
      · next hhash =>
          refine iff_of_true (by simp [NoPhantom]) ?_
          exact unaffected_sectionOf (unaffected_of_sameHash floats hexact hcollision
            (not_not.mp hhash)) hname
    · have hnot : isVerified domain.2 (storedFields w (BaselineLibrary.coverageFields coverage))
          (BaselineLibrary.coverageFields coverage) = false := by
        rw [← Bool.not_eq_true, hverified]
        exact fun h => hkeys fun entry hentry hcovers => (h entry hentry hcovers).2
      rw [hnot]
      refine iff_of_false (fun h => ?_) fun h => hkeys (h hgap).1
      exact hgap (h _ List.mem_cons_self).2

include hdistinct hexact hcovered hcollision in
/-- A baseline against the observation that it was made of: a phantom is found for a domain whose
entries are all ready, if redaction changes one of their keys or the section. -/
theorem noPhantom_iff :
    NoPhantom coverage (compareNormalizedSections number sha256 (storedFields w sections) sections
        (some (storedFields w (BaselineLibrary.coverageFields coverage)))
        (some (BaselineLibrary.coverageFields coverage))) ↔
      ∀ domain ∈ sectionCoveragePrefixes, ¬ HasGap coverage domain.1 →
        (∀ entry ∈ coverage, Covers domain.2 entry.1 → isSensitiveKey entry.1 = false) ∧
          unaffected w (sectionOf sections domain.1) = true := by
  have hne : BaselineLibrary.coverageFields coverage ≠ [] := by
    obtain ⟨entry, hentry, -⟩ := hcovered ("environment_graph", ["environment_graph"]) (by decide)
    exact List.ne_nil_of_mem (mem_coverageFields.mpr ⟨entry, hentry, rfl, rfl⟩)
  have hstoredNe : storedFields w (BaselineLibrary.coverageFields coverage) ≠ [] := by
    intro hnil
    have hperm := (keys_storedFields_perm w (BaselineLibrary.coverageFields coverage)).length_eq
    rw [hnil, List.length_map, List.length_map, List.length_nil, eq_comm,
      List.length_eq_zero_iff] at hperm
    exact hne hperm
  rw [compareNormalizedSections]
  dsimp only
  rw [orElse_of_ne_nil hstoredNe, orElse_of_ne_nil hne]
  rw [noPhantom_flatMap_iff]
  refine forall₂_congr fun domain hdomain => ?_
  exact noPhantom_domain_iff floats hdistinct hexact hcovered hcollision hdomain _ _

end Observed

end WaitLocalAgent.Baselines
