import WaitLocalAgent.Foundation.JsonParts
import WaitLocalAgent.Verification.Baselines.Drift
import WaitLocalAgent.Verification.Redaction.Value

/-! # Stored sections against fresh ones

What is stored of a section has been through redaction. No drift is found between it and the section
itself exactly if redaction leaves the section as it is. -/

namespace WaitLocalAgent.Baselines

open Foundation JsonValue Redaction

variable {w : WordClass} {number : String → ℚ}

mutual

/-- The keys of every object in the value are distinct. -/
def distinct : JsonValue → Bool
  | .object fields => decide (fields.map Prod.fst).Nodup && distinctFields fields
  | .array items => distinctItems items
  | _ => true

def distinctItems : List JsonValue → Bool
  | [] => true
  | item :: items => distinct item && distinctItems items

def distinctFields : List (String × JsonValue) → Bool
  | [] => true
  | (_, value) :: fields => distinct value && distinctFields fields

end

theorem distinctItems_iff {items : List JsonValue} :
    distinctItems items = true ↔ ∀ item ∈ items, distinct item = true := by
  induction items with
  | nil => simp [distinctItems]
  | cons item items ih => simp [distinctItems, ih]

theorem distinctFields_iff {fields : List (String × JsonValue)} :
    distinctFields fields = true ↔ ∀ entry ∈ fields, distinct entry.2 = true := by
  induction fields with
  | nil => simp [distinctFields]
  | cons entry fields ih => simp [distinctFields, ih]

theorem distinct_object_iff {fields : List (String × JsonValue)} :
    distinct (.object fields) = true ↔
      (fields.map Prod.fst).Nodup ∧ ∀ entry ∈ fields, distinct entry.2 = true := by
  rw [distinct, Bool.and_eq_true, decide_eq_true_eq, distinctFields_iff]

variable {value : JsonValue}

theorem get?_of_mem {fields : List (String × JsonValue)} (h : distinct (.object fields) = true)
    {key : String} (hmem : (key, value) ∈ fields) :
    get? fields key = some value :=
  (get?_eq_some_iff (distinct_object_iff.mp h).1).mpr hmem

theorem pyEqItems_refl {items : List JsonValue}
    (h : ∀ item ∈ items, pyEq number item item = true) : pyEqItems number items items = true := by
  induction items with
  | nil => rfl
  | cons item items ih =>
      rw [List.forall_mem_cons] at h
      simp [pyEqItems, h.1, ih h.2]

theorem pyEq_refl (h : distinct value = true) :
    pyEq number value value = true := by
  induction value with
  | null | bool _ | int _ | float _ | text _ => simp [pyEq, number?]
  | array items ih =>
      rw [distinct, distinctItems_iff] at h
      rw [pyEq]
      exact pyEqItems_refl fun item hitem => ih item hitem (h item hitem)
  | object fields ih =>
      rw [pyEq, Bool.and_eq_true, pyEqFields_iff, List.all_eq_true]
      refine ⟨fun key value hmem => ⟨value, get?_of_mem h hmem, ?_⟩, fun entry hmem => ?_⟩
      · exact ih (key, value) hmem ((distinct_object_iff.mp h).2 (key, value) hmem)
      · rw [get?_of_mem h (show (entry.1, entry.2) ∈ fields from hmem)]
        rfl

theorem distinct_canonicalize (h : distinct value = true) :
    distinct (canonicalize value) = true := by
  induction value with
  | null | bool _ | int _ | float _ | text _ => simp [canonicalize, distinct]
  | array items ih =>
      rw [distinct, distinctItems_iff] at h
      rw [canonicalize, distinct, distinctItems_iff, canonicalizeItems_eq_map]
      simp only [(List.perm_insertionSort _ _).mem_iff, List.forall_mem_map]
      exact fun item hitem => ih item hitem (h item hitem)
  | object fields ih =>
      obtain ⟨hkeys, hfields⟩ := distinct_object_iff.mp h
      rw [canonicalize, distinct_object_iff, ((byKey_perm _).map _).nodup_iff,
        canonicalizeFields_eq_map, List.map_map]
      simp only [(byKey_perm _).mem_iff, List.forall_mem_map]
      exact ⟨hkeys, fun entry hentry => ih entry hentry (hfields entry hentry)⟩

/-- The order of the keys is none of a canonical value. -/
theorem canonicalize_sortKeys (value : JsonValue) :
    canonicalize value.sortKeys = canonicalize value := by
  induction value with
  | null | bool _ | int _ | float _ | text _ => simp [sortKeys]
  | array items ih =>
      rw [sortKeys, canonicalize, canonicalize, canonicalizeItems_eq_map, canonicalizeItems_eq_map,
        sortItems_eq_map, List.map_map, List.map_congr_left (f := canonicalize ∘ sortKeys) ih]
  | object fields ih =>
      rw [sortKeys_object, canonicalize, canonicalize, canonicalizeFields_eq_map,
        canonicalizeFields_eq_map,
        map_byKey (f := fun entry => (entry.1, canonicalize entry.2)) fun _ => rfl, byKey_byKey,
        sortFields_eq_map, List.map_map]
      exact congrArg (JsonValue.object <| byKey ·)
        (List.map_congr_left fun entry hentry => Prod.ext rfl (ih entry hentry))

theorem isRedacted_canonicalize (value : JsonValue) :
    isRedacted (canonicalize value) = isRedacted value := by
  cases value <;> simp [canonicalize, isRedacted]

theorem unaffected_canonicalize (w : WordClass) (value : JsonValue) :
    unaffected w (canonicalize value) = unaffected w value := by
  induction value with
  | null | bool _ | int _ | float _ | text _ => simp [canonicalize]
  | array items ih =>
      rw [canonicalize, unaffected, unaffected, Bool.eq_iff_iff, unaffectedItems_iff,
        unaffectedItems_iff, canonicalizeItems_eq_map]
      simp only [(List.perm_insertionSort _ _).mem_iff, List.forall_mem_map]
      exact forall₂_congr fun item hitem => by rw [ih item hitem]
  | object fields ih =>
      rw [canonicalize, canonicalizeFields_eq_map]
      refine unaffected_byKey_map fun f hf => ?_
      rw [unaffectedEntry, unaffectedEntry, isRedacted_canonicalize, ih f hf]

theorem isRedacted_of_pyEq {value other : JsonValue} (h : pyEq number value other = true)
    (hvalue : isRedacted value = true) : isRedacted other = true := by
  rw [isRedacted_iff] at hvalue
  subst hvalue
  cases other with
  | text other =>
      rw [pyEq, beq_iff_eq] at h
      rw [isRedacted, ← h]
      decide
  | _ => simp [pyEq] at h

theorem unaffectedItems_of_pyEq {items others : List JsonValue}
    (h : ∀ item ∈ items, ∀ other, pyEq number item other = true → distinct other = true →
      unaffected w other = true) (hequal : pyEqItems number items others = true)
    (hdistinct : distinctItems others = true) : unaffectedItems w others = true := by
  induction items generalizing others with
  | nil =>
      rw [pyEqItems, List.isEmpty_iff] at hequal
      rw [hequal]
      rfl
  | cons item items ih =>
      cases others with
      | nil => rfl
      | cons other others =>
          rw [pyEqItems, Bool.and_eq_true] at hequal
          rw [distinctItems, Bool.and_eq_true] at hdistinct
          rw [List.forall_mem_cons] at h
          rw [unaffectedItems, Bool.and_eq_true]
          exact ⟨h.1 other hequal.1 hdistinct.1, ih h.2 hequal.2 hdistinct.2⟩

/-- Of two equal values redaction leaves both as they are, or none. -/
theorem unaffected_of_pyEq {value other : JsonValue} (h : pyEq number value other = true)
    (hdistinct : distinct other = true) (hvalue : unaffected w value = true) :
    unaffected w other = true := by
  induction value generalizing other with
  | null | bool _ | int _ | float _ =>
      cases other with
      | text _ | array _ | object _ => simp [pyEq, number?] at h
      | _ => simp [unaffected]
  | text s =>
      cases other with
      | text other =>
          rw [pyEq, beq_iff_eq] at h
          rwa [← h]
      | _ => simp [pyEq] at h
  | array items ih =>
      cases other with
      | array others =>
          rw [unaffected, unaffectedItems_iff] at hvalue
          exact unaffectedItems_of_pyEq
            (fun item hitem _ h hother => ih item hitem h hother (hvalue item hitem)) h hdistinct
      | _ => simp [pyEq] at h
  | object fields ih =>
      cases other with
      | object others =>
          rw [pyEq, Bool.and_eq_true, pyEqFields_iff, List.all_eq_true] at h
          rw [unaffected_object_iff] at hvalue ⊢
          intro key other hmem
          obtain ⟨value, hget⟩ := Option.isSome_iff_exists.mp (h.2 (key, other) hmem)
          obtain ⟨other', hother', hequal⟩ := h.1 key value (mem_of_get? hget)
          obtain rfl : other' = other :=
            Option.some.inj (hother'.symm.trans (get?_of_mem hdistinct hmem))
          have hentry := hvalue key value (mem_of_get? hget)
          rw [unaffectedEntry] at hentry ⊢
          split at hentry
          · next hkey =>
              rw [if_pos hkey]
              exact isRedacted_of_pyEq hequal hentry
          · next hkey =>
              rw [if_neg hkey]
              exact ih (key, value) (mem_of_get? hget) hequal
                ((distinct_object_iff.mp hdistinct).2 _ hmem) hentry
      | _ => simp [pyEq] at h

theorem unaffected_stored (w : WordClass) (value : JsonValue) :
    unaffected w (redactValue w value.sortKeys) = true :=
  redactValue_eq_self_iff.mp (redactValue_redactValue w _)

def storedValue (w : WordClass) (key : String) (value : JsonValue) : JsonValue :=
  if isSensitiveKey key then .text redacted else redactValue w value.sortKeys

theorem get?_storedFields_eq (fields : List (String × JsonValue)) (key : String) :
    get? (storedFields w fields) key = (get? fields key).map (storedValue w key) := by
  have hentry : fields.map (storedEntry w) =
      fields.map fun entry => (entry.1, storedValue w entry.1 entry.2) := rfl
  rw [storedFields_eq_byKey, get?_byKey, hentry, get?_map (storedValue w)]

theorem unaffectedEntry_of_redacted {path key : String}
    (hkey : isSensitiveKey key = true) (h : Alike number path (.text redacted) value) :
    unaffectedEntry w key value = true := by
  rcases h.same_or_fields with h | ⟨_, _, hfalse, -⟩
  · rw [unaffectedEntry, if_pos hkey, ← isRedacted_canonicalize]
    exact isRedacted_of_pyEq h rfl
  · cases hfalse

/-- No drift is found in a value exactly if redaction leaves it as it is. -/
theorem alike_stored_iff {path : String} (hdistinct : distinct value = true) :
    Alike number path (redactValue w value.sortKeys) value ↔ unaffected w value = true := by
  constructor
  · intro h
    generalize hbefore : redactValue w value.sortKeys = before at h
    induction h with
    | same h =>
        subst hbefore
        rw [← unaffected_canonicalize]
        refine unaffected_of_pyEq h (distinct_canonicalize hdistinct) ?_
        rw [unaffected_canonicalize]
        exact unaffected_stored w _
    | @fields path before after hentity hboth hremoved hnew ih =>
        rw [redactValue_sortKeys_object, JsonValue.object.injEq] at hbefore
        rw [unaffected_object_iff]
        intro key value hmem
        have hget := get?_of_mem hdistinct hmem
        have hstored : (key, storedValue w key value) ∈ before := by
          refine mem_of_get? ?_
          rw [← hbefore, get?_storedFields_eq, hget]
          rfl
        cases hkey : isSensitiveKey key with
        | true =>
            have halike := hboth key _ value hstored hget
            rw [storedValue, if_pos hkey] at halike
            exact unaffectedEntry_of_redacted hkey halike
        | false =>
            have hvalue : storedValue w key value = redactValue w value.sortKeys := by
              rw [storedValue, if_neg (by simp [hkey])]
            rw [unaffectedEntry, if_neg (by simp [hkey])]
            exact ih key _ value hstored hget ((distinct_object_iff.mp hdistinct).2 _ hmem)
              hvalue.symm
  · intro h
    refine .same ?_
    rw [redactValue_eq_self_iff.mpr (by rwa [unaffected_sortKeys]), canonicalize_sortKeys]
    exact pyEq_refl (distinct_canonicalize hdistinct)

end WaitLocalAgent.Baselines
