import WaitLocalAgent.Verification.Redaction.Value

/-! # What a connector's configuration hides

The validator of configurations and redaction look for the same words in a key, but redaction also
joins the tokens of a key, and lowers their letters one by one. -/

namespace WaitLocalAgent.Redaction

open Foundation JsonValue

variable {w : WordClass}

mutual

def allFields (p : String → JsonValue → Bool) : JsonValue → Bool
  | .object fields => allFieldsOf p fields
  | .array items => allFieldsIn p items
  | _ => true

def allFieldsIn (p : String → JsonValue → Bool) : List JsonValue → Bool
  | [] => true
  | v :: vs => allFields p v && allFieldsIn p vs

def allFieldsOf (p : String → JsonValue → Bool) : List (String × JsonValue) → Bool
  | [] => true
  | (key, v) :: fields => p key v && allFields p v && allFieldsOf p fields

end

theorem allFields_of_isRedacted {p : String → JsonValue → Bool} {v : JsonValue}
    (h : isRedacted v = true) : allFields p v = true := by
  rw [← isRedacted_iff.mp h]
  rfl

/-- A key that redaction takes for a secret's and the validator does not. -/
def isOverlooked (key : String) : Bool := isSensitiveKey key && !isSensitiveConfigKey key

def hidesNothing (key : String) (v : JsonValue) : Bool := !isOverlooked key || isRedacted v

mutual

/-- A value without a field that the validator finds is left as it is unless a key was
overlooked. -/
theorem unaffected_eq_allFields : ∀ {v : JsonValue}, containsSensitiveConfigKey w v = false →
    unaffected w v = allFields hidesNothing v
  | .null | .bool _ | .int _ | .float _ => fun _ => rfl
  | .text s => by
      intro h
      simpa [containsSensitiveConfigKey, unaffected, allFields] using h
  | .array vs => by
      intro h
      rw [unaffected, allFields]
      exact unaffectedItems_eq_allFieldsIn h
  | .object fs => by
      intro h
      rw [unaffected, allFields]
      exact unaffectedFields_eq_allFieldsOf h

theorem unaffectedItems_eq_allFieldsIn : ∀ {vs : List JsonValue},
    anySensitiveItem w vs = false → unaffectedItems w vs = allFieldsIn hidesNothing vs
  | [] => fun _ => rfl
  | v :: vs => by
      intro h
      rw [anySensitiveItem, Bool.or_eq_false_iff] at h
      rw [unaffectedItems, allFieldsIn, unaffected_eq_allFields h.1,
        unaffectedItems_eq_allFieldsIn h.2]

theorem unaffectedFields_eq_allFieldsOf : ∀ {fs : List (String × JsonValue)},
    anySensitiveField w fs = false → unaffectedFields w fs = allFieldsOf hidesNothing fs
  | [] => fun _ => rfl
  | (key, v) :: fs => by
      intro h
      rw [anySensitiveField, Bool.or_eq_false_iff, Bool.or_eq_false_iff] at h
      obtain ⟨⟨hkey, hv⟩, hfs⟩ := h
      have hoverlooked : isOverlooked key = isSensitiveKey key := by simp [isOverlooked, hkey]
      rw [unaffectedFields, allFieldsOf, unaffectedFields_eq_allFieldsOf hfs, hidesNothing,
        hoverlooked]
      cases hsensitive : isSensitiveKey key with
      | false => simp [unaffected_eq_allFields hv]
      | true =>
          cases hredacted : isRedacted v with
          | false => simp
          | true => simp [allFields_of_isRedacted hredacted]

end

theorem validateConnectorConfigJson_eq_ok {repr : String → String} {configJson stored : String}
    (h : validateConnectorConfigJson w repr configJson = .ok stored) :
    ∃ fields, decode? repr configJson = some (.object fields) ∧ anySensitiveField w fields = false ∧
      stored = .ofList ((object fields).sortKeys.write ⟨[','], [':']⟩) := by
  unfold validateConnectorConfigJson at h
  split at h
  · cases h
  · rename_i payload hdecode
    split at h
    · rename_i fields
      split at h
      · cases h
      · rename_i hsensitive
        cases h
        exact ⟨fields, hdecode, by simpa using hsensitive, rfl⟩
    · cases h

/-- A configuration that the validator accepts is shown as it is exactly if each of its fields whose
key was overlooked holds `[redacted]`. -/
theorem redactValue_config_iff (w : WordClass) (repr : String → String) (configJson stored : String)
    (c : JsonValue) (hstored : validateConnectorConfigJson w repr configJson = .ok stored)
    (hc : decode? repr configJson = some c) :
    redactValue w c = c ↔ allFields hidesNothing c = true := by
  obtain ⟨fields, hdecode, hsensitive, -⟩ := validateConnectorConfigJson_eq_ok hstored
  obtain rfl : c = .object fields := Option.some.inj (hc.symm.trans hdecode)
  rw [redactValue_eq_self_iff, unaffected, allFields, unaffectedFields_eq_allFieldsOf hsensitive]

def configOf (key value : String) : JsonValue := .object [(key, .text value)]

theorem decode?_dumps_configOf (repr : String → String) (key value : String) :
    decode? repr (configOf key value).dumps = some (configOf key value) := by
  rw [decode?, loads?_dumps repr rfl]
  rfl

theorem validateConnectorConfigJson_configOf {repr : String → String} {key value : String}
    (h : anySensitiveField w [(key, .text value)] = false) :
    ∃ stored, validateConnectorConfigJson w repr (configOf key value).dumps = .ok stored := by
  rw [validateConnectorConfigJson, decode?_dumps_configOf]
  simp [configOf, h]

theorem redactValue_config_iff_region :
    redactValue .known (configOf "defaultRegion" "eu-west-1") =
      configOf "defaultRegion" "eu-west-1" := by
  obtain ⟨stored, hstored⟩ : ∃ stored, validateConnectorConfigJson .known id
      (configOf "defaultRegion" "eu-west-1").dumps = .ok stored :=
    validateConnectorConfigJson_configOf (by decide)
  exact (redactValue_config_iff .known id _ stored _ hstored (decode?_dumps_configOf id _ _)).mpr
    (by decide)

/-- `passWord` is two tokens for the validator. -/
theorem not_redactValue_config : ¬ ∀ (configJson stored : String) (c : JsonValue),
    validateConnectorConfigJson .known id configJson = .ok stored →
      decode? id configJson = some c → redactValue .known c = c := by
  intro h
  obtain ⟨stored, hstored⟩ : ∃ stored, validateConnectorConfigJson .known id
      (configOf "passWord" "hunter2").dumps = .ok stored :=
    validateConnectorConfigJson_configOf (by decide)
  have hshown := h _ stored _ hstored (decode?_dumps_configOf id _ _)
  rw [redactValue_eq_self_iff] at hshown
  exact absurd hshown (by decide)

end WaitLocalAgent.Redaction
