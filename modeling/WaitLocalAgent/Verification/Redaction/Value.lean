import WaitLocalAgent.Verification.Redaction.Text

/-! # Redacted values

Which values redaction leaves as they are, and what is read of a value that was stored. -/

namespace WaitLocalAgent.Redaction

open Foundation JsonValue

variable {w : WordClass}

theorem redactItems_eq_map (w : WordClass) (vs : List JsonValue) :
    redactItems w vs = vs.map (redactValue w) := by
  induction vs with
  | nil => rfl
  | cons v vs ih => simp [redactItems, ih]

def redactEntry (w : WordClass) (f : String × JsonValue) : String × JsonValue :=
  (f.1, if isSensitiveKey f.1 then .text redacted else redactValue w f.2)

theorem redactMapping_eq_map (w : WordClass) (fs : List (String × JsonValue)) :
    redactMapping w fs = fs.map (redactEntry w) := by
  induction fs with
  | nil => rfl
  | cons f fs ih => simp [redactMapping, redactEntry, ih]

def isRedacted : JsonValue → Bool
  | .text s => s == redacted
  | _ => false

variable {v : JsonValue}

theorem isRedacted_iff : isRedacted v = true ↔ .text redacted = v := by
  cases v with
  | text s =>
      rw [isRedacted, beq_iff_eq, JsonValue.text.injEq]
      exact eq_comm
  | _ => simp [isRedacted]

theorem isRedacted_sortKeys (v : JsonValue) : isRedacted v.sortKeys = isRedacted v := by
  cases v <;> simp [sortKeys, isRedacted]

mutual

/-- Sensitive keys hold `[redacted]` already, and no other text has a secret in it. -/
def unaffected (w : WordClass) : JsonValue → Bool
  | .object fields => unaffectedFields w fields
  | .array items => unaffectedItems w items
  | .text s => redactText w s == s
  | _ => true

def unaffectedItems (w : WordClass) : List JsonValue → Bool
  | [] => true
  | v :: vs => unaffected w v && unaffectedItems w vs

def unaffectedFields (w : WordClass) : List (String × JsonValue) → Bool
  | [] => true
  | (key, v) :: fields =>
      (if isSensitiveKey key then isRedacted v else unaffected w v) && unaffectedFields w fields

end

mutual

theorem redactValue_eq_self_iff : ∀ {v : JsonValue}, redactValue w v = v ↔ unaffected w v = true
  | .null | .bool _ | .int _ | .float _ => by simp [redactValue, unaffected]
  | .text s => by simp [redactValue, unaffected]
  | .array vs => by
      rw [redactValue, unaffected, JsonValue.array.injEq, redactItems_eq_self_iff]
  | .object fs => by
      rw [redactValue, unaffected, JsonValue.object.injEq, redactMapping_eq_self_iff]

theorem redactItems_eq_self_iff : ∀ {vs : List JsonValue},
    redactItems w vs = vs ↔ unaffectedItems w vs = true
  | [] => by simp [redactItems, unaffectedItems]
  | v :: vs => by
      rw [redactItems, unaffectedItems, Bool.and_eq_true, List.cons.injEq, redactValue_eq_self_iff,
        redactItems_eq_self_iff]

theorem redactMapping_eq_self_iff : ∀ {fs : List (String × JsonValue)},
    redactMapping w fs = fs ↔ unaffectedFields w fs = true
  | [] => by simp [redactMapping, unaffectedFields]
  | (key, v) :: fs => by
      rw [redactMapping, unaffectedFields, Bool.and_eq_true, List.cons.injEq, Prod.mk.injEq,
        redactMapping_eq_self_iff]
      split
      · rw [← isRedacted_iff, eq_self_iff_true, true_and]
      · rw [redactValue_eq_self_iff, eq_self_iff_true, true_and]

end

theorem redactValue_redactValue (w : WordClass) (v : JsonValue) :
    redactValue w (redactValue w v) = redactValue w v := by
  induction v with
  | null | bool _ | int _ | float _ => simp [redactValue]
  | text s => simp only [redactValue, redactText_redactText]
  | array vs ih =>
      simp only [redactValue, redactItems_eq_map, List.map_map]
      exact congrArg _ (List.map_congr_left ih)
  | object fs ih =>
      simp only [redactValue, redactMapping_eq_map, List.map_map]
      refine congrArg _ (List.map_congr_left fun f hf => ?_)
      by_cases hkey : isSensitiveKey f.1 <;> simp [redactEntry, hkey, ih f hf]

theorem redactMapping_redactMapping (w : WordClass) (fs : List (String × JsonValue)) :
    redactMapping w (redactMapping w fs) = redactMapping w fs :=
  JsonValue.object.inj (redactValue_redactValue w (.object fs))

/-- Redaction goes over the values in any order of the keys. -/
theorem sortKeys_redactValue (w : WordClass) (v : JsonValue) :
    (redactValue w v).sortKeys = redactValue w v.sortKeys := by
  induction v with
  | null | bool _ | int _ | float _ | text _ => simp [redactValue, sortKeys]
  | array vs ih =>
      simp only [redactValue, sortKeys, redactItems_eq_map, sortItems_eq_map, List.map_map]
      exact congrArg _ (List.map_congr_left ih)
  | object fs ih =>
      rw [redactValue, sortKeys_object, sortKeys_object, redactValue, redactMapping_eq_map,
        redactMapping_eq_map, map_byKey (f := redactEntry w) fun _ => rfl, sortFields_eq_map,
        sortFields_eq_map, List.map_map, List.map_map]
      refine congrArg (JsonValue.object <| byKey ·) (List.map_congr_left fun f hf => ?_)
      by_cases hkey : isSensitiveKey f.1 <;> simp [redactEntry, hkey, ih f hf, sortKeys]

theorem floatsMeet_redactValue (w : WordClass) {q : String → Bool}
    (h : v.floatsMeet q = true) : (redactValue w v).floatsMeet q = true := by
  induction v with
  | null | bool _ | int _ | text _ => rfl
  | float r => exact h
  | array vs ih =>
      rw [floatsMeet_array_iff] at h
      rw [redactValue, floatsMeet_array_iff, redactItems_eq_map, List.forall_mem_map]
      exact fun v hv => ih v hv (h v hv)
  | object fs ih =>
      rw [floatsMeet_object_iff] at h
      rw [redactValue, floatsMeet_object_iff, redactMapping_eq_map, List.forall_mem_map]
      intro f hf
      rw [redactEntry]
      split
      · rfl
      · exact ih f hf (h f hf)

theorem unaffectedItems_iff {items : List JsonValue} :
    unaffectedItems w items = true ↔ ∀ item ∈ items, unaffected w item = true := by
  induction items with
  | nil => simp [unaffectedItems]
  | cons item items ih => simp [unaffectedItems, ih]

/-- What redaction leaves of an entry. -/
def unaffectedEntry (w : WordClass) (key : String) (value : JsonValue) : Bool :=
  if isSensitiveKey key then isRedacted value else unaffected w value

theorem unaffectedFields_iff {fields : List (String × JsonValue)} :
    unaffectedFields w fields = true ↔ ∀ f ∈ fields, unaffectedEntry w f.1 f.2 = true := by
  induction fields with
  | nil => simp [unaffectedFields]
  | cons f fields ih => rw [unaffectedFields, Bool.and_eq_true, ih, List.forall_mem_cons]; rfl

theorem unaffected_object_iff {fields : List (String × JsonValue)} :
    unaffected w (.object fields) = true ↔
      ∀ key value, (key, value) ∈ fields → unaffectedEntry w key value = true := by
  rw [unaffected, unaffectedFields_iff, Prod.forall]

theorem unaffected_byKey_map {fields : List (String × JsonValue)} {g : JsonValue → JsonValue}
    (h : ∀ f ∈ fields, unaffectedEntry w f.1 (g f.2) = unaffectedEntry w f.1 f.2) :
    unaffected w (.object (byKey (fields.map fun f => (f.1, g f.2)))) =
      unaffected w (.object fields) := by
  rw [Bool.eq_iff_iff, unaffected, unaffected, unaffectedFields_iff, unaffectedFields_iff]
  simp only [(byKey_perm _).mem_iff, List.forall_mem_map]
  exact forall₂_congr fun f hf => by rw [h f hf]

/-- The order of the keys does not matter. -/
theorem unaffected_sortKeys (w : WordClass) (v : JsonValue) :
    unaffected w v.sortKeys = unaffected w v := by
  induction v with
  | null | bool _ | int _ | float _ | text _ => simp [sortKeys]
  | array vs ih =>
      rw [Bool.eq_iff_iff, sortKeys, unaffected, unaffected, unaffectedItems_iff,
        unaffectedItems_iff, sortItems_eq_map, List.forall_mem_map]
      exact forall₂_congr fun v hv => by rw [ih v hv]
  | object fs ih =>
      rw [sortKeys_object, sortFields_eq_map]
      refine unaffected_byKey_map fun f hf => ?_
      rw [unaffectedEntry, unaffectedEntry, isRedacted_sortKeys, ih f hf]

/-- Redaction leaves a value as it is, also up to the order of its keys, exactly when it is
unaffected. -/
theorem sortKeys_redactValue_eq_iff :
    (redactValue w v).sortKeys = v.sortKeys ↔ unaffected w v = true := by
  constructor
  · intro h
    rw [sortKeys_redactValue, redactValue_eq_self_iff, unaffected_sortKeys] at h
    exact h
  · intro h
    rw [redactValue_eq_self_iff.mpr h]

theorem compact_spaced : Separators.Spaced ⟨[','], [':']⟩ :=
  ⟨⟨[], rfl, by decide⟩, ⟨[], rfl, by decide⟩⟩

theorem loads?_jsonDumpsValue (floats : FloatRepr) (hv : v.exact floats = true) :
    loads? floats.repr (jsonDumpsValue w v) = some (redactValue w v.sortKeys) := by
  rw [jsonDumpsValue, loads?_write floats.repr compact_spaced, sortKeys_redactValue]
  exact (floatsMeet_sortKeys _ _).trans (floatsMeet_redactValue w (readable_of_exact floats hv))

/-- A stored value that is redacted once more is as it was. -/
theorem redactJsonText_jsonDumpsValue (floats : FloatRepr)
    (hv : v.exact floats = true) :
    redactJsonText w floats.repr (jsonDumpsValue w v) = jsonDumpsValue w v := by
  rw [redactJsonText, loads?_jsonDumpsValue floats hv]
  dsimp only
  rw [jsonDumpsValue, redactValue_redactValue, sortKeys_redactValue, sortKeys_sortKeys,
    ← sortKeys_redactValue, jsonDumpsValue]

/-- After its first redaction a value stays as it is: when it is redacted again, when it is encoded,
and when its row is read. -/
theorem redacted_once (w : WordClass) (floats : FloatRepr) (v : JsonValue)
    (hv : v.exact floats = true) :
    redactValue w (redactValue w v) = redactValue w v ∧
      jsonDumpsValue w (redactValue w v) = jsonDumpsValue w v ∧
      redactJsonText w floats.repr (jsonDumpsValue w v) = jsonDumpsValue w v := by
  refine ⟨redactValue_redactValue w v, ?_, redactJsonText_jsonDumpsValue floats hv⟩
  rw [jsonDumpsValue, jsonDumpsValue, redactValue_redactValue]

theorem redacted_once_login :
    jsonDumpsValue .known (.object [("password", .text "hunter2"),
        ("note", .array [.text "token: abc", .float "0.5"])]) =
      "\x7b\"note\":[\"token: [redacted]\",0.5],\"password\":\"[redacted]\"\x7d" ∧
    redactJsonText .known FloatRepr.verbatim.repr
      (jsonDumpsValue .known (.object [("password", .text "hunter2"),
        ("note", .array [.text "token: abc", .float "0.5"])])) =
      jsonDumpsValue .known (.object [("password", .text "hunter2"),
        ("note", .array [.text "token: abc", .float "0.5"])]) :=
  ⟨by decide, (redacted_once .known .verbatim _ (by decide)).2.2⟩

def storedFields (w : WordClass) (fs : List (String × JsonValue)) : List (String × JsonValue) :=
  redactMapping w (byKey (sortFields fs))

@[simp] theorem redactValue_sortKeys_object (fs : List (String × JsonValue)) :
    redactValue w (sortKeys (.object fs)) = .object (storedFields w fs) := rfl

variable {fs : List (String × JsonValue)}

theorem jsonObject_jsonDumpsValue (floats : FloatRepr)
    (hexact : (object fs).exact floats = true) :
    jsonObject floats.repr (jsonDumpsValue w (.object fs)) = storedFields w fs := by
  rw [jsonObject, loads?_jsonDumpsValue floats hexact, redactValue_sortKeys_object]

theorem jsonObject_stored (floats : FloatRepr)
    (hexact : (object fs).exact floats = true) :
    jsonObject floats.repr (redactJsonText w floats.repr (jsonDumpsValue w (.object fs))) =
      storedFields w fs := by
  rw [redactJsonText_jsonDumpsValue floats hexact, jsonObject_jsonDumpsValue floats hexact]

theorem keys_storedFields_perm (w : WordClass) (fs : List (String × JsonValue)) :
    ((storedFields w fs).map Prod.fst).Perm (fs.map Prod.fst) := by
  rw [storedFields, redactMapping_eq_map, List.map_map]
  have hsorted := (byKey_perm (sortFields fs)).map Prod.fst
  rw [sortFields_eq_map, List.map_map] at hsorted
  rw [sortFields_eq_map]
  exact hsorted

theorem get?_storedFields {key : String}
    (hkey : isSensitiveKey key = false) :
    get? (storedFields w fs) key = (get? fs key).map fun v => redactValue w v.sortKeys := by
  have hmap :=
    get?_map (fun key v => if isSensitiveKey key then .text redacted else redactValue w v)
    (byKey (sortFields fs)) key
  rw [storedFields, redactMapping_eq_map]
  refine hmap.trans ?_
  rw [get?_byKey_sortFields, Option.map_map]
  refine congrArg (Option.map · _) (funext fun v => ?_)
  simp [hkey]

theorem get?_stored (w : WordClass) {key : String}
    (hkey : isSensitiveKey key = false) (hget : get? fs key = some v) :
    get? (storedFields w fs) key = some (redactValue w v.sortKeys) := by
  rw [get?_storedFields hkey, hget]
  rfl

theorem get_stored (w : WordClass) {key : String}
    (hkey : isSensitiveKey key = false) (hget : get? fs key = some v) :
    JsonValue.get (storedFields w fs) key = redactValue w v.sortKeys := by
  rw [JsonValue.get, get?_stored w hkey hget]
  rfl

theorem redactValue_objects {α : Type} (w : WordClass) (payload : α → List (String × JsonValue))
    (xs : List α) :
    redactValue w (sortKeys (.array (xs.map fun x => .object (payload x)))) =
      .array (xs.map fun x => .object (storedFields w (payload x))) := by
  rw [sortKeys, redactValue, redactItems_eq_map, sortItems_eq_map, List.map_map, List.map_map]
  rfl

def storedEntry (w : WordClass) (f : String × JsonValue) : String × JsonValue :=
  (f.1, if isSensitiveKey f.1 then .text redacted else redactValue w f.2.sortKeys)

theorem storedFields_eq_byKey (w : WordClass) (fs : List (String × JsonValue)) :
    storedFields w fs = byKey (fs.map (storedEntry w)) := by
  rw [storedFields, redactMapping_eq_map, map_byKey (f := redactEntry w) fun _ => rfl,
    sortFields_eq_map, List.map_map]
  rfl

/-- Objects whose fields are stored the same are stored the same. -/
theorem storedFields_congr {fs gs : List (String × JsonValue)}
    (h : fs.map (storedEntry w) = gs.map (storedEntry w)) :
    storedFields w fs = storedFields w gs := by
  rw [storedFields_eq_byKey, storedFields_eq_byKey, h]

theorem storedFields_storedFields (w : WordClass) (fs : List (String × JsonValue)) :
    storedFields w (storedFields w fs) = storedFields w fs := by
  refine JsonValue.object.inj ?_
  rw [← redactValue_sortKeys_object, ← redactValue_sortKeys_object, sortKeys_redactValue,
    sortKeys_sortKeys, redactValue_redactValue]

theorem jsonDumpsValue_congr {fs gs : List (String × JsonValue)}
    (h : storedFields w fs = storedFields w gs) :
    jsonDumpsValue w (.object fs) = jsonDumpsValue w (.object gs) := by
  rw [jsonDumpsValue, jsonDumpsValue, sortKeys_redactValue, sortKeys_redactValue,
    redactValue_sortKeys_object, redactValue_sortKeys_object, h]

end WaitLocalAgent.Redaction
