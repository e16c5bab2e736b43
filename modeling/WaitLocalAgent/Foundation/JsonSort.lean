import WaitLocalAgent.Foundation.JsonText

/-! # Objects with sorted keys -/

namespace WaitLocalAgent.Foundation

namespace JsonValue

/-- The fields of an object in the order of their keys. -/
def byKey (fs : List (String × JsonValue)) : List (String × JsonValue) :=
  fs.insertionSort fun f g => f.1 ≤ g.1

theorem byKey_perm (fs : List (String × JsonValue)) : (byKey fs).Perm fs :=
  List.perm_insertionSort _ fs

theorem byKey_byKey (fs : List (String × JsonValue)) : byKey (byKey fs) = byKey fs :=
  (List.pairwise_insertionSort (fun f g : String × JsonValue => f.1 ≤ g.1) fs).insertionSort_eq

/-- What changes the values only may be done before the fields are sorted. -/
theorem map_byKey {f : String × JsonValue → String × JsonValue} (hf : ∀ e, (f e).1 = e.1)
    (fs : List (String × JsonValue)) : (byKey fs).map f = byKey (fs.map f) :=
  List.map_insertionSort _ _ f fs fun a _ b _ => by rw [hf, hf]

theorem sortKeys_object (fs : List (String × JsonValue)) :
    sortKeys (object fs) = object (byKey (sortFields fs)) := rfl

theorem sortItems_eq_map (vs : List JsonValue) : sortItems vs = vs.map sortKeys := by
  induction vs with
  | nil => rfl
  | cons v vs ih => simp [sortItems, ih]

theorem sortFields_eq_map (fs : List (String × JsonValue)) :
    sortFields fs = fs.map fun f => (f.1, f.2.sortKeys) := by
  induction fs with
  | nil => rfl
  | cons f fs ih => simp [sortFields, ih]

theorem sortFields_byKey (fs : List (String × JsonValue)) :
    sortFields (byKey fs) = byKey (sortFields fs) := by
  rw [sortFields_eq_map, sortFields_eq_map]
  exact map_byKey (f := fun f => (f.1, f.2.sortKeys)) (fun _ => rfl) fs

theorem sortKeys_sortKeys (v : JsonValue) : v.sortKeys.sortKeys = v.sortKeys := by
  induction v with
  | null | bool _ | int _ | float _ | text _ => simp [sortKeys]
  | array vs ih =>
      simp only [sortKeys, sortItems_eq_map, List.map_map]
      exact congrArg array (List.map_congr_left ih)
  | object fs ih =>
      rw [sortKeys_object, sortKeys_object, sortFields_byKey, byKey_byKey, sortFields_eq_map,
        sortFields_eq_map, List.map_map]
      exact congrArg (object <| byKey ·)
        (List.map_congr_left fun f hf => Prod.ext rfl (ih f hf))

theorem floatsMeet_get? {q : String → Bool} {fs : List (String × JsonValue)}
    (h : floatsMeetFields q fs = true) {key : String} {v : JsonValue}
    (hget : get? fs key = some v) : v.floatsMeet q = true := by
  rw [floatsMeetFields_eq_all, List.all_eq_true] at h
  obtain ⟨f, hf, rfl⟩ := Option.map_eq_some_iff.mp hget
  exact h f (List.mem_of_find?_eq_some hf)

theorem floatsMeet_get {q : String → Bool} {fs : List (String × JsonValue)}
    (h : floatsMeetFields q fs = true) (key : String) : (get fs key).floatsMeet q = true := by
  rw [get]
  cases hget : get? fs key with
  | none => rfl
  | some v => exact floatsMeet_get? h hget

theorem floatsMeetFields_byKey (q : String → Bool) (fs : List (String × JsonValue)) :
    floatsMeetFields q (byKey fs) = floatsMeetFields q fs := by
  rw [floatsMeetFields_eq_all, floatsMeetFields_eq_all, (byKey_perm fs).all_eq]

theorem floatsMeet_sortKeys (q : String → Bool) (v : JsonValue) :
    v.sortKeys.floatsMeet q = v.floatsMeet q := by
  induction v with
  | null | bool _ | int _ | float _ | text _ => simp [sortKeys]
  | array vs ih =>
      rw [Bool.eq_iff_iff, sortKeys, floatsMeet_array_iff, floatsMeet_array_iff, sortItems_eq_map,
        List.forall_mem_map]
      exact forall₂_congr fun v hv => by rw [ih v hv]
  | object fs ih =>
      rw [Bool.eq_iff_iff, sortKeys_object, floatsMeet, floatsMeetFields_byKey,
        floatsMeetFields_eq_all, List.all_eq_true, floatsMeet_object_iff, sortFields_eq_map,
        List.forall_mem_map]
      exact forall₂_congr fun f hf => by rw [ih f hf]

theorem get?_cons (f : String × JsonValue) (fs : List (String × JsonValue)) (key : String) :
    get? (f :: fs) key = if f.1 = key then some f.2 else get? fs key := by
  rw [get?, List.find?_cons]
  by_cases hkey : f.1 = key <;> simp [hkey, get?]

/-- The value of a key, once every value is changed. -/
theorem get?_map (g : String → JsonValue → JsonValue) (fs : List (String × JsonValue))
    (key : String) : get? (fs.map fun f => (f.1, g f.1 f.2)) key = (get? fs key).map (g key) := by
  induction fs with
  | nil => rfl
  | cons f fs ih =>
      rw [List.map_cons, get?_cons, get?_cons]
      by_cases hkey : f.1 = key
      · simp [hkey]
      · simp [hkey, ih]

theorem get?_eq_some_iff {fs : List (String × JsonValue)} (hkeys : (fs.map Prod.fst).Nodup)
    {key : String} {v : JsonValue} : get? fs key = some v ↔ (key, v) ∈ fs := by
  induction fs with
  | nil => simp [get?]
  | cons f fs ih =>
      rw [List.map_cons, List.nodup_cons] at hkeys
      rw [get?_cons, List.mem_cons]
      by_cases hkey : f.1 = key
      · subst hkey
        have hnot : (f.1, v) ∉ fs := fun hmem =>
          hkeys.1 (List.mem_map.mpr ⟨_, hmem, rfl⟩)
        rw [if_pos rfl, Option.some.injEq, or_iff_left hnot, Prod.ext_iff]
        simp [eq_comm]
      · rw [if_neg hkey, ih hkeys.2, or_iff_right]
        rintro rfl
        exact hkey rfl

theorem keys_set (fs : List (String × JsonValue)) (key : String) (v : JsonValue) :
    (set fs key v).map Prod.fst =
      if key ∈ fs.map Prod.fst then fs.map Prod.fst else fs.map Prod.fst ++ [key] := by
  have hany : (fs.any fun entry => entry.1 = key) = true ↔ key ∈ fs.map Prod.fst := by
    simp [List.any_eq_true]
  rw [set]
  by_cases hkey : key ∈ fs.map Prod.fst
  · rw [if_pos (hany.mpr hkey), if_pos hkey, List.map_map]
    refine List.map_congr_left fun entry _ => ?_
    simp only [Function.comp]
    split
    · next heq => exact heq.symm
    · rfl
  · rw [if_neg fun h => hkey (hany.mp h), if_neg hkey, List.map_append]
    rfl

theorem get?_orderedInsert (f : String × JsonValue) (fs : List (String × JsonValue))
    (key : String) :
    get? (fs.orderedInsert (fun f g => f.1 ≤ g.1) f) key =
      if f.1 = key then some f.2 else get? fs key := by
  induction fs with
  | nil => exact get?_cons f [] key
  | cons g fs ih =>
      rw [List.orderedInsert_cons]
      by_cases hle : f.1 ≤ g.1
      · rw [if_pos hle, get?_cons]
      · rw [if_neg hle, get?_cons, ih, get?_cons]
        by_cases hg : g.1 = key
        · have hf : ¬ f.1 = key := fun hf => hle ((hf.trans hg.symm) ▸ Std.le_refl f.1)
          rw [if_pos hg, if_neg hf, if_pos hg]
        · rw [if_neg hg, if_neg hg]

/-- Sorted fields have the values of the fields. -/
theorem get?_byKey (fs : List (String × JsonValue)) (key : String) :
    get? (byKey fs) key = get? fs key := by
  induction fs with
  | nil => rfl
  | cons f fs ih =>
      rw [byKey, List.insertionSort_cons, get?_orderedInsert, get?_cons]
      rw [byKey] at ih
      rw [ih]

theorem get?_byKey_sortFields (fs : List (String × JsonValue)) (key : String) :
    get? (byKey (sortFields fs)) key = (get? fs key).map sortKeys := by
  rw [get?_byKey, sortFields_eq_map, get?_map fun _ => sortKeys]

end JsonValue

end WaitLocalAgent.Foundation
