import WaitLocalAgent.Foundation.Text

/-! # Texts without their blanks

Stripping, splitting into words or blocks and joining with blanks all leave the same characters
once the blanks are removed. -/

namespace WaitLocalAgent.Foundation.Text

def withoutBlanks (cs : List Char) : List Char := cs.filter fun c => !isSpace c

@[simp] theorem withoutBlanks_nil : withoutBlanks [] = [] := rfl

@[simp] theorem withoutBlanks_append (cs ds : List Char) :
    withoutBlanks (cs ++ ds) = withoutBlanks cs ++ withoutBlanks ds :=
  List.filter_append ..

theorem withoutBlanks_cons_of_isSpace {c : Char} (h : isSpace c = true) (cs : List Char) :
    withoutBlanks (c :: cs) = withoutBlanks cs :=
  List.filter_cons_of_neg (by simp [h])

theorem withoutBlanks_cons_of_not {c : Char} (h : isSpace c = false) (cs : List Char) :
    withoutBlanks (c :: cs) = c :: withoutBlanks cs :=
  List.filter_cons_of_pos (by simp [h])

theorem withoutBlanks_eq_nil {cs : List Char} (h : ∀ c ∈ cs, isSpace c = true) :
    withoutBlanks cs = [] :=
  List.filter_eq_nil_iff.mpr fun c hc => by simp [h c hc]

theorem withoutBlanks_dropWhile (cs : List Char) :
    withoutBlanks (cs.dropWhile isSpace) = withoutBlanks cs := by
  induction cs with
  | nil => rfl
  | cons c cs ih =>
      cases h : isSpace c with
      | true => rw [List.dropWhile_cons_of_pos h, ih, withoutBlanks_cons_of_isSpace h]
      | false => rw [List.dropWhile_cons_of_neg (by simp [h])]

theorem withoutBlanks_rdropWhile (cs : List Char) :
    withoutBlanks (cs.rdropWhile isSpace) = withoutBlanks cs := by
  induction cs using List.reverseRecOn with
  | nil => rfl
  | append_singleton cs c ih =>
      cases h : isSpace c with
      | true =>
          rw [List.rdropWhile_concat_pos _ _ _ h, ih, withoutBlanks_append,
            withoutBlanks_cons_of_isSpace h, withoutBlanks_nil, List.append_nil]
      | false => rw [List.rdropWhile_concat_neg _ _ _ (by simp [h])]

@[simp] theorem withoutBlanks_trimEnds (cs : List Char) :
    withoutBlanks (trimEnds isSpace cs) = withoutBlanks cs := by
  rw [trimEnds, withoutBlanks_rdropWhile, withoutBlanks_dropWhile]

/-- What is left of a text begins with no blank. -/
theorem head?_trimEnds {cs : List Char} {c : Char} (h : (trimEnds isSpace cs).head? = some c) :
    isSpace c = false := by
  have hpre : trimEnds isSpace cs <+: cs.dropWhile isSpace := List.rdropWhile_prefix ..
  obtain ⟨rest, hrest⟩ := hpre
  cases htrim : trimEnds isSpace cs with
  | nil => simp [htrim] at h
  | cons d ds =>
      rw [htrim, List.head?_cons, Option.some.injEq] at h
      have hhead := List.head?_dropWhile_not isSpace cs
      rw [← hrest, htrim, h] at hhead
      simpa using hhead

theorem length_trimEnds_le (p : Char → Bool) (cs : List Char) :
    (trimEnds p cs).length ≤ cs.length :=
  (List.rdropWhile_prefix ..).length_le.trans (List.dropWhile_suffix ..).length_le

theorem flatten_filter_isEmpty (l : List (List Char)) :
    (l.filter fun cs => !cs.isEmpty).flatten = l.flatten := by
  induction l with
  | nil => rfl
  | cons cs l ih => cases cs <;> simp [ih]

theorem flatten_modifyHead {l : List (List Char)} (h : l ≠ []) (c : Char) :
    (l.modifyHead (c :: ·)).flatten = c :: l.flatten := by
  cases l with
  | nil => exact absurd rfl h
  | cons cs l => rfl

theorem flatten_splitOnP (p : Char → Bool) (cs : List Char) :
    (cs.splitOnP p).flatten = cs.filter fun c => !p c := by
  induction cs with
  | nil => rfl
  | cons c cs ih =>
      rw [List.splitOnP_cons_eq_if_modifyHead]
      cases h : p c with
      | true => simp [h, ih]
      | false =>
          rw [if_neg (by simp), flatten_modifyHead (List.splitOnP_ne_nil p cs), ih]
          simp [h]

theorem exists_mem_splitOn_iff {sep c : Char} {cs : List Char} :
    (∃ part ∈ cs.splitOn sep, c ∈ part) ↔ c ∈ cs ∧ c ≠ sep := by
  rw [← List.mem_flatten, List.splitOn_eq_splitOnP, flatten_splitOnP, List.mem_filter]
  simp

@[simp] theorem flatten_words (cs : List Char) : (words cs).flatten = withoutBlanks cs := by
  rw [words, flatten_filter_isEmpty, flatten_splitOnP, withoutBlanks]

theorem withoutBlanks_withoutBlanks (cs : List Char) :
    withoutBlanks (withoutBlanks cs) = withoutBlanks cs := by
  simp [withoutBlanks, List.filter_filter]

theorem withoutBlanks_flatten_map {f : List Char → List Char}
    (h : ∀ cs, withoutBlanks (f cs) = withoutBlanks cs) (l : List (List Char)) :
    withoutBlanks (l.map f).flatten = withoutBlanks l.flatten := by
  induction l with
  | nil => rfl
  | cons cs l ih =>
      rw [List.map_cons, List.flatten_cons, List.flatten_cons, withoutBlanks_append, h, ih,
        withoutBlanks_append]

theorem withoutBlanks_intercalate {separator : List Char}
    (h : ∀ c ∈ separator, isSpace c = true) (l : List (List Char)) :
    withoutBlanks (separator.intercalate l) = withoutBlanks l.flatten := by
  induction l with
  | nil => rfl
  | cons cs l ih =>
      cases l with
      | nil => simp
      | cons ds l =>
          rw [List.intercalate_cons_cons, withoutBlanks_append, withoutBlanks_append, ih,
            withoutBlanks_eq_nil h, List.append_nil, List.flatten_cons (l := cs),
            withoutBlanks_append]

theorem blocks_ne_nil (separator : Char) (cs : List Char) : blocks separator cs ≠ [] := by
  fun_induction blocks separator cs with
  | case1 => simp
  | case2 c => simp
  | case3 => simp
  | case4 c d cs h ih => simpa [List.modifyHead_eq_nil_iff] using ih

theorem withoutBlanks_flatten_blocks {separator : Char} (h : isSpace separator = true)
    (cs : List Char) : withoutBlanks (blocks separator cs).flatten = withoutBlanks cs := by
  fun_induction blocks separator cs with
  | case1 => rfl
  | case2 c => simp
  | case3 c d cs hboth ih =>
      obtain ⟨rfl, rfl⟩ := hboth
      rw [List.flatten_cons, List.nil_append, ih, withoutBlanks_cons_of_isSpace h,
        withoutBlanks_cons_of_isSpace h]
  | case4 c d cs hboth ih =>
      rw [flatten_modifyHead (blocks_ne_nil separator (d :: cs)), ← List.singleton_append,
        withoutBlanks_append, ih, ← withoutBlanks_append, List.singleton_append]

end WaitLocalAgent.Foundation.Text
