import WaitLocalAgent.Verification.FounderBundle.Assignments
import WaitLocalAgent.Verification.Redaction.Hiding

/-! # The passes after the first

They take tokens out of a text, none of which has a bracket. -/

namespace WaitLocalAgent.FounderBundle

open Foundation PowerPlatform Redaction

variable {w : WordClass} {cs : List Char}

theorem mem_of_spacedToken? {word : String} {n : ℕ}
    (h : spacedToken? cs word = some n) : ∀ c ∈ cs.take n,
      (∃ p ∈ word.toList, sameLetter p c = true) ∨ Text.isSpace c = true ∨
        isTokenChar c = true := by
  rw [spacedToken?] at h
  split at h
  · cases h
  · rename_i rest hstrip
    obtain ⟨letters, rfl, hspells⟩ := stripWord_eq_some.mp hstrip
    split at h
    · cases h
    · cases h
      have hrest := List.takeWhile_append_dropWhile (p := Text.isSpace) (l := rest)
      have htoken := List.takeWhile_append_dropWhile (p := isTokenChar)
        (l := rest.dropWhile Text.isSpace)
      have hsplit : letters ++ rest = letters ++ (rest.takeWhile Text.isSpace ++
          (rest.dropWhile Text.isSpace).takeWhile isTokenChar) ++
            (rest.dropWhile Text.isSpace).dropWhile isTokenChar := by
        rw [List.append_assoc, List.append_assoc, htoken, hrest]
      have hlength : (letters ++ rest).length - rest.length + (rest.takeWhile Text.isSpace).length +
          ((rest.dropWhile Text.isSpace).takeWhile isTokenChar).length =
          (letters ++ (rest.takeWhile Text.isSpace ++
            (rest.dropWhile Text.isSpace).takeWhile isTokenChar)).length := by
        simp only [List.length_append]
        omega
      intro c hc
      rw [hlength, hsplit, List.take_left] at hc
      rcases List.mem_append.mp hc with hc | hc
      · exact .inl (hspells.exists_of_mem hc)
      · rcases List.mem_append.mp hc with hc | hc
        · exact .inr (.inl (List.mem_takeWhile_imp hc))
        · exact .inr (.inr (List.mem_takeWhile_imp hc))

theorem not_mem_of_spacedToken? {word : String} {n : ℕ}
    (hword : word ∈ "bearer" :: tokenLabels) (h : spacedToken? cs word = some n) :
    '(' ∉ cs.take n := by
  have hletters : ∀ word ∈ "bearer" :: tokenLabels, ∀ p ∈ word.toList,
      sameLetter p '(' = false := by
    decide
  intro hmem
  rcases mem_of_spacedToken? h '(' hmem with ⟨p, hp, hsame⟩ | hspace | htoken
  · rw [hletters word hword p hp] at hsame
    cases hsame
  · exact absurd hspace (by decide)
  · exact absurd htoken (by decide)

theorem pos_of_spacedToken? {word : String} {n : ℕ}
    (h : spacedToken? cs word = some n) : 0 < n := by
  rw [spacedToken?] at h
  split at h
  · cases h
  · split at h
    · cases h
    · rename_i hlong
      rw [Bool.or_eq_true, not_or, decide_eq_true_eq] at hlong
      cases h
      omega

theorem count_secretLabel (before : Bool) (cs : List Char) :
    ((secretLabel w).sub w before cs).count '(' = cs.count '(' := by
  have hfound : ∀ {before cs replacement n}, secretLabel w before cs = some (replacement, n) →
      ∃ word ∈ tokenLabels, spacedToken? cs word = some n ∧
        replacement = (cs.take n).takeWhile (fun c => !Text.isSpace c) ++
          ' ' :: redacted.toList := by
    intro before cs replacement n h
    rw [secretLabel] at h
    split at h
    · obtain ⟨m, hm, heq⟩ := Option.map_eq_some_iff.mp h
      obtain ⟨word, hword, hspaced⟩ := List.exists_of_findSome?_eq_some hm
      cases heq
      exact ⟨word, hword, hspaced, rfl⟩
    · cases h
  refine Pattern.count_sub (fun before cs replacement n h => ?_)
    (fun before cs replacement n h => ?_)
    before cs
  · obtain ⟨word, -, hspaced, -⟩ := hfound h
    exact pos_of_spacedToken? hspaced
  · obtain ⟨word, hword, hspaced, rfl⟩ := hfound h
    have hnot := not_mem_of_spacedToken? (List.mem_cons_of_mem _ hword) hspaced
    refine ⟨hnot, fun hmem => ?_⟩
    rcases List.mem_append.mp hmem with hmem | hmem
    · exact hnot ((List.takeWhile_prefix _).subset hmem)
    · exact absurd hmem (by decide)

theorem count_bearerSecret (before : Bool) (cs : List Char) :
    ((bearerSecret w).sub w before cs).count '(' = cs.count '(' := by
  have hfound : ∀ {before cs replacement n}, bearerSecret w before cs = some (replacement, n) →
      spacedToken? cs "bearer" = some n ∧ replacement = "Bearer ".toList ++ redacted.toList := by
    intro before cs replacement n h
    rw [bearerSecret] at h
    split at h
    · obtain ⟨m, hm, heq⟩ := Option.map_eq_some_iff.mp h
      cases heq
      exact ⟨hm, rfl⟩
    · cases h
  refine Pattern.count_sub (fun before cs replacement n h => pos_of_spacedToken? (hfound h).1)
    (fun before cs replacement n h => ?_) before cs
  obtain ⟨hspaced, rfl⟩ := hfound h
  exact ⟨not_mem_of_spacedToken? List.mem_cons_self hspaced, by decide⟩

theorem bounds_of_longest? {least most n : ℕ}
    (h : longest? w cs least most = some n) : least ≤ n ∧ n ≤ most := by
  have hmem := List.mem_of_find?_eq_some h
  simp only [List.mem_reverse, List.mem_range'_1] at hmem
  omega

theorem count_namedSecret (before : Bool) (cs : List Char) :
    ((namedSecret w).sub w before cs).count '(' = cs.count '(' := by
  have hfound : ∀ {before cs replacement n}, namedSecret w before cs = some (replacement, n) →
      9 ≤ n ∧ '(' ∉ cs.take n ∧ replacement = redacted.toList := by
    intro before cs replacement n h
    rw [namedSecret] at h
    split at h
    · rename_i hcond
      obtain ⟨m, hm, heq⟩ := Option.map_eq_some_iff.mp h
      cases heq
      obtain ⟨hleast, hmost⟩ := bounds_of_longest? hm
      refine ⟨hleast, fun hmem => ?_, rfl⟩
      rw [Bool.and_eq_true, Bool.or_eq_true] at hcond
      have hstart : '(' ∉ cs.take 8 := by
        rcases hcond.2 with hprefix | hprefix
        all_goals
          obtain ⟨rest, rfl⟩ := List.isPrefixOf_iff_prefix.mp hprefix
          rw [List.take_append_of_le_length (by decide)]
          decide
      have hmem' : '(' ∈ cs.take (8 + ((cs.drop 8).takeWhile isNameChar).length) :=
        (List.take_subset_take_left cs hmost) hmem
      rw [List.take_add, List.mem_append] at hmem'
      rcases hmem' with hmem' | hmem'
      · exact hstart hmem'
      · rw [← List.prefix_iff_eq_take.mp (List.takeWhile_prefix isNameChar)] at hmem'
        exact absurd (List.mem_takeWhile_imp hmem') (by decide)
    · cases h
  refine Pattern.count_sub (fun before cs replacement n h => ?_)
    (fun before cs replacement n h => ?_)
    before cs
  · have := (hfound h).1
    omega
  · obtain ⟨-, hnot, rfl⟩ := hfound h
    exact ⟨hnot, by decide⟩

theorem not_mem_take_takeWhile {isToken : Char → Bool} (htoken : isToken '(' = false)
    {n : ℕ} (hn : n ≤ (cs.takeWhile isToken).length) : '(' ∉ cs.take n := by
  intro hmem
  have hmem' := List.take_subset_take_left cs hn hmem
  rw [← List.prefix_iff_eq_take.mp (List.takeWhile_prefix isToken)] at hmem'
  rw [List.mem_takeWhile_imp hmem'] at htoken
  cases htoken

/-- The pattern finds tokens without brackets. -/
def Bracketless (pattern : Bool → List Char → Option ℕ) : Prop :=
  ∀ before cs n, pattern before cs = some n → 0 < n ∧ '(' ∉ cs.take n

theorem bracketless_highEntropyToken (w : WordClass) : Bracketless (highEntropyToken w) := by
  intro before cs n h
  rw [highEntropyToken] at h
  split at h
  · obtain ⟨hleast, hmost⟩ := bounds_of_longest? h
    exact ⟨by omega, not_mem_take_takeWhile (by decide) hmost⟩
  · cases h

theorem bracketless_base64ish (w : WordClass) : Bracketless (base64ish w) := by
  intro before cs n h
  simp only [base64ish] at h
  split at h
  · rename_i hcond
    rw [Bool.and_eq_true, decide_eq_true_eq] at hcond
    rcases Option.or_eq_some_iff.mp h with hpadded | ⟨-, hshort⟩
    · obtain ⟨hleast, hmost⟩ := bounds_of_longest? hpadded
      refine ⟨by omega, fun hmem => ?_⟩
      have hmem' := List.take_subset_take_left cs hmost hmem
      rw [List.take_add, List.mem_append] at hmem'
      rcases hmem' with hmem' | hmem'
      · exact not_mem_take_takeWhile (by decide) le_rfl hmem'
      · have hprefix : ((cs.drop (cs.takeWhile isBase64Char).length).take 2).takeWhile
            (· == '=') <+:
            cs.drop (cs.takeWhile isBase64Char).length :=
          (List.takeWhile_prefix _).trans (List.take_prefix _ _)
        rw [← List.prefix_iff_eq_take.mp hprefix] at hmem'
        exact absurd (List.mem_takeWhile_imp hmem') (by decide)
    · obtain ⟨hleast, hmost⟩ := bounds_of_longest? hshort
      exact ⟨by omega, not_mem_take_takeWhile (by decide) (hmost.trans (Nat.sub_le _ _))⟩
  · cases h

theorem Bracketless.candidate {pattern : Bool → List Char → Option ℕ} (h : Bracketless pattern)
    {skip : ℕ} {before : Bool} {cs candidate : List Char}
    (hmem : candidate ∈ findAllFrom w pattern skip before cs) :
    candidate ≠ [] ∧ '(' ∉ candidate := by
  induction cs generalizing skip before with
  | nil => cases skip <;> cases hmem
  | cons c cs ih =>
      cases skip with
      | succ skip => exact ih hmem
      | zero =>
          rw [findAllFrom] at hmem
          split at hmem
          · exact ih hmem
          · rename_i n hfound
            rcases List.mem_cons.mp hmem with rfl | hmem
            · obtain ⟨hpos, hnot⟩ := h before (c :: cs) n hfound
              refine ⟨fun hnil => ?_, hnot⟩
              rw [List.take_eq_nil_iff] at hnil
              rcases hnil with hzero | hnil
              · omega
              · cases hnil
            · exact ih hmem

theorem count_replaceAll {old : List Char} (hne : old ≠ []) (hold : '(' ∉ old) (text : List Char) :
    (replaceAll w old text).count '(' = text.count '(' := by
  refine Pattern.count_sub (fun before cs replacement n h => ?_)
    (fun before cs replacement n h => ?_)
    false text
  · split at h
    · cases h
      exact List.length_pos_iff.mpr hne
    · cases h
  · split at h
    · rename_i hprefix
      cases h
      obtain ⟨rest, rfl⟩ := List.isPrefixOf_iff_prefix.mp hprefix
      rw [List.take_left]
      exact ⟨hold, by decide⟩
    · cases h

theorem count_scrubDense {pattern : Bool → List Char → Option ℕ} (h : Bracketless pattern)
    (isDense : List Char → Bool) (text : List Char) :
    (scrubDense w isDense pattern text).count '(' = text.count '(' := by
  have hfold : ∀ (candidates : List (List Char)), (∀ candidate ∈ candidates,
      candidate ≠ [] ∧ '(' ∉ candidate) → ∀ scrubbed : List Char,
      (candidates.foldl (fun scrubbed candidate =>
        if isDigest candidate then scrubbed
        else if 12 ≤ candidate.dedup.length && isDense candidate then
          replaceAll w candidate scrubbed
        else scrubbed) scrubbed).count '(' = scrubbed.count '(' := by
    intro candidates hcandidates
    induction candidates with
    | nil => simp
    | cons candidate candidates ih =>
        intro scrubbed
        obtain ⟨hne, hnot⟩ := hcandidates candidate (by simp)
        rw [List.foldl_cons, ih fun other hother => hcandidates other (by simp [hother])]
        split
        · rfl
        · split
          · exact count_replaceAll hne hnot scrubbed
          · rfl
  exact hfold _ (fun candidate hmem => h.candidate hmem) text

/-- The passes after the first leave the brackets. -/
theorem count_scrubString (isDense : List Char → Bool) (value : String) (freeText : Bool) :
    (scrubString w isDense value freeText).toList.count '(' =
      ((secretAssignment w).sub w false value.toList).count '(' := by
  have hbase : ((secretAssignment w).sub w false value.toList).count '(' =
      (scrubDense w isDense (base64ish w) ((awsAccessKey w).sub w false ((namedSecret w).sub w false
        ((bearerSecret w).sub w false ((secretLabel w).sub w false
          ((secretAssignment w).sub w false value.toList)))))).count '(' := by
    rw [count_scrubDense (bracketless_base64ish w), count_sub_awsAccessKey rfl (by decide),
      count_namedSecret, count_bearerSecret, count_secretLabel]
  rw [scrubString, String.toList_ofList, hbase]
  cases freeText with
  | false => rfl
  | true => exact count_scrubDense (bracketless_highEntropyToken w) isDense _

end WaitLocalAgent.FounderBundle
