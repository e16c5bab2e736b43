import WaitLocalAgent.Verification.Redaction.Text

/-! # Plain texts

Texts without an assignment or an access key, and the white space around a redacted text. -/

namespace WaitLocalAgent.Redaction

open Foundation PowerPlatform

variable {w : WordClass}

def isSign (c : Char) : Bool := c == ':' || c == '='

/-- Every sign stands behind a digit. -/
def Numbered (cs : List Char) : Prop := cs.IsChain fun c d => isSign d = true → c.isDigit = true

theorem not_digit_of_sensitive : ∀ word ∈ sensitiveWords, word.toList ≠ [] ∧
    ∀ p ∈ word.toList, p.isDigit = false := by
  decide

theorem isDigit_of_sameLetter {p c : Char} (h : sameLetter p c = true) (hc : c.isDigit = true) :
    p.isDigit = true := by
  have hnotUpper : ¬ (c.val ≥ 'A'.val ∧ c.val ≤ 'Z'.val) := by
    simp only [Char.isDigit, Bool.and_eq_true, decide_eq_true_eq, UInt32.le_iff_toNat_le,
      ge_iff_le] at hc ⊢
    have hA : 'A'.val.toNat = 65 := rfl
    have h9 : '9'.val.toNat = 57 := rfl
    omega
  have hlower : c.toLower = c := by rw [Char.toLower, dif_neg hnotUpper]
  simp only [sameLetter, hlower, Bool.or_eq_true, Bool.and_eq_true, beq_iff_eq] at h
  rcases h with (((rfl | rfl) | ⟨-, hfolded⟩) | ⟨-, rfl⟩) | ⟨-, rfl⟩
  · exact hc
  · exact hc
  · rcases hfolded with rfl | rfl <;> exact absurd hc (by decide)
  · exact absurd hc (by decide)
  · exact absurd hc (by decide)

theorem Spells.exists_of_mem {word letters : List Char} (h : Spells word letters) {c : Char}
    (hc : c ∈ letters) : ∃ p ∈ word, sameLetter p c = true := by
  induction h with
  | nil => cases hc
  | @cons p d word letters hsame _ ih =>
      rcases List.mem_cons.mp hc with rfl | hc
      · exact ⟨p, List.mem_cons_self, hsame⟩
      · obtain ⟨q, hq, hsame⟩ := ih hc
        exact ⟨q, List.mem_cons_of_mem _ hq, hsame⟩

/-- Before a numbered sign stands no word of the pattern. -/
theorem Assignment.not_numbered {word : String} (hword : word ∈ sensitiveWords)
    {front rest : List Char} (h : Assignment word front) : ¬ Numbered (front ++ rest) := by
  obtain ⟨letters, gap, sign, gap', rfl, hspells, hgap, hsign, -⟩ := h
  intro hnumbered
  have hmark : isSign sign = true := by rcases hsign with rfl | rfl <;> rfl
  have hletters : letters ≠ [] := by
    rintro rfl
    cases hchars : word.toList with
    | nil => exact (not_digit_of_sensitive word hword).1 hchars
    | cons p ps =>
        rw [hchars] at hspells
        cases hspells
  obtain ⟨before, last, hlast⟩ : ∃ before last, letters ++ gap = before ++ [last] :=
    ⟨_, _, (List.dropLast_concat_getLast (by simp [hletters])).symm⟩
  have hdigit : last.isDigit = true := by
    rw [← List.append_assoc, hlast, List.append_assoc, List.append_assoc, Numbered,
      List.isChain_append] at hnumbered
    have hpair := hnumbered.2.1
    rw [List.singleton_append, List.cons_append, List.isChain_cons_cons] at hpair
    exact hpair.1 hmark
  have hmem : last ∈ letters ++ gap := by simp [hlast]
  rcases List.mem_append.mp hmem with hmem | hmem
  · obtain ⟨p, hp, hsame⟩ := hspells.exists_of_mem hmem
    have hno := (not_digit_of_sensitive word hword).2 p hp
    rw [isDigit_of_sameLetter hsame hdigit] at hno
    cases hno
  · have hspace := hgap last hmem
    have hother := WordClass.known.space last hspace
    rw [isWord_of_isAlphanum .known (by rw [Char.isAlphanum, hdigit, Bool.or_true])] at hother
    cases hother

theorem sub_sensitiveText_of_numbered {cs : List Char} (h : Numbered cs) (before : Bool) :
    (sensitiveText w).sub w before cs = cs := by
  have hnone : ∀ before, ∀ c tail, (c :: tail) <:+ cs →
      sensitiveText w before (c :: (tail ++ [])) = none := by
    intro before c tail hsuffix
    rw [List.append_nil]
    cases hmatch : sensitiveText w before (c :: tail) with
    | none => rfl
    | some found =>
        obtain ⟨front, run, rest, hchars, -, -, hsensitive⟩ := sensitiveText_eq_some.mp hmatch
        obtain ⟨word, hword, hfront⟩ := hsensitive.word
        have hnumbered : Numbered (c :: tail) := List.IsChain.suffix h hsuffix
        rw [hchars] at hnumbered
        exact absurd hnumbered (hfront.not_numbered hword)
  have hsub : (sensitiveText w).sub w before (cs ++ []) = _ :=
    Pattern.sub_append_of_none hnone before
  rwa [List.append_nil, Pattern.sub_nil, List.append_nil] at hsub

variable {s : String}

/-- A text whose signs are numbered, and without an `A`, is left as it is. -/
theorem redactText_of_numbered (h : Numbered s.toList) (hA : 'A' ∉ s.toList) :
    redactText w s = s := by
  have hsub : (awsAccessKey w).sub w false (s.toList ++ []) = _ := sub_awsAccessKey_append hA false
  rw [List.append_nil, Pattern.sub_nil, List.append_nil] at hsub
  rw [redactText, sub_sensitiveText_of_numbered h, hsub, String.ofList_toList]

theorem numbered_of_signless {cs : List Char} (h : ∀ c ∈ cs, c ≠ ':' ∧ c ≠ '=') : Numbered cs := by
  refine List.Pairwise.isChain (List.Pairwise.imp_of_mem (R := fun _ _ => True) ?_
    (List.pairwise_of_forall fun _ _ => trivial))
  intro c d _ hd _ hsign
  rcases Bool.or_eq_true_iff.mp hsign with hcolon | hequals
  · exact absurd (beq_iff_eq.mp hcolon) (h d hd).1
  · exact absurd (beq_iff_eq.mp hequals) (h d hd).2

/-- A text without signs and without the first letter of an access key. -/
theorem redactText_of_plain (h : ∀ c ∈ s.toList, c ≠ ':' ∧ c ≠ '=' ∧ c ≠ 'A') :
    redactText w s = s :=
  redactText_of_numbered (numbered_of_signless fun c hc => ⟨(h c hc).1, (h c hc).2.1⟩)
    fun hmem => (h 'A' hmem).2.2 rfl

theorem isSpace_bracket : Text.isSpace '[' = false ∧ Text.isSpace ']' = false := by decide

variable {cs ds : List Char}

theorem Blanked.all_isSpace (h : Blanked cs ds) :
    cs.all Text.isSpace = ds.all Text.isSpace := by
  induction h with
  | nil => rfl
  | keep c h ih => rw [List.all_cons, List.all_cons, ih]
  | @blank run hne hvalue cs ds h ih =>
      cases run with
      | nil => exact absurd rfl hne
      | cons c run =>
          have hc := not_isSpace_of_isValue (hvalue c List.mem_cons_self)
          rw [List.cons_append, List.all_cons, hc, Bool.false_and]
          rfl

theorem Blanked.takeWhile_isSpace (h : Blanked cs ds) :
    cs.takeWhile Text.isSpace = ds.takeWhile Text.isSpace := by
  induction h with
  | nil => rfl
  | keep c h ih => rw [List.takeWhile_cons, List.takeWhile_cons, ih]
  | @blank run hne hvalue cs ds h ih =>
      cases run with
      | nil => exact absurd rfl hne
      | cons c run =>
          have hc := not_isSpace_of_isValue (hvalue c List.mem_cons_self)
          rw [List.cons_append, List.takeWhile_cons_of_neg (by simp [hc])]
          rfl

theorem rtakeWhile_cons (p : Char → Bool) (c : Char) (cs : List Char) :
    (c :: cs).rtakeWhile p = if (c :: cs).all p then c :: cs else cs.rtakeWhile p := by
  rw [List.rtakeWhile, List.rtakeWhile, List.reverse_cons, List.takeWhile_append]
  by_cases hall : ∀ d ∈ cs, p d = true
  · have hwhole : cs.reverse.takeWhile p = cs.reverse :=
      List.takeWhile_eq_self_iff.mpr fun d hd => hall d (List.mem_reverse.mp hd)
    rw [hwhole, if_pos rfl]
    cases hc : p c with
    | true =>
        have hcs : (c :: cs).all p = true := by simpa [hc] using hall
        rw [if_pos hcs, List.takeWhile_cons_of_pos hc]
        simp
    | false => simp [hc]
  · have hne : cs.reverse.takeWhile p ≠ cs.reverse := fun heq =>
      hall fun d hd => List.takeWhile_eq_self_iff.mp heq d (List.mem_reverse.mpr hd)
    have hlength : ¬ (cs.reverse.takeWhile p).length = cs.reverse.length := fun heq =>
      hne ((List.takeWhile_prefix p).eq_of_length heq)
    have hcs : ¬ (c :: cs).all p = true := by
      rw [List.all_cons, Bool.and_eq_true, List.all_eq_true]
      exact fun h => hall h.2
    rw [if_neg hlength, if_neg hcs]

theorem rtakeWhile_append_of_not {p : Char → Bool} {cs : List Char} {c : Char} (hc : p c = false)
    (front : List Char) : (front ++ c :: cs).rtakeWhile p = (c :: cs).rtakeWhile p := by
  induction front with
  | nil => rfl
  | cons d front ih =>
      rw [List.cons_append, rtakeWhile_cons, if_neg, ih]
      simp [hc]

theorem Blanked.rtakeWhile_isSpace (h : Blanked cs ds) :
    cs.rtakeWhile Text.isSpace = ds.rtakeWhile Text.isSpace := by
  induction h with
  | nil => rfl
  | @keep c cs ds h ih =>
      rw [rtakeWhile_cons, rtakeWhile_cons, List.all_cons, List.all_cons, h.all_isSpace, ih]
      split
      · next hall =>
          rw [Bool.and_eq_true] at hall
          have hcs : cs.takeWhile Text.isSpace = cs :=
            List.takeWhile_eq_self_iff.mpr (List.all_eq_true.mp (h.all_isSpace.trans hall.2))
          have hds : ds.takeWhile Text.isSpace = ds :=
            List.takeWhile_eq_self_iff.mpr (List.all_eq_true.mp hall.2)
          rw [← hcs, ← hds, h.takeWhile_isSpace]
      · rfl
  | @blank run hne hvalue cs ds h ih =>
      obtain ⟨front, last, rfl⟩ : ∃ front last, run = front ++ [last] :=
        ⟨_, _, (List.dropLast_concat_getLast hne).symm⟩
      have hlast : Text.isSpace last = false := not_isSpace_of_isValue (hvalue last (by simp))
      have hbracket : redacted.toList ++ ds = "[redacted".toList ++ ']' :: ds := rfl
      rw [List.append_assoc, List.singleton_append, rtakeWhile_append_of_not hlast, hbracket,
        rtakeWhile_append_of_not isSpace_bracket.2, rtakeWhile_cons, rtakeWhile_cons,
        if_neg (by simp [hlast]), if_neg (by simp [isSpace_bracket.2]), ih]

/-- The same white space stands around both texts. -/
structure SameEnds (cs ds : List Char) : Prop where
  start : cs.takeWhile Text.isSpace = ds.takeWhile Text.isSpace
  finish : cs.rtakeWhile Text.isSpace = ds.rtakeWhile Text.isSpace
  blank : cs.all Text.isSpace = ds.all Text.isSpace

theorem Blanked.sameEnds (h : Blanked cs ds) : SameEnds cs ds :=
  ⟨h.takeWhile_isSpace, h.rtakeWhile_isSpace, h.all_isSpace⟩

theorem SameEnds.trans {cs ds es : List Char} (h : SameEnds cs ds) (h' : SameEnds ds es) :
    SameEnds cs es :=
  ⟨h.start.trans h'.start, h.finish.trans h'.finish, h.blank.trans h'.blank⟩

theorem sameEnds_redactText (w : WordClass) (s : String) :
    SameEnds s.toList (redactText w s).toList := by
  rw [redactText, String.toList_ofList]
  exact (blanked_sub w false s.toList).sameEnds.trans
    (blanked_sub_awsAccessKey w false _).sameEnds

theorem strip_eq_empty_iff :
    Text.strip s = "" ↔ s.toList.all Text.isSpace = true := by
  have hempty : ∀ cs : List Char, String.ofList cs = "" ↔ cs = [] := fun cs => by
    rw [← String.toList_inj, String.toList_ofList]
    rfl
  rw [Text.strip, Text.trimEnds, hempty, List.rdropWhile_eq_nil_iff, List.all_eq_true]
  constructor
  · intro h c hc
    rw [← List.takeWhile_append_dropWhile (p := Text.isSpace) (l := s.toList)] at hc
    exact (List.mem_append.mp hc).elim (fun hc => List.mem_takeWhile_imp hc) (h c)
  · exact fun h c hc => h c ((List.dropWhile_sublist _).subset hc)

theorem eq_append_strip (h : s.toList.all Text.isSpace = false) :
    s.toList = s.toList.takeWhile Text.isSpace ++
      ((Text.strip s).toList ++ s.toList.rtakeWhile Text.isSpace) := by
  have hsplit := List.takeWhile_append_dropWhile (p := Text.isSpace) (l := s.toList)
  have hinner := List.rdropWhile_append_rtakeWhile
    (p := Text.isSpace) (l := s.toList.dropWhile Text.isSpace)
  have hend : s.toList.rtakeWhile Text.isSpace =
      (s.toList.dropWhile Text.isSpace).rtakeWhile Text.isSpace := by
    cases hdrop : s.toList.dropWhile Text.isSpace with
    | nil =>
        rw [List.dropWhile_eq_nil_iff] at hdrop
        rw [List.all_eq_true.mpr hdrop] at h
        cases h
    | cons c cs =>
        have hc : Text.isSpace c = false := by
          have hhead := List.head?_dropWhile_not Text.isSpace s.toList
          rwa [hdrop] at hhead
        rw [← hsplit, hdrop]
        exact rtakeWhile_append_of_not hc _
  rw [Text.strip, Text.trimEnds, String.toList_ofList, hend, hinner, hsplit]

/-- A text is blank exactly when it is blank once it is redacted. -/
theorem strip_redactText_eq_empty_iff :
    Text.strip (redactText w s) = "" ↔ Text.strip s = "" := by
  rw [strip_eq_empty_iff, strip_eq_empty_iff, (sameEnds_redactText w s).blank]

/-- Texts with the same white space around them are the same when they are so inside. -/
theorem SameEnds.eq_of_strip {s t : String} (h : SameEnds s.toList t.toList)
    (hstrip : Text.strip s = Text.strip t) : s = t := by
  rw [← String.toList_inj]
  cases hblank : s.toList.all Text.isSpace with
  | false =>
      rw [eq_append_strip hblank, eq_append_strip (h.blank.symm.trans hblank), h.start, h.finish,
        hstrip]
  | true =>
      rw [← List.takeWhile_eq_self_iff.mpr (List.all_eq_true.mp hblank),
        ← List.takeWhile_eq_self_iff.mpr (List.all_eq_true.mp (h.blank.symm.trans hblank)), h.start]

theorem strip_redactText_iff :
    Text.strip (redactText w s) = Text.strip s ↔ redactText w s = s := by
  constructor
  · intro h
    exact ((sameEnds_redactText w s).eq_of_strip h.symm).symm
  · intro h
    rw [h]

theorem Blanked.mem (h : Blanked cs ds) {c : Char} (hc : c ∈ ds) :
    c ∈ cs ∨ c ∈ redacted.toList := by
  induction h with
  | nil => cases hc
  | keep d _ ih =>
      rcases List.mem_cons.mp hc with rfl | hc
      · exact .inl List.mem_cons_self
      · exact (ih hc).imp_left (List.mem_cons_of_mem d)
  | @blank run _ _ cs ds _ ih =>
      rcases List.mem_append.mp hc with hc | hc
      · exact .inr hc
      · exact (ih hc).imp_left (List.mem_append_right run)

theorem mem_redactText {c : Char} (hc : c ∈ (redactText w s).toList) :
    c ∈ s.toList ∨ c ∈ redacted.toList := by
  rw [redactText, String.toList_ofList] at hc
  rcases (blanked_sub_awsAccessKey w false _).mem hc with hc | hc
  · exact (blanked_sub w false s.toList).mem hc
  · exact .inr hc

theorem Blanked.eq_or_bracket (h : Blanked cs ds) : ds = cs ∨ '[' ∈ ds := by
  induction h with
  | nil => exact .inl rfl
  | keep c _ ih =>
      rcases ih with rfl | hmem
      · exact .inl rfl
      · exact .inr (List.mem_cons_of_mem c hmem)
  | blank => exact .inr (List.mem_append_left _ (by decide))

theorem redactText_eq_or_bracket (w : WordClass) (s : String) :
    redactText w s = s ∨ '[' ∈ (redactText w s).toList := by
  rw [redactText, String.toList_ofList]
  rcases (blanked_sub w false s.toList).eq_or_bracket with hsub | hmem
  · rw [hsub]
    rcases (blanked_sub_awsAccessKey w false s.toList).eq_or_bracket with hkey | hmem
    · exact .inl (by rw [hkey, String.ofList_toList])
    · exact .inr hmem
  · refine .inr ?_
    rcases (blanked_sub_awsAccessKey w false _).eq_or_bracket with hkey | hmem'
    · rwa [hkey]
    · exact hmem'

/-- A text without white space around it has none once it is redacted. -/
theorem strip_redactText (h : Text.strip s = s) :
    Text.strip (redactText w s) = redactText w s := by
  have hends := sameEnds_redactText w s
  cases hblank : s.toList.all Text.isSpace with
  | true =>
      rw [strip_eq_empty_iff.mpr hblank] at h
      rw [← h]
      rfl
  | false =>
      have hparts := eq_append_strip hblank
      have hlength := congrArg List.length hparts
      rw [h, List.length_append, List.length_append] at hlength
      have hstart : s.toList.takeWhile Text.isSpace = [] := List.length_eq_zero_iff.mp (by omega)
      have hfinish : s.toList.rtakeWhile Text.isSpace = [] := List.length_eq_zero_iff.mp (by omega)
      have hredacted := eq_append_strip (hends.blank.symm.trans hblank)
      rw [← hends.start, ← hends.finish, hstart, hfinish, List.nil_append, List.append_nil]
        at hredacted
      exact (String.toList_inj.mp hredacted).symm

/-- In a text that could be one value, one secret at most is blanked. -/
theorem length_sub_sensitiveText_le (before : Bool) {cs : List Char}
    (h : ∀ c ∈ cs, isValue c = true) :
    ((sensitiveText w).sub w before cs).length ≤ cs.length + redacted.length := by
  induction before, cs using Pattern.sub_induction (consuming_sensitiveText w) (w := w) with
  | nil before => exact Nat.zero_le _
  | keep before c cs hnone ih =>
      have hrest := ih fun d hd => h d (List.mem_cons_of_mem c hd)
      rw [Pattern.sub_of_none hnone, List.length_cons, List.length_cons]
      omega
  | replace before c cs replacement n hmatch ih =>
      obtain ⟨front, run, rest, hchars, -, hlength, hsensitive⟩ := sensitiveText_eq_some.mp hmatch
      have hrest : rest = [] := by
        cases hrest : rest with
        | nil => rfl
        | cons d rest' =>
            have hmem : d ∈ c :: cs := by
              rw [hchars, hrest]
              simp
            have hstop := hsensitive.rest d (by simp [hrest])
            rw [h d hmem] at hstop
            cases hstop
      rw [hchars, hsensitive.sub, hrest, Pattern.sub_nil]
      simp only [List.length_append, List.length_nil, ← String.length_toList]
      omega

theorem length_redactText_le (h : ∀ c ∈ s.toList, isValue c = true)
    (hA : 'A' ∉ s.toList) : (redactText w s).length ≤ s.length + redacted.length := by
  have hA' : 'A' ∉ (sensitiveText w).sub w false s.toList := fun hmem =>
    ((blanked_sub w false s.toList).mem hmem).elim hA (by decide)
  have hsub : (awsAccessKey w).sub w false ((sensitiveText w).sub w false s.toList ++ []) = _ :=
    sub_awsAccessKey_append hA' false
  rw [List.append_nil, Pattern.sub_nil, List.append_nil] at hsub
  rw [redactText, hsub, String.length_ofList]
  exact length_sub_sensitiveText_le false h

end WaitLocalAgent.Redaction
