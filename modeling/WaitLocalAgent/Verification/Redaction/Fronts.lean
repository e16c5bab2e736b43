import WaitLocalAgent.Verification.Redaction.Plain

/-! # Assignments in front of a tail

An assignment that starts in a text ends in it, or it ends the text, or its word is cut in two by
the end of the text. -/

namespace WaitLocalAgent.Redaction

open Foundation PowerPlatform

variable {w : WordClass} {words : List String}

/-- Words of small letters, with `-` or `_` between them. -/
def wordy (words : List String) : Bool :=
  words.all fun word =>
    word.toList.all (fun p => isLowerLetter p || p == '-' || p == '_') &&
      word.toList.head?.any isLowerLetter && word.toList.getLast?.any isLowerLetter

def Front (words : List String) (front : List Char) : Prop :=
  ∃ word ∈ words, Assignment word front

def inWord (w : WordClass) (c : Char) : Bool := w.isWord c || c == '-'

/-- Letters and a sign, with gaps around it. -/
structure Shape (w : WordClass) (front letters gap : List Char) (sign : Char) (gap' : List Char) :
    Prop where
  eq : front = letters ++ (gap ++ sign :: gap')
  letter : ∀ c ∈ letters, inWord w c = true
  first : letters.head?.any w.isWord = true
  last : letters.getLast?.any w.isWord = true
  isSpace : ∀ c ∈ gap, Text.isSpace c = true
  isSign : sign = ':' ∨ sign = '='
  isSpace' : ∀ c ∈ gap', Text.isSpace c = true

theorem eq_of_toLower {p c : Char} (hp : p.toNat < 97) (h : c.toLower = p) : c = p := by
  rw [Char.toLower] at h
  split at h
  · next hupper =>
      have hval := congrArg (fun d : Char => d.val.toNat) h
      simp only [ge_iff_le, UInt32.le_iff_toNat_le] at hupper
      have hnat : p.toNat = p.val.toNat := rfl
      simp [UInt32.toNat_add] at hval hupper
      omega
  · exact h

theorem eq_of_sameLetter {p c : Char} (hp : p = '-' ∨ p = '_') (h : sameLetter p c = true) :
    c = p := by
  simp only [sameLetter, Bool.or_eq_true, Bool.and_eq_true, beq_iff_eq] at h
  rcases hp with rfl | rfl
  · rcases h with (((rfl | hlower) | ⟨hp, -⟩) | ⟨hp, -⟩) | ⟨hp, -⟩
    · rfl
    · exact eq_of_toLower (by decide) hlower
    all_goals exact absurd hp (by decide)
  · rcases h with (((rfl | hlower) | ⟨hp, -⟩) | ⟨hp, -⟩) | ⟨hp, -⟩
    · rfl
    · exact eq_of_toLower (by decide) hlower
    all_goals exact absurd hp (by decide)

theorem inWord_of_sameLetter {p c : Char}
    (hp : (isLowerLetter p || p == '-' || p == '_') = true) (h : sameLetter p c = true) :
    inWord w c = true := by
  simp only [Bool.or_eq_true, beq_iff_eq, or_assoc] at hp
  rcases hp with hp | hp
  · rw [inWord, isWord_of_sameLetter w hp h, Bool.true_or]
  · rw [eq_of_sameLetter hp h, inWord]
    rcases hp with rfl | rfl
    · simp
    · rw [w.ascii _ (by decide)]
      decide

theorem Spells.head? {word letters : List Char} (h : Spells word letters)
    (hword : word.head?.any isLowerLetter = true) : letters.head?.any w.isWord = true := by
  cases h with
  | nil => cases hword
  | cons hsame h => exact isWord_of_sameLetter w (by simpa using hword) hsame

theorem Spells.getLast? {word letters : List Char} (h : Spells word letters)
    (hword : word.getLast?.any isLowerLetter = true) : letters.getLast?.any w.isWord = true := by
  rw [← List.head?_reverse] at hword ⊢
  exact Spells.head? (List.rel_reverse h) hword

theorem Spells.shape {word : String} {letters gap gap' : List Char} {sign : Char}
    (h : Spells word.toList letters) (hword : wordy [word] = true)
    (hgap : ∀ c ∈ gap, Text.isSpace c = true) (hsign : sign = ':' ∨ sign = '=')
    (hgap' : ∀ c ∈ gap', Text.isSpace c = true) :
    Shape w (letters ++ (gap ++ sign :: gap')) letters gap sign gap' := by
  simp only [wordy, List.all_cons, List.all_nil, Bool.and_true, Bool.and_eq_true] at hword
  obtain ⟨⟨hall, hfirst⟩, hlast⟩ := hword
  refine ⟨rfl, fun c hc => ?_, h.head? hfirst, h.getLast? hlast, hgap, hsign, hgap'⟩
  obtain ⟨p, hp, hsame⟩ := h.exists_of_mem hc
  exact inWord_of_sameLetter (List.all_eq_true.mp hall p hp) hsame

theorem wordy_singleton (hwords : wordy words = true) {word : String} (hword : word ∈ words) :
    wordy [word] = true := by
  simp only [wordy, List.all_eq_true, List.mem_singleton, forall_eq] at hwords ⊢
  exact hwords word hword

theorem Front.shape (hwords : wordy words = true) {front : List Char} (h : Front words front) :
    ∃ letters gap sign gap', Shape w front letters gap sign gap' := by
  obtain ⟨word, hword, letters, gap, sign, gap', rfl, hspells, hgap, hsign, hgap'⟩ := h
  exact ⟨letters, gap, sign, gap',
    hspells.shape (wordy_singleton hwords hword) hgap hsign hgap'⟩

/-- A character that is no blank, if there is one. -/
def NoGap (cs : List Char) : Prop := ∀ c ∈ cs.head?, Text.isSpace c = false

theorem append_inj_of_head {p : Char → Bool} {run rest run' rest' : List Char}
    (hrun : ∀ c ∈ run, p c = true) (hrest : ∀ c ∈ rest.head?, p c = false)
    (hrun' : ∀ c ∈ run', p c = true) (hrest' : ∀ c ∈ rest'.head?, p c = false)
    (h : run ++ rest = run' ++ rest') : run = run' ∧ rest = rest' := by
  have hsame : run = run' := by
    rw [← (takeWhile_append_eq hrun hrest).1, h, (takeWhile_append_eq hrun' hrest').1]
  subst hsame
  exact ⟨rfl, List.append_cancel_left h⟩

theorem not_inWord_of_isSpace {c : Char} (hc : Text.isSpace c = true) : inWord w c = false := by
  rw [inWord, w.space c hc, Bool.false_or, beq_eq_false_iff_ne]
  rintro rfl
  exact absurd hc (by decide)

theorem not_inWord_sign {c : Char} (hc : c = ':' ∨ c = '=') : inWord w c = false := by
  rw [inWord, not_isWord_sign w hc]
  rcases hc with rfl | rfl <;> rfl

section Gaps

variable {front letters gap gap' : List Char} {sign : Char}
  (h : Shape w front letters gap sign gap')
include h

/-- The letters end at the gap or at the sign. -/
theorem Shape.head_gaps (more : List Char) :
    ∀ d ∈ (gap ++ sign :: more).head?, inWord w d = false := by
  intro d hd
  cases gap with
  | nil =>
      cases hd
      exact not_inWord_sign h.isSign
  | cons e gap =>
      cases hd
      exact not_inWord_of_isSpace (h.isSpace d (by simp))

theorem Shape.head_sign (more : List Char) :
    ∀ d ∈ (sign :: more).head?, Text.isSpace d = false := by
  intro d hd
  cases hd
  exact not_isSpace_sign h.isSign

theorem Shape.append_eq (rest : List Char) :
    front ++ rest = letters ++ (gap ++ sign :: (gap' ++ rest)) := by
  rw [h.eq]
  simp

end Gaps

/-- Where an assignment ends is settled by what it stands in. -/
theorem Shape.eq_of_append {front letters gap gap' front' letters' gap₂ gap₂' : List Char}
    {sign sign' : Char} (h : Shape w front letters gap sign gap')
    (h' : Shape w front' letters' gap₂ sign' gap₂') {rest rest' : List Char} (hrest : NoGap rest)
    (hrest' : NoGap rest') (heq : front ++ rest = front' ++ rest') :
    front = front' ∧ letters = letters' ∧ rest = rest' := by
  rw [h.append_eq, h'.append_eq] at heq
  obtain ⟨rfl, hgaps⟩ := append_inj_of_head h.letter (h.head_gaps _) h'.letter (h'.head_gaps _) heq
  obtain ⟨rfl, hsigns⟩ := append_inj_of_head h.isSpace (h.head_sign _) h'.isSpace (h'.head_sign _)
    hgaps
  obtain ⟨rfl, hends⟩ := List.cons.inj hsigns
  obtain ⟨rfl, rfl⟩ := append_inj_of_head h.isSpace' hrest h'.isSpace' hrest' hends
  exact ⟨h.eq.trans h'.eq.symm, rfl, rfl⟩

theorem isValue_of_inWord {c : Char} (h : inWord w c = true) : isValue c = true := by
  rcases Bool.or_eq_true_iff.mp h with h | h
  · exact isValue_of_isWord h
  · rw [beq_iff_eq.mp h]
    decide

/-- The text is empty, or no word goes on behind it. -/
def EndsOutside (w : WordClass) (cs : List Char) : Prop := ∀ c ∈ cs.getLast?, w.isWord c = false

theorem EndsOutside.suffix {cs ds : List Char} (h : EndsOutside w cs) (hds : ds <:+ cs) :
    EndsOutside w ds := by
  intro c hc
  obtain ⟨front, rfl⟩ := hds
  apply h
  cases ds with
  | nil => cases hc
  | cons d ds => rwa [List.getLast?_append_of_ne_nil _ (List.cons_ne_nil d ds)]

theorem EndsOutside.endsWord {cs : List Char} (h : EndsOutside w cs) :
    w.endsWord false cs = false := by
  induction cs using List.reverseRecOn with
  | nil => rfl
  | append_singleton cs c _ =>
      rw [Pattern.endsWord_concat]
      exact h c (by simp)

theorem not_isWord_of_mem_gaps {front letters gap gap' : List Char} {sign : Char}
    (h : Shape w front letters gap sign gap') {c : Char} (hc : c ∈ gap ++ sign :: gap') :
    w.isWord c = false := by
  rcases List.mem_append.mp hc with hc | hc
  · exact w.space c (h.isSpace c hc)
  · rcases List.mem_cons.mp hc with rfl | hc
    · exact not_isWord_sign w h.isSign
    · exact w.space c (h.isSpace' c hc)

/-- An assignment that starts in a text in front of a word ends in the text, unless its own word is
cut by the end of the text. -/
theorem Shape.inside_or_cut {front letters gap gap' text tail rest : List Char} {sign : Char}
    (h : Shape w front letters gap sign gap') (htext : EndsOutside w text)
    (htail : ∀ c ∈ tail.head?, w.isWord c = true) (heq : text ++ tail = front ++ rest) :
    (∃ run, text = front ++ run ∧ rest = run ++ tail) ∨
      ∃ cut, cut ≠ [] ∧ letters = text ++ cut ∧ tail = cut ++ (gap ++ sign :: gap') ++ rest := by
  rcases List.append_eq_append_iff.mp heq with ⟨cut, hfront, htail'⟩ | ⟨run, htext', hrest⟩
  · -- the assignment goes on in the tail, whose first character starts a word
    cases cut with
    | nil => exact .inl ⟨[], by simpa using hfront.symm, by simpa using htail'.symm⟩
    | cons c cut =>
        have hc : w.isWord c = true := htail c (by simp [htail'])
        rcases List.append_eq_append_iff.mp (hfront.symm.trans h.eq) with
          ⟨cut', hletters, hcut⟩ | ⟨gaps, -, hgaps⟩
        · refine .inr ⟨cut', ?_, hletters, by rw [htail', hcut]⟩
          rintro rfl
          obtain ⟨d, hd, hword⟩ := (Option.any_eq_true _ _).mp h.last
          rw [hletters, List.append_nil] at hd
          rw [htext d hd] at hword
          cases hword
        · -- it stands neither in the gaps nor for the sign
          have hmem : c ∈ gap ++ sign :: gap' := by simp [hgaps]
          rw [not_isWord_of_mem_gaps h hmem] at hc
          cases hc
  · exact .inl ⟨run, htext', hrest⟩

end WaitLocalAgent.Redaction
