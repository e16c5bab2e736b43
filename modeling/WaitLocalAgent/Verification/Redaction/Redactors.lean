import WaitLocalAgent.Verification.Redaction.Fronts

/-! # Redaction behind a text

A pattern that replaces the values of assignments hides a value behind any text, unless the text
leaves an assignment open whose value then ends before the other one begins. -/

namespace WaitLocalAgent.Redaction

open Foundation PowerPlatform

variable {w : WordClass} {words : List String} {isVal : Char → Bool} {Follows : List Char → Prop}
  {pattern : Pattern}

/-- A value, and what follows it. -/
structure Value (isVal : Char → Bool) (run rest : List Char) : Prop where
  ne_nil : run ≠ []
  all : ∀ c ∈ run, isVal c = true
  rest : ∀ c ∈ rest.head?, isVal c = false

theorem Value.head {run rest : List Char} (h : Value isVal run rest) :
    (run ++ rest).head?.any isVal = true := by
  cases run with
  | nil => exact absurd rfl h.ne_nil
  | cons c run => exact h.all c (by simp)

/-- The text is an assignment whose value goes on behind it. -/
def Open (words : List String) (isVal : Char → Bool) (text : List Char) : Prop :=
  ∃ front run, Front words front ∧ text = front ++ run ∧ ∀ c ∈ run, isVal c = true

/-- From here an assignment may go on behind the text: its value, or its word. -/
def Crosses (w : WordClass) (words : List String) (isVal : Char → Bool) (front₀ : List Char)
    (before : Bool) (text : List Char) : Prop :=
  w.boundary before text = true ∧ (Open words isVal text ∨ Front words (text ++ front₀))

/-- What may follow a text: a letter, or the assignment `front₀` with its value. -/
def tailOf (Follows : List Char → Prop) (front₀ : List Char) :
    Option {value : List Char // Follows value} → List Char
  | none => ['x']
  | some value => front₀ ++ value.1

/-- The pattern replaces the value of an assignment to one of the words, and behind a text it does
not look at what follows `Follows` unless an assignment goes on there. -/
structure Redactor (w : WordClass) (words : List String) (isVal : Char → Bool)
    (Follows : List Char → Prop) (pattern : Pattern) : Prop where
  wordy : wordy words = true
  consuming : pattern.Consuming
  inWord : ∀ c, inWord w c = true → isVal c = true
  sign : isVal ':' = true ∧ isVal '=' = true
  blank : ∀ c, Text.isSpace c = true → isVal c = false
  front : ∀ {before cs found}, pattern before cs = some found →
    w.boundary before cs = true ∧ ∃ front rest, cs = front ++ rest ∧ Front words front
  value : ∀ {before front run rest}, Front words front → Value isVal run rest →
    w.boundary before (front ++ (run ++ rest)) = true → pattern before (front ++ (run ++ rest)) =
      some (front ++ redacted.toList, (front ++ run).length)
  inside : ∀ {front₀ letters gap sign gap' text}, Shape w front₀ letters gap sign gap' →
    text ≠ [] → EndsOutside w text → ∀ before, ¬ Crosses w words isVal front₀ before text →
      (∀ i, pattern before (text ++ tailOf Follows front₀ i) = none) ∨
        ∃ replacement n, n ≤ text.length ∧
          ∀ i, pattern before (text ++ tailOf Follows front₀ i) = some (replacement, n)

section Tail

variable {front₀ letters gap gap' : List Char} {sign : Char}
  (hshape : Shape w front₀ letters gap sign gap')
include hshape

theorem tailOf_head (i : Option {value // Follows value}) :
    ∀ c ∈ (tailOf Follows front₀ i).head?, w.isWord c = true := by
  intro c hc
  cases i with
  | none =>
      cases hc
      rw [w.ascii _ (by decide)]
      decide
  | some value =>
      rw [tailOf, hshape.eq] at hc
      obtain ⟨d, hd, hword⟩ := (Option.any_eq_true _ _).mp hshape.first
      cases letters with
      | nil => cases hd
      | cons e letters =>
          cases hd
          cases hc
          exact hword

/-- An assignment that the end of a text cuts goes on with `front₀`. -/
theorem eq_append_of_cut (hwords : wordy words = true)
    (htails : ∀ value, Follows value → NoGap value)
    {front text value : List Char} {i : Option {value // Follows value}}
    (hfound : Front words front) (hvalue : NoGap value) (htext : EndsOutside w text)
    (heq : text ++ tailOf Follows front₀ i = front ++ value) :
    (∃ run, text = front ++ run ∧ value = run ++ tailOf Follows front₀ i) ∨
      front = text ++ front₀ := by
  obtain ⟨letters', gaps, sign', gaps', hshape'⟩ := hfound.shape (w := w) hwords
  rcases hshape'.inside_or_cut htext (tailOf_head hshape i) heq with
      hrun | ⟨cut, hne, hletters, htail⟩
  · exact .inl hrun
  · right
    cases i with
    | none =>
        have hmem : sign' ∈ ['x'] := by
          rw [show ['x'] = _ from htail]
          simp
        rcases hshape'.isSign with rfl | rfl <;> exact absurd hmem (by decide)
    | some tail =>
        have hcut : Shape w (cut ++ (gaps ++ sign' :: gaps')) cut gaps sign' gaps' := by
          refine ⟨rfl, fun c hc => hshape'.letter c (by simp [hletters, hc]), ?_, ?_,
            hshape'.isSpace, hshape'.isSign, hshape'.isSpace'⟩
          · cases cut with
            | nil => exact absurd rfl hne
            | cons c cut =>
                exact tailOf_head hshape (some tail) c (by rw [htail]; rfl)
          · have hlast := hshape'.last
            rwa [hletters, List.getLast?_append_of_ne_nil _ hne] at hlast
        have htail' : front₀ ++ tail.1 = cut ++ (gaps ++ sign' :: gaps') ++ value := htail
        obtain ⟨hsame, -, -⟩ := hshape.eq_of_append hcut (htails _ tail.2) hvalue htail'
        rw [hshape'.eq, hletters, List.append_assoc, ← hsame]

end Tail

/-- The text ends in an assignment whose value goes on behind it: a letter there is replaced. -/
def leavesOpen (w : WordClass) (pattern : Pattern) (text : String) : Bool :=
  (pattern.sub w false (text.toList ++ ['x'])).getLast? != some 'x'

theorem Front.head (hwords : wordy words = true) {front : List Char} (h : Front words front) :
    front.head?.any w.isWord = true := by
  obtain ⟨letters, gap, sign, gap', hshape⟩ := h.shape (w := w) hwords
  have hfirst := hshape.first
  rw [hshape.eq]
  cases letters with
  | nil => cases hfirst
  | cons c letters => exact hfirst

theorem boundary_front (hwords : wordy words = true) {front rest : List Char}
    (h : Front words front) : w.boundary false (front ++ rest) = true := by
  have hhead := Front.head (w := w) hwords h
  cases front with
  | nil => cases hhead
  | cons c front => simpa [WordClass.boundary] using hhead

namespace Redactor

variable (hpattern : Redactor w words isVal Follows pattern)
include hpattern

theorem anchored : pattern.Anchored w := by
  intro before c cs h
  cases hfound : pattern before (c :: cs) with
  | none => rfl
  | some found =>
      obtain ⟨hboundary, front, rest, heq, hfront⟩ := hpattern.front hfound
      have hhead := Front.head (w := w) hpattern.wordy hfront
      cases front with
      | nil => cases hhead
      | cons d front =>
          obtain ⟨rfl, -⟩ := List.cons.inj heq
          rw [List.head?_cons, Option.any_some] at hhead
          rcases h with rfl | hc
          · simp [WordClass.boundary, hhead] at hboundary
          · rw [hhead] at hc
            cases hc

theorem isVal_sign {c : Char} (hc : c = ':' ∨ c = '=') : isVal c = true := by
  rcases hc with rfl | rfl
  · exact hpattern.sign.1
  · exact hpattern.sign.2

theorem not_isWord {c : Char} (hc : isVal c = false) : w.isWord c = false := by
  by_contra hword
  rw [Bool.not_eq_false] at hword
  rw [hpattern.inWord c (by rw [Redaction.inWord, hword, Bool.true_or])] at hc
  cases hc

theorem sub_value {front run rest : List Char} (hfront : Front words front)
    (hvalue : Value isVal run rest) {before : Bool}
    (hbefore : w.boundary before (front ++ (run ++ rest)) = true) :
    pattern.sub w before (front ++ (run ++ rest)) =
      front ++ redacted.toList ++ pattern.sub w false rest := by
  have hne : front ++ (run ++ rest) ≠ [] := by simp [hvalue.ne_nil]
  have hmatch := hpattern.value hfront hvalue hbefore
  rw [Pattern.sub_of_match hne (hpattern.consuming _ _ _ _ hmatch) hmatch,
    ← List.append_assoc front run, List.drop_left, Pattern.sub_before hpattern.anchored]
  exact fun c hc => hpattern.not_isWord (hvalue.rest c hc)

/-- A text without a sign is left as it is. -/
theorem sub_of_signless {cs : List Char} (h : ∀ c ∈ cs, c ≠ ':' ∧ c ≠ '=') (before : Bool) :
    pattern.sub w before cs = cs := by
  have hnone : ∀ before, ∀ c tail, (c :: tail) <:+ cs →
      pattern before (c :: (tail ++ [])) = none := by
    intro before c tail hsuffix
    rw [List.append_nil]
    cases hmatch : pattern before (c :: tail) with
    | none => rfl
    | some found =>
        obtain ⟨-, front, rest, heq, hfront⟩ := hpattern.front hmatch
        obtain ⟨letters, gap, sign, gap', hshape⟩ := hfront.shape (w := w) hpattern.wordy
        have hmem : sign ∈ cs := hsuffix.subset (by simp [heq, hshape.eq])
        rcases hshape.isSign with rfl | rfl
        · exact absurd rfl (h ':' hmem).1
        · exact absurd rfl (h '=' hmem).2
  have hsub : pattern.sub w before (cs ++ []) = _ := Pattern.sub_append_of_none hnone before
  rwa [List.append_nil, Pattern.sub_nil, List.append_nil] at hsub

end Redactor

section Scan

variable {front₀ letters gap gap' p : List Char} {sign : Char}
  (hpattern : Redactor w words isVal Follows pattern)
  (hshape : Shape w front₀ letters gap sign gap') (hp : EndsOutside w p)
include hpattern hshape hp

/-- What the text makes of an assignment behind it. -/
theorem Redactor.sub_before_front :
    ∃ out, (∀ i, pattern.sub w false (p ++ tailOf Follows front₀ i) =
        out ++ pattern.sub w false (tailOf Follows front₀ i)) ∨
      ∃ before text, text ≠ [] ∧ EndsOutside w text ∧ Crosses w words isVal front₀ before text ∧
        ∀ i, pattern.sub w false (p ++ tailOf Follows front₀ i) =
          out ++ pattern.sub w before (text ++ tailOf Follows front₀ i) := by
  obtain ⟨out, hend | ⟨before, c, rest, hsuffix, hcross, hsub⟩⟩ :=
    Pattern.exists_scan (w := w) (tailOf Follows front₀) hpattern.consuming
      (fun before c rest hsuffix => or_iff_not_imp_left.mpr (hpattern.inside hshape
        (List.cons_ne_nil c rest) (hp.suffix hsuffix) before)) false
  · rw [hp.endsWord] at hend
    exact ⟨out, .inl hend⟩
  · exact ⟨out, .inr ⟨before, c :: rest, List.cons_ne_nil c rest, hp.suffix hsuffix, hcross, hsub⟩⟩

omit hp in
/-- What ends in the middle of a word has no sign. -/
theorem signless_of_cut {text : List Char} (htext : EndsOutside w text)
    (hcut : Front words (text ++ front₀)) : ∀ c ∈ text, c ≠ ':' ∧ c ≠ '=' := by
  obtain ⟨letters', gaps, sign', gaps', hshape'⟩ := hcut.shape (w := w) hpattern.wordy
  have hhead : ∀ c ∈ front₀.head?, w.isWord c = true := by
    intro c hc
    rw [hshape.eq] at hc
    have hfirst := hshape.first
    cases letters with
    | nil => cases hfirst
    | cons d letters =>
        cases hc
        exact hfirst
  have happend : text ++ front₀ = text ++ front₀ ++ [] := (List.append_nil _).symm
  rcases hshape'.inside_or_cut htext hhead happend with ⟨run, hrun, -⟩ | ⟨cut, -, hletters, -⟩
  · have hlength := congrArg List.length hrun
    have hpos := congrArg List.length hshape.eq
    simp only [List.length_append, List.length_cons] at hlength hpos
    omega
  · intro c hc
    have hletter := hshape'.letter c (by simp [hletters, hc])
    have hsign : ∀ {d : Char}, d = ':' ∨ d = '=' → inWord w d ≠ true := by
      intro d hd
      rw [inWord, not_isWord_sign w hd]
      rcases hd with rfl | rfl <;> decide
    exact ⟨fun h => hsign (.inl h) hletter, fun h => hsign (.inr h) hletter⟩

/-- The text leaves an assignment open exactly if the scan comes to one that goes on behind it. -/
theorem sub_leavesOpen (hopen : leavesOpen w pattern (.ofList p) = true) :
    ∃ out before text, w.boundary before text = true ∧ text ≠ [] ∧ Open words isVal text ∧
      ∀ i, pattern.sub w false (p ++ tailOf Follows front₀ i) =
        out ++ pattern.sub w before (text ++ tailOf Follows front₀ i) := by
  rw [leavesOpen, String.toList_ofList, bne_iff_ne] at hopen
  obtain ⟨out, hend | ⟨before, text, hne, htext, ⟨hbefore, hcross⟩, hsub⟩⟩ :=
    hpattern.sub_before_front hshape hp
  · have hlast : pattern.sub w false (p ++ ['x']) = out ++ ['x'] := by
      rw [show p ++ ['x'] = p ++ tailOf Follows front₀ none from rfl, hend, tailOf,
        hpattern.sub_of_signless (by decide)]
    exact absurd (by rw [hlast, List.getLast?_concat]) hopen
  · rcases hcross with hcross | hcut
    · exact ⟨out, before, text, hbefore, hne, hcross, hsub⟩
    · have hsignless : ∀ c ∈ text ++ ['x'], c ≠ ':' ∧ c ≠ '=' := by
        intro c hc
        rcases List.mem_append.mp hc with hc | hc
        · exact signless_of_cut hpattern hshape htext hcut c hc
        · rw [List.mem_singleton.mp hc]
          decide
      have hlast : pattern.sub w false (p ++ ['x']) = out ++ text ++ ['x'] := by
        rw [show p ++ ['x'] = p ++ tailOf Follows front₀ none from rfl, hsub, tailOf,
          hpattern.sub_of_signless hsignless, List.append_assoc]
      exact absurd (by rw [hlast, List.getLast?_concat]) hopen

omit hpattern hshape hp in
theorem boundary_append {before : Bool} {text rest : List Char} (hne : text ≠ [])
    (h : w.boundary before text = true) : w.boundary before (text ++ rest) = true := by
  cases text with
  | nil => exact absurd rfl hne
  | cons c text => exact h

/-- Behind a text that leaves nothing open, or if no blank ends the value before the other one
begins, the value is redacted. -/
theorem exists_hidden (hfront : Front words front₀)
    (h : leavesOpen w pattern (.ofList p) = false ∨ gap = [] ∧ gap' = []) :
    ∃ out, ∀ run rest, Value isVal run rest → Follows (run ++ rest) →
      pattern.sub w false (p ++ (front₀ ++ (run ++ rest))) =
        out ++ pattern.sub w false rest := by
  obtain ⟨out, hend | ⟨before, text, hne, -, ⟨hbefore, hcross⟩, hsub⟩⟩ :=
    hpattern.sub_before_front hshape hp
  · refine ⟨out ++ (front₀ ++ redacted.toList), fun run rest hvalue hfollows => ?_⟩
    have hstart : pattern.sub w false (p ++ (front₀ ++ (run ++ rest))) =
        out ++ pattern.sub w false (front₀ ++ (run ++ rest)) :=
      hend (some ⟨run ++ rest, hfollows⟩)
    rw [hstart, hpattern.sub_value hfront hvalue (boundary_front hpattern.wordy hfront),
      ← List.append_assoc out]
  · rcases hcross with ⟨front, inner, hopened, rfl, hinner⟩ | hcut
    · rcases h with hclosed | ⟨rfl, rfl⟩
      · -- the letter behind the text would have been redacted
        have hvalue : Value isVal (inner ++ ['x']) [] := by
          refine ⟨by simp, fun c hc => ?_, by simp⟩
          rcases List.mem_append.mp hc with hc | hc
          · exact hinner c hc
          · rw [List.mem_singleton.mp hc]
            refine hpattern.inWord 'x' ?_
            rw [inWord, isWord_of_isAlphanum w (by decide), Bool.true_or]
        have hx : pattern.sub w false (p ++ ['x']) =
            out ++ (front ++ redacted.toList) := by
          have hstart : pattern.sub w false (p ++ ['x']) =
            out ++ pattern.sub w before (front ++ inner ++ ['x']) := hsub none
          have hchars : front ++ inner ++ ['x'] = front ++ ((inner ++ ['x']) ++ []) := by simp
          rw [hstart, hchars, hpattern.sub_value hopened hvalue
            (hchars ▸ boundary_append hne hbefore),
            Pattern.sub_nil, List.append_nil]
        have hlast : (out ++ (front ++ redacted.toList)).getLast? = some ']' := by
          rw [List.getLast?_append_of_ne_nil _ (by simp [redacted]),
            List.getLast?_append_of_ne_nil _ (by decide)]
          decide
        rw [leavesOpen, String.toList_ofList, hx, hlast] at hclosed
        exact absurd hclosed (by decide)
      · -- the assignment is part of the value
        refine ⟨out ++ (front ++ redacted.toList), fun run rest hvalue hfollows => ?_⟩
        have hwhole : Value isVal (inner ++ (front₀ ++ run)) rest := by
          refine ⟨by simp [hshape.eq], fun c hc => ?_, hvalue.rest⟩
          simp only [hshape.eq, List.mem_append, List.mem_singleton, List.nil_append] at hc
          rcases hc with hc | (hc | rfl) | hc
          · exact hinner c hc
          · exact hpattern.inWord c (hshape.letter c hc)
          · exact hpattern.isVal_sign hshape.isSign
          · exact hvalue.all c hc
        have hstart : pattern.sub w false (p ++ (front₀ ++ (run ++ rest))) =
            out ++ pattern.sub w before (front ++ inner ++ (front₀ ++ (run ++ rest))) :=
          hsub (some ⟨run ++ rest, hfollows⟩)
        have hchars : front ++ inner ++ (front₀ ++ (run ++ rest)) =
            front ++ (inner ++ (front₀ ++ run) ++ rest) := by simp
        rw [hstart, hchars, hpattern.sub_value hopened hwhole
          (hchars ▸ boundary_append hne hbefore),
          ← List.append_assoc out]
    · refine ⟨out ++ (text ++ front₀ ++ redacted.toList), fun run rest hvalue hfollows => ?_⟩
      have hstart : pattern.sub w false (p ++ (front₀ ++ (run ++ rest))) =
          out ++ pattern.sub w before (text ++ (front₀ ++ (run ++ rest))) :=
        hsub (some ⟨run ++ rest, hfollows⟩)
      have hchars : text ++ (front₀ ++ (run ++ rest)) = text ++ front₀ ++ (run ++ rest) :=
        (List.append_assoc _ _ _).symm
      rw [hstart, hchars, hpattern.sub_value hcut hvalue (hchars ▸ boundary_append hne hbefore),
        ← List.append_assoc out]

omit hshape hp in
theorem Redactor.sub_outside {outside : List Char} (houtside : ∀ c ∈ outside, w.isWord c = false)
    (rest : List Char) : pattern.sub w false (outside ++ rest) =
      outside ++ pattern.sub w false rest := by
  induction outside with
  | nil => rfl
  | cons c outside ih =>
      rw [List.cons_append, Pattern.sub_other hpattern.anchored false
        (houtside c (by simp)), ih fun d hd => houtside d (by simp [hd])]
      rfl

/-- Behind a text that leaves an assignment open, its value ends at the first blank, and what comes
then is not redacted for the sake of `front₀`. -/
theorem exists_shown (hopen : leavesOpen w pattern (.ofList p) = true)
    (hgaps : gap ≠ [] ∨ gap' ≠ []) :
    ∃ out, ∀ value, Follows value →
      pattern.sub w false (p ++ (front₀ ++ value)) =
        out ++ pattern.sub w false value := by
  obtain ⟨out, before, text, hbefore, hne, ⟨front, inner, hopened, rfl, hinner⟩, hsub⟩ :=
    sub_leavesOpen hpattern hshape hp hopen
  -- where the first blank of `front₀` is
  obtain ⟨inside, blank, more, hfront₀, hinside, hinsideNe, hblank, hmore⟩ :
      ∃ inside blank more, front₀ = inside ++ blank :: more ∧ (∀ c ∈ inside, isVal c = true) ∧
        inside ≠ [] ∧ Text.isSpace blank = true ∧ ∀ c ∈ more, w.isWord c = false := by
    have hletters : letters ≠ [] := by
      rintro rfl
      exact absurd hshape.first (by simp)
    cases gap with
    | cons c gap =>
        refine ⟨letters, c, gap ++ sign :: gap', hshape.eq,
          fun d hd => hpattern.inWord d (hshape.letter d hd), hletters, hshape.isSpace c (by simp),
          fun d hd => not_isWord_of_mem_gaps hshape (by simp at hd ⊢; grind)⟩
    | nil =>
        cases gap' with
        | nil => simp at hgaps
        | cons c gap' =>
            refine ⟨letters ++ [sign], c, gap', by simp [hshape.eq], fun d hd => ?_, by simp,
              hshape.isSpace' c (by simp),
              fun d hd => not_isWord_of_mem_gaps hshape (by simp [hd])⟩
            rcases List.mem_append.mp hd with hd | hd
            · exact hpattern.inWord d (hshape.letter d hd)
            · rw [List.mem_singleton.mp hd]
              exact hpattern.isVal_sign hshape.isSign
  refine ⟨out ++ (front ++ redacted.toList) ++ blank :: more, fun value hfollows => ?_⟩
  have hvalue : Value isVal (inner ++ inside) (blank :: more ++ value) := by
    refine ⟨by simp [hinsideNe], fun c hc => ?_, fun c hc => ?_⟩
    · exact (List.mem_append.mp hc).elim (hinner c) (hinside c)
    · cases hc
      exact hpattern.blank _ hblank
  have hstart : pattern.sub w false (p ++ (front₀ ++ value)) =
      out ++ pattern.sub w before (front ++ inner ++ (front₀ ++ value)) :=
    hsub (some ⟨value, hfollows⟩)
  have hchars : front ++ inner ++ (front₀ ++ value) =
      front ++ (inner ++ inside ++ (blank :: more ++ value)) := by simp [hfront₀]
  rw [hstart, hchars, hpattern.sub_value hopened hvalue (hchars ▸ boundary_append hne hbefore),
    hpattern.sub_outside]
  · simp
  · intro c hc
    rcases List.mem_cons.mp hc with rfl | hc
    · exact w.space c hblank
    · exact hmore c hc

end Scan

end WaitLocalAgent.Redaction
