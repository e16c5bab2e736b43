import WaitLocalAgent.Model.FounderScrub
import WaitLocalAgent.Verification.Redaction.Redactors

/-! # Assignments of secrets

What the pattern of assignments finds at a position of a text. -/

namespace WaitLocalAgent.FounderBundle

open Foundation PowerPlatform Redaction

variable {w : WordClass}

theorem wordy_secretLabels : wordy secretLabels = true := by decide

theorem not_isSecretChar_of_isQuote {c : Char} (h : isQuote c = true) : isSecretChar c = false := by
  simp [isSecretChar, h]

theorem not_isQuote_of_isSecretChar {c : Char} (h : isSecretChar c = true) : isQuote c = false := by
  by_contra hquote
  rw [not_isSecretChar_of_isQuote (Bool.not_eq_false _ ▸ hquote)] at h
  cases h

theorem isSecretChar_of_inWord {c : Char} (h : inWord w c = true) : isSecretChar c = true := by
  rcases Bool.or_eq_true_iff.mp h with hword | hdash
  · have hother : ∀ d ∈ [',', ';', '"', '\'', '\x7d'], c ≠ d := by
      intro d hd hcd
      have hascii : ∀ d ∈ [',', ';', '"', '\'', '\x7d'],
          d.toNat < 128 ∧ (d.isAlphanum || d == '_') = false := by decide
      rw [hcd, w.ascii d (hascii d hd).1, (hascii d hd).2] at hword
      cases hword
    have hspace := not_isSpace_of_isValue (isValue_of_isWord hword)
    simp only [List.mem_cons, List.not_mem_nil, or_false, forall_eq_or_imp, forall_eq] at hother
    simp [isSecretChar, isQuote, hspace, hother]
  · rw [beq_iff_eq.mp hdash]
    decide

theorem not_isSecretChar_of_isSpace {c : Char} (h : Text.isSpace c = true) :
    isSecretChar c = false := by
  simp [isSecretChar, h]

theorem replaceAssignment_append (front : List Char) {run : List Char} {n : ℕ}
    (hn : n = run.length) : replaceAssignment (front ++ run) n = front ++ redacted.toList := by
  subst hn
  simp [replaceAssignment]

theorem secretValue?_run (front : List Char) {run rest : List Char}
    (h : Value isSecretChar run rest) : secretValue? front (run ++ rest) =
      some (front ++ redacted.toList, (front ++ run).length) := by
  have htake := (takeWhile_append_eq h.all h.rest).1
  cases run with
  | nil => exact absurd rfl h.ne_nil
  | cons c run =>
      have hc : isSecretChar c = true := h.all c (by simp)
      rw [List.cons_append] at htake ⊢
      rw [secretValue?, if_neg (by simp [not_isQuote_of_isSecretChar hc]), if_pos hc, htake,
        replaceAssignment_append front rfl, List.length_append]

/-- Between quotes the first character stays. -/
theorem secretValue?_quoted (front : List Char) {quote c : Char} {run rest : List Char}
    (hquote : isQuote quote = true) (hrun : ∀ d ∈ c :: run, isSecretChar d = true) :
    secretValue? front (quote :: (c :: run ++ quote :: rest)) =
      some (front ++ [quote, c] ++ redacted.toList, front.length + (run.length + 3)) := by
  have hstop : ∀ d ∈ (quote :: rest).head?, isSecretChar d = false := by
    intro d hd
    cases hd
    exact not_isSecretChar_of_isQuote hquote
  obtain ⟨htake, hdrop⟩ := takeWhile_append_eq hrun hstop
  have hgroup : front ++ quote :: (c :: run ++ [quote]) =
      front ++ [quote, c] ++ (run ++ [quote]) := by simp
  rw [secretValue?, if_pos hquote, htake, hdrop, if_pos (by simp), hgroup,
    replaceAssignment_append _ (by simp)]
  simp
  omega

theorem secretValue?_eq_some {front value : List Char} {found : List Char × ℕ}
    (h : secretValue? front value = some found) :
    (∃ run rest, value = run ++ rest ∧ Value isSecretChar run rest) ∨
      ∃ quote c run rest, isQuote quote = true ∧ value = quote :: (c :: run ++ quote :: rest) ∧
        ∀ d ∈ c :: run, isSecretChar d = true := by
  cases value with
  | nil => cases h
  | cons c cs =>
      rw [secretValue?] at h
      split at h
      · rename_i hquote
        split at h
        · rename_i hclosed
          right
          rw [Bool.and_eq_true, Bool.not_eq_true', List.isEmpty_eq_false_iff, beq_iff_eq] at hclosed
          obtain ⟨hne, hhead⟩ := hclosed
          obtain ⟨d, run, hrun⟩ := List.exists_cons_of_ne_nil hne
          obtain ⟨rest, hrest⟩ := List.head?_eq_some_iff.mp hhead
          refine ⟨c, d, run, rest, hquote, ?_, fun e he => ?_⟩
          · rw [← hrun, ← hrest, List.takeWhile_append_dropWhile]
          · rw [← hrun] at he
            exact List.mem_takeWhile_imp he
        · cases h
      · split at h
        · rename_i hc
          left
          refine ⟨(c :: cs).takeWhile isSecretChar, (c :: cs).dropWhile isSecretChar,
            (List.takeWhile_append_dropWhile).symm, ⟨?_, fun d hd => List.mem_takeWhile_imp hd, ?_⟩⟩
          · rw [List.takeWhile_cons_of_pos hc]
            exact List.cons_ne_nil _ _
          · intro d hd
            have hhead := List.head?_dropWhile_not isSecretChar (c :: cs)
            rw [Option.mem_def.mp hd] at hhead
            exact hhead
        · cases h

theorem noGap_of_secretValue? {front value : List Char} {found : List Char × ℕ}
    (h : secretValue? front value = some found) : NoGap value := by
  intro c hc
  rcases secretValue?_eq_some h with ⟨run, rest, rfl, hvalue⟩ |
      ⟨quote, d, run, rest, hquote, rfl, -⟩
  · have hhead := hvalue.head
    rw [Option.mem_def.mp hc, Option.any_some] at hhead
    by_contra hspace
    rw [not_isSecretChar_of_isSpace (Bool.not_eq_false _ ▸ hspace)] at hhead
    cases hhead
  · cases hc
    simp only [isQuote, Bool.or_eq_true, beq_iff_eq] at hquote
    rcases hquote with rfl | rfl <;> decide

theorem labelled?_eq_some {cs : List Char} {label : String} {found : List Char × ℕ} :
    labelled? cs label = some found ↔ ∃ front value, cs = front ++ value ∧
      Assignment label front ∧ secretValue? front value = some found := by
  constructor
  · intro h
    rw [labelled?] at h
    split at h
    · cases h
    · rename_i rest hstrip
      obtain ⟨letters, rfl, hspells⟩ := stripWord_eq_some.mp hstrip
      split at h
      · cases h
      · rename_i sign value hsign
        split at h
        · rename_i hcond
          simp only [Bool.or_eq_true, beq_iff_eq] at hcond
          have hrest := List.takeWhile_append_dropWhile (p := Text.isSpace) (l := rest)
          have hvalue := List.takeWhile_append_dropWhile (p := Text.isSpace) (l := value)
          have hsplit : letters ++ rest =
              letters ++ (rest.takeWhile Text.isSpace ++ sign :: value.takeWhile Text.isSpace) ++
                value.dropWhile Text.isSpace := by
            rw [List.append_assoc, List.append_assoc, List.cons_append, hvalue, ← hsign, hrest]
          refine ⟨_, _, hsplit, ⟨letters, _, sign, _, rfl, hspells,
            fun c hc => List.mem_takeWhile_imp hc, hcond, fun c hc => List.mem_takeWhile_imp hc⟩,
              ?_⟩
          rwa [hsplit, List.length_append, Nat.add_sub_cancel, List.take_left] at h
        · cases h
  · rintro ⟨front, value, rfl, ⟨letters, gap, sign, gap', rfl, hspells, hgap, hsign, hgap'⟩, hfound⟩
    have hchars : letters ++ (gap ++ sign :: gap') ++ value =
        letters ++ (gap ++ sign :: (gap' ++ value)) := by simp
    have hdrop : (gap' ++ value).dropWhile Text.isSpace = value := by
      have hnoGap := noGap_of_secretValue? hfound
      rw [List.dropWhile_append_of_pos hgap']
      cases value with
      | nil => rfl
      | cons c value => rw [List.dropWhile_cons_of_neg (by simp [hnoGap c rfl])]
    rw [labelled?, hchars, stripWord_eq_some.mpr ⟨letters, rfl, hspells⟩]
    dsimp only
    rw [dropWhile_append_cons hgap (not_isSpace_sign hsign)]
    dsimp only
    rw [if_pos (by simpa using hsign), hdrop, ← hchars, List.length_append, Nat.add_sub_cancel,
      List.take_left]
    exact hfound

theorem secretAssignment_eq_some {before : Bool} {cs : List Char} {found : List Char × ℕ} :
    secretAssignment w before cs = some found ↔ w.boundary before cs = true ∧
      ∃ front value, cs = front ++ value ∧ Front secretLabels front ∧
        secretValue? front value = some found := by
  rw [secretAssignment]
  constructor
  · intro h
    split at h
    · rename_i hboundary
      obtain ⟨label, hlabel, hfound⟩ := List.exists_of_findSome?_eq_some h
      obtain ⟨front, value, hcs, hassignment, hvalue⟩ := labelled?_eq_some.mp hfound
      exact ⟨hboundary, front, value, hcs, ⟨label, hlabel, hassignment⟩, hvalue⟩
    · cases h
  · rintro ⟨hboundary, front, value, rfl, ⟨label, hlabel, hassignment⟩, hvalue⟩
    rw [if_pos hboundary]
    have hsome : labelled? (front ++ value) label = some found :=
      labelled?_eq_some.mpr ⟨front, value, rfl, hassignment, hvalue⟩
    cases hfirst : secretLabels.findSome? (labelled? (front ++ value)) with
    | none =>
        rw [List.findSome?_eq_none_iff] at hfirst
        rw [hfirst label hlabel] at hsome
        cases hsome
    | some other =>
        -- another label cannot match here, since it would end where this one does
        obtain ⟨label', hlabel', hfound'⟩ := List.exists_of_findSome?_eq_some hfirst
        obtain ⟨front', value', heq, hassignment', hvalue'⟩ := labelled?_eq_some.mp hfound'
        obtain ⟨_, _, _, _, hshape⟩ :=
          Front.shape (w := w) wordy_secretLabels ⟨label, hlabel, hassignment⟩
        obtain ⟨_, _, _, _, hshape'⟩ :=
          Front.shape (w := w) wordy_secretLabels ⟨label', hlabel', hassignment'⟩
        obtain ⟨rfl, -, rfl⟩ := hshape.eq_of_append hshape' (noGap_of_secretValue? hvalue)
          (noGap_of_secretValue? hvalue') heq
        rw [← hvalue, ← hvalue']

theorem consuming_secretAssignment (w : WordClass) : (secretAssignment w).Consuming := by
  intro before cs replacement n h
  obtain ⟨-, front, value, -, -, hvalue⟩ := secretAssignment_eq_some.mp h
  rcases secretValue?_eq_some hvalue with ⟨run, rest, rfl, hrun⟩ |
    ⟨quote, c, run, rest, hquote, rfl, hrun⟩
  · rw [secretValue?_run front hrun] at hvalue
    cases hvalue
    have hpos := List.length_pos_iff.mpr hrun.ne_nil
    rw [List.length_append]
    omega
  · rw [secretValue?_quoted front hquote hrun] at hvalue
    cases hvalue
    omega

theorem not_isQuote_of_mem {front letters gap gap' : List Char} {sign : Char}
    (h : Shape w front letters gap sign gap') {c : Char} (hc : c ∈ front) : isQuote c = false := by
  by_contra hquote
  rw [Bool.not_eq_false] at hquote
  rw [h.eq] at hc
  rcases List.mem_append.mp hc with hc | hc
  · have hletter := isSecretChar_of_inWord (h.letter c hc)
    rw [not_isSecretChar_of_isQuote hquote] at hletter
    cases hletter
  · have hother : ∀ d, isQuote d = true → Text.isSpace d = false ∧ d ≠ ':' ∧ d ≠ '=' := by
      intro d hd
      simp only [isQuote, Bool.or_eq_true, beq_iff_eq] at hd
      rcases hd with rfl | rfl <;> decide
    obtain ⟨hspace, hcolon, hequals⟩ := hother c hquote
    rcases List.mem_append.mp hc with hc | hc
    · rw [h.isSpace c hc] at hspace
      cases hspace
    · rcases List.mem_cons.mp hc with rfl | hc
      · exact h.isSign.elim hcolon hequals
      · rw [h.isSpace' c hc] at hspace
        cases hspace

/-- A secret without quotes, and what follows it. -/
def Unquoted (value : List Char) : Prop :=
  value.head?.any isSecretChar = true ∧ ∀ c ∈ value, isQuote c = false

theorem Unquoted.noGap {value : List Char} (h : Unquoted value) : NoGap value := by
  intro c hc
  have hhead := h.1
  rw [Option.mem_def.mp hc, Option.any_some] at hhead
  by_contra hspace
  rw [not_isSecretChar_of_isSpace (Bool.not_eq_false _ ▸ hspace)] at hhead
  cases hhead

section Inside

variable {front₀ letters gap gap' front inner : List Char} {sign : Char}

/-- A value that ends in the text ends there whatever follows. -/
theorem secretValue?_inside (h : ¬ ∀ c ∈ inner, isSecretChar c = true)
    (hne : inner.takeWhile isSecretChar ≠ []) (tail : List Char) :
    secretValue? front (inner ++ tail) = some (front ++ redacted.toList,
      (front ++ inner.takeWhile isSecretChar).length) := by
  have hsplit := List.takeWhile_append_dropWhile (p := isSecretChar) (l := inner)
  have hrest : ∀ c ∈ (inner.dropWhile isSecretChar ++ tail).head?, isSecretChar c = false := by
    intro c hc
    cases hdrop : inner.dropWhile isSecretChar with
    | nil =>
        rw [hdrop, List.append_nil] at hsplit
        exact absurd (fun c hc => List.mem_takeWhile_imp (hsplit ▸ hc)) h
    | cons d more =>
        have hhead := List.head?_dropWhile_not isSecretChar inner
        rw [hdrop] at hhead hc
        cases hc
        exact hhead
  have hvalue : Value isSecretChar (inner.takeWhile isSecretChar)
      (inner.dropWhile isSecretChar ++ tail) :=
    ⟨hne, fun c hc => List.mem_takeWhile_imp hc, hrest⟩
  rw [← secretValue?_run front hvalue, ← List.append_assoc, hsplit]

theorem isQuote_tailOf (hshape : Shape w front₀ letters gap sign gap')
    (i : Option {value // Unquoted value}) : ∀ c ∈ tailOf Unquoted front₀ i, isQuote c = false := by
  intro c hc
  cases i with
  | none =>
      rw [List.mem_singleton.mp hc]
      decide
  | some value =>
      rcases List.mem_append.mp hc with hc | hc
      · exact not_isQuote_of_mem hshape hc
      · exact value.2.2 c hc

/-- Quotes of a value are closed in the text if what follows has none. -/
theorem quotes_inside {quote c : Char} {run rest tail : List Char} (hquote : isQuote quote = true)
    (htail : ∀ c ∈ tail, isQuote c = false)
    (h : inner ++ tail = quote :: (c :: run ++ quote :: rest)) :
    ∃ more, inner = quote :: (c :: run ++ quote :: more) ∧ rest = more ++ tail := by
  have hchars : quote :: (c :: run ++ quote :: rest) = quote :: c :: run ++ [quote] ++ rest := by
    simp
  rw [hchars] at h
  rcases List.append_eq_append_iff.mp h with ⟨more, hmore, htail'⟩ | ⟨more, hmore, hrest⟩
  · cases more using List.reverseRecOn with
    | nil => exact ⟨[], by simpa using hmore.symm, by simpa using htail'.symm⟩
    | append_singleton more d =>
        -- the closing quote would stand in the tail
        rw [← List.append_assoc] at hmore
        obtain ⟨-, hd⟩ := List.append_inj' hmore rfl
        have hnot := htail d (by simp [htail'])
        rw [← (List.cons.inj hd).1, hquote] at hnot
        cases hnot
  · exact ⟨more, by simpa using hmore, hrest⟩

/-- What is found here ends in the text, whatever follows. -/
def EndsInside (w : WordClass) (before : Bool) (text : List Char) : Prop :=
  ∃ replacement n, n ≤ text.length ∧
    ∀ tail, secretAssignment w before (text ++ tail) = some (replacement, n)

section Found

variable {before : Bool} {text : List Char} (hne : text ≠ [])
  (hbefore : w.boundary before text = true) (hfront : Front secretLabels front)
include hne hbefore hfront

theorem endsInside_of_value {replacement : List Char} {n : ℕ} (htext : text = front ++ inner)
    (hn : n ≤ text.length)
    (hvalue : ∀ tail, secretValue? front (inner ++ tail) = some (replacement, n)) :
    EndsInside w before text := by
  refine ⟨replacement, n, hn, fun tail => ?_⟩
  exact secretAssignment_eq_some.mpr ⟨boundary_append hne hbefore, front, inner ++ tail,
    by rw [htext, List.append_assoc], hfront, hvalue tail⟩

theorem endsInside_of_run {run rest tail : List Char} (htext : text = front ++ inner)
    (hinner : ¬ ∀ c ∈ inner, isSecretChar c = true) (hvalue : Value isSecretChar run rest)
    (hrun : inner ++ tail = run ++ rest) : EndsInside w before text := by
  have htake : inner.takeWhile isSecretChar ≠ [] := by
    cases inner with
    | nil => simp at hinner
    | cons d inner =>
        have hhead := hvalue.head
        rw [← hrun, List.cons_append, List.head?_cons, Option.any_some] at hhead
        rw [List.takeWhile_cons_of_pos hhead]
        exact List.cons_ne_nil _ _
  refine endsInside_of_value hne hbefore hfront htext ?_ (secretValue?_inside hinner htake)
  rw [htext, List.length_append, List.length_append]
  exact Nat.add_le_add_left (List.takeWhile_prefix _).length_le _

theorem endsInside_of_quotes {quote c : Char} {run more : List Char}
    (htext : text = front ++ quote :: (c :: run ++ quote :: more)) (hquote : isQuote quote = true)
    (hrun : ∀ d ∈ c :: run, isSecretChar d = true) : EndsInside w before text := by
  have hquoted : ∀ tail, secretValue? front (quote :: (c :: run ++ quote :: more) ++ tail) =
      some (front ++ [quote, c] ++ redacted.toList, front.length + (run.length + 3)) := by
    intro tail
    rw [← @secretValue?_quoted front quote c run (more ++ tail) hquote hrun]
    simp
  refine endsInside_of_value hne hbefore hfront htext ?_ hquoted
  rw [htext]
  simp

end Found

theorem secretAssignment_inside {text : List Char} (hshape : Shape w front₀ letters gap sign gap')
    (hne : text ≠ []) (htext : EndsOutside w text) (before : Bool)
    (hcross : ¬ Crosses w secretLabels isSecretChar front₀ before text) :
    (∀ i, secretAssignment w before (text ++ tailOf Unquoted front₀ i) = none) ∨
      ∃ replacement n, n ≤ text.length ∧ ∀ i,
        secretAssignment w before (text ++ tailOf Unquoted front₀ i) = some (replacement, n) := by
  by_cases hfound : ∃ i found,
      secretAssignment w before (text ++ tailOf Unquoted front₀ i) = some found
  · right
    obtain ⟨i, found, hfound⟩ := hfound
    obtain ⟨hboundary, front, value, heq, hfront, hvalue⟩ := secretAssignment_eq_some.mp hfound
    have hbefore : w.boundary before text = true := by
      cases text with
      | nil => exact absurd rfl hne
      | cons c text => exact hboundary
    have hends : EndsInside w before text := by
      rcases eq_append_of_cut hshape wordy_secretLabels (fun _ h => h.noGap) hfront
        (noGap_of_secretValue? hvalue) htext heq with ⟨inner, htext', rfl⟩ | rfl
      · rcases secretValue?_eq_some hvalue with ⟨run, rest, hrun, hvalue'⟩ |
          ⟨quote, c, run, rest, hquote, hrun, hall⟩
        · by_cases hinner : ∀ c ∈ inner, isSecretChar c = true
          · exact absurd ⟨hbefore, .inl ⟨front, inner, hfront, htext', hinner⟩⟩ hcross
          · exact endsInside_of_run hne hbefore hfront htext' hinner hvalue' hrun
        · obtain ⟨more, rfl, -⟩ := quotes_inside hquote (isQuote_tailOf hshape i) hrun
          exact endsInside_of_quotes hne hbefore hfront htext' hquote hall
      · exact absurd ⟨hbefore, .inr hfront⟩ hcross
    obtain ⟨replacement, n, hn, hall⟩ := hends
    exact ⟨replacement, n, hn, fun i => hall _⟩
  · left
    intro i
    cases hmatch : secretAssignment w before (text ++ tailOf Unquoted front₀ i) with
    | none => rfl
    | some found => exact absurd ⟨i, found, hmatch⟩ hfound

end Inside

/-- `_SECRET_ASSIGNMENT` replaces values without quotes. -/
theorem redactor_secretAssignment (w : WordClass) :
    Redactor w secretLabels isSecretChar Unquoted (secretAssignment w) where
  wordy := wordy_secretLabels
  consuming := consuming_secretAssignment w
  inWord _ := isSecretChar_of_inWord
  sign := by decide
  blank _ := not_isSecretChar_of_isSpace
  front hfound := by
    obtain ⟨hboundary, front, value, heq, hfront, -⟩ := secretAssignment_eq_some.mp hfound
    exact ⟨hboundary, front, value, heq, hfront⟩
  value hfront hvalue hboundary :=
    secretAssignment_eq_some.mpr ⟨hboundary, _, _, rfl, hfront, secretValue?_run _ hvalue⟩
  inside := secretAssignment_inside

end WaitLocalAgent.FounderBundle
