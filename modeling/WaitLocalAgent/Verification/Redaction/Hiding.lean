import WaitLocalAgent.Verification.Redaction.Redactors

/-! # What redaction hides

Two texts that differ in the value of an assignment only are redacted to the same text, unless the
assignment's word is taken for the value of one that the text before it has left open. -/

namespace WaitLocalAgent.Redaction

open Foundation PowerPlatform

variable {w : WordClass}

theorem wordy_sensitiveWords : wordy sensitiveWords = true := by decide

theorem noGap_of_isValue {value : List Char} (h : value.head?.any isValue = true) :
    NoGap value := by
  intro c hc
  rw [Option.mem_def.mp hc] at h
  exact not_isSpace_of_isValue h

theorem assigned_of_front {front value : List Char} (hfront : Front sensitiveWords front)
    (hvalue : value.head?.any isValue = true) : assigned w (front ++ value) =
      some front.length := by
  obtain ⟨word, hword, hassignment⟩ := hfront
  have hsome : assignment? w word (front ++ value) = some front.length :=
    assignment?_eq_some.mpr ⟨front, value, rfl, rfl, hassignment, hvalue⟩
  cases hassigned : assigned w (front ++ value) with
  | none =>
      rw [assigned, List.findSome?_eq_none_iff] at hassigned
      rw [hassigned word hword] at hsome
      cases hsome
  | some n =>
      obtain ⟨word', hword', front', value', heq, rfl, hassignment', hvalue'⟩ :=
        assigned_eq_some hassigned
      obtain ⟨_, _, _, _, hshape⟩ :=
        Front.shape (w := w) wordy_sensitiveWords ⟨word, hword, hassignment⟩
      obtain ⟨_, _, _, _, hshape'⟩ :=
        Front.shape (w := w) wordy_sensitiveWords ⟨word', hword', hassignment'⟩
      rw [(hshape.eq_of_append hshape' (noGap_of_isValue hvalue) (noGap_of_isValue hvalue') heq).1]

/-- What the pattern finds at a position. -/
theorem sensitiveText_iff {before : Bool} {cs replacement : List Char} {n : ℕ} :
    sensitiveText w before cs = some (replacement, n) ↔ w.boundary before cs = true ∧
      ∃ front run rest, cs = front ++ (run ++ rest) ∧ Front sensitiveWords front ∧
        Value isValue run rest ∧
        replacement = front ++ redacted.toList ∧ n = (front ++ run).length := by
  rw [sensitiveText_eq_some]
  constructor
  · rintro ⟨front, run, rest, rfl, rfl, rfl, h⟩
    exact ⟨h.boundary, front, run, rest, rfl, h.word, ⟨h.nonempty, h.run, h.rest⟩, rfl, by simp⟩
  · rintro ⟨hboundary, front, run, rest, rfl, hfront, hvalue, rfl, rfl⟩
    exact ⟨front, run, rest, rfl, rfl, by simp, hboundary, hfront,
      assigned_of_front hfront hvalue.head, hvalue.ne_nil, hvalue.all, hvalue.rest⟩

def StartsValue (value : List Char) : Prop := value.head?.any isValue = true

/-- Nothing is found at a position of the text, or what is found does not depend on what follows,
unless an assignment goes on behind the text. -/
theorem sensitiveText_inside {front₀ letters gap gap' text : List Char} {sign : Char}
    (hshape : Shape w front₀ letters gap sign gap') (hne : text ≠ []) (htext : EndsOutside w text)
    (before : Bool) (hcross : ¬ Crosses w sensitiveWords isValue front₀ before text) :
    (∀ i, sensitiveText w before (text ++ tailOf StartsValue front₀ i) = none) ∨
      ∃ replacement n, n ≤ text.length ∧
        ∀ i, sensitiveText w before (text ++ tailOf StartsValue front₀ i) =
          some (replacement, n) := by
  have hboundary : ∀ i, w.boundary before (text ++ tailOf StartsValue front₀ i) =
      w.boundary before text := by
    intro i
    cases text with
    | nil => exact absurd rfl hne
    | cons c text => rfl
  by_cases hfound : ∃ i replacement n,
      sensitiveText w before (text ++ tailOf StartsValue front₀ i) = some (replacement, n)
  · obtain ⟨i, replacement, n, hfound⟩ := hfound
    obtain ⟨hbefore, front, run, rest, heq, hfront, hvalue, rfl, rfl⟩ := sensitiveText_iff.mp hfound
    rw [hboundary] at hbefore
    rcases eq_append_of_cut hshape wordy_sensitiveWords
        (fun _ => noGap_of_isValue) hfront (noGap_of_isValue hvalue.head) htext heq with
          ⟨inner, rfl, hrest⟩ | rfl
    · by_cases hinner : ∀ c ∈ inner, isValue c = true
      · exact absurd ⟨hbefore, .inl ⟨front, inner, hfront, rfl, hinner⟩⟩ hcross
      · -- the value ends inside the text
        have hsplit := List.takeWhile_append_dropWhile (p := isValue) (l := inner)
        cases hdrop : inner.dropWhile isValue with
        | nil =>
            rw [hdrop, List.append_nil] at hsplit
            exact absurd (fun c hc => List.mem_takeWhile_imp (hsplit ▸ hc)) hinner
        | cons c more =>
            have hc : isValue c = false := by
              have hhead := List.head?_dropWhile_not isValue inner
              rw [hdrop] at hhead
              exact hhead
            rw [hdrop] at hsplit
            rw [← hsplit, List.append_assoc] at hrest
            obtain ⟨rfl, -⟩ := append_inj_of_head hvalue.all hvalue.rest
              (fun d hd => List.mem_takeWhile_imp hd) (fun d hd => by cases hd; exact hc) hrest
            refine .inr ⟨front ++ redacted.toList, _, ?_, fun i => sensitiveText_iff.mpr
              ⟨by rwa [hboundary], front, _, c :: more ++ tailOf StartsValue front₀ i, ?_, hfront,
                ⟨hvalue.ne_nil, hvalue.all, fun d hd => by cases hd; exact hc⟩, rfl, rfl⟩⟩
            · rw [List.length_append, List.length_append]
              exact Nat.add_le_add_left (List.takeWhile_prefix _).length_le _
            · rw [← List.append_assoc (inner.takeWhile isValue), hsplit, List.append_assoc]
    · exact absurd ⟨hbefore, .inr hfront⟩ hcross
  · refine .inl fun i => ?_
    cases hmatch : sensitiveText w before (text ++ tailOf StartsValue front₀ i) with
    | none => rfl
    | some found => exact absurd ⟨i, found.1, found.2, hmatch⟩ hfound

/-- `_SENSITIVE_TEXT_PATTERN` replaces values. -/
theorem redactor_sensitiveText (w : WordClass) :
    Redactor w sensitiveWords isValue StartsValue (sensitiveText w) where
  wordy := wordy_sensitiveWords
  consuming := consuming_sensitiveText w
  inWord _ := isValue_of_inWord
  sign := by decide
  blank c hc := by simp [isValue, hc]
  front hfound := by
    obtain ⟨hboundary, front, run, rest, heq, hfront, -⟩ := sensitiveText_iff.mp hfound
    exact ⟨hboundary, front, run ++ rest, heq, hfront⟩
  value hfront hvalue hboundary :=
    sensitiveText_iff.mpr ⟨hboundary, _, _, _, rfl, hfront, hvalue, rfl, rfl⟩
  inside hshape hne htext before hcross := sensitiveText_inside hshape hne htext before hcross

theorem count_sub_awsAccessKey {c : Char} (hc : isKeyChar c = false)
    (hredacted : c ∉ redacted.toList)
    (before : Bool) (cs : List Char) :
    ((awsAccessKey w).sub w before cs).count c = cs.count c := by
  refine Pattern.count_sub ?_ (fun before cs replacement n hmatch => ?_) before cs
  · intro before cs replacement n hmatch
    obtain ⟨token, rest, -, -, rfl, -⟩ := awsAccessKey_eq_some.mp hmatch
    decide
  · obtain ⟨token, rest, rfl, rfl, rfl, h⟩ := awsAccessKey_eq_some.mp hmatch
    refine ⟨fun hmem => ?_, hredacted⟩
    rw [← h.length, List.take_left] at hmem
    rw [h.token c hmem] at hc
    cases hc

/-- A secret, in front of a blank, a comma or a semicolon. -/
def IsSecret (v : String) : Prop := v ≠ "" ∧ ∀ c ∈ v.toList, isValue c = true

/-- No text shows which secret was redacted. -/
def HidesValue (w : WordClass) (front rest : String) : Prop :=
  ∀ v v', IsSecret v → IsSecret v' →
    redactText w (front ++ v ++ rest) = redactText w (front ++ v' ++ rest)

theorem IsSecret.value {v rest : String} (h : IsSecret v)
    (hrest : ∀ c ∈ rest.toList.head?, isValue c = false) : Value isValue v.toList rest.toList :=
  ⟨fun hnil => h.1 (String.toList_eq_nil_iff.mp hnil), h.2, hrest⟩

theorem hidesValue_of_sub {front rest : String} (hrest : ∀ c ∈ rest.toList.head?, isValue c = false)
    (h : ∃ out, ∀ run rest, Value isValue run rest →
      (sensitiveText w).sub w false (front.toList ++ (run ++ rest)) =
        out ++ (sensitiveText w).sub w false rest) : HidesValue w front rest := by
  obtain ⟨out, hsub⟩ := h
  intro v v' hv hv'
  rw [redactText, redactText, String.toList_append, String.toList_append, String.toList_append,
    String.toList_append, List.append_assoc, List.append_assoc, hsub _ _ (hv.value hrest),
    hsub _ _ (hv'.value hrest)]

/-- A character of a value that is neither part of a word nor a sign. -/
structure Mark (w : WordClass) (c : Char) : Prop where
  outside : w.isWord c = false
  isValue : isValue c = true
  noSign : c ≠ ':' ∧ c ≠ '='

theorem mark_bracket (w : WordClass) : Mark w '(' ∧ Mark w ')' := by
  refine ⟨⟨?_, by decide, by decide⟩, ⟨?_, by decide, by decide⟩⟩
  · rw [w.ascii _ (by decide)]
    decide
  · rw [w.ascii _ (by decide)]
    decide

theorem sub_mark {c : Char} (hc : w.isWord c = false) (before : Bool) (rest : List Char) :
    (sensitiveText w).sub w before (c :: rest) = c :: (sensitiveText w).sub w false rest :=
  Pattern.sub_other (anchored_sensitiveText w) before hc rest

/-- A bracket that is shown tells secrets apart. -/
theorem not_hidesValue_of_sub {front rest : String}
    (h : ∃ out, ∀ c, Mark w c → (sensitiveText w).sub w false (front.toList ++ c :: rest.toList) =
      out ++ c :: (sensitiveText w).sub w false rest.toList) : ¬ HidesValue w front rest := by
  obtain ⟨out, hsub⟩ := h
  intro hhides
  have hsame := congrArg (fun s : String => s.toList.count '(')
    (hhides "(" ")" ⟨by decide, by decide⟩ ⟨by decide, by decide⟩)
  simp only [redactText, String.toList_append, String.toList_ofList, List.append_assoc] at hsame
  rw [show "(".toList = ['('] from rfl, show ")".toList = [')'] from rfl, List.singleton_append,
    List.singleton_append, hsub '(' (mark_bracket w).1, hsub ')' (mark_bracket w).2,
    count_sub_awsAccessKey rfl (by decide), count_sub_awsAccessKey rfl (by decide)] at hsame
  simp at hsame

/-- `Bearer` without a sign behind it is left as it is. -/
theorem sub_bearer {c : Char} (hc : Mark w c) (rest : List Char) :
    (sensitiveText w).sub w false ("Bearer ".toList ++ c :: rest) =
      "Bearer ".toList ++ c :: (sensitiveText w).sub w false rest := by
  have hword : ∀ d ∈ ['B', 'e', 'a', 'r', 'e', 'r'], w.isWord d = true := by
    intro d hd
    have hletters : ∀ d ∈ ['B', 'e', 'a', 'r', 'e', 'r'], d.isAlphanum = true := by decide
    exact isWord_of_isAlphanum w (hletters d hd)
  have hnone : sensitiveText w false (['B', 'e', 'a', 'r', 'e', 'r'] ++ ' ' :: c :: rest) =
      none := by
    cases hmatch : sensitiveText w false (['B', 'e', 'a', 'r', 'e', 'r'] ++ ' ' :: c :: rest) with
    | none => rfl
    | some found =>
        obtain ⟨-, front, run, more, heq, hfront, -⟩ := sensitiveText_iff.mp hmatch
        obtain ⟨letters, gap, sign, gap', hshape⟩ := hfront.shape (w := w) wordy_sensitiveWords
        rw [hshape.append_eq] at heq
        obtain ⟨-, hgaps⟩ := append_inj_of_head (fun d hd => by rw [inWord, hword d hd]; rfl)
          (fun d hd => by cases hd; exact not_inWord_of_isSpace (by decide)) hshape.letter
          (hshape.head_gaps _) heq
        have hblank : ∀ d ∈ [' '], Text.isSpace d = true := by decide
        obtain ⟨-, hsigns⟩ := append_inj_of_head hblank
          (fun d hd => by cases hd; exact not_isSpace_of_isValue hc.isValue) hshape.isSpace
          (hshape.head_sign _) hgaps
        rcases hshape.isSign with rfl | rfl
        · exact absurd (List.cons.inj hsigns).1 hc.noSign.1
        · exact absurd (List.cons.inj hsigns).1 hc.noSign.2
  have hblank : w.isWord ' ' = false := w.space ' ' (by decide)
  rw [show "Bearer ".toList = 'B' :: (['e', 'a', 'r', 'e', 'r'] ++ [' ']) from by decide,
    List.cons_append, List.append_assoc, List.singleton_append]
  have hkept : sensitiveText w false ('B' :: (['e', 'a', 'r', 'e', 'r'] ++ ' ' :: c :: rest)) =
      none := hnone
  rw [Pattern.sub_of_none hkept, hword 'B' (by decide),
    Pattern.sub_append_word (anchored_sensitiveText w) fun d hd => hword d ?_, sub_mark hblank,
    sub_mark hc.outside]
  · rfl
  · exact List.mem_cons_of_mem 'B' hd

def IsKeyword (k : String) : Prop := ∃ word ∈ sensitiveWords, Spells word.toList k.toList

def IsSeparator (s : String) : Prop :=
  ∃ gap sign gap', s.toList = gap ++ sign :: gap' ∧ (∀ c ∈ gap, Text.isSpace c = true) ∧
    (sign = ':' ∨ sign = '=') ∧ ∀ c ∈ gap', Text.isSpace c = true

theorem Shape.blankless_iff {front letters gap gap' : List Char} {sign : Char}
    (h : Shape w front letters gap sign gap') :
    (∀ c ∈ gap ++ sign :: gap', Text.isSpace c = false) ↔ gap = [] ∧ gap' = [] := by
  constructor
  · intro hnone
    constructor
    · refine List.eq_nil_iff_forall_not_mem.mpr fun c hc => ?_
      exact absurd (h.isSpace c hc) (by simp [hnone c (by simp [hc])])
    · refine List.eq_nil_iff_forall_not_mem.mpr fun c hc => ?_
      exact absurd (h.isSpace' c hc) (by simp [hnone c (by simp [hc])])
  · rintro ⟨rfl, rfl⟩
    simpa using not_isSpace_sign h.isSign

section Law

variable {p k s q : String}

theorem hidesValue_iff (hp : EndsOutside w p.toList) (hk : IsKeyword k) (hs : IsSeparator s)
    (hq : ∀ c ∈ q.toList.head?, isValue c = false) :
    HidesValue w (p ++ k ++ s) q ↔
      leavesOpen w (sensitiveText w) p = false ∨ ∀ c ∈ s.toList, Text.isSpace c = false := by
  obtain ⟨word, hword, hspells⟩ := hk
  obtain ⟨gap, sign, gap', hsep, hgap, hsign, hgap'⟩ := hs
  have hfront : Front sensitiveWords (k.toList ++ (gap ++ sign :: gap')) :=
    ⟨word, hword, _, gap, sign, gap', rfl, hspells, hgap, hsign, hgap'⟩
  have hshape : Shape w (k.toList ++ (gap ++ sign :: gap')) k.toList gap sign gap' :=
    hspells.shape (wordy_singleton wordy_sensitiveWords hword) hgap hsign hgap'
  have hchars : ∀ rest, (p ++ k ++ s).toList ++ rest =
      p.toList ++ (k.toList ++ (gap ++ sign :: gap') ++ rest) := by simp [hsep]
  rw [hsep, hshape.blankless_iff]
  constructor
  · intro hhides
    by_contra h
    push Not at h
    obtain ⟨hopen, hgaps⟩ := h
    rw [ne_eq, Bool.not_eq_false] at hopen
    have hgaps : gap ≠ [] ∨ gap' ≠ [] := by
      by_cases hnil : gap = []
      · exact .inr (hgaps hnil)
      · exact .inl hnil
    obtain ⟨out, hsub⟩ := exists_shown (redactor_sensitiveText w) hshape hp
        (by simpa using hopen) hgaps
    refine not_hidesValue_of_sub ⟨out, fun c hc => ?_⟩ hhides
    rw [hchars, hsub (c :: q.toList) hc.isValue, sub_mark hc.outside]
  · intro h
    refine hidesValue_of_sub hq ?_
    obtain ⟨out, hsub⟩ := exists_hidden (redactor_sensitiveText w) hshape hp hfront
        (by simpa using h)
    exact ⟨out, fun run rest hvalue => by rw [hchars, hsub run rest hvalue hvalue.head]⟩

/-- Behind `Authorization` the word `Bearer` is redacted, and not what comes after it. -/
theorem not_hidesValue_bearer (hp : EndsOutside w p.toList) :
    ¬ HidesValue w (p ++ "Authorization: Bearer ") q := by
  have hspells : Spells "authorization".toList "Authorization".toList := by
    unfold Spells
    decide
  have hword : "authorization" ∈ sensitiveWords := by decide
  have hgap : ∀ c ∈ ([] : List Char), Text.isSpace c = true := by decide
  have hgap' : ∀ c ∈ [' '], Text.isSpace c = true := by decide
  have hfront : Front sensitiveWords ("Authorization".toList ++ ([] ++ ':' :: [' '])) :=
    ⟨_, hword, _, [], ':', [' '], rfl, hspells, hgap, .inl rfl, hgap'⟩
  have hshape : Shape w ("Authorization".toList ++ ([] ++ ':' :: [' '])) "Authorization".toList []
      ':' [' '] :=
    hspells.shape (wordy_singleton wordy_sensitiveWords hword) hgap (.inl rfl) hgap'
  have hchars : ∀ rest, (p ++ "Authorization: Bearer ").toList ++ rest =
      p.toList ++ ("Authorization".toList ++ ([] ++ ':' :: [' ']) ++
        ("Bearer ".toList ++ rest)) := by
    intro rest
    have hsplit : "Authorization: Bearer ".toList =
        "Authorization".toList ++ ([] ++ ':' :: [' ']) ++ "Bearer ".toList := by decide
    rw [String.toList_append, hsplit]
    simp
  have hblank : w.isWord ' ' = false := w.space ' ' (by decide)
  apply not_hidesValue_of_sub
  cases hopen : leavesOpen w (sensitiveText w) (.ofList p.toList) with
  | false =>
      obtain ⟨out, hsub⟩ := exists_hidden (redactor_sensitiveText w) hshape hp hfront (.inl hopen)
      refine ⟨out ++ [' '], fun c hc => ?_⟩
      have hvalue : Value isValue "Bearer".toList (' ' :: c :: q.toList) :=
        ⟨by decide, by decide, fun d hd => by cases hd; decide⟩
      have hbearer : "Bearer ".toList ++ c :: q.toList =
          "Bearer".toList ++ ' ' :: c :: q.toList := by
        rw [show "Bearer ".toList = "Bearer".toList ++ [' '] from by decide]
        simp
      rw [hchars, hbearer, hsub _ _ hvalue hvalue.head, sub_mark hblank, sub_mark hc.outside]
      simp
  | true =>
      obtain ⟨out, hsub⟩ := exists_shown (redactor_sensitiveText w) hshape hp hopen (.inr (by simp))
      refine ⟨out ++ "Bearer ".toList, fun c hc => ?_⟩
      rw [hchars, hsub _ (by rfl), sub_bearer hc, List.append_assoc]

/-- A keyword's value is hidden unless the text before it leaves an assignment open, whose value
then ends at a blank of the separator; a bearer token is never hidden. -/
theorem redactText_hides_iff (hp : EndsOutside w p.toList) (hk : IsKeyword k) (hs : IsSeparator s)
    (hq : ∀ c ∈ q.toList.head?, isValue c = false) :
    (HidesValue w (p ++ k ++ s) q ↔
      leavesOpen w (sensitiveText w) p = false ∨ ∀ c ∈ s.toList, Text.isSpace c = false) ∧
      ¬ HidesValue w (p ++ "Authorization: Bearer ") q :=
  ⟨hidesValue_iff hp hk hs hq, not_hidesValue_bearer hp⟩

end Law

theorem redactText_hides_iff_password : HidesValue .known ("" ++ "password" ++ ": ") " (old)" := by
  have hkeyword : IsKeyword "password" :=
    ⟨"password", by decide, by unfold Spells; decide⟩
  have hseparator : IsSeparator ": " := ⟨[], ':', [' '], by decide, by decide, .inl rfl, by decide⟩
  exact (redactText_hides_iff (p := "") (fun c hc => by cases hc) hkeyword hseparator
    (fun c hc => by cases hc; decide)).1.mpr (.inl (by decide))

/-- `token: password: hunter2` is redacted to `token: [redacted] hunter2`. -/
theorem not_redactText_hides : ¬ ∀ p k s q : String, EndsOutside .known p.toList → IsKeyword k →
    IsSeparator s → (∀ c ∈ q.toList.head?, isValue c = false) →
      HidesValue .known (p ++ k ++ s) q ∧ HidesValue .known (p ++ "Authorization: Bearer ") q := by
  intro h
  have hkeyword : IsKeyword "password" :=
    ⟨"password", by decide, by unfold Spells; decide⟩
  have hseparator : IsSeparator ": " := ⟨[], ':', [' '], by decide, by decide, .inl rfl, by decide⟩
  have hhides := (h "token: " "password" ": " "" (fun c hc => by cases hc; decide) hkeyword
    hseparator (fun c hc => by cases hc)).1
  have hshown : redactText .known ("token: " ++ "password" ++ ": " ++ "hunter2" ++ "") ≠
      redactText .known ("token: " ++ "password" ++ ": " ++ "swordfish" ++ "") := by decide
  exact hshown (hhides "hunter2" "swordfish" ⟨by decide, by decide⟩ ⟨by decide, by decide⟩)

end WaitLocalAgent.Redaction
