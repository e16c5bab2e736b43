import WaitLocalAgent.Verification.FounderBundle.Passes

/-! # What the scrubber of founder bundles hides

Behind a text that leaves no assignment open a secret without quotes is scrubbed as a whole. Between
quotes its first character is shown. -/

namespace WaitLocalAgent.FounderBundle

open Foundation PowerPlatform Redaction

variable {w : WordClass}

def Quoted (w : WordClass) (quote : Char) (value : List Char) : Prop :=
  ∃ c, Mark w c ∧ isSecretChar c = true ∧ value = [quote, c, quote]

theorem not_isWord_of_isQuote {c : Char} (hc : isQuote c = true) : w.isWord c = false := by
  by_contra hword
  rw [Bool.not_eq_false] at hword
  have hsecret := isSecretChar_of_inWord (w := w) (c := c) (by rw [inWord, hword, Bool.true_or])
  rw [not_isSecretChar_of_isQuote hc] at hsecret
  cases hsecret

theorem noGap_of_isQuote {quote : Char} {rest : List Char} (hquote : isQuote quote = true) :
    NoGap (quote :: rest) := by
  intro c hc
  cases hc
  simp only [isQuote, Bool.or_eq_true, beq_iff_eq] at hquote
  rcases hquote with rfl | rfl <;> decide

theorem Quoted.noGap {quote : Char} {value : List Char} (hquote : isQuote quote = true)
    (h : Quoted w quote value) : NoGap value := by
  obtain ⟨c, -, -, rfl⟩ := h
  exact noGap_of_isQuote hquote

theorem sub_nonword {outside : List Char} (h : ∀ c ∈ outside, w.isWord c = false) :
    (secretAssignment w).sub w false outside = outside := by
  have hsub := (redactor_secretAssignment w).sub_outside h []
  rwa [List.append_nil, Pattern.sub_nil, List.append_nil] at hsub

/-- From here on the mark is shown, and nothing else depends on it. -/
def Shows (w : WordClass) (front₀ : List Char) (quote : Char) (before : Bool) (text : List Char) :
    Prop :=
  ∃ out rest, ∀ c, Mark w c → isSecretChar c = true →
    (secretAssignment w).sub w before (text ++ (front₀ ++ [quote, c, quote])) = out ++ c :: rest

section Quotes

variable {front₀ letters gap gap' front inner : List Char} {sign quote : Char}

theorem sub_quoted {before : Bool} {front rest : List Char} {quote c : Char} {run : List Char}
    (hfront : Front secretLabels front) (hquote : isQuote quote = true)
    (hrun : ∀ d ∈ c :: run, isSecretChar d = true)
    (hbefore : w.boundary before (front ++ quote :: (c :: run ++ quote :: rest)) = true) :
    (secretAssignment w).sub w before (front ++ quote :: (c :: run ++ quote :: rest)) =
      front ++ [quote, c] ++ redacted.toList ++ (secretAssignment w).sub w false rest := by
  have hmatch : secretAssignment w before (front ++ quote :: (c :: run ++ quote :: rest)) =
      some (front ++ [quote, c] ++ redacted.toList, front.length + (run.length + 3)) :=
    secretAssignment_eq_some.mpr ⟨hbefore, front, _, rfl, hfront,
      secretValue?_quoted front hquote hrun⟩
  have hsplit : front ++ quote :: (c :: run ++ quote :: rest) =
      front ++ quote :: (c :: run ++ [quote]) ++ rest := by simp
  have hlength : front.length + (run.length + 3) =
      (front ++ quote :: (c :: run ++ [quote])).length := by
    simp
  have hends : w.endsWord before (front ++ quote :: (c :: run ++ [quote])) = false := by
    have hlast : front ++ quote :: (c :: run ++ [quote]) =
        front ++ quote :: c :: run ++ [quote] := by simp
    rw [hlast, Pattern.endsWord_concat, not_isWord_of_isQuote hquote]
  rw [Pattern.sub_of_match (by simp) (by omega) hmatch, hlength, hsplit, List.take_left,
    List.drop_left, hends]

theorem isSecretChar_of_mem_letters (hshape : Shape w front₀ letters gap sign gap') :
    ∀ c ∈ letters, isSecretChar c = true :=
  fun c hc => isSecretChar_of_inWord (hshape.letter c hc)

/-- The value of an assignment that goes on behind the text ends at a blank or at the quote. -/
theorem shows_of_open (hshape : Shape w front₀ letters gap sign gap')
    (hquote : isQuote quote = true)
    (hfront : Front secretLabels front) (hinner : ∀ c ∈ inner, isSecretChar c = true)
    {before : Bool} (hbefore : ∀ rest, w.boundary before (front ++ inner ++ rest) = true) :
    Shows w front₀ quote before (front ++ inner) := by
  have hsplit := List.takeWhile_append_dropWhile (p := isSecretChar) (l := front₀)
  have hdropped : ∀ c ∈ front₀.dropWhile isSecretChar, w.isWord c = false := by
    intro c hc
    rw [hshape.eq, List.dropWhile_append_of_pos (isSecretChar_of_mem_letters hshape)] at hc
    exact not_isWord_of_mem_gaps hshape ((List.dropWhile_suffix _).subset hc)
  have htaken : front₀.takeWhile isSecretChar ≠ [] := by
    have hfirst := hshape.first
    cases hletters : letters with
    | nil =>
        rw [hletters] at hfirst
        cases hfirst
    | cons c letters =>
        have hc := isSecretChar_of_mem_letters hshape c (by simp [hletters])
        rw [hshape.eq, hletters, List.cons_append, List.takeWhile_cons_of_pos hc]
        exact List.cons_ne_nil _ _
  refine ⟨front ++ redacted.toList ++ (front₀.dropWhile isSecretChar ++ [quote]), [quote],
    fun c hc _ => ?_⟩
  have hvalue : Value isSecretChar (inner ++ front₀.takeWhile isSecretChar)
      (front₀.dropWhile isSecretChar ++ [quote, c, quote]) := by
    refine ⟨by simp [htaken], fun d hd => ?_, fun d hd => ?_⟩
    · rcases List.mem_append.mp hd with hd | hd
      · exact hinner d hd
      · exact List.mem_takeWhile_imp hd
    · cases hdrop : front₀.dropWhile isSecretChar with
      | nil =>
          rw [hdrop] at hd
          cases hd
          exact not_isSecretChar_of_isQuote hquote
      | cons e more =>
          have hhead := List.head?_dropWhile_not isSecretChar front₀
          rw [hdrop] at hhead hd
          cases hd
          exact hhead
  have hchars : front ++ inner ++ (front₀ ++ [quote, c, quote]) =
      front ++ ((inner ++ front₀.takeWhile isSecretChar) ++
        (front₀.dropWhile isSecretChar ++ [quote, c, quote])) := by
    rw [List.append_assoc, List.append_assoc inner,
      ← List.append_assoc (front₀.takeWhile isSecretChar), hsplit]
  rw [hchars, (redactor_secretAssignment w).sub_value hfront hvalue (hchars ▸ hbefore _),
    sub_nonword]
  · simp
  · intro d hd
    rcases List.mem_append.mp hd with hd | hd
    · exact hdropped d hd
    · simp only [List.mem_cons, List.not_mem_nil, or_false] at hd
      rcases hd with rfl | rfl | rfl
      · exact not_isWord_of_isQuote hquote
      · exact hc.outside
      · exact not_isWord_of_isQuote hquote

/-- A quote that is open behind the text is closed by the quote before the mark, or it is none. -/
theorem shows_of_openQuote (hshape : Shape w front₀ letters gap sign gap')
    (hquote : isQuote quote = true) (hfront : Front secretLabels front) {quote' : Char}
    (hquote' : isQuote quote' = true) (hinner : ∀ c ∈ inner, isSecretChar c = true) {d e : Char}
    {run rest : List Char} (hrun : ∀ c ∈ d :: run, isSecretChar c = true)
    (heq : inner ++ (front₀ ++ [quote, e, quote]) = d :: run ++ quote' :: rest) {before : Bool}
    (hbefore : ∀ rest, w.boundary before (front ++ quote' :: inner ++ rest) = true) :
    Shows w front₀ quote before (front ++ quote' :: inner) := by
  by_cases hfront₀ : ∀ c ∈ front₀, isSecretChar c = true
  · -- the quotes hold the label
    have hall : ∀ c ∈ inner ++ front₀, isSecretChar c = true := fun c hc =>
      (List.mem_append.mp hc).elim (hinner c) (hfront₀ c)
    rw [← List.append_assoc] at heq
    obtain ⟨hsame, hrest⟩ := append_inj_of_head hall
      (fun c hc => by cases hc; exact not_isSecretChar_of_isQuote hquote) hrun
      (fun c hc => by cases hc; exact not_isSecretChar_of_isQuote hquote') heq
    obtain ⟨rfl, -⟩ := List.cons.inj hrest
    refine ⟨front ++ [quote, d] ++ redacted.toList, [quote], fun c hc _ => ?_⟩
    have hchars : front ++ quote :: inner ++ (front₀ ++ [quote, c, quote]) =
        front ++ quote :: (d :: run ++ quote :: [c, quote]) := by
      rw [← hsame]
      simp
    rw [hchars, sub_quoted hfront hquote hrun (hchars ▸ hbefore _), sub_nonword]
    intro f hf
    simp only [List.mem_cons, List.not_mem_nil, or_false] at hf
    rcases hf with rfl | rfl
    · exact hc.outside
    · exact not_isWord_of_isQuote hquote
  · -- a blank of the separator stands where the quote should be closed
    have hsplit := List.takeWhile_append_dropWhile (p := isSecretChar) (l := front₀)
    cases hdrop : front₀.dropWhile isSecretChar with
    | nil =>
        rw [hdrop, List.append_nil] at hsplit
        exact absurd (fun c hc => List.mem_takeWhile_imp (hsplit ▸ hc)) hfront₀
    | cons b more =>
        have hb : isSecretChar b = false := by
          have hhead := List.head?_dropWhile_not isSecretChar front₀
          rw [hdrop] at hhead
          exact hhead
        rw [hdrop] at hsplit
        have hall : ∀ c ∈ inner ++ front₀.takeWhile isSecretChar, isSecretChar c = true :=
          fun c hc => (List.mem_append.mp hc).elim (hinner c) fun hc => List.mem_takeWhile_imp hc
        rw [← hsplit, List.append_assoc, ← List.append_assoc inner] at heq
        obtain ⟨-, hrest⟩ := append_inj_of_head hall (fun c hc => by cases hc; exact hb) hrun
          (fun c hc => by cases hc; exact not_isSecretChar_of_isQuote hquote') heq
        have hmem : quote' ∈ front₀ := by
          rw [← hsplit, ← (List.cons.inj hrest).1]
          simp
        rw [not_isQuote_of_mem hshape hmem] at hquote'
        cases hquote'

/-- A quote of the text is closed in the text if a character that is no secret comes first. -/
theorem closed_inside {quote' d : Char} {run rest tail : List Char}
    (hinner : ¬ ∀ c ∈ inner, isSecretChar c = true) (hquote' : isQuote quote' = true)
    (hrun : ∀ c ∈ d :: run, isSecretChar c = true)
    (heq : inner ++ tail = d :: run ++ quote' :: rest) :
    ∃ more, inner = d :: run ++ quote' :: more := by
  have hsplit := List.takeWhile_append_dropWhile (p := isSecretChar) (l := inner)
  cases hdrop : inner.dropWhile isSecretChar with
  | nil =>
      rw [hdrop, List.append_nil] at hsplit
      exact absurd (fun c hc => List.mem_takeWhile_imp (hsplit ▸ hc)) hinner
  | cons b more =>
      have hb : isSecretChar b = false := by
        have hhead := List.head?_dropWhile_not isSecretChar inner
        rw [hdrop] at hhead
        exact hhead
      rw [hdrop] at hsplit
      rw [← hsplit, List.append_assoc] at heq
      obtain ⟨hsame, hrest⟩ := append_inj_of_head (fun c hc => List.mem_takeWhile_imp hc)
        (fun c hc => by cases hc; exact hb) hrun
        (fun c hc => by cases hc; exact not_isSecretChar_of_isQuote hquote') heq
      refine ⟨more, ?_⟩
      rw [← hsplit, hsame, (List.cons.inj hrest).1]

theorem quoted_step (hshape : Shape w front₀ letters gap sign gap') (hquote : isQuote quote = true)
    {text : List Char} (hne : text ≠ []) (htext : EndsOutside w text) (before : Bool) :
    Shows w front₀ quote before text ∨
      (∀ i : {value // Quoted w quote value},
        secretAssignment w before (text ++ (front₀ ++ i.1)) = none) ∨
      ∃ replacement n, n ≤ text.length ∧ ∀ i : {value // Quoted w quote value},
        secretAssignment w before (text ++ (front₀ ++ i.1)) = some (replacement, n) := by
  by_cases hfound : ∃ (i : {value // Quoted w quote value}) (found : List Char × ℕ),
      secretAssignment w before (text ++ (front₀ ++ i.1)) = some found
  · obtain ⟨⟨_, e, hmark, he, rfl⟩, found, hfound⟩ := hfound
    obtain ⟨hboundary, front, value, heq, hfront, hvalue⟩ := secretAssignment_eq_some.mp hfound
    have hbefore : w.boundary before text = true := by
      cases text with
      | nil => exact absurd rfl hne
      | cons c text => exact hboundary
    have hinside : EndsInside w before text → ∃ replacement n, n ≤ text.length ∧
        ∀ i : {value // Quoted w quote value},
          secretAssignment w before (text ++ (front₀ ++ i.1)) = some (replacement, n) := by
      rintro ⟨replacement, n, hn, hall⟩
      exact ⟨replacement, n, hn, fun i => hall _⟩
    have hquoted : Quoted w quote [quote, e, quote] := ⟨e, hmark, he, rfl⟩
    have hcut := eq_append_of_cut (i := some ⟨_, hquoted⟩) hshape wordy_secretLabels
      (fun _ h => h.noGap hquote) hfront (noGap_of_secretValue? hvalue) htext heq
    rcases hcut with ⟨inner, rfl, rfl⟩ | rfl
    · rcases secretValue?_eq_some hvalue with ⟨run, rest, hrun, hvalue'⟩ |
        ⟨quote', d, run, rest, hquote', hrun, hall⟩
      · by_cases hinner : ∀ c ∈ inner, isSecretChar c = true
        · exact .inl (shows_of_open hshape hquote hfront hinner fun rest =>
            boundary_append hne hbefore)
        · exact .inr (.inr (hinside (endsInside_of_run hne hbefore hfront rfl hinner hvalue' hrun)))
      · cases inner with
        | nil =>
            -- an assignment does not begin with a quote
            have hmem : quote' ∈ front₀ := by
              have hhead := congrArg List.head? hrun
              rw [List.nil_append, tailOf,
                List.head?_append_of_ne_nil _ (by simp [hshape.eq])] at hhead
              exact List.mem_of_mem_head? hhead
            rw [not_isQuote_of_mem hshape hmem] at hquote'
            cases hquote'
        | cons f inner =>
            obtain ⟨rfl, hvalues⟩ := List.cons.inj hrun
            by_cases hinner : ∀ c ∈ inner, isSecretChar c = true
            · exact .inl (shows_of_openQuote hshape hquote hfront hquote' hinner hall hvalues
                fun rest => boundary_append hne hbefore)
            · obtain ⟨more, rfl⟩ := closed_inside hinner hquote' hall hvalues
              exact .inr (.inr (hinside (endsInside_of_quotes hne hbefore hfront rfl hquote' hall)))
    · refine .inl ⟨text ++ front₀ ++ [quote], redacted.toList, fun c hc hsecret => ?_⟩
      have hrun : ∀ d ∈ [c], isSecretChar d = true := by simpa using hsecret
      have hchars : text ++ (front₀ ++ [quote, c, quote]) =
          text ++ front₀ ++ quote :: ([c] ++ quote :: []) := by simp
      rw [hchars, sub_quoted hfront hquote hrun (hchars ▸ boundary_append hne hbefore),
        Pattern.sub_nil]
      simp
  · right
    left
    intro i
    cases hmatch : secretAssignment w before (text ++ (front₀ ++ i.1)) with
    | none => rfl
    | some found => exact absurd ⟨i, found, hmatch⟩ hfound

/-- Between quotes a mark is shown behind every text. -/
theorem exists_shown_quoted (hshape : Shape w front₀ letters gap sign gap')
    (hfront : Front secretLabels front₀) (hquote : isQuote quote = true) {p : List Char}
    (hp : EndsOutside w p) : Shows w front₀ quote false p := by
  have hnonempty : Nonempty {value // Quoted w quote value} :=
    ⟨_, '(', (mark_bracket w).1, by decide, rfl⟩
  obtain ⟨out, hend | ⟨before, c, text, hsuffix, hshows, hsub⟩⟩ :=
    Pattern.exists_scan (w := w) (fun i : {value // Quoted w quote value} => front₀ ++ i.1)
      (consuming_secretAssignment w) (fun before c text hsuffix =>
        quoted_step hshape hquote (List.cons_ne_nil c text) (hp.suffix hsuffix) before) false
  · refine ⟨out ++ (front₀ ++ [quote]), redacted.toList, fun c hc hsecret => ?_⟩
    have hrun : ∀ d ∈ [c], isSecretChar d = true := by simpa using hsecret
    have hvalue := hend ⟨_, c, hc, hsecret, rfl⟩
    have hchars : front₀ ++ [quote, c, quote] = front₀ ++ quote :: ([c] ++ quote :: []) := rfl
    rw [hp.endsWord] at hvalue
    rw [hvalue, hchars, sub_quoted hfront hquote hrun (boundary_front wordy_secretLabels hfront),
      Pattern.sub_nil]
    simp
  · obtain ⟨out', rest, hshown⟩ := hshows
    refine ⟨out ++ out', rest, fun c hc hsecret => ?_⟩
    have hvalue := hsub ⟨_, c, hc, hsecret, rfl⟩
    rw [hvalue, hshown c hc hsecret, List.append_assoc]

end Quotes

def IsLabel (label : String) : Prop := ∃ word ∈ secretLabels, Spells word.toList label.toList

/-- One or more characters that are no white space, comma, semicolon, quote or closing brace. -/
def IsSecretText (v : String) : Prop := v ≠ "" ∧ ∀ c ∈ v.toList, isSecretChar c = true

/-- The scrubbed text does not show which secret stood between the quotes. -/
def HidesSecret (w : WordClass) (isDense : List Char → Bool) (front quote : String)
    (freeText : Bool) : Prop :=
  ∀ v v', IsSecretText v → IsSecretText v' →
    scrubString w isDense (front ++ quote ++ v ++ quote) freeText =
      scrubString w isDense (front ++ quote ++ v' ++ quote) freeText

section Law

variable {isDense : List Char → Bool} {freeText : Bool} {p label s quote : String}

theorem not_hidesSecret_of_shown {front : String} {out rest : List Char}
    (h : ∀ c, Mark w c → isSecretChar c = true →
      (secretAssignment w).sub w false (front.toList ++ (quote.toList ++ c :: quote.toList)) =
        out ++ c :: rest) : ¬ HidesSecret w isDense front quote freeText := by
  intro hhides
  have hsame := congrArg (fun s : String => s.toList.count '(')
    (hhides "(" ")" ⟨by decide, by decide⟩ ⟨by decide, by decide⟩)
  have hchars : ∀ (v : String) (c : Char), v.toList = [c] → (front ++ quote ++ v ++ quote).toList =
      front.toList ++ (quote.toList ++ c :: quote.toList) := by
    intro v c hv
    simp [hv]
  simp only [count_scrubString] at hsame
  rw [hchars "(" '(' rfl, hchars ")" ')' rfl, h '(' (mark_bracket w).1 (by decide),
    h ')' (mark_bracket w).2 (by decide)] at hsame
  simp at hsame

/-- A secret is scrubbed as a whole exactly if it has no quotes and the text before it leaves no
assignment open whose value would end at a blank of the separator. -/
theorem scrubString_hides_iff (hp : EndsOutside w p.toList) (hlabel : IsLabel label)
    (hs : IsSeparator s) (hquote : quote ∈ ["", "\"", "'"]) :
    HidesSecret w isDense (p ++ label ++ s) quote freeText ↔ quote = "" ∧
      (leavesOpen w (secretAssignment w) p = false ∨ ∀ c ∈ s.toList, Text.isSpace c = false) := by
  obtain ⟨word, hword, hspells⟩ := hlabel
  obtain ⟨gap, sign, gap', hsep, hgap, hsign, hgap'⟩ := hs
  have hfront : Front secretLabels (label.toList ++ (gap ++ sign :: gap')) :=
    ⟨word, hword, _, gap, sign, gap', rfl, hspells, hgap, hsign, hgap'⟩
  have hshape : Shape w (label.toList ++ (gap ++ sign :: gap')) label.toList gap sign gap' :=
    hspells.shape (wordy_singleton wordy_secretLabels hword) hgap hsign hgap'
  have hchars : ∀ rest, (p ++ label ++ s).toList ++ rest =
      p.toList ++ (label.toList ++ (gap ++ sign :: gap') ++ rest) := by simp [hsep]
  have hredactor := redactor_secretAssignment w
  have hquoted : ∀ q, isQuote q = true → quote.toList = [q] →
      ¬ HidesSecret w isDense (p ++ label ++ s) quote freeText := by
    intro q hq hlist
    obtain ⟨out, rest, hshown⟩ := exists_shown_quoted hshape hfront hq hp
    have hmarked : ∀ c, Mark w c → isSecretChar c = true → (secretAssignment w).sub w false
        ((p ++ label ++ s).toList ++ (quote.toList ++ c :: quote.toList)) = out ++ c :: rest := by
      intro c hc hsecret
      rw [hchars, hlist]
      exact hshown c hc hsecret
    exact not_hidesSecret_of_shown hmarked
  rw [hsep, hshape.blankless_iff]
  constructor
  · intro hhides
    simp only [List.mem_cons, List.not_mem_nil, or_false] at hquote
    rcases hquote with rfl | rfl | rfl
    · refine ⟨rfl, ?_⟩
      by_contra h
      rw [not_or, Bool.not_eq_false, not_and_or] at h
      obtain ⟨out, hsub⟩ := exists_shown hredactor hshape hp (by simpa using h.1) h.2
      refine @not_hidesSecret_of_shown w isDense freeText "" (p ++ label ++ s) out []
        (fun c hc hsecret => ?_) hhides
      have hunquoted : Unquoted [c] :=
        ⟨by simpa using hsecret, by simpa using not_isQuote_of_isSecretChar hsecret⟩
      have houtside : ∀ d ∈ [c], w.isWord d = false := by simpa using hc.outside
      have hempty : "".toList ++ c :: "".toList = [c] := rfl
      rw [hchars, hempty, hsub _ hunquoted, sub_nonword houtside]
    · exact absurd hhides (hquoted '"' (by decide) rfl)
    · exact absurd hhides (hquoted '\'' (by decide) rfl)
  · rintro ⟨rfl, h⟩
    obtain ⟨out, hsub⟩ := exists_hidden hredactor hshape hp hfront (by simpa using h)
    have hout : ∀ v, IsSecretText v → (secretAssignment w).sub w false
        (p ++ label ++ s ++ "" ++ v ++ "").toList = out := by
      intro v hv
      have hvalue : Value isSecretChar v.toList [] :=
        ⟨fun hnil => hv.1 (String.toList_eq_nil_iff.mp hnil), hv.2, by simp⟩
      have hunquoted : Unquoted (v.toList ++ []) :=
        ⟨hvalue.head, fun c hc => not_isQuote_of_isSecretChar (hv.2 c (by simpa using hc))⟩
      have hlist : (p ++ label ++ s ++ "" ++ v ++ "").toList =
          (p ++ label ++ s).toList ++ (v.toList ++ []) := by simp
      rw [hlist, hchars, hsub _ _ hvalue hunquoted, Pattern.sub_nil, List.append_nil]
    intro v v' hv hv'
    rw [scrubString, scrubString, hout v hv, hout v' hv']

end Law

theorem scrubString_hides_iff_password :
    HidesSecret .known (fun _ => true) ("" ++ "password" ++ ": ") "" false := by
  have hlabel : IsLabel "password" := ⟨"password", by decide, by unfold Spells; decide⟩
  have hseparator : IsSeparator ": " := ⟨[], ':', [' '], by decide, by decide, .inl rfl, by decide⟩
  exact (scrubString_hides_iff (p := "") (fun c hc => by cases hc) hlabel hseparator
    (by decide)).mpr ⟨rfl, .inl (by decide)⟩

/-- ` password: "hunter2"` is scrubbed to ` password: "h[redacted]`. -/
theorem not_scrubString_hides : ¬ ∀ p label s quote : String, EndsOutside .known p.toList →
    IsLabel label → IsSeparator s → quote ∈ ["", "\"", "'"] →
      HidesSecret .known (fun _ => true) (p ++ label ++ s) quote false := by
  intro h
  have hlabel : IsLabel "password" := ⟨"password", by decide, by unfold Spells; decide⟩
  have hseparator : IsSeparator ": " := ⟨[], ':', [' '], by decide, by decide, .inl rfl, by decide⟩
  have houtside : EndsOutside .known " ".toList := by
    intro c hc
    obtain rfl : ' ' = c := by simpa using hc
    decide
  have hhides := h " " "password" ": " "\"" houtside hlabel hseparator (by decide)
  have hshown :
      scrubString .known (fun _ => true) (" " ++ "password" ++ ": " ++ "\"" ++ "hunter2" ++ "\"")
        false ≠
      scrubString .known (fun _ => true) (" " ++ "password" ++ ": " ++ "\"" ++ "swordfish" ++ "\"")
        false := by decide
  exact hshown (hhides "hunter2" "swordfish" ⟨by decide, by decide⟩ ⟨by decide, by decide⟩)

end WaitLocalAgent.FounderBundle
