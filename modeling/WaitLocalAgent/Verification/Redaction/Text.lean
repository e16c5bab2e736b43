import WaitLocalAgent.Foundation.Pieces
import WaitLocalAgent.Model.Redaction

/-! # Redacted texts

Redaction of a text is idempotent: what stands in place of a value is taken for that value again,
and what was kept does not start a match. -/

namespace WaitLocalAgent.Redaction

open Foundation PowerPlatform

variable {w : WordClass}

/-! ### Texts with replaced runs -/

/-- The second text has `[redacted]` in place of runs of the first, which could be values. -/
inductive Blanked : List Char → List Char → Prop
  | nil : Blanked [] []
  | keep (c : Char) {cs ds : List Char} (h : Blanked cs ds) : Blanked (c :: cs) (c :: ds)
  | blank {run : List Char} (hne : run ≠ []) (hvalue : ∀ c ∈ run, isValue c = true)
      {cs ds : List Char} (h : Blanked cs ds) : Blanked (run ++ cs) (redacted.toList ++ ds)

theorem Blanked.append {cs ds : List Char} (h : Blanked cs ds) (front : List Char) :
    Blanked (front ++ cs) (front ++ ds) := by
  induction front with
  | nil => exact h
  | cons c front ih => exact .keep c ih

variable {c : Char}

theorem Blanked.of_cons {cs ds : List Char} (hc : c ≠ '[') (h : Blanked cs (c :: ds)) :
    ∃ cs', cs = c :: cs' ∧ Blanked cs' ds := by
  generalize hout : c :: ds = out at h
  cases h with
  | nil => cases hout
  | keep d h =>
      cases hout
      exact ⟨_, rfl, h⟩
  | blank hne hvalue h =>
      cases hout
      exact absurd rfl hc

variable {front : List Char}

theorem Blanked.of_append (hfront : '[' ∉ front) :
    ∀ {cs ds : List Char}, Blanked cs (front ++ ds) → ∃ cs', cs = front ++ cs' ∧
      Blanked cs' ds := by
  induction front with
  | nil => exact fun h => ⟨_, rfl, h⟩
  | cons c front ih =>
      intro cs ds h
      obtain ⟨cs', rfl, hrest⟩ :=
        h.of_cons fun heq => hfront (by rw [heq]; exact List.mem_cons_self)
      obtain ⟨cs', rfl, htail⟩ := ih (fun hmem => hfront (List.mem_cons_of_mem c hmem)) hrest
      exact ⟨cs', rfl, htail⟩

/-- A value stands where one stood. -/
theorem Blanked.isValue {cs ds : List Char} (h : Blanked cs ds)
    (hds : ds.head?.any isValue = true) : cs.head?.any isValue = true := by
  cases h with
  | nil => exact hds
  | keep c h => exact hds
  | @blank run hne hvalue cs ds h =>
      cases run with
      | nil => exact absurd rfl hne
      | cons c run => exact hvalue c List.mem_cons_self

/-! ### Assignments -/

def Spells (word letters : List Char) : Prop :=
  List.Forall₂ (fun p c => sameLetter p c = true) word letters

theorem stripWord_eq_some {word cs rest : List Char} :
    stripWord word cs = some rest ↔ ∃ letters, cs = letters ++ rest ∧ Spells word letters := by
  induction word generalizing cs with
  | nil =>
      constructor
      · intro h
        cases h
        exact ⟨[], rfl, .nil⟩
      · rintro ⟨letters, rfl, hspells⟩
        cases hspells
        rfl
  | cons p word ih =>
      cases cs with
      | nil =>
          constructor
          · intro h
            cases h
          · rintro ⟨letters, happend, hspells⟩
            cases hspells
            cases happend
      | cons c cs =>
          rw [stripWord]
          constructor
          · intro h
            split at h
            · next hsame =>
                obtain ⟨letters, rfl, hspells⟩ := ih.mp h
                exact ⟨c :: letters, rfl, .cons hsame hspells⟩
            · cases h
          · rintro ⟨letters, happend, hspells⟩
            cases hspells with
            | cons hsame hspells =>
                cases happend
                rw [if_pos hsame]
                exact ih.mpr ⟨_, rfl, hspells⟩

/-- A word, a sign and the gaps around it, before a value. -/
def Assignment (word : String) (front : List Char) : Prop :=
  ∃ letters gap sign gap', front = letters ++ (gap ++ sign :: gap') ∧
    Spells word.toList letters ∧ (∀ c ∈ gap, Text.isSpace c = true) ∧
    (sign = ':' ∨ sign = '=') ∧ ∀ c ∈ gap', Text.isSpace c = true

theorem not_isWord_sign (w : WordClass) (hc : c = ':' ∨ c = '=') :
    w.isWord c = false := by
  rcases hc with rfl | rfl <;> rw [w.ascii _ (by decide)] <;> decide

theorem not_isSpace_sign (hc : c = ':' ∨ c = '=') : Text.isSpace c = false := by
  rcases hc with rfl | rfl <;> decide

theorem not_isSpace_of_isValue (hc : isValue c = true) : Text.isSpace c = false := by
  simp only [isValue, Bool.and_eq_true, Bool.not_eq_true'] at hc
  exact hc.1.1

theorem dropWhile_append_cons {p : Char → Bool} {gap : List Char} (hgap : ∀ c ∈ gap, p c = true)
    (hc : p c = false) (cs : List Char) : (gap ++ c :: cs).dropWhile p = c :: cs := by
  rw [List.dropWhile_append_of_pos hgap, List.dropWhile_cons_of_neg (by simp [hc])]

variable {word : String}

theorem assignment?_eq_some {cs : List Char} {n : ℕ} :
    assignment? w word cs = some n ↔ ∃ front value, cs = front ++ value ∧ front.length = n ∧
      Assignment word front ∧ value.head?.any isValue = true := by
  constructor
  · intro h
    rw [assignment?] at h
    cases hstrip : stripWord word.toList cs with
    | none =>
        rw [hstrip] at h
        cases h
    | some rest =>
        rw [hstrip] at h
        obtain ⟨letters, rfl, hspells⟩ := stripWord_eq_some.mp hstrip
        dsimp only at h
        cases hsign : rest.dropWhile Text.isSpace with
        | nil =>
            rw [hsign] at h
            cases h
        | cons c value =>
            rw [hsign] at h
            dsimp only at h
            split at h
            · next hcond =>
                simp only [Bool.and_eq_true, Bool.or_eq_true, beq_iff_eq] at hcond
                have hrest := List.takeWhile_append_dropWhile (p := Text.isSpace) (l := rest)
                have hvalue := List.takeWhile_append_dropWhile (p := Text.isSpace) (l := value)
                refine ⟨letters ++
                  (rest.takeWhile Text.isSpace ++ c :: value.takeWhile Text.isSpace),
                  value.dropWhile Text.isSpace, ?_, ?_, ⟨letters, _, c, _, rfl, hspells, ?_,
                    hcond.1.2, ?_⟩, hcond.2⟩
                · rw [List.append_assoc, List.append_assoc, List.cons_append, hvalue,
                    ← hsign, hrest]
                · cases h
                  have hlength := congrArg List.length hrest
                  have hlength' := congrArg List.length hvalue
                  rw [hsign] at hlength
                  simp only [List.length_append, List.length_cons] at hlength hlength' ⊢
                  omega
                · exact fun c hc => List.mem_takeWhile_imp hc
                · exact fun c hc => List.mem_takeWhile_imp hc
            · cases h
  · rintro ⟨front, value, rfl, rfl, ⟨letters, gap, sign, gap', rfl, hspells, hgap, hsign, hgap'⟩,
      hvalue⟩
    rw [assignment?, List.append_assoc, List.append_assoc, List.cons_append,
      stripWord_eq_some.mpr ⟨letters, rfl, hspells⟩]
    dsimp only
    have hhead : (gap ++ sign :: (gap' ++ value)).head?.any w.isWord = false := by
      cases gap with
      | nil => simp [not_isWord_sign w hsign]
      | cons c gap => simp [w.space c (hgap c List.mem_cons_self)]
    cases value with
    | nil => cases hvalue
    | cons c value =>
        have hspace : Text.isSpace c = false := not_isSpace_of_isValue (by simpa using hvalue)
        rw [dropWhile_append_cons hgap (not_isSpace_sign hsign)]
        dsimp only
        rw [dropWhile_append_cons hgap' hspace, hhead, if_pos]
        · simp only [List.length_append, List.length_cons, Option.some.injEq]
          omega
        · simp only [Bool.and_eq_true, Bool.or_eq_true, beq_iff_eq]
          exact ⟨⟨rfl, hsign⟩, hvalue⟩

/-! ### What the words of the pattern contain -/

theorem sensitiveWords_letters : ∀ word ∈ sensitiveWords, ∀ p ∈ word.toList,
    sameLetter p '[' = false ∧ word.toList.head?.any isLowerLetter = true ∧
      word.toList.head?.any (sameLetter · 'r') = false := by
  decide

theorem Spells.not_mem {word letters : List Char} (h : Spells word letters)
    (hc : ∀ p ∈ word, sameLetter p c = false) : c ∉ letters := by
  induction h with
  | nil => exact List.not_mem_nil
  | @cons p d word letters hsame _ ih =>
      rw [List.mem_cons]
      rintro (rfl | hmem)
      · rw [hc p List.mem_cons_self] at hsame
        cases hsame
      · exact ih (fun p hp => hc p (List.mem_cons_of_mem _ hp)) hmem

theorem Assignment.no_bracket (hword : word ∈ sensitiveWords)
    (h : Assignment word front) : '[' ∉ front := by
  obtain ⟨letters, gap, sign, gap', rfl, hspells, hgap, hsign, hgap'⟩ := h
  have hspace : ∀ gap : List Char, (∀ c ∈ gap, Text.isSpace c = true) → '[' ∉ gap :=
    fun gap hgap hmem => absurd (hgap _ hmem) (by decide)
  simp only [List.mem_append, List.mem_cons, not_or]
  refine ⟨hspells.not_mem fun p hp => (sensitiveWords_letters word hword p hp).1,
    hspace gap hgap, ?_, hspace gap' hgap'⟩
  rcases hsign with rfl | rfl <;> decide

theorem isWord_of_isAlphanum (w : WordClass) (hc : c.isAlphanum = true) :
    w.isWord c = true := by
  have hascii : c.toNat < 128 := by
    simp only [Char.isAlphanum, Char.isAlpha, Char.isUpper, Char.isLower, Char.isDigit,
      Bool.or_eq_true, Bool.and_eq_true, decide_eq_true_eq, UInt32.le_iff_toNat_le,
      ge_iff_le] at hc
    have hval : c.toNat = c.val.toNat := rfl
    have hupper : 'Z'.val.toNat = 90 := rfl
    have hlower : 'z'.val.toNat = 122 := rfl
    have hdigit : '9'.val.toNat = 57 := rfl
    omega
  rw [w.ascii c hascii, hc, Bool.true_or]

theorem isAlphanum_of_isLowerLetter (h : isLowerLetter c = true) :
    c.isAlphanum = true := by
  simp only [isLowerLetter, Bool.and_eq_true, decide_eq_true_eq] at h
  simp only [Char.isAlphanum, Char.isAlpha, Char.isLower, Bool.or_eq_true, Bool.and_eq_true,
    decide_eq_true_eq]
  exact .inl (.inr h)

/-- What matches a small letter is a word character. -/
theorem isWord_of_sameLetter (w : WordClass) {p c : Char} (hp : isLowerLetter p = true)
    (h : sameLetter p c = true) : w.isWord c = true := by
  simp only [sameLetter, Bool.or_eq_true, Bool.and_eq_true, beq_iff_eq] at h
  rcases h with (((rfl | hlower) | ⟨-, hc⟩) | ⟨-, rfl⟩) | ⟨-, rfl⟩
  · exact isWord_of_isAlphanum w (isAlphanum_of_isLowerLetter hp)
  · apply isWord_of_isAlphanum
    rw [Char.toLower] at hlower
    split at hlower
    · next hupper =>
        simp only [Char.isAlphanum, Char.isAlpha, Char.isUpper, Bool.or_eq_true, decide_eq_true_eq]
        exact .inl (.inl hupper)
    · rw [hlower]
      exact isAlphanum_of_isLowerLetter hp
  · exact w.folded c (by rcases hc with rfl | rfl <;> simp)
  · exact w.folded _ (by simp)
  · exact w.folded _ (by simp)

/-! ### What the pattern of sensitive texts finds -/

def assigned (w : WordClass) (cs : List Char) : Option ℕ :=
  sensitiveWords.findSome? fun word => assignment? w word cs

theorem assigned_eq_some {cs : List Char} {n : ℕ} (h : assigned w cs = some n) :
    ∃ word ∈ sensitiveWords, ∃ front value, cs = front ++ value ∧ front.length = n ∧
      Assignment word front ∧ value.head?.any isValue = true := by
  obtain ⟨word, hword, hfound⟩ := List.exists_of_findSome?_eq_some h
  exact ⟨word, hword, assignment?_eq_some.mp hfound⟩

/-- Each assignment of the second text stands in the first one. -/
def Reflects (w : WordClass) (cs ds : List Char) : Prop :=
  ∀ word ∈ sensitiveWords, ∀ n, assignment? w word ds = some n → assignment? w word cs = some n

theorem Reflects.trans {cs ds es : List Char} (h : Reflects w cs ds) (h' : Reflects w ds es) :
    Reflects w cs es :=
  fun word hword n hn => h word hword n (h' word hword n hn)

theorem Blanked.reflects {cs ds : List Char} (h : Blanked cs ds) : Reflects w cs ds := by
  intro word hword n hn
  obtain ⟨front, value, rfl, hlength, hfront, hvalue⟩ := assignment?_eq_some.mp hn
  obtain ⟨value', rfl, hrest⟩ := h.of_append (hfront.no_bracket hword)
  exact assignment?_eq_some.mpr ⟨front, value', rfl, hlength, hfront, hrest.isValue hvalue⟩

theorem Reflects.assigned_eq_none {cs ds : List Char} (h : Reflects w cs ds)
    (hcs : assigned w cs = none) : assigned w ds = none := by
  rw [assigned, List.findSome?_eq_none_iff] at hcs ⊢
  intro word hword
  cases hds : assignment? w word ds with
  | none => rfl
  | some n =>
      have hfound := h word hword n hds
      rw [hcs word hword] at hfound
      cases hfound

theorem findSome?_eq_of_reflects {α : Type} {f g : α → Option ℕ} {n : ℕ} {l : List α}
    (hf : l.findSome? f = some n) (hgf : ∀ a ∈ l, ∀ m, g a = some m → f a = some m)
    (hfg : ∀ a ∈ l, f a = some n → g a = some n) : l.findSome? g = some n := by
  induction l with
  | nil => cases hf
  | cons a l ih =>
      rw [List.findSome?_cons] at hf ⊢
      cases hfa : f a with
      | some m =>
          rw [hfa] at hf
          cases hf
          rw [hfg a List.mem_cons_self hfa]
      | none =>
          rw [hfa] at hf
          cases hga : g a with
          | some m =>
              rw [hgf a List.mem_cons_self m hga] at hfa
              cases hfa
          | none =>
              exact ih hf (fun a ha => hgf a (List.mem_cons_of_mem _ ha))
                fun a ha => hfg a (List.mem_cons_of_mem _ ha)

/-- Another value after the sign changes nothing. -/
theorem Reflects.assigned_eq_some {front value value' : List Char}
    (h : Reflects w (front ++ value) (front ++ value'))
    (hfound : assigned w (front ++ value) = some front.length)
    (hvalue : value'.head?.any isValue = true) :
    assigned w (front ++ value') = some front.length := by
  refine findSome?_eq_of_reflects hfound h fun word hword hn => ?_
  obtain ⟨front', value'', happend, hlength, hfront, -⟩ := assignment?_eq_some.mp hn
  obtain ⟨rfl, -⟩ := List.append_inj happend hlength.symm
  exact assignment?_eq_some.mpr ⟨front, value', rfl, rfl, hfront, hvalue⟩

/-- A match: the first group, the value and what follows. -/
structure Sensitive (w : WordClass) (before : Bool) (front run rest : List Char) : Prop where
  boundary : w.boundary before (front ++ (run ++ rest)) = true
  word : ∃ word ∈ sensitiveWords, Assignment word front
  assigned : assigned w (front ++ (run ++ rest)) = some front.length
  nonempty : run ≠ []
  run : ∀ c ∈ run, isValue c = true
  rest : ∀ c ∈ rest.head?, isValue c = false

theorem Assignment.ne_nil (h : Assignment word front) :
    front ≠ [] := by
  obtain ⟨letters, gap, sign, gap', rfl, -⟩ := h
  simp

variable {before : Bool}

theorem sensitiveText_eq_some {cs replacement : List Char} {n : ℕ} :
    sensitiveText w before cs = some (replacement, n) ↔ ∃ front run rest,
      cs = front ++ (run ++ rest) ∧ replacement = front ++ redacted.toList ∧
        n = front.length + run.length ∧ Sensitive w before front run rest := by
  constructor
  · intro h
    rw [sensitiveText] at h
    split at h
    · next hboundary =>
        obtain ⟨k, hassigned, hk⟩ := Option.map_eq_some_iff.mp h
        obtain ⟨word, hword, front, value, rfl, rfl, hfront, hvalue⟩ := assigned_eq_some hassigned
        rw [List.take_left, List.drop_left, Prod.mk.injEq] at hk
        have hsplit := List.takeWhile_append_dropWhile (p := isValue) (l := value)
        refine ⟨front, value.takeWhile isValue, value.dropWhile isValue, by rw [hsplit], hk.1.symm,
          hk.2.symm, by rw [hsplit]; exact hboundary, ⟨word, hword, hfront⟩,
          by rw [hsplit]; exact hassigned, ?_, fun c hc => List.mem_takeWhile_imp hc, ?_⟩
        · cases value with
          | nil => cases hvalue
          | cons c value =>
              rw [List.takeWhile_cons_of_pos (by simpa using hvalue)]
              exact List.cons_ne_nil _ _
        · intro c hc
          have hhead := List.head?_dropWhile_not isValue value
          rw [Option.mem_def.mp hc] at hhead
          exact hhead
    · cases h
  · rintro ⟨front, run, rest, rfl, rfl, rfl, h⟩
    rw [sensitiveText, if_pos h.boundary]
    have hassigned : (sensitiveWords.findSome? fun word =>
        assignment? w word (front ++ (run ++ rest))) = some front.length := h.assigned
    rw [hassigned, Option.map_some, List.take_left, List.drop_left,
      (takeWhile_append_eq h.run h.rest).1]

theorem consuming_sensitiveText (w : WordClass) : (sensitiveText w).Consuming := by
  intro before cs replacement n h
  obtain ⟨front, run, rest, -, -, rfl, hmatch⟩ := sensitiveText_eq_some.mp h
  have hrun := List.length_pos_iff.mpr hmatch.nonempty
  omega

/-- The first letter of an assignment is a word character. -/
theorem Assignment.head (hword : word ∈ sensitiveWords)
    (h : Assignment word front) : ∃ c cs, front = c :: cs ∧ w.isWord c = true ∧ c ≠ 'r' := by
  obtain ⟨letters, gap, sign, gap', rfl, hspells, -⟩ := h
  cases hchars : word.toList with
  | nil =>
      have hnone : ∀ word ∈ sensitiveWords, word.toList ≠ [] := by decide
      exact absurd hchars (hnone word hword)
  | cons p ps =>
      have hfirst := sensitiveWords_letters word hword p (by rw [hchars]; exact List.mem_cons_self)
      rw [hchars] at hspells hfirst
      cases hspells with
      | @cons p c ps letters hsame hspells =>
          refine ⟨c, _, rfl, isWord_of_sameLetter w (by simpa using hfirst.2.1) hsame, ?_⟩
          rintro rfl
          have hr := hfirst.2.2
          rw [List.head?_cons, Option.any_some, hsame] at hr
          cases hr

theorem anchored_sensitiveText (w : WordClass) : (sensitiveText w).Anchored w := by
  intro before c cs h
  cases hmatch : sensitiveText w before (c :: cs) with
  | none => rfl
  | some found =>
      obtain ⟨front, run, rest, hchars, -, -, hsensitive⟩ := sensitiveText_eq_some.mp hmatch
      obtain ⟨word, hword, hfront⟩ := hsensitive.word
      obtain ⟨d, ds, rfl, hd, -⟩ := hfront.head (w := w) hword
      have hboundary := hsensitive.boundary
      rw [← hchars] at hboundary
      rw [List.cons_append, List.cons.injEq] at hchars
      obtain ⟨rfl, -⟩ := hchars
      rcases h with rfl | hc
      · simp [WordClass.boundary, hd] at hboundary
      · rw [hd] at hc
        cases hc

/-- A match is replaced, and the substitution goes on behind it. -/
theorem Sensitive.sub {front run rest : List Char}
    (h : Sensitive w before front run rest) :
    (sensitiveText w).sub w before (front ++ (run ++ rest)) = front ++ (redacted.toList ++
      (sensitiveText w).sub w (w.endsWord before (front ++ run)) rest) := by
  obtain ⟨word, hword, hfront⟩ := h.word
  have hne : front ++ (run ++ rest) ≠ [] := by simp [hfront.ne_nil]
  have hmatch := sensitiveText_eq_some.mpr ⟨front, run, rest, rfl, rfl, rfl, h⟩
  have hlength : front.length + run.length = (front ++ run).length := by simp
  rw [Pattern.sub_of_match hne (consuming_sensitiveText w _ _ _ _ hmatch) hmatch, hlength,
    ← List.append_assoc front, List.take_left, List.drop_left, List.append_assoc]

theorem blanked_sub (w : WordClass) (before : Bool) (cs : List Char) :
    Blanked cs ((sensitiveText w).sub w before cs) := by
  induction before, cs using Pattern.sub_induction (consuming_sensitiveText w) (w := w) with
  | nil before => exact .nil
  | keep before c cs hnone ih =>
      rw [Pattern.sub_of_none hnone]
      exact .keep c ih
  | replace before c cs replacement n hmatch ih =>
      obtain ⟨front, run, rest, hchars, -, hlength, h⟩ := sensitiveText_eq_some.mp hmatch
      rw [hchars, hlength, ← List.append_assoc, ← List.length_append, List.take_left,
        List.drop_left] at ih
      rw [hchars, h.sub]
      exact (ih.blank h.nonempty h.run).append front

/-! ### What the pattern of access keys finds -/

/-- A match, and what follows. -/
structure AccessKey (w : WordClass) (before : Bool) (token rest : List Char) : Prop where
  boundary : w.boundary before (token ++ rest) = true
  start : ∃ cs, token = 'A' :: 'K' :: cs
  isAccessKey : isAccessKey w (token ++ rest) = true
  length : token.length = 20
  token : ∀ c ∈ token, isKeyChar c = true
  rest : ∀ c ∈ rest.head?, w.isWord c = false

theorem isAlphanum_of_isKeyChar (h : isKeyChar c = true) : c.isAlphanum = true := by
  simp only [isKeyChar, Bool.or_eq_true, Bool.and_eq_true, decide_eq_true_eq] at h
  simp only [Char.isAlphanum, Char.isAlpha, Char.isUpper, Char.isDigit, Bool.or_eq_true,
    Bool.and_eq_true, decide_eq_true_eq]
  rcases h with h | h
  · exact .inr h
  · exact .inl (.inl h)

theorem isValue_of_isWord (h : w.isWord c = true) : isValue c = true := by
  simp only [isValue, Bool.and_eq_true, Bool.not_eq_true', bne_iff_ne, ne_eq]
  refine ⟨⟨?_, ?_⟩, ?_⟩
  · cases hspace : Text.isSpace c with
    | false => rfl
    | true =>
        rw [w.space c hspace] at h
        cases h
  · rintro rfl
    rw [w.ascii _ (by decide)] at h
    cases h
  · rintro rfl
    rw [w.ascii _ (by decide)] at h
    cases h

theorem awsAccessKey_eq_some {cs replacement : List Char} {n : ℕ} :
    awsAccessKey w before cs = some (replacement, n) ↔ ∃ token rest, cs = token ++ rest ∧
      replacement = redacted.toList ∧ n = 20 ∧ AccessKey w before token rest := by
  constructor
  · intro h
    rw [awsAccessKey] at h
    split at h
    · next hcond =>
        cases h
        rw [Bool.and_eq_true] at hcond
        have hkey := hcond.2
        simp only [isAccessKey, Bool.and_eq_true, decide_eq_true_eq, Bool.not_eq_true',
          List.all_eq_true] at hkey
        obtain ⟨⟨⟨hstart, hlength⟩, hall⟩, hend⟩ := hkey
        obtain ⟨tail, htail⟩ := List.isPrefixOf_iff_prefix.mp hstart
        refine ⟨cs.take 20, cs.drop 20, (List.take_append_drop 20 cs).symm, rfl, rfl, ?_, ?_, ?_,
          by simp [hlength], hall, ?_⟩
        · rw [List.take_append_drop]
          exact hcond.1
        · exact ⟨_, by rw [← htail]; rfl⟩
        · rw [List.take_append_drop]
          exact hcond.2
        · intro c hc
          rw [Option.mem_def.mp hc] at hend
          exact hend
    · cases h
  · rintro ⟨token, rest, rfl, rfl, rfl, h⟩
    rw [awsAccessKey, h.boundary, h.isAccessKey]
    rfl

/-- What follows matters by its first character only. -/
theorem AccessKey.of_head {token rest rest' : List Char}
    (h : AccessKey w before token rest) (hhead : rest'.head? = rest.head?) :
    AccessKey w before token rest' := by
  obtain ⟨cs, hstart⟩ := h.start
  have hkey := h.isAccessKey
  have hdrop : ∀ rest, (token ++ rest).drop 20 = rest := fun rest => by
    rw [← h.length, List.drop_left]
  have htake : ∀ rest, (token ++ rest).take 20 = token := fun rest => by
    rw [← h.length, List.take_left]
  refine ⟨?_, h.start, ?_, h.length, h.token, by rw [hhead]; exact h.rest⟩
  · have hboundary := h.boundary
    rw [hstart] at hboundary ⊢
    exact hboundary
  · simp only [Redaction.isAccessKey, hdrop, htake, Bool.and_eq_true] at hkey ⊢
    refine ⟨⟨⟨?_, ?_⟩, hkey.1.2⟩, by rw [hhead]; exact hkey.2⟩
    · obtain ⟨tail, htail⟩ := List.isPrefixOf_iff_prefix.mp hkey.1.1.1
      rw [List.isPrefixOf_iff_prefix]
      have hprefix : "AKIA".toList <+: token :=
        List.prefix_of_prefix_length_le ⟨tail, htail⟩ (List.prefix_append token rest)
          (by rw [h.length]; decide)
      exact hprefix.trans (List.prefix_append token rest')
    · rw [decide_eq_true_eq, List.length_append, h.length]
      omega

theorem consuming_awsAccessKey (w : WordClass) : (awsAccessKey w).Consuming := by
  intro before cs replacement n h
  obtain ⟨token, rest, -, -, rfl, -⟩ := awsAccessKey_eq_some.mp h
  decide

/-- Only an `A` before a `K` starts a match. -/
theorem awsAccessKey_eq_none {cs : List Char}
    (h : c ≠ 'A' ∨ cs.head? ≠ some 'K') : awsAccessKey w before (c :: cs) = none := by
  cases hmatch : awsAccessKey w before (c :: cs) with
  | none => rfl
  | some found =>
      obtain ⟨token, rest, hchars, -, -, hkey⟩ := awsAccessKey_eq_some.mp hmatch
      obtain ⟨tail, rfl⟩ := hkey.start
      rw [List.cons_append, List.cons_append] at hchars
      cases hchars
      rcases h with h | h <;> exact absurd rfl h

theorem anchored_awsAccessKey (w : WordClass) : (awsAccessKey w).Anchored w := by
  intro before c cs h
  cases hmatch : awsAccessKey w before (c :: cs) with
  | none => rfl
  | some found =>
      obtain ⟨token, rest, hchars, -, -, hkey⟩ := awsAccessKey_eq_some.mp hmatch
      have hboundary := hkey.boundary
      have hword : w.isWord 'A' = true := isWord_of_isAlphanum w (by decide)
      obtain ⟨tail, rfl⟩ := hkey.start
      cases hchars
      rcases h with rfl | hc
      · simp [WordClass.boundary, hword] at hboundary
      · rw [hword] at hc
        cases hc

theorem AccessKey.isWord {token rest : List Char}
    (h : AccessKey w before token rest) (hc : c ∈ token) : w.isWord c = true :=
  isWord_of_isAlphanum w (isAlphanum_of_isKeyChar (h.token c hc))

theorem AccessKey.sub {token rest : List Char}
    (h : AccessKey w before token rest) : (awsAccessKey w).sub w before (token ++ rest) =
      redacted.toList ++ (awsAccessKey w).sub w (w.endsWord before token) rest := by
  have hne : token ++ rest ≠ [] := by
    obtain ⟨tail, rfl⟩ := h.start
    simp
  have hmatch := awsAccessKey_eq_some.mpr ⟨token, rest, rfl, rfl, rfl, h⟩
  rw [Pattern.sub_of_match hne (by decide) hmatch, ← h.length, List.take_left, List.drop_left]

theorem blanked_sub_awsAccessKey (w : WordClass) (before : Bool) (cs : List Char) :
    Blanked cs ((awsAccessKey w).sub w before cs) := by
  induction before, cs using Pattern.sub_induction (consuming_awsAccessKey w) (w := w) with
  | nil before => exact .nil
  | keep before c cs hnone ih =>
      rw [Pattern.sub_of_none hnone]
      exact .keep c ih
  | replace before c cs replacement n hmatch ih =>
      obtain ⟨token, rest, hchars, -, hlength, h⟩ := awsAccessKey_eq_some.mp hmatch
      rw [hchars, hlength, ← h.length, List.take_left, List.drop_left] at ih
      rw [hchars, h.sub]
      refine ih.blank ?_ fun c hc => isValue_of_isWord (h.isWord hc)
      rw [← List.length_pos_iff, h.length]
      decide

/-! ### Substitution is idempotent -/

theorem not_isWord_bracket (w : WordClass) : w.isWord '[' = false ∧ w.isWord ']' = false :=
  ⟨(w.ascii _ (by decide)).trans (by decide), (w.ascii _ (by decide)).trans (by decide)⟩

theorem endsWord_redacted (w : WordClass) (before : Bool) :
    w.endsWord before redacted.toList = false :=
  (not_isWord_bracket w).2

theorem sub_awsAccessKey_append {front rest : List Char} (h : 'A' ∉ front) (before : Bool) :
    (awsAccessKey w).sub w before (front ++ rest) =
      front ++ (awsAccessKey w).sub w (w.endsWord before front) rest :=
  Pattern.sub_append_of_none (fun _ _ _ hsuffix => awsAccessKey_eq_none
    (.inl fun heq => h (heq ▸ hsuffix.subset List.mem_cons_self))) before

/-- No two letters of the word match the start of an access key. -/
def keyless : List Char → Bool
  | p :: q :: ps => !(sameLetter p 'A' && sameLetter q 'K') && keyless (q :: ps)
  | _ => true

theorem keyless_sensitiveWords : ∀ word ∈ sensitiveWords, keyless word.toList = true := by
  decide

theorem Spells.sub_awsAccessKey {word letters rest : List Char} (h : Spells word letters)
    (hword : keyless word = true) (hrest : rest.head? ≠ some 'K') (before : Bool) :
    (awsAccessKey w).sub w before (letters ++ rest) =
      letters ++ (awsAccessKey w).sub w (w.endsWord before letters) rest := by
  induction h generalizing before with
  | nil => rfl
  | @cons p c word letters hsame hspells ih =>
      have hnone : awsAccessKey w before (c :: (letters ++ rest)) = none := by
        refine awsAccessKey_eq_none ?_
        cases hspells with
        | nil => exact .inr hrest
        | @cons q d word letters hsame' hspells =>
            by_contra hboth
            simp only [not_or, not_not, ne_eq] at hboth
            obtain ⟨rfl, hd⟩ := hboth
            cases hd
            simp [keyless, hsame, hsame'] at hword
      have hword' : keyless word = true := by
        cases word with
        | nil => rfl
        | cons q word =>
            simp only [keyless, Bool.and_eq_true] at hword
            exact hword.2
      rw [List.cons_append, Pattern.sub_of_none hnone, ih hword']
      rfl

theorem sub_awsAccessKey_redacted (before : Bool) (rest : List Char) :
    (awsAccessKey w).sub w before (redacted.toList ++ rest) =
      redacted.toList ++ (awsAccessKey w).sub w false rest := by
  rw [sub_awsAccessKey_append (by decide), endsWord_redacted]

theorem Assignment.sub_awsAccessKey (hword : word ∈ sensitiveWords)
    (h : Assignment word front) (before : Bool) (rest : List Char) :
    (awsAccessKey w).sub w before (front ++ (redacted.toList ++ rest)) =
      front ++ (redacted.toList ++ (awsAccessKey w).sub w false rest) := by
  obtain ⟨letters, gap, sign, gap', rfl, hspells, hgap, hsign, hgap'⟩ := h
  have hspace : ∀ c : Char, Text.isSpace c = true → c ≠ 'A' ∧ c ≠ 'K' := by
    rintro c hc
    constructor <;> rintro rfl <;> exact absurd hc (by decide)
  have hmark : sign ≠ 'A' ∧ sign ≠ 'K' := by rcases hsign with rfl | rfl <;> decide
  have hA : 'A' ∉ gap ++ sign :: gap' := by
    simp only [List.mem_append, List.mem_cons, not_or]
    exact ⟨fun h => (hspace _ (hgap _ h)).1 rfl, hmark.1.symm,
      fun h => (hspace _ (hgap' _ h)).1 rfl⟩
  have hK : (gap ++ sign :: gap' ++ (redacted.toList ++ rest)).head? ≠ some 'K' := by
    cases gap with
    | nil => simpa using hmark.2
    | cons c gap => simpa using (hspace c (hgap c List.mem_cons_self)).2
  rw [List.append_assoc letters, hspells.sub_awsAccessKey (keyless_sensitiveWords word hword) hK,
    sub_awsAccessKey_append hA, sub_awsAccessKey_redacted, List.append_assoc letters]

theorem sub_sensitiveText_redacted (before : Bool) (rest : List Char) :
    (sensitiveText w).sub w before (redacted.toList ++ rest) =
      redacted.toList ++ (sensitiveText w).sub w false rest := by
  have hanchored := anchored_sensitiveText w
  have hletters : ∀ c ∈ "edacted".toList, w.isWord c = true :=
    fun c hc => isWord_of_isAlphanum w (by revert c; decide)
  have hr : sensitiveText w false ('r' :: ("edacted".toList ++ ']' :: rest)) = none := by
    cases hmatch : sensitiveText w false ('r' :: ("edacted".toList ++ ']' :: rest)) with
    | none => rfl
    | some found =>
        obtain ⟨front, run, rest, hchars, -, -, hsensitive⟩ := sensitiveText_eq_some.mp hmatch
        obtain ⟨word, hword, hfront⟩ := hsensitive.word
        obtain ⟨d, ds, rfl, -, hd⟩ := hfront.head (w := w) hword
        rw [List.cons_append, List.cons.injEq] at hchars
        exact absurd hchars.1.symm hd
  have hchars : redacted.toList ++ rest = '[' :: 'r' :: ("edacted".toList ++ ']' :: rest) := rfl
  rw [hchars, Pattern.sub_other hanchored _ (not_isWord_bracket w).1, Pattern.sub_of_none hr,
    isWord_of_isAlphanum w (c := 'r') (by decide), Pattern.sub_append_word hanchored hletters,
    Pattern.sub_other hanchored _ (not_isWord_bracket w).2]
  rfl

theorem not_isWord_of_not_isValue (h : isValue c = false) : w.isWord c = false := by
  cases hword : w.isWord c with
  | false => rfl
  | true =>
      rw [isValue_of_isWord hword] at h
      cases h

theorem sub_awsAccessKey_idem (w : WordClass) (before : Bool) (cs : List Char) :
    (awsAccessKey w).sub w before ((awsAccessKey w).sub w before cs) =
      (awsAccessKey w).sub w before cs := by
  have hanchored := anchored_awsAccessKey w
  induction before, cs using Pattern.sub_induction (consuming_awsAccessKey w) (w := w) with
  | nil before => rfl
  | keep before c cs hnone ih =>
      have hkept : awsAccessKey w before (c :: (awsAccessKey w).sub w (w.isWord c) cs) = none := by
        cases hmatch : awsAccessKey w before (c :: (awsAccessKey w).sub w (w.isWord c) cs) with
        | none => rfl
        | some found =>
            obtain ⟨token, rest, hchars, -, -, hkey⟩ := awsAccessKey_eq_some.mp hmatch
            cases token with
            | nil => cases hkey.length
            | cons d token =>
                rw [List.cons_append, List.cons.injEq] at hchars
                obtain ⟨rfl, hsub⟩ := hchars
                rw [hkey.isWord List.mem_cons_self] at hsub
                obtain ⟨cs', rfl, rfl⟩ := Pattern.of_sub_eq_append hanchored
                  (fun d hd => hkey.isWord (List.mem_cons_of_mem _ hd)) hsub
                have hfound := awsAccessKey_eq_some.mpr ⟨c :: token, cs', rfl, rfl, rfl,
                  hkey.of_head (Pattern.head?_sub_true hanchored cs').symm⟩
                rw [List.cons_append, hnone] at hfound
                cases hfound
      rw [Pattern.sub_of_none hnone, Pattern.sub_of_none hkept, ih]
  | replace before c cs replacement n hmatch ih =>
      obtain ⟨token, rest, hchars, -, hlength, hkey⟩ := awsAccessKey_eq_some.mp hmatch
      rw [hchars, hlength, ← hkey.length, List.take_left, List.drop_left] at ih
      have hhead : ∀ c ∈ ((awsAccessKey w).sub w (w.endsWord before token) rest).head?,
          w.isWord c = false := by
        rw [Pattern.head?_sub hanchored hkey.rest]
        exact hkey.rest
      rw [hchars, hkey.sub, sub_awsAccessKey_redacted,
        Pattern.sub_before hanchored hhead false (w.endsWord before token), ih]

theorem Reflects.sensitiveText_eq_none {cs ds : List Char}
    (h : Reflects w (c :: cs) (c :: ds)) (hnone : sensitiveText w before (c :: cs) = none) :
    sensitiveText w before (c :: ds) = none := by
  have hboundary : w.boundary before (c :: ds) = w.boundary before (c :: cs) := rfl
  rw [sensitiveText, hboundary]
  rw [sensitiveText] at hnone
  split at hnone
  · next hb =>
      rw [if_pos hb, Option.map_eq_none_iff]
      exact h.assigned_eq_none (Option.map_eq_none_iff.mp hnone)
  · next hb => rw [if_neg hb]

/-- What was put in place of a value is a value again. -/
theorem Sensitive.again {front run rest rest' : List Char}
    (h : Sensitive w before front run rest)
    (hreflects : Reflects w (front ++ (run ++ rest)) (front ++ (redacted.toList ++ rest')))
    (hhead : rest'.head? = rest.head?) : Sensitive w before front redacted.toList rest' where
  boundary := by
    obtain ⟨word, hword, hfront⟩ := h.word
    obtain ⟨c, cs, rfl, -⟩ := hfront.head (w := w) hword
    exact h.boundary
  word := h.word
  assigned := hreflects.assigned_eq_some h.assigned rfl
  nonempty := by decide
  run := by decide
  rest := by rw [hhead]; exact h.rest

/-- A text that the first substitution has gone over is left by it, also once its access keys are
gone. -/
theorem sub_sensitiveText_sub_awsAccessKey (w : WordClass) (before : Bool) (cs : List Char) :
    (sensitiveText w).sub w before
        ((awsAccessKey w).sub w before ((sensitiveText w).sub w before cs)) =
      (awsAccessKey w).sub w before ((sensitiveText w).sub w before cs) := by
  have hsensitive := anchored_sensitiveText w
  have haws := anchored_awsAccessKey w
  induction before, cs using Pattern.sub_induction (consuming_sensitiveText w) (w := w) with
  | nil before => rfl
  | keep before c cs hnone ih =>
      rw [Pattern.sub_of_none hnone]
      cases hmatch : awsAccessKey w before
          (c :: (sensitiveText w).sub w (w.isWord c) cs) with
      | none =>
          have hkept : sensitiveText w before (c :: (awsAccessKey w).sub w (w.isWord c)
              ((sensitiveText w).sub w (w.isWord c) cs)) = none := by
            have hreflects := ((blanked_sub w (w.isWord c) cs).keep c).reflects (w := w) |>.trans
              ((blanked_sub_awsAccessKey w (w.isWord c) _).keep c).reflects
            exact hreflects.sensitiveText_eq_none hnone
          rw [Pattern.sub_of_none hmatch, Pattern.sub_of_none hkept, ih]
      | some found =>
          obtain ⟨token, rest, hchars, -, -, hkey⟩ := awsAccessKey_eq_some.mp hmatch
          cases token with
          | nil => cases hkey.length
          | cons d token =>
              have hword : ∀ c ∈ token, w.isWord c = true :=
                fun c hc => hkey.isWord (List.mem_cons_of_mem _ hc)
              have hchars' := hchars
              rw [List.cons_append, List.cons.injEq] at hchars'
              obtain ⟨rfl, hsub⟩ := hchars'
              -- the induction hypothesis is about the text behind the first letter of the key
              rw [hkey.isWord List.mem_cons_self] at hsub ih
              rw [hsub, Pattern.sub_append_word haws hword,
                Pattern.sub_append_word hsensitive hword,
                List.append_cancel_left_eq] at ih
              have hbehind : w.endsWord before (c :: token) = true := by
                rw [WordClass.endsWord_cons, hkey.isWord List.mem_cons_self, w.endsWord_true hword]
              have hhead : ∀ c ∈ ((awsAccessKey w).sub w true rest).head?, w.isWord c = false := by
                rw [Pattern.head?_sub_true haws]
                exact hkey.rest
              rw [hkey.isWord List.mem_cons_self, hsub, ← List.cons_append, hkey.sub, hbehind,
                sub_sensitiveText_redacted, Pattern.sub_before hsensitive hhead false true, ih]
  | replace before c cs replacement n hmatch ih =>
      obtain ⟨front, run, rest, hchars, -, hlength, h⟩ := sensitiveText_eq_some.mp hmatch
      obtain ⟨word, hword, hfront⟩ := h.word
      rw [hchars, hlength, ← List.append_assoc, ← List.length_append, List.take_left,
        List.drop_left] at ih
      generalize hbehind : w.endsWord before (front ++ run) = behind at ih
      have hrest : ∀ c ∈ rest.head?, w.isWord c = false :=
        fun c hc => not_isWord_of_not_isValue (h.rest c hc)
      have hhead := Pattern.head?_sub hsensitive hrest behind
      have hother : ∀ c ∈ ((sensitiveText w).sub w behind rest).head?, w.isWord c = false := by
        rw [hhead]
        exact hrest
      have hhead' := Pattern.head?_sub haws hother behind
      have hother' : ∀ c ∈ ((awsAccessKey w).sub w behind
          ((sensitiveText w).sub w behind rest)).head?, w.isWord c = false := by
        rw [hhead']
        exact hother
      have hreflects : Reflects w (front ++ (run ++ rest)) (front ++ (redacted.toList ++
          (awsAccessKey w).sub w behind ((sensitiveText w).sub w behind rest))) :=
        (((blanked_sub w behind rest).blank h.nonempty h.run).append front).reflects.trans
          (((blanked_sub_awsAccessKey w behind _).append redacted.toList).append front).reflects
      have hagain := h.again hreflects (hhead'.trans hhead)
      have hends : w.endsWord before (front ++ redacted.toList) = false := by
        rw [w.endsWord_append, endsWord_redacted]
      rw [hchars, h.sub, hbehind, hfront.sub_awsAccessKey hword,
        Pattern.sub_before haws hother false behind, hagain.sub, hends,
        Pattern.sub_before hsensitive hother' false behind, ih]

theorem redactText_redactText (w : WordClass) (s : String) :
    redactText w (redactText w s) = redactText w s := by
  rw [redactText, redactText, String.toList_ofList, sub_sensitiveText_sub_awsAccessKey,
    sub_awsAccessKey_idem]

end WaitLocalAgent.Redaction
