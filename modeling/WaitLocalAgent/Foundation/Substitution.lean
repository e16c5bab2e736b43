import WaitLocalAgent.Foundation.Text

/-! # Substitution of matches

`re.sub` over code points, for a pattern given by what it finds at a position. -/

namespace WaitLocalAgent.Foundation

/-- `\w` of the `re` module, of which the ASCII characters, the white space and the letters that
fold to ASCII are known. -/
structure WordClass where
  isWord : Char → Bool
  ascii : ∀ c, c.toNat < 128 → isWord c = (c.isAlphanum || c == '_')
  folded : ∀ c ∈ ['ı', 'İ', 'ſ', '\u212a'], isWord c = true
  space : ∀ c, Text.isSpace c = true → isWord c = false

namespace WordClass

variable (w : WordClass)

/-- Whether a word character stands before the end of some characters. -/
def endsWord (before : Bool) (cs : List Char) : Bool := cs.foldl (fun _ c => w.isWord c) before

@[simp] theorem endsWord_nil (before : Bool) : w.endsWord before [] = before := rfl

@[simp] theorem endsWord_cons (before : Bool) (c : Char) (cs : List Char) :
    w.endsWord before (c :: cs) = w.endsWord (w.isWord c) cs := rfl

theorem endsWord_true {word : List Char} (hword : ∀ c ∈ word, w.isWord c = true) :
    w.endsWord true word = true := by
  induction word with
  | nil => rfl
  | cons c word ih =>
      rw [endsWord_cons, hword c List.mem_cons_self]
      exact ih fun d hd => hword d (List.mem_cons_of_mem c hd)

theorem endsWord_append (before : Bool) (cs ds : List Char) :
    w.endsWord before (cs ++ ds) = w.endsWord (w.endsWord before cs) ds :=
  List.foldl_append

def known : WordClass where
  isWord c := c.isAlphanum || c == '_' || ['ı', 'İ', 'ſ', '\u212a'].contains c
  ascii := by
    intro c hc
    have hfolded : ['ı', 'İ', 'ſ', '\u212a'].contains c = false := by
      cases hmem : ['ı', 'İ', 'ſ', '\u212a'].contains c with
      | false => rfl
      | true =>
          simp only [List.contains_eq_mem, List.mem_cons, List.not_mem_nil, or_false,
            decide_eq_true_eq] at hmem
          rcases hmem with rfl | rfl | rfl | rfl <;> exact absurd hc (by decide)
    rw [hfolded, Bool.or_false]
  folded := by decide
  space := by
    intro c hc
    cases hword : (c.isAlphanum || c == '_' || ['ı', 'İ', 'ſ', '\u212a'].contains c) with
    | false => rfl
    | true =>
        simp only [Char.isAlphanum, Char.isAlpha, Char.isUpper, Char.isLower, Char.isDigit,
          Bool.or_eq_true, Bool.and_eq_true, decide_eq_true_eq, beq_iff_eq, List.contains_eq_mem,
          List.mem_cons, List.not_mem_nil, or_false, UInt32.le_iff_toNat_le, ge_iff_le] at hword
        rcases hword with (hletter | rfl) | rfl | rfl | rfl | rfl
        · simp only [Text.isSpace, Bool.or_eq_true, Bool.and_eq_true, decide_eq_true_eq,
            beq_iff_eq] at hc
          have hval : c.toNat = c.val.toNat := rfl
          have hA : 'A'.val.toNat = 65 := rfl
          have hZ : 'Z'.val.toNat = 90 := rfl
          have ha : 'a'.val.toNat = 97 := rfl
          have hz : 'z'.val.toNat = 122 := rfl
          have h0 : '0'.val.toNat = 48 := rfl
          have h9 : '9'.val.toNat = 57 := rfl
          omega
        all_goals exact absurd hc (by decide)

/-- `\b`, between what stands before and the characters. -/
def boundary (before : Bool) (cs : List Char) : Bool := before != cs.head?.any w.isWord

end WordClass

/-- What a pattern finds at a position: the text in place of the match, and the length of the
match. A word character may stand before the position. -/
abbrev Pattern := Bool → List Char → Option (List Char × ℕ)

namespace Pattern

variable (w : WordClass) (p : Pattern)

/-- `pattern.sub`, from a position where `skip` more characters belong to a match. -/
def subFrom : ℕ → Bool → List Char → List Char
  | _, _, [] => []
  | skip + 1, _, c :: cs => subFrom skip (w.isWord c) cs
  | 0, before, c :: cs =>
      match p before (c :: cs) with
      | none => c :: subFrom 0 (w.isWord c) cs
      | some (replacement, consumed) => replacement ++ subFrom (consumed - 1) (w.isWord c) cs

def sub (before : Bool) (cs : List Char) : List Char := subFrom w p 0 before cs

@[simp] theorem sub_nil (before : Bool) : sub w p before [] = [] := rfl

theorem subFrom_eq (skip : ℕ) (before : Bool) (cs : List Char) :
    subFrom w p skip before cs = sub w p (w.endsWord before (cs.take skip)) (cs.drop skip) := by
  induction cs generalizing skip before with
  | nil => cases skip <;> simp [subFrom]
  | cons c cs ih =>
      cases skip with
      | zero => rfl
      | succ skip => simp [subFrom, ih]

variable {w p}

theorem sub_of_none {before : Bool} {c : Char} {cs : List Char} (h : p before (c :: cs) = none) :
    sub w p before (c :: cs) = c :: sub w p (w.isWord c) cs := by
  simp only [sub, subFrom, h]

theorem sub_of_some {before : Bool} {c : Char} {cs replacement : List Char} {consumed : ℕ}
    (h : p before (c :: cs) = some (replacement, consumed + 1)) :
    sub w p before (c :: cs) = replacement ++
      sub w p (w.endsWord before ((c :: cs).take (consumed + 1)))
        ((c :: cs).drop (consumed + 1)) := by
  rw [sub, subFrom, h]
  simp [subFrom_eq]

theorem sub_of_match {before : Bool} {cs replacement : List Char} {consumed : ℕ}
    (hcs : cs ≠ []) (hpos : 0 < consumed) (h : p before cs = some (replacement, consumed)) :
    sub w p before cs = replacement ++
      sub w p (w.endsWord before (cs.take consumed)) (cs.drop consumed) := by
  cases cs with
  | nil => exact absurd rfl hcs
  | cons c cs =>
      obtain ⟨n, rfl⟩ := Nat.exists_eq_succ_of_ne_zero (Nat.pos_iff_ne_zero.mp hpos)
      exact sub_of_some h

/-- Characters at which nothing matches are kept. -/
theorem sub_append_of_none {front rest : List Char}
    (h : ∀ before, ∀ c tail, (c :: tail) <:+ front → p before (c :: (tail ++ rest)) = none)
    (before : Bool) : sub w p before (front ++ rest) =
      front ++ sub w p (w.endsWord before front) rest := by
  induction front generalizing before with
  | nil => rfl
  | cons c front ih =>
      have hkept := ih fun before d tail hd => h before d tail (hd.trans (List.suffix_cons c front))
      rw [List.cons_append, sub_of_none (h before c front List.suffix_rfl), hkept]
      rfl

def Consuming (p : Pattern) : Prop := ∀ before cs replacement n,
  p before cs = some (replacement, n) → 0 < n

def Anchored (w : WordClass) (p : Pattern) : Prop := ∀ before c cs,
  (before = true ∨ w.isWord c = false) → p before (c :: cs) = none

/-- The induction along a substitution: a character is kept, or a match replaced. -/
theorem sub_induction (hp : Consuming p) {motive : Bool → List Char → Prop}
    (nil : ∀ before, motive before [])
    (keep : ∀ before c cs, p before (c :: cs) = none → motive (w.isWord c) cs →
      motive before (c :: cs))
    (replace : ∀ before c cs replacement n, p before (c :: cs) = some (replacement, n + 1) →
      motive (w.endsWord before ((c :: cs).take (n + 1))) ((c :: cs).drop (n + 1)) →
        motive before (c :: cs))
    (before : Bool) (cs : List Char) : motive before cs := by
  induction hlength : cs.length using Nat.strongRecOn generalizing before cs with
  | ind length ih =>
      cases cs with
      | nil => exact nil before
      | cons c cs =>
          simp only [List.length_cons] at hlength
          cases hmatch : p before (c :: cs) with
          | none => exact keep before c cs hmatch (ih cs.length (by omega) _ cs rfl)
          | some found =>
              obtain ⟨replacement, n⟩ := found
              obtain ⟨n, rfl⟩ := Nat.exists_eq_succ_of_ne_zero
                (Nat.pos_iff_ne_zero.mp (hp _ _ _ _ hmatch))
              refine replace before c cs replacement n hmatch (ih _ ?_ _ _ rfl)
              simp only [List.drop_succ_cons, List.length_drop]
              omega

section Anchored

variable (hp : Anchored w p)

include hp

/-- Inside a word nothing is replaced. -/
theorem sub_word (c : Char) (cs : List Char) :
    sub w p true (c :: cs) = c :: sub w p (w.isWord c) cs :=
  sub_of_none (hp true c cs (.inl rfl))

/-- A character outside words is kept. -/
theorem sub_other (before : Bool) {c : Char} (hc : w.isWord c = false) (cs : List Char) :
    sub w p before (c :: cs) = c :: sub w p false cs := by
  rw [sub_of_none (hp before c cs (.inr hc)), hc]

/-- What stands before matters at a word character only. -/
theorem sub_before {cs : List Char} (hcs : ∀ c ∈ cs.head?, w.isWord c = false)
    (before before' : Bool) : sub w p before cs = sub w p before' cs := by
  cases cs with
  | nil => rfl
  | cons c cs => rw [sub_other hp before (hcs c rfl), sub_other hp before' (hcs c rfl)]

theorem head?_sub_true (cs : List Char) : (sub w p true cs).head? = cs.head? := by
  cases cs with
  | nil => rfl
  | cons c cs => rw [sub_word hp, List.head?_cons, List.head?_cons]

theorem sub_append_word {word : List Char} (hword : ∀ c ∈ word, w.isWord c = true)
    (rest : List Char) : sub w p true (word ++ rest) = word ++ sub w p true rest := by
  induction word with
  | nil => rfl
  | cons c word ih =>
      rw [List.cons_append, sub_word hp, hword c List.mem_cons_self,
        ih fun c hc => hword c (List.mem_cons_of_mem _ hc)]
      rfl

/-- A character outside words stays the first one. -/
theorem head?_sub {cs : List Char} (hcs : ∀ c ∈ cs.head?, w.isWord c = false) (before : Bool) :
    (sub w p before cs).head? = cs.head? := by
  rw [sub_before hp hcs before true]
  exact head?_sub_true hp cs

/-- A word in the result stands in the text. -/
theorem of_sub_eq_append {word : List Char} (hword : ∀ c ∈ word, w.isWord c = true) :
    ∀ {cs rest : List Char}, sub w p true cs = word ++ rest →
      ∃ cs', cs = word ++ cs' ∧ rest = sub w p true cs' := by
  induction word with
  | nil =>
      intro cs rest h
      exact ⟨cs, rfl, h.symm⟩
  | cons c word ih =>
      intro cs rest h
      cases cs with
      | nil => cases h
      | cons d cs =>
          rw [sub_word hp, List.cons_append, List.cons.injEq] at h
          obtain ⟨rfl, hrest⟩ := h
          rw [hword d List.mem_cons_self] at hrest
          obtain ⟨cs', rfl, hsub⟩ := ih (fun c hc => hword c (List.mem_cons_of_mem d hc)) hrest
          exact ⟨cs', rfl, hsub⟩

end Anchored

end Pattern

end WaitLocalAgent.Foundation

/-! ## Substitution in front of a tail

What a substitution makes of a text does not depend on how the text goes on, until a match reaches
into what follows. -/

namespace WaitLocalAgent.Foundation.Pattern

variable {w : WordClass} {p : Pattern}

theorem endsWord_concat (w : WordClass) (before : Bool) (cs : List Char) (c : Char) :
    w.endsWord before (cs ++ [c]) = w.isWord c := by
  simp [WordClass.endsWord]

/-- A text is substituted up to its end, or up to a position at which a match may cross it, if
everywhere else a match is inside the text and does not depend on the tail. -/
theorem exists_scan {ι : Type} [Nonempty ι] (tail : ι → List Char)
    {cross : Bool → List Char → Prop} (hp : Consuming p) {front : List Char}
    (hstep : ∀ before c rest, (c :: rest) <:+ front → cross before (c :: rest) ∨
      (∀ i, p before (c :: rest ++ tail i) = none) ∨
      ∃ replacement n, n ≤ (c :: rest).length ∧
        ∀ i, p before (c :: rest ++ tail i) = some (replacement, n)) (before : Bool) :
    ∃ out, (∀ i, sub w p before (front ++ tail i) =
        out ++ sub w p (w.endsWord before front) (tail i)) ∨
      ∃ before' c rest, (c :: rest) <:+ front ∧ cross before' (c :: rest) ∧
        ∀ i, sub w p before (front ++ tail i) = out ++ sub w p before' (c :: rest ++ tail i) := by
  induction hlength : front.length using Nat.strongRecOn generalizing front before with
  | ind length ih =>
      cases front with
      | nil => exact ⟨[], .inl fun i => rfl⟩
      | cons c front =>
          -- the rest of the text, after what was substituted first
          have hafter : ∀ {done rest : List Char} {before' : Bool}, rest <:+ c :: front →
              rest.length < length →
              w.endsWord before' rest = w.endsWord before (c :: front) →
              (∀ i, sub w p before (c :: front ++ tail i) =
                done ++ sub w p before' (rest ++ tail i)) →
              ∃ out, (∀ i, sub w p before (c :: front ++ tail i) =
                  out ++ sub w p (w.endsWord before (c :: front)) (tail i)) ∨
                ∃ before' d rest, (d :: rest) <:+ c :: front ∧ cross before' (d :: rest) ∧
                  ∀ i, sub w p before (c :: front ++ tail i) =
                    out ++ sub w p before' (d :: rest ++ tail i) := by
            intro done rest before' hsuffix hshorter hends hdone
            obtain ⟨out, hend | ⟨before'', d, last, hlast, hcross, hsub⟩⟩ := ih rest.length hshorter
              (fun before d last hlast => hstep before d last (hlast.trans hsuffix)) before' rfl
            · refine ⟨done ++ out, .inl fun i => ?_⟩
              rw [hdone, hend, hends, List.append_assoc]
            · refine ⟨done ++ out,
                .inr ⟨before'', d, last, hlast.trans hsuffix, hcross, fun i => ?_⟩⟩
              rw [hdone, hsub, List.append_assoc]
          rcases hstep before c front List.suffix_rfl with
              hcross | hnone | ⟨replacement, n, hn, hfound⟩
          · exact ⟨[], .inr ⟨before, c, front, List.suffix_rfl, hcross, fun i => rfl⟩⟩
          · refine @hafter [c] front (w.isWord c) (List.suffix_cons c front) ?_ rfl fun i => ?_
            · rw [← hlength]
              exact Nat.lt_succ_self _
            · have hkept : p before (c :: (front ++ tail i)) = none := hnone i
              rw [List.cons_append, sub_of_none hkept]
              rfl
          · obtain ⟨i₀⟩ := ‹Nonempty ι›
            have hpos : 0 < n := hp _ _ _ _ (hfound i₀)
            refine @hafter replacement ((c :: front).drop n)
              (w.endsWord before ((c :: front).take n)) (List.drop_suffix _ _) ?_ ?_ fun i => ?_
            · rw [List.length_drop, hlength]
              omega
            · rw [← WordClass.endsWord_append, List.take_append_drop]
            · rw [sub_of_match (by simp) hpos (hfound i), List.take_append_of_le_length hn,
                List.drop_append_of_le_length hn]

/-- A character that is neither part of a match nor of a replacement stays as often as it is. -/
theorem count_sub (hp : Consuming p) {c : Char} (h : ∀ before cs replacement n,
      p before cs = some (replacement, n) → c ∉ cs.take n ∧ c ∉ replacement)
    (before : Bool) (cs : List Char) : (sub w p before cs).count c = cs.count c := by
  induction before, cs using sub_induction hp (w := w) with
  | nil before => rfl
  | keep before d cs hnone ih => rw [sub_of_none hnone, List.count_cons, List.count_cons, ih]
  | replace before d cs replacement n hmatch ih =>
      obtain ⟨htaken, hreplacement⟩ := h before (d :: cs) replacement (n + 1) hmatch
      have hsplit := congrArg (List.count c) (List.take_append_drop (n + 1) (d :: cs))
      rw [List.count_append, List.count_eq_zero_of_not_mem htaken, Nat.zero_add] at hsplit
      rw [sub_of_some hmatch, List.count_append, List.count_eq_zero_of_not_mem hreplacement, ih,
        Nat.zero_add, hsplit]

end WaitLocalAgent.Foundation.Pattern
