import WaitLocalAgent.Foundation.Blanks
import WaitLocalAgent.Foundation.Pieces
import WaitLocalAgent.Model.UpdateChannel

/-! # The grammar of versions

The productions of SemVer 2.0.0, and what `parse_semver` accepts of them and beside them. Both are
read off the groups of the pattern, which a text determines. -/

namespace WaitLocalAgent.UpdateChannel

open Foundation

variable {d : DecimalDigits} {cs rest digits : List Char} {g : SemverGroups}

/-! ### Productions -/

/-- `<numeric identifier>`, over a class of digits after the first. -/
def IsNumericIdentifier (isDigit : Char → Bool) (cs : List Char) : Prop :=
  cs = ['0'] ∨ ∃ c rest, cs = c :: rest ∧ c.isDigit = true ∧ c ≠ '0' ∧
    ∀ e ∈ rest, isDigit e = true

def IsAlphanumericIdentifier (cs : List Char) : Prop :=
  (∀ c ∈ cs, isIdentifierChar c = true) ∧ ∃ c ∈ cs, c.isDigit = false

/-- `<pre-release identifier>`. -/
def IsPrereleaseIdentifier (cs : List Char) : Prop :=
  IsAlphanumericIdentifier cs ∨ IsNumericIdentifier Char.isDigit cs

def IsBuildIdentifier (cs : List Char) : Prop :=
  IsAlphanumericIdentifier cs ∨ cs ≠ [] ∧ ∀ c ∈ cs, c.isDigit = true

def IsDotSeparated (p : List Char → Prop) (cs : List Char) : Prop :=
  ∀ identifier ∈ cs.splitOn '.', p identifier

/-- A part of a version behind its mark, where there is one. -/
def marked (mark : Char) : Option (List Char) → List Char
  | none => []
  | some cs => mark :: cs

def SemverGroups.text (g : SemverGroups) : List Char :=
  g.major ++ '.' :: (g.minor ++ '.' :: (g.patch ++ (marked '-' g.prerelease ++
    marked '+' g.build)))

/-- `<valid semver>`, over a class of digits after the first of major, minor and patch. -/
structure SemverGroups.IsVersion (isDigit : Char → Bool) (g : SemverGroups) : Prop where
  major : IsNumericIdentifier isDigit g.major
  minor : IsNumericIdentifier isDigit g.minor
  patch : IsNumericIdentifier isDigit g.patch
  prerelease : ∀ cs ∈ g.prerelease, IsDotSeparated IsPrereleaseIdentifier cs
  build : ∀ cs ∈ g.build, IsDotSeparated IsBuildIdentifier cs

/-- A valid version of the SemVer 2.0.0 grammar. -/
def IsSemVer (value : String) : Prop :=
  ∃ g : SemverGroups, g.IsVersion Char.isDigit ∧ g.text = value.toList

/-! ### The pattern -/

def IsIdentifier (cs : List Char) : Prop := cs ≠ [] ∧ ∀ c ∈ cs, isIdentifierChar c = true

/-- What `_SEMVER_RE` matches. -/
structure SemverGroups.Matches (d : DecimalDigits) (g : SemverGroups) : Prop where
  major : IsNumericIdentifier d.isDecimal g.major
  minor : IsNumericIdentifier d.isDecimal g.minor
  patch : IsNumericIdentifier d.isDecimal g.patch
  prerelease : ∀ cs ∈ g.prerelease, IsDotSeparated IsIdentifier cs
  build : ∀ cs ∈ g.build, IsDotSeparated IsIdentifier cs

theorem readNumber_eq_some (h : readNumber d cs = some (digits, rest)) :
    cs = digits ++ rest ∧ IsNumericIdentifier d.isDecimal digits := by
  cases cs with
  | nil => cases h
  | cons c cs =>
      rw [readNumber] at h
      split at h
      · next hzero =>
          obtain ⟨rfl, rfl⟩ := Prod.mk.inj (Option.some.inj h)
          exact ⟨by rw [hzero]; rfl, .inl rfl⟩
      · next hzero =>
          split at h
          · next hdigit =>
              obtain ⟨rfl, rfl⟩ := Prod.mk.inj (Option.some.inj h)
              exact ⟨by rw [List.cons_append, List.takeWhile_append_dropWhile],
                .inr ⟨c, _, rfl, hdigit, hzero, fun e he => List.mem_takeWhile_imp he⟩⟩
          · cases h

theorem readNumber_append (h : IsNumericIdentifier d.isDecimal digits)
    (hrest : ∀ c, rest.head? = some c → d.isDecimal c = false) :
    readNumber d (digits ++ rest) = some (digits, rest) := by
  rcases h with rfl | ⟨c, tail, rfl, hdigit, hzero, htail⟩
  · rfl
  · obtain ⟨htake, hdrop⟩ := takeWhile_append_eq htail hrest
    rw [List.cons_append, readNumber, if_neg hzero, if_pos hdigit, htake, hdrop]

theorem readDot_eq_some : readDot cs = some rest ↔ cs = '.' :: rest := by
  constructor
  · intro h
    unfold readDot at h
    split at h
    · obtain rfl := Option.some.inj h
      rfl
    · cases h
  · rintro rfl
    rfl

/-- A run of identifier characters and dots, none of whose identifiers is empty. -/
theorem isDotSeparated_iff : IsDotSeparated IsIdentifier cs ↔
    (∀ c ∈ cs, isRunChar c = true) ∧
      ((cs.splitOn '.').all fun identifier => !identifier.isEmpty) = true := by
  have hchars : (∀ identifier ∈ cs.splitOn '.', ∀ c ∈ identifier, isIdentifierChar c = true) ↔
      ∀ c ∈ cs, isRunChar c = true := by
    constructor
    · intro h c hc
      by_cases hdot : c = '.'
      · simp [isRunChar, hdot]
      · obtain ⟨identifier, hmem, hc⟩ := Text.exists_mem_splitOn_iff.mpr ⟨hc, hdot⟩
        simp [isRunChar, h identifier hmem c hc]
    · intro h identifier hmem c hc
      obtain ⟨hcs, hdot⟩ := Text.exists_mem_splitOn_iff.mp ⟨identifier, hmem, hc⟩
      simpa [isRunChar, hdot] using h c hcs
  rw [← hchars, and_comm, IsDotSeparated]
  simp only [IsIdentifier, List.all_eq_true, Bool.not_eq_true', List.isEmpty_eq_false_iff,
    forall_and]

theorem readIdentifiers_eq_some {mark : Char} {group : Option (List Char)}
    (h : readIdentifiers mark cs = some (group, rest)) :
    cs = marked mark group ++ rest ∧ ∀ run ∈ group, IsDotSeparated IsIdentifier run := by
  cases cs with
  | nil =>
      obtain ⟨rfl, rfl⟩ := Prod.mk.inj (Option.some.inj h)
      exact ⟨rfl, by simp⟩
  | cons c cs =>
      rw [readIdentifiers] at h
      split at h
      · next hmark =>
          split at h
          · next hall =>
              obtain ⟨rfl, rfl⟩ := Prod.mk.inj (Option.some.inj h)
              refine ⟨by rw [hmark, marked, List.cons_append, List.takeWhile_append_dropWhile], ?_⟩
              intro run hrun
              obtain rfl := Option.mem_some.mp hrun
              exact isDotSeparated_iff.mpr ⟨fun e he => List.mem_takeWhile_imp he, hall⟩
          · cases h
      · obtain ⟨rfl, rfl⟩ := Prod.mk.inj (Option.some.inj h)
        exact ⟨rfl, by simp⟩

theorem readIdentifiers_append {mark : Char} {group : Option (List Char)}
    (hgroup : ∀ run ∈ group, IsDotSeparated IsIdentifier run)
    (hrest : ∀ c, rest.head? = some c → c ≠ mark ∧ isRunChar c = false) :
    readIdentifiers mark (marked mark group ++ rest) = some (group, rest) := by
  cases group with
  | none =>
      cases rest with
      | nil => rfl
      | cons c rest => rw [marked, List.nil_append, readIdentifiers, if_neg (hrest c rfl).1]
  | some run =>
      obtain ⟨hrun, hall⟩ := isDotSeparated_iff.mp (hgroup run rfl)
      obtain ⟨htake, hdrop⟩ := takeWhile_append_eq hrun fun c hc => (hrest c hc).2
      simp only [marked, List.cons_append, readIdentifiers, if_pos, htake, hdrop, hall]

theorem head?_marked {mark c : Char} {group : Option (List Char)}
    (h : (marked mark group).head? = some c) : c = mark := by
  cases group with
  | none => cases h
  | some run => exact (Option.some.inj h).symm

/-- What follows the numbers of a version. -/
theorem head?_suffix {prerelease build : Option (List Char)}
    (h : (marked '-' prerelease ++ marked '+' build).head? = some c) : c = '-' ∨ c = '+' := by
  cases prerelease with
  | none => exact .inr (head?_marked h)
  | some run => exact .inl (Option.some.inj h).symm

theorem not_isDecimal (h : c ∈ ['.', '-', '+']) : d.isDecimal c = false := by
  have hascii : ∀ c ∈ ['.', '-', '+'], c.toNat < 128 ∧ c.isDigit = false := by decide
  rw [DecimalDigits.isDecimal_ascii (hascii c h).1, (hascii c h).2]

variable {value : String}

/-- The pattern and its groups: the groups are those of the text. -/
theorem semverRe_eq_some_iff :
    semverRe d value = some g ↔ g.Matches d ∧ g.text = value.toList := by
  constructor
  · intro h
    simp only [semverRe, Option.bind_eq_bind, Option.bind_eq_some_iff, Prod.exists,
      Option.ite_none_right_eq_some, Option.some.injEq] at h
    obtain ⟨major, cs₁, hreadMajor, cs₂, hdot₁, minor, cs₃, hreadMinor, cs₄, hdot₂, patch, cs₅,
      hreadPatch, prerelease, cs₆, hreadPrerelease, build, cs₇, hreadBuild, rfl, rfl⟩ := h
    obtain ⟨htext, hmajor⟩ := readNumber_eq_some hreadMajor
    obtain rfl := readDot_eq_some.mp hdot₁
    obtain ⟨rfl, hminor⟩ := readNumber_eq_some hreadMinor
    obtain rfl := readDot_eq_some.mp hdot₂
    obtain ⟨rfl, hpatch⟩ := readNumber_eq_some hreadPatch
    obtain ⟨rfl, hprerelease⟩ := readIdentifiers_eq_some hreadPrerelease
    obtain ⟨rfl, hbuild⟩ := readIdentifiers_eq_some hreadBuild
    refine ⟨⟨hmajor, hminor, hpatch, hprerelease, hbuild⟩, ?_⟩
    rw [htext, SemverGroups.text, List.append_nil]
  · rintro ⟨h, htext⟩
    have hdot : ∀ (cs : List Char) (c : Char), ('.' :: cs).head? = some c →
        d.isDecimal c = false := by
      rintro cs c ⟨⟩
      exact not_isDecimal (by decide)
    have hmajor := readNumber_append h.major
      (hdot (g.minor ++ '.' :: (g.patch ++ (marked '-' g.prerelease ++ marked '+' g.build))))
    have hminor := readNumber_append h.minor
      (hdot (g.patch ++ (marked '-' g.prerelease ++ marked '+' g.build)))
    have hpatch : readNumber d (g.patch ++ (marked '-' g.prerelease ++ marked '+' g.build)) =
        some (g.patch, marked '-' g.prerelease ++ marked '+' g.build) := by
      refine readNumber_append h.patch fun c hc => not_isDecimal ?_
      rcases head?_suffix hc with rfl | rfl <;> decide
    have hprerelease : readIdentifiers '-' (marked '-' g.prerelease ++ marked '+' g.build) =
        some (g.prerelease, marked '+' g.build) := by
      refine readIdentifiers_append h.prerelease fun c hc => ?_
      obtain rfl := head?_marked hc
      decide
    have hbuild : readIdentifiers '+' (marked '+' g.build ++ []) = some (g.build, []) :=
      readIdentifiers_append h.build (by simp)
    rw [List.append_nil] at hbuild
    simp only [semverRe, ← htext, SemverGroups.text, hmajor, readDot, hminor, hpatch, hprerelease,
      hbuild, Option.bind_eq_bind, Option.bind_some, if_pos]

/-! ### What is accepted -/

/-- The numbers of a version, those of its prerelease among them. -/
def SemverGroups.numbers (g : SemverGroups) : List (List Char) :=
  [g.major, g.minor, g.patch] ++
    (g.prerelease.toList.flatMap (·.splitOn '.')).filter (·.all Char.isDigit)

/-- Each number is short enough for `int`. -/
def SemverGroups.Short (g : SemverGroups) : Prop :=
  ∀ digits ∈ g.numbers, digits.length ≤ DecimalDigits.maxStrDigits

theorem isIdentifierChar_of_isDigit (h : c.isDigit = true) :
    isIdentifierChar c = true := by
  simp [isIdentifierChar, Char.isAlphanum, h]

theorem IsNumericIdentifier.all_isDigit (h : IsNumericIdentifier Char.isDigit cs) :
    ∀ c ∈ cs, c.isDigit = true := by
  rcases h with rfl | ⟨c, rest, rfl, hc, -, hrest⟩
  · decide
  · simpa [hc] using hrest

/-- An identifier of digits has no leading zero in the grammar. -/
theorem isPrereleaseIdentifier_iff : IsPrereleaseIdentifier cs ↔ IsIdentifier cs ∧
    (cs.all Char.isDigit = true → ¬ (cs.head? = some '0' ∧ cs ≠ ['0'])) := by
  rw [List.all_eq_true]
  constructor
  · rintro (⟨hchars, c, hc, hletter⟩ | hnumeric)
    · refine ⟨⟨List.ne_nil_of_mem hc, hchars⟩, fun hall => ?_⟩
      rw [hall c hc] at hletter
      cases hletter
    · refine ⟨⟨?_, fun c hc => isIdentifierChar_of_isDigit (hnumeric.all_isDigit c hc)⟩, ?_⟩
      · rcases hnumeric with rfl | ⟨c, rest, rfl, -⟩ <;> simp
      · rintro - ⟨hzero, hlong⟩
        rcases hnumeric with rfl | ⟨c, rest, rfl, -, hne, -⟩
        · exact hlong rfl
        · exact hne (Option.some.inj hzero)
  · rintro ⟨⟨hne, hchars⟩, hzero⟩
    by_cases hall : ∀ c ∈ cs, c.isDigit = true
    · right
      obtain ⟨c, rest, rfl⟩ := List.exists_cons_of_ne_nil hne
      by_cases hc : c = '0'
      · subst hc
        exact .inl (not_not.mp fun hlong => hzero hall ⟨rfl, hlong⟩)
      · exact .inr ⟨c, rest, rfl, hall c List.mem_cons_self, hc,
          fun e he => hall e (List.mem_cons_of_mem c he)⟩
    · left
      push Not at hall
      obtain ⟨c, hc, hletter⟩ := hall
      exact ⟨hchars, c, hc, by simpa using hletter⟩

theorem isBuildIdentifier_iff : IsBuildIdentifier cs ↔ IsIdentifier cs := by
  constructor
  · rintro (⟨hchars, c, hc, -⟩ | ⟨hne, hall⟩)
    · exact ⟨List.ne_nil_of_mem hc, hchars⟩
    · exact ⟨hne, fun c hc => isIdentifierChar_of_isDigit (hall c hc)⟩
  · rintro ⟨hne, hchars⟩
    by_cases hall : ∀ c ∈ cs, c.isDigit = true
    · exact .inr ⟨hne, hall⟩
    · push Not at hall
      obtain ⟨c, hc, hletter⟩ := hall
      exact .inl ⟨hchars, c, hc, by simpa using hletter⟩

/-- The prerelease of a match, once each of its identifiers passes the check for leading zeros. -/
theorem isVersion_iff : g.IsVersion d.isDecimal ↔ g.Matches d ∧
    ∀ run ∈ g.prerelease, ∀ identifier ∈ run.splitOn '.', identifier.all Char.isDigit = true →
      ¬ (identifier.head? = some '0' ∧ identifier ≠ ['0']) := by
  constructor
  · rintro ⟨hmajor, hminor, hpatch, hprerelease, hbuild⟩
    refine ⟨⟨hmajor, hminor, hpatch, fun run hrun identifier hmem => ?_,
      fun run hrun identifier hmem => ?_⟩, fun run hrun identifier hmem => ?_⟩
    · exact (isPrereleaseIdentifier_iff.mp (hprerelease run hrun identifier hmem)).1
    · exact isBuildIdentifier_iff.mp (hbuild run hrun identifier hmem)
    · exact (isPrereleaseIdentifier_iff.mp (hprerelease run hrun identifier hmem)).2
  · rintro ⟨⟨hmajor, hminor, hpatch, hprerelease, hbuild⟩, hzero⟩
    exact ⟨hmajor, hminor, hpatch, fun run hrun identifier hmem =>
      isPrereleaseIdentifier_iff.mpr
        ⟨hprerelease run hrun identifier hmem, hzero run hrun identifier hmem⟩,
      fun run hrun identifier hmem =>
        isBuildIdentifier_iff.mpr (hbuild run hrun identifier hmem)⟩

/-- A token is read from an identifier without a leading zero that is short if it is a number. -/
theorem exists_prereleaseToken_iff (h : IsIdentifier cs) :
    (∃ token, prereleaseToken d value cs = .ok token) ↔ (cs.all Char.isDigit = true →
      ¬ (cs.head? = some '0' ∧ cs ≠ ['0']) ∧ cs.length ≤ DecimalDigits.maxStrDigits) := by
  rw [prereleaseToken, ← d.exists_int_iff]
  have hfull : cs.isEmpty = false := List.isEmpty_eq_false_iff.mpr h.1
  cases hall : cs.all Char.isDigit with
  | false => simp [hfull, pure_eq_ok]
  | true =>
      rw [if_pos (by simp [hfull])]
      simp only [bind_eq_ok, raiseIf_eq_ok, pure_eq_ok]
      constructor
      · rintro ⟨token, _, hzero, n, hn, -⟩ -
        exact ⟨hzero, n, hn⟩
      · intro h
        obtain ⟨hzero, n, hn⟩ := h trivial
        exact ⟨_, (), hzero, n, hn, rfl⟩

/-- The loop over the identifiers of a prerelease. -/
theorem exists_mapM_iff {ids : List (List Char)}
    (h : ∀ identifier ∈ ids, IsIdentifier identifier) :
    (∃ tokens, ids.mapM (prereleaseToken d value) = .ok tokens) ↔
      ∀ identifier ∈ ids, identifier.all Char.isDigit = true →
        ¬ (identifier.head? = some '0' ∧ identifier ≠ ['0']) ∧
          identifier.length ≤ DecimalDigits.maxStrDigits := by
  induction ids with
  | nil => simp [pure_eq_ok]
  | cons identifier ids ih =>
      have hfirst : (∃ token, prereleaseToken d value identifier = .ok token) ↔ _ :=
        exists_prereleaseToken_iff (h identifier List.mem_cons_self)
      have hrest := ih fun other hother => h other (List.mem_cons_of_mem identifier hother)
      rw [List.forall_mem_cons, ← hfirst, ← hrest]
      constructor
      · rintro ⟨tokens, htokens⟩
        obtain ⟨token, tokens, htoken, hothers, rfl⟩ := mapM_cons_eq_ok.mp htokens
        exact ⟨⟨token, htoken⟩, tokens, hothers⟩
      · rintro ⟨⟨token, htoken⟩, tokens, htokens⟩
        exact ⟨_, mapM_cons_eq_ok.mpr ⟨token, tokens, htoken, htokens, rfl⟩⟩

theorem short_iff : g.Short ↔ g.major.length ≤ DecimalDigits.maxStrDigits ∧
    g.minor.length ≤ DecimalDigits.maxStrDigits ∧ g.patch.length ≤ DecimalDigits.maxStrDigits ∧
    ∀ run ∈ g.prerelease, ∀ identifier ∈ run.splitOn '.', identifier.all Char.isDigit = true →
      identifier.length ≤ DecimalDigits.maxStrDigits := by
  simp only [SemverGroups.Short, SemverGroups.numbers, List.mem_append, List.mem_cons,
    List.not_mem_nil, or_false, List.mem_filter, List.mem_flatMap, Option.mem_toList, or_imp,
    forall_and, forall_eq, and_assoc, forall_exists_index, and_imp]
  refine and_congr_right' (and_congr_right' (and_congr_right' ?_))
  exact ⟨fun h run hrun identifier hmem => h identifier run hrun hmem,
    fun h identifier run hrun hmem => h run hrun identifier hmem⟩

/-- What is read of a match whose prerelease can be read. -/
theorem exists_parse_iff (h : semverRe d value = some g) :
    (∃ version, parseSemver d value = .ok version) ↔
      (∀ run ∈ g.prerelease, ∃ tokens,
        (run.splitOn '.').mapM (prereleaseToken d value) = .ok tokens) ∧
      g.major.length ≤ DecimalDigits.maxStrDigits ∧
      g.minor.length ≤ DecimalDigits.maxStrDigits ∧
      g.patch.length ≤ DecimalDigits.maxStrDigits := by
  simp only [← d.exists_int_iff, parseSemver, h]
  cases g.prerelease with
  | none =>
      simp only [bind_eq_ok, pure_eq_ok, Option.not_mem_none, false_implies, implies_true,
        true_and]
      constructor
      · rintro ⟨version, tokens, -, major, hmajor, minor, hminor, patch, hpatch, -⟩
        exact ⟨⟨major, hmajor⟩, ⟨minor, hminor⟩, patch, hpatch⟩
      · rintro ⟨⟨major, hmajor⟩, ⟨minor, hminor⟩, patch, hpatch⟩
        exact ⟨_, [], rfl, major, hmajor, minor, hminor, patch, hpatch, rfl⟩
  | some run =>
      simp only [bind_eq_ok, pure_eq_ok, Option.mem_some, forall_eq']
      constructor
      · rintro ⟨version, tokens, htokens, major, hmajor, minor, hminor, patch, hpatch, -⟩
        exact ⟨⟨tokens, htokens⟩, ⟨major, hmajor⟩, ⟨minor, hminor⟩, patch, hpatch⟩
      · rintro ⟨⟨tokens, htokens⟩, ⟨major, hmajor⟩, ⟨minor, hminor⟩, patch, hpatch⟩
        exact ⟨_, tokens, htokens, major, hmajor, minor, hminor, patch, hpatch, rfl⟩

/-- A text is read if and only if it is a version over all decimal digits and its numbers are short
enough. -/
theorem exists_parseSemver_iff :
    (∃ version, parseSemver d value = .ok version) ↔
      ∃ g : SemverGroups, g.IsVersion d.isDecimal ∧ g.text = value.toList ∧ g.Short := by
  constructor
  · intro h
    cases hre : semverRe d value with
    | none =>
        obtain ⟨version, hversion⟩ := h
        simp only [parseSemver, hre] at hversion
        cases hversion
    | some g =>
        obtain ⟨hmatch, htext⟩ := semverRe_eq_some_iff.mp hre
        obtain ⟨htokens, hmajor, hminor, hpatch⟩ := (exists_parse_iff hre).mp h
        have hids : ∀ run ∈ g.prerelease, ∀ identifier ∈ run.splitOn '.', _ := fun run hrun =>
          (exists_mapM_iff (hmatch.prerelease run hrun)).mp (htokens run hrun)
        exact ⟨g, isVersion_iff.mpr ⟨hmatch, fun run hrun identifier hmem hall =>
            (hids run hrun identifier hmem hall).1⟩, htext,
          short_iff.mpr ⟨hmajor, hminor, hpatch, fun run hrun identifier hmem hall =>
            (hids run hrun identifier hmem hall).2⟩⟩
  · rintro ⟨g, hversion, htext, hshort⟩
    obtain ⟨hmatch, hzero⟩ := isVersion_iff.mp hversion
    obtain ⟨hmajor, hminor, hpatch, hids⟩ := short_iff.mp hshort
    rw [exists_parse_iff (semverRe_eq_some_iff.mpr ⟨hmatch, htext⟩)]
    refine ⟨fun run hrun => ?_, hmajor, hminor, hpatch⟩
    exact (exists_mapM_iff (hmatch.prerelease run hrun)).mpr fun identifier hmem hall =>
      ⟨hzero run hrun identifier hmem hall, hids run hrun identifier hmem hall⟩

/-! ### ASCII -/

def IsAscii (cs : List Char) : Prop := ∀ c ∈ cs, c.toNat < 128

theorem isAscii_append {ds : List Char} : IsAscii (cs ++ ds) ↔ IsAscii cs ∧ IsAscii ds :=
  List.forall_mem_append

theorem isAscii_cons : IsAscii (c :: cs) ↔ c.toNat < 128 ∧ IsAscii cs :=
  List.forall_mem_cons

theorem isAscii_of_isAlphanum {c : Char} (h : c.isAlphanum = true) : c.toNat < 128 := by
  simp only [Char.isAlphanum, Char.isAlpha, Char.isUpper, Char.isLower, Char.isDigit,
    Bool.or_eq_true, Bool.and_eq_true, decide_eq_true_eq, ge_iff_le, UInt32.le_iff_toNat_le] at h
  change ((65 ≤ c.toNat ∧ c.toNat ≤ 90) ∨ (97 ≤ c.toNat ∧ c.toNat ≤ 122)) ∨
    (48 ≤ c.toNat ∧ c.toNat ≤ 57) at h
  omega

theorem isAscii_of_isDotSeparated (h : IsDotSeparated IsIdentifier cs) : IsAscii cs := by
  intro c hc
  have hrun := (isDotSeparated_iff.mp h).1 c hc
  simp only [isRunChar, isIdentifierChar, Bool.or_eq_true, beq_iff_eq] at hrun
  rcases hrun with (halnum | rfl) | rfl
  · exact isAscii_of_isAlphanum halnum
  · decide
  · decide

theorem isAscii_marked {mark : Char} {group : Option (List Char)} (hmark : mark.toNat < 128)
    (h : ∀ run ∈ group, IsDotSeparated IsIdentifier run) : IsAscii (marked mark group) := by
  cases group with
  | none => simp [marked, IsAscii]
  | some run => exact isAscii_cons.mpr ⟨hmark, isAscii_of_isDotSeparated (h run rfl)⟩

theorem isNumericIdentifier_ascii : IsNumericIdentifier Char.isDigit cs ↔
    IsNumericIdentifier d.isDecimal cs ∧ IsAscii cs := by
  constructor
  · intro h
    refine ⟨?_, fun c hc => isAscii_of_isAlphanum ?_⟩
    · rcases h with rfl | ⟨c, rest, rfl, hc, hne, hrest⟩
      · exact .inl rfl
      · exact .inr ⟨c, rest, rfl, hc, hne, fun e he =>
          DecimalDigits.isDecimal_of_isDigit (hrest e he)⟩
    · simp [Char.isAlphanum, h.all_isDigit c hc]
  · rintro ⟨rfl | ⟨c, rest, rfl, hc, hne, hrest⟩, hascii⟩
    · exact .inl rfl
    · refine .inr ⟨c, rest, rfl, hc, hne, fun e he => ?_⟩
      rw [← DecimalDigits.isDecimal_ascii (hascii e (List.mem_cons_of_mem c he))]
      exact hrest e he

theorem isAscii_text (h : g.Matches d) :
    IsAscii g.text ↔ IsAscii g.major ∧ IsAscii g.minor ∧ IsAscii g.patch := by
  have hprerelease := isAscii_marked (by decide : '-'.toNat < 128) h.prerelease
  have hbuild := isAscii_marked (by decide : '+'.toNat < 128) h.build
  have hdot : '.'.toNat < 128 := by decide
  simp only [SemverGroups.text, isAscii_append, isAscii_cons, hprerelease, hbuild, hdot, and_true,
    true_and]

/-- The grammar over ASCII digits. -/
theorem isVersion_ascii_iff :
    g.IsVersion Char.isDigit ↔ g.IsVersion d.isDecimal ∧ IsAscii g.text := by
  constructor
  · intro h
    have hnumber : ∀ {cs : List Char}, IsNumericIdentifier Char.isDigit cs →
        IsNumericIdentifier d.isDecimal cs ∧ IsAscii cs := isNumericIdentifier_ascii.mp
    have hmajor := hnumber h.major
    have hminor := hnumber h.minor
    have hpatch := hnumber h.patch
    have hversion : g.IsVersion d.isDecimal :=
      ⟨hmajor.1, hminor.1, hpatch.1, h.prerelease, h.build⟩
    exact ⟨hversion, (isAscii_text (isVersion_iff.mp hversion).1).mpr
      ⟨hmajor.2, hminor.2, hpatch.2⟩⟩
  · rintro ⟨h, hascii⟩
    obtain ⟨hmajor, hminor, hpatch⟩ := (isAscii_text (isVersion_iff.mp h).1).mp hascii
    exact ⟨isNumericIdentifier_ascii.mpr ⟨h.major, hmajor⟩,
      isNumericIdentifier_ascii.mpr ⟨h.minor, hminor⟩,
      isNumericIdentifier_ascii.mpr ⟨h.patch, hpatch⟩, h.prerelease, h.build⟩

/-- A version of the grammar is a version over all decimal digits of ASCII characters. -/
theorem isSemVer_iff (d : DecimalDigits) : IsSemVer value ↔
    ∃ g : SemverGroups, g.IsVersion d.isDecimal ∧ g.text = value.toList ∧
      IsAscii value.toList := by
  constructor
  · rintro ⟨g, hversion, htext⟩
    obtain ⟨hversion, hascii⟩ := isVersion_ascii_iff.mp hversion
    rw [htext] at hascii
    exact ⟨g, hversion, htext, hascii⟩
  · rintro ⟨g, hversion, htext, hascii⟩
    rw [← htext] at hascii
    exact ⟨g, isVersion_ascii_iff.mpr ⟨hversion, hascii⟩, htext⟩

/-- `parse_semver` accepts a text if and only if it is a version of the grammar, exactly unless the
text is a version over all decimal digits that either is not of ASCII or has a number too long for
`int`, but not both. -/
theorem parseSemver_isSemVer_iff (d : DecimalDigits) (value : String) :
    ((∃ version, parseSemver d value = .ok version) ↔ IsSemVer value) ↔
      ∀ g : SemverGroups, g.IsVersion d.isDecimal → g.text = value.toList →
        (g.Short ↔ IsAscii value.toList) := by
  -- the groups are determined by the text
  have hunique : ∀ g g' : SemverGroups, g.IsVersion d.isDecimal → g'.IsVersion d.isDecimal →
      g.text = value.toList → g'.text = value.toList → g = g' := by
    intro g g' h h' htext htext'
    have hre := semverRe_eq_some_iff.mpr ⟨(isVersion_iff.mp h).1, htext⟩
    have hre' := semverRe_eq_some_iff.mpr ⟨(isVersion_iff.mp h').1, htext'⟩
    exact Option.some.inj (hre.symm.trans hre')
  rw [exists_parseSemver_iff, isSemVer_iff d]
  constructor
  · intro h g hversion htext
    constructor
    · intro hshort
      obtain ⟨_, -, -, hascii⟩ := h.mp ⟨g, hversion, htext, hshort⟩
      exact hascii
    · intro hascii
      obtain ⟨g', hversion', htext', hshort⟩ := h.mpr ⟨g, hversion, htext, hascii⟩
      rwa [hunique g g' hversion hversion' htext htext']
  · intro h
    constructor
    · rintro ⟨g, hversion, htext, hshort⟩
      exact ⟨g, hversion, htext, (h g hversion htext).mp hshort⟩
    · rintro ⟨g, hversion, htext, hascii⟩
      exact ⟨g, hversion, htext, (h g hversion htext).mpr hascii⟩

/-- A digit outside ASCII is taken for one of a number. -/
theorem not_parseSemver_isSemVer :
    ¬ ((∃ version, parseSemver .unicode "1\u0660.0.0" = .ok version) ↔
      IsSemVer "1\u0660.0.0") := by
  intro h
  have hread : parseSemver .unicode "1\u0660.0.0" = .ok ⟨10, 0, 0, []⟩ := by decide
  obtain ⟨g, -, -, hascii⟩ := (isSemVer_iff .unicode).mp (h.mp ⟨_, hread⟩)
  exact absurd (hascii '\u0660' (by decide)) (by decide)

end WaitLocalAgent.UpdateChannel
