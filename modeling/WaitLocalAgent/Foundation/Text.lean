import Mathlib

/-! # Python text

The string methods the program leans on, over code points. -/

namespace WaitLocalAgent.Foundation.Text

/-- What every character of a list is to meet is checked along the list. -/
instance (priority := high) decidableForallMem (cs : List Char) (p : Char → Prop)
    [DecidablePred p] : Decidable (∀ c ∈ cs, p c) :=
  List.decidableBAll p cs

/-- The code points for which `str.isspace` holds. -/
def isSpace (c : Char) : Bool :=
  let n := c.toNat
  (9 ≤ n && n ≤ 13) || (28 ≤ n && n ≤ 32) || n == 133 || n == 160 || n == 5760 ||
    (8192 ≤ n && n ≤ 8202) || n == 8232 || n == 8233 || n == 8239 || n == 8287 || n == 12288

def trimEnds (p : Char → Bool) (cs : List Char) : List Char := (cs.dropWhile p).rdropWhile p

def strip (s : String) : String := String.ofList (trimEnds isSpace s.toList)

/-- The ASCII letters of `str.lower`, and the Kelvin sign, the one other character whose lower
case is an ASCII letter: exact whenever the result is compared with an ASCII word. -/
def lowerChar (c : Char) : Char := if c.toNat = 8490 then 'k' else c.toLower

def lower (s : String) : String := String.ofList (s.toList.map lowerChar)

def stripOrNone (value : Option String) : Option String :=
  value.bind fun v => if strip v = "" then none else some (strip v)

/-- `text.split()`, over characters. -/
def words (cs : List Char) : List (List Char) :=
  (cs.splitOnP isSpace).filter fun word => !word.isEmpty

/-- The blocks of `text.split(separator + separator)`. -/
def blocks (separator : Char) : List Char → List (List Char)
  | [] => [[]]
  | [c] => [[c]]
  | c :: d :: cs =>
      if c = separator ∧ d = separator then [] :: blocks separator cs
      else (blocks separator (d :: cs)).modifyHead (c :: ·)

def foldAscii (c : Char) : Char :=
  if 65 ≤ c.toNat ∧ c.toNat ≤ 90 then Char.ofNat (c.toNat + 32) else c

def likeChars : List Char → List Char → Bool
  | [], text => text.isEmpty
  | '%' :: pattern, text => text.tails.any (likeChars pattern)
  | '_' :: _, [] => false
  | '_' :: pattern, _ :: text => likeChars pattern text
  | _ :: _, [] => false
  | c :: pattern, d :: text => foldAscii c == foldAscii d && likeChars pattern text

def like (text pattern : String) : Bool := likeChars pattern.toList text.toList

theorem trimEnds_trimEnds (p : Char → Bool) (cs : List Char) :
    trimEnds p (trimEnds p cs) = trimEnds p cs := by
  have hhead : (trimEnds p cs).dropWhile p = trimEnds p cs := by
    rw [List.dropWhile_eq_self_iff]
    intro hl
    have hpre : trimEnds p cs <+: cs.dropWhile p := List.rdropWhile_prefix p _
    have hlen := hpre.length_le
    rw [hpre.getElem hl]
    exact List.dropWhile_get_zero_not p cs (by omega)
  rw [trimEnds, hhead]
  exact List.rdropWhile_idempotent p _

@[simp] theorem strip_strip (s : String) : strip (strip s) = strip s := by
  simp [strip, trimEnds_trimEnds]

theorem strip_proper {s : String} (h : strip s ≠ "") : strip (strip s) = strip s ∧ strip s ≠ "" :=
  ⟨strip_strip s, h⟩

theorem strip_of_not_isSpace {s : String} (h : ∀ c ∈ s.toList, isSpace c = false) :
    strip s = s := by
  have hfirst : s.toList.dropWhile isSpace = s.toList :=
    List.dropWhile_eq_self_iff.mpr fun hl => by simpa using h _ (List.getElem_mem hl)
  have hlast : s.toList.rdropWhile isSpace = s.toList :=
    List.rdropWhile_eq_self_iff.mpr fun hl => by simpa using h _ (List.getLast_mem hl)
  rw [strip, trimEnds, hfirst, hlast, String.ofList_toList]

theorem isSpace_of_isAlphanum {c : Char} (h : c.isAlphanum = true) : isSpace c = false := by
  simp only [Char.isAlphanum, Char.isAlpha, Char.isUpper, Char.isLower, Char.isDigit,
    Bool.or_eq_true, Bool.and_eq_true, decide_eq_true_eq, ge_iff_le, UInt32.le_iff_toNat_le] at h
  change ((65 ≤ c.toNat ∧ c.toNat ≤ 90) ∨ (97 ≤ c.toNat ∧ c.toNat ≤ 122)) ∨
    (48 ≤ c.toNat ∧ c.toNat ≤ 57) at h
  simp only [isSpace, Bool.or_eq_false_iff, Bool.and_eq_false_iff, decide_eq_false_iff_not,
    beq_eq_false_iff_ne]
  omega

example : like "9F86d081" "9f86%" = true := by decide

example : strip " \t acme corp\n" = "acme corp" := by decide

end WaitLocalAgent.Foundation.Text
