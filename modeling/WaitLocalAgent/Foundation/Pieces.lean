import Mathlib

/-! # Matches in a text

`pattern.finditer` and `pattern.sub` with a function, for a pattern given by what it reads at a
position and how much it consumes. -/

namespace WaitLocalAgent.Foundation

/-- A run of characters, up to the first one that does not belong to it. -/
theorem takeWhile_append_eq {p : Char → Bool} {cs rest : List Char} (hcs : ∀ c ∈ cs, p c = true)
    (hrest : ∀ c, rest.head? = some c → p c = false) :
    (cs ++ rest).takeWhile p = cs ∧ (cs ++ rest).dropWhile p = rest := by
  have hstop : rest.takeWhile p = [] ∧ rest.dropWhile p = rest := by
    cases rest with
    | nil => exact ⟨rfl, rfl⟩
    | cons c rest => simp [hrest c rfl]
  rw [List.takeWhile_append_of_pos hcs, List.dropWhile_append_of_pos hcs, hstop.1, hstop.2]
  exact ⟨List.append_nil cs, rfl⟩

variable {α : Type*}

/-- A character between the matches, or a match with its text. -/
inductive Piece (α : Type*) where
  | kept (c : Char)
  | found (a : α) (raw : List Char)

namespace Piece

def match? : Piece α → Option (α × List Char)
  | kept _ => none
  | found a raw => some (a, raw)

end Piece

variable (p : List Char → Option (α × ℕ))

/-- The pieces of a text, from a position where `skip` more characters belong to a match. -/
def piecesFrom : ℕ → List Char → List (Piece α)
  | _, [] => []
  | skip + 1, _ :: cs => piecesFrom skip cs
  | 0, c :: cs =>
      match p (c :: cs) with
      | none => .kept c :: piecesFrom 0 cs
      | some (a, n) => .found a ((c :: cs).take n) :: piecesFrom (n - 1) cs

def pieces (cs : List Char) : List (Piece α) := piecesFrom p 0 cs

def matchesIn (cs : List Char) : List (α × List Char) := (pieces p cs).filterMap Piece.match?

/-- What stands for a piece once its match is replaced. -/
def Piece.replaced (f : α → List Char → List Char) : Piece α → List Char
  | kept c => [c]
  | found a raw => f a raw

def substitute (f : α → List Char → List Char) (cs : List Char) : List Char :=
  (pieces p cs).flatMap (Piece.replaced f)

variable {p}

/-- A pattern that reads no empty text, whatever text follows. -/
structure Reads (p : List Char → Option (α × ℕ)) : Prop where
  nil : p [] = none
  pos : ∀ {cs a n}, p cs = some (a, n) → 0 < n
  again : ∀ {cs a n}, p cs = some (a, n) → ∀ more, p (cs.take n ++ more) = some (a, n)

/-- The texts before, between and after the matches. -/
def gaps : List (Piece α) → List (List Char)
  | [] => [[]]
  | .found _ _ :: ps => [] :: gaps ps
  | .kept c :: ps =>
      match gaps ps with
      | [] => [[c]]
      | gap :: rest => (c :: gap) :: rest

/-- No match starts in the text, whatever follows it. -/
def Inert (p : List Char → Option (α × ℕ)) (cs : List Char) : Prop :=
  ∀ c rest, (c :: rest) <:+ cs → ∀ more, p (c :: rest ++ more) = none

theorem Inert.nil : Inert p [] := by
  intro c rest h
  simp at h

theorem Inert.cons {c : Char} {cs : List Char} (hhead : ∀ more, p (c :: cs ++ more) = none)
    (htail : Inert p cs) : Inert p (c :: cs) := by
  intro d rest hsuffix
  rcases List.suffix_cons_iff.mp hsuffix with heq | hsuffix
  · rw [heq]
    exact hhead
  · exact htail d rest hsuffix

theorem Inert.append {cs ds : List Char} (hcs : Inert p cs) (hds : Inert p ds) :
    Inert p (cs ++ ds) := by
  induction cs with
  | nil => exact hds
  | cons c cs ih =>
      refine .cons (fun more => ?_)
        (ih fun d rest h => hcs d rest (h.trans (List.suffix_cons c cs)))
      show p (c :: (cs ++ ds) ++ more) = none
      simpa using hcs c cs List.suffix_rfl (ds ++ more)

end WaitLocalAgent.Foundation
