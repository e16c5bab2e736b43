import WaitLocalAgent.Foundation.Text

/-! # Moments and their ISO texts

The `datetime` values that the program computes with, and the texts in which it stores them. -/

namespace WaitLocalAgent.Foundation

/-- `datetime.min` and `datetime.max` in UTC, in microseconds since the epoch. -/
def datetimeMin : ℤ := -62135596800000000

def datetimeMax : ℤ := 253402300799999999

abbrev Instant := { t : ℤ // datetimeMin ≤ t ∧ t ≤ datetimeMax }

instance (t u : Instant) : Decidable (t ≤ u) := inferInstanceAs (Decidable (t.val ≤ u.val))

instance (t u : Instant) : Decidable (t < u) := inferInstanceAs (Decidable (t.val < u.val))

/-- Half a unit goes to the even neighbour. -/
def roundHalfEven (q : ℚ) : ℤ :=
  let below := q.floor
  if q - below < 1 / 2 then below
  else if 1 / 2 < q - below then below + 1
  else if below % 2 = 0 then below
  else below + 1

/-- `now + timedelta(seconds=seconds)`; `none` is the overflow error. -/
def Instant.add? (now : Instant) (seconds : ℚ) : Option Instant :=
  let t := now.val + roundHalfEven (seconds * 1000000)
  if h : datetimeMin ≤ t ∧ t ≤ datetimeMax then some ⟨t, h⟩ else none

/-- `datetime.fromisoformat`, with UTC for a missing offset, and `datetime.isoformat`, whose texts
are neither blank nor padded. -/
structure Calendar where
  fromisoformat : String → Option Instant
  isoformat : Instant → { s : String // Text.strip s = s ∧ s ≠ "" }
  fromisoformat_isoformat : ∀ t, fromisoformat (isoformat t).val = some t

instance sixty_neZero : NeZero 60 := ⟨by decide⟩

/-- Full minutes after 2026-01-05T09:00:00+00:00. -/
def Instant.morning (minutes : Fin 60) : Instant :=
  ⟨1767603600000000 + 60000000 * minutes.val, by
    simp only [datetimeMin, datetimeMax]
    omega⟩

def morningTexts : List (Instant × String) :=
  [(.morning 0, "2026-01-05T09:00:00+00:00"), (.morning 1, "2026-01-05T09:01:00+00:00"),
    (.morning 5, "2026-01-05T09:05:00+00:00"), (.morning 10, "2026-01-05T09:10:00+00:00"),
    (.morning 15, "2026-01-05T09:15:00+00:00")]

/-- A text for every other moment. -/
def tally (t : Instant) : String :=
  String.ofList ('<' :: (List.replicate (t.val - datetimeMin).toNat '|' ++ ['>']))

def morningText (t : Instant) : String :=
  match morningTexts.find? fun entry => entry.1 = t with
  | some entry => entry.2
  | none => tally t

def readMorning (text : String) : Option Instant :=
  match morningTexts.find? fun entry => entry.2 = text with
  | some entry => some entry.1
  | none =>
      let t := datetimeMin + (text.toList.length - 2 : ℕ)
      if h : datetimeMin ≤ t ∧ t ≤ datetimeMax then some ⟨t, h⟩ else none

theorem strip_tally (t : Instant) : Text.strip (tally t) = tally t := by
  have hhead : ¬ Text.isSpace '<' = true := by decide
  have hlast : ¬ Text.isSpace '>' = true := by decide
  simp only [tally, Text.strip, Text.trimEnds, String.toList_ofList, List.dropWhile_cons]
  rw [if_neg hhead, ← List.cons_append, List.rdropWhile_concat_neg Text.isSpace _ _ hlast]

theorem morningTexts_read : ∀ entry ∈ morningTexts, readMorning entry.2 = some entry.1 ∧
    Text.strip entry.2 = entry.2 ∧ entry.2.toList.head? = some '2' := by decide

theorem readMorning_tally (t : Instant) : readMorning (tally t) = some t := by
  have hnone : morningTexts.find? (fun entry => entry.2 = tally t) = none := by
    rw [List.find?_eq_none]
    intro entry hentry heq
    have hhead := (morningTexts_read entry hentry).2.2
    rw [of_decide_eq_true heq] at hhead
    simp [tally] at hhead
  have hlength : datetimeMin + ((tally t).toList.length - 2 : ℕ) = t.val := by
    have := t.property.1
    simp only [tally, String.toList_ofList, List.length_cons, List.length_append,
      List.length_replicate, List.length_nil]
    omega
  simp only [readMorning, hnone, hlength]
  rw [dif_pos t.property]

theorem morningText_cases (t : Instant) :
    (∃ entry ∈ morningTexts, entry.1 = t ∧ morningText t = entry.2) ∨
      morningText t = tally t := by
  unfold morningText
  split
  · rename_i entry hfind
    exact .inl ⟨entry, List.mem_of_find?_eq_some hfind, by simpa using List.find?_some hfind, rfl⟩
  · exact .inr rfl

theorem readMorning_morningText (t : Instant) : readMorning (morningText t) = some t := by
  rcases morningText_cases t with ⟨entry, hentry, hmoment, htext⟩ | htext
  · rw [htext, ← hmoment]
    exact (morningTexts_read entry hentry).1
  · rw [htext]
    exact readMorning_tally t

theorem strip_morningText (t : Instant) :
    Text.strip (morningText t) = morningText t ∧ morningText t ≠ "" := by
  rcases morningText_cases t with ⟨entry, hentry, -, htext⟩ | htext
  · obtain ⟨-, hstrip, hhead⟩ := morningTexts_read entry hentry
    rw [htext]
    refine ⟨hstrip, ?_⟩
    intro hempty
    simp [hempty] at hhead
  · rw [htext]
    exact ⟨strip_tally t, by simp [tally]⟩

/-- A calendar that gives the moments of `morningTexts` their ISO texts. -/
def morningCalendar : Calendar where
  fromisoformat := readMorning
  isoformat t := ⟨morningText t, strip_morningText t⟩
  fromisoformat_isoformat := readMorning_morningText

end WaitLocalAgent.Foundation
