import Mathlib

/-! # Sorted lists and lists without duplicates -/

namespace WaitLocalAgent.Foundation

variable {α : Type*} {r : α → α → Prop}

/-- Everything in a sorted list is related to its last element. -/
theorem rel_getLast? {l : List α} {a b : α} (hl : l.Pairwise r) (ha : l.getLast? = some a)
    (hb : b ∈ l) : b = a ∨ r b a := by
  obtain ⟨front, rfl⟩ := List.getLast?_eq_some_iff.mp ha
  rcases List.mem_append.mp hb with hfront | hlast
  · exact .inr ((List.pairwise_append.mp hl).2.2 b hfront a (List.mem_singleton_self a))
  · exact .inl (List.mem_singleton.mp hlast)

variable [DecidableRel r]

theorem head?_insertionSort [Std.Total r] [IsTrans α r] {l : List α} {a : α}
    (h : (l.insertionSort r).head? = some a) :
    a ∈ l ∧ ∀ b ∈ l, r a b := by
  obtain ⟨rest, hrest⟩ := List.head?_eq_some_iff.mp h
  have hsorted := List.pairwise_insertionSort r l
  rw [hrest] at hsorted
  refine ⟨?_, ?_⟩
  · rw [← List.mem_insertionSort r, hrest]
    exact List.mem_cons_self
  · intro b hb
    rw [← List.mem_insertionSort r, hrest] at hb
    rcases List.mem_cons.mp hb with rfl | hb
    · exact (total_of r b b).elim id id
    · exact List.rel_of_pairwise_cons hsorted hb

theorem exists_head?_insertionSort {l : List α} (h : l ≠ []) :
    ∃ a, (l.insertionSort r).head? = some a := by
  cases hsorted : l.insertionSort r with
  | nil =>
      have hlength := List.length_insertionSort r l
      rw [hsorted, List.length_nil] at hlength
      exact absurd (List.length_eq_zero_iff.mp hlength.symm) h
  | cons a rest => exact ⟨a, rfl⟩

theorem length_le_one_iff {l : List α} (hl : l.Nodup) :
    l.length ≤ 1 ↔ ∀ a ∈ l, ∀ b ∈ l, a = b := by
  match l with
  | [] => simp
  | [a] => simp
  | a :: b :: rest =>
      have hne : a ≠ b := by
        intro h
        simp [h] at hl
      simp only [List.length_cons]
      constructor
      · intro h
        omega
      · intro h
        exact absurd (h a (by simp) b (by simp)) hne

theorem exists_last {α : Type*} {p : α → Prop} {l : List α} (h : ∃ a ∈ l, p a) :
    ∃ front a back, l = front ++ a :: back ∧ p a ∧ ∀ b ∈ back, ¬ p b := by
  induction l using List.reverseRecOn with
  | nil => simp at h
  | append_singleton l a ih =>
      by_cases ha : p a
      · exact ⟨l, a, [], rfl, ha, by simp⟩
      · obtain ⟨front, b, back, rfl, hb, hback⟩ :=
          ih (by simpa [or_and_right, exists_or, ha] using h)
        refine ⟨front, b, back ++ [a], by simp, hb, ?_⟩
        simpa [or_imp, forall_and, ha] using hback

end WaitLocalAgent.Foundation
