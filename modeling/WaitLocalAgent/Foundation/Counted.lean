import Mathlib

/-! # Counted lists

Lists whose items are the numbers from a first one on, in any order. -/

namespace WaitLocalAgent.Foundation

def Counted (first : ℕ) (vs : List ℕ) : Prop := vs.Perm (List.range' first vs.length)

namespace Counted

variable {first v : ℕ} {vs : List ℕ}

theorem nil : Counted first [] := .refl _

theorem mem_iff (h : Counted first vs) : v ∈ vs ↔ first ≤ v ∧ v < first + vs.length := by
  rw [List.Perm.mem_iff h, List.mem_range'_1]

theorem nodup (h : Counted first vs) : vs.Nodup := (List.Perm.nodup_iff h).mpr List.nodup_range'

theorem concat (h : Counted first vs) : Counted first (vs ++ [first + vs.length]) := by
  rw [Counted, List.length_append, List.length_singleton, List.range'_concat, Nat.one_mul]
  exact h.append_right _

/-- A number may be added exactly when it is the next one. -/
theorem concat_iff (h : Counted first vs) :
    Counted first (vs ++ [v]) ↔ v = first + vs.length := by
  constructor
  · intro hv
    have hmem : v ∈ vs ++ [v] := by simp
    have hbound := hv.mem_iff.mp hmem
    have hnew : v ∉ vs := fun hv' => by
      have hnodup := hv.nodup
      rw [List.nodup_append] at hnodup
      exact hnodup.2.2 v hv' v (by simp) rfl
    rw [h.mem_iff] at hnew
    rw [List.length_append, List.length_singleton] at hbound
    omega
  · rintro rfl
    exact h.concat

/-- The largest item is the last number. -/
theorem eq_of_forall_le (h : Counted first vs) (hv : v ∈ vs) (hle : ∀ u ∈ vs, u ≤ v) :
    v + 1 = first + vs.length := by
  have hbound := h.mem_iff.mp hv
  have hlast := hle (first + vs.length - 1) (h.mem_iff.mpr (by omega))
  omega

end Counted

end WaitLocalAgent.Foundation
