import Mathlib

/-! # Levels of a graph

How far the nodes next to a node are from where a search starts. -/

namespace WaitLocalAgent.Foundation

open SimpleGraph

variable {V : Type*} {G : SimpleGraph V} {u v w : V} {k : ℕ}

theorem edist_le_succ_of_adj (h : G.edist u v ≤ k) (hadj : G.Adj v w) :
    G.edist u w ≤ (k + 1 : ℕ) := by
  have hone : G.edist v w = 1 := edist_eq_one_iff_adj.mpr hadj
  calc G.edist u w ≤ G.edist u v + G.edist v w := G.edist_triangle
    _ ≤ k + 1 := by
        rw [hone]
        gcongr
    _ = (k + 1 : ℕ) := by simp

/-- A node of the next level is next to a node of this level. -/
theorem exists_adj_of_edist_eq_succ (h : G.edist u v = (k + 1 : ℕ)) :
    ∃ w, G.edist u w = k ∧ G.Adj w v := by
  obtain ⟨p, hp⟩ := exists_walk_of_edist_eq_coe h
  cases hrev : p.reverse with
  | nil =>
      have hlength := congrArg Walk.length hrev
      rw [Walk.length_reverse, hp] at hlength
      simp at hlength
  | @cons _ w _ hadj q =>
      have hlength := congrArg Walk.length hrev
      rw [Walk.length_reverse, hp, Walk.length_cons] at hlength
      have hle : G.edist u w ≤ k := by
        have hq := G.edist_le q.reverse
        rw [Walk.length_reverse] at hq
        rwa [show q.length = k by omega] at hq
      refine ⟨w, le_antisymm hle ?_, hadj.symm⟩
      obtain ⟨n, hn⟩ := ENat.ne_top_iff_exists.mp (ne_top_of_le_ne_top (ENat.natCast_ne_top k) hle)
      rw [← hn]
      have hnext := edist_le_succ_of_adj hn.symm.le hadj.symm
      rw [h] at hnext
      have : k + 1 ≤ n + 1 := by exact_mod_cast hnext
      exact_mod_cast (by omega : k ≤ n)

/-- What is in reach of one more step: what was in reach, and what is next to the last level. -/
theorem edist_le_succ_iff :
    G.edist u v ≤ (k + 1 : ℕ) ↔ G.edist u v ≤ k ∨ ∃ w, G.edist u w = k ∧ G.Adj w v := by
  constructor
  · intro h
    rcases h.eq_or_lt with heq | hlt
    · exact .inr (exists_adj_of_edist_eq_succ heq)
    · refine .inl (ENat.lt_natCast_add_one_iff.mp ?_)
      simpa using hlt
  · rintro (h | ⟨w, hw, hadj⟩)
    · exact h.trans (by exact_mod_cast Nat.le_succ k)
    · exact edist_le_succ_of_adj hw.le hadj

/-- Nothing lies beyond a level with no nodes. -/
theorem edist_lt_of_le (hempty : ∀ w, G.edist u w ≠ k) {d : ℕ} (h : G.edist u v ≤ d) :
    G.edist u v < k := by
  induction d generalizing v with
  | zero =>
      have huv : u = v := by simpa using h
      subst huv
      rw [edist_self]
      refine lt_of_le_of_ne bot_le fun hk => hempty u ?_
      rw [edist_self, ← hk]
  | succ d ih =>
      rcases edist_le_succ_iff.mp h with h | ⟨w, hw, hadj⟩
      · exact ih h
      · have hlt := ih hw.le
        rw [hw] at hlt
        have hdk : d + 1 ≤ k := by exact_mod_cast hlt
        exact lt_of_le_of_ne (h.trans (by exact_mod_cast hdk)) (hempty v)

end WaitLocalAgent.Foundation
