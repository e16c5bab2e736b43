import Mathlib

/-! # Versioned entries

A store of entries that carry a version, with a revision for every version that an entry has had.
Writers compute the next version from an entry that they have read earlier; that the revision of a
version is written once is what makes the late ones fail. -/

namespace WaitLocalAgent.Foundation

/-- How a store is read: its entries, their revisions, and when a revision records an entry. -/
structure Versioned (S κ E R : Type*) where
  entry : S → κ → Option E
  revision : S → κ → ℕ → Option R
  version : E → ℕ
  Records : E → R → Prop

namespace Versioned

variable {S κ E R : Type*} (V : Versioned S κ E R)

/-- The entry has been stored under `k`, now or earlier. -/
def Recorded (s : S) (k : κ) (e : E) : Prop :=
  ∃ r, V.revision s k (V.version e) = some r ∧ V.Records e r

/-- The revisions of an entry have the versions `1..n`, and the last one records it. -/
structure Linear (s : S) : Prop where
  versions : ∀ k v, (V.revision s k v).isSome ↔
    ∃ e, V.entry s k = some e ∧ 1 ≤ v ∧ v ≤ V.version e
  current : ∀ k e, V.entry s k = some e → V.Recorded s k e

/-- The entry under `k` becomes `e`, with the revision `r`, which is the first of its version. -/
structure Writes [DecidableEq κ] (k : κ) (e : E) (r : R) (s s' : S) : Prop where
  unrecorded : V.revision s k (V.version e) = none
  entry : ∀ j, V.entry s' j = if j = k then some e else V.entry s j
  revision : ∀ j v, V.revision s' j v =
    if j = k ∧ v = V.version e then some r else V.revision s j v
  records : V.Records e r

variable {V} {s s' : S} {k j : κ} {e x : E} {r : R}

theorem Recorded.isSome (h : V.Recorded s k x) : (V.revision s k (V.version x)).isSome := by
  obtain ⟨r, hr, -⟩ := h
  simp [hr]

theorem Linear.of_empty (hentry : ∀ k, V.entry s k = none)
    (hrevision : ∀ k v, V.revision s k v = none) : V.Linear s := by
  refine ⟨fun k v => ?_, fun k e he => ?_⟩
  · simp [hentry, hrevision]
  · rw [hentry] at he
    cases he

/-- What else a revision says of its entry, it says of all or it says of those that have `P`. -/
theorem Linear.records_iff (h : V.Linear s) {Same : E → R → Prop} {P : E → Prop}
    (hsame : ∀ e r, V.Records e r → (Same e r ↔ P e)) :
    Versioned.Linear { V with Records := Same } s ↔ ∀ k e, V.entry s k = some e → P e := by
  refine ⟨fun hl k e he => ?_, fun hp => ⟨h.versions, fun k e he => ?_⟩⟩
  · obtain ⟨r, hr, hrecords⟩ := h.current k e he
    obtain ⟨q, hq, hq'⟩ := hl.current k e he
    cases hr.symm.trans hq
    exact (hsame e r hrecords).mp hq'
  · obtain ⟨r, hr, hrecords⟩ := h.current k e he
    exact ⟨r, hr, (hsame e r hrecords).mpr (hp k e he)⟩

section Writes

variable [DecidableEq κ]

theorem Writes.entry_self (hw : V.Writes k e r s s') : V.entry s' k = some e := by
  simp [hw.entry]

theorem Writes.revision_self (hw : V.Writes k e r s s') :
    V.revision s' k (V.version e) = some r := by
  simp [hw.revision]

theorem Writes.revision_of_some (hw : V.Writes k e r s s') {v : ℕ} {q : R}
    (hq : V.revision s j v = some q) : V.revision s' j v = some q := by
  rw [hw.revision, if_neg]
  · exact hq
  · rintro ⟨rfl, rfl⟩
    rw [hw.unrecorded] at hq
    cases hq

theorem Writes.revision_isSome (hw : V.Writes k e r s s') (i : κ) (v : ℕ)
    (h : (V.revision s i v).isSome) : (V.revision s' i v).isSome := by
  obtain ⟨q, hq⟩ := Option.isSome_iff_exists.mp h
  simp [hw.revision_of_some hq]

theorem Writes.recorded (hw : V.Writes k e r s s') (hx : V.Recorded s j x) :
    V.Recorded s' j x := by
  obtain ⟨q, hq, hrecords⟩ := hx
  exact ⟨q, hw.revision_of_some hq, hrecords⟩

theorem Writes.recorded_self (hw : V.Writes k e r s s') : V.Recorded s' k e :=
  ⟨r, hw.revision_self, hw.records⟩

/-- A write under the version that follows those recorded so far. -/
theorem Linear.write (h : V.Linear s) (hw : V.Writes k e r s s')
    (hnext : ∀ v, (V.revision s k v).isSome ↔ 1 ≤ v ∧ v < V.version e)
    (hpos : 1 ≤ V.version e) : V.Linear s' := by
  refine ⟨?_, ?_⟩
  · intro i v
    rw [hw.revision, hw.entry]
    by_cases hi : i = k
    · subst hi
      by_cases hv : v = V.version e
      · simp [hv, hpos]
      · simp only [true_and, if_neg hv, if_true, Option.some.injEq, exists_eq_left', hnext]
        omega
    · simp only [hi, false_and, if_false]
      exact h.versions i v
  · intro i x hx
    rw [hw.entry] at hx
    by_cases hi : i = k
    · subst hi
      rw [if_pos rfl, Option.some.injEq] at hx
      exact hx ▸ hw.recorded_self
    · rw [if_neg hi] at hx
      exact hw.recorded (h.current i x hx)

theorem Linear.insert (h : V.Linear s) (hw : V.Writes k e r s s') (hnew : V.entry s k = none)
    (hfirst : V.version e = 1) : V.Linear s' := by
  refine h.write hw ?_ (by omega)
  intro v
  simp only [h.versions, hnew, hfirst, reduceCtorEq, false_and, exists_false, false_iff]
  omega

/-- A writer that succeeds has read the entry of today. -/
theorem Linear.version_eq (h : V.Linear s) (hw : V.Writes k e r s s') {v : ℕ}
    (hv : (V.revision s k v).isSome) (hstep : V.version e = v + 1) :
    ∃ d, V.entry s k = some d ∧ V.version d = v := by
  obtain ⟨d, hd, hpos, hle⟩ := (h.versions k v).mp hv
  refine ⟨d, hd, ?_⟩
  have hnone := hw.unrecorded
  have hfree : ¬ (V.revision s k (V.version e)).isSome := by simp [hnone]
  rw [h.versions, hd] at hfree
  simp only [Option.some.injEq, exists_eq_left', hstep] at hfree
  omega

theorem Linear.update (h : V.Linear s) (hw : V.Writes k e r s s') {v : ℕ}
    (hv : (V.revision s k v).isSome) (hstep : V.version e = v + 1) : V.Linear s' := by
  obtain ⟨d, hd, hversion⟩ := h.version_eq hw hv hstep
  refine h.write hw ?_ (by omega)
  intro v
  rw [h.versions, hd]
  simp only [Option.some.injEq, exists_eq_left']
  omega

end Writes

end Versioned

end WaitLocalAgent.Foundation
