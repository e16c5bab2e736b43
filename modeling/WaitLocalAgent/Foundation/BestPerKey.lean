import Mathlib

/-! # The best elements by key

One element for each key, up to a limit: what a pass over a descending list selects, and when it is
still the selection if the list had been cut short. -/

namespace WaitLocalAgent.Foundation

variable {α κ ρ : Type*} [LinearOrder ρ] (key : α → κ) (rank : α → ρ)

/-- The first elements of a list for their keys, after those that are selected, until there are
`limit` of them. -/
def firstPerKey [DecidableEq κ] (limit : ℕ) (selected : List α) : List α → List α
  | [] => selected
  | a :: l =>
      let next := if key a ∈ selected.map key then selected else selected ++ [a]
      if limit ≤ next.length then next else firstPerKey limit next l

/-- A best element for each of at most `limit` keys, none of which is worse than an element of
another key, if there are `limit`. -/
structure BestPerKey (limit : ℕ) (l selected : List α) : Prop where
  distinct : (selected.map key).Nodup
  bounded : selected.length ≤ limit
  maximal : ∀ r ∈ selected, r ∈ l ∧ ∀ q ∈ l, key q = key r → rank q ≤ rank r
  complete : selected.length = limit → ∀ q ∈ l, key q ∉ selected.map key →
    ∀ r ∈ selected, rank q ≤ rank r

/-- No key is left out but for the limit. -/
def Fills (limit : ℕ) (l selected : List α) : Prop :=
  ∀ q ∈ l, key q ∉ selected.map key → selected.length = limit

variable {key rank} {limit : ℕ} {l kept dropped done rest selected : List α} {a d : α}

theorem BestPerKey.of_lt (hdistinct : (selected.map key).Nodup) (hlt : selected.length < limit)
    (hmaximal : ∀ r ∈ selected, r ∈ l ∧ ∀ q ∈ l, key q = key r → rank q ≤ rank r) :
    BestPerKey key rank limit l selected :=
  ⟨hdistinct, hlt.le, hmaximal, fun hfull => absurd hfull hlt.ne⟩

/-- An element whose key is selected already. -/
theorem BestPerKey.skip (h : BestPerKey key rank limit done selected)
    (hlt : selected.length < limit) (hsorted : ∀ b ∈ done, rank a ≤ rank b) :
    BestPerKey key rank limit (done ++ [a]) selected := by
  refine .of_lt h.distinct hlt fun r hr => ?_
  obtain ⟨hmem, hmax⟩ := h.maximal r hr
  refine ⟨List.mem_append_left _ hmem, fun q hq hkey => ?_⟩
  rcases List.mem_append.mp hq with hq | hq
  · exact hmax q hq hkey
  · obtain rfl := List.mem_singleton.mp hq
    exact hsorted r hmem

theorem BestPerKey.take (h : BestPerKey key rank limit done selected)
    (hall : ∀ b ∈ done, key b ∈ selected.map key) (hlt : selected.length < limit)
    (hnew : key a ∉ selected.map key) :
    BestPerKey key rank limit (done ++ [a]) (selected ++ [a]) where
  distinct := by
    rw [List.map_append, List.map_singleton, List.nodup_append']
    exact ⟨h.distinct, List.nodup_singleton _, by simpa using hnew⟩
  bounded := by
    rw [List.length_append, List.length_singleton]
    exact hlt
  maximal := by
    intro r hr
    rcases List.mem_append.mp hr with hselected | hlast
    · obtain ⟨hmem, hmax⟩ := h.maximal r hselected
      refine ⟨List.mem_append_left _ hmem, fun q hq hkey => ?_⟩
      rcases List.mem_append.mp hq with hq | hq
      · exact hmax q hq hkey
      · obtain rfl := List.mem_singleton.mp hq
        exact absurd (hkey ▸ List.mem_map_of_mem hselected) hnew
    · obtain rfl := List.mem_singleton.mp hlast
      refine ⟨by simp, fun q hq hkey => ?_⟩
      rcases List.mem_append.mp hq with hq | hq
      · rw [← hkey] at hnew
        exact absurd (hall q hq) hnew
      · rw [List.mem_singleton.mp hq]
  complete := by
    intro _ q hq hleft
    refine absurd ?_ hleft
    rw [List.map_append, List.mem_append]
    rcases List.mem_append.mp hq with hq | hq
    · exact .inl (hall q hq)
    · rw [List.mem_singleton.mp hq]
      exact .inr (List.mem_singleton_self _)

/-- What comes after a full selection changes nothing. -/
theorem BestPerKey.append (h : BestPerKey key rank limit done selected)
    (hsorted : ∀ b ∈ done, ∀ q ∈ rest, rank q ≤ rank b) (hfull : selected.length = limit) :
    BestPerKey key rank limit (done ++ rest) selected where
  distinct := h.distinct
  bounded := h.bounded
  maximal := by
    intro r hr
    obtain ⟨hmem, hmax⟩ := h.maximal r hr
    refine ⟨List.mem_append_left _ hmem, fun q hq hkey => ?_⟩
    rcases List.mem_append.mp hq with hq | hq
    · exact hmax q hq hkey
    · exact hsorted r hmem q hq
  complete := by
    intro _ q hq hleft r hr
    rcases List.mem_append.mp hq with hq | hq
    · exact h.complete hfull q hq hleft r hr
    · exact hsorted r (h.maximal r hr).1 q hq

/-- The order of the list does not matter to what the best elements are. -/
theorem BestPerKey.of_mem_iff {l' : List α} (h : BestPerKey key rank limit l selected)
    (hmem : ∀ a, a ∈ l' ↔ a ∈ l) : BestPerKey key rank limit l' selected where
  distinct := h.distinct
  bounded := h.bounded
  maximal r hr := ⟨(hmem r).mpr (h.maximal r hr).1, fun q hq =>
    (h.maximal r hr).2 q ((hmem q).mp hq)⟩
  complete hfull q hq := h.complete hfull q ((hmem q).mp hq)

variable [DecidableEq κ]

theorem firstPerKey_spec (hsorted : (done ++ rest).Pairwise fun a b => rank b ≤ rank a)
    (h : BestPerKey key rank limit done selected) (hall : ∀ b ∈ done, key b ∈ selected.map key)
    (hlt : selected.length < limit) :
    BestPerKey key rank limit (done ++ rest) (firstPerKey key limit selected rest) ∧
      Fills key limit (done ++ rest) (firstPerKey key limit selected rest) := by
  induction rest generalizing done selected with
  | nil =>
      rw [List.append_nil]
      exact ⟨h, fun q hq hleft => absurd (hall q hq) hleft⟩
  | cons a rest ih =>
      have hsplit : done ++ a :: rest = (done ++ [a]) ++ rest := by simp
      rw [hsplit] at hsorted ⊢
      have hbefore : ∀ b ∈ done, rank a ≤ rank b := fun b hb =>
        (List.pairwise_append.mp (List.pairwise_append.mp hsorted).1).2.2 b hb a
          (List.mem_singleton_self a)
      rw [firstPerKey]
      by_cases hold : key a ∈ selected.map key
      · rw [if_pos hold, if_neg (Nat.not_le.mpr hlt)]
        refine ih hsorted (h.skip hlt hbefore) (fun b hb => ?_) hlt
        rcases List.mem_append.mp hb with hb | hb
        · exact hall b hb
        · rw [List.mem_singleton.mp hb]
          exact hold
      · rw [if_neg hold]
        have htake := h.take hall hlt hold
        have hnext : ∀ b ∈ done ++ [a], key b ∈ (selected ++ [a]).map key := by
          intro b hb
          rw [List.map_append, List.mem_append]
          rcases List.mem_append.mp hb with hb | hb
          · exact .inl (hall b hb)
          · rw [List.mem_singleton.mp hb]
            exact .inr (List.mem_singleton_self _)
        split
        · next hfull =>
            have hlength := htake.bounded.antisymm hfull
            exact ⟨htake.append (List.pairwise_append.mp hsorted).2.2 hlength,
              fun _ _ _ => hlength⟩
        · next hmore => exact ih hsorted htake hnext (Nat.not_le.mp hmore)

/-- A pass over a descending list. -/
theorem bestPerKey_firstPerKey (hsorted : l.Pairwise fun a b => rank b ≤ rank a)
    (hlimit : 0 < limit) :
    BestPerKey key rank limit l (firstPerKey key limit [] l) ∧
      Fills key limit l (firstPerKey key limit [] l) :=
  have hnone : BestPerKey key rank limit [] [] := .of_lt List.nodup_nil hlimit (by simp)
  firstPerKey_spec hsorted hnone (by simp) hlimit

variable (key rank) in
/-- What keeps a dropped element out of the selection: a kept one of its key, or enough keys with a
kept one, is no worse; or its key is dropped altogether where the limit is not reached. -/
def Covered (limit : ℕ) (kept : List α) (d : α) : Prop :=
  (∃ r ∈ kept, key r = key d ∧ rank d ≤ rank r) ∨
    limit ≤ ((kept.filter fun r => rank d ≤ rank r).map key).toFinset.card ∨
    (∀ r ∈ kept, key r ≠ key d) ∧ (kept.map key).toFinset.card < limit

theorem BestPerKey.card_keys (h : BestPerKey key rank limit l selected) :
    (selected.map key).toFinset.card = selected.length := by
  rw [List.toFinset_card_of_nodup h.distinct, List.length_map]

/-- Where enough keys have an element that is no worse, all that is selected is no worse. -/
theorem BestPerKey.le_of_card (h : BestPerKey key rank limit kept selected)
    (hfill : Fills key limit kept selected)
    (hcard : limit ≤ ((kept.filter fun r => rank d ≤ rank r).map key).toFinset.card) :
    ∀ r ∈ selected, rank d ≤ rank r := by
  intro r hr
  by_contra hlt
  have hworse : rank r < rank d := not_le.mp hlt
  have hsub : ((kept.filter fun r => rank d ≤ rank r).map key).toFinset ⊆
      (selected.map key).toFinset.erase (key r) := by
    intro k hk
    obtain ⟨s, hs, rfl⟩ := List.mem_map.mp (List.mem_toFinset.mp hk)
    obtain ⟨hkept, hrank⟩ := List.mem_filter.mp hs
    have hrank : rank d ≤ rank s := of_decide_eq_true hrank
    refine Finset.mem_erase.mpr ⟨fun hkey => ?_, List.mem_toFinset.mpr ?_⟩
    · exact absurd ((h.maximal r hr).2 s hkept hkey) (not_le.mpr (hworse.trans_le hrank))
    · by_contra hleft
      exact absurd (h.complete (hfill s hkept hleft) s hkept hleft r hr)
        (not_le.mpr (hworse.trans_le hrank))
  have herase : key r ∈ (selected.map key).toFinset :=
    List.mem_toFinset.mpr (List.mem_map_of_mem hr)
  have hcount := hcard.trans (Finset.card_le_card hsub)
  rw [Finset.card_erase_of_mem herase, h.card_keys] at hcount
  have hpos := List.length_pos_of_mem hr
  have hbound := h.bounded
  omega

/-- A covered element changes nothing. -/
theorem BestPerKey.of_covered (h : BestPerKey key rank limit kept selected)
    (hfill : Fills key limit kept selected)
    (hcovered : ∀ d ∈ dropped, Covered key rank limit kept d) :
    BestPerKey key rank limit (kept ++ dropped) selected where
  distinct := h.distinct
  bounded := h.bounded
  maximal := by
    intro r hr
    obtain ⟨hmem, hmax⟩ := h.maximal r hr
    refine ⟨List.mem_append_left _ hmem, fun q hq hkey => ?_⟩
    rcases List.mem_append.mp hq with hq | hq
    · exact hmax q hq hkey
    · rcases hcovered q hq with ⟨s, hs, hsame, hrank⟩ | hcard | ⟨hnone, -⟩
      · exact hrank.trans (hmax s hs (hsame.trans hkey))
      · exact h.le_of_card hfill hcard r hr
      · exact absurd hkey.symm (hnone r hmem)
  complete := by
    intro hfull q hq hleft r hr
    rcases List.mem_append.mp hq with hq | hq
    · exact h.complete hfull q hq hleft r hr
    · rcases hcovered q hq with ⟨s, hs, hsame, hrank⟩ | hcard | ⟨-, hfew⟩
      · rw [← hsame] at hleft
        exact hrank.trans (h.complete hfull s hs hleft r hr)
      · exact h.le_of_card hfill hcard r hr
      · have hsub : (selected.map key).toFinset ⊆ (kept.map key).toFinset := by
          intro k hk
          obtain ⟨s, hs, rfl⟩ := List.mem_map.mp (List.mem_toFinset.mp hk)
          exact List.mem_toFinset.mpr (List.mem_map_of_mem (h.maximal s hs).1)
        have hcount := Finset.card_le_card hsub
        rw [h.card_keys, hfull] at hcount
        omega

theorem BestPerKey.covered (h : BestPerKey key rank limit (kept ++ dropped) selected)
    (hfill : Fills key limit kept selected) (hd : d ∈ dropped) (hsub : ∀ r ∈ selected, r ∈ kept) :
    Covered key rank limit kept d := by
  have hmem : d ∈ kept ++ dropped := List.mem_append_right _ hd
  by_cases hkey : key d ∈ selected.map key
  · obtain ⟨r, hr, hsame⟩ := List.mem_map.mp hkey
    exact .inl ⟨r, hsub r hr, hsame, (h.maximal r hr).2 d hmem hsame.symm⟩
  · by_cases hfull : selected.length = limit
    · refine .inr (.inl ?_)
      have hkeys : (selected.map key).toFinset ⊆
          ((kept.filter fun r => rank d ≤ rank r).map key).toFinset := by
        intro k hk
        obtain ⟨r, hr, rfl⟩ := List.mem_map.mp (List.mem_toFinset.mp hk)
        refine List.mem_toFinset.mpr (List.mem_map_of_mem (List.mem_filter.mpr ⟨hsub r hr, ?_⟩))
        exact decide_eq_true (h.complete hfull d hmem hkey r hr)
      rw [← hfull, ← h.card_keys]
      exact Finset.card_le_card hkeys
    · refine .inr (.inr ⟨fun r hr hsame => hkey ?_, ?_⟩)
      · rw [← hsame]
        exact not_not.mp fun hleft => hfull (hfill r hr hleft)
      · have hkeys : (kept.map key).toFinset ⊆ (selected.map key).toFinset := by
          intro k hk
          obtain ⟨r, hr, rfl⟩ := List.mem_map.mp (List.mem_toFinset.mp hk)
          exact List.mem_toFinset.mpr (not_not.mp fun hleft => hfull (hfill r hr hleft))
        refine (Finset.card_le_card hkeys).trans_lt ?_
        rw [h.card_keys]
        exact h.bounded.lt_of_ne hfull

/-- The selection from what was kept is one from the whole list if and only if all that was dropped
is covered. -/
theorem BestPerKey.append_iff (h : BestPerKey key rank limit kept selected)
    (hfill : Fills key limit kept selected) :
    BestPerKey key rank limit (kept ++ dropped) selected ↔
      ∀ d ∈ dropped, Covered key rank limit kept d :=
  ⟨fun hwhole _ hd => hwhole.covered hfill hd fun r hr => (h.maximal r hr).1,
    h.of_covered hfill⟩

end WaitLocalAgent.Foundation
