import WaitLocalAgent.Foundation.Search

/-! # Worklists and whole graphs

What a worklist reaches, and a search for cycles from every node of a graph. -/

namespace WaitLocalAgent.Foundation.Search

open Relation

variable {α : Type*} [DecidableEq α] {succ : α → List α}

section Every

variable {nodes : List α} {marks marks' : Marks α} {frames : ℕ}

/-- With enough frames, a loop over nodes raises exactly if one of them reaches a cycle. -/
theorem exists_visitAll_iff {support : Finset α} (hsupport : ∀ a, succ a ≠ [] → a ∈ support)
    (hframes : support.card < frames) :
    (∃ marks', nodes.foldlM (fun marks node => visit succ frames node marks) Marks.none =
      .ok marks') ↔ ∀ node ∈ nodes, ¬ ReachesCycle (Edge succ) node := by
  constructor
  · rintro ⟨marks', h⟩ node hnode ⟨b, hreach, hcycle⟩
    obtain ⟨hvisited, hmem⟩ := foldlM_visited (fun _ _ _ => visit_ok) Marks.none_sound h
    exact hvisited.sound.acyclic b (hvisited.sound.mem_of_reaches (hmem node hnode) hreach) hcycle
  · intro hacyclic
    cases h : nodes.foldlM (fun marks node => visit succ frames node marks) Marks.none with
    | ok marks' => exact ⟨marks', rfl⟩
    | error stop =>
        obtain ⟨before, node, after, marks₁, rfl, hbefore, hstop⟩ := exists_of_foldlM_eq_error h
        obtain ⟨hvisited, -⟩ := foldlM_visited (fun _ _ _ => visit_ok) Marks.none_sound hbefore
        have hnone : marks₁.visiting = ∅ := hvisited.visiting
        cases stop with
        | cycle =>
            refine absurd (reachesCycle_of_visit hvisited.sound (fun a ha => ?_) hstop)
              (hacyclic node (by simp))
            rw [hnone] at ha
            exact absurd ha (Finset.notMem_empty a)
        | depth =>
            refine absurd hstop (visit_ne_depth hsupport hvisited.sound ?_ ?_)
            · simp [hnone]
            · simpa [hnone] using hframes

end Every

/-- The nodes reached when the worklist is empty. Its head is taken first, and what a new node leads
to is put before the rest, the last one first. -/
def reach (succ : α → List α) : ℕ → List α → Finset α → Option (Finset α)
  | _, [], reached => some reached
  | 0, _ :: _, _ => none
  | fuel + 1, current :: pending, reached =>
      if current ∈ reached then reach succ fuel pending reached
      else reach succ fuel ((succ current).reverse ++ pending) (insert current reached)

section Reach

variable {fuel : ℕ} {pending : List α} {reached result : Finset α}

/-- Only what the worklist leads to is reached. -/
theorem reach_sound (h : reach succ fuel pending reached = some result) :
    ∀ a ∈ result, a ∈ reached ∨ ∃ b ∈ pending, ReflTransGen (Edge succ) b a := by
  induction fuel generalizing pending reached with
  | zero =>
      cases pending with
      | nil =>
          cases h
          exact fun a ha => .inl ha
      | cons current pending => cases h
  | succ fuel ih =>
      cases pending with
      | nil =>
          cases h
          exact fun a ha => .inl ha
      | cons current pending =>
          rw [reach] at h
          intro a ha
          split at h
          · refine (ih h a ha).imp_right ?_
            rintro ⟨b, hb, hreach⟩
            exact ⟨b, List.mem_cons_of_mem current hb, hreach⟩
          · rcases ih h a ha with hmem | ⟨b, hb, hreach⟩
            · rcases Finset.mem_insert.mp hmem with rfl | hmem
              · exact .inr ⟨a, List.mem_cons_self, .refl⟩
              · exact .inl hmem
            · rcases List.mem_append.mp hb with hb | hb
              · have hedge : Edge succ current b := List.mem_reverse.mp hb
                exact .inr ⟨current, List.mem_cons_self, .head hedge hreach⟩
              · exact .inr ⟨b, List.mem_cons_of_mem current hb, hreach⟩

/-- What is reached leads to what is reached, or still on the worklist. -/
def Covered (succ : α → List α) (reached : Finset α) (pending : List α) : Prop :=
  ∀ a ∈ reached, ∀ b ∈ succ a, b ∈ reached ∨ b ∈ pending

theorem reach_closed (hcovered : Covered succ reached pending)
    (h : reach succ fuel pending reached = some result) :
    reached ⊆ result ∧ (∀ a ∈ pending, a ∈ result) ∧ Covered succ result [] := by
  induction fuel generalizing pending reached with
  | zero =>
      cases pending with
      | nil =>
          cases h
          exact ⟨Finset.Subset.refl _, fun a ha => absurd ha List.not_mem_nil, hcovered⟩
      | cons current pending => cases h
  | succ fuel ih =>
      cases pending with
      | nil =>
          cases h
          exact ⟨Finset.Subset.refl _, fun a ha => absurd ha List.not_mem_nil, hcovered⟩
      | cons current pending =>
          rw [reach] at h
          split at h
          · next hmem =>
              have hcovered' : Covered succ reached pending := by
                intro a ha b hb
                rcases hcovered a ha b hb with hb | hb
                · exact .inl hb
                · rcases List.mem_cons.mp hb with rfl | hb
                  · exact .inl hmem
                  · exact .inr hb
              obtain ⟨hsub, hpending, hclosed⟩ := ih hcovered' h
              refine ⟨hsub, fun a ha => ?_, hclosed⟩
              rcases List.mem_cons.mp ha with rfl | ha
              · exact hsub hmem
              · exact hpending a ha
          · have hcovered' : Covered succ (insert current reached)
                ((succ current).reverse ++ pending) := by
              intro a ha b hb
              rcases Finset.mem_insert.mp ha with rfl | ha
              · exact .inr (List.mem_append_left _ (List.mem_reverse.mpr hb))
              · rcases hcovered a ha b hb with hb | hb
                · exact .inl (Finset.mem_insert_of_mem hb)
                · rcases List.mem_cons.mp hb with rfl | hb
                  · exact .inl (Finset.mem_insert_self b _)
                  · exact .inr (List.mem_append_right _ hb)
            obtain ⟨hsub, hpending, hclosed⟩ := ih hcovered' h
            refine ⟨fun a ha => hsub (Finset.mem_insert_of_mem ha), fun a ha => ?_, hclosed⟩
            rcases List.mem_cons.mp ha with rfl | ha
            · exact hsub (Finset.mem_insert_self a _)
            · exact hpending a (List.mem_append_right _ ha)

/-- Every node of the support is expanded once, so that the edges bound the rounds. -/
theorem reach_isSome {support : Finset α} (hsupport : ∀ a, succ a ≠ [] → a ∈ support)
    (hfuel : pending.length + ∑ a ∈ support \ reached, (succ a).length ≤ fuel) :
    ∃ result, reach succ fuel pending reached = some result := by
  induction fuel generalizing pending reached with
  | zero =>
      have hnil : pending = [] := List.length_eq_zero_iff.mp (by omega)
      exact ⟨reached, by rw [hnil, reach]⟩
  | succ fuel ih =>
      cases pending with
      | nil => exact ⟨reached, by rw [reach]⟩
      | cons current pending =>
          rw [reach]
          rw [List.length_cons] at hfuel
          split
          · exact ih (by omega)
          · next hnew =>
              refine ih ?_
              rw [List.length_append, List.length_reverse]
              by_cases hcurrent : current ∈ support
              · have hmem : current ∈ support \ reached := Finset.mem_sdiff.mpr ⟨hcurrent, hnew⟩
                have hsum := Finset.add_sum_erase _ (fun a => (succ a).length) hmem
                rw [Finset.sdiff_insert]
                omega
              · have hempty : succ current = [] := by
                  by_contra hne
                  exact hcurrent (hsupport current hne)
                have hsame : support \ insert current reached = support \ reached := by
                  rw [Finset.sdiff_insert, Finset.erase_eq_of_notMem]
                  exact fun h => hcurrent (Finset.mem_sdiff.mp h).1
                rw [hempty, hsame, List.length_nil]
                omega

/-- A worklist with fuel for every edge ends with the nodes that its start leads to. -/
theorem exists_reach {support : Finset α} (hsupport : ∀ a, succ a ≠ [] → a ∈ support)
    (start : α) (hfuel : 1 + ∑ a ∈ support, (succ a).length ≤ fuel) :
    ∃ result, reach succ fuel [start] ∅ = some result ∧
      ∀ a, a ∈ result ↔ ReflTransGen (Edge succ) start a := by
  have hsome : ∃ result, reach succ fuel [start] ∅ = some result :=
    reach_isSome hsupport (by simpa using hfuel)
  obtain ⟨result, h⟩ := hsome
  have hnone : Covered succ ∅ [start] := fun a ha => absurd ha (Finset.notMem_empty a)
  obtain ⟨-, hstart, hclosed⟩ := reach_closed hnone h
  refine ⟨result, h, fun a => ⟨fun ha => ?_, fun hreach => ?_⟩⟩
  · rcases reach_sound h a ha with hmem | ⟨b, hb, hreach⟩
    · exact absurd hmem (Finset.notMem_empty a)
    · rw [List.mem_singleton] at hb
      rwa [hb] at hreach
  · induction hreach with
    | refl => exact hstart start List.mem_cons_self
    | tail _ hedge ih => exact (hclosed _ ih _ hedge).resolve_right List.not_mem_nil

end Reach

end WaitLocalAgent.Foundation.Search
