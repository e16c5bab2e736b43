import WaitLocalAgent.Foundation.Fallible

/-! # Depth-first search for cycles

A recursive search that marks the nodes under way and the nodes done with, on a stack of bounded
depth. -/

namespace WaitLocalAgent.Foundation.Search

open Relation

variable {α : Type*}

inductive Stop where
  | cycle
  | depth
  deriving DecidableEq, Repr

structure Marks (α : Type*) where
  visiting : Finset α
  visited : Finset α

def Edge (succ : α → List α) (a b : α) : Prop := b ∈ succ a

/-- A node that comes back to itself can be reached from `a`. -/
def ReachesCycle (E : α → α → Prop) (a : α) : Prop :=
  ∃ b, ReflTransGen E a b ∧ TransGen E b b

theorem ReachesCycle.mono {E E' : α → α → Prop} (hsub : ∀ a b, E a b → E' a b) {a : α}
    (h : ReachesCycle E a) : ReachesCycle E' a := by
  obtain ⟨b, hreach, hcycle⟩ := h
  exact ⟨b, ReflTransGen.mono hsub _ _ hreach, TransGen.mono hsub _ _ hcycle⟩

def Acyclic (E : α → α → Prop) : Prop := ∀ a, ¬ TransGen E a a

def Marks.none : Marks α := ⟨∅, ∅⟩

/-- The nodes done with are closed under the edges and on no cycle. -/
structure Marks.Sound (succ : α → List α) (marks : Marks α) : Prop where
  closed : ∀ a ∈ marks.visited, ∀ b ∈ succ a, b ∈ marks.visited
  acyclic : ∀ a ∈ marks.visited, ¬ TransGen (Edge succ) a a
  disjoint : ∀ a ∈ marks.visited, a ∉ marks.visiting

theorem Marks.none_sound {succ : α → List α} : (Marks.none : Marks α).Sound succ :=
  ⟨fun _ ha => absurd ha (Finset.notMem_empty _), fun _ ha => absurd ha (Finset.notMem_empty _),
    fun _ ha => absurd ha (Finset.notMem_empty _)⟩

theorem Marks.Sound.mem_of_reaches {succ : α → List α} {marks : Marks α} (h : marks.Sound succ)
    {a b : α} (ha : a ∈ marks.visited) (hab : ReflTransGen (Edge succ) a b) :
    b ∈ marks.visited := by
  induction hab with
  | refl => exact ha
  | tail _ hbc ih => exact h.closed _ ih _ hbc

section Visit

variable [DecidableEq α] (succ : α → List α)

def visit : ℕ → α → Marks α → Except Stop (Marks α)
  | 0, _, _ => .error .depth
  | frames + 1, node, marks =>
      if node ∈ marks.visiting then .error .cycle
      else if node ∈ marks.visited then .ok marks
      else do
        let marks ← (succ node).foldlM (fun marks next => visit frames next marks)
          { marks with visiting := insert node marks.visiting }
        return ⟨marks.visiting.erase node, insert node marks.visited⟩

variable {succ} {node : α} {marks marks' : Marks α} {frames : ℕ}

/-- What a search that runs through leaves marked. -/
structure Visited (succ : α → List α) (marks marks' : Marks α) : Prop where
  sound : marks'.Sound succ
  visiting : marks'.visiting = marks.visiting
  visited : marks.visited ⊆ marks'.visited

theorem foldlM_visited (hvisit : ∀ node (marks marks' : Marks α), marks.Sound succ →
      visit succ frames node marks = .ok marks' →
        Visited succ marks marks' ∧ node ∈ marks'.visited) {nexts : List α}
    (hsound : marks.Sound succ)
    (h : nexts.foldlM (fun marks next => visit succ frames next marks) marks = .ok marks') :
    Visited succ marks marks' ∧ ∀ next ∈ nexts, next ∈ marks'.visited := by
  induction nexts generalizing marks with
  | nil =>
      rw [List.foldlM_nil, pure_eq_ok] at h
      subst h
      exact ⟨⟨hsound, rfl, Finset.Subset.refl _⟩, fun _ hnext => absurd hnext List.not_mem_nil⟩
  | cons next nexts ih =>
      rw [List.foldlM_cons, bind_eq_ok] at h
      obtain ⟨marks₁, hnext, h⟩ := h
      obtain ⟨hfirst, hmem⟩ := hvisit next marks marks₁ hsound hnext
      obtain ⟨hrest, hmems⟩ := ih hfirst.sound h
      refine ⟨⟨hrest.sound, hrest.visiting.trans hfirst.visiting,
        hfirst.visited.trans hrest.visited⟩, ?_⟩
      intro b hb
      rcases List.mem_cons.mp hb with rfl | hb
      · exact hrest.visited hmem
      · exact hmems b hb

/-- A node all of whose edges lead to nodes done with can be done with itself. -/
theorem Marks.Sound.finish (h : marks.Sound succ) (hnode : node ∉ marks.visited)
    (hsucc : ∀ b ∈ succ node, b ∈ marks.visited) :
    (⟨marks.visiting.erase node, insert node marks.visited⟩ : Marks α).Sound succ := by
  refine ⟨?_, ?_, ?_⟩
  · intro a ha b hb
    rcases Finset.mem_insert.mp ha with rfl | ha
    · exact Finset.mem_insert_of_mem (hsucc b hb)
    · exact Finset.mem_insert_of_mem (h.closed a ha b hb)
  · intro a ha hcycle
    rcases Finset.mem_insert.mp ha with rfl | ha
    · -- the first edge leads to a node done with, from which `a` cannot be reached
      obtain ⟨b, hab, hba⟩ := TransGen.head'_iff.mp hcycle
      exact hnode (h.mem_of_reaches (hsucc b hab) hba)
    · exact h.acyclic a ha hcycle
  · intro a ha
    rcases Finset.mem_insert.mp ha with rfl | ha
    · exact Finset.notMem_erase a _
    · exact fun hvisiting => h.disjoint a ha (Finset.mem_of_mem_erase hvisiting)

theorem Marks.Sound.enter (h : marks.Sound succ) (hnode : node ∉ marks.visited) :
    ({ marks with visiting := insert node marks.visiting } : Marks α).Sound succ := by
  refine ⟨h.closed, h.acyclic, ?_⟩
  intro a ha hmem
  rcases Finset.mem_insert.mp hmem with rfl | hmem
  · exact hnode ha
  · exact h.disjoint a ha hmem

/-- A search that runs through has done with its node, and leaves the nodes under way. -/
theorem visit_ok (hsound : marks.Sound succ) (h : visit succ frames node marks = .ok marks') :
    Visited succ marks marks' ∧ node ∈ marks'.visited := by
  induction frames generalizing node marks marks' with
  | zero => cases h
  | succ frames ih =>
      rw [visit] at h
      split at h
      · cases h
      · rename_i hvisiting
        split at h
        · rename_i hvisited
          cases h
          exact ⟨⟨hsound, rfl, Finset.Subset.refl _⟩, hvisited⟩
        · rename_i hvisited
          rw [bind_eq_ok] at h
          obtain ⟨marks₁, hfold, h⟩ := h
          rw [pure_eq_ok] at h
          subst h
          obtain ⟨hloop, hsucc⟩ := foldlM_visited (fun _ _ _ => ih) (hsound.enter hvisited) hfold
          have hnode : node ∉ marks₁.visited := by
            intro hmem
            refine hloop.sound.disjoint node hmem ?_
            rw [hloop.visiting]
            exact Finset.mem_insert_self node _
          refine ⟨⟨hloop.sound.finish hnode hsucc, ?_, ?_⟩, Finset.mem_insert_self node _⟩
          · show marks₁.visiting.erase node = marks.visiting
            rw [hloop.visiting]
            exact Finset.erase_insert hvisiting
          · exact hloop.visited.trans (Finset.subset_insert node _)

theorem not_reachesCycle_of_visit (h : visit succ frames node Marks.none = .ok marks') :
    ¬ ReachesCycle (Edge succ) node := by
  rintro ⟨b, hreach, hcycle⟩
  obtain ⟨hvisited, hmem⟩ := visit_ok Marks.none_sound h
  exact hvisited.sound.acyclic b (hvisited.sound.mem_of_reaches hmem hreach) hcycle

/-- A search stops at a node under way, or it stops in the search from a successor, with marks to
which the node is new. -/
theorem visit_succ_error {stop : Stop} (hsound : marks.Sound succ)
    (h : visit succ (frames + 1) node marks = .error stop) :
    node ∈ marks.visiting ∧ stop = .cycle ∨
      node ∉ marks.visiting ∧ ∃ next marks', Edge succ node next ∧ marks'.Sound succ ∧
        marks'.visiting = insert node marks.visiting ∧
          visit succ frames next marks' = .error stop := by
  rw [visit] at h
  split at h
  · rename_i hvisiting
    cases h
    exact .inl ⟨hvisiting, rfl⟩
  · rename_i hvisiting
    split at h
    · cases h
    · rename_i hvisited
      cases hfold : (succ node).foldlM (fun marks next => visit succ frames next marks)
        { marks with visiting := insert node marks.visiting } with
      | ok marks₁ =>
          rw [hfold] at h
          cases h
      | error stop' =>
          rw [hfold] at h
          cases h
          obtain ⟨before, next, after, marks₁, hsucc, hbefore, hstop⟩ :=
            exists_of_foldlM_eq_error hfold
          obtain ⟨hloop, -⟩ :=
            foldlM_visited (fun _ _ _ => visit_ok) (hsound.enter hvisited) hbefore
          have hedge : Edge succ node next := by
            rw [Edge, hsucc]
            exact List.mem_append_right before List.mem_cons_self
          exact .inr ⟨hvisiting, next, marks₁, hedge, hloop.sound, hloop.visiting, hstop⟩

/-- Every cycle that a search reports is there: the nodes under way lead to its node. -/
theorem reachesCycle_of_visit (hsound : marks.Sound succ)
    (hpath : ∀ a ∈ marks.visiting, TransGen (Edge succ) a node)
    (h : visit succ frames node marks = .error .cycle) : ReachesCycle (Edge succ) node := by
  induction frames generalizing node marks with
  | zero => cases h
  | succ frames ih =>
      rcases visit_succ_error hsound h with
        ⟨hvisiting, -⟩ | ⟨-, next, marks₁, hedge, hsound₁, hvisiting₁, hstop⟩
      · exact ⟨node, .refl, hpath node hvisiting⟩
      · have hpath₁ : ∀ a ∈ marks₁.visiting, TransGen (Edge succ) a next := by
          intro a ha
          rw [hvisiting₁] at ha
          rcases Finset.mem_insert.mp ha with rfl | ha
          · exact .single hedge
          · exact (hpath a ha).tail hedge
        obtain ⟨b, hreach, hcycle⟩ := ih hsound₁ hpath₁ hstop
        exact ⟨b, .head hedge hreach, hcycle⟩

/-- A stack with more frames than nodes that have edges does not run out. -/
theorem visit_ne_depth {support : Finset α} (hsupport : ∀ a, succ a ≠ [] → a ∈ support)
    (hsound : marks.Sound succ) (hvisiting : marks.visiting ⊆ support)
    (hframes : support.card < frames + marks.visiting.card) :
    visit succ frames node marks ≠ .error .depth := by
  induction frames generalizing node marks with
  | zero =>
      have hcard := Finset.card_le_card hvisiting
      omega
  | succ frames ih =>
      intro h
      rcases visit_succ_error hsound h with
        ⟨-, hstop⟩ | ⟨hnode, next, marks₁, hedge, hsound₁, hvisiting₁, hstop⟩
      · cases hstop
      · have hmem : node ∈ support := hsupport node (List.ne_nil_of_mem hedge)
        refine ih hsound₁ ?_ ?_ hstop
        · rw [hvisiting₁]
          exact Finset.insert_subset hmem hvisiting
        · rw [hvisiting₁, Finset.card_insert_of_notMem hnode]
          omega

/-- With enough frames, a search reports a cycle exactly if its node reaches one. -/
theorem visit_eq_cycle_iff {support : Finset α} (hsupport : ∀ a, succ a ≠ [] → a ∈ support)
    (hframes : support.card < frames) :
    visit succ frames node Marks.none = .error .cycle ↔ ReachesCycle (Edge succ) node := by
  constructor
  · exact reachesCycle_of_visit Marks.none_sound fun a ha => absurd ha (Finset.notMem_empty a)
  · intro hcycle
    cases h : visit succ frames node Marks.none with
    | ok marks' => exact absurd hcycle (not_reachesCycle_of_visit h)
    | error stop =>
        cases stop with
        | cycle => rfl
        | depth =>
            refine absurd h (visit_ne_depth hsupport Marks.none_sound (Finset.empty_subset _) ?_)
            simpa [Marks.none] using hframes

end Visit

section Replace

variable {E E' : α → α → Prop} {a : α}

/-- A path along new edges is one along old edges, or passes the node whose edges are new. -/
theorem transGen_or_passes (hsame : ∀ x y, x ≠ a → E' x y → E x y) {x y : α}
    (h : TransGen E' x y) : TransGen E x y ∨ ReflTransGen E' x a ∧ TransGen E' a y := by
  induction h with
  | single hxy =>
      rename_i z
      by_cases hx : x = a
      · subst hx
        exact .inr ⟨.refl, .single hxy⟩
      · exact .inl (.single (hsame x z hx hxy))
  | tail hxy hyz ih =>
      rename_i y z
      rcases ih with hold | ⟨hxa, hay⟩
      · by_cases hy : y = a
        · subst hy
          exact .inr ⟨hxy.to_reflTransGen, .single hyz⟩
        · exact .inl (hold.tail (hsame y z hy hyz))
      · exact .inr ⟨hxa, hay.tail hyz⟩

/-- New edges of a node that reaches no cycle close none. -/
theorem Acyclic.replace (h : Acyclic E) (hsame : ∀ x y, x ≠ a → E' x y → E x y)
    (hreach : ¬ ReachesCycle E' a) : Acyclic E' := by
  intro x hcycle
  rcases transGen_or_passes hsame hcycle with hold | ⟨-, hax⟩
  · exact h x hold
  · exact hreach ⟨x, hax.to_reflTransGen, hcycle⟩

end Replace

end WaitLocalAgent.Foundation.Search
