import WaitLocalAgent.Foundation.Fallible

/-! # Postorder of a search

A depth-first search that lists every node after the nodes that its edges lead to, and stops at a
cycle or at a node that it cannot read. -/

namespace WaitLocalAgent.Foundation.Postorder

variable {α ε : Type}

inductive Halt (ε : Type) where
  | cycle
  | depth
  | raised (error : ε)
  deriving DecidableEq, Repr

/-- The nodes under way, and those done with in the order in which they were. -/
structure Walk (α : Type) where
  visiting : Finset α
  order : List α

def Walk.none : Walk α := ⟨∅, []⟩

def lift : Except ε α → Except (Halt ε) α
  | .ok a => .ok a
  | .error e => .error (.raised e)

theorem lift_eq_ok {x : Except ε α} {a : α} : lift x = .ok a ↔ x = .ok a := by
  cases x with
  | ok b => simp [lift]
  | error e => simp [lift]

section Topological

variable {succ : α → Except ε (List α)}

/-- Every node is listed after the nodes that its edges lead to. -/
def Topological (succ : α → Except ε (List α)) (order : List α) : Prop :=
  ∀ before node after, order = before ++ node :: after →
    ∃ nexts, succ node = .ok nexts ∧ ∀ next ∈ nexts, next ∈ before

theorem topological_nil : Topological succ ([] : List α) := by
  intro before node after h
  simp at h

theorem Topological.concat {order : List α} {node : α} {nexts : List α}
    (h : Topological succ order) (hsucc : succ node = .ok nexts)
    (hnexts : ∀ next ∈ nexts, next ∈ order) : Topological succ (order ++ [node]) := by
  intro before a after heq
  rcases List.eq_nil_or_concat after with rfl | ⟨after, last, rfl⟩
  · obtain ⟨rfl, hlast⟩ := List.append_inj' heq rfl
    obtain rfl := List.singleton_inj.mp hlast
    exact ⟨nexts, hsucc, hnexts⟩
  · have heq' : order ++ [node] = (before ++ a :: after) ++ [last] := by simpa using heq
    exact h before a after (List.append_inj' heq' rfl).1

/-- The nodes done with are listed once, in topological order, and none is under way. -/
structure Walk.Sound (succ : α → Except ε (List α)) (walk : Walk α) : Prop where
  nodup : walk.order.Nodup
  topological : Topological succ walk.order
  disjoint : ∀ a ∈ walk.order, a ∉ walk.visiting

theorem Walk.none_sound : (Walk.none : Walk α).Sound succ :=
  ⟨List.nodup_nil, topological_nil, fun _ ha => absurd ha List.not_mem_nil⟩

/-- What a search over nodes of `P` leaves. -/
structure Walked (succ : α → Except ε (List α)) (P : α → Prop) (walk walk' : Walk α) : Prop where
  sound : walk'.Sound succ
  visiting : walk'.visiting = walk.visiting
  order : walk.order ⊆ walk'.order
  added : ∀ a ∈ walk'.order, a ∈ walk.order ∨ P a

theorem Walked.refl {P : α → Prop} {walk : Walk α} (h : walk.Sound succ) :
    Walked succ P walk walk :=
  ⟨h, rfl, fun _ ha => ha, fun _ ha => .inl ha⟩

theorem Walked.trans {P : α → Prop} {walk walk' walk'' : Walk α} (h : Walked succ P walk walk')
    (h' : Walked succ P walk' walk'') : Walked succ P walk walk'' := by
  refine ⟨h'.sound, h'.visiting.trans h.visiting, fun a ha => h'.order (h.order ha), ?_⟩
  intro a ha
  rcases h'.added a ha with ha | ha
  · exact h.added a ha
  · exact .inr ha

/-- A loop whose rounds walk from sound walks walks. -/
theorem foldlM_walked {P : α → Prop} {step : Walk α → α → Except (Halt ε) (Walk α)}
    {nodes : List α} (hstep : ∀ node ∈ nodes, ∀ walk walk' : Walk α, walk.Sound succ →
      step walk node = .ok walk' → Walked succ P walk walk' ∧ node ∈ walk'.order)
    {walk walk' : Walk α} (hsound : walk.Sound succ) (h : nodes.foldlM step walk = .ok walk') :
    Walked succ P walk walk' ∧ ∀ node ∈ nodes, node ∈ walk'.order := by
  induction nodes generalizing walk with
  | nil =>
      rw [List.foldlM_nil, pure_eq_ok] at h
      subst h
      exact ⟨.refl hsound, fun _ hnode => absurd hnode List.not_mem_nil⟩
  | cons node nodes ih =>
      rw [List.foldlM_cons, bind_eq_ok] at h
      obtain ⟨walk₁, hnode, h⟩ := h
      obtain ⟨hfirst, hmem⟩ := hstep node List.mem_cons_self walk walk₁ hsound hnode
      obtain ⟨hrest, hmems⟩ :=
        ih (fun a ha => hstep a (List.mem_cons_of_mem node ha)) hfirst.sound h
      refine ⟨hfirst.trans hrest, ?_⟩
      intro a ha
      rcases List.mem_cons.mp ha with rfl | ha
      · exact hrest.order hmem
      · exact hmems a ha

end Topological

section Visit

variable [DecidableEq α] (succ : α → Except ε (List α)) (check : α → Except ε Unit)

/-- `check` is asked of every node to which an edge leads, before it is visited. -/
def visit : ℕ → α → Walk α → Except (Halt ε) (Walk α)
  | 0, _, _ => .error .depth
  | frames + 1, node, walk =>
      if node ∈ walk.visiting then .error .cycle
      else if node ∈ walk.order then .ok walk
      else do
        let nexts ← lift (succ node)
        let walk ← nexts.foldlM
          (fun walk next => do
            lift (check next)
            visit frames next walk)
          { walk with visiting := insert node walk.visiting }
        return ⟨walk.visiting.erase node, walk.order ++ [node]⟩

def postorder (frames : ℕ) (nodes : List α) : Except (Halt ε) (List α) :=
  (nodes.foldlM (fun walk node => visit succ check frames node walk) Walk.none).map Walk.order

variable {succ check}

theorem Walk.Sound.enter {walk : Walk α} {node : α} (h : walk.Sound succ)
    (hnode : node ∉ walk.order) :
    ({ walk with visiting := insert node walk.visiting } : Walk α).Sound succ := by
  refine ⟨h.nodup, h.topological, ?_⟩
  intro a ha hmem
  rcases Finset.mem_insert.mp hmem with rfl | hmem
  · exact hnode ha
  · exact h.disjoint a ha hmem

/-- A search that runs through has listed its node, and leaves the nodes under way. -/
theorem visit_ok {P : α → Prop} (hP : ∀ a, check a = .ok () → P a) {frames : ℕ} {node : α}
    {walk walk' : Walk α} (hnode : P node) (hsound : walk.Sound succ)
    (h : visit succ check frames node walk = .ok walk') :
    Walked succ P walk walk' ∧ node ∈ walk'.order := by
  induction frames generalizing node walk walk' with
  | zero => cases h
  | succ frames ih =>
      rw [visit] at h
      split at h
      · cases h
      · rename_i hvisiting
        split at h
        · rename_i hdone
          cases h
          exact ⟨.refl hsound, hdone⟩
        · rename_i hdone
          rw [bind_eq_ok] at h
          obtain ⟨nexts, hsucc, h⟩ := h
          rw [lift_eq_ok] at hsucc
          rw [bind_eq_ok] at h
          obtain ⟨walk₁, hfold, h⟩ := h
          rw [pure_eq_ok] at h
          subst h
          obtain ⟨hloop, hnexts⟩ := foldlM_walked (P := P) (fun next _ walk walk' hwalk hround => by
            rw [bind_eq_ok] at hround
            obtain ⟨_, hcheck, hround⟩ := hround
            exact ih (hP next (lift_eq_ok.mp hcheck)) hwalk hround) (hsound.enter hdone) hfold
          have hfresh : node ∉ walk₁.order := by
            intro hmem
            apply hloop.sound.disjoint node hmem
            rw [hloop.visiting]
            exact Finset.mem_insert_self node _
          refine ⟨⟨⟨?_, hloop.sound.topological.concat hsucc hnexts, ?_⟩, ?_, ?_, ?_⟩, by simp⟩
          · exact List.nodup_append_comm.mp (List.nodup_cons.mpr ⟨hfresh, hloop.sound.nodup⟩)
          · intro a ha hmem
            obtain ⟨hne, hmem⟩ := Finset.mem_erase.mp hmem
            rcases List.mem_append.mp ha with ha | ha
            · exact hloop.sound.disjoint a ha hmem
            · exact hne (List.mem_singleton.mp ha)
          · show walk₁.visiting.erase node = walk.visiting
            rw [hloop.visiting]
            exact Finset.erase_insert hvisiting
          · exact fun a ha => List.mem_append_left _ (hloop.order ha)
          · intro a ha
            rcases List.mem_append.mp ha with ha | ha
            · exact hloop.added a ha
            · obtain rfl := List.mem_singleton.mp ha
              exact .inr hnode

/-- The postorder of nodes that are closed under checked edges lists just these, topologically. -/
theorem postorder_ok {frames : ℕ} {nodes order : List α}
    (hclosed : ∀ a, check a = .ok () → a ∈ nodes) (hnodup : nodes.Nodup)
    (h : postorder succ check frames nodes = .ok order) :
    order.Perm nodes ∧ Topological succ order := by
  obtain ⟨walk, hfold, rfl⟩ := map_eq_ok.mp h
  obtain ⟨hall, hmems⟩ := foldlM_walked (P := (· ∈ nodes))
    (fun node hnode walk walk' hsound hvisit => visit_ok hclosed hnode hsound hvisit)
    Walk.none_sound hfold
  refine ⟨(List.perm_ext_iff_of_nodup hall.sound.nodup hnodup).mpr fun a => ⟨?_, hmems a⟩,
    hall.sound.topological⟩
  intro ha
  rcases hall.added a ha with ha | ha
  · exact absurd ha List.not_mem_nil
  · exact ha

end Visit

end WaitLocalAgent.Foundation.Postorder
