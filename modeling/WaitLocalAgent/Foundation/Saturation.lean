import WaitLocalAgent.Foundation.Worklist

/-! # Saturating worklists

A worklist whose items need some facts and gain others, and never lose any. Draining it gains the
least set of facts that its start and its items generate, whatever the order of the items. -/

namespace WaitLocalAgent.Foundation.Worklist

variable {σ α β ι : Type*} (w : Worklist σ α β)

inductive Drains : σ → List α → σ → Prop
  | done (s : σ) : Drains s [] s
  | again {s t : σ} {x : α} {xs : List α} (h : (w.sweep s (x :: xs)).progressed = true)
      (rest : Drains (w.sweep s (x :: xs)).state ((w.sweep s (x :: xs)).waiting.map Prod.fst) t) :
      Drains s (x :: xs) t
  | stuck {s : σ} {x : α} {xs : List α} (h : (w.sweep s (x :: xs)).progressed = false) :
      Drains s (x :: xs) ((w.sweep s (x :: xs)).waiting.foldl (fun t p => w.giveUp t p.1 p.2)
        (w.sweep s (x :: xs)).state)

variable {w} {s t : σ} {xs : List α}

theorem drains_drain {fuel : ℕ} (h : xs.length ≤ fuel) : w.Drains s xs (w.drain fuel s xs) := by
  induction fuel generalizing s xs with
  | zero =>
      have hnil : xs = [] := by simpa using h
      subst hnil
      exact .done s
  | succ fuel ih =>
      cases xs with
      | nil => exact .done s
      | cons x xs =>
          simp only [drain]
          split
          · rename_i hp
            have hlen := sweep_shortens hp
            simp only [List.length_cons] at hlen h
            exact .again hp (ih (by simp; omega))
          · rename_i hp
            exact .stuck (by simpa using hp)

theorem Drains.unique {u : σ} (ht : w.Drains s xs t) (hu : w.Drains s xs u) : t = u := by
  induction ht generalizing u with
  | done s =>
      cases hu
      rfl
  | again h rest ih =>
      cases hu with
      | again _ rest' => exact ih rest'
      | stuck h' => simp [h] at h'
  | stuck h =>
      cases hu with
      | again h' _ => simp [h] at h'
      | stuck _ => rfl

/-- What the final state decides about an item. -/
def verdict (w : Worklist σ α β) (t : σ) (x : α) : Settlement α β :=
  match w.waits t x with
  | none => .settled x
  | some reason => .gaveUp x reason

theorem sweepFrom_of_stuck {s : Sweep σ α β} (hs : s.progressed = false)
    (h : (w.sweepFrom s xs).progressed = false) :
    (w.sweepFrom s xs).state = s.state ∧ ∃ waiting,
      (w.sweepFrom s xs).waiting = s.waiting ++ waiting ∧ waiting.map Prod.fst = xs ∧
        ∀ q ∈ waiting, w.waits s.state q.1 = some q.2 := by
  induction xs generalizing s with
  | nil => exact ⟨rfl, [], by simp [sweepFrom]⟩
  | cons x xs ih =>
      cases hw : w.waits s.state x with
      | none =>
          have hkeeps : ∀ (ys : List α) (u : Sweep σ α β), u.progressed = true →
              (w.sweepFrom u ys).progressed = true := by
            intro ys
            induction ys with
            | nil => exact fun u hu => hu
            | cons y ys ih =>
                intro u hu
                apply ih
                unfold visit
                split
                · exact hu
                · rfl
          have hprogress := hkeeps xs (w.visit s x) (by simp [visit, hw])
          rw [sweepFrom, List.foldl_cons] at h
          rw [sweepFrom, h] at hprogress
          cases hprogress
      | some reason =>
          have hv : w.visit s x = { s with waiting := s.waiting ++ [(x, reason)] } := by
            simp [visit, hw]
          have htail := @ih (w.visit s x) (by simp [hv, hs]) h
          rw [hv] at htail
          obtain ⟨hstate, waiting, hwaiting, hitems, hreasons⟩ := htail
          have hfold : w.sweepFrom s (x :: xs) =
              w.sweepFrom { s with waiting := s.waiting ++ [(x, reason)] } xs := by
            rw [sweepFrom, List.foldl_cons, hv]
            rfl
          refine ⟨hfold ▸ hstate, (x, reason) :: waiting, ?_, by simp [hitems], ?_⟩
          · rw [hfold, hwaiting]
            simp
          · intro q hq
            rcases List.mem_cons.mp hq with rfl | hq
            · exact hw
            · exact hreasons q hq

/-- The settled items come first, each in a state in which it does not wait; what is left waits
in the state that they lead to. -/
theorem drain_split {fuel : ℕ} (hfuel : xs.length ≤ fuel) :
    ∃ (settled : List α) (left : List (α × β)),
      (settled ++ left.map Prod.fst).Perm xs ∧
      GuardedFrom w.apply w.Admissible s (settled.map .settled) ∧
      (∀ q ∈ left, w.waits (runFrom w.apply s (settled.map .settled)) q.1 = some q.2) ∧
      w.drain fuel s xs =
        runFrom w.apply s (settled.map .settled ++ left.map fun q => .gaveUp q.1 q.2) := by
  induction fuel generalizing s xs with
  | zero =>
      have hnil : xs = [] := by simpa using hfuel
      subst hnil
      exact ⟨[], [], by simp [drain]⟩
  | succ fuel ih =>
      cases xs with
      | nil => exact ⟨[], [], by simp [drain]⟩
      | cons x xs =>
          simp only [drain]
          split
          · rename_i hp
            obtain ⟨first, hguard, hstate, hperm⟩ :=
              sweepFrom_replay (w := w) ⟨s, false, []⟩ (x :: xs)
            change (w.sweep s (x :: xs)).state = _ at hstate
            change (first ++ (w.sweep s (x :: xs)).waiting.map Prod.fst).Perm _ at hperm
            have hlen := sweep_shortens hp
            simp only [List.length_cons] at hlen hfuel
            obtain ⟨settled, left, hitems, hrest, hleft, hdrain⟩ :=
              @ih (w.sweep s (x :: xs)).state ((w.sweep s (x :: xs)).waiting.map Prod.fst)
                (by simp; omega)
            refine ⟨first ++ settled, left, ?_, ?_, ?_, ?_⟩
            · rw [List.append_assoc]
              exact (hitems.append_left first).trans (by simpa using hperm)
            · rw [List.map_append, guardedFrom_append, ← hstate]
              exact ⟨hguard, hrest⟩
            · rw [List.map_append, runFrom_append, ← hstate]
              exact hleft
            · rw [List.map_append, List.append_assoc, runFrom_append, ← hstate, hdrain]
          · rename_i hp
            obtain ⟨hstate, left, hwaiting, hitems, hreasons⟩ :=
              @sweepFrom_of_stuck _ _ _ w (x :: xs) ⟨s, false, []⟩ rfl (by simpa [sweep] using hp)
            refine ⟨[], left, by simp [hitems], trivial, hreasons, ?_⟩
            rw [sweep, hstate, hwaiting, giveUp_replay]
            rfl

/-- The facts known in a state decide which items wait, and why; a settled item adds its own. -/
structure Saturates (w : Worklist σ α β) (known : σ → Set ι) (needs gains : α → Set ι) :
    Prop where
  waits_none : ∀ s x, w.waits s x = none ↔ needs x ⊆ known s
  waits_known : ∀ s t x, known s = known t → w.waits s x = w.waits t x
  known_settle : ∀ s x, known (w.settle s x) = known s ∪ gains x

/-- One round: the facts to start with, and what the items gain whose needs are met. -/
def gained (start : Set ι) (items : Set α) (needs gains : α → Set ι) : Set ι →o Set ι where
  toFun facts := start ∪ {i | ∃ x ∈ items, needs x ⊆ facts ∧ i ∈ gains x}
  monotone' := by
    intro facts facts' h
    apply Set.union_subset_union_right
    rintro i ⟨x, hx, hneeds, hi⟩
    exact ⟨x, hx, hneeds.trans h, hi⟩

section Facts

variable {known : σ → Set ι} {needs gains : α → Set ι}

theorem Saturates.known_subset (hw : w.Saturates known needs gains) (settled : List α) :
    known s ⊆ known (runFrom w.apply s (settled.map .settled)) := by
  induction settled generalizing s with
  | nil => exact subset_rfl
  | cons x settled ih =>
      rw [List.map_cons, runFrom_cons, apply_settled]
      refine Set.Subset.trans ?_ (@ih (w.settle s x))
      rw [hw.known_settle]
      exact Set.subset_union_left

theorem Saturates.gains_subset (hw : w.Saturates known needs gains) {settled : List α} {x : α}
    (hx : x ∈ settled) : gains x ⊆ known (runFrom w.apply s (settled.map .settled)) := by
  induction settled generalizing s with
  | nil => cases hx
  | cons y settled ih =>
      rw [List.map_cons, runFrom_cons, apply_settled]
      rcases List.mem_cons.mp hx with rfl | hmem
      · refine Set.Subset.trans ?_ (hw.known_subset settled)
        rw [hw.known_settle]
        exact Set.subset_union_right
      · exact ih hmem

/-- Items settled in a state in which they do not wait gain nothing that is not generated. -/
theorem Saturates.known_subset_of_closed (hw : w.Saturates known needs gains) {facts : Set ι}
    {settled : List α} (hstart : known s ⊆ facts)
    (hclosed : ∀ x ∈ settled, needs x ⊆ facts → gains x ⊆ facts)
    (hguard : GuardedFrom w.apply w.Admissible s (settled.map .settled)) :
    known (runFrom w.apply s (settled.map .settled)) ⊆ facts := by
  induction settled generalizing s with
  | nil => exact hstart
  | cons x settled ih =>
      obtain ⟨hwaits, hguard⟩ := hguard
      rw [List.map_cons, runFrom_cons, apply_settled]
      refine ih ?_ (fun y hy => hclosed y (List.mem_cons_of_mem _ hy)) hguard
      have hneeds := ((hw.waits_none s x).mp hwaits).trans hstart
      rw [hw.known_settle]
      exact Set.union_subset hstart (hclosed x List.mem_cons_self hneeds)

theorem Saturates.needs_subset (hw : w.Saturates known needs gains) {settled : List α}
    (hguard : GuardedFrom w.apply w.Admissible s (settled.map .settled)) {x : α}
    (hx : x ∈ settled) : needs x ⊆ known (runFrom w.apply s (settled.map .settled)) := by
  induction settled generalizing s with
  | nil => cases hx
  | cons y settled ih =>
      obtain ⟨hwaits, hguard⟩ := hguard
      rcases List.mem_cons.mp hx with rfl | hmem
      · exact ((hw.waits_none s x).mp hwaits).trans (hw.known_subset (x :: settled))
      · exact ih hguard hmem

/-- The drained state knows the least fixed point, and decides about each item by it. -/
theorem Saturates.drain_lfp (hw : w.Saturates known needs gains) {fuel : ℕ}
    (hfuel : xs.length ≤ fuel) :
    ∃ t es, known t = OrderHom.lfp (gained (known s) {x | x ∈ xs} needs gains) ∧
      es.Perm (xs.map (w.verdict t)) ∧ w.drain fuel s xs = runFrom w.apply s es := by
  obtain ⟨settled, left, hperm, hguard, hleft, hdrain⟩ := drain_split (w := w) (s := s) hfuel
  refine ⟨runFrom w.apply s (settled.map .settled), _, subset_antisymm ?_ ?_, ?_, hdrain⟩
  · have hfixed := (gained (known s) {x | x ∈ xs} needs gains).map_lfp
    refine hw.known_subset_of_closed ?_ ?_ hguard
    · rw [← hfixed]
      exact Set.subset_union_left
    · intro x hx hneeds i hi
      rw [← hfixed]
      exact .inr ⟨x, hperm.subset (List.mem_append_left _ hx), hneeds, hi⟩
  · apply OrderHom.lfp_le
    rintro i (hstart | ⟨x, hx, hneeds, hi⟩)
    · exact hw.known_subset settled hstart
    · rcases List.mem_append.mp (hperm.symm.subset hx) with hsettled | hmem
      · exact hw.gains_subset hsettled hi
      · obtain ⟨q, hq, rfl⟩ := List.mem_map.mp hmem
        have hnone := (hw.waits_none _ q.1).mpr hneeds
        rw [hleft q hq] at hnone
        cases hnone
  · have hsettled : ∀ x ∈ settled,
        w.verdict (runFrom w.apply s (settled.map .settled)) x = .settled x := by
      intro x hx
      rw [verdict, (hw.waits_none _ x).mpr (hw.needs_subset hguard hx)]
    have hgiven : ∀ q ∈ left,
        w.verdict (runFrom w.apply s (settled.map .settled)) q.1 = .gaveUp q.1 q.2 := by
      intro q hq
      rw [verdict, hleft q hq]
    refine .trans (.of_eq ?_) (hperm.map _)
    rw [List.map_append, List.map_map, List.map_congr_left hsettled]
    congr 1
    exact (List.map_congr_left hgiven).symm

/-- Two orders of one worklist make the same settlements. -/
theorem Saturates.drain_perm (hw : w.Saturates known needs gains) {ys : List α}
    (h : xs.Perm ys) :
    ∃ t es es', known t = OrderHom.lfp (gained (known s) {x | x ∈ ys} needs gains) ∧
      es.Perm (xs.map (w.verdict t)) ∧ es.Perm es' ∧
      w.drain xs.length s xs = runFrom w.apply s es ∧
      w.drain ys.length s ys = runFrom w.apply s es' := by
  obtain ⟨t, es, ht, hes, hdrain⟩ := @drain_lfp _ _ _ _ w s xs _ _ _ hw _ le_rfl
  obtain ⟨t', es', ht', hes', hdrain'⟩ := @drain_lfp _ _ _ _ w s ys _ _ _ hw _ le_rfl
  have hsame : {x | x ∈ xs} = {x | x ∈ ys} := Set.ext fun _ => h.mem_iff
  rw [hsame] at ht
  have hverdict : w.verdict t = w.verdict t' := by
    funext x
    rw [verdict, verdict, hw.waits_known t t' x (ht.trans ht'.symm)]
  have hperm : es.Perm es' := by
    rw [hverdict] at hes
    exact hes.trans ((h.map _).trans hes'.symm)
  exact ⟨t, es, es', ht, hes, hperm, hdrain, hdrain'⟩

end Facts

end WaitLocalAgent.Foundation.Worklist
