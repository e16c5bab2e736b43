import WaitLocalAgent.Foundation.Machine

/-! # Draining a worklist

Items that cannot be settled yet wait for the next sweep. The loop ends when nothing waits, or
when a whole sweep settles nothing: then every item left is given up with the reason it waits. -/

namespace WaitLocalAgent.Foundation

structure Worklist (σ α β : Type*) where
  /-- Why the item has to wait in this state; `none` when it can be settled. -/
  waits : σ → α → Option β
  settle : σ → α → σ
  giveUp : σ → α → β → σ

/-- The progress of one sweep over the pending items. -/
structure Sweep (σ α β : Type*) where
  state : σ
  progressed : Bool
  waiting : List (α × β)

inductive Settlement (α β : Type*) where
  | settled (item : α)
  | gaveUp (item : α) (reason : β)

namespace Settlement

variable {α β : Type*}

def item : Settlement α β → α
  | settled x => x
  | gaveUp x _ => x

@[simp] theorem item_settled (x : α) : (settled x : Settlement α β).item = x := rfl

@[simp] theorem item_gaveUp (x : α) (b : β) : (gaveUp x b).item = x := rfl

end Settlement

namespace Worklist

variable {σ α β : Type*} (w : Worklist σ α β)

def visit (s : Sweep σ α β) (x : α) : Sweep σ α β :=
  match w.waits s.state x with
  | some reason => { s with waiting := s.waiting ++ [(x, reason)] }
  | none => { s with state := w.settle s.state x, progressed := true }

def sweepFrom (s : Sweep σ α β) (xs : List α) : Sweep σ α β := xs.foldl w.visit s

def sweep (s : σ) (xs : List α) : Sweep σ α β := w.sweepFrom ⟨s, false, []⟩ xs

/-- The loop; every sweep that lets it go on shortens the worklist, so the length of the
worklist is fuel enough. -/
def drain : ℕ → σ → List α → σ
  | _, s, [] => s
  | 0, s, _ => s
  | fuel + 1, s, x :: xs =>
      let swept := w.sweep s (x :: xs)
      if swept.progressed then drain fuel swept.state (swept.waiting.map Prod.fst)
      else swept.waiting.foldl (fun t p => w.giveUp t p.1 p.2) swept.state

def apply (s : σ) : Settlement α β → σ
  | .settled x => w.settle s x
  | .gaveUp x reason => w.giveUp s x reason

@[simp] theorem apply_settled (s : σ) (x : α) : w.apply s (.settled x) = w.settle s x := rfl

@[simp] theorem apply_gaveUp (s : σ) (x : α) (reason : β) :
    w.apply s (.gaveUp x reason) = w.giveUp s x reason := rfl

/-- An item is settled only in a state in which it does not wait, and given up only for a
reason it waited for. -/
def Admissible (s : σ) : Settlement α β → Prop
  | .settled x => w.waits s x = none
  | .gaveUp x reason => ∃ t, w.waits t x = some reason

variable {w}

theorem sweepFrom_waiting_length (s : Sweep σ α β) (xs : List α) :
    (w.sweepFrom s xs).waiting.length ≤ s.waiting.length + xs.length := by
  induction xs generalizing s with
  | nil => simp [sweepFrom]
  | cons x xs ih =>
      have hx : (w.visit s x).waiting.length ≤ s.waiting.length + 1 := by
        unfold visit
        split <;> simp
      have htail := ih (w.visit s x)
      simp only [sweepFrom, List.foldl_cons, List.length_cons] at htail ⊢
      omega

theorem sweepFrom_shortens {s : Sweep σ α β} {xs : List α} (hs : s.progressed = false)
    (h : (w.sweepFrom s xs).progressed = true) :
    (w.sweepFrom s xs).waiting.length < s.waiting.length + xs.length := by
  induction xs generalizing s with
  | nil => simp [sweepFrom, hs] at h
  | cons x xs ih =>
      cases hw : w.waits s.state x with
      | none =>
          have hv : w.visit s x = { s with state := w.settle s.state x, progressed := true } := by
            simp [visit, hw]
          have htail := sweepFrom_waiting_length (w := w) (w.visit s x) xs
          simp only [sweepFrom, List.foldl_cons, List.length_cons, hv] at htail ⊢
          omega
      | some reason =>
          have hv : w.visit s x = { s with waiting := s.waiting ++ [(x, reason)] } := by
            simp [visit, hw]
          have hprog : (w.visit s x).progressed = false := by simp [hv, hs]
          have htail := ih hprog (by simpa [sweepFrom] using h)
          simp only [sweepFrom, List.foldl_cons, List.length_cons, hv, List.length_append,
            List.length_nil] at htail ⊢
          omega

theorem sweep_shortens {s : σ} {xs : List α} (h : (w.sweep s xs).progressed = true) :
    (w.sweep s xs).waiting.length < xs.length := by
  simpa [sweep] using sweepFrom_shortens rfl h

theorem giveUp_replay (s : σ) (ps : List (α × β)) :
    ps.foldl (fun t p => w.giveUp t p.1 p.2) s =
      runFrom w.apply s (ps.map fun p => .gaveUp p.1 p.2) := by
  simp [runFrom, List.foldl_map]

theorem sweepFrom_waits {s : Sweep σ α β} {xs : List α}
    (hs : ∀ q ∈ s.waiting, ∃ t, w.waits t q.1 = some q.2) :
    ∀ q ∈ (w.sweepFrom s xs).waiting, ∃ t, w.waits t q.1 = some q.2 := by
  induction xs generalizing s with
  | nil => exact hs
  | cons x xs ih =>
      apply ih
      intro q hq
      unfold visit at hq
      split at hq
      · rename_i reason hw
        rcases List.mem_append.mp hq with hq | hq
        · exact hs q hq
        · have hqx : q = (x, reason) := by simpa using hq
          exact ⟨s.state, by rw [hqx, hw]⟩
      · exact hs q hq

theorem guardedFrom_gaveUp {ps : List (α × β)} (s : σ)
    (h : ∀ q ∈ ps, ∃ t, w.waits t q.1 = some q.2) :
    GuardedFrom w.apply w.Admissible s (ps.map fun q => .gaveUp q.1 q.2) := by
  induction ps generalizing s with
  | nil => trivial
  | cons q ps ih =>
      exact ⟨h q List.mem_cons_self, ih _ fun q' hq' => h q' (List.mem_cons_of_mem _ hq')⟩

/-- What one sweep does is a run of the settlements it makes. -/
theorem sweepFrom_replay (s : Sweep σ α β) (xs : List α) :
    ∃ settled : List α,
      GuardedFrom w.apply w.Admissible s.state (settled.map .settled) ∧
      (w.sweepFrom s xs).state = runFrom w.apply s.state (settled.map .settled) ∧
      (settled ++ (w.sweepFrom s xs).waiting.map Prod.fst).Perm
        (s.waiting.map Prod.fst ++ xs) := by
  induction xs generalizing s with
  | nil => exact ⟨[], by simp [sweepFrom]⟩
  | cons x xs ih =>
      obtain ⟨settled, hguard, hstate, hperm⟩ := ih (w.visit s x)
      cases hw : w.waits s.state x with
      | none =>
          have hv : w.visit s x = { s with state := w.settle s.state x, progressed := true } := by
            simp [visit, hw]
          rw [hv] at hguard hstate hperm
          refine ⟨x :: settled, ⟨hw, hguard⟩, ?_, ?_⟩
          · simpa [sweepFrom, hv] using hstate
          · simp only [sweepFrom, List.foldl_cons, hv, List.cons_append] at hperm ⊢
            exact (hperm.cons x).trans List.perm_middle.symm
      | some reason =>
          have hv : w.visit s x = { s with waiting := s.waiting ++ [(x, reason)] } := by
            simp [visit, hw]
          rw [hv] at hguard hstate hperm
          refine ⟨settled, hguard, ?_, ?_⟩
          · simpa [sweepFrom, hv] using hstate
          · simpa [sweepFrom, hv] using hperm

/-- The loop settles or gives up every item of the worklist, each exactly once. -/
theorem drain_replay {fuel : ℕ} (s : σ) (xs : List α) (hfuel : xs.length ≤ fuel) :
    ∃ es : List (Settlement α β),
      (es.map Settlement.item).Perm xs ∧ GuardedFrom w.apply w.Admissible s es ∧
      w.drain fuel s xs = runFrom w.apply s es := by
  induction fuel generalizing s xs with
  | zero =>
      have hnil : xs = [] := by simpa using hfuel
      subst hnil
      exact ⟨[], by simp [drain]⟩
  | succ fuel ih =>
      cases xs with
      | nil => exact ⟨[], by simp [drain]⟩
      | cons x xs =>
          obtain ⟨settled, hguard, hstate, hperm⟩ :=
            sweepFrom_replay (w := w) ⟨s, false, []⟩ (x :: xs)
          change (w.sweep s (x :: xs)).state = _ at hstate
          change (settled ++ (w.sweep s (x :: xs)).waiting.map Prod.fst).Perm _ at hperm
          have hitems : (settled.map (Settlement.settled (β := β))).map Settlement.item =
              settled := by
            simp [Function.comp_def]
          simp only [drain]
          split
          · rename_i hp
            have hlen := sweep_shortens hp
            simp only [List.length_cons] at hlen hfuel
            obtain ⟨es, hes, hesg, heseq⟩ :=
              ih (w.sweep s (x :: xs)).state ((w.sweep s (x :: xs)).waiting.map Prod.fst)
                (by simp; omega)
            refine ⟨settled.map .settled ++ es, ?_, ?_, ?_⟩
            · rw [List.map_append, hitems]
              exact (hes.append_left settled).trans (by simpa using hperm)
            · rw [guardedFrom_append, ← hstate]
              exact ⟨hguard, hesg⟩
            · rw [runFrom_append, ← hstate, heseq]
          · refine ⟨settled.map .settled ++
              (w.sweep s (x :: xs)).waiting.map fun p => .gaveUp p.1 p.2, ?_, ?_, ?_⟩
            · rw [List.map_append, hitems]
              simpa [Function.comp_def] using hperm
            · rw [guardedFrom_append, ← hstate]
              exact ⟨hguard, guardedFrom_gaveUp _ (sweepFrom_waits (by simp))⟩
            · rw [runFrom_append, ← hstate, giveUp_replay]

end Worklist

end WaitLocalAgent.Foundation
