import Mathlib

/-! # Labelled machines

A machine is run by a list of calls. Whatever a call depends on beyond the state (arguments,
clocks, answers of other components) is carried by its label, so a step is a function. -/

namespace WaitLocalAgent.Foundation

variable {σ ℓ : Type*} {G : σ → ℓ → Prop} {I : σ → Prop}

section Runs

variable (step : σ → ℓ → σ)

def runFrom (s : σ) (ls : List ℓ) : σ := ls.foldl step s

/-- Every call of the run from `s` meets `G` in the state in which it is made. -/
def GuardedFrom (G : σ → ℓ → Prop) : σ → List ℓ → Prop
  | _, [] => True
  | s, l :: ls => G s l ∧ GuardedFrom G (step s l) ls

instance decidableGuardedFrom (G : σ → ℓ → Prop) [∀ s l, Decidable (G s l)] :
    ∀ (s : σ) (ls : List ℓ), Decidable (GuardedFrom step G s ls)
  | _, [] => inferInstanceAs (Decidable True)
  | s, l :: ls =>
      haveI := decidableGuardedFrom G (step s l) ls
      inferInstanceAs (Decidable (G s l ∧ GuardedFrom step G (step s l) ls))

@[simp] theorem runFrom_nil (s : σ) : runFrom step s [] = s := rfl

@[simp] theorem runFrom_cons (s : σ) (l : ℓ) (ls : List ℓ) :
    runFrom step s (l :: ls) = runFrom step (step s l) ls := rfl

theorem runFrom_append (s : σ) (ls ks : List ℓ) :
    runFrom step s (ls ++ ks) = runFrom step (runFrom step s ls) ks := by
  simp [runFrom]

@[simp] theorem guardedFrom_nil (G : σ → ℓ → Prop) (s : σ) : GuardedFrom step G s [] := trivial

@[simp] theorem guardedFrom_cons (G : σ → ℓ → Prop) (s : σ) (l : ℓ) (ls : List ℓ) :
    GuardedFrom step G s (l :: ls) ↔ G s l ∧ GuardedFrom step G (step s l) ls := Iff.rfl

theorem guardedFrom_append (G : σ → ℓ → Prop) (s : σ) (ls ks : List ℓ) :
    GuardedFrom step G s (ls ++ ks) ↔
      GuardedFrom step G s ls ∧ GuardedFrom step G (runFrom step s ls) ks := by
  induction ls generalizing s with
  | nil => simp
  | cons l ls ih => simp [ih, and_assoc]

variable {step}

theorem GuardedFrom.imp_of_mem {G H : σ → ℓ → Prop} {s : σ} {ls : List ℓ}
    (hg : GuardedFrom step G s ls) (h : ∀ s, ∀ l ∈ ls, G s l → H s l) :
    GuardedFrom step H s ls := by
  induction ls generalizing s with
  | nil => trivial
  | cons l ls ih =>
      exact ⟨h s l List.mem_cons_self hg.1,
        ih hg.2 fun s k hk => h s k (List.mem_cons_of_mem l hk)⟩

/-- A step lemma for guarded calls gives the run lemma for guarded runs. -/
theorem runFrom_invariant
    (hstep : ∀ s l, I s → G s l → I (step s l)) {s : σ} {ls : List ℓ}
    (hs : I s) (hg : GuardedFrom step G s ls) : I (runFrom step s ls) := by
  induction ls generalizing s with
  | nil => exact hs
  | cons l ls ih => exact ih (hstep s l hs hg.1) hg.2

theorem runFrom_invariant_of_step (hstep : ∀ s l, I s → I (step s l))
    {s : σ} (hs : I s) (ls : List ℓ) : I (runFrom step s ls) := by
  induction ls generalizing s with
  | nil => exact hs
  | cons l ls ih => exact ih (hstep s l hs)

theorem runFrom_counted {I : ℕ → σ → Prop}
    (hstep : ∀ n s l, I n s → G s l → I (n + 1) (step s l)) {n : ℕ} {s : σ} {ls : List ℓ}
    (hs : I n s) (hg : GuardedFrom step G s ls) : I (n + ls.length) (runFrom step s ls) := by
  induction ls generalizing n s with
  | nil => exact hs
  | cons l ls ih =>
      have hrun := ih (hstep n s l hs hg.1) hg.2
      rwa [Nat.add_right_comm] at hrun

/-- A preorder that every step climbs is climbed by every run. -/
theorem runFrom_relation {R : σ → σ → Prop} (hrefl : ∀ s, R s s)
    (htrans : ∀ s t u, R s t → R t u → R s u) (hinv : ∀ s l, I s → I (step s l))
    (hstep : ∀ s l, I s → R s (step s l)) {s : σ} (hs : I s) (ls : List ℓ) :
    R s (runFrom step s ls) := by
  induction ls generalizing s with
  | nil => exact hrefl s
  | cons l ls ih => exact htrans _ _ _ (hstep s l hs) (ih (hinv s l hs))

/-- What every call keeps, unless it is an event `E`, is kept by a run without that event. -/
theorem runFrom_or_exists_event {E : σ → ℓ → Prop}
    (hstep : ∀ s l, I s → E s l ∨ I (step s l)) {s : σ} (hs : I s) (ls : List ℓ) :
    I (runFrom step s ls) ∨ ∃ as l bs, ls = as ++ l :: bs ∧ E (runFrom step s as) l := by
  induction ls generalizing s with
  | nil => exact .inl hs
  | cons l ls ih =>
      rcases hstep s l hs with hE | hI
      · exact .inr ⟨[], l, ls, rfl, hE⟩
      · rcases ih hI with hrun | ⟨as, k, bs, rfl, hE⟩
        · exact .inl hrun
        · exact .inr ⟨l :: as, k, bs, rfl, hE⟩

end Runs

structure Machine (σ ℓ : Type*) where
  init : σ
  step : σ → ℓ → σ

namespace Machine

variable (m : Machine σ ℓ)

/-- The state reached by the calls `ls` from the initial state. -/
def run (ls : List ℓ) : σ := runFrom m.step m.init ls

def Guarded (G : σ → ℓ → Prop) (ls : List ℓ) : Prop := GuardedFrom m.step G m.init ls

instance decidableGuarded (G : σ → ℓ → Prop) [∀ s l, Decidable (G s l)] (ls : List ℓ) :
    Decidable (m.Guarded G ls) :=
  inferInstanceAs (Decidable (GuardedFrom m.step G m.init ls))

@[simp] theorem run_nil : m.run [] = m.init := rfl

theorem run_append (ls ks : List ℓ) : m.run (ls ++ ks) = runFrom m.step (m.run ls) ks :=
  runFrom_append m.step m.init ls ks

theorem run_concat (ls : List ℓ) (l : ℓ) : m.run (ls ++ [l]) = m.step (m.run ls) l := by
  simp [run_append]

theorem guarded_concat (G : σ → ℓ → Prop) (ls : List ℓ) (l : ℓ) :
    m.Guarded G (ls ++ [l]) ↔ m.Guarded G ls ∧ G (m.run ls) l := by
  simp [Guarded, run, guardedFrom_append]

variable {m}

theorem run_invariant_of_guarded (hinit : I m.init)
    (hstep : ∀ s l, I s → G s l → I (m.step s l)) {ls : List ℓ} (hg : m.Guarded G ls) :
    I (m.run ls) :=
  runFrom_invariant hstep hinit hg

theorem run_invariant (hinit : I m.init)
    (hstep : ∀ s l, I s → I (m.step s l)) (ls : List ℓ) : I (m.run ls) :=
  runFrom_invariant_of_step hstep hinit ls

/-- When a call keeps `I` exactly if it meets `G`, a run stays inside `I` exactly if it is
guarded by `G`. -/
theorem forall_prefix_iff_guarded {I J : σ → Prop} (hI : I m.init)
    (hJ : J m.init) (hJstep : ∀ s l, J s → J (m.step s l))
    (hexact : ∀ s l, J s → I s → (I (m.step s l) ↔ G s l)) (ls : List ℓ) :
    (∀ ks, ks <+: ls → I (m.run ks)) ↔ m.Guarded G ls := by
  induction ls using List.reverseRecOn with
  | nil => simpa [Guarded] using hI
  | append_singleton ls l ih =>
      have hJls : J (m.run ls) := run_invariant hJ hJstep ls
      rw [guarded_concat, ← ih]
      constructor
      · intro h
        have hpre : ∀ ks, ks <+: ls → I (m.run ks) :=
          fun ks hk => h ks (hk.trans (List.prefix_append ls [l]))
        have hlast : I (m.run (ls ++ [l])) := h _ (List.prefix_refl _)
        rw [run_concat] at hlast
        exact ⟨hpre, (hexact _ l hJls (hpre ls (List.prefix_refl _))).mp hlast⟩
      · rintro ⟨hpre, hG⟩ ks hk
        rcases List.prefix_concat_iff.mp hk with rfl | hk
        · rw [run_concat]
          exact (hexact _ l hJls (hpre ls (List.prefix_refl _))).mpr hG
        · exact hpre ks hk

/-- When a call keeps the relation `R` exactly if it meets `G`, `R` holds between the states of a
run exactly if the run is guarded by `G`. -/
theorem forall_prefixes_iff_guarded {R : σ → σ → Prop} {J : σ → Prop}
    (hR : R m.init m.init) (htrans : ∀ s t u, R s t → R t u → R s u)
    (hrefl : ∀ s t, R s t → R t t) (hJ : J m.init) (hJstep : ∀ s l, J s → J (m.step s l))
    (hexact : ∀ s l, J s → R s s → (R s (m.step s l) ↔ G s l)) (ls : List ℓ) :
    (∀ ks ms, ks <+: ms → ms <+: ls → R (m.run ks) (m.run ms)) ↔ m.Guarded G ls := by
  induction ls using List.reverseRecOn with
  | nil =>
      refine iff_of_true ?_ trivial
      intro ks ms hk hm
      obtain rfl := List.prefix_nil.mp hm
      obtain rfl := List.prefix_nil.mp hk
      exact hR
  | append_singleton ls l ih =>
      have hJls : J (m.run ls) := run_invariant hJ hJstep ls
      rw [guarded_concat, ← ih]
      constructor
      · intro h
        have hpre : ∀ ks ms, ks <+: ms → ms <+: ls → R (m.run ks) (m.run ms) :=
          fun ks ms hk hm => h ks ms hk (hm.trans (List.prefix_append ls [l]))
        have hself : R (m.run ls) (m.run ls) := hpre ls ls (List.prefix_refl _) (List.prefix_refl _)
        have hlast := h ls (ls ++ [l]) (List.prefix_append ls [l]) (List.prefix_refl _)
        rw [run_concat] at hlast
        exact ⟨hpre, (hexact _ l hJls hself).mp hlast⟩
      · rintro ⟨hpre, hG⟩ ks ms hk hm
        have hself : R (m.run ls) (m.run ls) := hpre ls ls (List.prefix_refl _) (List.prefix_refl _)
        have hlast : R (m.run ls) (m.run (ls ++ [l])) := by
          rw [run_concat]
          exact (hexact _ l hJls hself).mpr hG
        rcases List.prefix_concat_iff.mp hm with rfl | hm
        · rcases List.prefix_concat_iff.mp hk with rfl | hk
          · exact hrefl _ _ hlast
          · exact htrans _ _ _ (hpre ks ls hk (List.prefix_refl _)) hlast
        · exact hpre ks ms hk hm

end Machine

end WaitLocalAgent.Foundation
