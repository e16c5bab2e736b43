import WaitLocalAgent.Foundation.Program

/-! # Crews of workers

The workers of a crew are started one after the other and never joined. Each performs its own
program, beside all that were started before and after it. -/

namespace WaitLocalAgent.Foundation

/-- A shared state, and the workers in the order of their calls with what is left of their
programs. -/
structure Crew (κ σ A : Type) (R : A → Type) (α : Type) where
  shared : σ
  workers : List (κ × Program A R α)

inductive CrewStep (κ ι : Type) where
  | start (call : κ)
  | act (i : ℕ) (input : ι)

namespace Crew

variable {κ σ ι A M : Type} {R : A → Type} {α : Type}

def call? (c : Crew κ σ A R α) (i : ℕ) : Option κ := c.workers[i]?.map Prod.fst

/-- The action that a worker is about to perform. -/
def next? (c : Crew κ σ A R α) (i : ℕ) : Option A := c.workers[i]?.bind fun w => w.2.head?

def later (c : Crew κ σ A R α) (i : ℕ) : List (κ × Program A R α) := c.workers.drop (i + 1)

theorem mem_later {c : Crew κ σ A R α} {i : ℕ} {w : κ × Program A R α} :
    w ∈ c.later i ↔ ∃ j, i < j ∧ c.workers[j]? = some w := by
  simp only [later, List.mem_iff_getElem?, List.getElem?_drop]
  constructor
  · rintro ⟨n, hn⟩
    exact ⟨i + 1 + n, by omega, hn⟩
  · rintro ⟨j, hj, hw⟩
    exact ⟨j - (i + 1), by rwa [Nat.add_sub_cancel' hj]⟩

/-- No worker has anything left to do. -/
def Finished (c : Crew κ σ A R α) : Prop := ∀ i, c.next? i = none

def step (answer : (a : A) → σ → ι → R a × σ) (program : κ → Program A R α)
    (c : Crew κ σ A R α) : CrewStep κ ι → Crew κ σ A R α
  | .start call => { c with workers := c.workers ++ [(call, program call)] }
  | .act i input =>
      match c.workers[i]? with
      | some (call, .act a next) =>
          let (r, shared) := answer a c.shared input
          { shared, workers := c.workers.set i (call, next r) }
      | _ => c

/-- Every worker follows the protocol of its call from its mode; who is still to come is idle. -/
structure Tracks (protocol : κ → Program.Protocol M A R) (Q : M → α → Prop) (idle : M)
    (c : Crew κ σ A R α) (modes : ℕ → M) : Prop where
  follows : ∀ i call left, c.workers[i]? = some (call, left) →
    Program.Follows (protocol call) Q (modes i) left
  idle : ∀ i, c.workers.length ≤ i → modes i = idle

section Tracks

variable {protocol : κ → Program.Protocol M A R} {Q : M → α → Prop} {idle : M}
  {c : Crew κ σ A R α} {modes : ℕ → M}

theorem Tracks.start {call : κ} {left : Program A R α} (h : Tracks protocol Q idle c modes)
    (hleft : Program.Follows (protocol call) Q idle left) :
    Tracks protocol Q idle { c with workers := c.workers ++ [(call, left)] } modes := by
  refine ⟨?_, ?_⟩
  · intro i k rest hi
    rcases Nat.lt_trichotomy i c.workers.length with hlt | rfl | hgt
    · rw [List.getElem?_append_left hlt] at hi
      exact h.follows i k rest hi
    · rw [List.getElem?_concat_length, Option.some.injEq] at hi
      cases hi
      rwa [h.idle _ (Nat.le_refl _)]
    · have hnone : (c.workers ++ [(call, left)])[i]? = none := by
        rw [List.getElem?_eq_none_iff, List.length_append, List.length_singleton]
        omega
      rw [hnone] at hi
      cases hi
  · intro i hi
    have hi : c.workers.length + 1 ≤ i := by simpa using hi
    exact h.idle i (by omega)

theorem Tracks.act {call : κ} {left : Program A R α} {shared : σ} {i : ℕ} {mode : M}
    (h : Tracks protocol Q idle c modes) (hi : i < c.workers.length)
    (hleft : Program.Follows (protocol call) Q mode left) :
    Tracks protocol Q idle { shared, workers := c.workers.set i (call, left) }
      (Function.update modes i mode) := by
  refine ⟨?_, ?_⟩
  · intro j k rest hj
    by_cases hji : j = i
    · subst hji
      rw [List.getElem?_set_self hi, Option.some.injEq] at hj
      cases hj
      rwa [Function.update_self]
    · rw [List.getElem?_set_ne (Ne.symm hji)] at hj
      rw [Function.update_of_ne hji]
      exact h.follows j k rest hj
  · intro j hj
    have hj : c.workers.length ≤ j := by simpa using hj
    rw [Function.update_of_ne (by omega)]
    exact h.idle j hj

/-- The worker is about to perform an action that it is allowed, or has ended as it should. -/
theorem Tracks.cases {i : ℕ} {call : κ} (h : Tracks protocol Q idle c modes)
    (hi : c.call? i = some call) :
    (∃ a, c.next? i = some a ∧ (protocol call).allowed (modes i) a) ∨
      c.next? i = none ∧ ∃ result, Q (modes i) result := by
  obtain ⟨⟨k, left⟩, hworker, rfl⟩ := Option.map_eq_some_iff.mp hi
  have hfollows := h.follows i k left hworker
  cases left with
  | done result => exact .inr ⟨by simp [next?, hworker, Program.head?], result, hfollows⟩
  | act a next => exact .inl ⟨a, by simp [next?, hworker, Program.head?], hfollows.1⟩

end Tracks

/-- Any interleaving of the workers of calls that are made at any time. -/
def machine (answer : (a : A) → σ → ι → R a × σ) (program : κ → Program A R α) (init : σ) :
    Machine (Crew κ σ A R α) (CrewStep κ ι) where
  init := { shared := init, workers := [] }
  step := Crew.step answer program

variable {answer : (a : A) → σ → ι → R a × σ} {program : κ → Program A R α}
  {protocol : κ → Program.Protocol M A R} {Q : M → α → Prop} {idle : M}

theorem call?_start (c : Crew κ σ A R α) (call : κ) :
    (Crew.step answer program c (.start call)).call? =
      Function.update c.call? c.workers.length (some call) := by
  funext i
  simp only [Crew.step, call?]
  rcases Nat.lt_trichotomy i c.workers.length with hlt | rfl | hgt
  · rw [Function.update_of_ne (by omega), List.getElem?_append_left hlt]
    rfl
  · simp
  · rw [Function.update_of_ne (by omega)]
    rw [call?, List.getElem?_eq_none_iff.mpr (Nat.le_of_lt hgt), List.getElem?_eq_none_iff.mpr]
    rw [List.length_append, List.length_singleton]
    omega

theorem call?_set {c : Crew κ σ A R α} {i : ℕ} {call : κ} {left rest : Program A R α} {s : σ}
    (hi : c.workers[i]? = some (call, left)) :
    ({ shared := s, workers := c.workers.set i (call, rest) } : Crew κ σ A R α).call? =
      c.call? := by
  funext j
  by_cases hji : j = i
  · subst hji
    simp only [call?, hi, List.getElem?_set_self (List.getElem?_eq_some_iff.mp hi).1]
    rfl
  · simp [call?, List.getElem?_set_ne (Ne.symm hji)]

/-- What is kept by new calls, and by every allowed action that meets the guard, holds in every
state that is reached. -/
theorem machine_invariant {G : Crew κ σ A R α → CrewStep κ ι → Prop}
    {I : (ℕ → Option κ) → σ → (ℕ → M) → Prop} {init : σ}
    (hprogram : ∀ call, Program.Follows (protocol call) Q idle (program call))
    (hinit : I (fun _ => none) init fun _ => idle)
    (hstart : ∀ calls s modes n call, I calls s modes → (∀ i, n ≤ i → calls i = none) →
      (∀ i, n ≤ i → modes i = idle) → I (Function.update calls n (some call)) s modes)
    (hact : ∀ c modes i call a input, Tracks protocol Q idle c modes →
      I c.call? c.shared modes → c.call? i = some call → c.next? i = some a →
      (protocol call).allowed (modes i) a → G c (.act i input) →
      I c.call? (answer a c.shared input).2 (Function.update modes i
        ((protocol call).move (modes i) a (answer a c.shared input).1)))
    {ls : List (CrewStep κ ι)} (hg : (machine answer program init).Guarded G ls) :
    ∃ modes, Tracks protocol Q idle ((machine answer program init).run ls) modes ∧
      I ((machine answer program init).run ls).call?
        ((machine answer program init).run ls).shared modes := by
  have hidle : Tracks protocol Q idle (machine answer program init).init fun _ => idle :=
    ⟨by simp [machine], fun _ _ => rfl⟩
  refine Machine.run_invariant_of_guarded
    (I := fun c : Crew κ σ A R α =>
      ∃ modes, Tracks protocol Q idle c modes ∧ I c.call? c.shared modes)
    ⟨fun _ => idle, hidle, hinit⟩ ?_ hg
  rintro c l ⟨modes, htracks, hI⟩ hguard
  cases l with
  | start call =>
      refine ⟨modes, htracks.start (hprogram call), ?_⟩
      show I (Crew.step answer program c (.start call)).call? c.shared modes
      rw [call?_start]
      exact hstart _ _ _ _ call hI (fun i hi => by simp [call?, hi]) htracks.idle
  | act i input =>
      simp only [machine, Crew.step]
      cases hi : c.workers[i]? with
      | none => exact ⟨modes, htracks, hI⟩
      | some worker =>
          obtain ⟨call, left⟩ := worker
          cases left with
          | done result => exact ⟨modes, htracks, hI⟩
          | act a next =>
              have hfollows := htracks.follows i call _ hi
              have hlt : i < c.workers.length := (List.getElem?_eq_some_iff.mp hi).1
              refine ⟨_, htracks.act hlt (hfollows.2 (answer a c.shared input).1), ?_⟩
              rw [call?_set hi]
              refine hact c modes i call a input htracks hI ?_ ?_ hfollows.1 hguard
              · simp [call?, hi]
              · simp [next?, hi, Program.head?]

end Crew

end WaitLocalAgent.Foundation
