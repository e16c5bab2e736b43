import Mathlib

/-! # Calls that may raise

`Except ε` computations: what a successful call says about its parts. -/

namespace WaitLocalAgent.Foundation

variable {ε : Type*} {α β σ : Type _}

def raiseIf (condition : Prop) [Decidable condition] (error : ε) : Except ε Unit :=
  if condition then .error error else .ok ()

/-- A raised exception rolls back to `s`. -/
def committed (s : σ) : Except ε σ → σ
  | .ok s' => s'
  | .error _ => s

def raised? : Except ε α → Option ε
  | .error e => some e
  | .ok _ => none

variable {x : Except ε α}

theorem raised?_eq_some {e : ε} : raised? x = some e ↔ x = .error e := by
  cases x with
  | error e => simp [raised?]
  | ok a => simp [raised?]

theorem toOption_eq_some {a : α} : x.toOption = some a ↔ x = .ok a := by
  cases x with
  | error e => simp [Except.toOption]
  | ok b => simp [Except.toOption]

@[simp] theorem raiseIf_eq_ok {condition : Prop} [Decidable condition] {error : ε} {u : Unit} :
    raiseIf condition error = .ok u ↔ ¬ condition := by
  by_cases h : condition
  · simp [raiseIf, h]
  · simp [raiseIf, h]

theorem raiseIf_of_not {condition : Prop} [Decidable condition] {error : ε} (h : ¬ condition) :
    raiseIf condition error = .ok () :=
  raiseIf_eq_ok.mpr h

theorem ok_bind {a : α} {f : α → Except ε β} : (.ok a : Except ε α) >>= f = f a := rfl

theorem bind_eq_ok {f : α → Except ε β} {b : β} :
    x >>= f = .ok b ↔ ∃ a, x = .ok a ∧ f a = .ok b := by
  cases x with
  | error e => simp [bind, Except.bind]
  | ok a => simp [bind, Except.bind]

theorem bind_eq_error {f : α → Except ε β} {e : ε} :
    x >>= f = .error e ↔ x = .error e ∨ ∃ a, x = .ok a ∧ f a = .error e := by
  cases x with
  | error e => simp [bind, Except.bind]
  | ok a => simp [bind, Except.bind]

theorem pure_eq_ok {a b : α} : (pure a : Except ε α) = .ok b ↔ a = b := by
  simp [pure, Except.pure]

theorem map_eq_ok {f : α → β} {b : β} :
    x.map f = .ok b ↔ ∃ a, x = .ok a ∧ f a = b := by
  cases x with
  | error e => simp [Except.map]
  | ok a => simp [Except.map]

theorem exists_eq_ok (h : x.isOk = true) : ∃ a, x = .ok a := by
  cases x with
  | error e => cases h
  | ok a => exact ⟨a, rfl⟩

/-- A reflexive relation that the successful call climbs is climbed by the committed one. -/
theorem committed_relation {R : σ → σ → Prop} {s : σ} {x : Except ε σ} (hrefl : R s s)
    (h : ∀ s', x = .ok s' → R s s') : R s (committed s x) := by
  cases x with
  | error e => exact hrefl
  | ok s' => exact h s' rfl

/-- What a successful call preserves is preserved by the committed one. -/
theorem committed_invariant {I : σ → Prop} {s : σ} {x : Except ε σ}
    (h : ∀ s', x = .ok s' → I s → I s') (hs : I s) : I (committed s x) := by
  cases x with
  | error e => exact hs
  | ok s' => exact h s' rfl hs

theorem committed_map_invariant {I : σ → Prop} {s : σ} {f : α → σ}
    (h : ∀ a, x = .ok a → I s → I (f a)) (hs : I s) : I (committed s (x.map f)) := by
  refine committed_invariant ?_ hs
  intro s' hmap
  obtain ⟨a, ha, rfl⟩ := map_eq_ok.mp hmap
  exact h a ha

/-- What every round of a fallible loop preserves holds when the loop has run through. -/
theorem foldlM_invariant {f : σ → α → Except ε σ} {I : σ → Prop} {as : List α}
    (hstep : ∀ a ∈ as, ∀ s s', I s → f s a = .ok s' → I s') {s s' : σ} (hs : I s)
    (h : as.foldlM f s = .ok s') : I s' := by
  induction as generalizing s with
  | nil =>
      rw [List.foldlM_nil, pure_eq_ok] at h
      exact h ▸ hs
  | cons a as ih =>
      rw [List.foldlM_cons, bind_eq_ok] at h
      obtain ⟨t, ht, h⟩ := h
      have hkeep : I t := hstep a List.mem_cons_self s t hs ht
      exact ih (fun b hb => hstep b (List.mem_cons_of_mem a hb)) hkeep h

section MapM

variable {f : α → Except ε β} {as : List α} {bs : List β}

theorem mapM_cons_eq_ok {a : α} :
    (a :: as).mapM f = .ok bs ↔ ∃ b bs', f a = .ok b ∧ as.mapM f = .ok bs' ∧ bs = b :: bs' := by
  simp only [List.mapM_cons, bind_eq_ok, pure_eq_ok]
  constructor
  · rintro ⟨b, hb, bs', hbs', rfl⟩
    exact ⟨b, bs', hb, hbs', rfl⟩
  · rintro ⟨b, bs', hb, hbs', rfl⟩
    exact ⟨b, hb, bs', hbs', rfl⟩

/-- What every result says of its argument, the list of results says of the list of arguments. -/
theorem map_of_mapM {γ : Type _} {g : β → γ} {k : α → γ} (hf : ∀ a b, f a = .ok b → g b = k a)
    (h : as.mapM f = .ok bs) : bs.map g = as.map k := by
  induction as generalizing bs with
  | nil =>
      rw [List.mapM_nil, pure_eq_ok] at h
      subst h
      rfl
  | cons a as ih =>
      obtain ⟨b, bs', hb, hbs', rfl⟩ := mapM_cons_eq_ok.mp h
      simp [hf a b hb, ih hbs']

theorem length_of_mapM (h : as.mapM f = .ok bs) : as.length = bs.length := by
  induction as generalizing bs with
  | nil =>
      rw [List.mapM_nil, pure_eq_ok] at h
      simp [← h]
  | cons a as ih =>
      obtain ⟨b, bs', hb, hbs', rfl⟩ := mapM_cons_eq_ok.mp h
      simp [ih hbs']

theorem exists_of_mem_mapM (h : as.mapM f = .ok bs) : ∀ b ∈ bs, ∃ a ∈ as, f a = .ok b := by
  induction as generalizing bs with
  | nil =>
      rw [List.mapM_nil, pure_eq_ok] at h
      subst h
      simp
  | cons a as ih =>
      obtain ⟨b, bs', hb, hbs', rfl⟩ := mapM_cons_eq_ok.mp h
      intro c hc
      rcases List.mem_cons.mp hc with rfl | hc
      · exact ⟨a, List.mem_cons_self, hb⟩
      · obtain ⟨d, hd, hfd⟩ := ih hbs' c hc
        exact ⟨d, List.mem_cons_of_mem a hd, hfd⟩

theorem exists_mem_of_mapM (h : as.mapM f = .ok bs) : ∀ a ∈ as, ∃ b ∈ bs, f a = .ok b := by
  induction as generalizing bs with
  | nil => simp
  | cons a as ih =>
      obtain ⟨b, bs', hb, hbs', rfl⟩ := mapM_cons_eq_ok.mp h
      intro c hc
      rcases List.mem_cons.mp hc with rfl | hc
      · exact ⟨b, List.mem_cons_self, hb⟩
      · obtain ⟨d, hd, hfd⟩ := ih hbs' c hc
        exact ⟨d, List.mem_cons_of_mem b hd, hfd⟩

end MapM

/-- A fallible loop that raises does so in one round, after rounds that went through. -/
theorem exists_of_foldlM_eq_error {f : σ → α → Except ε σ} {as : List α} {s : σ} {e : ε}
    (h : as.foldlM f s = .error e) : ∃ before a after t, as = before ++ a :: after ∧
      before.foldlM f s = .ok t ∧ f t a = .error e := by
  induction as generalizing s with
  | nil => cases h
  | cons a as ih =>
      rw [List.foldlM_cons] at h
      cases hround : f s a with
      | error e' =>
          rw [hround] at h
          cases h
          exact ⟨[], a, as, s, rfl, rfl, hround⟩
      | ok t =>
          rw [hround, ok_bind] at h
          obtain ⟨before, b, after, u, rfl, hbefore, herror⟩ := ih h
          refine ⟨a :: before, b, after, u, rfl, ?_, herror⟩
          rw [List.foldlM_cons, hround, ok_bind, hbefore]

theorem forM_cons (f : α → Except ε PUnit) (a : α) (as : List α) :
    (a :: as).forM f = f a >>= fun _ => as.forM f := rfl

theorem forM_eq_ok {f : α → Except ε PUnit} {as : List α} {u : PUnit} :
    as.forM f = .ok u ↔ ∀ a ∈ as, f a = .ok u := by
  induction as with
  | nil => exact ⟨fun _ _ h => absurd h List.not_mem_nil, fun _ => rfl⟩
  | cons a as ih =>
      rw [forM_cons, bind_eq_ok, List.forall_mem_cons, ← ih]
      exact ⟨fun ⟨_, ha, has⟩ => ⟨ha, has⟩, fun ⟨ha, has⟩ => ⟨u, ha, has⟩⟩

section NeverRaises

variable {e : ε} {x : Except ε α} {f : α → Except ε β}

def NeverRaises (e : ε) (x : Except ε α) : Prop := x ≠ .error e

theorem neverRaises_ok (a : α) : NeverRaises e (.ok a : Except ε α) := nofun

theorem neverRaises_error {e' : ε} (h : e' ≠ e) : NeverRaises e (.error e' : Except ε α) := by
  intro herror
  cases herror
  exact h rfl

theorem neverRaises_raiseIf {condition : Prop} [Decidable condition] {e' : ε} (h : e' ≠ e) :
    NeverRaises e (raiseIf condition e') := by
  unfold raiseIf
  split
  · exact neverRaises_error h
  · exact neverRaises_ok ()

theorem NeverRaises.bind (hx : NeverRaises e x) (hf : ∀ a, NeverRaises e (f a)) :
    NeverRaises e (x >>= f) := by
  cases x with
  | error e' =>
      intro h
      cases h
      exact hx rfl
  | ok a => exact hf a

theorem neverRaises_forM {f : α → Except ε PUnit} (hf : ∀ a, NeverRaises e (f a))
    (as : List α) : NeverRaises e (as.forM f) := by
  induction as with
  | nil => exact neverRaises_ok _
  | cons a as ih =>
      rw [forM_cons]
      exact (hf a).bind fun _ => ih

theorem neverRaises_foldlM {f : σ → α → Except ε σ} (hf : ∀ s a, NeverRaises e (f s a))
    (as : List α) (s : σ) : NeverRaises e (as.foldlM f s) := by
  induction as generalizing s with
  | nil => exact neverRaises_ok s
  | cons a as ih =>
      rw [List.foldlM_cons]
      exact (hf s a).bind ih

theorem neverRaises_mapM (hf : ∀ a, NeverRaises e (f a)) (as : List α) :
    NeverRaises e (as.mapM f) := by
  induction as with
  | nil => exact neverRaises_ok _
  | cons a as ih =>
      rw [List.mapM_cons]
      exact (hf a).bind fun _ => ih.bind fun _ => neverRaises_ok _

end NeverRaises

end WaitLocalAgent.Foundation
