import WaitLocalAgent.Foundation.Program

/-! # Outcomes of a program

What a program ends with whatever its inputs are, and what it ends with for some of them. -/

namespace WaitLocalAgent.Foundation.Program

variable {A : Type} {R : A → Type} {α β σ ι ε : Type} (answer : (a : A) → σ → ι → R a × σ)

/-- Whatever its inputs, the program ends in `Q`. -/
def Must (Q : α → σ → Prop) : Program A R α → σ → Prop
  | done result, s => Q result s
  | act a next, s => ∀ input, Must Q (next (answer a s input).1) (answer a s input).2

/-- On some inputs, the program ends in `Q`. -/
def May (Q : α → σ → Prop) : Program A R α → σ → Prop
  | done result, s => Q result s
  | act a next, s => ∃ input, May Q (next (answer a s input).1) (answer a s input).2

variable {answer} {P Q : α → σ → Prop} {p : Program A R α} {s : σ}

theorem Must.imp (h : p.Must answer P s) (hQ : ∀ x s', P x s' → Q x s') : p.Must answer Q s := by
  induction p generalizing s with
  | done result => exact hQ result s h
  | act a next ih => exact fun input => ih _ (h input)

theorem Must.bind {f : α → Program A R β} {Q : β → σ → Prop} (h : p.Must answer P s)
    (hf : ∀ x s', P x s' → (f x).Must answer Q s') : (p >>= f).Must answer Q s := by
  induction p generalizing s with
  | done result => exact hf result s h
  | act a next ih => exact fun input => ih _ (h input)

theorem Must.bindExcept {p : ExceptT ε (Program A R) α} {f : α → ExceptT ε (Program A R) β}
    {P : Except ε α → σ → Prop} {Q : Except ε β → σ → Prop} (h : p.run.Must answer P s)
    (hf : ∀ x s', P (.ok x) s' → (f x).run.Must answer Q s')
    (herror : ∀ e s', P (.error e) s' → Q (.error e) s') :
    (p >>= f : ExceptT ε (Program A R) β).run.Must answer Q s := by
  refine Must.bind (p := p) h ?_
  intro result s' hresult
  cases result with
  | error e => exact herror e s' hresult
  | ok x => exact hf x s' hresult

theorem Must.run (h : p.Must answer Q s) (inputs : ℕ → ι) :
    Q (p.run answer inputs s).1 (p.run answer inputs s).2.1 := by
  induction p generalizing s inputs with
  | done result => exact h
  | act a next ih => exact ih _ (h (inputs 0)) _

theorem May.imp (h : p.May answer P s) (hQ : ∀ x s', P x s' → Q x s') : p.May answer Q s := by
  induction p generalizing s with
  | done result => exact hQ result s h
  | act a next ih =>
      obtain ⟨input, hnext⟩ := h
      exact ⟨input, ih _ hnext⟩

theorem May.bind {f : α → Program A R β} {Q : β → σ → Prop} (h : p.May answer P s)
    (hf : ∀ x s', P x s' → (f x).May answer Q s') : (p >>= f).May answer Q s := by
  induction p generalizing s with
  | done result => exact hf result s h
  | act a next ih =>
      obtain ⟨input, hnext⟩ := h
      exact ⟨input, ih _ hnext⟩

theorem May.bindExcept {p : ExceptT ε (Program A R) α} {f : α → ExceptT ε (Program A R) β}
    {P : Except ε α → σ → Prop} {Q : Except ε β → σ → Prop} (h : p.run.May answer P s)
    (hf : ∀ x s', P (.ok x) s' → (f x).run.May answer Q s')
    (herror : ∀ e s', ¬ P (.error e) s') :
    (p >>= f : ExceptT ε (Program A R) β).run.May answer Q s := by
  refine May.bind (p := p) h ?_
  intro result s' hresult
  cases result with
  | error e => exact absurd hresult (herror e s')
  | ok x => exact hf x s' hresult

/-- The first action alone gets the first input. -/
def consInput (input : ι) (inputs : ℕ → ι) : ℕ → ι
  | 0 => input
  | n + 1 => inputs n

theorem May.exists_run [Nonempty ι] (h : p.May answer Q s) :
    ∃ inputs : ℕ → ι, Q (p.run answer inputs s).1 (p.run answer inputs s).2.1 := by
  induction p generalizing s with
  | done result => exact ⟨fun _ => Classical.arbitrary ι, h⟩
  | act a next ih =>
      obtain ⟨input, hnext⟩ := h
      obtain ⟨inputs, hQ⟩ := ih _ hnext
      exact ⟨consInput input inputs, hQ⟩

def Performs (P : A → Prop) : Program A R α → Prop
  | done _ => True
  | act a next => P a ∧ ∀ r, Performs P (next r)

section Performs

variable {P P' : A → Prop}

theorem Performs.imp (h : p.Performs P) (hP : ∀ a, P a → P' a) : p.Performs P' := by
  induction p with
  | done result => trivial
  | act a next ih => exact ⟨hP a h.1, fun r => ih r (h.2 r)⟩

theorem Performs.bind {f : α → Program A R β} (h : p.Performs P) (hf : ∀ x, (f x).Performs P) :
    (p >>= f).Performs P := by
  induction p with
  | done result => exact hf result
  | act a next ih => exact ⟨h.1, fun r => ih r (h.2 r)⟩

theorem Performs.bindExcept {p : ExceptT ε (Program A R) α} {f : α → ExceptT ε (Program A R) β}
    (h : p.run.Performs P) (hf : ∀ x, (f x).run.Performs P) :
    (p >>= f : ExceptT ε (Program A R) β).run.Performs P := by
  refine Performs.bind (p := p) h ?_
  intro result
  cases result with
  | error e => trivial
  | ok x => exact hf x

theorem Performs.must {I : σ → Prop} (h : p.Performs P)
    (hI : ∀ a, P a → ∀ s input, I s → I (answer a s input).2) (hs : I s) :
    p.Must answer (fun _ s' => I s') s := by
  induction p generalizing s with
  | done result => exact hs
  | act a next ih => exact fun input => ih _ (h.2 _) (hI a h.1 s input hs)

/-- A program that performs actions which a mode allows, and which do not lead out of it. -/
theorem Performs.follows {M : Type} {protocol : Protocol M A R} {m : M} (h : p.Performs P)
    (hallowed : ∀ a, P a → protocol.allowed m a) (hmove : ∀ a, P a → ∀ r, protocol.move m a r = m) :
    Follows protocol (fun m' _ => m' = m) m p := by
  induction p with
  | done result => rfl
  | act a next ih =>
      refine ⟨hallowed a h.1, fun r => ?_⟩
      rw [hmove a h.1 r]
      exact ih r (h.2 r)

end Performs

end WaitLocalAgent.Foundation.Program
