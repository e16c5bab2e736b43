import WaitLocalAgent.Foundation.Machine

/-! # Programs of atomic actions

A program performs one atomic action after the other on a shared state. It is run alone, or beside
others by a pool of callers, and follows a protocol that says which actions are allowed when. -/

namespace WaitLocalAgent.Foundation

/-- A program over the actions `A`, where `a` is answered by a value of `R a`. -/
inductive Program (A : Type) (R : A → Type) (α : Type) where
  | done (result : α)
  | act (a : A) (next : R a → Program A R α)

namespace Program

variable {A : Type} {R : A → Type} {α β : Type}

def bind (p : Program A R α) (f : α → Program A R β) : Program A R β :=
  match p with
  | done result => f result
  | act a next => act a fun r => (next r).bind f

instance : Monad (Program A R) where
  pure := done
  bind := bind

def perform (a : A) : Program A R (R a) := act a done

@[simp] theorem pure_def (x : α) : (pure x : Program A R α) = done x := rfl

@[simp] theorem done_bind (x : α) (f : α → Program A R β) :
    (done x : Program A R α) >>= f = f x := rfl

@[simp] theorem act_bind (a : A) (next : R a → Program A R α) (f : α → Program A R β) :
    act a next >>= f = act a fun r => next r >>= f := rfl

theorem bind_done (p : Program A R α) : p.bind done = p := by
  induction p with
  | done result => rfl
  | act a next ih => exact congrArg (act a) (funext ih)

theorem bind_bind {γ : Type} (p : Program A R α) (f : α → Program A R β) (g : β → Program A R γ) :
    (p.bind f).bind g = p.bind fun x => (f x).bind g := by
  induction p with
  | done result => rfl
  | act a next ih => exact congrArg (act a) (funext ih)

instance : LawfulMonad (Program A R) :=
  LawfulMonad.mk' _ bind_done (fun _ _ => rfl) bind_bind

/-- The action that a program is about to perform. -/
def head? : Program A R α → Option A
  | done _ => none
  | act a _ => some a

/-! ## A program alone -/

section Run

variable {σ ι : Type} (answer : (a : A) → σ → ι → R a × σ)

/-- What a program returns, and the state and the inputs that it leaves. -/
def run : Program A R α → (ℕ → ι) → σ → α × σ × (ℕ → ι)
  | done result, inputs, s => (result, s, inputs)
  | act a next, inputs, s =>
      let (r, s') := answer a s (inputs 0)
      (next r).run (fun n => inputs (n + 1)) s'

@[simp] theorem run_done (x : α) (inputs : ℕ → ι) (s : σ) :
    (done x : Program A R α).run answer inputs s = (x, s, inputs) := rfl

theorem run_bind (p : Program A R α) (f : α → Program A R β) (inputs : ℕ → ι) (s : σ) :
    (p >>= f).run answer inputs s =
      (f (p.run answer inputs s).1).run answer (p.run answer inputs s).2.2
        (p.run answer inputs s).2.1 := by
  induction p generalizing inputs s with
  | done result => rfl
  | act a next ih => exact ih _ _ _

variable {answer} {ε : Type}

theorem run_bindExcept (p : ExceptT ε (Program A R) α) (f : α → ExceptT ε (Program A R) β)
    (inputs : ℕ → ι) (s : σ) :
    (p >>= f : ExceptT ε (Program A R) β).run.run answer inputs s =
      match p.run.run answer inputs s with
      | (.ok x, s', inputs') => (f x).run.run answer inputs' s'
      | (.error e, s', inputs') => (.error e, s', inputs') := by
  refine (run_bind answer p.run _ inputs s).trans ?_
  rcases p.run.run answer inputs s with ⟨result, s', inputs'⟩
  cases result with
  | ok x => rfl
  | error e => rfl

def OnlyReads (answer : (a : A) → σ → ι → R a × σ) (p : ExceptT ε (Program A R) α) : Prop :=
  ∀ inputs s, (p.run.run answer inputs s).2.1 = s

def RaisesClean (answer : (a : A) → σ → ι → R a × σ) (p : ExceptT ε (Program A R) α) : Prop :=
  ∀ inputs s e s' inputs', p.run.run answer inputs s = (.error e, s', inputs') → s' = s

theorem onlyReads_pure (x : α) :
    OnlyReads answer (pure x : ExceptT ε (Program A R) α) := fun _ _ => rfl

theorem onlyReads_throw (e : ε) :
    OnlyReads answer (throw e : ExceptT ε (Program A R) α) := fun _ _ => rfl

theorem RaisesClean.bind {p : ExceptT ε (Program A R) α} {f : α → ExceptT ε (Program A R) β}
    (hp : OnlyReads answer p) (hf : ∀ x, RaisesClean answer (f x)) :
    RaisesClean answer (p >>= f) := by
  intro inputs s e s₂ inputs₂ h
  have hs := hp inputs s
  rw [run_bindExcept] at h
  rcases hrun : p.run.run answer inputs s with ⟨result, s', inputs'⟩
  rw [hrun] at h hs
  cases result with
  | ok x => exact (hf x inputs' s' e s₂ inputs₂ h).trans hs
  | error e' =>
      cases h
      exact hs

theorem RaisesClean.bind_pure {p : ExceptT ε (Program A R) α} (hp : RaisesClean answer p)
    (g : α → β) : RaisesClean answer (p >>= fun x => (pure (g x) : ExceptT ε (Program A R) β)) := by
  intro inputs s e s₂ inputs₂ h
  rw [run_bindExcept] at h
  rcases hrun : p.run.run answer inputs s with ⟨result, s', inputs'⟩
  rw [hrun] at h
  cases result with
  | ok x => cases h
  | error e' =>
      cases h
      exact hp inputs s _ _ _ hrun

end Run

/-! ## Answers that the state determines -/

section Exec

variable {σ ε : Type} (answer : (a : A) → σ → R a × σ)

/-- What a program returns, and the state that it leaves. -/
def exec : Program A R α → σ → α × σ
  | done result, s => (result, s)
  | act a next, s => (next (answer a s).1).exec (answer a s).2

theorem exec_bind (p : Program A R α) (f : α → Program A R β) (s : σ) :
    (p >>= f).exec answer s = (f (p.exec answer s).1).exec answer (p.exec answer s).2 := by
  induction p generalizing s with
  | done result => rfl
  | act a next ih => exact ih _ _

theorem exec_bindExcept (p : ExceptT ε (Program A R) α) (f : α → ExceptT ε (Program A R) β)
    (s : σ) :
    (p >>= f : ExceptT ε (Program A R) β).run.exec answer s =
      match p.run.exec answer s with
      | (.ok x, s') => (f x).run.exec answer s'
      | (.error e, s') => (.error e, s') := by
  refine (exec_bind answer p.run _ s).trans ?_
  rcases p.run.exec answer s with ⟨result, s'⟩
  cases result with
  | ok x => rfl
  | error e => rfl

/-- Every action of the program meets the guard in the state in which it is performed. -/
def Meets (G : σ → A → Prop) : Program A R α → σ → Prop
  | done _, _ => True
  | act a next, s => G s a ∧ Meets G (next (answer a s).1) (answer a s).2

instance decidableMeets (G : σ → A → Prop) [∀ s a, Decidable (G s a)] :
    ∀ (p : Program A R α) (s : σ), Decidable (p.Meets answer G s)
  | done _, _ => inferInstanceAs (Decidable True)
  | act a next, s =>
      haveI := decidableMeets G (next (answer a s).1) (answer a s).2
      inferInstanceAs (Decidable (G s a ∧ (next (answer a s).1).Meets answer G (answer a s).2))

/-- The program ends in `Q`, unless one of its actions fails the guard. -/
def Ensures (G : σ → A → Prop) (Q : α → σ → Prop) : Program A R α → σ → Prop
  | done result, s => Q result s
  | act a next, s => G s a → Ensures G Q (next (answer a s).1) (answer a s).2

variable {answer} {G : σ → A → Prop} {Q : α → σ → Prop} {p : Program A R α} {s : σ}

theorem Ensures.exec (h : p.Ensures answer G Q s) (hguard : p.Meets answer G s) :
    Q (p.exec answer s).1 (p.exec answer s).2 := by
  induction p generalizing s with
  | done result => exact h
  | act a next ih => exact ih _ (h hguard.1) hguard.2

theorem Ensures.imp {Q' : α → σ → Prop} (h : p.Ensures answer G Q s)
    (hQ : ∀ x s, Q x s → Q' x s) : p.Ensures answer G Q' s := by
  induction p generalizing s with
  | done result => exact hQ result s h
  | act a next ih => exact fun ha => ih _ (h ha)

/-- A guard may be replaced by one that implies it along an invariant. -/
theorem Ensures.of_invariant {G' : σ → A → Prop} {I : σ → Prop} (h : p.Ensures answer G Q s)
    (hs : I s) (hstep : ∀ a s, I s → I (answer a s).2) (hguard : ∀ a s, I s → G' s a → G s a) :
    p.Ensures answer G' Q s := by
  induction p generalizing s with
  | done result => exact h
  | act a next ih => exact fun ha => ih _ (h (hguard a s hs ha)) (hstep a s hs)

theorem Ensures.bind {f : α → Program A R β} {Q' : β → σ → Prop} (h : p.Ensures answer G Q s)
    (hf : ∀ x s, Q x s → (f x).Ensures answer G Q' s) : (p >>= f).Ensures answer G Q' s := by
  induction p generalizing s with
  | done result => exact hf result s h
  | act a next ih => exact fun ha => ih _ (h ha)

theorem Ensures.bindExcept {p : ExceptT ε (Program A R) α} {f : α → ExceptT ε (Program A R) β}
    {Q : Except ε α → σ → Prop} {Q' : Except ε β → σ → Prop} (h : p.run.Ensures answer G Q s)
    (hf : ∀ x s, Q (.ok x) s → (f x).run.Ensures answer G Q' s)
    (herror : ∀ e s, Q (.error e) s → Q' (.error e) s) :
    (p >>= f : ExceptT ε (Program A R) β).run.Ensures answer G Q' s := by
  refine Ensures.bind (p := p.run) h ?_
  intro result s hresult
  cases result with
  | error e => exact herror e s hresult
  | ok x => exact hf x s hresult

theorem Meets.imp {G' : σ → A → Prop} (h : p.Meets answer G s) (hG : ∀ s a, G s a → G' s a) :
    p.Meets answer G' s := by
  induction p generalizing s with
  | done result => trivial
  | act a next ih => exact ⟨hG s a h.1, ih _ h.2⟩

/-- What follows a program meets the guard in the state that the program leaves. -/
theorem Meets.of_bind {f : α → Program A R β} (h : (p >>= f).Meets answer G s) :
    (f (p.exec answer s).1).Meets answer G (p.exec answer s).2 := by
  induction p generalizing s with
  | done result => exact h
  | act a next ih => exact ih _ h.2

theorem Meets.of_bindExcept {p : ExceptT ε (Program A R) α} {f : α → ExceptT ε (Program A R) β}
    {x : α} {s' : σ} (h : (p >>= f : ExceptT ε (Program A R) β).run.Meets answer G s)
    (hp : p.run.exec answer s = (.ok x, s')) : (f x).run.Meets answer G s' := by
  have hrest := Meets.of_bind (p := p.run) h
  rw [hp] at hrest
  exact hrest

theorem meets_of_forall (h : ∀ s a, G s a) (p : Program A R α) (s : σ) : p.Meets answer G s := by
  induction p generalizing s with
  | done result => trivial
  | act a next ih => exact ⟨h s a, ih _ _⟩

theorem exec_invariant {I : σ → Prop} (hstep : ∀ a s, I s → I (answer a s).2)
    (p : Program A R α) (hs : I s) : I (p.exec answer s).2 := by
  induction p generalizing s with
  | done result => exact hs
  | act a next ih => exact ih _ (hstep a s hs)

end Exec

/-! ## Protocols -/

/-- Which actions are allowed in a mode, and the mode that their answers lead to. -/
structure Protocol (M A : Type) (R : A → Type) where
  allowed : M → A → Prop
  move : M → (a : A) → R a → M

section Protocol

variable {M : Type} (protocol : Protocol M A R)

/-- From mode `m`, the program performs allowed actions alone, and ends in a mode and with a result
that meet `Q`. -/
def Follows (Q : M → α → Prop) : M → Program A R α → Prop
  | m, done result => Q m result
  | m, act a next => protocol.allowed m a ∧ ∀ r, Follows Q (protocol.move m a r) (next r)

variable {protocol} {Q : M → α → Prop}

theorem Follows.imp {Q' : M → α → Prop} {m : M} {p : Program A R α}
    (h : Follows protocol Q m p) (hQ : ∀ m x, Q m x → Q' m x) : Follows protocol Q' m p := by
  induction p generalizing m with
  | done result => exact hQ m result h
  | act a next ih => exact ⟨h.1, fun r => ih r (h.2 r)⟩

theorem Follows.bind {Q' : M → β → Prop} {m : M} {p : Program A R α} {f : α → Program A R β}
    (h : Follows protocol Q m p) (hf : ∀ m x, Q m x → Follows protocol Q' m (f x)) :
    Follows protocol Q' m (p >>= f) := by
  induction p generalizing m with
  | done result => exact hf m result h
  | act a next ih => exact ⟨h.1, fun r => ih r (h.2 r)⟩

/-- A program that may raise: what follows it starts from its results, and an exception ends it. -/
theorem Follows.bindExcept {ε : Type} {Q : M → Except ε α → Prop} {Q' : M → Except ε β → Prop}
    {m : M} {p : ExceptT ε (Program A R) α} {f : α → ExceptT ε (Program A R) β}
    (h : Follows protocol Q m p) (hf : ∀ m x, Q m (.ok x) → Follows protocol Q' m (f x))
    (herror : ∀ m e, Q m (.error e) → Q' m (.error e)) :
    Follows protocol Q' m (p >>= f : ExceptT ε (Program A R) β) := by
  refine Follows.bind (p := p) h ?_
  intro m result hresult
  cases result with
  | error e => exact herror m e hresult
  | ok x => exact hf m x hresult

end Protocol

/-! ## Traces -/

/-- What a program returns when its actions are answered in turn, and the actions that it performs
with their answers. -/
def traced : Program A R α → (ℕ → (a : A) → R a) → α × List (Σ a, R a)
  | done result, _ => (result, [])
  | act a next, answers =>
      let (result, events) := (next (answers 0 a)).traced fun n => answers (n + 1)
      (result, ⟨a, answers 0 a⟩ :: events)

/-- The first action of a program is the first event of its trace. -/
theorem traced_perform_bind (a : A) (f : R a → Program A R α) (answers : ℕ → (a : A) → R a) :
    ((perform a >>= f).traced answers).2 =
      ⟨a, answers 0 a⟩ :: ((f (answers 0 a)).traced fun n => answers (n + 1)).2 := rfl

theorem traced_map (p : Program A R α) (f : α → β) (answers : ℕ → (a : A) → R a) :
    (p >>= fun x => done (f x)).traced answers =
      (f (p.traced answers).1, (p.traced answers).2) := by
  induction p generalizing answers with
  | done result => rfl
  | act a next ih => simp [traced, ih]

/-- Answers that do not depend on the events so far. -/
theorem traced_bind (p : Program A R α) (f : α → Program A R β) (answer : (a : A) → R a) :
    (p >>= f).traced (fun _ => answer) =
      (((f (p.traced fun _ => answer).1).traced fun _ => answer).1,
        (p.traced fun _ => answer).2 ++ ((f (p.traced fun _ => answer).1).traced fun _ => answer).2)
    := by
  induction p with
  | done result => rfl
  | act a next ih => simp [traced, ih]

theorem traced_bindExcept {ε : Type} (p : ExceptT ε (Program A R) α)
    (f : α → ExceptT ε (Program A R) β) (answer : (a : A) → R a) :
    (p >>= f : ExceptT ε (Program A R) β).run.traced (fun _ => answer) =
      match p.run.traced fun _ => answer with
      | (.ok x, events) =>
          (((f x).run.traced fun _ => answer).1, events ++ ((f x).run.traced fun _ => answer).2)
      | (.error e, events) => (.error e, events) := by
  refine (traced_bind p.run _ answer).trans ?_
  rcases p.run.traced fun _ => answer with ⟨result, events⟩
  cases result with
  | ok x => rfl
  | error e => simp [ExceptT.bindCont, traced]

/-- The protocol whose modes are the events so far. -/
def recorder (allowed : List (Σ a, R a) → A → Prop) : Protocol (List (Σ a, R a)) A R where
  allowed := allowed
  move events a r := events ++ [⟨a, r⟩]

section Traced

variable {allowed : List (Σ a, R a) → A → Prop} {Q : List (Σ a, R a) → α → Prop}
  {events : List (Σ a, R a)} {p : Program A R α}

theorem Follows.traced (h : Follows (recorder allowed) Q events p)
    (answers : ℕ → (a : A) → R a) :
    Q (events ++ (p.traced answers).2) (p.traced answers).1 := by
  induction p generalizing events answers with
  | done result =>
      have hresult : Q events result := h
      simpa [Program.traced] using hresult
  | act a next ih =>
      have hnext := ih (answers 0 a) (h.2 (answers 0 a)) fun n => answers (n + 1)
      simpa [Program.traced, recorder] using hnext

theorem Follows.allowed_of_traced (h : Follows (recorder allowed) Q events p)
    {answers : ℕ → (a : A) → R a} {before after : List (Σ a, R a)} {e : Σ a, R a}
    (ht : (p.traced answers).2 = before ++ e :: after) : allowed (events ++ before) e.1 := by
  induction p generalizing events answers before with
  | done result => simp [Program.traced] at ht
  | act a next ih =>
      simp only [Program.traced] at ht
      cases before with
      | nil =>
          obtain ⟨rfl, -⟩ := List.cons.inj ht
          have hfirst : allowed events a := h.1
          simpa using hfirst
      | cons first before =>
          simp only [List.cons_append, List.cons.injEq] at ht
          obtain ⟨rfl, ht⟩ := ht
          have hnext := ih (answers 0 a) (h.2 (answers 0 a)) ht
          simpa [recorder] using hnext

end Traced

/-! ## Runs with their events -/

section History

variable {σ ι : Type} (answer : (a : A) → σ → ι → R a × σ)

/-- The actions of a run, with their answers. -/
def history : Program A R α → (ℕ → ι) → σ → List (Σ a, R a)
  | done _, _, _ => []
  | act a next, inputs, s =>
      ⟨a, (answer a s (inputs 0)).1⟩ ::
        (next (answer a s (inputs 0)).1).history (fun n => inputs (n + 1)) (answer a s (inputs 0)).2

/-- Whatever its inputs, the program ends with a result, a state and events that meet `Q`. -/
def Leads : Program A R α → (α → σ → List (Σ a, R a) → Prop) → σ → Prop
  | done result, Q, s => Q result s []
  | act a next, Q, s => ∀ input,
      Leads (next (answer a s input).1)
        (fun result s' events => Q result s' (⟨a, (answer a s input).1⟩ :: events))
        (answer a s input).2

variable {answer} {P Q : α → σ → List (Σ a, R a) → Prop} {p : Program A R α} {s : σ}

theorem Leads.imp (h : p.Leads answer P s) (hQ : ∀ x s' events, P x s' events → Q x s' events) :
    p.Leads answer Q s := by
  induction p generalizing P Q s with
  | done result => exact hQ result s [] h
  | act a next ih => exact fun input => ih _ (h input) fun x s' events => hQ x s' _

theorem Leads.bind {f : α → Program A R β} {Q : β → σ → List (Σ a, R a) → Prop}
    (h : p.Leads answer P s)
    (hf : ∀ x s' events, P x s' events →
      (f x).Leads answer (fun y s'' later => Q y s'' (events ++ later)) s') :
    (p >>= f).Leads answer Q s := by
  induction p generalizing P Q s with
  | done result => exact hf result s [] h
  | act a next ih => exact fun input => ih _ (h input) fun x s' events => hf x s' _

theorem Leads.run (h : p.Leads answer Q s) (inputs : ℕ → ι) :
    Q (p.run answer inputs s).1 (p.run answer inputs s).2.1 (p.history answer inputs s) := by
  induction p generalizing Q s inputs with
  | done result => exact h
  | act a next ih => exact ih _ (h (inputs 0)) _

end History

/-! ## Pools of callers -/

/-- A shared state, and the calls under way with what is left of their programs. -/
structure Pool (W κ σ A : Type) (R : A → Type) (α : Type) where
  shared : σ
  threads : W → Option (κ × Program A R α)

/-- The call of a thread, and the action that it is about to perform. -/
def Pool.next? {W κ σ : Type} (p : Pool W κ σ A R α) (w : W) : Option (κ × A) :=
  (p.threads w).bind fun (call, left) => left.head?.map fun a => (call, a)

inductive PoolStep (W κ ι : Type) where
  | start (w : W) (call : κ)
  | act (w : W) (input : ι)

section Tracks

variable {W κ σ M : Type}

/-- A thread that goes on follows the protocol of its call from its mode, to a mode at rest; every
other one is idle. -/
def Tracks (protocol : κ → Protocol M A R) (rest : M → Prop) (idle : M)
    (threads : W → Option (κ × Program A R α)) (modes : W → M) : Prop :=
  ∀ w, match threads w with
    | some (call, act a next) =>
        Follows (protocol call) (fun m _ => rest m) (modes w) (act a next)
    | _ => modes w = idle

variable {protocol : κ → Protocol M A R} {rest : M → Prop} {idle : M}
  {threads : W → Option (κ × Program A R α)} {modes : W → M} {w : W}

theorem Tracks.follows {call : κ} {a : A} {next : R a → Program A R α}
    (h : Tracks protocol rest idle threads modes) (hw : threads w = some (call, act a next)) :
    Follows (protocol call) (fun m _ => rest m) (modes w) (act a next) := by
  have := h w
  rwa [hw] at this

/-- A thread that is not idle is about to perform an action that it is allowed. -/
theorem Tracks.exists_next {σ : Type} {p : Pool W κ σ A R α}
    (h : Tracks protocol rest idle p.threads modes) (hw : modes w ≠ idle) :
    ∃ call a, p.next? w = some (call, a) ∧ (protocol call).allowed (modes w) a := by
  have hthread := h w
  split at hthread
  · rename_i call a next hsome
    refine ⟨call, a, ?_, hthread.1⟩
    simp [Pool.next?, hsome, head?]
  · exact absurd hthread hw

theorem Tracks.eq_idle (h : Tracks protocol rest idle threads modes)
    (hw : ∀ call a next, threads w ≠ some (call, act a next)) : modes w = idle := by
  have hthread := h w
  split at hthread
  · rename_i call a next hsome
    exact absurd hsome (hw call a next)
  · exact hthread

theorem Tracks.update [DecidableEq W] {mode : M} {thread : Option (κ × Program A R α)}
    (h : Tracks protocol rest idle threads modes)
    (hthread : match thread with
      | some (call, act a next) => Follows (protocol call) (fun m _ => rest m) mode (act a next)
      | _ => mode = idle) :
    Tracks protocol rest idle (Function.update threads w thread)
      (Function.update modes w mode) := by
  intro w'
  by_cases hw : w' = w
  · rw [hw, Function.update_self, Function.update_self]
    exact hthread
  · rw [Function.update_of_ne hw, Function.update_of_ne hw]
    exact h w'

end Tracks

section Pool

variable {W κ σ ι : Type} [DecidableEq W] (answer : (a : A) → σ → ι → R a × σ)
  (program : κ → Program A R α)

def Pool.step (p : Pool W κ σ A R α) : PoolStep W κ ι → Pool W κ σ A R α
  | .start w call =>
      match p.threads w with
      | none => { p with threads := Function.update p.threads w (some (call, program call)) }
      | some _ => p
  | .act w input =>
      match p.threads w with
      | none => p
      | some (_, done _) => { p with threads := Function.update p.threads w none }
      | some (call, act a next) =>
          let (r, shared) := answer a p.shared input
          { shared, threads := Function.update p.threads w (some (call, next r)) }

/-- Any interleaving of calls, from a state on which none is under way. -/
def pool (init : σ) : Machine (Pool W κ σ A R α) (PoolStep W κ ι) where
  init := { shared := init, threads := fun _ => none }
  step := Pool.step answer program

variable {answer program} {M : Type} {protocol : κ → Protocol M A R} {rest : M → Prop} {idle : M}

section

variable {G : Pool W κ σ A R α → PoolStep W κ ι → Prop} {I : σ → (W → M) → Prop} {init : σ}
  (hprogram : ∀ call, Follows (protocol call) (fun m _ => rest m) idle (program call))
  (hinit : I init fun _ => idle)
  (hrest : ∀ s modes w, I s modes → rest (modes w) → I s (Function.update modes w idle))
  (hact : ∀ p modes w call a next input, Tracks protocol rest idle p.threads modes →
    I p.shared modes → p.threads w = some (call, act a next) →
    (protocol call).allowed (modes w) a → G p (.act w input) →
    I (answer a p.shared input).2 (Function.update modes w
      ((protocol call).move (modes w) a (answer a p.shared input).1)))

include hprogram hrest hact

/-- What every allowed action keeps is kept by every step that meets the guard. -/
theorem pool_step
    {p : Pool W κ σ A R α} {l : PoolStep W κ ι}
    (hp : ∃ modes, Tracks protocol rest idle p.threads modes ∧ I p.shared modes) (hguard : G p l) :
    ∃ modes, Tracks protocol rest idle (Pool.step answer program p l).threads modes ∧
      I (Pool.step answer program p l).shared modes := by
  obtain ⟨modes, htracks, hI⟩ := hp
  cases l with
  | start w call =>
      simp only [Pool.step]
      cases hw : p.threads w with
      | some thread => exact ⟨modes, htracks, hI⟩
      | none =>
          have hidle : modes w = idle := htracks.eq_idle (by simp [hw])
          refine ⟨modes, ?_, hI⟩
          rw [← Function.update_eq_self w modes]
          refine htracks.update ?_
          have hfollows := hprogram call
          cases hleft : program call with
          | done result => exact hidle
          | act a next =>
              rw [hleft] at hfollows
              rwa [hidle]
  | act w input =>
      simp only [Pool.step]
      cases hw : p.threads w with
      | none => exact ⟨modes, htracks, hI⟩
      | some thread =>
          obtain ⟨call, left⟩ := thread
          cases left with
          | done result =>
              refine ⟨modes, ?_, hI⟩
              rw [← Function.update_eq_self w modes]
              exact htracks.update (htracks.eq_idle (by simp [hw]))
          | act a next =>
              have hfollows := htracks.follows hw
              have hI' := hact p modes w call a next input htracks hI hw hfollows.1 hguard
              have hnext := hfollows.2 (answer a p.shared input).1
              simp only
              cases hleft : next (answer a p.shared input).1 with
              | done result =>
                  -- the thread is at rest, and forgets its mode
                  rw [hleft] at hnext
                  refine ⟨Function.update modes w idle, htracks.update rfl, ?_⟩
                  have hidle := hrest _ _ w hI' (by rwa [Function.update_self])
                  rwa [Function.update_idem] at hidle
              | act b following =>
                  rw [hleft] at hnext
                  exact ⟨_, htracks.update hnext, hI'⟩

include hinit

/-- What every allowed action keeps, in runs that meet the guard, holds in every state they
reach. -/
theorem pool_invariant
    {ls : List (PoolStep W κ ι)} (hg : (pool answer program init).Guarded G ls) :
    ∃ modes, Tracks protocol rest idle ((pool answer program init).run ls).threads modes ∧
      I ((pool answer program init).run ls).shared modes :=
  Machine.run_invariant_of_guarded
    (I := fun p => ∃ modes, Tracks protocol rest idle p.threads modes ∧ I p.shared modes)
    ⟨fun _ => idle, fun _ => rfl, hinit⟩
    (fun _ _ hp hguard => pool_step hprogram hrest hact hp hguard) hg

end

end Pool

/-! ## Results of calls -/

/-- A thread follows the protocol of its call from its mode, up to its result. -/
def Reports {W κ M : Type} (protocol : κ → Protocol M A R) (Q : M → α → Prop) (idle : M)
    (threads : W → Option (κ × Program A R α)) (modes : W → M) : Prop :=
  ∀ w, match threads w with
    | some (call, left) => Follows (protocol call) Q (modes w) left
    | none => modes w = idle

/-- A pool, and which of the calls under way have changed the shared state. -/
structure Watched (W κ σ A : Type) (R : A → Type) (α : Type) extends Pool W κ σ A R α where
  changed : W → Prop

section Watched

variable {W κ σ ι M : Type} [DecidableEq W] (answer : (a : A) → σ → ι → R a × σ)
  (program : κ → Program A R α)

def Watched.step (p : Watched W κ σ A R α) (l : PoolStep W κ ι) : Watched W κ σ A R α where
  toPool := Pool.step answer program p.toPool l
  changed := match l with
    | .start w _ => if p.threads w = none then Function.update p.changed w False else p.changed
    | .act w _ => Function.update p.changed w
        (p.changed w ∨ (Pool.step answer program p.toPool l).shared ≠ p.shared)

def watched (init : σ) : Machine (Watched W κ σ A R α) (PoolStep W κ ι) where
  init := { shared := init, threads := fun _ => none, changed := fun _ => False }
  step := Watched.step answer program

variable {answer program} {protocol : κ → Protocol M A R} {idle : M} {Q : M → α → Prop}
  {changes : M → Prop}

/-- The threads report in `modes`, and a call that has changed the shared state is in a mode that
says so. -/
structure Reported (protocol : κ → Protocol M A R) (Q : M → α → Prop) (idle : M)
    (changes : M → Prop) (p : Watched W κ σ A R α) (modes : W → M) : Prop where
  reports : Reports protocol Q idle p.threads modes
  changes : ∀ w thread, p.threads w = some thread → p.changed w → changes (modes w)

theorem Reported.update {p : Watched W κ σ A R α} {modes : W → M}
    (h : Reported protocol Q idle changes p modes) {w : W} {shared : σ}
    {thread : Option (κ × Program A R α)} {mode : M} {changed : Prop}
    (hthread : match thread with
      | some (call, left) => Follows (protocol call) Q mode left
      | none => mode = idle)
    (hchanged : thread ≠ none → changed → changes mode) :
    Reported protocol Q idle changes
      { shared, threads := Function.update p.threads w thread
        changed := Function.update p.changed w changed }
      (Function.update modes w mode) := by
  refine ⟨?_, ?_⟩
  · intro w'
    by_cases hw : w' = w
    · subst hw
      simpa using hthread
    · simpa [hw] using h.reports w'
  · intro w' thread' hthread' hchanged'
    by_cases hw : w' = w
    · subst hw
      simp only [Function.update_self] at hthread' hchanged' ⊢
      exact hchanged (by simp [hthread']) hchanged'
    · simp only [Function.update_of_ne hw] at hthread' hchanged' ⊢
      exact h.changes w' thread' hthread' hchanged'

section

variable {I : σ → (W → M) → Prop} {init : σ}
  (hprogram : ∀ call, Follows (protocol call) Q idle (program call))
  (hinit : I init fun _ => idle)
  (hrest : ∀ s modes w, I s modes → I s (Function.update modes w idle))
  (hact : ∀ s modes w call a input, I s modes → (protocol call).allowed (modes w) a →
    I (answer a s input).2 (Function.update modes w
    ((protocol call).move (modes w) a (answer a s input).1)))
  (hchanges : ∀ s modes w call a input, I s modes → (protocol call).allowed (modes w) a →
    changes (modes w) ∨ (answer a s input).2 ≠ s →
    changes ((protocol call).move (modes w) a (answer a s input).1))

include hprogram hrest hact hchanges

theorem watched_step
    {p : Watched W κ σ A R α} {l : PoolStep W κ ι}
    (hp : ∃ modes, Reported protocol Q idle changes p modes ∧ I p.shared modes) :
    ∃ modes, Reported protocol Q idle changes (Watched.step answer program p l) modes ∧
      I (Watched.step answer program p l).shared modes := by
  obtain ⟨modes, hreported, hI⟩ := hp
  have hthreads := hreported.reports
  cases l with
  | start w call =>
      have hw' := hthreads w
      cases hw : p.threads w with
      | some thread =>
          simp only [Watched.step, Pool.step, hw, reduceCtorEq, if_false]
          exact ⟨modes, hreported, hI⟩
      | none =>
          rw [hw] at hw'
          simp only at hw'
          simp only [Watched.step, Pool.step, hw, if_true]
          refine ⟨Function.update modes w idle,
            hreported.update (hprogram call) fun _ h => h.elim, ?_⟩
          rwa [← hw', Function.update_eq_self]
  | act w input =>
      cases hw : p.threads w with
      | none =>
          simp only [Watched.step, Pool.step, hw, ne_eq, not_true_eq_false, or_false,
            Function.update_eq_self]
          exact ⟨modes, hreported, hI⟩
      | some thread =>
          obtain ⟨call, left⟩ := thread
          have hfollows := hthreads w
          rw [hw] at hfollows
          simp only at hfollows
          cases left with
          | done result =>
              simp only [Watched.step, Pool.step, hw, ne_eq, not_true_eq_false, or_false]
              exact ⟨Function.update modes w idle, hreported.update rfl fun h => absurd rfl h,
                hrest _ _ _ hI⟩
          | act a next =>
              simp only [Watched.step, Pool.step, hw]
              refine ⟨_, hreported.update (hfollows.2 (answer a p.shared input).1) ?_,
                hact _ _ _ call a input hI hfollows.1⟩
              intro _ hchanged
              refine hchanges _ _ _ call a input hI hfollows.1 ?_
              exact hchanged.imp_left (hreported.changes w _ hw)

include hinit

/-- Along every run, a result says in which mode its call has ended. -/
theorem watched_invariant
    (ls : List (PoolStep W κ ι)) :
    ∃ modes, Reported protocol Q idle changes ((watched answer program init).run ls) modes ∧
      I ((watched answer program init).run ls).shared modes :=
  Machine.run_invariant
    (I := fun p => ∃ modes, Reported protocol Q idle changes p modes ∧ I p.shared modes)
    ⟨fun _ => idle, ⟨fun _ => rfl, fun _ _ h => by cases h⟩, hinit⟩
    (fun _ _ hp => watched_step hprogram hrest hact hchanges hp) ls

end

/-- What every action keeps of the shared state holds along every run. -/
theorem watched_shared {P : σ → Prop} {init : σ} (hinit : P init)
    (hact : ∀ a s input, P s → P (answer a s input).2) (ls : List (PoolStep W κ ι)) :
    P ((watched answer program init).run ls).shared := by
  refine Machine.run_invariant (I := fun p : Watched W κ σ A R α => P p.shared) hinit ?_ ls
  intro p l hp
  show P (Pool.step answer program p.toPool l).shared
  cases l with
  | start w call =>
      simp only [Pool.step]
      cases p.threads w <;> exact hp
  | act w input =>
      simp only [Pool.step]
      split
      · exact hp
      · exact hp
      · exact hact _ _ _ hp

end Watched

end Program

end WaitLocalAgent.Foundation
