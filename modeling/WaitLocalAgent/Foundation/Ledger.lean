import WaitLocalAgent.Foundation.Program
import WaitLocalAgent.Foundation.Versioned

/-! # Concurrent callers of versioned entries

Callers read entries, compute the next version, and write it in one transaction later. Whatever
else happens in between, the revisions stay linear, and a call that raises has written nothing. -/

namespace WaitLocalAgent.Foundation

/-- What a read tells about an entry, and what stays true of it. -/
structure Seen (κ O : Type) where
  key : κ
  version : ℕ
  owner : O

/-- A store of versioned entries with its reads `Q` and its transactions `T`. A transaction creates
an entry, or replaces the one of the version that it is based on. -/
structure Ledger (S κ E R O Q T ε : Type) (A : Q → Type) extends Versioned S κ E R where
  owner : E → O
  read : (q : Q) → S → A q
  sees : (q : Q) → A q → Option (Seen κ O)
  /-- The answer says that no entry of this owner is stored under this key. -/
  misses : (q : Q) → A q → κ → O → Bool
  commit : T → S → Except ε S
  target : T → κ
  base : T → Option ℕ
  onBehalf : T → O

inductive LedgerAction (Q T : Type) where
  | read (q : Q)
  | write (t : T)

abbrev LedgerAction.Answer {Q T : Type} (ε : Type) (A : Q → Type) : LedgerAction Q T → Type
  | .read q => A q
  | .write _ => Except ε Unit

/-- A read leaves the store alone; a transaction that fails is rolled back. -/
def LedgerAction.respond {S Q T ε : Type} {A : Q → Type} (read : (q : Q) → S → A q)
    (commit : T → S → Except ε S) : (a : LedgerAction Q T) → S → Unit → a.Answer ε A × S
  | .read q, s, _ => (read q s, s)
  | .write t, s, _ =>
      match commit t s with
      | .ok s' => (.ok (), s')
      | .error e => (.error e, s)

namespace Ledger

variable {S κ E R O Q T ε : Type} {A : Q → Type}

def answer (L : Ledger S κ E R O Q T ε A) :
    (a : LedgerAction Q T) → S → Unit → a.Answer ε A × S :=
  LedgerAction.respond L.read L.commit

/-- What the rules below need of a store. -/
structure Lawful [DecidableEq κ] (L : Ledger S κ E R O Q T ε A) : Prop where
  sees : ∀ q s x, L.sees q (L.read q s) = some x →
    ∃ e, L.entry s x.key = some e ∧ L.version e = x.version ∧ L.owner e = x.owner
  not_misses : ∀ q s k e, L.entry s k = some e → L.misses q (L.read q s) k (L.owner e) = false
  create : ∀ t s s', L.commit t s = .ok s' → L.base t = none →
    ∃ e r, L.Writes (L.target t) e r s s' ∧
      L.entry s (L.target t) = none ∧ L.version e = 1 ∧ L.owner e = L.onBehalf t
  update : ∀ t s s' v d, L.commit t s = .ok s' → L.base t = some v →
    L.entry s (L.target t) = some d → L.owner d = L.onBehalf t →
    ∃ e r, L.Writes (L.target t) e r s s' ∧ L.version e = v + 1 ∧ L.owner e = L.onBehalf t

/-- A call reads entries until it writes one of them; `lost` says that the entry it has written is
not there. -/
inductive Mode (κ O : Type) where
  | reading (seen : List (Seen κ O))
  | wrote (key : κ) (owner : O)
  | lost

def Mode.HasWritten : Mode κ O → Prop
  | .reading _ => False
  | .wrote _ _ | .lost => True

/-- A write creates an entry, or is based on one that the call has read, for its owner. -/
def protocol (L : Ledger S κ E R O Q T ε A) :
    Program.Protocol (Mode κ O) (LedgerAction Q T) (LedgerAction.Answer ε A) where
  allowed
    | .reading seen, .write t =>
        L.base t = none ∨ ∃ x ∈ seen, L.target t = x.key ∧ L.base t = some x.version ∧
          L.onBehalf t = x.owner
    | _, .write _ => False
    | _, .read _ => True
  move
    | .reading seen, .read q, a =>
        match L.sees q a with
        | some x => .reading (x :: seen)
        | none => .reading seen
    | .reading seen, .write t, r =>
        match r with
        | .ok () => .wrote (L.target t) (L.onBehalf t)
        | .error _ => .reading seen
    | .wrote k o, .read q, a => if L.misses q a k o then .lost else .wrote k o
    | .wrote k o, .write _, _ => .wrote k o
    | .lost, _, _ => .lost

/-- A call that raises has not written, unless it has lost what it wrote. -/
def RaisesUnwritten {α ε' : Type} (m : Mode κ O) (result : Except ε' α) : Prop :=
  match result with
  | .ok _ => True
  | .error _ => ∀ k o, m ≠ .wrote k o

section Follows

variable {L : Ledger S κ E R O Q T ε A} {α ε' : Type} {m : Mode κ O}

theorem follows_pure {x : α} :
    Program.Follows L.protocol RaisesUnwritten m
      (pure x : ExceptT ε' (Program (LedgerAction Q T) (LedgerAction.Answer ε A)) α).run :=
  trivial

/-- A call may raise before it has written. -/
theorem follows_throw {e : ε'} (hm : ∀ k o, m ≠ .wrote k o) :
    Program.Follows L.protocol RaisesUnwritten m
      (throw e : ExceptT ε' (Program (LedgerAction Q T) (LedgerAction.Answer ε A)) α).run :=
  hm

theorem follows_read {q : Q}
    {f : A q → ExceptT ε' (Program (LedgerAction Q T) (LedgerAction.Answer ε A)) α}
    (h : ∀ a, Program.Follows L.protocol RaisesUnwritten (L.protocol.move m (.read q) a)
      (f a).run) :
    Program.Follows L.protocol RaisesUnwritten m
      (ExceptT.lift (Program.perform (LedgerAction.read q)) >>= f).run := by
  refine ⟨?_, h⟩
  cases m <;> trivial

theorem follows_write {t : T} {seen : List (Seen κ O)}
    {f : Unit → ExceptT ε (Program (LedgerAction Q T) (LedgerAction.Answer ε A)) α}
    (hallowed : L.protocol.allowed (.reading seen) (.write t))
    (h : Program.Follows L.protocol RaisesUnwritten (.wrote (L.target t) (L.onBehalf t))
      (f ()).run) :
    Program.Follows L.protocol RaisesUnwritten (.reading seen)
      (ExceptT.mk (Program.perform (LedgerAction.write t)) >>= f).run := by
  refine ⟨hallowed, ?_⟩
  intro r
  cases r with
  | ok u => exact h
  | error e => exact fun _ _ hm => by cases hm

end Follows

section Runs

variable [DecidableEq κ] {L : Ledger S κ E R O Q T ε A} {s s' : S}

def Holds (L : Ledger S κ E R O Q T ε A) (s : S) (x : Seen κ O) : Prop :=
  (L.revision s x.key x.version).isSome ∧ ∃ e, L.entry s x.key = some e ∧ L.owner e = x.owner

def ModeHolds (L : Ledger S κ E R O Q T ε A) (s : S) : Mode κ O → Prop
  | .reading seen => ∀ x ∈ seen, L.Holds s x
  | .wrote k o => ∃ e, L.entry s k = some e ∧ L.owner e = o
  | .lost => False

/-- A write keeps the owner of the entries that there are. -/
def KeepsOwners (L : Ledger S κ E R O Q T ε A) (s s' : S) : Prop :=
  ∀ k e, L.entry s k = some e → ∃ e', L.entry s' k = some e' ∧ L.owner e' = L.owner e

omit [DecidableEq κ] in
theorem ModeHolds.of_write {m : Mode κ O} (h : L.ModeHolds s m) (howners : L.KeepsOwners s s')
    (hrevisions : ∀ k v, (L.revision s k v).isSome → (L.revision s' k v).isSome) :
    L.ModeHolds s' m := by
  cases m with
  | reading seen =>
      intro x hx
      obtain ⟨hrevision, e, he, howner⟩ := h x hx
      obtain ⟨e', he', howner'⟩ := howners x.key e he
      exact ⟨hrevisions _ _ hrevision, e', he', howner'.trans howner⟩
  | wrote k o =>
      obtain ⟨e, he, howner⟩ := h
      obtain ⟨e', he', howner'⟩ := howners k e he
      exact ⟨e', he', howner'.trans howner⟩
  | lost => exact h

theorem Holds.of_sees (hlawful : L.Lawful) (hlinear : L.Linear s) {q : Q} {x : Seen κ O}
    (hx : L.sees q (L.read q s) = some x) : L.Holds s x := by
  obtain ⟨e, he, hversion, howner⟩ := hlawful.sees q s x hx
  refine ⟨?_, e, he, howner⟩
  rw [← hversion]
  exact (hlinear.current x.key e he).isSome

/-- A transaction that is allowed keeps the revisions linear, and everything that was seen. -/
theorem commit_linear (hlawful : L.Lawful) (hlinear : L.Linear s) {m : Mode κ O} {t : T}
    (hm : L.ModeHolds s m) (hallowed : L.protocol.allowed m (.write t))
    (hcommit : L.commit t s = .ok s') :
    L.Linear s' ∧ L.KeepsOwners s s' ∧
      (∀ k v, (L.revision s k v).isSome → (L.revision s' k v).isSome) ∧
      L.ModeHolds s' (.wrote (L.target t) (L.onBehalf t)) := by
  cases m with
  | wrote k o => exact hallowed.elim
  | lost => exact hallowed.elim
  | reading seen =>
      cases hb : L.base t with
      | none =>
          obtain ⟨e, r, hw, hnew, hfirst, howner⟩ := hlawful.create t s s' hcommit hb
          refine ⟨hlinear.insert hw hnew hfirst, ?_, hw.revision_isSome, e, hw.entry_self, howner⟩
          intro k d hd
          refine ⟨d, ?_, rfl⟩
          rw [hw.entry, if_neg, hd]
          rintro rfl
          rw [hnew] at hd
          cases hd
      | some v =>
          obtain hnone | ⟨x, hx, htarget, hversion, hbehalf⟩ := hallowed
          · rw [hb] at hnone
            cases hnone
          · rw [hb, Option.some.injEq] at hversion
            obtain ⟨hrevision, d₀, hd₀, howner₀⟩ := hm x hx
            rw [← htarget] at hrevision hd₀
            rw [← hversion] at hrevision
            rw [← hbehalf] at howner₀
            obtain ⟨e, r, hw, hstep, howner⟩ := hlawful.update t s s' v d₀ hcommit hb hd₀ howner₀
            refine ⟨hlinear.update hw hrevision hstep, ?_, hw.revision_isSome, e, hw.entry_self,
              howner⟩
            intro k d hd
            by_cases hk : k = L.target t
            · subst hk
              rw [hd₀, Option.some.injEq] at hd
              exact ⟨e, hw.entry_self, by rw [howner, ← howner₀, hd]⟩
            · exact ⟨d, by rw [hw.entry, if_neg hk, hd], rfl⟩

variable {W : Type} [DecidableEq W]

/-- The revisions are linear, and every caller knows what is true. -/
structure Invariant (L : Ledger S κ E R O Q T ε A) (s : S) (modes : W → Mode κ O) : Prop where
  linear : L.Linear s
  modes : ∀ w, L.ModeHolds s (modes w)

omit [DecidableEq κ] in
theorem Invariant.update {modes : W → Mode κ O} (h : L.Invariant s modes) {w : W}
    {m : Mode κ O} (hm : L.ModeHolds s m) : L.Invariant s (Function.update modes w m) := by
  refine ⟨h.linear, ?_⟩
  intro w'
  by_cases hw : w' = w
  · rw [hw, Function.update_self]
    exact hm
  · rw [Function.update_of_ne hw]
    exact h.modes w'

theorem Invariant.act (hlawful : L.Lawful) {modes : W → Mode κ O} (h : L.Invariant s modes)
    {w : W} {a : LedgerAction Q T} (hallowed : L.protocol.allowed (modes w) a) :
    L.Invariant (L.answer a s ()).2
      (Function.update modes w (L.protocol.move (modes w) a (L.answer a s ()).1)) := by
  have hm := h.modes w
  cases a with
  | read q =>
      refine h.update ?_
      cases hmode : modes w with
      | lost =>
          rw [hmode] at hm
          exact hm
      | wrote k o =>
          rw [hmode] at hm
          obtain ⟨e, he, rfl⟩ := hm
          simp only [protocol, answer, LedgerAction.respond, hlawful.not_misses q s k e he]
          exact ⟨e, he, rfl⟩
      | reading seen =>
          rw [hmode] at hm
          simp only [protocol, answer, LedgerAction.respond]
          cases hx : L.sees q (L.read q s) with
          | none => exact hm
          | some x =>
              intro y hy
              rcases List.mem_cons.mp hy with rfl | hy
              · exact Holds.of_sees hlawful h.linear hx
              · exact hm y hy
  | write t =>
      cases hcommit : L.commit t s with
      | error e =>
          simp only [answer, LedgerAction.respond, hcommit]
          refine h.update ?_
          cases hmode : modes w <;> rw [hmode] at hm hallowed
          · exact hm
          · exact hallowed.elim
          · exact hallowed.elim
      | ok s' =>
          obtain ⟨hlinear, howners, hrevisions, hwrote⟩ :=
            commit_linear hlawful h.linear hm hallowed hcommit
          have hkept : L.Invariant s' modes :=
            ⟨hlinear, fun w' => (h.modes w').of_write howners hrevisions⟩
          simp only [answer, LedgerAction.respond, hcommit]
          refine hkept.update ?_
          cases hmode : modes w <;> rw [hmode] at hallowed
          · exact hwrote
          · exact hallowed.elim
          · exact hallowed.elim

omit [DecidableEq W] in
/-- A call that has changed the store has written. -/
theorem hasWritten_act (hlawful : L.Lawful) {modes : W → Mode κ O} (h : L.Invariant s modes)
    {w : W} {a : LedgerAction Q T} (hallowed : L.protocol.allowed (modes w) a)
    (hchanged : (modes w).HasWritten ∨ (L.answer a s ()).2 ≠ s) :
    (L.protocol.move (modes w) a (L.answer a s ()).1).HasWritten := by
  have hm := h.modes w
  cases a with
  | read q =>
      have hwritten := hchanged.resolve_right fun hne => hne rfl
      cases hmode : modes w with
      | lost => trivial
      | reading seen =>
          rw [hmode] at hwritten
          exact hwritten.elim
      | wrote k o =>
          rw [hmode] at hm
          obtain ⟨e, he, rfl⟩ := hm
          simp only [protocol, answer, LedgerAction.respond, hlawful.not_misses q s k e he]
          trivial
  | write t =>
      cases hmode : modes w <;> rw [hmode] at hallowed
      · cases hcommit : L.commit t s with
        | ok s' =>
            simp only [protocol, answer, LedgerAction.respond, hcommit]
            trivial
        | error e =>
            rw [hmode] at hchanged
            simp only [answer, LedgerAction.respond, hcommit, ne_eq, not_true_eq_false,
              or_false] at hchanged
            exact hchanged.elim
      · exact hallowed.elim
      · exact hallowed.elim

/-- In every run of calls that follow the protocol, the revisions are linear and the calls that
have raised have changed nothing. -/
theorem run_linear {C α ε' : Type} (hlawful : L.Lawful) {init : S} (hinit : L.Linear init)
    {program : C → Program (LedgerAction Q T) (LedgerAction.Answer ε A) (Except ε' α)}
    (hprogram : ∀ call, Program.Follows L.protocol RaisesUnwritten (.reading []) (program call))
    (ls : List (Program.PoolStep W C Unit)) :
    L.Linear ((Program.watched L.answer program init).run ls).shared ∧
      ∀ w call e, ((Program.watched L.answer program init).run ls).threads w =
          some (call, .done (.error e)) →
        ¬ ((Program.watched L.answer program init).run ls).changed w := by
  have hrun : ∃ modes, Program.Reported (fun _ => L.protocol) RaisesUnwritten (.reading [])
      Mode.HasWritten ((Program.watched L.answer program init).run ls) modes ∧
      L.Invariant ((Program.watched L.answer program init).run ls).shared modes :=
    Program.watched_invariant (I := L.Invariant) hprogram ⟨hinit, fun _ => by nofun⟩
      (fun _ _ _ h => h.update (by nofun))
      (fun _ _ _ _ _ _ h hallowed => h.act hlawful hallowed)
      (fun _ _ _ _ _ _ h hallowed => hasWritten_act hlawful h hallowed) ls
  obtain ⟨modes, hreported, hinvariant⟩ := hrun
  refine ⟨hinvariant.linear, ?_⟩
  intro w call e hthread hchanged
  have hwritten := hreported.changes w _ hthread hchanged
  have hreports := hreported.reports w
  rw [hthread] at hreports
  have hmode := hinvariant.modes w
  cases hw : modes w with
  | reading seen =>
      rw [hw] at hwritten
      exact hwritten
  | wrote k o => exact hreports k o hw
  | lost =>
      rw [hw] at hmode
      exact hmode

omit [DecidableEq κ] in
/-- What every transaction keeps holds along every run. -/
theorem run_commit {C α ε' : Type} {P : S → Prop} {init : S} (hinit : P init)
    (hcommit : ∀ t s s', L.commit t s = .ok s' → P s → P s')
    {program : C → Program (LedgerAction Q T) (LedgerAction.Answer ε A) (Except ε' α)}
    (ls : List (Program.PoolStep W C Unit)) :
    P ((Program.watched L.answer program init).run ls).shared := by
  refine Program.watched_shared hinit ?_ ls
  rintro (q | t) s input hs
  · exact hs
  · simp only [answer, LedgerAction.respond]
    cases h : L.commit t s with
    | ok s' => exact hcommit t s s' h hs
    | error e => exact hs

end Runs

end Ledger

end WaitLocalAgent.Foundation
