import Mathlib

/-! # Fenced leases

A row that is leased to one holder at a time, under a token and until a moment. Whoever finds the
lease expired may take the row over; only the token of the holder gives it back. -/

namespace WaitLocalAgent.Foundation

variable {ω τ : Type*}

/-- What happens to a leased row. -/
inductive LeaseEvent (ω τ : Type*) where
  | granted (token : ω) (expiresAt now : τ)
  | finished (token : ω)
  | overwritten (now : τ)
  deriving DecidableEq

/-- The moment of an event that takes the row over. -/
def LeaseEvent.takenAt? : LeaseEvent ω τ → Option τ
  | granted _ _ now => some now
  | finished _ => none
  | overwritten now => some now

structure LeaseState (ω τ : Type*) where
  holder : Option ω
  activeUntil : Option τ

namespace LeaseState

variable [LinearOrder τ]

def Free (st : LeaseState ω τ) (now : τ) : Prop := ∀ e, st.activeUntil = some e → e < now

inductive Step : LeaseState ω τ → LeaseEvent ω τ → LeaseState ω τ → Prop where
  | granted {st} {token : ω} {expiresAt now : τ} (h : st.Free now) :
      Step st (.granted token expiresAt now) ⟨some token, some expiresAt⟩
  | finished {st} {token : ω} (h : st.holder = some token) :
      Step st (.finished token) ⟨none, none⟩
  | overwritten {st} {now : τ} (h : st.Free now) : Step st (.overwritten now) ⟨none, none⟩

inductive Steps : LeaseState ω τ → List (LeaseEvent ω τ) → LeaseState ω τ → Prop where
  | nil (st) : Steps st [] st
  | cons {st st' st'' e es} : Step st e st' → Steps st' es st'' → Steps st (e :: es) st''

theorem Steps.append_iff {st st'' : LeaseState ω τ} {es fs : List (LeaseEvent ω τ)} :
    Steps st (es ++ fs) st'' ↔ ∃ st', Steps st es st' ∧ Steps st' fs st'' := by
  induction es generalizing st with
  | nil =>
      constructor
      · intro h
        exact ⟨st, .nil st, h⟩
      · rintro ⟨st', h, h'⟩
        cases h
        exact h'
  | cons e es ih =>
      constructor
      · intro h
        cases h with
        | cons hstep hrest =>
            obtain ⟨st', hes, hfs⟩ := ih.mp hrest
            exact ⟨st', .cons hstep hes, hfs⟩
      · rintro ⟨st', h, hfs⟩
        cases h with
        | cons hstep hes => exact .cons hstep (ih.mpr ⟨st', hes, hfs⟩)

theorem Steps.holder_eq {st st' : LeaseState ω τ} {es : List (LeaseEvent ω τ)} {token : ω}
    (h : Steps st es st') (hinit : st.holder = none) (hholder : st'.holder = some token) :
    ∃ fs expiresAt now, es = fs ++ [.granted token expiresAt now] := by
  induction es using List.reverseRecOn with
  | nil =>
      cases h
      rw [hinit] at hholder
      cases hholder
  | append_singleton es e =>
      obtain ⟨mid, -, hlast⟩ := append_iff.mp h
      cases hlast with
      | cons hstep hnil =>
          cases hnil
          cases hstep with
          | granted _ =>
              cases hholder
              exact ⟨es, _, _, rfl⟩
          | finished _ => cases hholder
          | overwritten _ => cases hholder

/-- A lease is finished only right after it was granted, with nothing in between. -/
theorem Steps.finished_after_granted {st st' : LeaseState ω τ} {es fs : List (LeaseEvent ω τ)}
    {token : ω} (h : Steps st (es ++ .finished token :: fs) st') (hinit : st.holder = none) :
    ∃ es' expiresAt now, es = es' ++ [.granted token expiresAt now] := by
  obtain ⟨mid, hes, hrest⟩ := append_iff.mp h
  cases hrest with
  | cons hstep _ =>
      cases hstep with
      | finished hholder => exact hes.holder_eq hinit hholder

/-- While a granted lease runs, the row is taken over only after its holder has finished. -/
theorem Steps.finished_before_taken {st st' : LeaseState ω τ} {es mid fs : List (LeaseEvent ω τ)}
    {token : ω} {expiresAt now later : τ} {e : LeaseEvent ω τ}
    (h : Steps st (es ++ .granted token expiresAt now :: mid ++ e :: fs) st')
    (htaken : e.takenAt? = some later) (hclock : ∀ m ∈ mid, ∀ t, m.takenAt? = some t → t ≤ later)
    (hactive : later ≤ expiresAt) : ∃ mid', mid = .finished token :: mid' := by
  rw [List.append_assoc] at h
  obtain ⟨before, -, h⟩ := append_iff.mp h
  cases h with
  | cons hgrant h =>
      cases hgrant
      have hbusy : ∀ t, t ≤ later → ¬ Free ⟨some token, some expiresAt⟩ t := by
        intro t ht hfree
        exact absurd (hfree expiresAt rfl) (not_lt.mpr (ht.trans hactive))
      cases mid with
      | nil =>
          cases h with
          | cons hstep _ =>
              cases hstep with
              | granted hfree =>
                  cases htaken
                  exact absurd hfree (hbusy _ le_rfl)
              | finished _ => cases htaken
              | overwritten hfree =>
                  cases htaken
                  exact absurd hfree (hbusy _ le_rfl)
      | cons m mid =>
          cases h with
          | cons hstep _ =>
              cases hstep with
              | granted hfree =>
                  exact absurd hfree (hbusy _ (hclock _ List.mem_cons_self _ rfl))
              | finished hholder =>
                  cases hholder
                  exact ⟨mid, rfl⟩
              | overwritten hfree =>
                  exact absurd hfree (hbusy _ (hclock _ List.mem_cons_self _ rfl))

end LeaseState

end WaitLocalAgent.Foundation
