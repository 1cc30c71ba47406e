import Mathlib.Logic.Relation

/-!
# Runs of a machine that takes events

Some events are allowed in a state and some are not. A run takes allowed events only.
-/

namespace Reach

variable {σ ε : Type*} {step : σ → ε → σ} {Allowed Allowed' : σ → ε → Prop} {start s : σ}

def Reaches (step : σ → ε → σ) (Allowed : σ → ε → Prop) : σ → σ → Prop :=
  Relation.ReflTransGen fun s t => ∃ e, Allowed s e ∧ t = step s e

/-- Every event is allowed when its turn comes. -/
def Plays (step : σ → ε → σ) (Allowed : σ → ε → Prop) : σ → List ε → Prop
  | _, [] => True
  | s, e :: events => Allowed s e ∧ Plays step Allowed (step s e) events

/-- Some event has the property in the state in which it comes. -/
def Happens (step : σ → ε → σ) (P : σ → ε → Prop) : σ → List ε → Prop
  | _, [] => False
  | s, e :: events => P s e ∨ Happens step P (step s e) events

namespace Reaches

/-- What every allowed event keeps holds after every run. -/
theorem invariant {I : σ → Prop} (hstart : I start) (hstep : ∀ s e, I s → Allowed s e → I (step s e))
    (h : Reaches step Allowed start s) : I s := by
  induction h with
  | refl => exact hstart
  | tail _ hlast ih =>
    obtain ⟨e, hallowed, rfl⟩ := hlast
    exact hstep _ e ih hallowed

theorem snoc (h : Reaches step Allowed start s) (e : ε) (he : Allowed s e) :
    Reaches step Allowed start (step s e) := h.tail ⟨e, he, rfl⟩

theorem play (h : Reaches step Allowed start s) {events : List ε} (hplays : Plays step Allowed s events) :
    Reaches step Allowed start (events.foldl step s) := by
  induction events generalizing s with
  | nil => exact h
  | cons e events ih => exact ih (h.snoc e hplays.1) hplays.2

theorem events (hall : ∀ s e, Allowed s e) (h : Reaches step Allowed start s) (events : List ε) :
    Reaches step Allowed start (events.foldl step s) := by
  induction events generalizing s with
  | nil => exact h
  | cons e events ih => exact ih (h.snoc e (hall s e))

end Reaches

section Happens

variable {P : σ → ε → Prop} {I : σ → Prop} {events : List ε}

/-- What the event leaves and every event keeps holds from it on. -/
theorem Happens.kept (hfirst : ∀ s e, P s e → I (step s e)) (hstep : ∀ s e, I s → I (step s e))
    (h : Happens step P s events) : I (events.foldl step s) := by
  have hkept (events : List ε) : ∀ s, I s → I (events.foldl step s) := by
    induction events with
    | nil => exact fun _ h => h
    | cons e events ih => exact fun s h => ih _ (hstep s e h)
  induction events generalizing s with
  | nil => exact h.elim
  | cons e events ih =>
    cases h with
    | inl hhere => exact hkept events _ (hfirst s e hhere)
    | inr hlater => exact ih hlater

/-- What every other event keeps holds until it happens. -/
theorem kept_until (hstart : I s) (hstep : ∀ s e, I s → ¬P s e → I (step s e))
    (h : ¬Happens step P s events) : I (events.foldl step s) := by
  induction events generalizing s with
  | nil => exact hstart
  | cons e events ih =>
    rw [Happens, not_or] at h
    exact ih (hstep s e hstart h.1) h.2

end Happens

end Reach
