import Mathlib.Data.List.Basic
import Mathlib.Data.List.Induction

/-!
# Runs with a log

A machine takes steps, and a step leaves events in a log. A run is a finite sequence of steps from
one start state, and its log holds the events of all its steps, oldest first. Nothing here knows
what the states and the events are.
-/

namespace Runs

variable {σ ε : Type*} {Step Step' : σ → List ε → σ → Prop} {init s s' : σ} {log : List ε}

/-- The state `s` is reached from `init`, and `log` is what the steps on the way left. -/
inductive Run (Step : σ → List ε → σ → Prop) (init : σ) : σ → List ε → Prop
  | nil : Run Step init init []
  | snoc {s log es s'} : Run Step init s log → Step s es s' → Run Step init s' (log ++ es)

namespace Run

theorem invariant {I : σ → List ε → Prop} (h0 : I init [])
    (hstep : ∀ s log es s', I s log → Step s es s' → I s' (log ++ es))
    (h : Run Step init s log) : I s log := by
  induction h with
  | nil => exact h0
  | snoc _ hs ih => exact hstep _ _ _ _ ih hs

theorem mono (hsub : ∀ s es s', Step s es s' → Step' s es s') (h : Run Step init s log) :
    Run Step' init s log := by
  induction h with
  | nil => exact .nil
  | snoc _ hs ih => exact .snoc ih (hsub _ _ _ hs)

/-- What holds of every new event, and is kept by every step with the events it adds, holds of every
event of the log with those after it. -/
theorem after {P : σ → ε → List ε → Prop}
    (hnew : ∀ s es s' a e b, Step s es s' → es = a ++ e :: b → P s' e b)
    (hkeep : ∀ s e post es s', P s e post → Step s es s' → P s' e (post ++ es))
    (h : Run Step init s log) : ∀ pre e post, log = pre ++ e :: post → P s e post := by
  induction h with
  | nil =>
    intro pre e post hlog
    simp at hlog
  | snoc hrun hstep ih =>
    intro pre e post hlog
    rcases List.append_eq_append_iff.mp hlog with ⟨a, rfl, hes⟩ | ⟨c, hold, hc⟩
    · exact hnew _ _ _ a e post hstep hes
    · cases c with
      | nil => exact hnew _ _ _ [] e post hstep (by simpa using hc.symm)
      | cons x c =>
        obtain ⟨rfl, rfl⟩ : e = x ∧ post = c ++ _ := by simpa using hc
        exact hkeep _ _ _ _ _ (ih pre _ _ hold) hstep

end Run

/-! ## The last event of a kind -/

/-- What the last event with a value under `f` says. -/
def lastSome {β : Type*} (f : ε → Option β) (log : List ε) : Option β :=
  log.foldl (fun found e => (f e).or found) none

variable {β : Type*} {f : ε → Option β}

@[simp] theorem lastSome_nil : lastSome f [] = none := rfl

@[simp] theorem lastSome_snoc (log : List ε) (e : ε) :
    lastSome f (log ++ [e]) = (f e).or (lastSome f log) := by
  simp [lastSome]

theorem lastSome_append_of_none (log es : List ε) (h : ∀ e ∈ es, f e = none) :
    lastSome f (log ++ es) = lastSome f log := by
  induction es using List.reverseRecOn with
  | nil => simp
  | append_singleton es e ih =>
    rw [← List.append_assoc, lastSome_snoc, h e (by simp), Option.none_or]
    exact ih fun x hx => h x (by simp [hx])

theorem lastSome_append_of_some {log es : List ε} {b : β} (h : lastSome f es = some b) :
    lastSome f (log ++ es) = some b := by
  induction es using List.reverseRecOn with
  | nil => simp at h
  | append_singleton es e ih =>
    rw [← List.append_assoc, lastSome_snoc]
    rw [lastSome_snoc] at h
    cases he : f e with
    | some b' => simpa [he] using h
    | none => exact ih (by simpa [he] using h)

theorem lastSome_of_stays {b : β} {pre mid : List ε} {e : ε} (he : f e = some b)
    (hmid : ∀ x ∈ mid, f x = none ∨ f x = some b) : lastSome f (pre ++ e :: mid) = some b := by
  induction mid using List.reverseRecOn with
  | nil => simp [he]
  | append_singleton mid x ih =>
    rw [← List.cons_append, ← List.append_assoc, lastSome_snoc]
    rcases hmid x (by simp) with hx | hx
    · rw [hx, Option.none_or]
      exact ih fun y hy => hmid y (by simp [hy])
    · simp [hx]

/-! ## What every event finds before it -/

/-- Every event of the log has the property, given the events before it. -/
def Each (P : List ε → ε → Prop) (log : List ε) : Prop :=
  ∀ pre e post, log = pre ++ e :: post → P pre e

theorem Each.nil {P : List ε → ε → Prop} : Each P [] := fun _ _ _ h => by simp at h

theorem Each.append {P : List ε → ε → Prop} {log es : List ε} (h : Each P log)
    (hes : Each (fun pre => P (log ++ pre)) es) : Each P (log ++ es) := by
  intro pre e post heq
  rcases List.append_eq_append_iff.mp heq with ⟨c, rfl, hc⟩ | ⟨c, hc, hd⟩
  · exact hes c e post hc
  · cases c with
    | nil => simpa [hc] using hes [] e post (by simpa using hd.symm)
    | cons x c =>
      simp only [List.cons_append, List.cons.injEq] at hd
      exact hd.1 ▸ h pre x c hc

theorem Each.cons {P : List ε → ε → Prop} {e : ε} {es : List ε} (he : P [] e)
    (hes : Each (fun pre => P (e :: pre)) es) : Each P (e :: es) := by
  rintro (_ | ⟨x, pre⟩) e' post heq
  · cases heq
    exact he
  · cases heq
    exact hes pre e' post rfl

theorem Each.of_forall {P : List ε → ε → Prop} (h : ∀ pre, ∀ e ∈ log, P pre e) : Each P log :=
  fun pre e _ heq => h pre e (by simp [heq])

/-! ## What happened and was not undone -/

/-- Some event of the log has `P`, and none after it has `Q`. -/
def Since (P Q : ε → Prop) (log : List ε) : Prop :=
  ∃ pre e post, log = pre ++ e :: post ∧ P e ∧ ∀ x ∈ post, ¬ Q x

theorem not_since_nil {P Q : ε → Prop} : ¬ Since P Q [] := by simp [Since]

theorem since_snoc {P Q : ε → Prop} (log : List ε) (e : ε) :
    Since P Q (log ++ [e]) ↔ P e ∨ Since P Q log ∧ ¬ Q e := by
  constructor
  · rintro ⟨pre, x, post, hlog, hx, hpost⟩
    rcases List.eq_nil_or_concat post with rfl | ⟨post, y, rfl⟩
    · obtain ⟨-, heq⟩ := List.append_inj' hlog rfl
      cases heq
      exact .inl hx
    · rw [List.concat_eq_append, ← List.cons_append, ← List.append_assoc] at hlog
      obtain ⟨rfl, heq⟩ := List.append_inj' hlog rfl
      cases heq
      exact .inr ⟨⟨pre, x, post, rfl, hx, fun z hz => hpost z (by simp [hz])⟩, hpost e (by simp)⟩
  · rintro (he | ⟨⟨pre, x, post, rfl, hx, hpost⟩, he⟩)
    · exact ⟨log, e, [], rfl, he, by simp⟩
    · refine ⟨pre, x, post ++ [e], by simp, hx, ?_⟩
      simpa [or_imp, forall_and] using ⟨hpost, he⟩

end Runs
