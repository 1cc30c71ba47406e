import GuiQml.Lib.Run
import Mathlib.Data.Set.Insert

/-!
# Requests and the jobs that carry them

Requests for items wait until a job departs with all of them. One job is under way at a time. An
urgent request recalls it: a recalled job bounces and its items wait again. Otherwise it is delivered,
or it is lost with what it carries.
-/

namespace Courier

open Runs

variable {ι κ ρ : Type*}

inductive Event (ι κ ρ : Type*)
  | request (item : ι)
  | depart (job : κ)
  | deliver (job : κ) (result : ρ)
  | bounce (job : κ)
  | lose (job : κ)

structure Ledger (ι κ : Type*) where
  waiting : Set ι
  aboard : Option κ
  recalled : Prop

def Ledger.start : Ledger ι κ := ⟨∅, none, False⟩

inductive Step (load : κ → Set ι) (urgent : Set ι) :
    Ledger ι κ → List (Event ι κ ρ) → Ledger ι κ → Prop
  | request {l} (item : ι) : Step load urgent l [.request item]
      ⟨insert item l.waiting, l.aboard, l.recalled ∨ item ∈ urgent⟩
  | depart {l} (job : κ) : l.aboard = none → load job = l.waiting →
      Step load urgent l [.depart job] ⟨∅, some job, False⟩
  | deliver {l} (job : κ) (result : ρ) : l.aboard = some job → ¬ l.recalled →
      Step load urgent l [.deliver job result] ⟨l.waiting, none, l.recalled⟩
  | bounce {l} (job : κ) : l.aboard = some job → l.recalled →
      Step load urgent l [.bounce job] ⟨l.waiting ∪ load job, none, l.recalled⟩
  | lose {l} (job : κ) : l.aboard = some job → ¬ l.recalled →
      Step load urgent l [.lose job] ⟨l.waiting, none, l.recalled⟩

/-! ## What happens to a job -/

section Jobs

variable {load : κ → Set ι} {urgent : Set ι} {l l' : Ledger ι κ} {log : List (Event ι κ ρ)}

/-- Only requests, and none of them urgent. -/
def Calm (urgent : Set ι) (events : List (Event ι κ ρ)) : Prop :=
  ∀ e ∈ events, ∃ item, e = .request item ∧ item ∉ urgent

def Requests (events : List (Event ι κ ρ)) : Prop := ∀ e ∈ events, ∃ item, e = .request item

/-- The last departure of the log is that of `job`, and `rest` is what followed. -/
def UnderWay (urgent : Set ι) (recalled : Prop) (job : κ) (log : List (Event ι κ ρ)) : Prop :=
  ∃ before rest, log = before ++ .depart job :: rest ∧ Requests rest ∧
    (¬ recalled → Calm urgent rest)

theorem Requests.snoc (h : Requests log) (item : ι) : Requests (log ++ [.request item]) := by
  intro e he
  rcases List.mem_append.mp he with he | he
  · exact h e he
  · exact ⟨item, List.mem_singleton.mp he⟩

theorem Calm.snoc (h : Calm urgent log) {item : ι} (hitem : item ∉ urgent) :
    Calm urgent (log ++ [.request item]) := by
  intro e he
  rcases List.mem_append.mp he with he | he
  · exact h e he
  · exact ⟨item, List.mem_singleton.mp he, hitem⟩

theorem UnderWay.request {recalled : Prop} {job : κ} (item : ι)
    (h : UnderWay urgent recalled job log) :
    UnderWay urgent (recalled ∨ item ∈ urgent) job (log ++ [.request item]) := by
  obtain ⟨before, rest, rfl, hreq, hcalm⟩ := h
  refine ⟨before, rest ++ [.request item], by simp, hreq.snoc item, ?_⟩
  intro hquiet
  rw [not_or] at hquiet
  exact (hcalm hquiet.1).snoc hquiet.2

theorem run_underWay (h : Run (Step load urgent) Ledger.start l log) :
    ∀ job, l.aboard = some job → UnderWay urgent l.recalled job log := by
  induction h with
  | nil =>
    intro job hjob
    cases hjob
  | snoc hrun hstep ih =>
    intro job hjob
    cases hstep with
    | request item => exact (ih job hjob).request item
    | depart job' =>
      cases hjob
      exact ⟨_, [], rfl, List.forall_mem_nil _, fun _ => List.forall_mem_nil _⟩
    | deliver | bounce | lose => cases hjob

/-- The events between the departure of a job and an end of it that is not a return. -/
def CalmSince (urgent : Set ι) (job : κ) (pre : List (Event ι κ ρ)) : Prop :=
  ∃ before rest, pre = before ++ .depart job :: rest ∧ Calm urgent rest

/-- A job is delivered, or lost, only when no urgent request came since its departure. -/
theorem run_calm (h : Run (Step load urgent) Ledger.start l log) :
    Each (fun pre e => ∀ job, (∃ result, e = .deliver job result) ∨ e = .lose job →
      CalmSince urgent job pre) log := by
  induction h with
  | nil => exact Each.nil
  | @snoc l log es l' hrun hstep ih =>
    have hcalm : ∀ job, l.aboard = some job → ¬ l.recalled → CalmSince urgent job log := by
      intro job haboard hrecalled
      obtain ⟨before, rest, hlog, -, hcalm⟩ := run_underWay hrun job haboard
      exact ⟨before, rest, hlog, hcalm hrecalled⟩
    refine ih.append ?_
    cases hstep with
    | request | depart | bounce => exact Each.cons (by simp) Each.nil
    | deliver job result haboard hrecalled | lose job haboard hrecalled =>
      refine Each.cons ?_ Each.nil
      intro job' hend
      obtain rfl : job = job' := by simpa using hend
      rw [List.append_nil]
      exact hcalm job haboard hrecalled

end Jobs

/-! ## What happens to a request -/

section Requests

variable {load : κ → Set ι} {urgent : Set ι} {l l' : Ledger ι κ} {log : List (Event ι κ ρ)}
  {item : ι} {post : List (Event ι κ ρ)}

/-- After the request a job departed with the item, and `rest` is what followed. -/
def Boarded (load : κ → Set ι) (item : ι) (post : List (Event ι κ ρ)) (job : κ)
    (rest : List (Event ι κ ρ)) : Prop :=
  ∃ before, post = before ++ .depart job :: rest ∧ item ∈ load job

/-- Where the item of a request is, by what followed the request. -/
inductive Fate (load : κ → Set ι) (urgent : Set ι) (l : Ledger ι κ) (item : ι)
    (post : List (Event ι κ ρ)) : Prop
  | waiting : item ∈ l.waiting → Fate load urgent l item post
  | aboard {job rest} : l.aboard = some job → Boarded load item post job rest → Requests rest →
      (¬ l.recalled → Calm urgent rest) → Fate load urgent l item post
  | delivered {job rest result after} : Boarded load item post job (rest ++ .deliver job result :: after) →
      Calm urgent rest → Fate load urgent l item post
  | lost {job rest after} : Boarded load item post job (rest ++ .lose job :: after) →
      Calm urgent rest → Fate load urgent l item post

theorem Boarded.append {job : κ} {rest : List (Event ι κ ρ)} (h : Boarded load item post job rest)
    (es : List (Event ι κ ρ)) : Boarded load item (post ++ es) job (rest ++ es) := by
  obtain ⟨before, rfl, hmem⟩ := h
  exact ⟨before, by simp, hmem⟩

theorem Fate.step {es : List (Event ι κ ρ)} (h : Fate load urgent l item post)
    (hstep : Step load urgent l es l') : Fate load urgent l' item (post ++ es) := by
  cases h with
  | delivered hboard hcalm =>
    have := hboard.append es
    rw [List.append_assoc] at this
    exact .delivered this hcalm
  | lost hboard hcalm =>
    have := hboard.append es
    rw [List.append_assoc] at this
    exact .lost this hcalm
  | waiting hwait =>
    cases hstep with
    | request => exact .waiting (Set.mem_insert_of_mem _ hwait)
    | depart job _ hload =>
      have hmem : item ∈ load job := hload ▸ hwait
      exact .aboard rfl ⟨post, rfl, hmem⟩ (List.forall_mem_nil _) fun _ => List.forall_mem_nil _
    | deliver | lose => exact .waiting hwait
    | bounce => exact .waiting (.inl hwait)
  | aboard haboard hboard hreq hcalm =>
    cases hstep with
    | request item' =>
      refine .aboard haboard (hboard.append _) (hreq.snoc item') ?_
      intro hquiet
      rw [not_or] at hquiet
      exact (hcalm hquiet.1).snoc hquiet.2
    | depart _ hnone => simp [hnone] at haboard
    | deliver job result hjob hrecalled =>
      obtain rfl := Option.some.inj (hjob.symm.trans haboard)
      exact .delivered (hboard.append _) (hcalm hrecalled)
    | lose job hjob hrecalled =>
      obtain rfl := Option.some.inj (hjob.symm.trans haboard)
      exact .lost (hboard.append _) (hcalm hrecalled)
    | bounce job hjob =>
      obtain rfl := Option.some.inj (hjob.symm.trans haboard)
      obtain ⟨before, -, hmem⟩ := hboard
      exact .waiting (.inr hmem)

theorem run_fate (h : Run (Step load urgent) Ledger.start l log) (pre : List (Event ι κ ρ))
    (hlog : log = pre ++ .request item :: post) : Fate load urgent l item post := by
  refine h.after (P := fun l e post => ∀ item, e = .request item → Fate load urgent l item post)
    ?_ ?_ pre _ post hlog item rfl
  · rintro l es l' a e b hstep hes item rfl
    -- a step has one event
    rcases a with _ | ⟨x, a⟩
    · cases hstep <;> cases hes
      exact .waiting (Set.mem_insert _ _)
    · cases hstep <;> simp at hes
  · intro l e post es l' hfate hstep item he
    exact (hfate item he).step hstep

end Requests

end Courier
