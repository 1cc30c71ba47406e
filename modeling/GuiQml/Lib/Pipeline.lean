import Mathlib.Data.List.Basic
import Mathlib.Data.List.Range

/-!
# Work in a pipeline

Work is handed in, a worker does it in order, and its results are collected in order. Nothing here knows
what the work is. Where each piece of work carries the next number, those outstanding are the last ones
that were given out.
-/

namespace Pipelines

structure Pipeline (W R : Type*) where
  /-- Oldest first. -/
  waiting : List W := []
  /-- Oldest first. -/
  returned : List R := []

namespace Pipeline

variable {W R : Type*} (p : Pipeline W R)

def submit (w : W) : Pipeline W R := { p with waiting := p.waiting ++ [w] }

def outstanding : Nat := p.returned.length + p.waiting.length

/-- The results carry the numbers of their work, and nothing is left out up to the number given last. -/
def Numbered (f : W → Nat) (g : R → Nat) (last : Nat) : Prop :=
  ∃ first, first + p.outstanding = last + 1 ∧
    p.returned.map g ++ p.waiting.map f = List.range' first p.outstanding

variable {p} {f : W → Nat} {g : R → Nat} {last : Nat}

@[simp] theorem outstanding_submit (w : W) : (p.submit w).outstanding = p.outstanding + 1 := by
  simp [outstanding, submit, Nat.add_assoc]

theorem outstanding_eq_zero : p.outstanding = 0 ↔ p.returned = [] ∧ p.waiting = [] := by
  simp [outstanding]

theorem outstanding_run {w : W} {rest : List W} (h : p.waiting = w :: rest) (r : R) :
    (⟨rest, p.returned ++ [r]⟩ : Pipeline W R).outstanding = p.outstanding := by
  simp only [outstanding, h, List.length_append, List.length_cons, List.length_nil]
  omega

theorem outstanding_deliver {r : R} {rest : List R} (h : p.returned = r :: rest) :
    (⟨p.waiting, rest⟩ : Pipeline W R).outstanding + 1 = p.outstanding := by
  simp only [outstanding, h, List.length_cons]
  omega

namespace Numbered

theorem start : (⟨[], []⟩ : Pipeline W R).Numbered f g last := ⟨last + 1, by simp [outstanding], rfl⟩

theorem submit (h : p.Numbered f g last) {w : W} (hw : f w = last + 1) :
    (p.submit w).Numbered f g (last + 1) := by
  obtain ⟨first, hlast, hnumbers⟩ := h
  refine ⟨first, by rw [outstanding_submit]; omega, ?_⟩
  rw [outstanding_submit, List.range'_1_concat, ← hnumbers, hlast]
  simp [Pipeline.submit, hw]

theorem run (h : p.Numbered f g last) {w : W} {rest : List W} (hp : p.waiting = w :: rest) {r : R}
    (hr : g r = f w) : (⟨rest, p.returned ++ [r]⟩ : Pipeline W R).Numbered f g last := by
  obtain ⟨first, hlast, hnumbers⟩ := h
  refine ⟨first, by rw [outstanding_run hp]; exact hlast, ?_⟩
  rw [outstanding_run hp, ← hnumbers, hp]
  simp [hr]

theorem deliver (h : p.Numbered f g last) {r : R} {rest : List R} (hp : p.returned = r :: rest) :
    (⟨p.waiting, rest⟩ : Pipeline W R).Numbered f g last := by
  obtain ⟨first, hlast, hnumbers⟩ := h
  have hcount := outstanding_deliver hp
  rw [← hcount] at hlast
  refine ⟨first + 1, by omega, ?_⟩
  rw [← hcount, List.range'_succ, hp] at hnumbers
  simpa using (List.cons.inj hnumbers).2

/-- The oldest result carries the number given last exactly when nothing else is outstanding. -/
theorem newest_iff (h : p.Numbered f g last) {r : R} {rest : List R} (hp : p.returned = r :: rest) :
    g r = last ↔ rest = [] ∧ p.waiting = [] := by
  obtain ⟨first, hlast, hnumbers⟩ := h
  have hcount := outstanding_deliver hp
  rw [← hcount] at hlast hnumbers
  rw [List.range'_succ, hp] at hnumbers
  have hfirst : g r = first := (List.cons.inj hnumbers).1
  have hnone := outstanding_eq_zero (p := (⟨p.waiting, rest⟩ : Pipeline W R))
  rw [hfirst, ← hnone]
  omega

theorem waiting_head (h : p.Numbered f g last) {w : W} {rest : List W} (hp : p.waiting = w :: rest) :
    f w + rest.length = last := by
  obtain ⟨first, hlast, hnumbers⟩ := h
  have hcount : p.outstanding = p.returned.length + (rest.length + 1) := by
    simp [outstanding, hp]
  have hget : (p.returned.map g ++ p.waiting.map f)[p.returned.length]? = some (f w) := by
    rw [List.getElem?_append_right (by simp), hp]
    simp
  rw [hnumbers, List.getElem?_range' (by omega)] at hget
  have := Option.some.inj hget
  omega

theorem returned_le (h : p.Numbered f g last) {r : R} (hr : r ∈ p.returned) :
    g r + p.waiting.length ≤ last := by
  obtain ⟨first, hlast, hnumbers⟩ := h
  obtain ⟨i, hi, rfl⟩ := List.mem_iff_getElem.mp hr
  have hget : (p.returned.map g ++ p.waiting.map f)[i]? = some (g p.returned[i]) := by
    rw [List.getElem?_append_left (by simpa using hi)]
    simp [hi]
  unfold outstanding at hlast hnumbers
  rw [hnumbers, List.getElem?_range' (by omega)] at hget
  have := Option.some.inj hget
  omega

end Numbered

end Pipeline

end Pipelines
