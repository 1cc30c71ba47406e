import Mathlib.Data.List.Basic

/-!
# Nested scopes with a marked part

A text is read from left to right while scopes open and close. Some scopes are marked at a position,
and the text from there to the end of the scope is to be covered. `Scopes` keeps the mark of every
open scope; `Counter` keeps one depth and one position. Both find the same spans.
-/

namespace Nesting

/-- A part of a text, from the first position up to and without the second. -/
abbrev Span := Nat × Nat

/-! ## A stack of scopes -/

/-- The outermost marked scope: how deep it lies (1 for the innermost scope) and its mark. -/
def outermost : List (Option Nat) → Option (Nat × Nat)
  | [] => none
  | mark :: rest =>
    match outermost rest with
    | some (depth, start) => some (depth + 1, start)
    | none => mark.map (1, ·)

/-- What closing the innermost scope at `stop` covers: nothing while an outer scope is marked. -/
def covered (scopes : List (Option Nat)) (stop : Nat) : List Span :=
  match outermost scopes with
  | some (1, start) => [(start, stop)]
  | _ => []

theorem outermost_depth_pos {scopes : List (Option Nat)} {depth start : Nat}
    (h : outermost scopes = some (depth, start)) : 0 < depth := by
  cases scopes with
  | nil => simp [outermost] at h
  | cons mark rest =>
    simp only [outermost] at h
    split at h
    · simp only [Option.some.injEq, Prod.mk.injEq] at h
      omega
    · simp only [Option.map_eq_some_iff, Prod.mk.injEq] at h
      omega

theorem outermost_mem {scopes : List (Option Nat)} {depth start : Nat}
    (h : outermost scopes = some (depth, start)) : some start ∈ scopes := by
  induction scopes generalizing depth with
  | nil => simp [outermost] at h
  | cons mark rest ih =>
    simp only [outermost] at h
    split at h
    · rename_i d b hrest
      simp only [Option.some.injEq, Prod.mk.injEq] at h
      exact List.mem_cons_of_mem mark (ih (h.2 ▸ hrest))
    · obtain ⟨start', rfl, hs⟩ := Option.map_eq_some_iff.mp h
      simp only [Prod.mk.injEq] at hs
      simp [hs.2]

theorem outermost_eq_none_iff {scopes : List (Option Nat)} :
    outermost scopes = none ↔ ∀ start, some start ∉ scopes := by
  induction scopes with
  | nil => simp [outermost]
  | cons mark rest ih =>
    cases h : outermost rest with
    | none =>
      have hrest := ih.mp h
      cases mark <;> simp [outermost, h, hrest]
    | some p =>
      simp only [outermost, h, reduceCtorEq, false_iff, not_forall, not_not]
      exact ⟨p.2, List.mem_cons_of_mem mark (@outermost_mem rest p.1 p.2 h)⟩

/-! ## A counter -/

/-- How deep the outermost marked scope lies, 0 when there is none, and its mark. -/
structure Counter where
  depth : Nat
  start : Nat
  deriving DecidableEq, Repr

def Counter.of (scopes : List (Option Nat)) : Counter :=
  match outermost scopes with
  | some (depth, start) => ⟨depth, start⟩
  | none => ⟨0, 0⟩

@[simp] theorem Counter.of_nil : Counter.of [] = ⟨0, 0⟩ := rfl

theorem Counter.of_depth_eq_zero {scopes : List (Option Nat)} :
    (Counter.of scopes).depth = 0 ↔ outermost scopes = none := by
  unfold Counter.of
  split
  · rename_i depth start h
    have := outermost_depth_pos h
    simp only [h, reduceCtorEq, iff_false]
    omega
  · simp [*]

theorem Counter.start_of_depth_zero {scopes : List (Option Nat)}
    (h : (Counter.of scopes).depth = 0) : (Counter.of scopes).start = 0 := by
  rw [Counter.of_depth_eq_zero] at h
  simp [Counter.of, h]

theorem Counter.of_none (scopes : List (Option Nat)) :
    Counter.of (none :: scopes) =
      if (Counter.of scopes).depth = 0 then ⟨0, 0⟩
      else ⟨(Counter.of scopes).depth + 1, (Counter.of scopes).start⟩ := by
  unfold Counter.of
  cases h : outermost scopes with
  | none => simp [outermost, h]
  | some p =>
    have := outermost_depth_pos h
    simp only [outermost, h]
    rw [if_neg (by omega)]

theorem Counter.of_some (scopes : List (Option Nat)) (start : Nat) :
    Counter.of (some start :: scopes) =
      if (Counter.of (none :: scopes)).depth = 0 then ⟨1, start⟩
      else Counter.of (none :: scopes) := by
  unfold Counter.of
  cases h : outermost scopes with
  | none => simp [outermost, h]
  | some p =>
    have := outermost_depth_pos h
    simp only [outermost, h]
    rw [if_neg (by omega)]

/-- Closing a scope counts down, and the count reaches 0 when the outermost marked one closes. -/
theorem Counter.of_tail (mark : Option Nat) (scopes : List (Option Nat)) :
    Counter.of scopes =
      if (Counter.of (mark :: scopes)).depth ≤ 1 then ⟨0, 0⟩
      else ⟨(Counter.of (mark :: scopes)).depth - 1, (Counter.of (mark :: scopes)).start⟩ := by
  unfold Counter.of
  cases h : outermost scopes with
  | none => cases mark <;> simp [outermost, h]
  | some p =>
    have := outermost_depth_pos h
    simp only [outermost, h]
    rw [if_neg (by omega), Nat.add_sub_cancel]

theorem covered_eq (scopes : List (Option Nat)) (stop : Nat) :
    covered scopes stop =
      if (Counter.of scopes).depth = 1 then [((Counter.of scopes).start, stop)] else [] := by
  unfold covered Counter.of
  cases outermost scopes with
  | none => rfl
  | some p =>
    obtain ⟨_ | _ | depth, start⟩ := p <;> simp

/-! ## Covering spans of a text -/

section Cover

variable {α : Type*} (cover : List α)

/-- The text from position `pos` on, with the spans covered. -/
def redact (pos : Nat) : List Span → List α → List α
  | [], text => text
  | (start, stop) :: spans, text =>
    text.take (start - pos) ++ cover ++ redact stop spans (text.drop (stop - pos))

/-- Cover one span of the whole text. -/
def coverSpan (text : List α) (span : Span) : List α :=
  text.take span.1 ++ cover ++ text.drop span.2

/-- The spans follow each other from `pos` on and start inside a text of `size`. -/
def InOrder (pos size : Nat) : List Span → Prop
  | [] => True
  | (start, stop) :: spans => pos ≤ start ∧ start ≤ stop ∧ start ≤ size ∧ InOrder stop size spans

theorem InOrder.append {size : Nat} {spans : List Span} {start stop : Nat} :
    ∀ {pos}, InOrder pos size spans → (∀ span ∈ spans, span.2 ≤ start) → pos ≤ start →
      start ≤ stop → start ≤ size → InOrder pos size (spans ++ [(start, stop)]) := by
  induction spans with
  | nil => intro pos _ _ hp hs hz; exact ⟨hp, hs, hz, trivial⟩
  | cons span spans ih =>
    intro pos h hall hp hs hz
    obtain ⟨h1, h2, h3, h4⟩ := h
    exact ⟨h1, h2, h3, ih h4 (fun x hx => hall x (by simp [hx])) (hall span (by simp)) hs hz⟩

theorem InOrder.mono {size size' : Nat} (hsize : size ≤ size') {spans : List Span} :
    ∀ {pos}, InOrder pos size spans → InOrder pos size' spans := by
  induction spans with
  | nil => intro pos _; trivial
  | cons span spans ih =>
    intro pos h
    obtain ⟨h1, h2, h3, h4⟩ := h
    exact ⟨h1, h2, Nat.le_trans h3 hsize, ih h4⟩

theorem InOrder.last {size : Nat} {spans : List Span} {start stop : Nat} :
    ∀ {pos}, InOrder pos size (spans ++ [(start, stop)]) →
      pos ≤ start ∧ start ≤ stop ∧ start ≤ size := by
  induction spans with
  | nil => intro pos h; exact ⟨h.1, h.2.1, h.2.2.1⟩
  | cons span spans ih =>
    intro pos h
    obtain ⟨h1, h2, -, h4⟩ := h
    have := ih h4
    omega

theorem foldr_coverSpan {text : List α} {spans : List Span} :
    ∀ {pos}, InOrder pos text.length spans → pos ≤ text.length ∨ spans = [] →
      spans.foldr (fun span out => coverSpan cover out span) text =
        text.take pos ++ redact cover pos spans (text.drop pos) := by
  induction spans with
  | nil => intro pos _ _; simp [redact]
  | cons span spans ih =>
    intro pos h hpos
    obtain ⟨start, stop⟩ := span
    obtain ⟨h1, h2, h3, h4⟩ := h
    have hpos : pos ≤ text.length := hpos.resolve_right (by simp)
    have hrest : stop ≤ text.length ∨ spans = [] := by
      cases spans with
      | nil => exact .inr rfl
      | cons next spans => exact .inl (Nat.le_trans h4.1 h4.2.2.1)
    rw [List.foldr_cons, ih h4 hrest]
    simp only [coverSpan, redact]
    have htake : (text.take stop ++ redact cover stop spans (text.drop stop)).take start =
        text.take pos ++ (text.drop pos).take (start - pos) := by
      rw [List.take_append_of_le_length (by simp; omega), List.take_take, Nat.min_eq_left h2,
        ← List.take_add, Nat.add_sub_cancel' h1]
    have hdrop : (text.take stop ++ redact cover stop spans (text.drop stop)).drop stop =
        redact cover stop spans ((text.drop pos).drop (stop - pos)) := by
      rw [List.drop_drop, Nat.add_sub_cancel' (Nat.le_trans h1 h2)]
      rcases hrest with hstop | rfl
      · rw [List.drop_append_of_le_length (by simp; omega), List.drop_take]
        simp
      · simp [redact]
    rw [htake, hdrop]
    simp

/-- Leaving out the last span shows exactly when the text there is not the cover itself. -/
theorem redact_snoc_eq_iff {spans : List Span} {start stop size : Nat} :
    ∀ {pos} {text : List α}, InOrder pos size (spans ++ [(start, stop)]) →
      (redact cover pos spans text = redact cover pos (spans ++ [(start, stop)]) text ↔
        text.drop (start - pos) = cover ++ text.drop (stop - pos)) := by
  induction spans with
  | nil =>
    intro pos text _
    simp only [List.nil_append, redact, List.append_assoc]
    conv => lhs; lhs; rw [← List.take_append_drop (start - pos) text]
    rw [List.append_cancel_left_eq]
  | cons span spans ih =>
    intro pos text h
    obtain ⟨h1, h2, h3, h4⟩ := h
    obtain ⟨hlast, hstop, -⟩ := h4.last
    simp only [List.cons_append, redact]
    rw [List.append_cancel_left_eq, ih h4, List.drop_drop, List.drop_drop]
    rw [show span.2 - pos + (start - span.2) = start - pos by omega,
      show span.2 - pos + (stop - span.2) = stop - pos by omega]

end Cover

end Nesting
