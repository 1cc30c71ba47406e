import Mathlib.Data.List.Count

/-!
# Journals

The notes of a run, newest first. A rule says on which older notes a note may be written.
-/

namespace Journal

variable {N : Type*} {Rule : N → List N → Prop} {note : N} {older newer : List N}

/-- Every note was written as the rule wants it. -/
def Keeps (Rule : N → List N → Prop) : List N → Prop
  | [] => True
  | note :: older => Rule note older ∧ Keeps Rule older

namespace Keeps

theorem write (h : Keeps Rule older) (hrule : Rule note older) : Keeps Rule (note :: older) :=
  ⟨hrule, h⟩

theorem rule (h : Keeps Rule (newer ++ note :: older)) : Rule note older := by
  induction newer with
  | nil => exact h.1
  | cons _ newer ih => exact ih h.2

theorem count_le_one [BEq N] [LawfulBEq N] (honce : ∀ older, Rule note older → note ∉ older)
    (h : Keeps Rule newer) : newer.count note ≤ 1 := by
  induction newer with
  | nil => simp
  | cons n newer ih =>
    rw [List.count_cons]
    split
    next heq =>
      obtain rfl := eq_of_beq heq
      exact Nat.le_of_eq (congrArg (· + 1) (List.count_eq_zero_of_not_mem (honce _ h.1)))
    next => exact ih h.2

end Keeps

end Journal
