import Mathlib.Algebra.BigOperators.Group.List.Basic
import Mathlib.Algebra.Order.BigOperators.Group.List
import Mathlib.Algebra.Order.Field.Basic
import Mathlib.Tactic.FieldSimp
import Mathlib.Tactic.Linarith
import Mathlib.Tactic.Ring

/-!
# Shares with a least width

A width is shared in proportion to amounts, smallest first. A share that would be less than the least one is
raised to it, and the amounts that are left share what is left of the width.
-/

namespace Share

variable {K : Type*} [Field K] [LinearOrder K]

/-- The share of `a` where `amount` and `width` are left. -/
def share (least a amount width : K) : K := max least (a / amount * width)

def shares (least : K) : (amount width : K) → List K → List K
  | _, _, [] => []
  | amount, width, a :: rest =>
    share least a amount width :: shares least (amount - a) (width - share least a amount width) rest

variable {least a amount width c : K} {rest l : List K}

@[simp] theorem length_shares (least amount width : K) (l : List K) :
    (shares least amount width l).length = l.length := by
  induction l generalizing amount width with
  | nil => rfl
  | cons a rest ih => simp [shares, ih]

theorem least_le_share : least ≤ share least a amount width := le_max_left _ _

theorem least_le_of_mem {w : K} (h : w ∈ shares least amount width l) : least ≤ w := by
  induction l generalizing amount width with
  | nil => cases h
  | cons a rest ih =>
    rcases List.mem_cons.mp h with rfl | h
    · exact least_le_share
    · exact ih h

variable [IsStrictOrderedRing K]

/-! ## What can be shared -/

/-- Positive amounts, smallest first, that sum to `amount`, and room for a least share for each. -/
structure Shareable (least amount width : K) (l : List K) : Prop where
  pos : ∀ a ∈ l, 0 < a
  sorted : l.Pairwise (· ≤ ·)
  sum : amount = l.sum
  room : l.length * least ≤ width

namespace Shareable

theorem amount_pos (h : Shareable least amount width (a :: rest)) : 0 < amount := by
  rw [h.sum, List.sum_cons]
  have hrest : 0 ≤ rest.sum := List.sum_nonneg fun x hx => (h.pos x (List.mem_cons_of_mem _ hx)).le
  linarith [h.pos a List.mem_cons_self]

theorem length_mul_le (h : Shareable least amount width (a :: rest)) : (rest.length + 1) * a ≤ amount := by
  have hle : ∀ x ∈ a :: rest, a ≤ x := by
    intro x hx
    rcases List.mem_cons.mp hx with rfl | hx
    · exact le_rfl
    · exact List.rel_of_pairwise_cons h.sorted hx
  have := List.card_nsmul_le_sum (a :: rest) a hle
  rw [nsmul_eq_mul, ← h.sum] at this
  simpa using this

/-- What is left after the first share still has room for the others. -/
theorem room_left (hleast : 0 ≤ least) (h : Shareable least amount width (a :: rest)) :
    rest.length * least ≤ width - share least a amount width := by
  have hroom := h.room
  rw [List.length_cons, Nat.cast_add, Nat.cast_one, add_mul, one_mul] at hroom
  rcases max_choice least (a / amount * width) with hw | hw
  · rw [share, hw]
    linarith
  · have hamount := h.amount_pos
    have hpart := h.length_mul_le
    have hwidth : 0 ≤ width := le_trans (by positivity) h.room
    have hleft : width - a / amount * width = width * (amount - a) / amount := by
      field_simp
    rw [share, hw, hleft, le_div_iff₀ hamount]
    have hn : (0 : K) ≤ rest.length := Nat.cast_nonneg _
    have hn1 : (0 : K) < rest.length + 1 := by linarith
    -- Both sides times the number of amounts: the width is enough, and `a` is at most its part.
    refine le_of_mul_le_mul_left ?_ hn1
    calc (rest.length + 1) * (rest.length * least * amount)
        = (rest.length * least + least) * (rest.length * amount) := by ring
      _ ≤ width * (rest.length * amount) := by gcongr
      _ ≤ width * ((rest.length + 1) * (amount - a)) :=
          mul_le_mul_of_nonneg_left (by linarith) hwidth
      _ = (rest.length + 1) * (width * (amount - a)) := by ring

theorem tail (hleast : 0 ≤ least) (h : Shareable least amount width (a :: rest)) :
    Shareable least (amount - a) (width - share least a amount width) rest where
  pos x hx := h.pos x (List.mem_cons_of_mem _ hx)
  sorted := h.sorted.of_cons
  sum := by
    rw [h.sum, List.sum_cons]
    ring
  room := h.room_left hleast

theorem share_last (h : Shareable least amount width [a]) : share least a amount width = width := by
  have hamount := h.amount_pos
  have hsum : amount = a := by simpa using h.sum
  have hroom : least ≤ width := by simpa using h.room
  rw [share, hsum, div_self (hsum ▸ hamount.ne'), one_mul, max_eq_right hroom]

theorem sum_shares (hleast : 0 ≤ least) (h : Shareable least amount width (a :: rest)) :
    (shares least amount width (a :: rest)).sum = width := by
  induction rest generalizing a amount width with
  | nil => simp [shares, h.share_last]
  | cons b rest ih =>
    rw [shares, List.sum_cons, ih (h.tail hleast)]
    ring

/-! ## Larger amounts have larger shares -/

theorem share_le_of_mem (hleast : 0 ≤ least) (h : Shareable least amount width l) (hc : ∀ a ∈ l, c ≤ a)
    {w : K} (hw : w ∈ shares least amount width l) : share least c amount width ≤ w := by
  induction l generalizing amount width with
  | nil => cases hw
  | cons a rest ih =>
    have hamount := h.amount_pos
    have hwidth : 0 ≤ width := le_trans (by positivity) h.room
    have hle : c / amount * width ≤ a / amount * width := by
      have := hc a List.mem_cons_self
      gcongr
    rcases List.mem_cons.mp hw with rfl | hw
    · exact max_le_max le_rfl hle
    · refine le_trans (max_le least_le_share ?_)
        (ih (h.tail hleast) (fun x hx => hc x (List.mem_cons_of_mem _ hx)) hw)
      rcases le_total (a / amount * width) least with hsmall | hlarge
      · exact (hle.trans hsmall).trans least_le_share
      · -- The first share is in proportion, so the others are as they were.
        refine le_of_eq_of_le ?_ (le_max_right _ _)
        rw [share, max_eq_right hlarge]
        have hrest : amount - a ≠ 0 := by
          intro hzero
          have htail := h.tail hleast
          cases rest with
          | nil => cases hw
          | cons b rest => exact htail.amount_pos.ne' hzero
        field_simp

theorem pairwise_shares (hleast : 0 ≤ least) (h : Shareable least amount width l) :
    (shares least amount width l).Pairwise (· ≤ ·) := by
  induction l generalizing amount width with
  | nil => exact .nil
  | cons a rest ih =>
    refine List.pairwise_cons.mpr ⟨fun w hw => ?_, ih (h.tail hleast)⟩
    have hmem : w ∈ shares least amount width (a :: rest) := List.mem_cons_of_mem _ hw
    refine h.share_le_of_mem hleast (fun x hx => ?_) hmem
    rcases List.mem_cons.mp hx with rfl | hx
    · exact le_rfl
    · exact List.rel_of_pairwise_cons h.sorted hx

end Shareable

end Share
