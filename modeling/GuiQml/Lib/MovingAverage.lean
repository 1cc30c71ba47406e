import Mathlib.Algebra.BigOperators.Group.List.Basic
import Mathlib.Algebra.Field.Basic
import Mathlib.Algebra.Order.BigOperators.Group.List
import Mathlib.Algebra.Order.Field.Basic
import Mathlib.Data.List.DropRight
import Mathlib.Tactic.LinearCombination
import Mathlib.Tactic.Ring

/-!
# Moving averages

The averages of a list over windows that begin at each of its items and end early at its end. The newest
item comes first, so a list grows in front and forgets at its back. Averages over windows that reach the
back change when it is forgotten.
-/

namespace MovingAverage

variable {K : Type*} [Field K]

/-- The mean. That of nothing is zero. -/
def mean (xs : List K) : K := xs.sum / xs.length

/-- The mean of the items from `i` on, as many as the window holds or there are. -/
def average (window : Nat) (xs : List K) (i : Nat) : K := mean ((xs.drop i).take window)

def averages (window : Nat) (xs : List K) : List K := (List.range xs.length).map (average window xs)

variable {window i : Nat} {xs ys : List K} {x : K}

@[simp] theorem length_averages : (averages window xs).length = xs.length := by
  simp [averages]

theorem getElem?_averages (h : i < xs.length) : (averages window xs)[i]? = some (average window xs i) := by
  simp [averages, h]

/-- A window that holds the whole list is as good as any larger one. -/
theorem average_min_length : average (min xs.length window) xs i = average window xs i := by
  unfold average
  congr 1
  rcases Nat.le_total window xs.length with h | h
  · rw [Nat.min_eq_right h]
  · rw [Nat.min_eq_left h, List.take_of_length_le (by simp), List.take_of_length_le (by simp; omega)]

theorem average_cons : average window (x :: xs) (i + 1) = average window xs i := rfl

/-! ## The sum of a window -/

theorem sum_window_succ (hwindow : 0 < window) (hi : i < xs.length) :
    ((xs.drop (i + 1)).take window).sum =
      ((xs.drop i).take window).sum - xs[i] + (xs[i + window]?.getD 0) := by
  obtain ⟨k, rfl⟩ : ∃ k, window = k + 1 := ⟨window - 1, by omega⟩
  have hfirst : xs.drop i = xs[i] :: xs.drop (i + 1) := List.drop_eq_getElem_cons hi
  have hlast : ((xs.drop (i + 1)).take (k + 1)).sum =
      ((xs.drop (i + 1)).take k).sum + xs[i + (k + 1)]?.getD 0 := by
    rw [List.take_add_one, List.getElem?_drop, List.sum_append, Nat.add_right_comm, Nat.add_assoc]
    cases xs[i + (k + 1)]? <;> simp
  rw [hlast, hfirst, List.take_succ_cons, List.sum_cons]
  ring

/-! ## What is forgotten -/

theorem average_concat_of_le (h : i + window ≤ xs.length) :
    average window (xs ++ [x]) i = average window xs i := by
  unfold average
  rw [List.drop_append_of_le_length (by omega), List.take_append_of_le_length (by simp; omega)]

section Forgotten

variable [CharZero K]

theorem mean_concat (h : xs ≠ []) : mean (xs ++ [x]) = mean xs ↔ x = mean xs := by
  have hlen : (xs.length : K) ≠ 0 := by
    simpa using h
  have hmore : (xs.length : K) + 1 ≠ 0 := by exact_mod_cast Nat.succ_ne_zero xs.length
  simp only [mean, List.sum_append, List.sum_cons, List.sum_nil, List.length_append, List.length_cons,
    List.length_nil, Nat.zero_add, add_zero, Nat.cast_add, Nat.cast_one]
  rw [div_eq_div_iff hmore hlen, eq_div_iff hlen]
  constructor <;> intro h <;> linear_combination h

/-- A window that reached the last item stays as it was exactly where that item was the mean of the rest. -/
theorem average_concat_of_gt (h : xs.length < i + window) (hi : i < xs.length) :
    average window (xs ++ [x]) i = average window xs i ↔ x = mean (xs.drop i) := by
  have hrest : xs.drop i ≠ [] := by
    simpa using hi
  unfold average
  rw [List.drop_append_of_le_length (by omega), List.take_of_length_le (by simp; omega),
    List.take_of_length_le (by simp; omega), mean_concat hrest]

end Forgotten

/-! ## Averages kept up while a list grows -/

/-- The list that goes with `xs` holds its averages, as far as `shown` of them are looked at. -/
structure Averaged (window shown : Nat) (xs averaged : List K) : Prop where
  length : averaged.length = xs.length
  agrees : ∀ i, i < shown → i < xs.length → averaged[i]? = some (average window xs i)

/-- The last item is the mean of the others in every window that is looked at and that reaches it. The window
of the first item is not counted, as a new item takes its place. -/
def LastIsMean (window shown : Nat) (xs : List K) : Prop :=
  ∀ rest oldest, xs = rest ++ [oldest] →
    ∀ i < rest.length, i + 1 < shown → rest.length < i + window → oldest = mean (rest.drop i)

section Grow

variable {shown cap : Nat} {averaged : List K}

theorem averaged_averages : Averaged window shown xs (averages window xs) :=
  ⟨length_averages, fun _ _ hi => getElem?_averages hi⟩

theorem Averaged.cons (h : Averaged window shown xs averaged) :
    Averaged window shown (x :: xs) (average window (x :: xs) 0 :: averaged) := by
  refine ⟨by simp [h.length], fun i hshown hi => ?_⟩
  cases i with
  | zero => rfl
  | succ i => exact h.agrees i (by omega) (by simpa using hi)

/-- Where the last item is forgotten, the averages before it are kept as they were. They are still right
exactly where that item was the mean of what it was averaged with. -/
theorem Averaged.cons_concat [CharZero K] {rest : List K} {oldest last : K}
    (h : Averaged window shown (rest ++ [oldest]) (averaged ++ [last])) :
    Averaged window shown (x :: rest) (average window (x :: rest) 0 :: averaged) ↔
      LastIsMean window shown (rest ++ [oldest]) := by
  have hlength : averaged.length = rest.length := by simpa using h.length
  have hkept : ∀ i, i + 1 < shown → i < rest.length →
      averaged[i]? = some (average window (rest ++ [oldest]) i) := by
    intro i hshown hi
    have hagrees := h.agrees i (by omega) (by simp; omega)
    rwa [List.getElem?_append_left (by omega)] at hagrees
  constructor
  · intro hnew rest' oldest' hsplit i hi hshown hreach
    obtain ⟨rfl, rfl⟩ := List.append_inj' hsplit rfl |>.imp_right List.singleton_inj.mp
    have hagrees := hnew.agrees (i + 1) hshown (by simpa using hi)
    rw [List.getElem?_cons_succ, hkept i hshown hi, average_cons, Option.some_inj,
      average_concat_of_gt hreach hi] at hagrees
    exact hagrees
  · intro hmean
    refine ⟨by simp [hlength], fun i hshown hi => ?_⟩
    cases i with
    | zero => rfl
    | succ i =>
      have hi : i < rest.length := by simpa using hi
      rw [List.getElem?_cons_succ, hkept i hshown hi, average_cons, Option.some_inj]
      rcases Nat.lt_or_ge rest.length (i + window) with hreach | hreach
      · exact (average_concat_of_gt hreach hi).mpr (hmean rest oldest rfl i hi hshown hreach)
      · exact average_concat_of_le hreach

theorem lastIsMean_of_short (h : shown + window ≤ xs.length + 1) : LastIsMean window shown xs := by
  rintro rest oldest rfl i hi hshown hreach
  rw [List.length_append, List.length_singleton] at h
  omega

end Grow

/-! ## Order -/

section Order

variable [LinearOrder K] [IsStrictOrderedRing K]

theorem mean_nonneg (h : ∀ x ∈ xs, 0 ≤ x) : 0 ≤ mean xs :=
  div_nonneg (List.sum_nonneg h) (Nat.cast_nonneg _)

theorem average_nonneg (h : ∀ x ∈ xs, 0 ≤ x) : 0 ≤ average window xs i :=
  mean_nonneg fun x hx => h x (List.mem_of_mem_drop (List.mem_of_mem_take hx))

end Order

end MovingAverage
