import Mathlib.Data.List.DropRight
import Mathlib.Data.List.Nodup
import Mathlib.Data.List.Basic

/-!
# Lines of a sequence

A sequence falls into the lines that a separator ends and an unfinished line behind the last one. Each
line stands with the position where it begins. Parts of a sequence are taken by position.
-/

namespace Lines

variable {α : Type*}

/-! ## Parts of a sequence -/

/-- The items from position `start` up to `stop`. -/
def slice (xs : List α) (start stop : Nat) : List α := (xs.take stop).drop start

section Slice

variable {xs : List α} {a b c : Nat}

theorem length_slice : (slice xs a b).length = min b xs.length - a := by
  simp [slice]

theorem length_slice_of_le (h : b ≤ xs.length) : (slice xs a b).length = b - a := by
  rw [length_slice, Nat.min_eq_left h]

theorem slice_of_ge (h : b ≤ a) : slice xs a b = [] := by
  rw [slice, List.drop_eq_nil_iff, List.length_take]
  omega

theorem slice_self : slice xs a a = [] := slice_of_ge le_rfl

theorem slice_whole (h : xs.length ≤ b) : slice xs 0 b = xs := by
  rw [slice, List.drop_zero, List.take_of_length_le h]

theorem slice_zero : slice xs 0 b = xs.take b := rfl

theorem slice_append (hab : a ≤ b) (hbc : b ≤ c) : slice xs a b ++ slice xs b c = slice xs a c := by
  have hsplit : xs.take c = xs.take b ++ (xs.take c).drop b := by
    conv_lhs => rw [← List.take_append_drop b (xs.take c)]
    rw [List.take_take, Nat.min_eq_left hbc]
  unfold slice
  conv_rhs => rw [hsplit, List.drop_append]
  by_cases hlen : b ≤ xs.length
  · rw [List.length_take, Nat.min_eq_left hlen, Nat.sub_eq_zero_of_le hab, List.drop_zero]
  · have hnil : (xs.take c).drop b = [] := List.drop_eq_nil_of_le (by rw [List.length_take]; omega)
    rw [hnil, List.drop_nil]

theorem drop_slice (n : Nat) : (slice xs a b).drop n = slice xs (a + n) b := by
  simp [slice, List.drop_drop]

theorem take_slice {n : Nat} (h : a + n ≤ b) : (slice xs a b).take n = slice xs a (a + n) := by
  rw [slice, slice, List.take_drop, List.take_take, Nat.min_eq_left h]

theorem getElem?_slice {i : Nat} (h : a + i < b) : (slice xs a b)[i]? = xs[a + i]? := by
  rw [slice, List.getElem?_drop, List.getElem?_take_of_lt h]

theorem slice_append_left {ys : List α} (h : b ≤ xs.length) : slice (xs ++ ys) a b = slice xs a b := by
  rw [slice, slice, List.take_append_of_le_length h]

end Slice

variable [DecidableEq α] {sep : α}

/-! ## Where the separator stands -/

/-- The last position of `sep` before `stop`. -/
def lastIndexOf (sep : α) (xs : List α) : Nat → Option Nat
  | 0 => none
  | n + 1 => if xs[n]? = some sep then some n else lastIndexOf sep xs n

theorem lastIndexOf_some {xs : List α} {stop n : Nat} (h : lastIndexOf sep xs stop = some n) :
    n < stop ∧ xs[n]? = some sep ∧ sep ∉ slice xs (n + 1) stop := by
  induction stop with
  | zero => cases h
  | succ m ih =>
    unfold lastIndexOf at h
    split at h
    · obtain rfl := Option.some.inj h
      exact ⟨by omega, ‹_›, by simp [slice_self]⟩
    · rename_i hne
      obtain ⟨hlt, hsep, hnone⟩ := ih h
      refine ⟨by omega, hsep, ?_⟩
      rw [← slice_append (by omega : n + 1 ≤ m) (by omega : m ≤ m + 1), List.mem_append, not_or]
      refine ⟨hnone, fun hmem => ?_⟩
      obtain ⟨i, hi⟩ := List.mem_iff_getElem?.mp hmem
      have hlen : i < (slice xs m (m + 1)).length := (List.getElem?_eq_some_iff.mp hi).1
      rw [length_slice] at hlen
      obtain rfl : i = 0 := by omega
      rw [getElem?_slice (by omega)] at hi
      exact hne hi

theorem lastIndexOf_none {xs : List α} {stop : Nat} (h : lastIndexOf sep xs stop = none) :
    sep ∉ slice xs 0 stop := by
  induction stop with
  | zero => simp [slice]
  | succ m ih =>
    unfold lastIndexOf at h
    split at h
    · cases h
    · rename_i hne
      rw [← slice_append (Nat.zero_le m) (by omega : m ≤ m + 1), List.mem_append, not_or]
      refine ⟨ih h, fun hmem => ?_⟩
      obtain ⟨i, hi⟩ := List.mem_iff_getElem?.mp hmem
      have hlen : i < (slice xs m (m + 1)).length := (List.getElem?_eq_some_iff.mp hi).1
      rw [length_slice] at hlen
      obtain rfl : i = 0 := by omega
      rw [getElem?_slice (by omega)] at hi
      exact hne hi

theorem lastIndexOf_slice {xs : List α} {start stop : Nat} (n : Nat) (h : start + n ≤ stop) :
    lastIndexOf sep xs (start + n) =
      match lastIndexOf sep (slice xs start stop) n with
      | some i => some (start + i)
      | none => lastIndexOf sep xs start := by
  induction n with
  | zero => rfl
  | succ n ih =>
    rw [← Nat.add_assoc, lastIndexOf, lastIndexOf, getElem?_slice (by omega)]
    split
    · rfl
    · exact ih (by omega)

theorem idxOf?_line {line : List α} (h : sep ∉ line) (rest : List α) :
    (line ++ sep :: rest).idxOf? sep = some line.length := by
  induction line with
  | nil => simp [List.idxOf?_cons]
  | cons x line ih =>
    simp only [List.mem_cons, not_or] at h
    rw [List.cons_append, List.idxOf?_cons, if_neg (by simpa using Ne.symm h.1), ih h.2]
    rfl

/-! ## Lines -/

/-- The lines of `xs` behind what is read of one that begins at `base`. -/
def scan (sep : α) (base : Nat) (line : List α) : List α → List (Nat × List α)
  | [] => []
  | x :: xs =>
    if x = sep then (base, line) :: scan sep (base + line.length + 1) [] xs
    else scan sep base (line ++ [x]) xs

/-- The lines of a sequence that begins at `base`. -/
def lines (sep : α) (base : Nat) (xs : List α) : List (Nat × List α) := scan sep base [] xs

/-- What stands behind the last separator. -/
def unfinished (sep : α) (xs : List α) : List α := xs.rtakeWhile (· ≠ sep)

/-- The sequence is empty or ends at a separator. -/
def Closed (sep : α) (xs : List α) : Prop := unfinished sep xs = []

@[simp] theorem unfinished_nil : unfinished sep [] = [] := rfl

theorem unfinished_concat (xs : List α) (x : α) :
    unfinished sep (xs ++ [x]) = if x = sep then [] else unfinished sep xs ++ [x] := by
  unfold unfinished
  rw [List.rtakeWhile_concat]
  by_cases h : x = sep <;> simp [h]

theorem length_unfinished_le (xs : List α) : (unfinished sep xs).length ≤ xs.length :=
  (List.rtakeWhile_suffix _ xs).length_le

theorem not_mem_unfinished (xs : List α) : sep ∉ unfinished sep xs := by
  intro h
  simpa using List.mem_rtakeWhile_imp h

theorem closed_nil : Closed sep ([] : List α) := rfl

theorem closed_concat (xs : List α) : Closed sep (xs ++ [sep]) := by
  rw [Closed, unfinished_concat, if_pos rfl]

theorem lines_append (base : Nat) (xs ys : List α) :
    lines sep base (xs ++ ys) = lines sep base xs ++
      scan sep (base + xs.length - (unfinished sep xs).length) (unfinished sep xs) ys := by
  induction xs using List.reverseRecOn generalizing ys with
  | nil => simp [lines, scan]
  | append_singleton xs x ih =>
    have hle : (unfinished sep xs).length ≤ xs.length := length_unfinished_le xs
    rw [List.append_assoc, List.singleton_append, ih, ih [x], unfinished_concat, List.append_assoc]
    congr 1
    simp only [scan, List.length_append, List.length_singleton]
    split
    · rw [List.singleton_append, List.length_nil]
      congr 2
      omega
    · rw [List.nil_append, List.length_append, List.length_singleton]
      congr 1
      omega

theorem lines_append_closed {xs : List α} (h : Closed sep xs) (base : Nat) (ys : List α) :
    lines sep base (xs ++ ys) = lines sep base xs ++ lines sep (base + xs.length) ys := by
  rw [lines_append, h]
  rfl

theorem scan_of_not_mem {xs : List α} (h : sep ∉ xs) (base : Nat) (line : List α) :
    scan sep base line xs = [] := by
  induction xs generalizing line with
  | nil => rfl
  | cons x xs ih =>
    simp only [List.mem_cons, not_or] at h
    rw [scan, if_neg (Ne.symm h.1), ih h.2]

theorem lines_of_not_mem {xs : List α} (h : sep ∉ xs) (base : Nat) : lines sep base xs = [] :=
  scan_of_not_mem h base []

theorem unfinished_of_not_mem {xs : List α} (h : sep ∉ xs) : unfinished sep xs = xs := by
  rw [unfinished, List.rtakeWhile_eq_self_iff]
  intro x hx
  simp only [decide_eq_true_eq]
  rintro rfl
  exact h hx

theorem unfinished_append_of_not_mem {ys : List α} (h : sep ∉ ys) (xs : List α) :
    unfinished sep (xs ++ ys) = unfinished sep xs ++ ys := by
  induction ys using List.reverseRecOn with
  | nil => simp
  | append_singleton ys y ih =>
    rw [List.mem_append, not_or, List.mem_singleton] at h
    rw [← List.append_assoc, unfinished_concat, if_neg (Ne.symm h.2), ih h.1, List.append_assoc]

theorem unfinished_append (xs ys : List α) :
    unfinished sep (xs ++ ys) = unfinished sep (unfinished sep xs ++ ys) := by
  induction ys using List.reverseRecOn with
  | nil => rw [List.append_nil, List.append_nil, unfinished_of_not_mem (not_mem_unfinished xs)]
  | append_singleton ys y ih =>
    rw [← List.append_assoc, ← List.append_assoc, unfinished_concat, unfinished_concat, ih]

theorem unfinished_append_closed {xs : List α} (h : Closed sep xs) (ys : List α) :
    unfinished sep (xs ++ ys) = unfinished sep ys := by
  rw [unfinished_append, h, List.nil_append]

theorem lines_append_unfinished (base : Nat) (xs ys : List α) :
    lines sep base (xs ++ ys) = lines sep base xs ++
      lines sep (base + xs.length - (unfinished sep xs).length) (unfinished sep xs ++ ys) := by
  have hnone : sep ∉ unfinished sep xs := not_mem_unfinished xs
  rw [lines_append, lines_append _ (unfinished sep xs), lines_of_not_mem hnone, List.nil_append,
    unfinished_of_not_mem hnone, Nat.add_sub_cancel]

theorem scan_line {xs : List α} (h : sep ∉ xs) (base : Nat) (line ys : List α) :
    scan sep base line (xs ++ sep :: ys) =
      (base, line ++ xs) :: lines sep (base + line.length + xs.length + 1) ys := by
  induction xs generalizing line with
  | nil =>
    rw [List.nil_append, scan, if_pos rfl, List.append_nil]
    rfl
  | cons x xs ih =>
    simp only [List.mem_cons, not_or] at h
    rw [List.cons_append, scan, if_neg (Ne.symm h.1), ih h.2, List.append_assoc, List.singleton_append]
    simp only [List.length_append, List.length_cons, List.length_nil]
    congr 2
    omega

theorem lines_line {xs : List α} (h : sep ∉ xs) (base : Nat) (ys : List α) :
    lines sep base (xs ++ sep :: ys) = (base, xs) :: lines sep (base + xs.length + 1) ys := by
  rw [lines, scan_line h]
  rfl

theorem lines_single {xs : List α} (h : sep ∉ xs) (base : Nat) :
    lines sep base (xs ++ [sep]) = [(base, xs)] := by
  rw [lines_line h]
  rfl

theorem Closed.split {xs : List α} (h : Closed sep xs) (hne : xs ≠ []) :
    xs[xs.length - 1]? = some sep := by
  cases xs using List.reverseRecOn with
  | nil => exact absurd rfl hne
  | append_singleton xs x =>
    rw [Closed, unfinished_concat] at h
    split at h
    · subst_vars
      simp
    · simp at h

theorem closed_of_getLast {xs : List α} (h : xs[xs.length - 1]? = some sep) : Closed sep xs := by
  cases xs using List.reverseRecOn with
  | nil => exact closed_nil
  | append_singleton xs x =>
    have hx : x = sep := by simpa using h
    rw [Closed, unfinished_concat, if_pos hx]

/-! ## Where lines begin -/

theorem mem_scan {base : Nat} {line xs : List α} {p : Nat × List α} (h : p ∈ scan sep base line xs) :
    base ≤ p.1 ∧ p.1 + p.2.length < base + line.length + xs.length := by
  induction xs generalizing base line with
  | nil => cases h
  | cons x xs ih =>
    rw [scan] at h
    split at h
    · rcases List.mem_cons.mp h with rfl | h
      · simp only [List.length_cons]
        omega
      · have := ih h
        simp only [List.length_cons, List.length_nil] at this ⊢
        omega
    · have := ih h
      simp only [List.length_append, List.length_cons, List.length_nil] at this ⊢
      omega

theorem mem_lines {base : Nat} {xs : List α} {p : Nat × List α} (h : p ∈ lines sep base xs) :
    base ≤ p.1 ∧ p.1 + p.2.length < base + xs.length := by
  simpa using mem_scan h

theorem scan_ends {base : Nat} {line xs : List α} {p : Nat × List α} (h : p ∈ scan sep base line xs) :
    (p.1 = base ∨ ∃ i, xs[i]? = some sep ∧ base + line.length + i + 1 = p.1) ∧
      ∃ i, xs[i]? = some sep ∧ base + line.length + i = p.1 + p.2.length := by
  induction xs generalizing base line with
  | nil => cases h
  | cons x xs ih =>
    rw [scan] at h
    split at h
    · rename_i hx
      rcases List.mem_cons.mp h with rfl | h
      · exact ⟨.inl rfl, 0, by simp [hx], rfl⟩
      · obtain ⟨hstart, i, hi, hend⟩ := ih h
        refine ⟨.inr ?_, i + 1, by simpa using hi, ?_⟩
        · rcases hstart with hstart | ⟨j, hj, hstart⟩
          · exact ⟨0, by simp [hx], by omega⟩
          · exact ⟨j + 1, by simpa using hj, by simp only [List.length_nil] at hstart; omega⟩
        · simp only [List.length_nil] at hend
          omega
    · obtain ⟨hstart, i, hi, hend⟩ := ih h
      simp only [List.length_append, List.length_singleton] at hstart hend
      refine ⟨hstart.imp id ?_, i + 1, by simpa using hi, by omega⟩
      rintro ⟨j, hj, hstart⟩
      exact ⟨j + 1, by simpa using hj, by omega⟩

theorem lines_ends {base : Nat} {xs : List α} {p : Nat × List α} (h : p ∈ lines sep base xs) :
    (p.1 = base ∨ ∃ i, xs[i]? = some sep ∧ base + i + 1 = p.1) ∧
      ∃ i, xs[i]? = some sep ∧ base + i = p.1 + p.2.length := by
  simpa using scan_ends h

theorem scan_pairwise (base : Nat) (line xs : List α) :
    (scan sep base line xs).Pairwise fun p q => p.1 < q.1 := by
  induction xs generalizing base line with
  | nil => exact .nil
  | cons x xs ih =>
    rw [scan]
    split
    · refine List.pairwise_cons.mpr ⟨fun q hq => ?_, ih _ _⟩
      have := (mem_scan hq).1
      omega
    · exact ih _ _

theorem lines_inj {base : Nat} {xs : List α} {p q : Nat × List α} (hp : p ∈ lines sep base xs)
    (hq : q ∈ lines sep base xs) (h : p.1 = q.1) : p = q := by
  have hnodup : ((lines sep base xs).map Prod.fst).Nodup := by
    refine List.pairwise_map.mpr ((scan_pairwise base [] xs).imp ?_)
    intro a b hlt
    exact hlt.ne
  exact List.inj_on_of_nodup_map hnodup hp hq h

end Lines
