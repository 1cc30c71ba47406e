import Mathlib.Data.List.DropRight
import Mathlib.Data.List.Basic

/-!
# Windows on the end of a growing list

A window holds the last items of a list that only grows, up to a capacity. The capacity changes without
a look at the list: then the window loses items, or is filled only up to what was loaded before. A
snapshot reads the end of the list anew, an extension only what was appended, and either may have been
read for another capacity. From a ceiling on, a window no longer tells that there is more.
-/

namespace TailWindow

variable {α : Type*} {l l' a b : List α} {m n : Nat}

/-! ## The end of a list -/

theorem length_rtake : (l.rtake n).length = min n l.length := by
  unfold List.rtake
  rw [List.length_drop]
  omega

theorem rtake_of_length_le (h : l.length ≤ n) : l.rtake n = l := by
  unfold List.rtake
  rw [Nat.sub_eq_zero_of_le h, List.drop_zero]

theorem rtake_rtake : (l.rtake n).rtake m = l.rtake (min m n) := by
  simp only [List.rtake, List.drop_drop, List.length_drop]
  congr 1
  omega

theorem rtake_append_of_le (h : n ≤ b.length) : (a ++ b).rtake n = b.rtake n := by
  unfold List.rtake
  rw [List.length_append, List.drop_append, List.drop_eq_nil_of_le (by omega), List.nil_append]
  congr 1
  omega

theorem rtake_append_of_ge (h : b.length ≤ n) : (a ++ b).rtake n = a.rtake (n - b.length) ++ b := by
  unfold List.rtake
  rw [List.length_append, List.drop_append]
  congr 1
  · congr 1
    omega
  · have hzero : a.length + b.length - n - a.length = 0 := by omega
    rw [hzero, List.drop_zero]

theorem rtake_append_congr (h : l.rtake n = l'.rtake n) : (l ++ b).rtake n = (l' ++ b).rtake n := by
  rcases Nat.le_total n b.length with hle | hle
  · rw [rtake_append_of_le hle, rtake_append_of_le hle]
  · have hsame : l.rtake (n - b.length) = l'.rtake (n - b.length) := by
      have := congrArg (fun x => x.rtake (n - b.length)) h
      simpa only [rtake_rtake, Nat.min_eq_left (Nat.sub_le n b.length)] using this
    rw [rtake_append_of_ge hle, rtake_append_of_ge hle, hsame]

/-! ## Windows -/

variable {ceiling : Nat} {all new : List α}

structure Window (α : Type*) where
  items : List α
  capacity : Nat
  /-- The capacity that the items stand for. -/
  loaded : Nat
  more : Bool

namespace Window

variable {w : Window α}

/-- The capacity changes, and items beyond it are lost. -/
def resize (ceiling n : Nat) (w : Window α) : Window α :=
  if n < w.items.length then
    { items := w.items.rtake n, capacity := n, loaded := min w.loaded n, more := decide (n < ceiling) }
  else { w with capacity := n }

/-- The end of the list, as it was read for a capacity of `n`. -/
def snapshot (ceiling n : Nat) (all : List α) (w : Window α) : Window α where
  items := all.rtake (min n w.capacity)
  capacity := w.capacity
  loaded := min n w.capacity
  more := decide (min n w.capacity < all.length) && decide (w.capacity < ceiling)

/-- The new items, of which one more than `n` was read at most. -/
def extend (ceiling n : Nat) (new : List α) (w : Window α) : Window α where
  items := (w.items ++ new.rtake (n + 1)).rtake w.capacity
  capacity := w.capacity
  loaded := w.loaded
  more := (w.more || decide (n < new.length) ||
    decide (w.capacity < (w.items ++ new.rtake (n + 1)).length)) && decide (w.capacity < ceiling)

/-- No more is claimed to be loaded than the items bear out, and what is missing is told. -/
structure Fits (ceiling : Nat) (all : List α) (w : Window α) : Prop where
  capacity_le : w.capacity ≤ ceiling
  length_le : w.items.length ≤ w.capacity
  length_le_all : w.items.length ≤ all.length
  loaded : w.items.rtake w.loaded = all.rtake w.loaded
  more : w.more = true → w.items.length < all.length ∨ w.loaded < w.items.length
  told : w.capacity ≤ w.loaded → w.items.length < all.length → w.more = true ∨ w.capacity = ceiling
  silent : w.capacity = ceiling → w.capacity ≤ w.loaded → w.more = false

namespace Fits

theorem items_eq_all (h : Fits ceiling all w) (hloaded : w.items.length < w.loaded) : w.items = all := by
  have hsame := h.loaded
  rw [rtake_of_length_le hloaded.le] at hsame
  have hlength := congrArg List.length hsame
  rw [length_rtake] at hlength
  rw [hsame]
  exact rtake_of_length_le (by omega)

/-- A window that was loaded up to its capacity holds the end of the list. -/
theorem window (h : Fits ceiling all w) (hloaded : w.capacity ≤ w.loaded) :
    w.items = all.rtake w.capacity ∧ (w.more = true ↔ w.capacity < all.length ∧ w.capacity < ceiling) := by
  have hitems : w.items = all.rtake w.capacity := by
    have hsame := congrArg (fun x => x.rtake w.capacity) h.loaded
    simpa only [rtake_rtake, Nat.min_eq_left hloaded, rtake_of_length_le h.length_le] using hsame
  have hlength : w.items.length = min w.capacity all.length := by
    rw [hitems, length_rtake]
  refine ⟨hitems, fun hmore => ⟨?_, ?_⟩, fun ⟨hall, hceiling⟩ => ?_⟩
  · have := h.more hmore
    have := h.length_le
    omega
  · refine lt_of_le_of_ne h.capacity_le fun hsame => ?_
    rw [h.silent hsame hloaded] at hmore
    cases hmore
  · exact (h.told hloaded (by omega)).resolve_right (by omega)

/-- A lower capacity that loses no item is not claimed to be loaded while something is missing untold. -/
theorem resize (h : Fits ceiling all w) (hn : n ≤ ceiling)
    (hlower : n < w.capacity → w.items.length ≤ n → n ≤ w.loaded → w.items.length < all.length →
      w.more = true) : Fits ceiling all (w.resize ceiling n) := by
  unfold Window.resize
  have hcapacity := h.capacity_le
  have hlength := h.length_le
  have hall := h.length_le_all
  split
  · rename_i hlost
    refine ⟨hn, ?_, ?_, ?_, fun _ => .inl ?_, fun _ _ => .inl ?_, fun hsame => ?_⟩
    · simp only [length_rtake]
      omega
    · simp only [length_rtake]
      omega
    · have hsame := congrArg (fun x => x.rtake (min w.loaded n)) h.loaded
      simp only [rtake_rtake] at hsame ⊢
      have hmin : min (min w.loaded n) w.loaded = min w.loaded n := by omega
      have hmin' : min (min w.loaded n) n = min w.loaded n := by omega
      rw [hmin] at hsame
      rw [hmin', hsame]
    · simp only [length_rtake]
      omega
    · exact decide_eq_true (by omega)
    · simp only at hsame
      omega
  · rename_i hkept
    refine ⟨hn, not_lt.mp hkept, hall, h.loaded, h.more, fun hloaded hmissing => ?_, fun hsame hloaded => ?_⟩
    · rcases Nat.lt_or_ge n w.capacity with hlt | hge
      · exact .inl (hlower hlt (not_lt.mp hkept) hloaded hmissing)
      · refine (h.told (hge.trans hloaded) hmissing).imp id fun hsame => ?_
        exact le_antisymm hn (hsame.symm.trans_le hge)
    · rcases Nat.lt_or_ge w.capacity ceiling with hlt | hge
      · have heq := h.items_eq_all (by simp only at hsame hloaded; omega)
        cases hmore : w.more with
        | false => rfl
        | true =>
          have := h.more hmore
          rw [heq] at this hlength
          simp only at hsame hloaded
          omega
      · refine h.silent (le_antisymm hcapacity hge) ?_
        simp only at hsame hloaded
        omega

theorem snapshot (h : Fits ceiling all w) : Fits ceiling new (w.snapshot ceiling n new) := by
  unfold Window.snapshot
  have hcapacity := h.capacity_le
  have hlength : (new.rtake (min n w.capacity)).length = min (min n w.capacity) new.length := length_rtake
  refine ⟨hcapacity, ?_, ?_, ?_, fun hmore => .inl ?_, fun hloaded hmissing => ?_, fun hsame _ => ?_⟩
  · simp only [hlength]
    omega
  · simp only [hlength]
    omega
  · simp only [rtake_rtake, Nat.min_self]
  · simp only [Bool.and_eq_true, decide_eq_true_eq] at hmore
    simp only [hlength]
    omega
  · simp only [hlength] at hloaded hmissing
    rcases Nat.lt_or_ge w.capacity ceiling with hlt | hge
    · refine .inl ?_
      simp only [Bool.and_eq_true, decide_eq_true_eq]
      omega
    · exact .inr (le_antisymm hcapacity hge)
  · simp only at hsame
    rw [hsame]
    simp

theorem extend (h : Fits ceiling all w) (hread : n < new.length → w.loaded ≤ n)
    (hlost : w.capacity < (w.items ++ new.rtake (n + 1)).length → w.loaded ≤ w.capacity) :
    Fits ceiling (all ++ new) (w.extend ceiling n new) := by
  unfold Window.extend
  have hcapacity := h.capacity_le
  have hlength := h.length_le
  have hall := h.length_le_all
  have hnew : (new.rtake (n + 1)).length = min (n + 1) new.length := length_rtake
  rw [List.length_append, hnew] at hlost
  have hitems : ((w.items ++ new.rtake (n + 1)).rtake w.capacity).length =
      min w.capacity (w.items.length + min (n + 1) new.length) := by
    rw [length_rtake, List.length_append, hnew]
  have hwhole : new.length ≤ n + 1 → new.rtake (n + 1) = new := rtake_of_length_le
  refine ⟨hcapacity, ?_, ?_, ?_, fun hmore => ?_, fun hloaded hmissing => ?_, fun hsame _ => ?_⟩
  · simp only [hitems]
    omega
  · simp only [hitems, List.length_append]
    omega
  · have hend : (w.items ++ new.rtake (n + 1)).rtake w.loaded = (all ++ new).rtake w.loaded := by
      rcases Nat.lt_or_ge n new.length with hlt | hge
      · have hle := hread hlt
        rw [rtake_append_of_le (by omega), rtake_append_of_le (by omega), rtake_rtake]
        congr 1
        omega
      · rw [hwhole (by omega)]
        exact rtake_append_congr h.loaded
    rcases Nat.lt_or_ge w.capacity (w.items.length + min (n + 1) new.length) with hlt | hge
    · simp only [rtake_rtake]
      rw [Nat.min_eq_left (hlost hlt), hend]
    · have hfull : (w.items ++ new.rtake (n + 1)).rtake w.capacity = w.items ++ new.rtake (n + 1) :=
        rtake_of_length_le (by rw [List.length_append, hnew]; omega)
      simp only [hfull, hend]
  · simp only [hitems, List.length_append]
    simp only [Bool.and_eq_true, Bool.or_eq_true, decide_eq_true_eq, List.length_append, hnew] at hmore
    rcases hmore.1 with (hold | hleft) | hlose
    · have := h.more hold
      omega
    · have := hread hleft
      omega
    · omega
  · simp only [hitems, List.length_append] at hloaded hmissing
    rcases Nat.lt_or_ge w.capacity ceiling with hlt | hge
    · refine .inl ?_
      simp only [Bool.and_eq_true, Bool.or_eq_true, decide_eq_true_eq, List.length_append, hnew]
      have htold := h.told hloaded
      by_cases hold : w.items.length < all.length
      · exact ⟨.inl (.inl ((htold hold).resolve_right (by omega))), hlt⟩
      · refine ⟨?_, hlt⟩
        by_cases hleft : n < new.length
        · exact .inl (.inr hleft)
        · exact .inr (by omega)
    · exact .inr (le_antisymm hcapacity hge)
  · simp only at hsame
    rw [hsame]
    simp

theorem quiet (h : Fits ceiling all w) (hcapacity : w.capacity = ceiling) :
    Fits ceiling all { w with more := false } :=
  ⟨h.capacity_le, h.length_le, h.length_le_all, h.loaded, fun hmore => (by cases hmore),
    fun _ _ => .inr hcapacity, fun _ _ => rfl⟩

end Fits

end Window

end TailWindow
