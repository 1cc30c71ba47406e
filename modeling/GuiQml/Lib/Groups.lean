import GuiQml.Lib.Comparator
import Mathlib.Data.List.Basic

/-!
# Titled groups of rows

Rows under a title, which heads a group where it differs from the title of the row before and ends one where
it differs from that of the row behind. Where the rows of a title stand together, every title has one group.
-/

namespace Groups

open Std

variable {α τ : Type*} {title : α → τ} {l : List α} {i j k : Nat}

/-- No row of another title stands between two rows of one title. -/
def Together (title : α → τ) (l : List α) : Prop :=
  ∀ ⦃i j k : Nat⦄ (_ : i ≤ j) (_ : j ≤ k) (_ : k < l.length), title l[i] = title l[k] → title l[j] = title l[i]

/-- Rows sorted by what decides their title. -/
theorem together_of_sorted {cmp : α → α → Ordering} [TransCmp cmp]
    (htitle : ∀ a ∈ l, ∀ b ∈ l, title a = title b ↔ cmp a b = .eq)
    (hsorted : l.Pairwise fun a b => (cmp a b).isLE = true) : Together title l := by
  intro i j k hij hjk hk hik
  have hle {a b : Nat} (hab : a ≤ b) (hb : b < l.length) : (cmp l[a] l[b]).isLE = true := by
    rcases Nat.lt_or_eq_of_le hab with hlt | rfl
    · exact List.pairwise_iff_getElem.1 hsorted a b (by omega) hb hlt
    · exact ReflCmp.isLE_rfl
  have hiff {a b : Nat} (ha : a < l.length) (hb : b < l.length) : title l[a] = title l[b] ↔ cmp l[a] l[b] = .eq :=
    htitle _ (List.getElem_mem ha) _ (List.getElem_mem hb)
  have hki : cmp l[k] l[i] = .eq := OrientedCmp.eq_symm ((hiff (by omega) hk).1 hik)
  have hji : (cmp l[j] l[i]).isLE = true := by
    rw [← TransCmp.congr_right hki]
    exact hle hjk hk
  exact ((hiff (by omega) (by omega)).2 (OrientedCmp.isLE_antisymm (hle hij (by omega)) hji)).symm

/-! ## The first and the last row of a group -/

section Roles

variable [DecidableEq τ]

def isFirst (title : α → τ) (l : List α) (i : Nat) : Bool :=
  i == 0 || (l[i - 1]?).map title ≠ (l[i]?).map title

def isLast (title : α → τ) (l : List α) (i : Nat) : Bool :=
  i + 1 == l.length || (l[i + 1]?).map title ≠ (l[i]?).map title

theorem isFirst_succ (hi : i + 1 < l.length) : isFirst title l (i + 1) = true ↔ title l[i] ≠ title l[i + 1] := by
  simp [isFirst, List.getElem?_eq_getElem hi, List.getElem?_eq_getElem (Nat.lt_of_succ_lt hi)]

theorem isLast_iff (hi : i + 1 < l.length) : isLast title l i = true ↔ title l[i + 1] ≠ title l[i] := by
  have hne : ¬i + 1 = l.length := by omega
  simp [isLast, hne, List.getElem?_eq_getElem hi, List.getElem?_eq_getElem (Nat.lt_of_succ_lt hi)]

theorem exists_first (title : α → τ) (hi : i < l.length) :
    ∃ j, ∃ _ : j ≤ i, isFirst title l j = true ∧ title l[j] = title l[i] := by
  induction i with
  | zero => exact ⟨0, Nat.le_refl 0, rfl, rfl⟩
  | succ i ih =>
    by_cases hfirst : title l[i] = title l[i + 1]
    · obtain ⟨j, hj, hhead, htitle⟩ := ih (by omega)
      exact ⟨j, by omega, hhead, htitle.trans hfirst⟩
    · exact ⟨i + 1, Nat.le_refl _, (isFirst_succ hi).2 hfirst, rfl⟩

theorem exists_last (title : α → τ) (hi : i < l.length) :
    ∃ j, ∃ hj : j < l.length, i ≤ j ∧ isLast title l j = true ∧ title l[j] = title l[i] := by
  -- The rows behind it are fewer each time.
  obtain ⟨n, hn⟩ : ∃ n, i + 1 + n = l.length := ⟨l.length - (i + 1), by omega⟩
  induction n generalizing i with
  | zero => exact ⟨i, hi, Nat.le_refl i, by simp [isLast]; omega, rfl⟩
  | succ n ih =>
    by_cases hlast : title l[i + 1] = title l[i]
    · obtain ⟨j, hj, hij, hend, htitle⟩ := ih (i := i + 1) (by omega) (by omega)
      exact ⟨j, hj, by omega, hend, htitle.trans hlast⟩
    · exact ⟨i, hi, Nat.le_refl i, (isLast_iff (by omega)).2 hlast, rfl⟩

namespace Together

theorem first_unique (h : Together title l) (hi : i < l.length) (hj : j < l.length)
    (hfirst : isFirst title l i = true) (hfirst' : isFirst title l j = true) (htitle : title l[i] = title l[j]) :
    i = j := by
  -- The later of the two would follow a row of its own title.
  have hlater {a b : Nat} (hab : a < b) (hb : b < l.length) (heq : title l[a] = title l[b]) :
      ¬isFirst title l b = true := by
    obtain ⟨c, rfl⟩ : ∃ c, b = c + 1 := ⟨b - 1, by omega⟩
    rw [isFirst_succ hb, not_not, h (by omega : a ≤ c) (by omega) hb heq, heq]
  rcases Nat.lt_trichotomy i j with hlt | heq | hlt
  · exact absurd hfirst' (hlater hlt hj htitle)
  · exact heq
  · exact absurd hfirst (hlater hlt hi htitle.symm)

theorem last_unique (h : Together title l) (hi : i < l.length) (hj : j < l.length)
    (hlast : isLast title l i = true) (hlast' : isLast title l j = true) (htitle : title l[i] = title l[j]) :
    i = j := by
  have hearlier {a b : Nat} (hab : a < b) (hb : b < l.length) (heq : title l[a] = title l[b]) :
      ¬isLast title l a = true := by
    rw [isLast_iff (by omega), not_not]
    exact h (by omega) (by omega) hb heq
  rcases Nat.lt_trichotomy i j with hlt | heq | hlt
  · exact absurd hlast (hearlier hlt hj htitle)
  · exact heq
  · exact absurd hlast' (hearlier hlt hi htitle.symm)

/-- The title of a row heads one group and ends one. -/
theorem one_group (h : Together title l) (hi : i < l.length) :
    (∃! j, ∃ _ : j < l.length, isFirst title l j = true ∧ title l[j] = title l[i]) ∧
    ∃! j, ∃ _ : j < l.length, isLast title l j = true ∧ title l[j] = title l[i] := by
  constructor
  · obtain ⟨j, hj, hfirst, htitle⟩ := exists_first title hi
    refine ⟨j, ⟨by omega, hfirst, htitle⟩, ?_⟩
    rintro k ⟨hk, hfirst', htitle'⟩
    exact h.first_unique hk (by omega) hfirst' hfirst (htitle'.trans htitle.symm)
  · obtain ⟨j, hj, -, hlast, htitle⟩ := exists_last title hi
    refine ⟨j, ⟨hj, hlast, htitle⟩, ?_⟩
    rintro k ⟨hk, hlast', htitle'⟩
    exact h.last_unique hk hj hlast' hlast (htitle'.trans htitle.symm)

end Together

end Roles

end Groups
