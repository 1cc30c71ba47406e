import Mathlib.Data.List.Sort

/-!
# Sorting by a function that says "less"

A sort is given a function `less` and no order. Where the function says what a comparison says, the sort is
determined: it is the only arrangement in which every row is less than the rows behind it.
-/

namespace Comparator

open Std

variable {α β : Type*} {cmp : α → α → Ordering} {less : α → α → Bool} {l l' : List α}

/-- `less` says of two rows what the comparison says of them. -/
def Follows (cmp : α → α → Ordering) (less : α → α → Bool) : Prop :=
  ∀ a b, less a b = true ↔ cmp a b = .lt

/-- No two rows of the list compare equal. -/
def Distinct (cmp : α → α → Ordering) (l : List α) : Prop := l.Pairwise fun a b => cmp a b ≠ .eq

def sortBy (less : α → α → Bool) (l : List α) : List α := l.mergeSort fun a b => !less b a

theorem sortBy_perm (less : α → α → Bool) (l : List α) : (sortBy less l).Perm l := List.mergeSort_perm _ _

@[simp] theorem mem_sortBy {a : α} : a ∈ sortBy less l ↔ a ∈ l := (sortBy_perm less l).mem_iff

@[simp] theorem length_sortBy : (sortBy less l).length = l.length := (sortBy_perm less l).length_eq

/-! ## Comparisons -/

/-- Each row is compared by what a function makes of it. -/
def on (cmp : β → β → Ordering) (f : α → β) (a b : α) : Ordering := cmp (f a) (f b)

instance [OrientedCmp cmp] (f : β → α) : OrientedCmp (on cmp f) where
  eq_swap {a b} := @OrientedCmp.eq_swap _ cmp _ (f a) (f b)

instance [TransCmp cmp] (f : β → α) : TransCmp (on cmp f) where
  isLE_trans {a b c} := @TransCmp.isLE_trans _ cmp _ (f a) (f b) (f c)

/-- The other way round where the order is descending. -/
def directed (descending : Bool) (cmp : α → α → Ordering) (a b : α) : Ordering :=
  if descending then cmp b a else cmp a b

instance [OrientedCmp cmp] (descending : Bool) : OrientedCmp (directed descending cmp) where
  eq_swap {a b} := by
    unfold directed
    split <;> exact OrientedCmp.eq_swap

instance [TransCmp cmp] (descending : Bool) : TransCmp (directed descending cmp) where
  isLE_trans {a b c} := by
    unfold directed
    split
    · exact fun hab hbc => TransCmp.isLE_trans hbc hab
    · exact TransCmp.isLE_trans

theorem directed_eq_swap [OrientedCmp cmp] (descending : Bool) (a b : α) :
    directed descending cmp a b = if descending then (cmp a b).swap else cmp a b := by
  unfold directed
  rw [@OrientedCmp.eq_swap _ cmp _ b a]

theorem directed_eq_iff [OrientedCmp cmp] {descending : Bool} {a b : α} :
    directed descending cmp a b = .eq ↔ cmp a b = .eq := by
  unfold directed
  split
  · exact OrientedCmp.eq_comm
  · exact Iff.rfl

/-! ## The sorted list -/

theorem Follows.not_less [OrientedCmp cmp] (h : Follows cmp less) {a b : α} :
    (!less b a) = true ↔ (cmp a b).isLE = true := by
  have hb := h b a
  rw [@OrientedCmp.eq_swap _ cmp _ b a] at hb
  cases hab : cmp a b <;> simp_all

theorem sortBy_pairwise [TransCmp cmp] (h : Follows cmp less) (l : List α) :
    (sortBy less l).Pairwise fun a b => (cmp a b).isLE = true := by
  have hsorted := @List.pairwise_mergeSort _ (fun a b => !less b a)
    (fun a b c hab hbc => h.not_less.2 (TransCmp.isLE_trans (h.not_less.1 hab) (h.not_less.1 hbc)))
    (fun a b => by
      rw [Bool.or_eq_true, h.not_less, h.not_less, @OrientedCmp.eq_swap _ cmp _ b a]
      cases cmp a b <;> simp) l
  exact hsorted.imp h.not_less.1

theorem distinct_sortBy [OrientedCmp cmp] (hdistinct : Distinct cmp l) : Distinct cmp (sortBy less l) :=
  (sortBy_perm less l).symm.pairwise hdistinct fun hab hba => hab (OrientedCmp.eq_comm.1 hba)

theorem sortBy_strict [TransCmp cmp] (h : Follows cmp less) (hdistinct : Distinct cmp l) :
    (sortBy less l).Pairwise fun a b => less a b = true := by
  refine ((sortBy_pairwise h l).and (distinct_sortBy hdistinct)).imp fun {a b} hab => ?_
  obtain ⟨hle, hne⟩ := hab
  rw [h]
  cases hcmp : cmp a b <;> simp_all

end Comparator
