import GuiQml.Lib.TailWindow
import Mathlib.Order.Lattice

/-!
# Rolling windows

The end of a growing list of timed items: what is later than a cutoff, and one item at or before it as the
baseline. The cutoff moves on as the list grows, and a window holds a bounded number of items.
-/

namespace RollingWindow

variable {α τ : Type*} [LinearOrder τ] {time : α → τ} {cutoff cutoff' : τ} {cap : Nat} {all l s rest : List α}
  {a new : α}

/-- Drops items while the second one, not the last, will do as the baseline. -/
def dropOld (time : α → τ) (cutoff : τ) : List α → List α
  | a :: b :: c :: rest =>
    if time b ≤ cutoff then dropOld time cutoff (b :: c :: rest) else a :: b :: c :: rest
  | l => l

/-- In the order of their times. -/
def Ordered (time : α → τ) (l : List α) : Prop := l.Pairwise (time · ≤ time ·)

/-- The items after the baseline. -/
def Later (time : α → τ) (cutoff : τ) (l : List α) : Prop := ∀ a ∈ l.tail, cutoff < time a

/-- `l` is the window on `all`: it holds every end of `all` that is later than the cutoff but for its
baseline, if the end fits. -/
structure Retains (time : α → τ) (cap : Nat) (cutoff : τ) (all l : List α) : Prop where
  suffix : l <:+ all
  ordered : Ordered time all
  fits : l.length ≤ cap
  later : Later time cutoff l
  kept : ∀ s, s <:+ all → s.length ≤ cap → Later time cutoff s → s <:+ l

/-! ## Dropping -/

theorem dropOld_suffix (time : α → τ) (cutoff : τ) (l : List α) : dropOld time cutoff l <:+ l := by
  fun_induction dropOld time cutoff l with
  | case1 a b c rest hold ih => exact ih.trans (List.suffix_cons ..)
  | case2 => exact List.suffix_refl _
  | case3 => exact List.suffix_refl _

theorem Ordered.suffix (h : Ordered time all) (hl : l <:+ all) : Ordered time l :=
  List.Pairwise.sublist hl.sublist h

theorem Later.suffix (h : Later time cutoff all) (hl : l <:+ all) : Later time cutoff l :=
  fun a ha => by
    obtain ⟨t, rfl⟩ := hl
    cases t with
    | nil => exact h a ha
    | cons b t => exact h a (List.mem_append_right _ (List.mem_of_mem_tail ha))

theorem dropOld_later (hordered : Ordered time l) (hlast : ∀ a, l.getLast? = some a → cutoff < time a) :
    Later time cutoff (dropOld time cutoff l) := by
  fun_induction dropOld time cutoff l with
  | case1 a b c rest hold ih => exact ih (List.pairwise_cons.mp hordered).2 (by simpa using hlast)
  | case2 a b c rest hnew =>
    have hfrom := (List.pairwise_cons.mp (List.pairwise_cons.mp hordered).2).1
    intro d hd
    rcases List.mem_cons.mp hd with rfl | hd
    · exact not_le.mp hnew
    · exact lt_of_lt_of_le (not_le.mp hnew) (hfrom d hd)
  | case3 l hshort =>
    intro d hd
    rcases l with _ | ⟨a, _ | ⟨b, _ | ⟨c, rest⟩⟩⟩
    · cases hd
    · cases hd
    · exact hlast d (by simpa using (List.mem_singleton.mp hd).symm)
    · exact absurd rfl (hshort a b c rest)

theorem suffix_dropOld (hs : s <:+ l) (hlater : Later time cutoff s) : s <:+ dropOld time cutoff l := by
  fun_induction dropOld time cutoff l with
  | case1 a b c rest hold ih =>
    rcases List.suffix_cons_iff.mp hs with rfl | hs
    · exact absurd (hlater b (by simp)) (not_lt.mpr hold)
    · exact ih hs
  | case2 => exact hs
  | case3 => exact hs

/-! ## Windows -/

theorem retains_nil : Retains time cap cutoff [] ([] : List α) where
  suffix := List.suffix_refl _
  ordered := List.Pairwise.nil
  fits := Nat.zero_le _
  later _ ha := by cases ha
  kept _ hs _ _ := hs

theorem rtake_suffix (n : Nat) (l : List α) : l.rtake n <:+ l := List.drop_suffix _ _

theorem Retains.push (h : Retains time cap cutoff all l) (hcutoff : cutoff ≤ cutoff')
    (hnew : cutoff' < time new) (hlast : ∀ a ∈ all, time a ≤ time new) :
    Retains time cap cutoff' (all ++ [new]) ((dropOld time cutoff' (l ++ [new])).rtake cap) := by
  have hordered : Ordered time (all ++ [new]) :=
    List.pairwise_append.mpr ⟨h.ordered, List.pairwise_singleton _ _, fun a ha b hb => by
      rw [List.mem_singleton.mp hb]
      exact hlast a ha⟩
  have hpushed : l ++ [new] <:+ all ++ [new] := by
    obtain ⟨t, rfl⟩ := h.suffix
    exact ⟨t, by simp⟩
  constructor
  · exact (rtake_suffix _ _).trans ((dropOld_suffix _ _ _).trans hpushed)
  · exact hordered
  · rw [TailWindow.length_rtake]
    exact Nat.min_le_left ..
  · refine Later.suffix (dropOld_later (hordered.suffix hpushed) ?_) (rtake_suffix _ _)
    simpa using hnew
  · intro s hs hfits hlater
    rcases List.suffix_concat_iff.mp hs with rfl | ⟨t, rfl, ht⟩
    · exact List.nil_suffix
    · rw [List.length_append, List.length_singleton] at hfits
      have hkept : t <:+ l := by
        refine h.kept t ht (Nat.le_of_succ_le hfits) fun a ha => lt_of_le_of_lt hcutoff (hlater a ?_)
        cases t with
        | nil => cases ha
        | cons b t => exact List.mem_append_left _ ha
      have hdropped : t ++ [new] <:+ dropOld time cutoff' (l ++ [new]) := by
        refine suffix_dropOld ?_ hlater
        obtain ⟨r, rfl⟩ := hkept
        exact ⟨r, by simp⟩
      refine List.suffix_of_suffix_length_le hdropped (rtake_suffix _ _) ?_
      rw [TailWindow.length_rtake]
      exact Nat.le_min.mpr ⟨by simpa using hfits, hdropped.length_le⟩

theorem Retains.getLast?_eq (h : Retains time cap cutoff (all ++ [new]) l) (hcap : 0 < cap) :
    l.getLast? = some new := by
  obtain ⟨t, rfl⟩ := h.kept [new] (List.suffix_append ..) hcap fun a ha => by cases ha
  simp

theorem Retains.eq_baseline (h : Retains time cap cutoff all l) (hs : a :: rest <:+ all)
    (hfits : (a :: rest).length ≤ cap) (hbaseline : time a ≤ cutoff) (hrest : ∀ b ∈ rest, cutoff < time b) :
    l = a :: rest := by
  obtain ⟨t, rfl⟩ := h.kept _ hs hfits hrest
  cases t with
  | nil => rfl
  | cons b t => exact absurd (h.later a (by simp)) (not_lt.mpr hbaseline)

end RollingWindow
