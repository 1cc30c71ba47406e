import Mathlib.Algebra.Order.Field.Basic
import Mathlib.Algebra.Order.BigOperators.Group.List
import Mathlib.Algebra.Order.Field.Rat
import Mathlib.Tactic.Linarith
import Mathlib.Tactic.Positivity
import Mathlib.Tactic.Ring

/-!
# The segments of the dial

`coalescedBlockSegments` of `blockclockdial.cpp`, in exact arithmetic: the visual boundaries are walked from
the current time back, and the segments between them are made from the start of the period on.
-/

namespace GuiQml.BlockClock.BlockClockDial

variable {K : Type}

/-! ## The dial -/

structure Boundary (K : Type) where
  fraction : K
  block_count : Int
deriving DecidableEq

structure BlockSegment (K : Type) where
  start_fraction : K
  end_fraction : K
  start_confirmations : Int
  end_confirmations : Int
deriving DecidableEq

/-- The state of the walk. The boundary that was pushed last comes first, so the list is reversed at once. -/
structure Walk (K : Type) where
  boundaries : List (Boundary K)
  next_boundary : K
  future_confirmations : Int := 0

section Functions

variable [Field K] [LinearOrder K] (pi pen_width radius current minimum : K)

def qBound (lo x hi : K) : K := max lo (min hi x)

def blockSegmentGapPixels : K := max 1 (pen_width / 2)

/-- Radians to degrees are `180 / pi`. -/
def degreesForArcPixels (pixels : K) : K := if radius ≤ 0 then 360 else pixels / radius * (180 / pi)

def minimumIntervalFraction : K :=
  degreesForArcPixels pi radius (pen_width + blockSegmentGapPixels pen_width + 1) / 360

def walkStart : Walk K := { boundaries := [⟨current, 0⟩], next_boundary := current }

/-- One more block for the boundary that was pushed last. -/
def joinLast : List (Boundary K) → List (Boundary K)
  | [] => []
  | last :: newer => { last with block_count := last.block_count + 1 } :: newer

/-- The body of the loop over the blocks. -/
def walkBlock (w : Walk K) (boundary : K) : Walk K :=
  if boundary ≤ 0 then w
  else if current ≤ boundary then { w with future_confirmations := w.future_confirmations + 1 }
  else if w.next_boundary - boundary < minimum then { w with boundaries := joinLast w.boundaries }
  else { w with boundaries := ⟨boundary, 1⟩ :: w.boundaries, next_boundary := boundary }

def walk (blocks : List K) : Walk K := blocks.reverse.foldl (walkBlock current minimum) (walkStart current)

/-- The undersized first segment goes. The boundary that is removed, and the others. -/
def removeUndersized : List (Boundary K) → Option (Boundary K) × List (Boundary K)
  | last :: newer :: rest =>
    if last.fraction < minimum then (some last, newer :: rest) else (none, last :: newer :: rest)
  | boundaries => (none, boundaries)

def segmentsFrom (segment_start : K) (confirmations : Int) : List (Boundary K) → List (BlockSegment K)
  | [] => []
  | boundary :: rest =>
    let next_confirmations := confirmations - boundary.block_count
    ⟨segment_start, boundary.fraction, confirmations, next_confirmations⟩ ::
      segmentsFrom boundary.fraction next_confirmations rest

/-- `block_time_fractions` and `current_time_fraction` are those of the dial. -/
def coalescedBlockSegments (block_time_fractions : List K) (current_time_fraction : K) :
    List (BlockSegment K) :=
  let current := qBound 0 current_time_fraction 1
  if current ≤ 0 then []
  else
    let w := walk current minimum block_time_fractions
    let boundaries := (removeUndersized minimum w.boundaries).2
    let confirmations := boundaries.foldl (fun sum boundary => sum + boundary.block_count) w.future_confirmations
    segmentsFrom 0 confirmations boundaries

/-- The boundary that is removed. -/
def removedBoundary (block_time_fractions : List K) (current_time_fraction : K) : Option K :=
  let w := walk (qBound 0 current_time_fraction 1) minimum block_time_fractions
  (removeUndersized minimum w.boundaries).1.map (·.fraction)

end Functions

/-- A pen as wide as that leaves a minimum. -/
theorem minimumIntervalFraction_pos [Field K] [LinearOrder K] [IsStrictOrderedRing K] {pi pen_width : K}
    (hpi : 0 < pi) (hpen : -2 < pen_width) (radius : K) : 0 < minimumIntervalFraction pi pen_width radius := by
  have hgap : 1 ≤ blockSegmentGapPixels pen_width := le_max_left ..
  have hpixels : 0 < pen_width + blockSegmentGapPixels pen_width + 1 := by linarith
  unfold minimumIntervalFraction degreesForArcPixels
  split
  next => norm_num
  next hradius =>
    have hr : 0 < radius := not_le.mp hradius
    positivity

/-! ## What the walk leaves -/

/-- The number of blocks after `fraction`. -/
def blocksAfter [LinearOrder K] (blocks : List K) (fraction : K) : Int := blocks.countP (fraction < ·)

/-- The blocks of all the boundaries. -/
def total (boundaries : List (Boundary K)) : Int := (boundaries.map (·.block_count)).sum

theorem total_cons (boundary : Boundary K) (newer : List (Boundary K)) :
    total (boundary :: newer) = boundary.block_count + total newer := by simp [total]

theorem blocksAfter_concat [LinearOrder K] (done : List K) (x fraction : K) :
    blocksAfter (done ++ [x]) fraction = blocksAfter done fraction + if fraction < x then 1 else 0 := by
  unfold blocksAfter
  rw [List.countP_append]
  split <;> simp [*]

theorem blocksAfter_reverse [LinearOrder K] (blocks : List K) (fraction : K) :
    blocksAfter blocks.reverse fraction = blocksAfter blocks fraction := by
  rw [blocksAfter, List.countP_reverse, blocksAfter]

section Walk

variable [Field K] [LinearOrder K] {minimum current x : K} {boundary last : Boundary K}
  {boundaries newer older : List (Boundary K)} {blocks done : List K} {future_confirmations : Int} {w : Walk K}

/-- In the order of time, each at least `minimum` after the ones before. -/
def Spaced (minimum : K) (boundaries : List (Boundary K)) : Prop :=
  boundaries.Pairwise fun a b => a.fraction < b.fraction ∧ minimum ≤ b.fraction - a.fraction

/-- The blocks after a boundary are those in front of the clock and those of the newer boundaries. -/
def Counts (blocks : List K) (future_confirmations : Int) (boundaries : List (Boundary K)) : Prop :=
  ∀ boundary newer, boundary :: newer <:+ boundaries → newer ≠ [] →
    future_confirmations + total newer = blocksAfter blocks boundary.fraction

/-- The walk has seen `done`, from the newest block on. -/
structure Walked (current minimum : K) (done : List K) (w : Walk K) : Prop where
  pushed : ∃ last newer, w.boundaries = last :: newer ∧ last.fraction = w.next_boundary
  stop : w.boundaries.getLast?.map (·.fraction) = some current
  positive : ∀ boundary ∈ w.boundaries, 0 < boundary.fraction
  spaced : Spaced minimum w.boundaries
  counts : Counts done w.future_confirmations w.boundaries
  sum : w.future_confirmations + total w.boundaries = blocksAfter done 0
  next : w.next_boundary = current ∨ w.next_boundary ∈ done
  near : 0 < minimum → ∀ x ∈ done, 0 < x → x < current → w.next_boundary - x < minimum

theorem Walked.lt_current (h : Walked current minimum done w) (hsuffix : boundary :: newer <:+ w.boundaries)
    (hnewer : newer ≠ []) : boundary.fraction < current := by
  have hstop := h.stop
  have hspaced : Spaced minimum (boundary :: newer) := List.Pairwise.sublist hsuffix.sublist h.spaced
  obtain ⟨older, holder⟩ := hsuffix
  obtain rfl | ⟨front, z, rfl⟩ := newer.eq_nil_or_concat
  · exact absurd rfl hnewer
  · have hconcat : older ++ boundary :: front.concat z = older ++ boundary :: front ++ [z] := by simp
    rw [← holder, hconcat, List.getLast?_concat, Option.map_some, Option.some.injEq] at hstop
    rw [← hstop]
    exact ((List.pairwise_cons.mp hspaced).1 z (by simp)).1

theorem Walked.next_le (h : Walked current minimum done w) (hboundary : boundary ∈ w.boundaries) :
    w.next_boundary ≤ boundary.fraction := by
  obtain ⟨last, newer, hboundaries, hlast⟩ := h.pushed
  have hspaced := h.spaced
  rw [hboundaries] at hboundary hspaced
  rw [← hlast]
  rcases List.mem_cons.mp hboundary with rfl | hnewer
  · exact le_rfl
  · exact ((List.pairwise_cons.mp hspaced).1 boundary hnewer).1.le

theorem Walked.le_next (h : Walked current minimum done w) (horder : ∀ y ∈ done, x ≤ y) (hx : x < current) :
    x ≤ w.next_boundary := by
  rcases h.next with hnext | hnext
  · rw [hnext]
    exact hx.le
  · exact horder _ hnext

theorem walked_start (hcurrent : 0 < current) : Walked current minimum [] (walkStart current) where
  pushed := ⟨_, _, rfl, rfl⟩
  stop := rfl
  positive boundary hboundary := by rwa [List.mem_singleton.mp hboundary]
  spaced := List.pairwise_singleton _ _
  counts boundary newer hsuffix hnewer := by
    rcases List.suffix_cons_iff.mp hsuffix with heq | hnil
    · exact absurd (List.cons.inj heq).2 hnewer
    · exact absurd (List.suffix_nil.mp hnil) (List.cons_ne_nil _ _)
  sum := rfl
  next := .inl rfl
  near _ x hx := by cases hx

/-! ### One block -/

theorem Walked.skip (h : Walked current minimum done w) (hx : x ≤ 0) : Walked current minimum (done ++ [x]) w where
  pushed := h.pushed
  stop := h.stop
  positive := h.positive
  spaced := h.spaced
  counts boundary newer hsuffix hnewer := by
    have hpos := h.positive boundary (hsuffix.subset (List.mem_cons_self ..))
    rw [blocksAfter_concat, if_neg (not_lt.mpr (hx.trans hpos.le)), add_zero]
    exact h.counts boundary newer hsuffix hnewer
  sum := by
    rw [blocksAfter_concat, if_neg (not_lt.mpr hx), add_zero]
    exact h.sum
  next := h.next.imp_right (List.mem_append_left _)
  near hmin y hy hpos := by
    rcases List.mem_append.mp hy with hy | hy
    · exact h.near hmin y hy hpos
    · exact absurd hpos (not_lt.mpr (List.mem_singleton.mp hy ▸ hx))

theorem Walked.future (h : Walked current minimum done w) (hpos : 0 < x) (hx : current ≤ x) :
    Walked current minimum (done ++ [x]) { w with future_confirmations := w.future_confirmations + 1 } where
  pushed := h.pushed
  stop := h.stop
  positive := h.positive
  spaced := h.spaced
  counts boundary newer hsuffix hnewer := by
    rw [blocksAfter_concat, if_pos ((h.lt_current hsuffix hnewer).trans_le hx), add_right_comm,
      h.counts boundary newer hsuffix hnewer]
  sum := by rw [blocksAfter_concat, if_pos hpos, add_right_comm, h.sum]
  next := h.next.imp_right (List.mem_append_left _)
  near hmin y hy _ hlt := by
    rcases List.mem_append.mp hy with hy | hy
    · exact h.near hmin y hy ‹_› hlt
    · exact absurd hlt (not_lt.mpr (List.mem_singleton.mp hy ▸ hx))

theorem Walked.join (h : Walked current minimum done w) (horder : ∀ y ∈ done, x ≤ y) (hpos : 0 < x)
    (hx : x < current) (hnear : w.next_boundary - x < minimum) :
    Walked current minimum (done ++ [x]) { w with boundaries := joinLast w.boundaries } := by
  obtain ⟨last, newer, hboundaries, hlast⟩ := h.pushed
  have hle : ∀ b ∈ w.boundaries, ¬b.fraction < x := fun b hb =>
    not_lt.mpr ((h.le_next horder hx).trans (h.next_le hb))
  have hspaced := h.spaced
  have hstop := h.stop
  have hpositive := h.positive
  have hsum := h.sum
  have hcounts := h.counts
  rw [hboundaries] at hspaced hstop hpositive hsum hcounts hle
  rw [hboundaries]
  constructor
  · exact ⟨_, newer, rfl, hlast⟩
  · cases newer with
    | nil => exact hstop
    | cons b newer => exact hstop
  · exact List.forall_mem_cons.mpr (List.forall_mem_cons.mp hpositive)
  · exact List.pairwise_cons.mpr (List.pairwise_cons.mp hspaced)
  · intro boundary later hsuffix hlater
    rcases List.suffix_cons_iff.mp hsuffix with heq | hsuffix
    · obtain ⟨rfl, rfl⟩ := List.cons.inj heq
      rw [blocksAfter_concat, if_neg (hle last (List.mem_cons_self ..)), add_zero]
      exact hcounts last later (List.suffix_refl _) hlater
    · rw [blocksAfter_concat, if_neg (hle boundary ?_), add_zero]
      · exact hcounts boundary later (hsuffix.trans (List.suffix_cons ..)) hlater
      · exact List.mem_cons_of_mem _ (hsuffix.subset (List.mem_cons_self ..))
  · rw [total_cons] at hsum
    rw [joinLast, total_cons, blocksAfter_concat, if_pos hpos, ← hsum]
    ring
  · exact h.next.imp_right (List.mem_append_left _)
  · intro hmin y hy hy0 hlt
    rcases List.mem_append.mp hy with hy | hy
    · exact h.near hmin y hy hy0 hlt
    · rwa [List.mem_singleton.mp hy]

variable [IsStrictOrderedRing K]

theorem Walked.push (h : Walked current minimum done w) (horder : ∀ y ∈ done, x ≤ y)
    (hstrict : 0 < minimum ∨ ∀ y ∈ done, x < y) (hpos : 0 < x)
    (hx : x < current) (hfar : minimum ≤ w.next_boundary - x) :
    Walked current minimum (done ++ [x])
      { w with boundaries := ⟨x, 1⟩ :: w.boundaries, next_boundary := x } := by
  have happart : ∀ y ∈ done, 0 < y → x < y := by
    intro y hy hy0
    rcases hstrict with hmin | hstrict
    · rcases le_or_gt current y with hcurrent | hcurrent
      · exact hx.trans_le hcurrent
      · linarith [h.near hmin y hy hy0 hcurrent]
    · exact hstrict y hy
  have hnext : x < w.next_boundary := by
    rcases hstrict with hmin | hstrict
    · linarith
    · rcases h.next with hnext | hnext
      · rwa [hnext]
      · exact hstrict _ hnext
  have hbefore : blocksAfter done x = blocksAfter done 0 := by
    unfold blocksAfter
    rw [List.countP_congr fun y hy => ?_]
    simpa using ⟨hpos.trans, happart y hy⟩
  constructor
  · exact ⟨_, _, rfl, rfl⟩
  · obtain ⟨last, newer, hboundaries, -⟩ := h.pushed
    rw [← h.stop, hboundaries, List.getLast?_cons_cons]
  · exact List.forall_mem_cons.mpr ⟨hpos, h.positive⟩
  · refine List.pairwise_cons.mpr ⟨fun b hb => ?_, h.spaced⟩
    exact ⟨hnext.trans_le (h.next_le hb), hfar.trans (sub_le_sub_right (h.next_le hb) x)⟩
  · intro boundary later hsuffix hlater
    rcases List.suffix_cons_iff.mp hsuffix with heq | hsuffix
    · obtain ⟨rfl, rfl⟩ := List.cons.inj heq
      rw [blocksAfter_concat, if_neg (lt_irrefl x), add_zero, hbefore]
      exact h.sum
    · have hboundary := h.next_le (hsuffix.subset (List.mem_cons_self ..))
      rw [blocksAfter_concat, if_neg (not_lt.mpr (hnext.le.trans hboundary)), add_zero]
      exact h.counts boundary later hsuffix hlater
  · rw [total_cons, blocksAfter_concat, if_pos hpos, ← h.sum]
    ring
  · exact .inr (by simp)
  · intro hmin y hy hy0 hlt
    rcases List.mem_append.mp hy with hy | hy
    · exact (sub_nonpos.mpr (horder y hy)).trans_lt hmin
    · rw [List.mem_singleton.mp hy, sub_self]
      exact hmin

theorem Walked.step (h : Walked current minimum done w) (horder : ∀ y ∈ done, x ≤ y)
    (hstrict : 0 < minimum ∨ ∀ y ∈ done, x < y) :
    Walked current minimum (done ++ [x]) (walkBlock current minimum w x) := by
  unfold walkBlock
  split
  next hx => exact h.skip hx
  next hpos =>
  split
  next hx => exact h.future (not_le.mp hpos) hx
  next hx =>
  split
  next hnear => exact h.join horder (not_le.mp hpos) (not_le.mp hx) hnear
  next hfar => exact h.push horder hstrict (not_le.mp hpos) (not_le.mp hx) (not_lt.mp hfar)

theorem Walked.foldl (h : Walked current minimum done w) (horder : (done ++ blocks).Pairwise (· ≥ ·))
    (hstrict : 0 < minimum ∨ (done ++ blocks).Pairwise (· > ·)) :
    Walked current minimum (done ++ blocks) (blocks.foldl (walkBlock current minimum) w) := by
  induction blocks generalizing done w with
  | nil => simpa using h
  | cons x blocks ih =>
    have hbefore : ∀ y ∈ done, x ≤ y := fun y hy =>
      (List.pairwise_append.mp horder).2.2 y hy x (List.mem_cons_self ..)
    have hapart : 0 < minimum ∨ ∀ y ∈ done, x < y := hstrict.imp_right fun hpairwise y hy =>
      (List.pairwise_append.mp hpairwise).2.2 y hy x (List.mem_cons_self ..)
    rw [List.append_cons] at horder hstrict ⊢
    exact ih (h.step hbefore hapart) horder hstrict

theorem walked (hcurrent : 0 < current) (hascending : blocks.Pairwise (· ≤ ·))
    (hstrict : 0 < minimum ∨ blocks.Pairwise (· < ·)) :
    Walked current minimum blocks.reverse (walk current minimum blocks) :=
  (walked_start hcurrent).foldl (List.pairwise_reverse.mpr hascending)
    (hstrict.imp_right List.pairwise_reverse.mpr)

end Walk

/-! ## What is removed -/

section Kept

variable [Field K] [LinearOrder K] {minimum current : K} {blocks : List K} {future_confirmations : Int}
  {w : Walk K}

/-- The boundaries that are left, without the one that is removed. -/
structure Kept (current minimum : K) (blocks : List K) (future_confirmations : Int)
    (removed : Option (Boundary K)) (boundaries : List (Boundary K)) : Prop where
  stop : boundaries.getLast?.map (·.fraction) = some current
  positive : ∀ boundary ∈ boundaries, 0 < boundary.fraction
  spaced : Spaced minimum boundaries
  counts : Counts blocks future_confirmations boundaries
  sum : future_confirmations + total boundaries = blocksAfter blocks ((removed.map (·.fraction)).getD 0)
  wide : boundaries.length = 1 ∨ ∀ boundary ∈ boundaries, minimum ≤ boundary.fraction

theorem Kept.reverse {removed : Option (Boundary K)} {boundaries : List (Boundary K)}
    (h : Kept current minimum blocks.reverse future_confirmations removed boundaries) :
    Kept current minimum blocks future_confirmations removed boundaries where
  stop := h.stop
  positive := h.positive
  spaced := h.spaced
  counts boundary newer hsuffix hnewer := by
    rw [h.counts boundary newer hsuffix hnewer, blocksAfter_reverse]
  sum := by rw [h.sum, blocksAfter_reverse]
  wide := h.wide

variable [IsStrictOrderedRing K]

theorem Walked.kept (h : Walked current minimum blocks w) :
    Kept current minimum blocks w.future_confirmations (removeUndersized minimum w.boundaries).1
      (removeUndersized minimum w.boundaries).2 := by
  obtain ⟨last, newer, hboundaries, -⟩ := h.pushed
  have hstop := h.stop
  have hpositive := h.positive
  have hspaced := h.spaced
  have hsum := h.sum
  have hcounts := h.counts
  rw [hboundaries] at hstop hpositive hspaced hsum hcounts ⊢
  cases newer with
  | nil => exact ⟨hstop, hpositive, hspaced, hcounts, hsum, .inl rfl⟩
  | cons next newer =>
    obtain ⟨hlast, hrest⟩ := List.pairwise_cons.mp hspaced
    simp only [removeUndersized]
    split
    next hundersized =>
      refine ⟨hstop, fun b hb => hpositive b (List.mem_cons_of_mem _ hb), hrest,
        fun b later hsuffix hlater => hcounts b later (hsuffix.trans (List.suffix_cons ..)) hlater,
        hcounts last (next :: newer) (List.suffix_refl _) (List.cons_ne_nil _ _), .inr fun b hb => ?_⟩
      linarith [(hlast b hb).2, hpositive last (List.mem_cons_self ..)]
    next hsized =>
      refine ⟨hstop, hpositive, hspaced, hcounts, hsum, .inr fun b hb => ?_⟩
      rcases List.mem_cons.mp hb with rfl | hb
      · exact not_lt.mp hsized
      · exact (not_lt.mp hsized).trans (hlast b hb).1.le

end Kept

/-! ## The segments -/

section Segments

variable {minimum start stop : K} {confirmations future_confirmations : Int} {first : Boundary K}
  {boundaries : List (Boundary K)} {segment : BlockSegment K}

theorem foldl_total (boundaries : List (Boundary K)) (future_confirmations : Int) :
    boundaries.foldl (fun sum boundary => sum + boundary.block_count) future_confirmations =
      future_confirmations + total boundaries := by
  induction boundaries generalizing future_confirmations with
  | nil => simp [total]
  | cons boundary boundaries ih => rw [List.foldl_cons, ih, total_cons, add_assoc]

theorem map_end_segmentsFrom (boundaries : List (Boundary K)) (start : K) (confirmations : Int) :
    (segmentsFrom start confirmations boundaries).map (·.end_fraction) = boundaries.map (·.fraction) := by
  induction boundaries generalizing start confirmations with
  | nil => rfl
  | cons boundary boundaries ih => rw [segmentsFrom, List.map_cons, ih, List.map_cons]

theorem segmentsFrom_confirmations
    (hsegment : segment ∈ segmentsFrom start (future_confirmations + total boundaries) boundaries) :
    (segment.start_fraction = start ∧ segment.start_confirmations = future_confirmations + total boundaries) ∨
      ∃ boundary newer, boundary :: newer <:+ boundaries ∧ newer ≠ [] ∧
        segment.start_fraction = boundary.fraction ∧
          segment.start_confirmations = future_confirmations + total newer := by
  induction boundaries generalizing start with
  | nil => cases hsegment
  | cons boundary boundaries ih =>
    rcases List.mem_cons.mp hsegment with rfl | hsegment
    · exact .inl ⟨rfl, rfl⟩
    · have hrest : future_confirmations + total (boundary :: boundaries) - boundary.block_count =
          future_confirmations + total boundaries := by
        rw [total_cons]
        ring
      rw [hrest] at hsegment
      refine .inr ?_
      rcases ih hsegment with ⟨hstart, hconfirmations⟩ | ⟨b, newer, hsuffix, hnewer, hstart, hconfirmations⟩
      · refine ⟨boundary, boundaries, List.suffix_refl _, ?_, hstart, hconfirmations⟩
        rintro rfl
        cases hsegment
      · exact ⟨b, newer, hsuffix.trans (List.suffix_cons ..), hnewer, hstart, hconfirmations⟩

variable [LinearOrder K]

/-- The segments go from `start` to `stop`, each from the end of the one before. -/
inductive Covers : K → K → List (BlockSegment K) → Prop where
  | nil (stop : K) : Covers stop stop []
  | cons {stop : K} {segment : BlockSegment K} {segments : List (BlockSegment K)} :
      segment.start_fraction < segment.end_fraction → Covers segment.end_fraction stop segments →
        Covers segment.start_fraction stop (segment :: segments)

theorem segmentsFrom_covers (hordered : (first :: boundaries).Pairwise fun a b => a.fraction < b.fraction)
    (hstop : (first :: boundaries).getLast?.map (·.fraction) = some stop) (confirmations : Int) :
    Covers first.fraction stop (segmentsFrom first.fraction confirmations boundaries) := by
  induction boundaries generalizing first confirmations with
  | nil =>
    obtain rfl : first.fraction = stop := by simpa using hstop
    exact .nil _
  | cons boundary boundaries ih =>
    obtain ⟨hfirst, hrest⟩ := List.pairwise_cons.mp hordered
    rw [List.getLast?_cons_cons] at hstop
    have hcovers := ih hrest hstop (confirmations - boundary.block_count)
    let segment : BlockSegment K :=
      ⟨first.fraction, boundary.fraction, confirmations, confirmations - boundary.block_count⟩
    have hlt : segment.start_fraction < segment.end_fraction := hfirst boundary (List.mem_cons_self ..)
    exact .cons hlt hcovers

variable [Field K]

theorem segmentsFrom_length (hspaced : Spaced minimum (first :: boundaries))
    (hsegment : segment ∈ segmentsFrom first.fraction confirmations boundaries) :
    minimum ≤ segment.end_fraction - segment.start_fraction := by
  induction boundaries generalizing first confirmations with
  | nil => cases hsegment
  | cons boundary boundaries ih =>
    obtain ⟨hfirst, hrest⟩ := List.pairwise_cons.mp hspaced
    rcases List.mem_cons.mp hsegment with rfl | hsegment
    · exact (hfirst boundary (List.mem_cons_self ..)).2
    · exact ih hrest hsegment

variable {current : K} {blocks : List K} {removed : Option (Boundary K)}

theorem Kept.covers (h : Kept current minimum blocks future_confirmations removed boundaries)
    (confirmations : Int) : Covers 0 current (segmentsFrom 0 confirmations boundaries) := by
  have hordered : ((⟨0, 0⟩ : Boundary K) :: boundaries).Pairwise fun a b => a.fraction < b.fraction :=
    List.pairwise_cons.mpr ⟨h.positive, h.spaced.imp And.left⟩
  refine segmentsFrom_covers hordered ?_ confirmations
  cases boundaries with
  | nil => cases h.stop
  | cons boundary boundaries =>
    rw [List.getLast?_cons_cons]
    exact h.stop

theorem Kept.ends (h : Kept current minimum blocks future_confirmations removed boundaries) :
    ((segmentsFrom 0 confirmations boundaries).map (·.end_fraction)).Pairwise (· < ·) := by
  rw [map_end_segmentsFrom]
  exact List.pairwise_map.mpr (h.spaced.imp And.left)

theorem Kept.length (h : Kept current minimum blocks future_confirmations removed boundaries) :
    (segmentsFrom 0 confirmations boundaries).length = 1 ∨
      ∀ segment ∈ segmentsFrom 0 confirmations boundaries,
        minimum ≤ segment.end_fraction - segment.start_fraction := by
  rcases h.wide with hsingle | hwide
  · left
    rw [← List.length_map, map_end_segmentsFrom, List.length_map, hsingle]
  · have hspaced : Spaced minimum ((⟨0, 0⟩ : Boundary K) :: boundaries) :=
      List.pairwise_cons.mpr ⟨fun b hb => ⟨h.positive b hb, by simpa using hwide b hb⟩, h.spaced⟩
    exact .inr fun segment hsegment => segmentsFrom_length hspaced hsegment

theorem Kept.start_confirmations (h : Kept current minimum blocks future_confirmations removed boundaries)
    (hsegment : segment ∈ segmentsFrom 0 (future_confirmations + total boundaries) boundaries)
    (hstart : 0 < segment.start_fraction) :
    segment.start_confirmations = blocksAfter blocks segment.start_fraction := by
  rcases segmentsFrom_confirmations hsegment with ⟨hfirst, -⟩ | ⟨b, newer, hsuffix, hnewer, hb, hconfirmations⟩
  · exact absurd hfirst hstart.ne'
  · rw [hconfirmations, hb]
    exact h.counts b newer hsuffix hnewer

theorem Kept.head_confirmations (h : Kept current minimum blocks future_confirmations removed boundaries) :
    ∀ segment ∈ (segmentsFrom 0 (future_confirmations + total boundaries) boundaries).head?,
      segment.start_fraction = 0 ∧
        segment.start_confirmations = blocksAfter blocks ((removed.map (·.fraction)).getD 0) := by
  intro segment hsegment
  cases boundaries with
  | nil => cases hsegment
  | cons boundary boundaries =>
    cases hsegment
    exact ⟨rfl, h.sum⟩

end Segments

/-- The segments cover the time up to now, none but the only one is too short, and a segment has as many
confirmations as there are blocks after it begins. The first one has those after the boundary removed. -/
theorem segments_cover_and_count {K : Type} [Field K] [LinearOrder K] [IsStrictOrderedRing K] (minimum : K)
    {block_time_fractions : List K} (current_time_fraction : K)
    (hascending : block_time_fractions.Pairwise (· ≤ ·))
    (hstrict : 0 < minimum ∨ block_time_fractions.Pairwise (· < ·)) :
    let segments : List (BlockSegment K) :=
      coalescedBlockSegments minimum block_time_fractions current_time_fraction
    let current := qBound 0 current_time_fraction 1
    let removed := removedBoundary minimum block_time_fractions current_time_fraction
    Covers 0 current segments ∧ (segments.map (·.end_fraction)).Pairwise (· < ·) ∧
    (segments.length = 1 ∨ ∀ segment ∈ segments, minimum ≤ segment.end_fraction - segment.start_fraction) ∧
    (∀ segment ∈ segments, 0 < segment.start_fraction →
      segment.start_confirmations = blocksAfter block_time_fractions segment.start_fraction) ∧
    ∀ segment ∈ segments.head?, segment.start_fraction = 0 ∧
      segment.start_confirmations = blocksAfter block_time_fractions (removed.getD 0) := by
  intro segments current removed
  by_cases hcurrent : current ≤ 0
  · have hsegments : segments = [] := if_pos hcurrent
    have hzero : current = 0 := le_antisymm hcurrent (le_max_left ..)
    rw [hsegments, hzero]
    exact ⟨.nil 0, List.Pairwise.nil, .inr (List.forall_mem_nil _), List.forall_mem_nil _, by simp⟩
  · have hkept := (walked (not_le.mp hcurrent) hascending hstrict).kept.reverse
    have hsegments : segments = segmentsFrom 0
        ((walk current minimum block_time_fractions).future_confirmations +
          total (removeUndersized minimum (walk current minimum block_time_fractions).boundaries).2)
        (removeUndersized minimum (walk current minimum block_time_fractions).boundaries).2 := by
      rw [← foldl_total]
      exact if_neg hcurrent
    rw [hsegments]
    exact ⟨hkept.covers _, hkept.ends, hkept.length, fun s hs => hkept.start_confirmations hs,
      hkept.head_confirmations⟩

/-- Two blocks share a boundary, the oldest one is too near to the start, and the newest is still to come. -/
theorem coalesced_day :
    let blocks : List ℚ := [1 / 100, 1 / 5, 1 / 2, 51 / 100, 1]
    let segments := coalescedBlockSegments (1 / 20) blocks (3 / 4)
    let current := qBound 0 (3 / 4) 1
    let removed := removedBoundary (1 / 20) blocks (3 / 4)
    Covers 0 current segments ∧ (segments.map (·.end_fraction)).Pairwise (· < ·) ∧
    (segments.length = 1 ∨ ∀ segment ∈ segments, 1 / 20 ≤ segment.end_fraction - segment.start_fraction) ∧
    (∀ segment ∈ segments, 0 < segment.start_fraction →
      segment.start_confirmations = blocksAfter blocks segment.start_fraction) ∧
    ∀ segment ∈ segments.head?, segment.start_fraction = 0 ∧
      segment.start_confirmations = blocksAfter blocks (removed.getD 0) :=
  segments_cover_and_count (1 / 20) (3 / 4) (by decide +kernel) (.inl (by decide +kernel))

/-- With a pen so narrow that no interval is too short, two blocks at one time leave an empty segment. -/
theorem empty_segment : minimumIntervalFraction 3 (-2) 100 = (0 : ℚ) ∧
    ¬∀ block_time_fractions : List ℚ, block_time_fractions.Pairwise (· ≤ ·) →
      ((coalescedBlockSegments (minimumIntervalFraction 3 (-2) 100) block_time_fractions 1).map
        (·.end_fraction)).Pairwise (· < ·) := by
  refine ⟨by decide +kernel, fun h => ?_⟩
  have hends := h [1 / 2, 1 / 2] (by decide +kernel)
  exact absurd hends (by decide +kernel)

end GuiQml.BlockClock.BlockClockDial
