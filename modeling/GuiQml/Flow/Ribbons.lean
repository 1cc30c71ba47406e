import GuiQml.Flow.Layout
import GuiQml.Lib.Share
import Mathlib.Algebra.BigOperators.Group.List.Basic
import Mathlib.Algebra.Order.Field.Rat
import Mathlib.Tactic.NormNum
import Mathlib.Tactic.Ring

/-!
# The widths of ribbons

Small positive amounts keep a width of 1, larger amounts get larger widths, and the two sides of a
proportional flow are of one width unless one of them has to show too many entries.
-/

namespace GuiQml.Flow

open Share (share shares Shareable)

/-! ## Sums -/

/-- The sum of the amounts that are known. -/
def knownSum (entries : List Entry) : Int := ((entries.filter amountKnown).map amount).sum

theorem sumFrom_knownOnly (entries : List Entry) (total : Int) :
    sumFrom true total entries = some (total + knownSum entries) := by
  induction entries generalizing total with
  | nil => simp [sumFrom, knownSum]
  | cons entry rest ih => cases hknown : amountKnown entry <;> simp [sumFrom, knownSum, hknown, ih, add_assoc]

theorem sum_knownOnly (entries : List Entry) : sum entries true = some (knownSum entries) := by
  rw [sum, sumFrom_knownOnly, zero_add]

theorem sumFrom_eq_some {entries : List Entry} {start total : Int} (h : sumFrom false start entries = some total) :
    (∀ entry ∈ entries, amountKnown entry = true) ∧ start + knownSum entries = total := by
  induction entries generalizing start with
  | nil => simpa [sumFrom, knownSum] using h
  | cons entry rest ih =>
    cases hknown : amountKnown entry with
    | false => simp [sumFrom, hknown] at h
    | true =>
      simp only [sumFrom, hknown, Bool.not_true, Bool.false_eq_true, if_false] at h
      obtain ⟨hall, hsum⟩ := ih h
      refine ⟨List.forall_mem_cons.mpr ⟨hknown, hall⟩, ?_⟩
      rw [← hsum]
      simp [knownSum, hknown, add_assoc]

theorem sum_eq_some {entries : List Entry} {total : Int} (h : sum entries false = some total) :
    (∀ entry ∈ entries, amountKnown entry = true) ∧ knownSum entries = total := by
  obtain ⟨hall, hsum⟩ := sumFrom_eq_some h
  exact ⟨hall, by rwa [zero_add] at hsum⟩

/-! ## Positive amounts -/

theorem amount_pos {entry : Entry} (h : positiveAmount entry = true) : 0 < amount entry := by
  simp only [positiveAmount, Bool.and_eq_true, decide_eq_true_eq] at h
  exact h.2

theorem amountKnown_of_positive {entry : Entry} (h : positiveAmount entry = true) :
    amountKnown entry = true := by
  simp only [positiveAmount, Bool.and_eq_true, decide_eq_true_eq] at h
  exact h.1

theorem amount_nonneg {entry : Entry} (h : amountKnown entry = true) : 0 ≤ amount entry := by
  simp only [amountKnown, Bool.and_eq_true] at h
  cases hsat : entry.amountSat with
  | none => simp [hsat] at h
  | some value => simpa [amount, hsat] using h.2

theorem amount_eq_zero {entry : Entry} (h : amountKnown entry = true) (hpos : positiveAmount entry = false) :
    amount entry = 0 := by
  have := amount_nonneg h
  simp only [positiveAmount, h, Bool.true_and, decide_eq_false_iff_not] at hpos
  omega

theorem fixedWidth_of_positive {entry : Entry} (h : positiveAmount entry = true) : fixedWidth entry = 0 := by
  have := amount_pos h
  simp [fixedWidth, amountKnown_of_positive h, this.ne']

/-! ## The known amounts -/

/-- The order in which the widths are shared out. -/
def sortedAmounts (entries : List Entry) : List Known :=
  (knownAmounts entries).mergeSort fun a b => a.amount ≤ b.amount

theorem mem_knownAmounts {entries : List Entry} {k : Known} :
    k ∈ knownAmounts entries ↔
      ∃ entry, entries[k.index]? = some entry ∧ positiveAmount entry = true ∧ k.amount = amount entry := by
  constructor
  · intro h
    obtain ⟨p, hp, rfl⟩ := List.mem_map.mp h
    obtain ⟨hmem, hpos⟩ := List.mem_filter.mp hp
    exact ⟨p.1, List.mem_zipIdx_iff_getElem?.mp hmem, hpos, rfl⟩
  · rintro ⟨entry, hget, hpos, hamount⟩
    refine List.mem_map.mpr ⟨(entry, k.index), List.mem_filter.mpr ⟨?_, hpos⟩, ?_⟩
    · exact List.mem_zipIdx_iff_getElem?.mpr hget
    · rw [← hamount]

theorem nodup_knownAmounts (entries : List Entry) : ((knownAmounts entries).map (·.index)).Nodup := by
  rw [knownAmounts, List.map_map]
  have hindex : ((fun k : Known => k.index) ∘ fun p : Entry × Nat => (⟨p.2, amount p.1⟩ : Known)) = Prod.snd := rfl
  rw [hindex]
  refine List.Nodup.sublist (List.filter_sublist.map _) ?_
  rw [List.zipIdx_map_snd]
  exact List.nodup_range'

theorem amounts_knownAmounts (entries : List Entry) :
    (knownAmounts entries).map (·.amount) = (entries.filter positiveAmount).map fun e => (amount e : ℚ) := by
  have hfst : (entries.zipIdx.filter fun p => positiveAmount p.1).map Prod.fst = entries.filter positiveAmount := by
    rw [show (fun p : Entry × Nat => positiveAmount p.1) = positiveAmount ∘ Prod.fst from rfl, ← List.filter_map,
      List.zipIdx_map_fst]
  rw [knownAmounts, List.map_map, ← hfst, List.map_map]
  rfl

/-- The number of entries of a positive amount. -/
def positives (entries : List Entry) : Nat := (entries.filter positiveAmount).length

theorem length_knownAmounts (entries : List Entry) : (knownAmounts entries).length = positives entries := by
  simpa [positives] using congrArg List.length (amounts_knownAmounts entries)

theorem sum_knownAmounts (entries : List Entry) :
    ((knownAmounts entries).map (·.amount)).sum = (knownSum entries : ℚ) := by
  rw [amounts_knownAmounts]
  induction entries with
  | nil => rfl
  | cons entry rest ih =>
    cases hpos : positiveAmount entry with
    | true =>
      have hknown := amountKnown_of_positive hpos
      simp [hpos, hknown, ih, knownSum]
    | false =>
      cases hknown : amountKnown entry with
      | true => simp [hpos, hknown, ih, knownSum, amount_eq_zero hknown hpos]
      | false => simp [hpos, hknown, ih, knownSum]

theorem perm_sortedAmounts (entries : List Entry) : (sortedAmounts entries).Perm (knownAmounts entries) :=
  List.mergeSort_perm _ _

theorem pairwise_sortedAmounts (entries : List Entry) :
    (sortedAmounts entries).Pairwise fun a b => a.amount ≤ b.amount := by
  have h := @List.pairwise_mergeSort _ (fun a b : Known => decide (a.amount ≤ b.amount))
    (fun a b c hab hbc => by
      simp only [decide_eq_true_eq] at *
      exact hab.trans hbc)
    (fun a b => by simpa using le_total a.amount b.amount) (knownAmounts entries)
  exact h.imp fun hab => by simpa using hab

theorem shareable (entries : List Entry) (width : ℚ) (hwidth : positives entries ≤ width) :
    Shareable 1 (knownSum entries : ℚ) width ((sortedAmounts entries).map (·.amount)) where
  pos a ha := by
    obtain ⟨k, hk, rfl⟩ := List.mem_map.mp ha
    obtain ⟨entry, -, hpos, hamount⟩ := mem_knownAmounts.mp ((perm_sortedAmounts entries).mem_iff.mp hk)
    rw [hamount]
    exact_mod_cast amount_pos hpos
  sorted := List.pairwise_map.mpr (pairwise_sortedAmounts entries)
  sum := by rw [← sum_knownAmounts, ((perm_sortedAmounts entries).map _).sum_eq]
  room := by
    rw [List.length_map, (perm_sortedAmounts entries).length_eq, length_knownAmounts, mul_one]
    exact hwidth

/-! ## Writing the widths -/

/-- The widths with one written for each of the amounts. -/
def written (widths : List ℚ) (pairs : List (Known × ℚ)) : List ℚ :=
  pairs.foldl (fun widths p => widths.set p.1.index p.2) widths

@[simp] theorem length_written (widths : List ℚ) (pairs : List (Known × ℚ)) :
    (written widths pairs).length = widths.length := by
  induction pairs generalizing widths with
  | nil => rfl
  | cons p rest ih => simpa [written] using ih (widths.set p.1.index p.2)

theorem written_other {pairs : List (Known × ℚ)} {i : Nat} (hi : ∀ p ∈ pairs, p.1.index ≠ i)
    (widths : List ℚ) : (written widths pairs)[i]? = widths[i]? := by
  induction pairs generalizing widths with
  | nil => rfl
  | cons p rest ih =>
    rw [List.forall_mem_cons] at hi
    rw [written, List.foldl_cons, ← written, ih hi.2, List.getElem?_set_ne hi.1]

theorem written_of_mem {pairs : List (Known × ℚ)} (hnodup : (pairs.map (·.1.index)).Nodup)
    {p : Known × ℚ} (hp : p ∈ pairs) {widths : List ℚ} (hlt : p.1.index < widths.length) :
    (written widths pairs)[p.1.index]? = some p.2 := by
  induction pairs generalizing widths with
  | nil => cases hp
  | cons q rest ih =>
    rw [List.map_cons, List.nodup_cons] at hnodup
    rw [written, List.foldl_cons, ← written]
    rcases List.mem_cons.mp hp with rfl | hp
    · rw [written_other (fun r hr heq => hnodup.1 (List.mem_map.mpr ⟨r, hr, heq⟩)), List.getElem?_set_self hlt]
    · exact ih hnodup.2 hp (by rwa [List.length_set])

theorem sum_written {pairs : List (Known × ℚ)} (hnodup : (pairs.map (·.1.index)).Nodup) {widths : List ℚ}
    (hzero : ∀ p ∈ pairs, widths[p.1.index]? = some 0) :
    (written widths pairs).sum = widths.sum + (pairs.map (·.2)).sum := by
  induction pairs generalizing widths with
  | nil => simp [written]
  | cons p rest ih =>
    rw [List.map_cons, List.nodup_cons] at hnodup
    rw [List.forall_mem_cons] at hzero
    obtain ⟨hlt, hget⟩ := List.getElem?_eq_some_iff.mp hzero.1
    rw [written, List.foldl_cons, ← written, ih hnodup.2, List.sum_set', dif_pos hlt, hget, List.map_cons,
      List.sum_cons]
    · ring
    · intro q hq
      rw [List.getElem?_set_ne fun heq => hnodup.1 (List.mem_map.mpr ⟨q, hq, heq.symm⟩)]
      exact hzero.2 q hq

/-! ## The loop -/

/-- The loop divides by no zero, and writes the shares. -/
theorem foldlM_ribbonStep {known : List Known} {s : RibbonLoop}
    (h : Shareable 1 s.remainingAmount s.remainingWidth (known.map (·.amount))) :
    ∃ amount width, known.foldlM ribbonStep s = some
      ⟨written s.widths (known.zip (shares 1 s.remainingAmount s.remainingWidth (known.map (·.amount)))),
        amount, width⟩ := by
  induction known generalizing s with
  | nil => exact ⟨_, _, rfl⟩
  | cons k rest ih =>
    have hamount := h.amount_pos
    rw [List.map_cons] at h
    have hstep : ribbonStep s k = some
        ⟨s.widths.set k.index (share 1 k.amount s.remainingAmount s.remainingWidth),
          s.remainingAmount - k.amount,
          s.remainingWidth - share 1 k.amount s.remainingAmount s.remainingWidth⟩ := by
      simp [ribbonStep, div?, hamount.ne', share]
    obtain ⟨amount, width, hrest⟩ := ih (s := ⟨_, _, _⟩) (h.tail zero_le_one)
    exact ⟨amount, width, by rw [List.foldlM_cons, hstep]; exact hrest⟩

/-! ## The widths of one side -/

/-- The width that the positive amounts share. -/
def sharedWidth (entries : List Entry) (amountScale totalWidth : ℚ) : ℚ :=
  max (positives entries)
    (if 0 < amountScale then knownSum entries / amountScale * totalWidth - dataWidth entries else 0)

/-- The amounts and their shares. -/
def sharePairs (entries : List Entry) (amountScale totalWidth : ℚ) : List (Known × ℚ) :=
  (sortedAmounts entries).zip (shares 1 (knownSum entries) (sharedWidth entries amountScale totalWidth)
    ((sortedAmounts entries).map (·.amount)))

theorem ribbonWidths_eq (entries : List Entry) (amountScale totalWidth : ℚ) :
    ribbonWidths entries amountScale totalWidth =
      some (written (entries.map fixedWidth) (sharePairs entries amountScale totalWidth)) := by
  have hlength : ((sortedAmounts entries).length : ℚ) = positives entries := by
    rw [(perm_sortedAmounts entries).length_eq, length_knownAmounts]
  obtain ⟨amount, width, hloop⟩ := foldlM_ribbonStep
    (s := ⟨entries.map fixedWidth, knownSum entries, sharedWidth entries amountScale totalWidth⟩)
    (shareable entries _ (le_max_left _ _))
  unfold ribbonWidths
  simp only [sum_knownOnly, Option.bind_eq_bind, Option.bind_some]
  rw [← sortedAmounts, hlength]
  by_cases hscale : 0 < amountScale
  · rw [sharedWidth, if_pos hscale] at hloop
    rw [if_pos hscale, div?, if_neg hscale.ne', Option.bind_some, hloop, sharePairs, sharedWidth, if_pos hscale]
    rfl
  · rw [sharedWidth, if_neg hscale] at hloop
    rw [if_neg hscale, hloop, sharePairs, sharedWidth, if_neg hscale]
    rfl

/-- Widths that show every positive amount, and a larger amount no narrower than a smaller one. -/
structure Shows (entries : List Entry) (widths : List ℚ) : Prop where
  length : widths.length = entries.length
  visible : ∀ p ∈ entries.zip widths, positiveAmount p.1 = true → 1 ≤ p.2
  ordered : ∀ p ∈ entries.zip widths, ∀ q ∈ entries.zip widths, amountKnown p.1 = true →
    amountKnown q.1 = true → amount p.1 < amount q.1 → p.2 ≤ q.2

section Side

variable {entries : List Entry} {amountScale totalWidth : ℚ}

theorem length_amountShares : (shares 1 (knownSum entries : ℚ) (sharedWidth entries amountScale totalWidth)
    ((sortedAmounts entries).map (·.amount))).length = (sortedAmounts entries).length := by
  rw [Share.length_shares, List.length_map]

variable (entries amountScale totalWidth) in
theorem map_fst_sharePairs : (sharePairs entries amountScale totalWidth).map Prod.fst = sortedAmounts entries :=
  List.map_fst_zip length_amountShares.ge

theorem nodup_sharePairs : ((sharePairs entries amountScale totalWidth).map (·.1.index)).Nodup := by
  rw [show (fun p : Known × ℚ => p.1.index) = Known.index ∘ Prod.fst from rfl, ← List.map_map,
    map_fst_sharePairs]
  exact ((perm_sortedAmounts entries).map _).nodup_iff.mpr (nodup_knownAmounts entries)

theorem mem_of_sharePairs {p : Known × ℚ} (hp : p ∈ sharePairs entries amountScale totalWidth) :
    ∃ entry, entries[p.1.index]? = some entry ∧ positiveAmount entry = true ∧ p.1.amount = amount entry := by
  have hmem : p.1 ∈ sortedAmounts entries := map_fst_sharePairs entries amountScale totalWidth ▸ List.mem_map_of_mem hp
  exact mem_knownAmounts.mp ((perm_sortedAmounts entries).mem_iff.mp hmem)

theorem one_le_of_sharePairs {p : Known × ℚ} (hp : p ∈ sharePairs entries amountScale totalWidth) : 1 ≤ p.2 :=
  Share.least_le_of_mem (List.of_mem_zip hp).2

theorem sharePairs_ordered {p q : Known × ℚ} (hp : p ∈ sharePairs entries amountScale totalWidth)
    (hq : q ∈ sharePairs entries amountScale totalWidth) (hlt : p.1.amount < q.1.amount) : p.2 ≤ q.2 := by
  have hshares := (shareable entries (sharedWidth entries amountScale totalWidth)
    (le_max_left _ _)).pairwise_shares zero_le_one
  have hamounts := pairwise_sortedAmounts entries
  rw [List.pairwise_iff_getElem] at hshares hamounts
  have hpairs : (sharePairs entries amountScale totalWidth).Pairwise fun p q =>
      p.1.amount < q.1.amount → p.2 ≤ q.2 := by
    rw [List.pairwise_iff_getElem]
    intro i j hi hj hij _
    simp only [sharePairs, List.length_zip, lt_inf_iff] at hi hj
    simpa only [sharePairs, List.getElem_zip] using hshares i j hi.2 hj.2 hij
  have hflip : (sharePairs entries amountScale totalWidth).Pairwise fun p q =>
      q.1.amount < p.1.amount → q.2 ≤ p.2 := by
    rw [List.pairwise_iff_getElem]
    intro i j hi hj hij hback
    simp only [sharePairs, List.length_zip, lt_inf_iff] at hi hj
    simp only [sharePairs, List.getElem_zip] at hback
    exact absurd hback (hamounts i j hi.1 hj.1 hij).not_gt
  exact hpairs.forall_of_forall_of_flip (fun _ _ h => absurd h (lt_irrefl _)) hflip hp hq hlt

theorem share_of_positive {p : Entry × ℚ}
    (hp : p ∈ entries.zip (written (entries.map fixedWidth) (sharePairs entries amountScale totalWidth)))
    (hpos : positiveAmount p.1 = true) :
    ∃ pair ∈ sharePairs entries amountScale totalWidth, pair.1.amount = amount p.1 ∧ pair.2 = p.2 := by
  obtain ⟨i, hget⟩ := List.mem_iff_getElem?.mp hp
  rw [List.getElem?_zip_eq_some] at hget
  have hknown : (⟨i, amount p.1⟩ : Known) ∈ sortedAmounts entries :=
    (perm_sortedAmounts entries).mem_iff.mpr (mem_knownAmounts.mpr ⟨p.1, hget.1, hpos, rfl⟩)
  rw [← map_fst_sharePairs entries amountScale totalWidth] at hknown
  obtain ⟨pair, hpair, hfst⟩ := List.mem_map.mp hknown
  have hindex : pair.1.index = i := by rw [hfst]
  have hlt : pair.1.index < (entries.map fixedWidth).length := by
    rw [hindex, List.length_map]
    exact (List.getElem?_eq_some_iff.mp hget.1).1
  have hwidth := written_of_mem nodup_sharePairs hpair hlt
  rw [hindex, hget.2] at hwidth
  exact ⟨pair, hpair, by rw [hfst], (Option.some.inj hwidth).symm⟩

theorem width_of_not_positive {p : Entry × ℚ}
    (hp : p ∈ entries.zip (written (entries.map fixedWidth) (sharePairs entries amountScale totalWidth)))
    (hpos : positiveAmount p.1 = false) : p.2 = fixedWidth p.1 := by
  obtain ⟨i, hget⟩ := List.mem_iff_getElem?.mp hp
  rw [List.getElem?_zip_eq_some] at hget
  have hother : ∀ pair ∈ sharePairs entries amountScale totalWidth, pair.1.index ≠ i := by
    rintro pair hpair rfl
    obtain ⟨entry, hentry, hentrypos, -⟩ := mem_of_sharePairs hpair
    rw [hget.1, Option.some.injEq] at hentry
    rw [← hentry, hpos] at hentrypos
    cases hentrypos
  have hwidth := written_other hother (entries.map fixedWidth)
  rw [hget.2, List.getElem?_map, hget.1] at hwidth
  exact Option.some.inj hwidth

theorem fixedWidth_le_one {entry : Entry} (h : amountKnown entry = true) : fixedWidth entry ≤ 1 := by
  rw [fixedWidth, if_pos h]
  split_ifs <;> norm_num

theorem shows_written :
    Shows entries (written (entries.map fixedWidth) (sharePairs entries amountScale totalWidth)) where
  length := by simp
  visible p hp hpos := by
    obtain ⟨pair, hpair, -, hwidth⟩ := share_of_positive hp hpos
    exact hwidth ▸ one_le_of_sharePairs hpair
  ordered p hp q hq hpknown hqknown hlt := by
    have hqpos : positiveAmount q.1 = true := by
      have := amount_nonneg hpknown
      simp only [positiveAmount, hqknown, Bool.true_and, decide_eq_true_eq]
      omega
    obtain ⟨right, hright, hramount, hrwidth⟩ := share_of_positive hq hqpos
    cases hppos : positiveAmount p.1 with
    | true =>
      obtain ⟨left, hleft, hlamount, hlwidth⟩ := share_of_positive hp hppos
      rw [← hlwidth, ← hrwidth]
      refine sharePairs_ordered hleft hright ?_
      rw [hlamount, hramount]
      exact_mod_cast hlt
    | false =>
      -- An amount of zero has a width of 1 or none.
      rw [width_of_not_positive hp hppos, ← hrwidth]
      exact (fixedWidth_le_one hpknown).trans (one_le_of_sharePairs hright)

/-- The number of entries that get a width: the positive amounts and the data outputs without value. -/
def needed (entries : List Entry) : Nat :=
  positives entries + (entries.filter fun e => amountKnown e && e.kind = .data && amount e = 0).length

theorem sum_fixedWidth (hall : ∀ e ∈ entries, amountKnown e = true) :
    (entries.map fixedWidth).sum =
      (entries.filter fun e => amountKnown e && e.kind = .data && amount e = 0).length := by
  induction entries with
  | nil => rfl
  | cons e rest ih =>
    rw [List.forall_mem_cons] at hall
    rw [List.map_cons, List.sum_cons, ih hall.2, fixedWidth, if_pos hall.1]
    by_cases hdata : e.kind = .data ∧ amount e = 0
    · simp [hall.1, hdata, add_comm]
    · simp [hall.1, hdata]

theorem dataWidth_eq (hall : ∀ e ∈ entries, amountKnown e = true) :
    dataWidth entries = (entries.map fixedWidth).sum := by
  unfold dataWidth
  congr 1
  refine List.map_congr_left fun e he => ?_
  have hknown := hall e he
  rw [fixedWidth, if_pos hknown]
  by_cases hdata : e.kind = .data <;> simp [hknown, hdata]

/-- All amounts are known, and the scale is their sum: the widths fill the total width, or are as many as
have to be shown. -/
theorem sum_written_known (hall : ∀ e ∈ entries, amountKnown e = true) (hpos : 0 < knownSum entries) :
    (written (entries.map fixedWidth) (sharePairs entries (knownSum entries) totalWidth)).sum =
      max totalWidth (needed entries) := by
  have hscale : (0 : ℚ) < knownSum entries := by exact_mod_cast hpos
  have hwidth : sharedWidth entries (knownSum entries) totalWidth =
      max (positives entries : ℚ) (totalWidth - (entries.map fixedWidth).sum) := by
    rw [sharedWidth, if_pos hscale, div_self hscale.ne', one_mul, dataWidth_eq hall]
  have hshares : ((sharePairs entries (knownSum entries) totalWidth).map (·.2)).sum =
      sharedWidth entries (knownSum entries) totalWidth := by
    have hshareable := shareable entries (sharedWidth entries (knownSum entries) totalWidth) (le_max_left _ _)
    rw [sharePairs, List.map_snd_zip length_amountShares.le]
    cases hsorted : (sortedAmounts entries).map (·.amount) with
    | nil =>
      rw [hsorted] at hshareable
      have := hshareable.sum
      rw [List.sum_nil] at this
      exact absurd this hscale.ne'
    | cons a rest =>
      rw [hsorted] at hshareable
      exact hshareable.sum_shares zero_le_one
  rw [sum_written nodup_sharePairs, hshares, hwidth]
  · rw [← max_add_add_left, add_sub_cancel, sum_fixedWidth hall, needed, max_comm]
    push_cast
    rw [add_comm]
  · intro p hp
    obtain ⟨entry, hget, hentry, -⟩ := mem_of_sharePairs hp
    rw [List.getElem?_map, hget, Option.map_some, fixedWidth_of_positive hentry]

end Side

/-! ## Both sides -/

/-- What the widths of a diagram are for: every positive amount is visible, a larger one no narrower than
a smaller one of its side, and where the layout is proportional the band goes through the junction. -/
def Continuous (inputs outputs : List Entry) (inputHeights outputHeights : List ℚ) (width : ℚ)
    (complete : Bool) : Prop :=
  ∃ layout inputWidths outputWidths,
    calculate inputs outputs inputHeights outputHeights width complete = some layout ∧
    ribbonWidths inputs (amountScale inputs outputs) (totalWidth inputs outputs) = some inputWidths ∧
    ribbonWidths outputs (amountScale inputs outputs) (totalWidth inputs outputs) = some outputWidths ∧
    Shows inputs inputWidths ∧ Shows outputs outputWidths ∧
    (layout.proportional = true → inputWidths.sum = outputWidths.sum)

variable {inputs outputs : List Entry} {complete : Bool}

theorem proportional_eq_true (h : proportional inputs outputs complete = true) :
    (∀ e ∈ inputs, amountKnown e = true) ∧ (∀ e ∈ outputs, amountKnown e = true) ∧
      0 < knownSum inputs ∧ knownSum outputs = knownSum inputs ∧
        amountScale inputs outputs = knownSum inputs := by
  simp only [proportional, Bool.and_eq_true, decide_eq_true_eq] at h
  obtain ⟨⟨-, hpos⟩, hsame⟩ := h
  cases hin : sum inputs false with
  | none => simp [hin] at hpos
  | some total =>
    obtain ⟨hinputs, hinsum⟩ := sum_eq_some hin
    obtain ⟨houtputs, houtsum⟩ := sum_eq_some (hsame.symm.trans hin)
    refine ⟨hinputs, houtputs, by simpa [hin, ← hinsum] using hpos, by rw [houtsum, hinsum], ?_⟩
    rw [amountScale, sum_knownOnly, sum_knownOnly, Option.getD_some, Option.getD_some, houtsum, hinsum, max_self]

/-- A layout divides by no zero. -/
theorem calculate_spec (inputs outputs : List Entry) (complete : Bool) (inputHeights outputHeights : List ℚ)
    (width : ℚ) :
    ∃ layout, calculate inputs outputs inputHeights outputHeights width complete = some layout ∧
      layout.proportional = proportional inputs outputs complete := by
  have hinfer : ∀ inputWidths outputWidths, ∃ p, inferInputs inputs inputWidths outputWidths = some p := by
    intro inputWidths outputWidths
    fun_cases inferInputs inputs inputWidths outputWidths with
    | case1 => exact ⟨_, rfl⟩
    | case2 unknown hunknown _ remaining =>
      have hne : (unknown : ℚ) ≠ 0 := by exact_mod_cast hunknown
      exact ⟨_, by rw [div?, if_neg hne]; rfl⟩
    | case3 => exact ⟨_, rfl⟩
  obtain ⟨p, hp⟩ := hinfer (written (inputs.map fixedWidth) (sharePairs inputs (amountScale inputs outputs)
    (totalWidth inputs outputs))) (written (outputs.map fixedWidth) (sharePairs outputs
    (amountScale inputs outputs) (totalWidth inputs outputs)))
  unfold calculate
  simp only [ribbonWidths_eq, Option.bind_eq_bind, Option.bind_some, hp]
  exact ⟨_, rfl, rfl⟩

theorem sum_widths (h : proportional inputs outputs complete = true) :
    (written (inputs.map fixedWidth) (sharePairs inputs (amountScale inputs outputs)
        (totalWidth inputs outputs))).sum = max (totalWidth inputs outputs) (needed inputs) ∧
      (written (outputs.map fixedWidth) (sharePairs outputs (amountScale inputs outputs)
        (totalWidth inputs outputs))).sum = max (totalWidth inputs outputs) (needed outputs) := by
  obtain ⟨hinputs, houtputs, hpos, hsame, hscale⟩ := proportional_eq_true h
  refine ⟨by rw [hscale, sum_written_known hinputs hpos], ?_⟩
  rw [hscale, ← hsame]
  exact sum_written_known houtputs (hsame ▸ hpos)

theorem Continuous.needed_agree {inputHeights outputHeights : List ℚ} {width : ℚ}
    (h : Continuous inputs outputs inputHeights outputHeights width complete)
    (hproportional : proportional inputs outputs complete = true) :
    max (totalWidth inputs outputs) (needed inputs) = max (totalWidth inputs outputs) (needed outputs) := by
  obtain ⟨layout, left, right, hlayout, hleft, hright, -, -, hsum⟩ := h
  obtain ⟨layout', hlayout', hsame⟩ := calculate_spec inputs outputs complete inputHeights outputHeights width
  rw [hlayout, Option.some.injEq] at hlayout'
  rw [ribbonWidths_eq, Option.some.injEq] at hleft hright
  obtain ⟨hin, hout⟩ := sum_widths hproportional
  rw [← hin, ← hout, hleft, hright]
  exact hsum (by rw [hlayout', hsame, hproportional])

/-- The band is continuous exactly where no side of a proportional flow has more to show than the other and
than the total width. -/
theorem continuous_iff (inputs outputs : List Entry) (inputHeights outputHeights : List ℚ) (width : ℚ)
    (complete : Bool) :
    Continuous inputs outputs inputHeights outputHeights width complete ↔
      (proportional inputs outputs complete = true →
        max (totalWidth inputs outputs) (needed inputs) = max (totalWidth inputs outputs) (needed outputs)) := by
  constructor
  · exact fun h hproportional => h.needed_agree hproportional
  · intro h
    obtain ⟨layout, hlayout, hsame⟩ := calculate_spec inputs outputs complete inputHeights outputHeights width
    refine ⟨layout, _, _, hlayout, ribbonWidths_eq _ _ _, ribbonWidths_eq _ _ _, shows_written, shows_written, ?_⟩
    intro hproportional
    rw [hsame] at hproportional
    obtain ⟨hin, hout⟩ := sum_widths hproportional
    rw [hin, hout, h hproportional]

/-- An entry of a known amount. -/
def plainEntry (kind : Kind) (amountSat : Wallet.CAmount) : Entry where
  id := ""
  kind
  amountSat := some amountSat
  amountKnown := true
  address := ""
  ownership := .external

/-- One input of 60 pays 60 outputs, beside which there are five data outputs. -/
theorem not_continuous_data_outputs :
    ¬Continuous [plainEntry .input 60]
      (List.replicate 60 (plainEntry .output 1) ++ List.replicate 5 (plainEntry .data 0)) [] [] 400 true := by
  intro h
  have hagree := h.needed_agree (by decide)
  have hin : ((needed [plainEntry .input 60] : Nat) : ℚ) = 1 := congrArg Nat.cast (by decide : _ = 1)
  have hout : ((needed (List.replicate 60 (plainEntry .output 1) ++ List.replicate 5 (plainEntry .data 0)) : Nat) : ℚ)
      = 65 := congrArg Nat.cast (by decide : _ = 65)
  have htotal : totalWidth [plainEntry .input 60]
      (List.replicate 60 (plainEntry .output 1) ++ List.replicate 5 (plainEntry .data 0)) = 64 := by
    have hcounts : ([plainEntry .input 60].filter positiveAmount).length = 1 ∧
        ((List.replicate 60 (plainEntry .output 1) ++ List.replicate 5 (plainEntry .data 0)).filter
          positiveAmount).length = 60 := by decide
    rw [totalWidth, hcounts.1, hcounts.2]
    norm_num
  rw [hin, hout, htotal] at hagree
  norm_num at hagree

end GuiQml.Flow
