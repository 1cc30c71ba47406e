import GuiQml.Recipients.Amounts

/-!
# What runs of the list keep

The current row, the unit and the total, and what the views are told, over any order of the operations. Only
an amount that is typed can take the sum out of range.
-/

namespace GuiQml.Recipients

open GuiQml.Amount Rows

namespace SendRecipientsListModel

section List

variable {s t : SendRecipientsListModel} {recipient : Nat}

/-! ## The list -/

theorem Invariant.sublist (h : s.Invariant) {m : RowModel Nat Role} {c : Int}
    (hrows : m.rows.Sublist s.m_recipients.rows) (hcurrent : 0 ≤ c ∧ c < m.rows.length) :
    Invariant { s with
      m_recipients := m
      m_current := c
      m_totalAmount := (m.rows.map fun r => (s.amounts r).m_satoshi).sum } where
  current := hcurrent
  one_unit x hx y hy := h.one_unit x (hrows.mem hx) y (hrows.mem hy)
  total := rfl
  nonneg := h.nonneg
  fits := by
    refine le_trans ?_ h.fits
    refine (hrows.map fun r => (s.amounts r).m_satoshi).sum_le_sum fun n hn => ?_
    obtain ⟨r, -, rfl⟩ := List.mem_map.mp hn
    exact h.nonneg r
  made r hr := h.made r (hrows.mem hr)
  idle := h.idle

theorem Invariant.setCurrentIndex (h : s.Invariant) (row : Int) : (s.setCurrentIndex row).Invariant := by
  unfold SendRecipientsListModel.setCurrentIndex
  split
  · exact h
  split
  · exact h
  next hrow _ =>
    rw [Bool.or_eq_true, not_or, decide_eq_true_iff, decide_eq_true_iff] at hrow
    have hcurrent : 0 ≤ row ∧ row < s.m_recipients.rows.length := by omega
    exact ⟨⟨hcurrent, h.one_unit, h.total⟩, h.nonneg, h.fits, h.made, h.idle⟩

theorem setCurrentIndex_recipients (s : SendRecipientsListModel) (row : Int) :
    (s.setCurrentIndex row).m_recipients = s.m_recipients := by
  unfold SendRecipientsListModel.setCurrentIndex
  split
  · rfl
  split
  · rfl
  · rfl

/-- One step of a run. -/
def Steps (s : SendRecipientsListModel) (e : Event) : Prop :=
  ∃ t, s.step e = .ok t ∧ t.Invariant ∧ Keeps s e t

theorem steps_setCurrentIndex (h : s.Invariant) {e : Event} {row : Int} (he : ∀ other, e ≠ .removeAt other)
    (hstep : s.step e = .ok (s.setCurrentIndex row)) : s.Steps e := by
  refine ⟨_, hstep, h.setCurrentIndex row, ?_, fun other hother => absurd hother (he other)⟩
  rw [setCurrentIndex_recipients]
  exact .refl ..

theorem steps_clear (h : s.Invariant) : s.Steps .clear := by
  have hself : (Function.update s.amounts s.made {}) s.made = {} := Function.update_self ..
  have hsum : s.clear.sum = 0 := by
    show (([s.made] : List Nat).map fun r => (Function.update s.amounts s.made {} r).m_satoshi).sum = 0
    rw [List.map_singleton, hself]
    rfl
  have hconsistent : s.clear.Consistent := by
    refine ⟨⟨le_rfl, Int.one_pos⟩, fun x hx y hy => ?_, hsum.symm⟩
    rw [List.mem_singleton.mp hx, List.mem_singleton.mp hy]
  refine ⟨_, rfl, ⟨hconsistent, nonneg_setAmount h.nonneg le_rfl, ?_, fun r hr => ?_, h.idle⟩,
    (Follows.refl ..).resetRows, fun _ hother => by cases hother⟩
  · rw [hsum]
    decide
  · rw [List.mem_singleton.mp hr]
    exact Nat.lt_succ_self _

theorem clearToFront_eq {front : Nat} {rest : List Nat} (hrows : s.m_recipients.rows = front :: rest) :
    ∃ m : RowModel Nat Role, m.rows = [front] ∧ Follows .rows s.m_recipients m ∧
      s.clearToFront = { s with
        m_recipients := m
        m_current := 0
        m_totalAmount := (m.rows.map fun r => (s.amounts r).m_satoshi).sum } := by
  have htotal (m : RowModel Nat Role) (n : Int) :
      (if s.m_totalAmount ≠ n then { s with m_recipients := m, m_current := 0, m_totalAmount := n }
        else { s with m_recipients := m, m_current := 0 }) =
      { s with m_recipients := m, m_current := 0, m_totalAmount := n } := by
    split
    · rfl
    next heq => rw [← not_not.mp heq]
  unfold SendRecipientsListModel.clearToFront
  dsimp only
  by_cases hlong : 1 < s.m_recipients.rows.length
  · have hone : (s.m_recipients.removeRows 1 s.m_recipients.rows.length).rows = [front] := by
      rw [RowModel.removeRows_rows, List.drop_length, hrows]
      rfl
    refine ⟨_, hone, (Follows.refl ..).removeRows hlong le_rfl, ?_⟩
    rw [if_pos hlong]
    dsimp only
    rw [hone, List.map_singleton, List.sum_singleton]
    exact htotal ..
  · have hrest : rest = [] := by
      rw [hrows, List.length_cons] at hlong
      exact List.length_eq_zero_iff.mp (by omega)
    subst hrest
    refine ⟨s.m_recipients, hrows, .refl .., ?_⟩
    rw [if_neg hlong]
    dsimp only
    rw [hrows, List.map_singleton, List.sum_singleton]
    exact htotal ..

theorem steps_clearToFront (h : s.Invariant) : s.Steps .clearToFront := by
  obtain ⟨hpos, hlt⟩ := h.current
  obtain ⟨front, rest, hrows⟩ : ∃ front rest, s.m_recipients.rows = front :: rest :=
    List.exists_cons_of_ne_nil fun hnil => by
      rw [hnil, List.length_nil] at hlt
      omega
  obtain ⟨m, hm, hannounced, heq⟩ := clearToFront_eq hrows
  refine ⟨_, rfl, ?_, ?_, fun _ hother => by cases hother⟩
  · rw [heq]
    refine h.sublist ?_ ?_
    · rw [hm, hrows]
      exact List.singleton_sublist.mpr (List.mem_cons_self ..)
    · rw [hm]
      exact ⟨le_rfl, Int.one_pos⟩
  · rw [heq]
    exact hannounced

/-- The current row `c` after the row `k` is removed, where `length` rows are left. -/
def movedCurrent (k c length : Nat) : Nat := if k < c ∨ length ≤ c then c - 1 else c

theorem current_removed {rows : List Nat} {k c : Nat} (hk : k < rows.length) (hc : c < rows.length)
    (hmany : 1 < rows.length) :
    movedCurrent k c (rows.length - 1) < rows.length - 1 ∧
      (k ≠ c → (rows.eraseIdx k)[movedCurrent k c (rows.length - 1)]? = rows[c]?) := by
  unfold movedCurrent
  constructor
  · split <;> omega
  · intro hne
    rcases Nat.lt_or_gt_of_ne hne with hlt | hgt
    · rw [if_pos (.inl hlt), List.getElem?_eraseIdx_of_ge (by omega), Nat.sub_add_cancel (by omega)]
    · rw [if_neg (by omega), List.getElem?_eraseIdx_of_lt hgt]

theorem movedCurrent_eq {k c : Nat} {m : RowModel Nat Role} (hc : s.m_current = c) (hleft : 0 < m.rows.length) :
    (if (k : Int) < s.m_current || (m.rows.length : Int) ≤ s.m_current then
        { s with m_recipients := m, m_current := s.m_current - 1 }
      else { s with m_recipients := m }) =
      { s with m_recipients := m, m_current := movedCurrent k c m.rows.length } := by
  unfold movedCurrent
  by_cases hmove : k < c ∨ m.rows.length ≤ c
  · have hback : s.m_current - 1 = ((c - 1 : Nat) : Int) := by omega
    rw [if_pos hmove, hback,
      if_pos (by rw [Bool.or_eq_true, decide_eq_true_iff, decide_eq_true_iff]; omega)]
  · rw [if_neg hmove, ← hc,
      if_neg (by rw [Bool.or_eq_true, decide_eq_true_iff, decide_eq_true_iff]; omega)]

theorem removeAt_spec (h : s.Invariant) (row : Int) : ∃ t, s.removeAt row = .ok t ∧ t.Invariant ∧
    Follows .rows s.m_recipients t.m_recipients ∧
      (row ≠ s.m_current → t.currentRecipient = s.currentRecipient) := by
  unfold SendRecipientsListModel.removeAt
  split
  · exact ⟨s, rfl, h, .refl .., fun _ => rfl⟩
  next hrow =>
    rw [Bool.or_eq_true, Bool.or_eq_true, not_or, not_or, decide_eq_true_iff, decide_eq_true_iff,
      decide_eq_true_iff] at hrow
    obtain ⟨⟨hmany, hrow⟩, hlt⟩ := hrow
    obtain ⟨k, rfl⟩ := Int.eq_ofNat_of_zero_le (not_lt.mp hrow)
    obtain ⟨hpos, hcurrent⟩ := h.current
    obtain ⟨c, hc⟩ := Int.eq_ofNat_of_zero_le hpos
    have hk : k < s.m_recipients.rows.length := by omega
    obtain ⟨hless, hkept⟩ := current_removed (k := k) (c := c) hk (by omega) (by omega)
    have hrows : (s.m_recipients.removeRows k (k + 1)).rows = s.m_recipients.rows.eraseIdx k := by
      rw [RowModel.removeRows_rows, List.eraseIdx_eq_take_drop_succ]
    have hlength : s.m_recipients.rows.length - 1 = (s.m_recipients.removeRows k (k + 1)).rows.length := by
      rw [hrows, List.length_eraseIdx_of_lt hk]
    rw [hlength] at hless hkept
    have hinvariant := h.sublist (m := s.m_recipients.removeRows k (k + 1))
      (by rw [hrows]; exact List.eraseIdx_sublist ..) ⟨Int.natCast_nonneg _, Int.ofNat_lt.mpr hless⟩
    refine ⟨_, ?_, hinvariant, (Follows.refl ..).removeRows (Nat.lt_succ_self k) hk, fun hne => ?_⟩
    · dsimp only [Int.toNat_natCast]
      rw [movedCurrent_eq hc (by omega), updateTotalAmount_eq (by exact h.nonneg)]
      exact if_pos (hinvariant.total ▸ hinvariant.fits)
    · have hnatne : k ≠ c := fun heq => hne (by rw [heq, hc])
      unfold currentRecipient
      rw [if_neg (not_lt.mpr hpos), if_neg (not_lt.mpr (Int.natCast_nonneg _)), hc]
      dsimp only
      rw [hrows] at hkept ⊢
      exact hkept hnatne

theorem Invariant.make (h : s.Invariant) : Invariant { s.setAmount s.made {} with made := s.made + 1 } := by
  have hkept : ∀ r ∈ s.m_recipients.rows, (Function.update s.amounts s.made {}) r = s.amounts r :=
    fun r hr => Function.update_of_ne (Nat.ne_of_lt (h.made r hr)) ..
  have hsum : SendRecipientsListModel.sum { s.setAmount s.made {} with made := s.made + 1 } = s.sum :=
    congrArg List.sum (List.map_congr_left fun r hr => congrArg BitcoinAmount.m_satoshi (hkept r hr))
  refine ⟨⟨h.current, fun x hx y hy => ?_, by rw [hsum]; exact h.total⟩, nonneg_setAmount h.nonneg le_rfl,
    by rw [hsum]; exact h.fits, fun r hr => Nat.lt_succ_of_lt (h.made r hr), h.idle⟩
  show ((Function.update s.amounts s.made {}) x).m_unit = ((Function.update s.amounts s.made {}) y).m_unit
  rw [hkept x hx, hkept y hy]
  exact h.one_unit x hx y hy

theorem Invariant.append (h : s.Invariant) {recipient : Nat} (hmade : recipient < s.made)
    (hsatoshi : (s.amounts recipient).m_satoshi = 0)
    (hunit : ∀ r ∈ s.m_recipients.rows, (s.amounts r).m_unit = (s.amounts recipient).m_unit) :
    Invariant { s with m_recipients := s.m_recipients.insertRows s.m_recipients.rows.length [recipient] } := by
  have hrows : (s.m_recipients.insertRows s.m_recipients.rows.length [recipient]).rows =
      s.m_recipients.rows ++ [recipient] := by
    rw [RowModel.insertRows_rows, List.take_length, List.drop_length, List.append_nil]
  have hsum : SendRecipientsListModel.sum
      { s with m_recipients := s.m_recipients.insertRows s.m_recipients.rows.length [recipient] } = s.sum := by
    unfold SendRecipientsListModel.sum
    dsimp only
    rw [hrows, List.map_append, List.sum_append, List.map_singleton, List.sum_singleton, hsatoshi, Int.add_zero]
  have hsame : ∀ r ∈ s.m_recipients.rows ++ [recipient],
      (s.amounts r).m_unit = (s.amounts recipient).m_unit := by
    intro r hr
    rcases List.mem_append.mp hr with hr | hr
    · exact hunit r hr
    · rw [List.mem_singleton.mp hr]
  refine ⟨⟨⟨h.current.1, ?_⟩, fun x hx y hy => ?_, by rw [hsum]; exact h.total⟩, h.nonneg,
    by rw [hsum]; exact h.fits, fun r hr => ?_, h.idle⟩
  · dsimp only
    rw [hrows, List.length_append, List.length_singleton]
    have hlt := h.current.2
    omega
  · dsimp only at hx hy ⊢
    rw [hrows] at hx hy
    rw [hsame x hx, hsame y hy]
  · dsimp only at hr ⊢
    rw [hrows] at hr
    rcases List.mem_append.mp hr with hr | hr
    · exact h.made r hr
    · rw [List.mem_singleton.mp hr]
      exact hmade

theorem steps_add (h : s.Invariant) : s.Steps .add := by
  obtain ⟨hpos, hlt⟩ := h.current
  obtain ⟨current, hcurrent⟩ : ∃ current, s.m_recipients.rows[s.m_current.toNat]? = some current :=
    ⟨_, List.getElem?_eq_getElem (by omega)⟩
  have hmake := h.make
  have hadd : s.add = (do
      let s' := { s.setAmount s.made {} with made := s.made + 1 }
      let t ← s'.changeAmount s.made ((s'.amounts s.made).setUnit (s'.amounts current).m_unit)
      let m_recipients := t.m_recipients.insertRows s.m_recipients.rows.length [s.made]
      .ok ({ t with m_recipients }.setCurrentIndex s.m_recipients.rows.length)) := by
    unfold SendRecipientsListModel.add
    dsimp only [setAmount]
    rw [hcurrent]
  generalize hmade : { s.setAmount s.made {} with made := s.made + 1 } = m at hmake hadd
  have hrecipients : m.m_recipients = s.m_recipients := by rw [← hmade]; rfl
  have hcount : m.made = s.made + 1 := by rw [← hmade]
  have hamount : m.amounts s.made = {} := by
    rw [← hmade]
    exact Function.update_self ..
  have hafter : ((m.amounts s.made).setUnit (m.amounts current).m_unit).1 =
      { m.amounts s.made with m_unit := (m.amounts current).m_unit } := setUnit_eq ..
  obtain ⟨t, ht, hchanges⟩ := (changeAmount_iff hmake (amends_setUnit (m.amounts s.made)
    (m.amounts current).m_unit) (by rw [hafter, hamount])).1
      (by rw [sum_setAmount m (by rw [hafter])]; exact hmake.fits)
  have hrows : t.m_recipients.rows = s.m_recipients.rows := by rw [hchanges.rows, hrecipients]
  have hunit : ∀ r ∈ t.m_recipients.rows, (t.amounts r).m_unit = (t.amounts s.made).m_unit := by
    intro r hr
    rw [hchanges.rows] at hr
    rw [hchanges.unit, hafter]
    rcases hchanges.units r hr with hsame | hsame
    · rw [hsame]
      exact hmake.one_unit r hr current (by rw [hrecipients]; exact List.mem_of_getElem? hcurrent)
    · rw [hsame, hafter]
  have happended := hchanges.invariant.append (by rw [hchanges.made, hcount]; exact Nat.lt_succ_self _)
    (by rw [hchanges.satoshi, hafter, hamount]) hunit
  rw [hrows] at happended
  have hstep : s.add =
      let m_recipients := t.m_recipients.insertRows s.m_recipients.rows.length [s.made]
      .ok ({ t with m_recipients }.setCurrentIndex s.m_recipients.rows.length) := by
    rw [hadd]
    dsimp only
    rw [ht]
    rfl
  refine ⟨_, hstep, happended.setCurrentIndex _, ?_, fun _ hother => by cases hother⟩
  rw [setCurrentIndex_recipients, ← hrecipients]
  exact hchanges.announced.insertRows (by rw [hrows, hrecipients]) (List.cons_ne_nil _ _)

/-! ## Runs -/

theorem changeAmount_steps (h : s.Invariant) {e : Event} {after : BitcoinAmount × List Signal}
    (he : ∀ row, e ≠ .removeAt row) (hstep : s.step e = s.changeAmount recipient after)
    (hamends : Amends (s.amounts recipient) after) (hnonneg : 0 ≤ after.1.m_satoshi)
    (hfits : (s.setAmount recipient after.1).sum ≤ Int64.largest) : s.Steps e := by
  obtain ⟨t, ht, hchanges⟩ := (changeAmount_iff h hamends hnonneg).1 hfits
  exact ⟨t, hstep.trans ht, hchanges.invariant, hchanges.announced, fun row hrow => absurd hrow (he row)⟩

theorem steps_nothing (h : s.Invariant) {e : Event} (he : ∀ row, e ≠ .removeAt row)
    (hstep : s.step e = .ok s) : s.Steps e :=
  ⟨s, hstep, h, .refl .., fun row hrow => absurd hrow (he row)⟩

theorem steps_of_sumFits (h : s.Invariant) {e : Event} (hfits : s.SumFits e) : s.Steps e := by
  cases e with
  | add => exact steps_add h
  | remove =>
    obtain ⟨t, ht, hinvariant, hannounced, -⟩ := removeAt_spec h s.m_current
    exact ⟨t, ht, hinvariant, hannounced, fun _ hother => by cases hother⟩
  | removeAt row =>
    obtain ⟨t, ht, hinvariant, hannounced, hkept⟩ := removeAt_spec h row
    exact ⟨t, ht, hinvariant, hannounced, fun _ hother => by cases hother; exact hkept⟩
  | next | prev | setCurrentIndex =>
    exact steps_setCurrentIndex h (fun _ hother => by cases hother) rfl
  | clear => exact steps_clear h
  | clearToFront => exact steps_clearToFront h
  | setUnit recipient unit =>
    by_cases hmade : recipient < s.made
    · have hsatoshi : ((s.amounts recipient).setUnit unit).1.m_satoshi = (s.amounts recipient).m_satoshi := by
        rw [setUnit_eq]
      exact changeAmount_steps h (fun _ hother => by cases hother) (if_pos hmade) (amends_setUnit ..)
        (by rw [hsatoshi]; exact h.nonneg recipient) ((sum_setAmount s hsatoshi).le.trans h.fits)
    · exact steps_nothing h (fun _ hother => by cases hother) (if_neg hmade)
  | flipUnit recipient =>
    by_cases hmade : recipient < s.made
    · have hsatoshi : (s.amounts recipient).flipUnit.1.m_satoshi = (s.amounts recipient).m_satoshi := rfl
      exact changeAmount_steps h (fun _ hother => by cases hother) (if_pos hmade) (amends_flipUnit _)
        (by rw [hsatoshi]; exact h.nonneg recipient) ((sum_setAmount s hsatoshi).le.trans h.fits)
    · exact steps_nothing h (fun _ hother => by cases hother) (if_neg hmade)
  | fromDisplay recipient text =>
    by_cases hmade : recipient < s.made
    · have hstep : s.step (.fromDisplay recipient text) =
          (do s.changeAmount recipient (← (s.amounts recipient).fromDisplay text)) := if_pos hmade
      obtain ⟨amount, signals, hread, hfits⟩ := hfits hmade
      obtain ⟨hamends, hnonneg⟩ := fromDisplay_amends hread
      rw [hread] at hstep
      exact changeAmount_steps h (fun _ hother => by cases hother) hstep hamends hnonneg hfits
    · exact steps_nothing h (fun _ hother => by cases hother) (if_neg hmade)

theorem sumFits_of_ok (h : s.Invariant) {e : Event} (ht : s.step e = .ok t) : s.SumFits e := by
  cases e with
  | fromDisplay recipient text =>
    intro hmade
    have hstep : s.step (.fromDisplay recipient text) =
        (do s.changeAmount recipient (← (s.amounts recipient).fromDisplay text)) := if_pos hmade
    rw [hstep] at ht
    cases hread : (s.amounts recipient).fromDisplay text with
    | error fault =>
      rw [hread] at ht
      cases ht
    | ok after =>
      rw [hread] at ht
      obtain ⟨hamends, hnonneg⟩ := fromDisplay_amends hread
      refine ⟨after.1, after.2, rfl, ?_⟩
      by_contra hfits
      have hok : s.changeAmount recipient after = .ok t := ht
      rw [(changeAmount_iff h hamends hnonneg).2 hfits] at hok
      cases hok
  | _ => trivial

theorem holds_iff (h : s.Invariant) (events : List Event) : s.Holds events ↔ s.SumsFit events := by
  induction events generalizing s with
  | nil => exact iff_of_true h.toConsistent trivial
  | cons e events ih =>
    constructor
    · rintro ⟨-, t, ht, -, hrest⟩
      have hfits := sumFits_of_ok h ht
      refine ⟨hfits, fun t' ht' => ?_⟩
      obtain ⟨u, hu, hinvariant, -⟩ := steps_of_sumFits h hfits
      obtain rfl : u = t := Except.ok.inj (hu.symm.trans ht)
      obtain rfl : u = t' := Except.ok.inj (hu.symm.trans ht')
      exact (ih hinvariant).mp hrest
    · rintro ⟨hfits, hrest⟩
      obtain ⟨t, ht, hinvariant, hkeeps⟩ := steps_of_sumFits h hfits
      exact ⟨h.toConsistent, t, ht, hkeeps, (ih hinvariant).mpr (hrest t ht)⟩

theorem Holds.runs {events : List Event} (h : s.Holds events) : ∃ t, events.foldlM step s = .ok t := by
  induction events generalizing s with
  | nil => exact ⟨s, rfl⟩
  | cons e events ih =>
    obtain ⟨-, t, ht, -, hrest⟩ := h
    rw [List.foldlM_cons, ht]
    exact ih hrest

theorem invariant_start : Invariant {} where
  current := ⟨le_rfl, Int.one_pos⟩
  one_unit _ _ _ _ := rfl
  total := rfl
  nonneg _ := le_rfl
  fits := by decide
  made r hr := by
    rw [List.mem_singleton.mp hr]
    exact Nat.one_pos
  idle := rfl

/-- A run holds what is asked of the list exactly while the sums fit. -/
theorem recipients_hold_iff (events : List Event) :
    ({} : SendRecipientsListModel).Holds events ↔ ({} : SendRecipientsListModel).SumsFit events :=
  holds_iff invariant_start events

/-- Two recipients, and more bitcoins than a 64-bit amount counts for each. -/
theorem not_holds_two_largest :
    (∃ signals, ({} : BitcoinAmount).fromDisplay "92233720369".toList =
      .ok (⟨Int64.largest, true, .btc⟩, signals)) ∧
    ¬({} : SendRecipientsListModel).Holds
      [.fromDisplay 0 "92233720369".toList, .add, .fromDisplay 1 "92233720369".toList] := by
  have hread : ({} : BitcoinAmount).fromDisplay "92233720369".toList =
      .ok (⟨Int64.largest, true, .btc⟩, [.amountChanged, .displayChanged, .displayWithUnitChanged]) := by
    decide
  refine ⟨⟨_, hread⟩, fun h => ?_⟩
  obtain ⟨t, ht⟩ := h.runs
  have hfails : (List.foldlM step {} [.fromDisplay 0 "92233720369".toList, .add,
      .fromDisplay 1 "92233720369".toList]).toOption.isSome = false := by
    decide +kernel
  rw [ht] at hfails
  cases hfails

end List

end SendRecipientsListModel

end GuiQml.Recipients
