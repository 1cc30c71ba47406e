import GuiQml.Recipients.Model
import Mathlib.Algebra.Order.BigOperators.Group.List

/-!
# The units and the total

A change of a unit reaches every recipient in the list once. The total is summed up in 64 bits, which works
out exactly if the sum is a value of them: no amount is negative.
-/

namespace GuiQml.Recipients

open GuiQml.Amount Decimal Rows

namespace SendRecipientsListModel

/-! ## What an amount's signals do -/

section Amounts

variable {s t u : SendRecipientsListModel} {recipient other : Nat}

/-- Units and notices may differ, and the view has been told. -/
structure UnitsOnly (s t : SendRecipientsListModel) : Prop where
  eq : t = { s with m_recipients := t.m_recipients, amounts := t.amounts }
  rows : t.m_recipients.rows = s.m_recipients.rows
  announced : Follows .rows s.m_recipients t.m_recipients
  satoshi : ∀ other, (t.amounts other).m_satoshi = (s.amounts other).m_satoshi

theorem UnitsOnly.refl (s : SendRecipientsListModel) : UnitsOnly s s := ⟨rfl, rfl, .refl .., fun _ => rfl⟩

theorem UnitsOnly.trans (h : UnitsOnly s t) (h' : UnitsOnly t u) : UnitsOnly s u where
  eq := by rw [h'.eq, h.eq]
  rows := h'.rows.trans h.rows
  announced := h.announced.trans h'.announced
  satoshi other := (h'.satoshi other).trans (h.satoshi other)

theorem UnitsOnly.sum (h : UnitsOnly s t) : t.sum = s.sum := by
  unfold SendRecipientsListModel.sum
  rw [h.rows]
  simp only [h.satoshi]

theorem emitRolesChanged_unitsOnly (s : SendRecipientsListModel) (recipient : Nat) (roles : List Role) :
    UnitsOnly s (s.emitRolesChanged recipient roles) := by
  unfold emitRolesChanged
  split
  · exact .refl s
  next row hrow =>
    have hlt : row < s.m_recipients.rows.length := (List.idxOf?_eq_some_iff.mp hrow).1
    exact ⟨rfl, rfl, (Follows.refl ..).dataChanged le_rfl hlt roles, fun _ => rfl⟩

theorem emitRolesChanged_amounts (s : SendRecipientsListModel) (recipient : Nat) (roles : List Role) :
    (s.emitRolesChanged recipient roles).amounts = s.amounts := by
  unfold emitRolesChanged
  split
  · rfl
  · rfl

theorem setUnit_eq (a : BitcoinAmount) (unit : DisplayUnit) :
    (a.setUnit unit).1 = { a with m_unit := unit } := by
  unfold BitcoinAmount.setUnit
  split
  next h => rw [← h]
  next => rfl

theorem unitChanged_of_syncing (hsyncing : s.m_syncing_units = true) (depth recipient : Nat) :
    unitChanged (depth + 1) s recipient =
      s.emitRolesChanged recipient [.AmountRole, .AmountUnitLabelRole] := by
  have hemit := (emitRolesChanged_unitsOnly s recipient [.AmountRole, .AmountUnitLabelRole]).eq
  rw [unitChanged]
  dsimp only
  rw [if_pos (by rw [hemit]; exact hsyncing)]

theorem syncUnit_spec (hsyncing : s.m_syncing_units = true) (unit : DisplayUnit) (other : Nat) :
    UnitsOnly s (syncUnit (unitChanged 1) unit s other) ∧
      (syncUnit (unitChanged 1) unit s other).amounts =
        Function.update s.amounts other { s.amounts other with m_unit := unit } := by
  have hset : UnitsOnly s (s.setAmount other ((s.amounts other).setUnit unit).1) := by
    refine ⟨rfl, rfl, .refl .., fun r => ?_⟩
    rw [setUnit_eq]
    by_cases hr : r = other
    · subst hr
      simp [setAmount]
    · simp [setAmount, hr]
  have hamounts : (s.setAmount other ((s.amounts other).setUnit unit).1).amounts =
      Function.update s.amounts other { s.amounts other with m_unit := unit } := by
    rw [setUnit_eq]
    rfl
  unfold syncUnit
  dsimp only
  split
  · rw [unitChanged_of_syncing (by exact hsyncing)]
    exact ⟨hset.trans (emitRolesChanged_unitsOnly ..), (emitRolesChanged_amounts ..).trans hamounts⟩
  · exact ⟨hset, hamounts⟩

theorem syncUnits_spec (others : List Nat) (hsyncing : s.m_syncing_units = true) (unit : DisplayUnit) :
    UnitsOnly s (others.foldl (syncUnit (unitChanged 1) unit) s) ∧
      ∀ r, ((others.foldl (syncUnit (unitChanged 1) unit) s).amounts r).m_unit =
        if r ∈ others then unit else (s.amounts r).m_unit := by
  induction others generalizing s with
  | nil => exact ⟨.refl s, fun r => by simp⟩
  | cons other others ih =>
    obtain ⟨hfirst, hamounts⟩ := syncUnit_spec hsyncing unit other
    have hstill : (syncUnit (unitChanged 1) unit s other).m_syncing_units = true := by
      rw [hfirst.eq]
      exact hsyncing
    obtain ⟨hrest, hunits⟩ := ih hstill
    refine ⟨hfirst.trans hrest, fun r => ?_⟩
    rw [List.foldl_cons, hunits r, hamounts]
    by_cases hr : r = other
    · subst hr
      simp
    · simp [hr]

theorem unitChanged_spec (hidle : s.m_syncing_units = false) (recipient : Nat) :
    UnitsOnly s (unitChanged 2 s recipient) ∧
      ∀ r, ((unitChanged 2 s recipient).amounts r).m_unit =
        if r ∈ s.m_recipients.rows then (s.amounts recipient).m_unit else (s.amounts r).m_unit := by
  have hemit := emitRolesChanged_unitsOnly s recipient [.AmountRole, .AmountUnitLabelRole]
  have hamounts := emitRolesChanged_amounts s recipient [.AmountRole, .AmountUnitLabelRole]
  rw [unitChanged]
  generalize s.emitRolesChanged recipient [.AmountRole, .AmountUnitLabelRole] = e at hemit hamounts
  dsimp only
  have hidle' : e.m_syncing_units = false := by
    rw [hemit.eq]
    exact hidle
  rw [if_neg (by simp [hidle'])]
  obtain ⟨hsync, hunits⟩ := syncUnits_spec (s := { e with m_syncing_units := true })
    (e.m_recipients.rows.filter (· ≠ recipient)) rfl (e.amounts recipient).m_unit
  dsimp only at hsync hunits
  refine ⟨hemit.trans ⟨?_, hsync.rows, hsync.announced, hsync.satoshi⟩, fun r => ?_⟩
  · rw [hsync.eq]
    simp [hidle']
  · rw [hunits r, hemit.rows, hamounts]
    by_cases hr : r = recipient
    · subst hr
      simp
    · simp [hr]

/-- The connections come back once, so a greater depth is as good. -/
theorem unitChanged_depth (s : SendRecipientsListModel) (depth recipient : Nat) :
    unitChanged (depth + 2) s recipient = unitChanged 2 s recipient := by
  have hturn (unit : DisplayUnit) {s : SendRecipientsListModel} (hsyncing : s.m_syncing_units = true)
      (other : Nat) :
      syncUnit (unitChanged (depth + 1)) unit s other = syncUnit (unitChanged 1) unit s other := by
    unfold syncUnit
    dsimp only
    rw [unitChanged_of_syncing (by exact hsyncing), unitChanged_of_syncing (by exact hsyncing)]
  have hloop (unit : DisplayUnit) (others : List Nat) : ∀ s : SendRecipientsListModel,
      s.m_syncing_units = true → others.foldl (syncUnit (unitChanged (depth + 1)) unit) s =
        others.foldl (syncUnit (unitChanged 1) unit) s := by
    induction others with
    | nil => exact fun _ _ => rfl
    | cons other others ih =>
      intro s hsyncing
      rw [List.foldl_cons, List.foldl_cons, hturn unit hsyncing]
      refine ih _ ?_
      rw [(syncUnit_spec hsyncing unit other).1.eq]
      exact hsyncing
  rw [unitChanged, unitChanged]
  dsimp only
  split
  · rfl
  · rw [hloop _ _ _ rfl]

end Amounts

/-! ## The total -/

section Total

variable {s t : SendRecipientsListModel} {recipient : Nat} {a : BitcoinAmount}

theorem foldlM_add {amounts : Nat → BitcoinAmount} (hnonneg : ∀ r, 0 ≤ (amounts r).m_satoshi)
    (rows : List Nat) {total : Int} (htotal : 0 ≤ total) (hle : total ≤ Int64.largest) :
    rows.foldlM (fun total r => Int64.add total (amounts r).m_satoshi) total =
      if total + (rows.map fun r => (amounts r).m_satoshi).sum ≤ Int64.largest then
        .ok (total + (rows.map fun r => (amounts r).m_satoshi).sum)
      else .error .signedOverflow := by
  induction rows generalizing total with
  | nil =>
    rw [List.map_nil, List.sum_nil, Int.add_zero, if_pos hle]
    rfl
  | cons r rows ih =>
    have hrest : 0 ≤ (rows.map fun r => (amounts r).m_satoshi).sum :=
      List.sum_nonneg fun n hn => by
        obtain ⟨r, -, rfl⟩ := List.mem_map.mp hn
        exact hnonneg r
    have hnext : 0 ≤ total + (amounts r).m_satoshi := Int.add_nonneg htotal (hnonneg r)
    rw [List.foldlM_cons, List.map_cons, List.sum_cons, ← Int.add_assoc]
    by_cases hfits : total + (amounts r).m_satoshi ≤ Int64.largest
    · rw [Int64.add, Int64.narrow_of_fits ((Int64.fits_of_nonneg hnext).mpr hfits)]
      exact ih hnext hfits
    · rw [Int64.add, Int64.narrow_of_not_fits (mt (Int64.fits_of_nonneg hnext).mp hfits), if_neg (by omega)]
      rfl

theorem updateTotalAmount_eq (hnonneg : ∀ r, 0 ≤ (s.amounts r).m_satoshi) :
    s.updateTotalAmount = if s.sum ≤ Int64.largest then .ok { s with m_totalAmount := s.sum }
      else .error .signedOverflow := by
  unfold updateTotalAmount
  rw [foldlM_add hnonneg s.m_recipients.rows le_rfl (by decide), Int.zero_add]
  change (if s.sum ≤ Int64.largest then .ok s.sum else .error .signedOverflow :
    Except Int64.Fault Int) >>= _ = _
  split
  · change (if s.m_totalAmount = s.sum then _ else _) = _
    split
    next htotal => rw [← htotal]
    next => rfl
  · rfl

/-- What every run keeps. -/
structure Invariant (s : SendRecipientsListModel) : Prop extends s.Consistent where
  nonneg : ∀ r, 0 ≤ (s.amounts r).m_satoshi
  fits : s.sum ≤ Int64.largest
  made : ∀ r ∈ s.m_recipients.rows, r < s.made
  idle : s.m_syncing_units = false

/-- What a change makes of an amount, with the signals of it. -/
inductive Amends (before : BitcoinAmount) : BitcoinAmount × List Signal → Prop
  | same : Amends before (before, [])
  | unit (a : BitcoinAmount) (hsatoshi : a.m_satoshi = before.m_satoshi) :
      Amends before (a, [.unitChanged, .displayChanged, .displayWithUnitChanged])
  | amount (a : BitcoinAmount) (label_changes : Bool) (hunit : a.m_unit = before.m_unit) :
      Amends before (a, BitcoinAmount.changes label_changes)

theorem amends_setSatoshi (a : BitcoinAmount) (n : Int) : Amends a (a.setSatoshi n) := by
  unfold BitcoinAmount.setSatoshi
  split
  · exact .amount _ _ rfl
  · exact .same

theorem amends_clear (a : BitcoinAmount) : Amends a a.clear := by
  unfold BitcoinAmount.clear
  split
  · exact .same
  · exact .amount _ _ rfl

theorem amends_setUnit (a : BitcoinAmount) (unit : DisplayUnit) : Amends a (a.setUnit unit) := by
  unfold BitcoinAmount.setUnit
  split
  · exact .same
  · exact .unit _ rfl

theorem amends_flipUnit (a : BitcoinAmount) : Amends a a.flipUnit := .unit _ rfl

theorem newSat_nonneg {a : BitcoinAmount} {text : Str} {n : Int} (h : a.newSat text = .ok n) : 0 ≤ n := by
  have hscaled (unit : DisplayUnit)
      (h : scaled (unitFactor unit) (read (wholeDigits text)) (readFraction unit text) = .ok n) : 0 ≤ n := by
    have hproduct : 0 ≤ read (wholeDigits text) * unitFactor unit :=
      Int.mul_nonneg (read_nonneg _) (by cases unit <;> decide)
    unfold scaled at h
    split at h
    · rw [← Except.ok.inj h]
      decide
    · have hfraction : 0 ≤ readFraction unit text := read_nonneg _
      rw [Int64.mul_add_of_nonneg hproduct hfraction, Int64.narrow_eq_ok] at h
      rw [← h.2]
      exact Int.add_nonneg hproduct hfraction
  unfold BitcoinAmount.newSat at h
  split at h
  · have hdigits : Digits (text.filter Char.isDigit) := fun c hc => (List.mem_filter.mp hc).2
    rw [← Except.ok.inj h, toLongLong_read hdigits]
    split
    · exact le_rfl
    · exact read_nonneg _
  · rw [displayToSats_sanitize] at h
    exact hscaled _ h

theorem fromDisplay_amends {a after : BitcoinAmount} {text : Str} {signals : List Signal}
    (h : a.fromDisplay text = .ok (after, signals)) : Amends a (after, signals) ∧ 0 ≤ after.m_satoshi := by
  unfold BitcoinAmount.fromDisplay at h
  split at h
  · have hclear : a.clear = (after, signals) := Except.ok.inj h
    have hzero := a.clear_satoshi
    rw [hclear] at hzero
    exact ⟨hclear ▸ amends_clear a, by rw [hzero]⟩
  · cases hnew : a.newSat text with
    | error fault =>
      rw [hnew] at h
      cases h
    | ok n =>
      rw [hnew] at h
      have hset : a.setSatoshi n = (after, signals) := Except.ok.inj h
      have hn := a.setSatoshi_satoshi n
      rw [hset] at hn
      exact ⟨hset ▸ amends_setSatoshi a n, by rw [hn]; exact newSat_nonneg hnew⟩

/-! ## Steps -/

theorem Invariant.unitsOnly (h : s.Invariant) (hst : UnitsOnly s t)
    (hunit : ∀ a ∈ t.m_recipients.rows, ∀ b ∈ t.m_recipients.rows,
      (t.amounts a).m_unit = (t.amounts b).m_unit) : t.Invariant where
  current := by
    rw [hst.eq, hst.rows]
    exact h.current
  one_unit := hunit
  total := by
    rw [hst.sum, ← h.total, hst.eq]
  nonneg r := by
    rw [hst.satoshi]
    exact h.nonneg r
  fits := by
    rw [hst.sum]
    exact h.fits
  made := by
    rw [hst.rows, hst.eq]
    exact h.made
  idle := by
    rw [hst.eq]
    exact h.idle

/-- What a change of an amount that keeps the sum in range leaves. -/
structure Changes (s : SendRecipientsListModel) (recipient : Nat) (a : BitcoinAmount)
    (t : SendRecipientsListModel) : Prop where
  invariant : t.Invariant
  announced : Follows .rows s.m_recipients t.m_recipients
  rows : t.m_recipients.rows = s.m_recipients.rows
  current : t.m_current = s.m_current
  made : t.made = s.made
  satoshi : (t.amounts recipient).m_satoshi = a.m_satoshi
  unit : (t.amounts recipient).m_unit = a.m_unit
  units : ∀ r ∈ s.m_recipients.rows, (t.amounts r).m_unit = (s.amounts r).m_unit ∨
    (t.amounts r).m_unit = a.m_unit

theorem satoshi_setAmount (s : SendRecipientsListModel) (ha : a.m_satoshi = (s.amounts recipient).m_satoshi) :
    ∀ r, ((s.setAmount recipient a).amounts r).m_satoshi = (s.amounts r).m_satoshi :=
  (Function.forall_update_iff s.amounts fun r b => b.m_satoshi = (s.amounts r).m_satoshi).mpr
    ⟨ha, fun _ _ => rfl⟩

theorem unit_setAmount (s : SendRecipientsListModel) (ha : a.m_unit = (s.amounts recipient).m_unit) :
    ∀ r, ((s.setAmount recipient a).amounts r).m_unit = (s.amounts r).m_unit :=
  (Function.forall_update_iff s.amounts fun r b => b.m_unit = (s.amounts r).m_unit).mpr
    ⟨ha, fun _ _ => rfl⟩

theorem nonneg_setAmount (h : ∀ r, 0 ≤ (s.amounts r).m_satoshi) (ha : 0 ≤ a.m_satoshi) :
    ∀ r, 0 ≤ ((s.setAmount recipient a).amounts r).m_satoshi :=
  (Function.forall_update_iff s.amounts fun _ b => 0 ≤ b.m_satoshi).mpr ⟨ha, fun r _ => h r⟩

theorem sum_setAmount (s : SendRecipientsListModel) (ha : a.m_satoshi = (s.amounts recipient).m_satoshi) :
    (s.setAmount recipient a).sum = s.sum :=
  congrArg List.sum (List.map_congr_left fun r _ => satoshi_setAmount s ha r)

theorem changeAmount_unit (h : s.Invariant) (hsatoshi : a.m_satoshi = (s.amounts recipient).m_satoshi) :
    ∃ t, s.changeAmount recipient (a, [.unitChanged, .displayChanged, .displayWithUnitChanged]) = .ok t ∧
      s.Changes recipient a t := by
  have hset : UnitsOnly s (s.setAmount recipient a) :=
    ⟨rfl, rfl, .refl .., satoshi_setAmount s hsatoshi⟩
  obtain ⟨hsync, hunits⟩ := unitChanged_spec (s := s.setAmount recipient a) h.idle recipient
  have hself : (s.setAmount recipient a).amounts recipient = a := Function.update_self ..
  have hall := hset.trans hsync
  rw [hself] at hunits
  refine ⟨_, rfl, h.unitsOnly hall ?_, hall.announced, hall.rows, by rw [hall.eq], by rw [hall.eq],
    (hsync.satoshi recipient).trans (by rw [hself]), ?_, ?_⟩
  · intro x hx y hy
    rw [hall.rows] at hx hy
    rw [hunits x, hunits y, if_pos (by exact hx), if_pos (by exact hy)]
  · rw [hunits recipient, hself]
    split
    · rfl
    · rfl
  · intro r hr
    rw [hunits r, if_pos (by exact hr)]
    exact .inr rfl

theorem signals_amount (s : SendRecipientsListModel) (recipient : Nat) :
    [Signal.amountChanged, .displayChanged, .displayWithUnitChanged].foldlM (signal recipient) s =
      (s.emitRolesChanged recipient [.AmountRole]).updateTotalAmount :=
  @bind_pure (Except Int64.Fault) _ _ _ _

theorem changeAmount_amount_eq (h : s.Invariant) (hunit : a.m_unit = (s.amounts recipient).m_unit)
    (label_changes : Bool) : ∃ u, UnitsOnly (s.setAmount recipient a) u ∧
      (∀ r, (u.amounts r).m_unit = (s.amounts r).m_unit ∨
        r ∈ s.m_recipients.rows ∧ (u.amounts r).m_unit = a.m_unit) ∧
      (∀ x ∈ s.m_recipients.rows, ∀ y ∈ s.m_recipients.rows,
        (u.amounts x).m_unit = (u.amounts y).m_unit) ∧
      s.changeAmount recipient (a, BitcoinAmount.changes label_changes) = u.updateTotalAmount := by
  have hself : (s.setAmount recipient a).amounts recipient = a := Function.update_self ..
  have hset := unit_setAmount s hunit
  cases label_changes with
  | false =>
    refine ⟨(s.setAmount recipient a).emitRolesChanged recipient [.AmountRole],
      emitRolesChanged_unitsOnly .., ?_, ?_, ?_⟩
    · rw [emitRolesChanged_amounts]
      exact fun r => .inl (hset r)
    · rw [emitRolesChanged_amounts]
      intro x hx y hy
      rw [hset, hset]
      exact h.one_unit x hx y hy
    · exact signals_amount _ recipient
  | true =>
    obtain ⟨hsync, hunits⟩ := unitChanged_spec (s := s.setAmount recipient a) h.idle recipient
    rw [hself] at hunits
    refine ⟨(unitChanged 2 (s.setAmount recipient a) recipient).emitRolesChanged recipient [.AmountRole],
      hsync.trans (emitRolesChanged_unitsOnly ..), ?_, ?_, ?_⟩
    · rw [emitRolesChanged_amounts]
      intro r
      rw [hunits r]
      split
      next hr => exact .inr ⟨hr, rfl⟩
      next => exact .inl (hset r)
    · rw [emitRolesChanged_amounts]
      intro x hx y hy
      rw [hunits x, hunits y, if_pos (by exact hx), if_pos (by exact hy)]
    · exact signals_amount _ recipient

theorem changeAmount_iff (h : s.Invariant) {after : BitcoinAmount × List Signal}
    (hamends : Amends (s.amounts recipient) after) (hnonneg : 0 ≤ after.1.m_satoshi) :
    ((s.setAmount recipient after.1).sum ≤ Int64.largest →
        ∃ t, s.changeAmount recipient after = .ok t ∧ s.Changes recipient after.1 t) ∧
      (¬(s.setAmount recipient after.1).sum ≤ Int64.largest →
        s.changeAmount recipient after = .error .signedOverflow) := by
  cases hamends with
  | same =>
    refine ⟨fun _ => ⟨s, ?_, h, .refl .., rfl, rfl, rfl, rfl, rfl, fun _ _ => .inl rfl⟩,
      fun hfits => ?_⟩
    · rw [changeAmount, setAmount, Function.update_eq_self]
      rfl
    · exact absurd h.fits (by rwa [sum_setAmount s rfl] at hfits)
  | unit a hsatoshi =>
    exact ⟨fun _ => changeAmount_unit h hsatoshi,
      fun hfits => absurd h.fits (by rwa [sum_setAmount s hsatoshi] at hfits)⟩
  | amount a label_changes hunit =>
    obtain ⟨u, hu, hunits, hone, heq⟩ := changeAmount_amount_eq h hunit label_changes
    have hself : (s.setAmount recipient a).amounts recipient = a := Function.update_self ..
    have hunonneg (r : Nat) : 0 ≤ (u.amounts r).m_satoshi := by
      rw [hu.satoshi]
      exact nonneg_setAmount h.nonneg hnonneg r
    rw [heq, updateTotalAmount_eq hunonneg, hu.sum]
    refine ⟨fun hfits => ⟨{ u with m_totalAmount := (s.setAmount recipient a).sum }, if_pos hfits, ?_⟩,
      fun hfits => if_neg hfits⟩
    refine ⟨⟨⟨?_, ?_, hu.sum.symm⟩, hunonneg, by exact hu.sum.le.trans hfits, ?_, ?_⟩, hu.announced,
      hu.rows, by rw [hu.eq]; rfl, by rw [hu.eq]; rfl, (hu.satoshi recipient).trans (by rw [hself]), ?_, ?_⟩
    · rw [hu.eq]
      dsimp only
      rw [hu.rows]
      exact h.current
    · dsimp only
      rw [hu.rows]
      exact hone
    · rw [hu.eq]
      dsimp only
      rw [hu.rows]
      exact h.made
    · rw [hu.eq]
      exact h.idle
    · rcases hunits recipient with hsame | ⟨-, hsame⟩
      · exact hsame.trans hunit.symm
      · exact hsame
    · exact fun r _ => (hunits r).imp id And.right

end Total

end SendRecipientsListModel

end GuiQml.Recipients
