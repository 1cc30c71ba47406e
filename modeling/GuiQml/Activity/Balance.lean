import GuiQml.Activity.Listed
import GuiQml.Wallet.SendAll

/-!
# The balance that is pending

The proxy keeps the sum of what is pending until a notice says that it may be another, and the page reads it when it
is told to. The counts and the range of amounts follow the rows in the same way.
-/

namespace GuiQml.ActivityList

open Activity.Rows (IsPendingRequestRole Row)
open GuiQml.Rows
open Rebuild
open Wallet (CAmount MAX_MONEY)

variable {Date : Type} {qt : Qt Date} {m : Proxy Date} {rows rows' : List (Row Variant)}
  {notices : List (Notice (Row Variant) Int)} {n : Notice (Row Variant) Int} {r : Relay}

/-! ## What the numbers are read from -/

/-- `pendingAmount` of the data that are shown. -/
def pendingOf (shown : Int → Variant) : CAmount :=
  if variants.toBool (shown IsPendingRole) && !variants.toBool (shown IsPendingRequestRole)
  then toLongLong (shown NetAmountSatRole) else 0

def rangeOf (shown : Int → Variant) : CAmount :=
  if variants.toBool (shown IsPendingRequestRole) then 0 else ((toLongLong (shown NetAmountSatRole)).natAbs : Int)

theorem pendingTotal_eq (rows : List (Row Variant)) :
    pendingTotal rows = ((rows.map variants.data).map pendingOf).sum := by
  rw [List.map_map]
  rfl

theorem availableMax_eq (rows : List (Row Variant)) :
    availableMax rows = ((rows.map variants.data).map rangeOf).foldl max 0 := by
  rw [List.map_map]
  rfl

theorem quiet_of_roles {γ : Type} {f : (Int → Variant) → γ} {roles : List Int} {first last : Nat}
    (hevent : n.event = .changed first last roles) (hsome : roles ≠ [])
    (hf : ∀ shown shown', (∀ role ∉ roles, shown role = shown' role) → f shown = f shown') :
    (View.ofData variants.data).Quiet f n := by
  refine ⟨first, last, roles, hevent, fun row shown => hf _ _ fun role hrole => ?_⟩
  simp [View.ofData, hsome, hrole]

theorem quiet_pending (h : changesBalance n.event = false) : (View.ofData variants.data).Quiet pendingOf n := by
  unfold changesBalance at h
  split at h
  · rename_i first last roles hevent
    simp only [Bool.or_eq_false_iff] at h
    refine quiet_of_roles hevent (not_changed h.2).1 fun shown shown' hsame => ?_
    unfold pendingOf
    rw [hsame _ (not_changed h.1.1).2, hsame _ (not_changed h.1.2).2, hsame _ (not_changed h.2).2]
  · simp at h

theorem quiet_range (h : changesRange n.event = false) : (View.ofData variants.data).Quiet rangeOf n := by
  unfold changesRange at h
  split at h
  · rename_i first last roles hevent
    simp only [Bool.or_eq_false_iff] at h
    refine quiet_of_roles hevent (not_changed h.2).1 fun shown shown' hsame => ?_
    unfold rangeOf
    rw [hsame _ (not_changed h.1).2, hsame _ (not_changed h.2).2]
  · simp at h

/-- What the notices tell of leads to the same sum, where none of them is about the balance. -/
theorem pendingTotal_of_quiet
    (htold : (View.ofData variants.data).replay (rows.map variants.data) notices = rows'.map variants.data)
    (hquiet : ∀ n ∈ notices, changesBalance n.event = false) : pendingTotal rows' = pendingTotal rows := by
  rw [pendingTotal_eq, pendingTotal_eq, ← htold, View.map_replay_of_quiet fun n hn => quiet_pending (hquiet n hn)]

/-! ## What is kept and what is shown -/

/-- The kept balance is right, and the page shows it. -/
structure Fresh (m : Proxy Date) : Prop where
  kept : ∀ total ∈ m.m_pending_balance, total = pendingTotal m.rows
  shown : m.shown_balance = (pendingTotal m.rows, m.m_display_unit)

theorem pendingBalanceSat_fst (h : ∀ total ∈ m.m_pending_balance, total = pendingTotal m.rows) :
    m.pendingBalanceSat.1 = pendingTotal m.rows := by
  unfold Proxy.pendingBalanceSat
  split
  · rename_i total htotal
    exact h total htotal
  · rfl

theorem pendingBalanceSat_kept (h : ∀ total ∈ m.m_pending_balance, total = pendingTotal m.rows) :
    ∀ total ∈ m.pendingBalanceSat.2.m_pending_balance, total = pendingTotal m.rows := by
  unfold Proxy.pendingBalanceSat
  split
  · exact h
  · simp

theorem fresh_pendingBalanceChanged (h : ∀ total ∈ m.m_pending_balance, total = pendingTotal m.rows) :
    Fresh m.pendingBalanceChanged := by
  have hreads := @Proxy.reads_pendingBalanceChanged Date m
  constructor
  · rw [hreads.rows]
    exact pendingBalanceSat_kept h
  · rw [hreads.rows, hreads.same.unit]
    unfold Proxy.pendingBalanceChanged
    rw [pendingBalanceSat_fst h]

theorem fresh_invalidatePendingBalance : Fresh m.invalidatePendingBalance :=
  @fresh_pendingBalanceChanged Date { m with m_pending_balance := none } (by simp)

theorem fresh_countChanged : Fresh m.countChanged := fresh_invalidatePendingBalance

/-! ## What a notice does to them -/

theorem fresh_hear (h : changesBalance n.event = true) : Fresh (m.hear qt n) := by
  unfold Proxy.hear
  dsimp only
  split
  · rename_i hevent
    rw [hevent] at h
    rw [hevent, if_pos h]
    exact fresh_invalidatePendingBalance
  · exact fresh_countChanged

theorem hear_quiet (h : changesBalance n.event = false) :
    (m.hear qt n).m_pending_balance = m.m_pending_balance ∧ (m.hear qt n).shown_balance = m.shown_balance := by
  unfold Proxy.hear
  dsimp only
  split
  · rw [if_neg (by simp [h])]
    exact ⟨rfl, rfl⟩
  · rename_i hevent
    unfold changesBalance at h
    split at h
    · rename_i first last roles heq
      exact absurd heq (hevent first last roles)
    · simp at h

theorem Fresh.same {m' : Proxy Date} (h : Fresh m) (hsame : Proxy.Same m m') (hrows : m'.rows = m.rows)
    (hkept : m'.m_pending_balance = m.m_pending_balance) (hshown : m'.shown_balance = m.shown_balance) : Fresh m' where
  kept := by rw [hkept, hrows]; exact h.kept
  shown := by rw [hshown, hrows, hsame.unit]; exact h.shown

theorem after_of_quiet (hlawful : n.Lawful) (h : changesBalance n.event = false) : n.after = n.before := by
  unfold changesBalance at h
  split at h
  · rename_i first last roles hevent
    exact hlawful first last roles hevent
  · simp at h

theorem rows_of_quiet (hchain : Chain rows notices rows') (hquiet : ∀ n ∈ notices, changesBalance n.event = false) :
    rows' = rows := by
  induction notices generalizing rows with
  | nil => exact hchain
  | cons n notices ih =>
    obtain ⟨hbefore, hlawful, hrest⟩ := hchain
    rw [ih hrest fun n' hn' => hquiet n' (List.mem_cons_of_mem n hn'),
      after_of_quiet hlawful (hquiet n List.mem_cons_self), hbefore]

/-- After the notices the balance is fresh, unless none of them was about it. -/
theorem fresh_foldl (hchain : Chain m.rows notices rows') :
    Fresh (notices.foldl (·.hear qt) m) ∨ (∀ n ∈ notices, changesBalance n.event = false) ∧
      (notices.foldl (·.hear qt) m).m_pending_balance = m.m_pending_balance ∧
      (notices.foldl (·.hear qt) m).shown_balance = m.shown_balance := by
  induction notices generalizing m with
  | nil => exact .inr ⟨by simp, rfl, rfl⟩
  | cons n notices ih =>
    obtain ⟨-, -, hrest⟩ := hchain
    have hrest' : Chain (m.hear qt n).rows notices rows' := by
      rw [Proxy.hear_reads.rows]
      exact hrest
    rcases ih hrest' with hfresh | ⟨hquiet, hkept, hshown⟩
    · exact .inl hfresh
    · cases hn : changesBalance n.event with
      | true =>
        -- the last notice about the balance, so that it stays fresh
        refine .inl ((fresh_hear hn).same (Proxy.foldl_hear_same notices) ?_ hkept hshown)
        rw [List.foldl_cons, Proxy.foldl_hear_rows hrest', rows_of_quiet hrest' hquiet]
      | false =>
        obtain ⟨hkept', hshown'⟩ := @hear_quiet Date qt m n hn
        refine .inr ⟨fun n' hn' => ?_, hkept.trans hkept', hshown.trans hshown'⟩
        rcases List.mem_cons.1 hn' with rfl | hn'
        · exact hn
        · exact hquiet n' hn'

theorem fresh_relay {roles : Option (List Int)} (h : Fresh m) (hrelays : Relays m.rows roles r rows') :
    Fresh (m.relay qt r) := by
  have hrows : (m.relay qt r).rows = rows' := Proxy.relay_rows hrelays.chain
  have hfold := @fresh_foldl Date qt { m with rows := r.rows } rows' r.notices hrelays.chain
  rcases hfold with hfresh | ⟨hquiet, hkept, hshown⟩
  · exact hfresh
  · -- Qt told of nothing that the sum is made of
    have htotal : pendingTotal (m.relay qt r).rows = pendingTotal m.rows := by
      rw [hrows]
      exact pendingTotal_of_quiet hrelays.told hquiet
    have hkept' : (m.relay qt r).m_pending_balance = m.m_pending_balance := hkept
    have hshown' : (m.relay qt r).shown_balance = m.shown_balance := hshown
    constructor
    · rw [hkept', htotal]
      exact h.kept
    · rw [hshown', htotal, Proxy.relay_same.unit]
      exact h.shown

theorem quiet_sections {first last : Nat} : changesBalance (.changed first last sectionRoles) = false := by
  dsimp only [changesBalance]
  decide

theorem fresh_sectionsChanged (h : Fresh m) : Fresh (m.sectionsChanged qt) := by
  unfold Proxy.sectionsChanged
  split
  · exact h
  · obtain ⟨hkept, hshown⟩ := @hear_quiet Date qt m ⟨.changed 0 (m.rows.length - 1) sectionRoles, m.rows, m.rows⟩
      quiet_sections
    exact h.same Proxy.hear_same Proxy.hear_reads.rows hkept hshown

/-! ## The counts -/

def Counted (m : Proxy Date) : Prop := m.shown_counts = (m.rows.length, requestCount m.rows)

theorem requestCount_of_ids (hids : rows'.map variants.id = rows.map variants.id) (hrows : ∀ row ∈ rows, IsRow row)
    (hrows' : ∀ row ∈ rows', IsRow row) : requestCount rows' = requestCount rows := by
  induction rows generalizing rows' with
  | nil => rw [List.map_nil, List.map_eq_nil_iff] at hids; rw [hids]
  | cons row rows ih =>
    obtain ⟨row', rows', rfl, hid, hids⟩ := List.map_eq_cons_iff.1 hids
    simp only [List.mem_cons, forall_eq_or_imp] at hrows hrows'
    have hsame : request row' = request row := by
      rw [Bool.eq_iff_iff]
      exact hrows'.1.trans (hid ▸ hrows.1.symm)
    have hrest := ih hids hrows.2 hrows'.2
    unfold requestCount at hrest ⊢
    rw [List.countP_cons, List.countP_cons, hrest, hsame]

theorem shown_counts_invalidate : m.invalidatePendingBalance.shown_counts = m.shown_counts := by
  unfold Proxy.invalidatePendingBalance Proxy.pendingBalanceChanged Proxy.pendingBalanceSat
  rfl

theorem counted_countChanged : Counted m.countChanged := by
  unfold Counted
  rw [Proxy.reads_countChanged.rows]
  unfold Proxy.countChanged
  rw [shown_counts_invalidate]

theorem counted_hear (h : Counted m) (hbefore : n.before = m.rows) (hlawful : n.Lawful) : Counted (m.hear qt n) := by
  unfold Counted
  rw [Proxy.hear_reads.rows]
  unfold Proxy.hear
  dsimp only
  split
  · rename_i first last roles hevent
    rw [hlawful first last roles hevent, hbefore]
    split
    · rw [shown_counts_invalidate]
      exact h
    · exact h
  · unfold Proxy.countChanged
    rw [shown_counts_invalidate]

theorem counted_foldl (h : Counted m) (hchain : Chain m.rows notices rows') :
    Counted (notices.foldl (·.hear qt) m) := by
  induction notices generalizing m with
  | nil => exact h
  | cons n notices ih =>
    obtain ⟨hbefore, hlawful, hrest⟩ := hchain
    apply ih (counted_hear h hbefore hlawful)
    rw [Proxy.hear_reads.rows]
    exact hrest

theorem counted_relay {roles : Option (List Int)} (h : Counted m) (hknown : ∀ row ∈ m.rows, IsRow row)
    (hrelays : Relays m.rows roles r rows') : Counted (m.relay qt r) := by
  have hstart : Counted { m with rows := r.rows } := by
    unfold Counted at h ⊢
    rw [h, requestCount_of_ids hrelays.ids hknown hrelays.known]
    simpa using (congrArg List.length hrelays.ids).symm
  exact counted_foldl hstart hrelays.chain

theorem counted_sectionsChanged (h : Counted m) : Counted (m.sectionsChanged qt) := by
  unfold Proxy.sectionsChanged
  split
  · exact h
  · exact counted_hear h rfl fun _ _ _ _ => rfl

/-! ## What every event keeps -/

structure Told (m : Proxy Date) : Prop where
  fresh : Fresh m
  counted : Counted m
  ranged : m.m_available_max_amount = availableMax m.source

theorem told_start (today : Date) : Told (Proxy.start today) := ⟨⟨by simp [Proxy.start], rfl⟩, rfl, rfl⟩

theorem told_relay {roles : Option (List Int)} (h : Told m) (hknown : ∀ row ∈ m.rows, IsRow row)
    (hrelays : Relays m.rows roles r rows') : Told (m.relay qt r) where
  fresh := fresh_relay h.fresh hrelays
  counted := counted_relay h.counted hknown hrelays
  ranged := by rw [Proxy.relay_same.available, Proxy.relay_same.source]; exact h.ranged

theorem told_sectionsChanged (h : Told m) : Told (m.sectionsChanged qt) where
  fresh := fresh_sectionsChanged h.fresh
  counted := counted_sectionsChanged h.counted
  ranged := by rw [sectionsChanged_same.available, sectionsChanged_same.source]; exact h.ranged

theorem told_countChanged (h : m.m_available_max_amount = availableMax m.source) : Told m.countChanged where
  fresh := fresh_countChanged
  counted := counted_countChanged
  ranged := by
    have hsame := (@Proxy.reads_countChanged Date m).same
    rw [hsame.available, hsame.source]
    exact h

theorem Kept.known (h : Kept qt m) : ∀ row ∈ m.rows, IsRow row := fun row hrow =>
  h.passed.sourced.known row (h.passed.mem row hrow)

theorem told_sourceTold [DecidableEq Date] {proxied sorted : Relay} (h : Told m) (hkept : Kept qt m)
    (ha : Allowed qt m (.sourceTold n proxied sorted)) : Told (m.sourceTold qt n proxied sorted) := by
  obtain ⟨htells, rows', hrelays, hrest⟩ := ha
  have hsame := @Proxy.relay_same Date qt { m with source := n.after } proxied
  have hrows : ({ m with source := n.after }.relay qt proxied).rows = rows' := Proxy.relay_rows hrelays.chain
  have hfresh : Fresh ({ m with source := n.after }.relay qt proxied) :=
    @fresh_relay Date qt { m with source := n.after } rows' proxied _ ⟨h.fresh.kept, h.fresh.shown⟩ hrelays
  have hcounted : Counted ({ m with source := n.after }.relay qt proxied) :=
    @counted_relay Date qt { m with source := n.after } rows' proxied _ h.counted hkept.known hrelays
  -- the range is of the rows behind the notice, whether or not it is read again
  have hranged : (if changesRange n.event then availableMax n.after else m.m_available_max_amount) =
      availableMax n.after := by
    split
    · rfl
    · rename_i hquiet
      rw [h.ranged, availableMax_eq, availableMax_eq, ← htells.told,
        View.map_apply_of_quiet (quiet_range (by simpa using hquiet))]
  have htold : Told (if changesRange n.event
      then ({ m with source := n.after }.relay qt proxied).updateAvailableMaxAmount
      else { m with source := n.after }.relay qt proxied) := by
    rw [ranged_eq]
    refine ⟨⟨hfresh.kept, hfresh.shown⟩, hcounted, ?_⟩
    dsimp only
    rw [hsame.source, hsame.available]
    exact hranged
  have hrows' : (if changesRange n.event
      then ({ m with source := n.after }.relay qt proxied).updateAvailableMaxAmount
      else { m with source := n.after }.relay qt proxied).rows = rows' := by
    rw [ranged_eq]
    exact hrows
  unfold Proxy.sourceTold
  dsimp only
  split
  · rename_i hsections
    rw [if_pos hsections] at hrest
    obtain ⟨hsorted, rows'', hrelays', -⟩ := hrest
    rw [← hrows'] at hrelays'
    refine told_sectionsChanged (told_relay ⟨⟨htold.fresh.kept, htold.fresh.shown⟩, htold.counted, htold.ranged⟩ ?_
      hrelays')
    rw [hrows', ← hsorted]
    exact hrelays'.known
  · exact htold

theorem told_setTo [DecidableEq Date] (h : Told m) {filters : Option (Filters Date)} :
    Told (m.setTo qt filters r) := by
  unfold Proxy.setTo
  rcases filters with _ | f
  · exact h
  simp only [Option.elim_some]
  unfold Proxy.setFilters
  split
  · exact h
  · apply told_countChanged
    rw [Proxy.relay_same.available, Proxy.relay_same.source]
    exact h.ranged

theorem told_pendingBalanceSat (h : Told m) : Told m.pendingBalanceSat.2 := by
  refine ⟨⟨?_, ?_⟩, ?_, ?_⟩
  · rw [Proxy.reads_pendingBalanceSat.rows]
    exact pendingBalanceSat_kept h.fresh.kept
  · unfold Proxy.pendingBalanceSat
    split <;> exact h.fresh.shown
  · unfold Proxy.pendingBalanceSat
    split <;> exact h.counted
  · unfold Proxy.pendingBalanceSat
    split <;> exact h.ranged

theorem told_pendingBalanceChanged (h : m.m_available_max_amount = availableMax m.source)
    (hkept : ∀ total ∈ m.m_pending_balance, total = pendingTotal m.rows) (hcounted : Counted m) :
    Told m.pendingBalanceChanged := by
  have hreads := @Proxy.reads_pendingBalanceChanged Date m
  refine ⟨fresh_pendingBalanceChanged hkept, ?_, ?_⟩
  · unfold Counted at hcounted ⊢
    rw [hreads.rows, ← hcounted]
    unfold Proxy.pendingBalanceChanged Proxy.pendingBalanceSat
    split <;> rfl
  · rw [hreads.same.available, hreads.same.source]
    exact h

theorem told_step [DecidableEq Date] (m : Proxy Date) (e : Event Date) (hkept : Kept qt m) (h : Told m)
    (ha : Allowed qt m e) : Told (m.step qt e) := by
  cases e with
  | dayPasses today => exact ⟨⟨h.fresh.kept, h.fresh.shown⟩, h.counted, h.ranged⟩
  | sourceTold n proxied sorted => exact told_sourceTold h hkept ha
  | setSourceModel source_model r => exact told_countChanged rfl
  | setSearchText | setDateFilter | setTypeFilters | setAmountRange | applyCustomRange => exact told_setTo h
  | setDisplayUnit display_unit =>
    unfold Proxy.step Proxy.setDisplayUnit
    dsimp only
    split
    · exact h
    · exact told_pendingBalanceChanged h.ranged h.fresh.kept h.counted
  | setGroupBy group_by =>
    unfold Proxy.step Proxy.setGroupBy
    dsimp only
    split
    · exact h
    · exact told_sectionsChanged ⟨⟨h.fresh.kept, h.fresh.shown⟩, h.counted, h.ranged⟩
  | pendingBalanceSat => exact told_pendingBalanceSat h

/-! ## The numbers of the page -/

theorem le_foldl_max {amounts : List CAmount} {a b : CAmount} (h : b ≤ a ∨ b ∈ amounts) :
    b ≤ amounts.foldl max a := by
  induction amounts generalizing a with
  | nil => simpa using h
  | cons c amounts ih =>
    apply ih
    rcases h with h | h
    · exact .inl (h.trans (le_max_left a c))
    · rcases List.mem_cons.1 h with rfl | h
      · exact .inl (le_max_right a b)
      · exact .inr h

/-- The transactions that are added up. -/
def pendingCount (rows : List (Row Variant)) : Nat := rows.countP fun row => pending row && !request row

theorem abs_pendingTotal (hmoney : ∀ row ∈ rows, |netAmount row| ≤ MAX_MONEY) :
    |pendingTotal rows| ≤ pendingCount rows * MAX_MONEY := by
  induction rows with
  | nil => simp [pendingTotal, pendingCount]
  | cons row rows ih =>
    simp only [List.mem_cons, forall_eq_or_imp] at hmoney
    have hrest := ih hmoney.2
    have hadd : |pendingTotal (row :: rows)| ≤ |pendingAmount row| + |pendingTotal rows| := by
      simpa [pendingTotal] using abs_add_le (pendingAmount row) (pendingTotal rows)
    have hrow : |pendingAmount row| ≤ pendingCount [row] * MAX_MONEY := by
      by_cases hadded : (pending row && !request row) = true
      · simpa [pendingAmount, pendingCount, hadded] using hmoney.1
      · simp [pendingAmount, pendingCount, hadded]
    have hcount : (pendingCount (row :: rows) : Int) = pendingCount [row] + pendingCount rows := by
      simp [pendingCount, List.countP_cons, add_comm]
    rw [hcount, add_mul]
    exact hadd.trans (add_le_add hrow hrest)

/-- 64 bits hold the sum after every row, where no transaction moves more than there can be. -/
theorem pendingTotal_fits (hmoney : ∀ row ∈ rows, |netAmount row| ≤ MAX_MONEY) (hfew : pendingCount rows ≤ 4392)
    (i : Nat) : |pendingTotal (rows.take i)| < 2 ^ 63 := by
  have hsum : |pendingTotal (rows.take i)| ≤ pendingCount (rows.take i) * MAX_MONEY :=
    abs_pendingTotal fun row hrow => hmoney row (List.mem_of_mem_take hrow)
  have hcount : pendingCount (rows.take i) ≤ pendingCount rows := (List.take_sublist i rows).countP_le
  have hbound : (pendingCount (rows.take i) : Int) * MAX_MONEY ≤ 4392 * MAX_MONEY :=
    mul_le_mul_of_nonneg_right (by omega) (by decide)
  exact (hsum.trans hbound).trans_lt (by decide)

/-- In every run the balance on the page, the one that is given to whoever asks, is the sum of the wallet impacts of
the pending transactions in the list, in the unit in force, and no step of the addition overflows while they are few.
The counts on the page are those of the list. The range to choose amounts from reaches as far as the largest
transaction of the activity, so that the whole range hides none. -/
theorem balance_run [DecidableEq Date] {today : Date}
    (h : Reach.Reaches (Proxy.step qt) (Allowed qt) (Proxy.start today) m) :
    m.pendingBalanceSat.1 = pendingTotal m.rows ∧
    m.shown_balance = (pendingTotal m.rows, m.m_display_unit) ∧
    ((∀ row ∈ m.rows, |netAmount row| ≤ MAX_MONEY) → pendingCount m.rows ≤ 4392 →
      ∀ i, |pendingTotal (m.rows.take i)| < 2 ^ 63) ∧
    (m.filters.m_date_filter = .all ∨ m.filters.m_date_filter = .customRange ∨ (∀ day ∈ m.days, day = m.today) →
      pendingTotal m.rows = pendingTotal (m.source.filter (m.filters.filterAcceptsRow qt m.today))) ∧
    m.shown_counts = (m.rows.length, requestCount m.rows) ∧
    ∀ row ∈ m.source, request row = false → ((netAmount row).natAbs : Int) ≤ m.m_available_max_amount := by
  obtain ⟨hkept, htold⟩ : Kept qt m ∧ Told m := by
    refine h.invariant (I := fun m => Kept qt m ∧ Told m) ⟨kept_start today, told_start today⟩ fun m e hm ha => ?_
    exact ⟨kept_step m e hm.1 ha, told_step m e hm.1 hm.2 ha⟩
  refine ⟨pendingBalanceSat_fst htold.fresh.kept, htold.fresh.shown, pendingTotal_fits, fun hday => ?_, htold.counted,
    fun row hrow hnot => ?_⟩
  · exact ((hkept.passed.perm hday).map pendingAmount).sum_eq
  · rw [htold.ranged]
    refine le_foldl_max (.inr ?_)
    have hrange : rangeAmount row = ((netAmount row).natAbs : Int) := by simp [rangeAmount, hnot]
    rw [← hrange]
    exact List.mem_map_of_mem hrow

theorem balance_run_confirmed :
    confirmed.shown_balance = (30, 1) ∧ confirmed.pendingBalanceSat.1 = 30 ∧
    (∀ i, |pendingTotal (confirmed.rows.take i)| < 2 ^ 63) ∧ confirmed.shown_counts = (4, 1) ∧
    500 ≤ confirmed.m_available_max_amount := by
  obtain ⟨hgiven, hshown, hfits, -, hcounts, hrange⟩ := balance_run reaches_confirmed
  have hrows : confirmed.rows = [arrived, requested, spent, incoming 1] := rfl
  have hsource : confirmed.source = activity 1 [arrived] := rfl
  have hunit : confirmed.m_display_unit = 1 := rfl
  have htotal : pendingTotal confirmed.rows = 30 := by
    rw [hrows]
    simp [pendingTotal, pendingAmount]
  have hmoney : ∀ row ∈ confirmed.rows, |netAmount row| ≤ MAX_MONEY := by
    rw [hrows]
    simp
    decide
  have hfew : pendingCount confirmed.rows ≤ 4392 := by
    rw [hrows]
    simp [pendingCount]
  refine ⟨by rw [hshown, htotal, hunit], hgiven.trans htotal, hfits hmoney hfew, ?_, ?_⟩
  · rw [hcounts, hrows]
    simp [requestCount]
  · have hlargest := hrange earlier (by simp [hsource]) (by simp)
    simpa using hlargest

end GuiQml.ActivityList
