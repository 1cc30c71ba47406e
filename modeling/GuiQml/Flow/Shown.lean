import GuiQml.Flow.Conserved
import GuiQml.Flow.Ribbons

/-!
# What a diagram shows of a flow

With the outputs that do not belong to the wallet in one group or not, and with the fee beside them, the two sides
of a complete flow still add up to the same amount.
-/

namespace GuiQml.Flow

open Interpret (WalletTx)
open Wallet (CAmount Transaction TxOut)

variable {Destination : Type} {api : FlowApi} {wtx : WalletTx Destination} {tx : Transaction}
  {prevouts : List (Option TxOut)} {collapse_outputs : Bool} {flow : TransactionFlow} {entries : List Entry}
  {entry group : Entry}

/-! ## Sums of known amounts -/

def AllKnown (entries : List Entry) : Prop := ∀ e ∈ entries, amountKnown e = true

theorem sumFrom_of_known (hall : AllKnown entries) (total : Int) :
    sumFrom false total entries = some (total + knownSum entries) := by
  induction entries generalizing total with
  | nil => simp [sumFrom, knownSum]
  | cons e rest ih =>
    obtain ⟨hknown, hrest⟩ := List.forall_mem_cons.mp hall
    simp [sumFrom, knownSum, hknown, ih hrest, add_assoc]

theorem sum_of_known (hall : AllKnown entries) : sum entries false = some (knownSum entries) := by
  rw [sum, sumFrom_of_known hall, zero_add]

theorem knownSum_cons (hknown : amountKnown entry = true) (rest : List Entry) :
    knownSum (entry :: rest) = amount entry + knownSum rest := by
  simp [knownSum, hknown]

theorem knownSum_append (front back : List Entry) : knownSum (front ++ back) = knownSum front + knownSum back := by
  simp [knownSum]

theorem knownSum_nonneg (hall : AllKnown entries) : 0 ≤ knownSum entries := by
  refine List.sum_nonneg fun n hn => ?_
  obtain ⟨e, he, rfl⟩ := List.mem_map.mp hn
  exact amount_nonneg (hall e (List.mem_filter.mp he).1)

theorem AddUpTo.knownSum_eq {total : CAmount} (h : AddUpTo entries total) (hall : AllKnown entries) :
    knownSum entries = total := by
  obtain ⟨-, amounts, hamounts, rfl⟩ := h
  have hread : entries.map amount = amounts := by
    have hsat := congrArg (List.map fun sat : Option CAmount => sat.getD 0) hamounts
    simp only [List.map_map, Function.comp_def, Option.getD_some, List.map_id'] at hsat
    exact hsat
  rw [knownSum, List.filter_eq_self.mpr hall, hread]

/-! ## The group -/

theorem groupedOutputs_rest (entries : List Entry) :
    groupedOutputs group true entries = entries.filter (·.ownership = .wallet) := by
  induction entries with
  | nil => rfl
  | cons e rest ih => by_cases hwallet : e.ownership = .wallet <;> simp [groupedOutputs, hwallet, ih]

theorem knownSum_split (hall : AllKnown entries) :
    knownSum (entries.filter (·.ownership ≠ .wallet)) + knownSum (entries.filter (·.ownership = .wallet)) =
      knownSum entries := by
  induction entries with
  | nil => rfl
  | cons e rest ih =>
    obtain ⟨hknown, hrest⟩ := List.forall_mem_cons.mp hall
    have hsplit := ih hrest
    rw [knownSum_cons hknown, ← hsplit]
    by_cases hwallet : e.ownership = .wallet
    · simp only [ne_eq, hwallet, not_true_eq_false, decide_false, Bool.false_eq_true, not_false_eq_true,
        List.filter_cons_of_neg, decide_true, List.filter_cons_of_pos, knownSum_cons hknown]
      ring
    · simp only [ne_eq, hwallet, not_false_eq_true, decide_true, List.filter_cons_of_pos, decide_false,
        Bool.false_eq_true, List.filter_cons_of_neg, knownSum_cons hknown]
      ring

theorem knownSum_groupedOutputs (hall : AllKnown entries) (hgroup : amountKnown group = true)
    (hamount : amount group = knownSum (entries.filter (·.ownership ≠ .wallet)))
    (hsome : ∃ e ∈ entries, e.ownership ≠ .wallet) :
    knownSum (groupedOutputs group false entries) = knownSum entries := by
  induction entries with
  | nil => simp at hsome
  | cons e rest ih =>
    obtain ⟨hknown, hrest⟩ := List.forall_mem_cons.mp hall
    by_cases hwallet : e.ownership = .wallet
    · have hsome' : ∃ e ∈ rest, e.ownership ≠ .wallet := by simpa [hwallet] using hsome
      have hamount' : amount group = knownSum (rest.filter (·.ownership ≠ .wallet)) := by
        simpa [hwallet] using hamount
      rw [groupedOutputs, if_pos hwallet, knownSum_cons hknown, knownSum_cons hknown, ih hrest hamount' hsome']
    · rw [groupedOutputs, if_neg hwallet, if_neg (by simp), groupedOutputs_rest, knownSum_cons hgroup, hamount,
        ← knownSum_split hall]
      simp [hwallet]

theorem mem_groupedOutputs {grouped : Bool} (h : entry ∈ groupedOutputs group grouped entries) :
    entry = group ∨ entry ∈ entries := by
  induction entries generalizing grouped with
  | nil => simp [groupedOutputs] at h
  | cons e rest ih =>
    have hlater {grouped : Bool} (h : entry ∈ groupedOutputs group grouped rest) : entry = group ∨ entry ∈ e :: rest :=
      (ih h).imp_right (List.mem_cons_of_mem e)
    unfold groupedOutputs at h
    split at h
    · rcases List.mem_cons.mp h with rfl | h
      · exact .inr List.mem_cons_self
      · exact hlater h
    · split at h
      · exact hlater h
      · rcases List.mem_cons.mp h with rfl | h
        · exact .inl rfl
        · exact hlater h

theorem groupedOutputs_ne_nil (h : entries ≠ []) : groupedOutputs group false entries ≠ [] := by
  cases entries with
  | nil => exact absurd rfl h
  | cons e rest =>
    unfold groupedOutputs
    split <;> simp

theorem outputGroupOf_spec (hall : AllKnown entries) (h : outputGroupOf entries = some group) :
    amountKnown group = true ∧ amount group = knownSum (entries.filter (·.ownership ≠ .wallet)) ∧
      ∃ e ∈ entries, e.ownership ≠ .wallet := by
  have hgrouped : AllKnown (entries.filter (·.ownership ≠ .wallet)) := fun e he => hall e (List.mem_filter.mp he).1
  unfold outputGroupOf at h
  dsimp only at h
  split at h
  · cases h
  · rename_i hmany
    cases h
    have hpositive := knownSum_nonneg hgrouped
    rw [sum_of_known hgrouped]
    refine ⟨?_, rfl, ?_⟩
    · simpa [amountKnown] using hpositive
    · have hpos : 0 < (entries.filter (·.ownership ≠ .wallet)).length := by omega
      obtain ⟨e, he⟩ := List.exists_mem_of_length_pos hpos
      exact ⟨e, (List.mem_filter.mp he).1, by simpa using (List.mem_filter.mp he).2⟩

/-! ## The flow -/

/-- The entries of the outputs, before the fee. -/
def entriesOf (flow : TransactionFlow) (group : Option Entry) : List Entry :=
  match group with
  | none => flow.outputs
  | some group => groupedOutputs group false flow.outputs

theorem entriesOf_spec (hall : AllKnown flow.outputs) {group : Option Entry}
    (hgroup : group = none ∨ group = outputGroupOf flow.outputs) :
    AllKnown (entriesOf flow group) ∧ knownSum (entriesOf flow group) = knownSum flow.outputs := by
  cases group with
  | none => exact ⟨hall, rfl⟩
  | some group =>
    obtain ⟨hknown, hamount, hsome⟩ := outputGroupOf_spec hall (hgroup.resolve_left (by simp)).symm
    refine ⟨fun e he => ?_, knownSum_groupedOutputs hall hknown hamount hsome⟩
    rcases mem_groupedOutputs he with rfl | he
    · exact hknown
    · exact hall e he

theorem amountKnown_of_nonneg (hknown : entry.amountKnown = true) {sat : CAmount}
    (hsat : entry.amountSat = some sat) (hnonneg : 0 ≤ sat) : amountKnown entry = true := by
  unfold amountKnown
  simp [hknown, hsat, hnonneg]

theorem nonneg_of_moneyRange {sat : CAmount} (h : moneyRange sat = true) : 0 ≤ sat := by
  simp only [moneyRange, Bool.and_eq_true, decide_eq_true_eq] at h
  exact h.1

theorem Represented.allKnown {grouped : Bool} {outs : List Output} (h : Represented api grouped outs entries)
    (hvalues : ∀ o ∈ outs, moneyRange o.out.nValue = true) : AllKnown entries := by
  have hentry (o : Output) (ho : o ∈ outs) : amountKnown (outputEntry api o) = true :=
    amountKnown_of_nonneg rfl rfl (nonneg_of_moneyRange (hvalues o ho))
  cases grouped with
  | false =>
    obtain rfl : entries = outs.map (outputEntry api) := h
    exact List.forall_mem_map.mpr hentry
  | true =>
    obtain ⟨pre, first, post, rfl, -, -, rfl⟩ := h
    intro e he
    simp only [List.mem_append, List.mem_cons, List.mem_map, List.mem_filter] at he
    rcases he with ⟨o, ho, rfl⟩ | rfl | ⟨o, ⟨ho, -⟩, rfl⟩
    · exact hentry o (by simp [ho])
    · refine amountKnown_of_nonneg rfl rfl (List.sum_nonneg fun value hvalue => ?_)
      obtain ⟨o, ho, rfl⟩ := List.mem_map.mp hvalue
      exact nonneg_of_moneyRange (hvalues o (List.mem_filter.mp ho).1)
    · exact hentry o (by simp [ho])

theorem Conserves.inputs_known (h : Conserves api wtx tx prevouts collapse_outputs flow) {total : CAmount}
    (htotal : flow.totalInputSat = some total) : AllKnown flow.inputs := by
  obtain ⟨hknown, -⟩ := h.inputs_add_up total htotal
  intro e he
  have hflag := hknown e he
  rw [h.inputs_represented] at he
  split at he
  · rw [List.mem_singleton.mp he]
    exact amountKnown_of_nonneg rfl rfl (nonneg_of_moneyRange h.in_range)
  · obtain ⟨i, -, rfl⟩ := List.mem_map.mp he
    obtain ⟨out, hout⟩ := Option.isSome_iff_exists.mp hflag
    have hrange : moneyRange out.nValue = true := (Option.filter_eq_some_iff.mp hout).2
    exact amountKnown_of_nonneg hflag (by simp [inputEntry, hout]) (nonneg_of_moneyRange hrange)

theorem complete_of_some (h : buildTransactionFlow api wtx prevouts collapse_outputs = some flow)
    (htx : wtx.tx = some tx) (hcomplete : flow.complete = true) :
    flow.coinbase = api.isCoinBase tx ∧ (∃ total, flow.totalInputSat = some total) ∧
      (flow.coinbase = false → flow.feeKnown = true ∧ ∃ fee, flow.feeSat = some fee) := by
  unfold buildTransactionFlow at h
  simp only [htx, Option.bind_eq_bind, Option.bind_some] at h
  split at h
  · cases h
  · obtain ⟨⟨entries, total_output⟩, -, h⟩ := Option.bind_eq_some_iff.mp h
    obtain ⟨s, -, hflow⟩ := Option.bind_eq_some_iff.mp h
    obtain rfl := Option.some.inj hflow
    simp only [Bool.and_eq_true, Bool.or_eq_true] at hcomplete
    refine ⟨rfl, ⟨s.total_input, if_pos hcomplete.1⟩, fun hcoinbase => ?_⟩
    dsimp only at hcoinbase
    have hfee := hcomplete.2.resolve_left (by simp [hcoinbase])
    exact ⟨hfee, Option.isSome_iff_exists.mp hfee⟩

/-- In the diagram of a complete flow both sides add up to the same known amount. -/
theorem shown_balances (hflow : buildTransactionFlow api wtx prevouts collapse_outputs = some flow)
    (hcomplete : flow.complete = true) (houtputs : flow.outputs ≠ []) {group : Option Entry}
    (hgroup : group = none ∨ group = outputGroupOf flow.outputs) :
    ∃ total, sum flow.inputs false = some total ∧ sum (shownOutputs flow group) false = some total := by
  obtain ⟨tx, htx, hconsistent, hrange, hconserves⟩ := conserves_of_some hflow
  obtain ⟨hcoinbase, ⟨total, htotal⟩, hfee⟩ := complete_of_some hflow htx hcomplete
  have hvalues : ∀ o ∈ outputs wtx tx, moneyRange o.out.nValue = true := by
    rw [← List.forall_mem_map (P := fun value => moneyRange value = true), outputs_nValue hconsistent,
      List.forall_mem_map]
    exact hrange.values
  have hknown := hconserves.outputs_represented.allKnown hvalues
  obtain ⟨hshown, hsum⟩ := entriesOf_spec hknown hgroup
  rw [hconserves.outputs_add_up.knownSum_eq hknown] at hsum
  have hinputs := hconserves.inputs_known htotal
  have hleft := (hconserves.inputs_add_up total htotal).knownSum_eq hinputs
  refine ⟨total, by rw [sum_of_known hinputs, hleft], ?_⟩
  have hentries : shownOutputs flow group =
      if !flow.coinbase && !(entriesOf flow group).isEmpty then entriesOf flow group ++ [feeEntry flow]
      else entriesOf flow group := rfl
  cases hkind : flow.coinbase with
  | true =>
    -- the one input of a coinbase is made of its outputs
    have hinput : flow.inputs = [coinbaseEntry flow.totalOutputSat] := by
      rw [hconserves.inputs_represented, if_pos (hcoinbase ▸ hkind)]
    have htotal_output : knownSum flow.inputs = flow.totalOutputSat := by
      rw [hinput, knownSum_cons (hinputs _ (by simp [hinput]))]
      simp [knownSum, amount, coinbaseEntry]
    rw [hentries, hkind, if_neg (by simp), sum_of_known hshown, hsum, ← hleft, htotal_output]
  | false =>
    obtain ⟨hfee_known, fee, hfee⟩ := hfee hkind
    obtain ⟨hnonneg, hrest⟩ := hconserves.fee fee hfee
    have hentry : amountKnown (feeEntry flow) = true :=
      amountKnown_of_nonneg hfee_known (by simp [feeEntry, hfee_known, hfee]) hnonneg
    have hnonempty : (entriesOf flow group).isEmpty = false := by
      rw [List.isEmpty_eq_false_iff]
      cases group with
      | none => exact houtputs
      | some group => exact groupedOutputs_ne_nil houtputs
    rw [hentries, hkind, hnonempty, if_pos (by simp), sum_of_known, knownSum_append, hsum, knownSum_cons hentry]
    · have hamount : amount (feeEntry flow) = fee := by simp [amount, feeEntry, hfee_known, hfee]
      rw [hamount, hrest, htotal, Option.getD_some]
      simp [knownSum]
    · intro e he
      rcases List.mem_append.mp he with he | he
      · exact hshown e he
      · rw [List.mem_singleton.mp he]
        exact hentry

/-- So that its ribbons are drawn to scale wherever anything is moved at all. -/
theorem shown_proportional (hflow : buildTransactionFlow api wtx prevouts collapse_outputs = some flow)
    (hcomplete : flow.complete = true) (houtputs : flow.outputs ≠ []) {group : Option Entry}
    (hgroup : group = none ∨ group = outputGroupOf flow.outputs) (hmoved : 0 < knownSum flow.inputs) :
    proportional flow.inputs (shownOutputs flow group) flow.complete = true := by
  obtain ⟨total, hleft, hright⟩ := shown_balances hflow hcomplete houtputs hgroup
  have hpositive : 0 < total := (sum_eq_some hleft).2 ▸ hmoved
  simp [proportional, hcomplete, hleft, hright, hpositive]

end GuiQml.Flow
