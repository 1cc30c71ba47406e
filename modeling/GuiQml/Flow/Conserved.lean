import GuiQml.Flow.Build
import GuiQml.Activity.NetImpact
import Mathlib.Algebra.BigOperators.Group.List.Basic
import Mathlib.Tactic.Ring

/-!
# A flow conserves the amounts

The entries of a flow add up to its totals, grouped or not, and its fee is what the inputs leave over.
-/

namespace GuiQml.Flow

open Interpret (WalletTx outputValue)
open Wallet (CAmount MAX_MONEY Script Transaction TxIn TxOut)

variable {Destination : Type} {api : FlowApi} {wtx : WalletTx Destination} {tx : Transaction}

/-! ## Running totals -/

/-- Every total of the first values, from `total` on, is in the money range. -/
def TotalsInRange (total : CAmount) (values : List CAmount) : Prop :=
  ∀ n, moneyRange (total + (values.take n).sum) = true

theorem totalsInRange_nil {total : CAmount} : TotalsInRange total [] ↔ moneyRange total = true := by
  simp [TotalsInRange]

theorem totalsInRange_cons {total value : CAmount} {values : List CAmount} :
    TotalsInRange total (value :: values) ↔
      moneyRange total = true ∧ TotalsInRange (total + value) values := by
  constructor
  · intro h
    refine ⟨by simpa using h 0, fun n => ?_⟩
    have := h (n + 1)
    rwa [List.take_succ_cons, List.sum_cons, ← add_assoc] at this
  · rintro ⟨hfirst, hrest⟩ (_ | n)
    · simpa using hfirst
    · rw [List.take_succ_cons, List.sum_cons, ← add_assoc]
      exact hrest n

theorem TotalsInRange.start {total : CAmount} {values : List CAmount} (h : TotalsInRange total values) :
    moneyRange total = true := by
  simpa using h 0

theorem TotalsInRange.whole {total : CAmount} {values : List CAmount} (h : TotalsInRange total values) :
    moneyRange (total + values.sum) = true := by
  simpa using h values.length

/-- The entries are of known amounts that add up to `total`. -/
def AddUpTo (entries : List Entry) (total : CAmount) : Prop :=
  (∀ e ∈ entries, e.amountKnown = true) ∧
    ∃ amounts : List CAmount, entries.map (·.amountSat) = amounts.map some ∧ amounts.sum = total

/-! ## The loop over the outputs -/

/-- A step without its checks. -/
def addOutput (api : FlowApi) (group_outputs : Bool) (s : OutputLoop) (o : Output) : OutputLoop :=
  let s := { s with total_output := s.total_output + o.out.nValue }
  if group_outputs && !o.mine then
    let s := { s with grouped_amount := s.grouped_amount + o.out.nValue }
    if s.group_index.isNone then
      { s with group_index := some s.outputs.length, outputs := s.outputs ++ [default] }
    else s
  else { s with outputs := s.outputs ++ [outputEntry api o] }

theorem outputStep_eq (group_outputs : Bool) (s : OutputLoop) (o : Output) :
    outputStep api group_outputs s o =
      if moneyRange o.out.nValue = true ∧ moneyRange (s.total_output + o.out.nValue) = true then
        some (addOutput api group_outputs s o)
      else none := by
  unfold outputStep addOutput
  cases moneyRange o.out.nValue with
  | false => simp
  | true =>
    cases moneyRange (s.total_output + o.out.nValue) with
    | false => simp
    | true =>
      simp only [Bool.not_true, Bool.or_self, Bool.false_eq_true, if_false, and_self, if_true]
      split
      · split <;> rfl
      · rfl

@[simp] theorem addOutput_total_output (group_outputs : Bool) (s : OutputLoop) (o : Output) :
    (addOutput api group_outputs s o).total_output = s.total_output + o.out.nValue := by
  unfold addOutput
  dsimp only
  split
  · split <;> rfl
  · rfl

theorem foldl_total_output (group_outputs : Bool) (outs : List Output) (s : OutputLoop) :
    (outs.foldl (addOutput api group_outputs) s).total_output =
      s.total_output + (outs.map (·.out.nValue)).sum := by
  induction outs generalizing s with
  | nil => simp
  | cons o outs ih => rw [List.foldl_cons, ih, addOutput_total_output, List.map_cons, List.sum_cons, add_assoc]

/-- The loop goes through exactly where the values and the totals stay in range. -/
theorem foldlM_outputStep (group_outputs : Bool) (outs : List Output) (s s' : OutputLoop)
    (hs : moneyRange s.total_output = true) :
    outs.foldlM (outputStep api group_outputs) s = some s' ↔
      (∀ o ∈ outs, moneyRange o.out.nValue = true) ∧
        TotalsInRange s.total_output (outs.map (·.out.nValue)) ∧
        s' = outs.foldl (addOutput api group_outputs) s := by
  induction outs generalizing s with
  | nil =>
    rw [List.map_nil, totalsInRange_nil]
    simp [hs, @eq_comm _ s]
  | cons o outs ih =>
    rw [List.foldlM_cons, outputStep_eq, List.map_cons, totalsInRange_cons, List.forall_mem_cons,
      List.foldl_cons]
    by_cases hvalue : moneyRange o.out.nValue = true
    · by_cases htotal : moneyRange (s.total_output + o.out.nValue) = true
      · rw [if_pos ⟨hvalue, htotal⟩]
        simp only [Option.bind_eq_bind, Option.bind_some]
        rw [ih _ (by rwa [addOutput_total_output]), addOutput_total_output]
        simp [hvalue, hs]
      · rw [if_neg fun h => htotal h.2]
        simp only [Option.bind_eq_bind, Option.bind_none, reduceCtorEq, false_iff]
        rintro ⟨-, ⟨-, hrest⟩, -⟩
        exact htotal hrest.start
    · rw [if_neg fun h => hvalue h.1]
      simp [hvalue]

/-! ## What stands for the outputs -/

/-- The outputs of others. -/
def others (outs : List Output) : List Output := outs.filter fun o => !o.mine

theorem others_split {pre post : List Output} {first : Output} (hpre : ∀ o ∈ pre, o.mine = true)
    (hfirst : first.mine = false) : others (pre ++ first :: post) = first :: others post := by
  have hnone : others pre = [] := List.filter_eq_nil_iff.mpr fun o ho => by simp [hpre o ho]
  rw [others, List.filter_append, ← others, hnone]
  simp [others, hfirst]

theorem sum_others_add (outs : List Output) :
    ((others outs).map (·.out.nValue)).sum + ((outs.filter (·.mine)).map (·.out.nValue)).sum =
      (outs.map (·.out.nValue)).sum := by
  induction outs with
  | nil => rfl
  | cons o outs ih =>
    rw [List.map_cons, List.sum_cons, ← ih]
    cases hmine : o.mine <;> simp [others, hmine] <;> ring

/-- One entry for each output, in order, or one in place of all outputs of others, where the first of
them was. -/
def Represented (api : FlowApi) (grouped : Bool) (outs : List Output) (entries : List Entry) : Prop :=
  if grouped then
    ∃ pre first post, outs = pre ++ first :: post ∧ (∀ o ∈ pre, o.mine = true) ∧ first.mine = false ∧
      entries = pre.map (outputEntry api) ++
        outputGroup (others outs).length ((others outs).map (·.out.nValue)).sum ::
          (post.filter (·.mine)).map (outputEntry api)
  else entries = outs.map (outputEntry api)

theorem foldl_ungrouped (outs : List Output) (s : OutputLoop) :
    outs.foldl (addOutput api false) s =
      { s with
        total_output := s.total_output + (outs.map (·.out.nValue)).sum
        outputs := s.outputs ++ outs.map (outputEntry api) } := by
  induction outs generalizing s with
  | nil => simp
  | cons o outs ih => simp [ih, addOutput, add_assoc]

theorem foldl_mine {outs : List Output} (hmine : ∀ o ∈ outs, o.mine = true) (s : OutputLoop) :
    outs.foldl (addOutput api true) s =
      { s with
        total_output := s.total_output + (outs.map (·.out.nValue)).sum
        outputs := s.outputs ++ outs.map (outputEntry api) } := by
  induction outs generalizing s with
  | nil => simp
  | cons o outs ih =>
    rw [List.forall_mem_cons] at hmine
    simp [ih hmine.2, addOutput, hmine.1, add_assoc]

theorem foldl_grouped {group_index : Nat} (outs : List Output) (s : OutputLoop)
    (hindex : s.group_index = some group_index) :
    outs.foldl (addOutput api true) s =
      { s with
        total_output := s.total_output + (outs.map (·.out.nValue)).sum
        grouped_amount := s.grouped_amount + ((others outs).map (·.out.nValue)).sum
        outputs := s.outputs ++ (outs.filter (·.mine)).map (outputEntry api) } := by
  induction outs generalizing s with
  | nil => simp [others]
  | cons o outs ih =>
    rw [List.foldl_cons, ih]
    · cases hmine : o.mine <;> simp [addOutput, others, hmine, hindex, add_assoc]
    · unfold addOutput
      cases hmine : o.mine <;> simp [hindex]

theorem split_first {outs : List Output} (h : ∃ o ∈ outs, o.mine = false) :
    ∃ pre first post, outs = pre ++ first :: post ∧ (∀ o ∈ pre, o.mine = true) ∧ first.mine = false := by
  induction outs with
  | nil => simp at h
  | cons o outs ih =>
    cases hmine : o.mine with
    | false => exact ⟨[], o, outs, rfl, by simp, hmine⟩
    | true =>
      obtain ⟨x, hx, hother⟩ := h
      rcases List.mem_cons.mp hx with rfl | hx
      · rw [hmine] at hother
        cases hother
      · obtain ⟨pre, first, post, rfl, hpre, hfirst⟩ := ih ⟨x, hx, hother⟩
        exact ⟨o :: pre, first, post, rfl, by simpa [hmine] using hpre, hfirst⟩

/-- The entries after the loop, with the group in its place. -/
def placed (non_wallet_outputs : Nat) (s : OutputLoop) : List Entry :=
  match s.group_index with
  | some group_index => s.outputs.set group_index (outputGroup non_wallet_outputs s.grouped_amount)
  | none => s.outputs

theorem placed_ungrouped (n : Nat) (outs : List Output) :
    placed n (outs.foldl (addOutput api false) {}) = outs.map (outputEntry api) := by
  rw [foldl_ungrouped]
  simp [placed]

theorem placed_grouped {n : Nat} {outs : List Output} (hn : n = (others outs).length)
    (h : ∃ o ∈ outs, o.mine = false) :
    Represented api true outs (placed n (outs.foldl (addOutput api true) {})) := by
  obtain ⟨pre, first, post, rfl, hpre, hfirst⟩ := split_first h
  refine ⟨pre, first, post, rfl, hpre, hfirst, ?_⟩
  have hstart : addOutput api true
        { outputs := pre.map (outputEntry api), total_output := (pre.map (·.out.nValue)).sum } first =
      { outputs := pre.map (outputEntry api) ++ [default]
        total_output := (pre.map (·.out.nValue)).sum + first.out.nValue
        grouped_amount := first.out.nValue
        group_index := some pre.length } := by
    simp [addOutput, hfirst]
  rw [List.foldl_append, foldl_mine hpre, List.foldl_cons]
  simp only [List.nil_append, zero_add]
  rw [hstart, foldl_grouped post _ rfl, hn, others_split hpre hfirst]
  simp [placed]

/-! ## The outputs of a consistent record -/

section Consistent

variable (h : consistent wtx tx = true)
include h

theorem outputs_nValue : (outputs wtx tx).map (·.out.nValue) = tx.vout.map (·.nValue) := by
  simp only [consistent, Bool.and_eq_true, beq_iff_eq] at h
  obtain ⟨⟨-, hmine⟩, hchange⟩ := h
  have hzip : ((tx.vout.zip (wtx.txout_is_mine.zip wtx.txout_is_change)).zipIdx.map fun p => p.1.1) =
      tx.vout := by
    rw [show (fun p : (TxOut × Bool × Bool) × Nat => p.1.1) = Prod.fst ∘ Prod.fst from rfl,
      ← List.map_map, List.zipIdx_map_fst, List.map_fst_zip]
    simp only [List.length_zip]
    omega
  rw [← congrArg (List.map (·.nValue)) hzip, outputs, List.map_map, List.map_map]
  rfl

theorem outputs_mine : (outputs wtx tx).map (·.mine) = wtx.txout_is_mine := by
  simp only [consistent, Bool.and_eq_true, beq_iff_eq] at h
  obtain ⟨⟨-, hmine⟩, hchange⟩ := h
  have hzip : ((tx.vout.zip (wtx.txout_is_mine.zip wtx.txout_is_change)).zipIdx.map fun p => p.1.2.1) =
      wtx.txout_is_mine := by
    rw [show (fun p : (TxOut × Bool × Bool) × Nat => p.1.2.1) = Prod.fst ∘ Prod.snd ∘ Prod.fst from rfl,
      ← List.map_map, ← List.map_map, List.zipIdx_map_fst, List.map_snd_zip, List.map_fst_zip]
    · omega
    · simp only [List.length_zip]
      omega
  rw [outputs, List.map_map]
  exact hzip

theorem length_others : (others (outputs wtx tx)).length = wtx.txout_is_mine.count false := by
  rw [← outputs_mine h, others, List.count, List.countP_map, List.countP_eq_length_filter]
  congr 2
  funext o
  simp

end Consistent

theorem exists_other (h : consistent wtx tx = true) {collapse_outputs : Bool}
    (hgroup : groupOutputs wtx tx collapse_outputs = true) : ∃ o ∈ outputs wtx tx, o.mine = false := by
  simp only [groupOutputs, Bool.and_eq_true, decide_eq_true_eq] at hgroup
  have hlen : 0 < (others (outputs wtx tx)).length := by
    rw [length_others h]
    omega
  obtain ⟨o, ho⟩ := List.exists_mem_of_length_pos hlen
  obtain ⟨hmem, hmine⟩ := List.mem_filter.mp ho
  exact ⟨o, hmem, by simpa using hmine⟩

variable (api) in
theorem outputEntries_spec (h : consistent wtx tx = true) (collapse_outputs : Bool)
    (entries : List Entry) (total_output : CAmount) :
    outputEntries api wtx tx collapse_outputs = some (entries, total_output) ↔
      (∀ out ∈ tx.vout, moneyRange out.nValue = true) ∧
        TotalsInRange 0 (tx.vout.map (·.nValue)) ∧ total_output = outputValue tx ∧
        entries = placed (wtx.txout_is_mine.count false)
          ((outputs wtx tx).foldl (addOutput api (groupOutputs wtx tx collapse_outputs)) {}) := by
  have hvalues : (∀ o ∈ outputs wtx tx, moneyRange o.out.nValue = true) ↔
      ∀ out ∈ tx.vout, moneyRange out.nValue = true := by
    have := outputs_nValue h
    rw [← List.forall_mem_map (P := fun v => moneyRange v = true), this, List.forall_mem_map]
  unfold outputEntries
  simp only [Option.bind_eq_bind, Option.bind_eq_some_iff, Option.some.injEq, Prod.mk.injEq]
  constructor
  · rintro ⟨s, hloop, hentries, htotal⟩
    obtain ⟨hin, htotals, rfl⟩ := (foldlM_outputStep _ _ _ _ (by rfl)).mp hloop
    rw [foldl_total_output, outputs_nValue h] at htotal
    rw [outputs_nValue h] at htotals
    exact ⟨hvalues.mp hin, htotals, by rw [← htotal, outputValue, zero_add], hentries.symm⟩
  · rintro ⟨hin, htotals, rfl, rfl⟩
    refine ⟨_, (foldlM_outputStep _ _ _ _ (by rfl)).mpr ⟨hvalues.mpr hin, ?_, rfl⟩, rfl, ?_⟩
    · rwa [outputs_nValue h]
    · rw [foldl_total_output, outputs_nValue h, outputValue, zero_add]

variable (api) in
theorem outputEntries_represented (h : consistent wtx tx = true) (collapse_outputs : Bool) :
    Represented api (groupOutputs wtx tx collapse_outputs) (outputs wtx tx)
      (placed (wtx.txout_is_mine.count false)
        ((outputs wtx tx).foldl (addOutput api (groupOutputs wtx tx collapse_outputs)) {})) := by
  cases hgroup : groupOutputs wtx tx collapse_outputs with
  | false => exact placed_ungrouped _ _
  | true => exact placed_grouped (length_others h).symm (exists_other h hgroup)

theorem Represented.addUpTo {grouped : Bool} {outs : List Output} {entries : List Entry}
    (h : Represented api grouped outs entries) : AddUpTo entries (outs.map (·.out.nValue)).sum := by
  cases grouped with
  | false =>
    obtain rfl : entries = outs.map (outputEntry api) := h
    exact ⟨by simp [outputEntry], outs.map (·.out.nValue), by simp [outputEntry, Function.comp_def], rfl⟩
  | true =>
    obtain ⟨pre, first, post, rfl, hpre, hfirst, rfl⟩ := h
    refine ⟨?_, pre.map (·.out.nValue) ++ ((others (pre ++ first :: post)).map (·.out.nValue)).sum ::
      (post.filter (·.mine)).map (·.out.nValue), ?_, ?_⟩
    · intro e he
      simp only [List.mem_append, List.mem_cons, List.mem_map] at he
      rcases he with ⟨o, -, rfl⟩ | rfl | ⟨o, -, rfl⟩ <;> rfl
    · simp [outputEntry, outputGroup, Function.comp_def]
    · rw [others_split hpre hfirst]
      simp only [List.map_cons, List.map_append, List.sum_append, List.sum_cons, ← sum_others_add post]
      ring

/-! ## The loop over the inputs -/

/-- The values of the previous outputs that count as known. -/
def knownValues (ins : List Input) : List CAmount := ins.filterMap fun i => i.known.map (·.nValue)

variable (api) in
theorem foldlM_inputStep (ins : List Input) (s s' : InputLoop) (hs : moneyRange s.total_input = true) :
    ins.foldlM (inputStep api) s = some s' ↔
      TotalsInRange s.total_input (knownValues ins) ∧
        s' = { inputs := s.inputs ++ ins.map (inputEntry api)
               total_input := s.total_input + (knownValues ins).sum
               inputs_known := s.inputs_known && ins.all (·.known.isSome) } := by
  induction ins generalizing s with
  | nil =>
    rw [knownValues, List.filterMap_nil, totalsInRange_nil]
    simp [hs, @eq_comm _ s]
  | cons i ins ih =>
    rw [List.foldlM_cons, inputStep]
    cases hknown : i.known with
    | none =>
      simp only [Option.bind_eq_bind, Option.bind_some]
      rw [ih _ (by exact hs)]
      simp [knownValues, hknown]
    | some out =>
      have hvalues : knownValues (i :: ins) = out.nValue :: knownValues ins := by simp [knownValues, hknown]
      rw [hvalues, totalsInRange_cons, List.sum_cons, ← add_assoc]
      by_cases htotal : moneyRange (s.total_input + out.nValue) = true
      · simp only [htotal, Bool.not_true, Bool.false_eq_true, if_false, Option.bind_eq_bind, Option.bind_some]
        rw [ih _ (by exact htotal)]
        simp [hs, hknown]
      · simp only [htotal, Bool.not_false, if_true, Option.bind_eq_bind, Option.bind_none, reduceCtorEq,
          false_iff]
        rintro ⟨⟨-, hrest⟩, -⟩
        exact htotal hrest.start

theorem inputEntries_spec (prevouts : List (Option TxOut)) (total_output : CAmount) (s : InputLoop) :
    inputEntries api wtx tx prevouts total_output = some s ↔
      if api.isCoinBase tx then
        s = { inputs := [coinbaseEntry total_output], total_input := total_output, inputs_known := !tx.vin.isEmpty }
      else
        TotalsInRange 0 (knownValues (inputs wtx tx prevouts)) ∧
          s = { inputs := (inputs wtx tx prevouts).map (inputEntry api)
                total_input := (knownValues (inputs wtx tx prevouts)).sum
                inputs_known := !tx.vin.isEmpty && (inputs wtx tx prevouts).all (·.known.isSome) } := by
  unfold inputEntries
  cases api.isCoinBase tx with
  | true => simp [@eq_comm _ s]
  | false =>
    simp only [Bool.false_eq_true, if_false]
    rw [foldlM_inputStep _ _ _ _ (by rfl)]
    simp

theorem addUpTo_known {ins : List Input} (h : ins.all (·.known.isSome) = true) :
    AddUpTo (ins.map (inputEntry api)) (knownValues ins).sum := by
  refine ⟨by simpa [inputEntry] using h, knownValues ins, ?_, rfl⟩
  induction ins with
  | nil => rfl
  | cons i ins ih =>
    rw [List.all_cons, Bool.and_eq_true] at h
    obtain ⟨out, hout⟩ := Option.isSome_iff_exists.mp h.1
    rw [List.map_cons, List.map_cons, ih h.2]
    simp [knownValues, hout, inputEntry]

theorem inputEntries_inputs {prevouts : List (Option TxOut)} {total_output : CAmount} {s : InputLoop}
    (h : inputEntries api wtx tx prevouts total_output = some s) :
    s.inputs = if api.isCoinBase tx then [coinbaseEntry total_output]
      else (inputs wtx tx prevouts).map (inputEntry api) := by
  have hspec := (inputEntries_spec _ _ _).mp h
  cases hcoinbase : api.isCoinBase tx with
  | true =>
    rw [if_pos hcoinbase] at hspec
    simp [hspec]
  | false =>
    rw [if_neg (by simp [hcoinbase])] at hspec
    simp [hspec.2]

theorem inputEntries_addUpTo {prevouts : List (Option TxOut)} {total_output : CAmount} {s : InputLoop}
    (h : inputEntries api wtx tx prevouts total_output = some s) (hknown : s.inputs_known = true) :
    AddUpTo s.inputs s.total_input := by
  have hspec := (inputEntries_spec _ _ _).mp h
  cases hcoinbase : api.isCoinBase tx with
  | true =>
    rw [if_pos hcoinbase] at hspec
    rw [hspec]
    exact ⟨by simp [coinbaseEntry], [total_output], by simp [coinbaseEntry], by simp⟩
  | false =>
    rw [if_neg (by simp [hcoinbase])] at hspec
    rw [hspec.2] at hknown ⊢
    exact addUpTo_known (Bool.and_eq_true_iff.mp hknown).2

/-! ## The flow -/

/-- The values and the running totals that a flow is built from are in the money range. -/
structure InRange (api : FlowApi) (wtx : WalletTx Destination) (tx : Transaction)
    (prevouts : List (Option TxOut)) : Prop where
  values : ∀ out ∈ tx.vout, moneyRange out.nValue = true
  output_totals : TotalsInRange 0 (tx.vout.map (·.nValue))
  input_totals : api.isCoinBase tx = false → TotalsInRange 0 (knownValues (inputs wtx tx prevouts))

/-- What a flow says of the amounts of its transaction. -/
structure Conserves (api : FlowApi) (wtx : WalletTx Destination) (tx : Transaction)
    (prevouts : List (Option TxOut)) (collapse_outputs : Bool) (flow : TransactionFlow) : Prop where
  total_output : flow.totalOutputSat = outputValue tx
  in_range : moneyRange flow.totalOutputSat = true
  outputs_add_up : AddUpTo flow.outputs flow.totalOutputSat
  outputs_represented :
    Represented api (groupOutputs wtx tx collapse_outputs) (outputs wtx tx) flow.outputs
  inputs_represented : flow.inputs =
    if api.isCoinBase tx then [coinbaseEntry flow.totalOutputSat]
    else (inputs wtx tx prevouts).map (inputEntry api)
  inputs_add_up : ∀ total, flow.totalInputSat = some total → AddUpTo flow.inputs total
  fee : ∀ fee, flow.feeSat = some fee →
    0 ≤ fee ∧ fee = flow.totalInputSat.getD wtx.debit - flow.totalOutputSat

theorem feeOf_eq_some {s : InputLoop} {total_output fee : CAmount}
    (h : feeOf api wtx tx s total_output = some fee) :
    0 ≤ fee ∧ fee = (if s.inputs_known then some s.total_input else none).getD wtx.debit - total_output := by
  unfold feeOf at h
  split at h
  · cases h
  · obtain ⟨debit, hdebit, hfee⟩ := Option.bind_eq_some_iff.mp h
    split at hfee
    · rename_i hle
      obtain rfl := Option.some.inj hfee
      refine ⟨Int.sub_nonneg_of_le hle, ?_⟩
      unfold inputDebit at hdebit
      cases hknown : s.inputs_known with
      | true => simp_all
      | false =>
        simp only [hknown, Bool.false_eq_true, if_false] at hdebit ⊢
        split at hdebit
        · rw [Option.some.inj hdebit, Option.getD_none]
        · cases hdebit
    · cases hfee

theorem conserves_of_some {prevouts : List (Option TxOut)} {collapse_outputs : Bool} {flow : TransactionFlow}
    (h : buildTransactionFlow api wtx prevouts collapse_outputs = some flow) :
    ∃ tx, wtx.tx = some tx ∧ consistent wtx tx = true ∧ InRange api wtx tx prevouts ∧
      Conserves api wtx tx prevouts collapse_outputs flow := by
  unfold buildTransactionFlow at h
  obtain ⟨tx, htx, h⟩ := Option.bind_eq_some_iff.mp h
  cases hconsistent : consistent wtx tx with
  | false => simp [hconsistent] at h
  | true =>
    simp only [hconsistent, Bool.not_true, Bool.false_eq_true, if_false] at h
    obtain ⟨⟨entries, total_output⟩, hout, h⟩ := Option.bind_eq_some_iff.mp h
    obtain ⟨s, hin, hflow⟩ := Option.bind_eq_some_iff.mp h
    obtain rfl := Option.some.inj hflow
    obtain ⟨hvalues, htotals, htotal, hentries⟩ := (outputEntries_spec _ hconsistent _ _ _).mp hout
    have hrepresented := outputEntries_represented api hconsistent collapse_outputs
    rw [← hentries] at hrepresented
    have hsum : ((outputs wtx tx).map (·.out.nValue)).sum = total_output := by
      rw [outputs_nValue hconsistent, htotal, outputValue]
    have hrange : moneyRange total_output = true := by
      have := htotals.whole
      rwa [zero_add, ← outputValue, ← htotal] at this
    refine ⟨tx, htx, hconsistent, ⟨hvalues, htotals, fun hcoinbase => ?_⟩, htotal, hrange,
      hsum ▸ hrepresented.addUpTo, hrepresented, inputEntries_inputs hin, ?_, fun fee => feeOf_eq_some⟩
    · have hspec := (inputEntries_spec _ _ _).mp hin
      rw [if_neg (by simp [hcoinbase])] at hspec
      exact hspec.1
    · intro total htotal_input
      dsimp only at htotal_input ⊢
      split at htotal_input
      next hknown =>
        rw [← Option.some.inj htotal_input]
        exact inputEntries_addUpTo hin hknown
      next => cases htotal_input

theorem some_of_inRange {prevouts : List (Option TxOut)} (htx : wtx.tx = some tx)
    (hconsistent : consistent wtx tx = true) (h : InRange api wtx tx prevouts) (collapse_outputs : Bool) :
    (buildTransactionFlow api wtx prevouts collapse_outputs).isSome = true := by
  have hout := (outputEntries_spec api hconsistent collapse_outputs _ _).mpr
    ⟨h.values, h.output_totals, rfl, rfl⟩
  have hin : ∃ s, inputEntries api wtx tx prevouts (outputValue tx) = some s := by
    cases hcoinbase : api.isCoinBase tx with
    | true => exact ⟨_, if_pos hcoinbase⟩
    | false =>
      have hloop := (foldlM_inputStep api (inputs wtx tx prevouts)
        { inputs_known := !tx.vin.isEmpty } _ (by rfl)).mpr ⟨h.input_totals hcoinbase, rfl⟩
      exact ⟨_, (if_neg (by simp [hcoinbase])).trans hloop⟩
  obtain ⟨s, hs⟩ := hin
  simp [buildTransactionFlow, htx, hconsistent, hout, hs]

/-- A flow is empty exactly where the vectors disagree or a value or total that it is built from leaves
the money range, and otherwise conserves the amounts. A previous output whose own value is out of range
counts as unknown. -/
theorem flow_conserves (api : FlowApi) (wtx : WalletTx Destination) (prevouts : List (Option TxOut))
    (collapse_outputs : Bool) :
    (buildTransactionFlow api wtx prevouts collapse_outputs = none ↔
        ¬∃ tx, wtx.tx = some tx ∧ consistent wtx tx = true ∧ InRange api wtx tx prevouts) ∧
      ∀ flow, buildTransactionFlow api wtx prevouts collapse_outputs = some flow →
        ∃ tx, wtx.tx = some tx ∧ Conserves api wtx tx prevouts collapse_outputs flow := by
  constructor
  · constructor
    · rintro hnone ⟨tx, htx, hconsistent, hrange⟩
      have := some_of_inRange htx hconsistent hrange collapse_outputs
      rw [hnone] at this
      cases this
    · intro hno
      cases hflow : buildTransactionFlow api wtx prevouts collapse_outputs with
      | none => rfl
      | some flow =>
        obtain ⟨tx, htx, hconsistent, hrange, -⟩ := conserves_of_some hflow
        exact absurd ⟨tx, htx, hconsistent, hrange⟩ hno
  · intro flow hflow
    obtain ⟨tx, htx, -, -, hconserves⟩ := conserves_of_some hflow
    exact ⟨tx, htx, hconserves⟩

/-- Core and Qt on scripts that are one opcode long. -/
def plainFlowApi : FlowApi where
  isCoinBase tx := tx.vin.length == 1 && tx.vin.all fun input => input.prevout == ⟨0, 0xffffffff⟩
  isUnspendable script := script.head? == some OP_RETURN
  address _ := ""
  getOp
    | [] => none
    | opcode :: rest => some (opcode.toNat, [], rest)
  fromUtf8 _ := ""
  toUtf8 _ := []
  isPrint _ := true
  toHex _ := ""
  txidText _ := ""
  virtualSize _ := 100
  signalsOptInRBF _ := false
  serializeSize _ := 100
  weight _ := 400

/-- One input, and eleven outputs of which the last belongs to the wallet. -/
def batchPayment : Transaction where
  version := 2
  vin := [⟨⟨1, 0⟩, [], 0, []⟩]
  vout := List.replicate 10 ⟨5, [0]⟩ ++ [⟨40, [1]⟩]
  nLockTime := 0

def batchRecord : WalletTx Unit where
  tx := some batchPayment
  txin_is_mine := [true]
  txout_is_mine := List.replicate 10 false ++ [true]
  txout_is_change := List.replicate 10 false ++ [true]
  txout_address := []
  credit := 40
  debit := 100
  time := 0
  value_map := []
  is_coinbase := false

theorem flow_conserves_batch :
    ∃ flow, buildTransactionFlow plainFlowApi batchRecord [some ⟨100, [0]⟩] true = some flow ∧
      flow.outputs.length = 2 ∧ flow.feeSat = some 10 ∧
      ∃ tx, batchRecord.tx = some tx ∧ Conserves plainFlowApi batchRecord tx [some ⟨100, [0]⟩] true flow :=
  ⟨_, rfl, rfl, rfl, (flow_conserves plainFlowApi batchRecord [some ⟨100, [0]⟩] true).2 _ rfl⟩

/-- A previous output of more than there is makes no empty flow. -/
theorem flow_of_value_out_of_range :
    consistent batchRecord batchPayment = true ∧ moneyRange (MAX_MONEY + 1) = false ∧
      (buildTransactionFlow plainFlowApi batchRecord [some ⟨MAX_MONEY + 1, [0]⟩] false).isSome = true :=
  ⟨rfl, rfl, rfl⟩

end GuiQml.Flow
