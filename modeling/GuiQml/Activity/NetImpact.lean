import GuiQml.Activity.Interpret
import Mathlib.Algebra.BigOperators.Group.List.Basic
import Mathlib.Tactic.Ring

/-!
# The actions account for the net impact

What the wallet gained over a transaction is what its receive actions say, less what its send actions
say, less the fee where it is known.
-/

namespace GuiQml.Interpret

open Wallet (CAmount OutPoint Script Transaction TxIn TxOut)

variable {Destination : Type} {core : CoreApi Destination} {wtx : WalletTx Destination}
variable {tx : Transaction}

/-- The amounts of the actions in one direction. -/
def total (direction : Direction) (actions : List TransactionAction) : CAmount :=
  ((actions.filter (·.direction = direction)).map (·.amount)).sum

/-- The value of the inputs that the wallet owns. -/
def ownedInputValue (value : OutPoint → CAmount) (wtx : WalletTx Destination) (tx : Transaction) : CAmount :=
  (((tx.vin.zip wtx.txin_is_mine).filter (·.2)).map fun p => value p.1.prevout).sum

def inputValue (value : OutPoint → CAmount) (tx : Transaction) : CAmount :=
  (tx.vin.map fun input => value input.prevout).sum

def outputValue (tx : Transaction) : CAmount := (tx.vout.map (·.nValue)).sum

/-- The amounts of the record are those of the transaction: `value` is what each spent output held. -/
structure Amounts (value : OutPoint → CAmount) (wtx : WalletTx Destination) (tx : Transaction) : Prop where
  debit : wtx.debit = if wtx.is_coinbase then 0 else ownedInputValue value wtx tx
  credit : wtx.is_coinbase = false → wtx.credit = ownedValue (outputs wtx tx)
  balanced : wtx.is_coinbase = false → outputValue tx ≤ inputValue value tx

/-- `GetValueOut` is the sum of the outputs where it does not throw. -/
def SumsOutputs (core : CoreApi Destination) : Prop :=
  ∀ tx value_out, core.getValueOut tx = some value_out → value_out = outputValue tx

theorem total_append (direction : Direction) (front back : List TransactionAction) :
    total direction (front ++ back) = total direction front + total direction back := by
  simp [total]

theorem total_filterMap (direction : Direction) (action : Output Destination → Option TransactionAction)
    (amount : Output Destination → CAmount) (outs : List (Output Destination))
    (h : ∀ o ∈ outs, total direction (action o).toList = amount o) :
    total direction (outs.filterMap action) = (outs.map amount).sum := by
  induction outs with
  | nil => rfl
  | cons o outs ih =>
    have hrest := ih fun o' ho' => h o' (List.mem_cons_of_mem _ ho')
    have hfirst := h o List.mem_cons_self
    rw [List.filterMap_cons, List.map_cons, List.sum_cons, ← hrest, ← hfirst]
    cases action o with
    | none => simp [total]
    | some a => exact total_append direction [a] _

theorem ownedValue_eq (outs : List (Output Destination)) :
    ownedValue outs = (outs.map fun o => if o.mine then o.out.nValue else 0).sum := by
  induction outs with
  | nil => rfl
  | cons o outs ih =>
    unfold ownedValue at ih ⊢
    cases hmine : o.mine <;> simp [hmine, ih]

/-! ## One output -/

theorem isDataOutput_nValue {output : TxOut} (h : isDataOutput core output = true) : output.nValue = 0 := by
  simp only [isDataOutput, Bool.and_eq_true, beq_iff_eq] at h
  exact h.1

theorem outputAction_received {f : Flags} (hall : f.all_from_wallet = false) (o : Output Destination) :
    total .receive (outputAction core tx f o).toList = if o.mine then o.out.nValue else 0 := by
  unfold outputAction
  by_cases hdata : isDataOutput core o.out = true
  · simp [hdata, total, isDataOutput_nValue hdata]
  · cases hmine : o.mine <;> simp [hdata, hall, total]

theorem outputAction_not_sent {f : Flags} (hall : f.all_from_wallet = false) (o : Output Destination) :
    total .send (outputAction core tx f o).toList = 0 := by
  unfold outputAction
  by_cases hdata : isDataOutput core o.out = true
  · simp [hdata, total]
  · cases hmine : o.mine <;> simp [hdata, hall, total]

theorem outputAction_sent {f : Flags} (hall : f.all_from_wallet = true) (o : Output Destination) :
    total .send (outputAction core tx f o).toList = if o.mine then 0 else o.out.nValue := by
  unfold outputAction
  by_cases hdata : isDataOutput core o.out = true
  · simp [hdata, total, isDataOutput_nValue hdata]
  · cases hmine : o.mine
    · simp [hdata, hall, total]
    · simp only [hdata, hall, Bool.false_eq_true, if_false, if_true, Bool.not_true, Bool.false_and]
      split <;> simp [total]

theorem outputAction_not_received {f : Flags} (hall : f.all_from_wallet = true) (o : Output Destination) :
    total .receive (outputAction core tx f o).toList = 0 := by
  unfold outputAction
  by_cases hdata : isDataOutput core o.out = true
  · simp [hdata, total]
  · cases hmine : o.mine
    · simp [hdata, hall, total]
    · simp only [hdata, hall, Bool.false_eq_true, if_false, if_true, Bool.not_true, Bool.false_and]
      split <;> simp [total]

/-! ## All outputs -/

theorem outputs_nValue (h : isComplete wtx tx = true) :
    (outputs wtx tx).map (·.out.nValue) = tx.vout.map (·.nValue) := by
  simp only [isComplete, Bool.and_eq_true, beq_iff_eq] at h
  obtain ⟨⟨⟨-, hmine⟩, hchange⟩, haddress⟩ := h
  have hzip : ((tx.vout.zip (wtx.txout_is_mine.zip (wtx.txout_is_change.zip wtx.txout_address))).zipIdx.map
      fun p => p.1.1) = tx.vout := by
    rw [show (fun p : (TxOut × Bool × Bool × Destination) × Nat => p.1.1) = Prod.fst ∘ Prod.fst from rfl,
      ← List.map_map, List.zipIdx_map_fst, List.map_fst_zip]
    simp only [List.length_zip]
    omega
  rw [← congrArg (List.map (·.nValue)) hzip, outputs, List.map_map, List.map_map]
  rfl

theorem sum_outputs (h : isComplete wtx tx = true) :
    ownedValue (outputs wtx tx) + ((outputs wtx tx).map fun o => if o.mine then 0 else o.out.nValue).sum =
      outputValue tx := by
  rw [outputValue, ← outputs_nValue h, ownedValue_eq]
  induction outputs wtx tx with
  | nil => rfl
  | cons o outs ih =>
    rw [List.map_cons, List.map_cons, List.map_cons, List.sum_cons, List.sum_cons, List.sum_cons, ← ih]
    split
    · rw [Int.zero_add, Int.add_assoc]
    · rw [Int.zero_add, Int.add_left_comm]

theorem ownedInputValue_all (value : OutPoint → CAmount) (hlen : wtx.txin_is_mine.length = tx.vin.length)
    (hall : wtx.txin_is_mine.count true = tx.vin.length) :
    ownedInputValue value wtx tx = inputValue value tx := by
  have hmine : ∀ b ∈ wtx.txin_is_mine, true = b := by
    rw [← hlen] at hall
    exact List.count_eq_length.mp hall
  have hfilter : (tx.vin.zip wtx.txin_is_mine).filter (·.2) = tx.vin.zip wtx.txin_is_mine := by
    rw [List.filter_eq_self]
    intro p hp
    exact (hmine p.2 (List.of_mem_zip hp).2).symm
  have hzip : (tx.vin.zip wtx.txin_is_mine).map Prod.fst = tx.vin := List.map_fst_zip (by omega)
  rw [ownedInputValue, hfilter, inputValue, ← congrArg (List.map fun input => value input.prevout) hzip,
    List.map_map]
  rfl

theorem ownedInputValue_none (value : OutPoint → CAmount) (hnone : wtx.txin_is_mine.count true = 0) :
    ownedInputValue value wtx tx = 0 := by
  have hfilter : (tx.vin.zip wtx.txin_is_mine).filter (·.2) = [] := by
    rw [List.filter_eq_nil_iff]
    intro p hp hmine
    have hmem := (List.of_mem_zip hp).2
    rw [hmine] at hmem
    exact List.count_eq_zero.mp hnone hmem
  rw [ownedInputValue, hfilter]
  rfl

/-! ## The whole transaction -/

theorem actions_received (f : Flags) (outs : List (Output Destination)) :
    total .receive (actions core wtx tx f outs) =
      if f.all_from_wallet then 0 else ownedValue outs := by
  have hcontribution : total .receive (if f.mixed_inputs then [contribution core wtx tx] else []) = 0 := by
    split <;> simp [total, contribution]
  rw [actions, total_append, hcontribution, Int.zero_add]
  cases hall : f.all_from_wallet with
  | true => simpa using total_filterMap .receive _ _ outs fun o _ => outputAction_not_received hall o
  | false =>
    rw [if_neg (by simp), ownedValue_eq]
    exact total_filterMap .receive _ _ outs fun o _ => outputAction_received hall o

theorem actions_sent (f : Flags) (outs : List (Output Destination)) :
    total .send (actions core wtx tx f outs) =
      (if f.mixed_inputs then wtx.debit else 0) +
        if f.all_from_wallet then (outs.map fun o => if o.mine then 0 else o.out.nValue).sum else 0 := by
  have hcontribution : total .send (if f.mixed_inputs then [contribution core wtx tx] else []) =
      if f.mixed_inputs then wtx.debit else 0 := by
    split <;> simp [total, contribution]
  rw [actions, total_append, hcontribution]
  congr 1
  cases hall : f.all_from_wallet with
  | true => exact total_filterMap .send _ _ outs fun o _ => outputAction_sent hall o
  | false => simpa using total_filterMap .send _ _ outs fun o _ => outputAction_not_sent hall o

theorem fromWalletTx_some {activity : TransactionActivity} (htx : wtx.tx = some tx)
    (h : fromWalletTx core wtx = .ok (some activity)) :
    isComplete wtx tx = true ∧
      activity.actions = actions core wtx tx (flags core wtx tx (outputs wtx tx)) (outputs wtx tx) ∧
      activity.wallet_debit = wtx.debit ∧
      activity.wallet_credit = (if wtx.is_coinbase then ownedValue (outputs wtx tx) else wtx.credit) ∧
      fee core wtx tx (flags core wtx tx (outputs wtx tx)) = .ok activity.fee := by
  simp only [fromWalletTx, htx] at h
  split at h
  · cases h
  · rename_i hcomplete
    split at h
    · cases h
    · cases hfee : fee core wtx tx (flags core wtx tx (outputs wtx tx)) with
      | error thrown =>
        rw [hfee] at h
        cases h
      | ok known =>
        rw [hfee] at h
        obtain rfl := Option.some.inj (Except.ok.inj h)
        exact ⟨by simpa using hcomplete, rfl, rfl, rfl, rfl⟩

/-- The actions account for the wallet's net impact. -/
theorem net_impact (value : OutPoint → CAmount) {activity : TransactionActivity} (hsum : SumsOutputs core)
    (htx : wtx.tx = some tx) (hamounts : Amounts value wtx tx)
    (haccepted : fromWalletTx core wtx = .ok (some activity)) :
    activity.walletImpact =
      total .receive activity.actions - total .send activity.actions - activity.fee.getD 0 := by
  obtain ⟨hcomplete, hactions, hdebit, hcredit, hfee⟩ := fromWalletTx_some htx haccepted
  have hlen : wtx.txin_is_mine.length = tx.vin.length := by
    simp only [isComplete, Bool.and_eq_true, beq_iff_eq] at hcomplete
    exact hcomplete.1.1.1.2
  have houts := sum_outputs hcomplete
  rw [TransactionActivity.walletImpact, hactions, actions_received, actions_sent, hdebit, hcredit]
  have hall : (flags core wtx tx (outputs wtx tx)).all_from_wallet =
      (!wtx.is_coinbase && ownedInputs wtx == tx.vin.length) := rfl
  have hmixed : (flags core wtx tx (outputs wtx tx)).mixed_inputs =
      (decide (0 < ownedInputs wtx) && !(!wtx.is_coinbase && ownedInputs wtx == tx.vin.length)) := rfl
  rw [fee, hall] at hfee
  rw [hall, hmixed]
  cases hcoinbase : wtx.is_coinbase with
  | true =>
    -- A coinbase has no owned inputs, and its credit is what it pays the wallet.
    have hdebit := hamounts.debit
    simp only [hcoinbase, if_true] at hdebit
    simp only [hcoinbase, Bool.not_true, Bool.false_and, Bool.false_eq_true, if_false, Except.ok.injEq] at hfee
    simp [← hfee, hdebit, ownedInputs, hcoinbase]
  | false =>
    have hdebit := hamounts.debit
    have hcredit := hamounts.credit hcoinbase
    have hbalanced := hamounts.balanced hcoinbase
    have howned : ownedInputs wtx = wtx.txin_is_mine.count true := by simp [ownedInputs, hcoinbase]
    simp only [hcoinbase, Bool.false_eq_true, if_false] at hdebit
    by_cases hinputs : ownedInputs wtx = tx.vin.length
    · -- All inputs are owned: the fee is known, and what is not owned is sent.
      have hput := ownedInputValue_all value hlen (howned.symm.trans hinputs)
      rw [if_pos (by simp [hcoinbase, hinputs])] at hfee
      cases hvalue : core.getValueOut tx with
      | none =>
        rw [hvalue] at hfee
        cases hfee
      | some value_out =>
        have hknown : 0 ≤ wtx.debit - value_out := by
          rw [hsum tx value_out hvalue, hdebit, hput]
          exact Int.sub_nonneg_of_le hbalanced
        rw [hvalue] at hfee
        simp only [hknown, if_true, Except.ok.injEq] at hfee
        rw [← hfee, Option.getD_some, hsum tx value_out hvalue, ← houts]
        simp [hinputs, hcredit]
        ring
    · -- Beside inputs of others the wallet sends what it put in, or put in nothing.
      simp only [hcoinbase, hinputs, Bool.not_false, Bool.true_and, beq_iff_eq, if_false, Except.ok.injEq] at hfee
      have hsent : (if 0 < ownedInputs wtx then wtx.debit else 0) = wtx.debit := by
        split
        · rfl
        · rename_i hzero
          rw [hdebit, ownedInputValue_none value (by omega)]
      rw [← hfee]
      simp [hinputs, hcredit, hsent]

/-- Core's functions on small transactions: sums within the money range, scripts that begin with
`OP_RETURN`. -/
def plainCore : CoreApi String where
  getHex _ := "00"
  getValueOut tx :=
    if tx.vout.all fun o => 0 ≤ o.nValue && o.nValue ≤ 2100000000000000 then some (outputValue tx) else none
  isUnspendable script := script.head? == some 0x6a
  encodeDestination destination := destination

/-- Two owned inputs of 60, a payment of 70, change of 40 and a data output. -/
def plainPayment : Transaction where
  version := 2
  vin := [⟨⟨1, 0⟩, [], 0, []⟩, ⟨⟨2, 0⟩, [], 0, []⟩]
  vout := [⟨70, [0]⟩, ⟨40, [1]⟩, ⟨0, [0x6a]⟩]
  nLockTime := 0

def plainRecord : WalletTx String where
  tx := some plainPayment
  txin_is_mine := [true, true]
  txout_is_mine := [false, true, false]
  txout_is_change := [false, true, false]
  txout_address := ["payee", "own", ""]
  credit := 40
  debit := 120
  time := 0
  value_map := []
  is_coinbase := false

theorem net_impact_payment :
    ∃ activity, fromWalletTx plainCore plainRecord = .ok (some activity) ∧ activity.fee = some 10 ∧
      activity.walletImpact =
        total .receive activity.actions - total .send activity.actions - activity.fee.getD 0 := by
  have hsum : SumsOutputs plainCore := by
    intro tx value_out h
    simp only [plainCore] at h
    split at h
    · exact (Option.some.inj h).symm
    · cases h
  have hamounts : Amounts (fun _ => 60) plainRecord plainPayment := ⟨by decide, by decide, by decide⟩
  exact ⟨_, rfl, by decide, net_impact (fun _ => 60) hsum rfl hamounts rfl⟩

end GuiQml.Interpret
