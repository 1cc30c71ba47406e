import GuiQml.Wallet.SendAll

/-!
# The steps of sending everything

What the two loops of `CreateSendAllTransaction` add up, and what its end does with the sums.
-/

namespace GuiQml.Wallet

open GuiQml.Int64

/-! ## The two loops -/

theorem checked_add (a b : CAmount) :
    checked (add a b) = if Fits (a + b) then .ok (a + b) else .error .signedOverflow := by
  unfold add narrow
  split <;> rfl

theorem checked_sub (a b : CAmount) :
    checked (sub a b) = if Fits (a - b) then .ok (a - b) else .error .signedOverflow := by
  unfold sub narrow
  split <;> rfl

namespace CoreWallet

variable {w : CoreWallet}

def valueOf (w : CoreWallet) (input : OutPoint) : CAmount := (w.findOutput input).elim 0 (·.nValue)

def canSpend (w : CoreWallet) (input : OutPoint) : Bool := (w.checkInput input).isOk

theorem checkInput_cases (w : CoreWallet) (input : OutPoint) :
    (w.canSpend input = true ∧ w.checkInput input = .ok (w.valueOf input)) ∨
      (w.canSpend input = false ∧ ∃ text, w.checkInput input = .error (.error text)) := by
  unfold canSpend valueOf checkInput findOutput
  cases w.getWalletTx input.hash with
  | none => simp [Except.isOk, Except.toBool]
  | some source =>
    cases ho : source.vout[input.n]? with
    | none => simp [ho, Except.isOk, Except.toBool]
    | some output =>
      simp only [ho, Option.bind_some, Option.elim_some]
      split_ifs <;> simp [Except.isOk, Except.toBool]

/-- The parts of a list of inputs that the loop over them gets through. -/
def Spendable (w : CoreWallet) (done : List OutPoint) : Prop := ∀ i ∈ done, w.canSpend i = true

theorem spendable_nil : w.Spendable [] := by simp [Spendable]

theorem spendable_cons {input : OutPoint} (h : w.canSpend input = true) (done : List OutPoint) :
    w.Spendable (input :: done) = w.Spendable done := by
  simp [Spendable, h]

theorem addInputs_cons {input : OutPoint} (hspend : w.canSpend input = true)
    (rest : List OutPoint) {total : CAmount} (hfit : Fits (total + w.valueOf input)) :
    w.addInputs (input :: rest) total =
      (w.addInputs rest (total + w.valueOf input)).map fun p => (p.1,
        ⟨input, [], if w.m_signal_rbf then MAX_BIP125_RBF_SEQUENCE else MAX_SEQUENCE_NONFINAL, []⟩
          :: p.2) := by
  rcases w.checkInput_cases input with ⟨-, hcheck⟩ | ⟨hno, -⟩
  · simp only [addInputs, hcheck, bind, Except.bind, checked_add, if_pos hfit]
    cases w.addInputs rest (total + w.valueOf input) <;> rfl
  · simp [hspend] at hno

theorem addInputs_spec (w : CoreWallet) (inputs : List OutPoint) {total : CAmount}
    (hfit : Fits total) :
    match w.addInputs inputs total with
    | .ok (sum, vin) => TotalsFit w.Spendable w.valueOf inputs total ∧ w.Spendable inputs ∧
        sum = total + (inputs.map w.valueOf).sum ∧ vin.map (·.prevout) = inputs
    | .error .signedOverflow => ¬TotalsFit w.Spendable w.valueOf inputs total
    | .error (.error _) => TotalsFit w.Spendable w.valueOf inputs total ∧ ¬w.Spendable inputs := by
  induction inputs generalizing total with
  | nil => simpa [addInputs, totalsFit_nil spendable_nil, spendable_nil] using hfit
  | cons input rest ih =>
    rw [totalsFit_cons spendable_nil]
    rcases w.checkInput_cases input with ⟨hspend, hcheck⟩ | ⟨hspend, text, hcheck⟩
    · simp only [spendable_cons hspend]
      by_cases hnext : Fits (total + w.valueOf input)
      · have := ih hnext
        rw [addInputs_cons hspend rest hnext]
        cases hrun : w.addInputs rest (total + w.valueOf input) with
        | error e =>
          rw [hrun] at this
          rcases e with _ | text <;> simpa [hfit, Except.map] using this
        | ok p =>
          rw [hrun] at this
          simp_all [Except.map, add_assoc]
      · simp only [addInputs, hcheck, bind, Except.bind, checked_add, if_neg hnext]
        rintro ⟨-, hall⟩
        have := hall 0 (by simp [Spendable])
        simp_all
    · simp only [addInputs, hcheck, bind, Except.bind]
      refine ⟨⟨hfit, totalsFit_of_not fun done h => ?_⟩, fun h => ?_⟩
      · simpa [hspend] using h input (by simp)
      · simpa [hspend] using h input (by simp)

end CoreWallet

/-- The amounts of the recipients, where the one with the remainder has none. -/
def otherAmount (remainder_index : Int) (p : CRecipient × Nat) : CAmount :=
  if (p.2 : Int) = remainder_index then 0 else p.1.nAmount

/-- No address twice, nor one of `destinations`. -/
def Different (destinations : List Destination) (done : List (CRecipient × Nat)) : Prop :=
  (done.map (·.1.dest)).Nodup ∧ ∀ p ∈ done, p.1.dest ∉ destinations

theorem different_nil (destinations : List Destination) : Different destinations [] := by
  simp [Different]

theorem different_cons {destinations : List Destination} {p : CRecipient × Nat}
    (h : p.1.dest ∉ destinations) (done : List (CRecipient × Nat)) :
    Different destinations (p :: done) = Different (p.1.dest :: destinations) done := by
  simp only [Different, List.map_cons, List.nodup_cons, List.mem_map, List.mem_cons,
    forall_eq_or_imp, eq_iff_iff]
  grind

theorem addOutputs_cons (api : AddressApi) (remainder_index : Int) {recipient : CRecipient}
    {destinations : List Destination} (h : recipient.dest ∉ destinations) (rest : List CRecipient)
    (i : Nat) {fixed_amount : CAmount} :
    addOutputs api remainder_index (recipient :: rest) i destinations fixed_amount =
      if Fits (fixed_amount + otherAmount remainder_index (recipient, i)) then
        (addOutputs api remainder_index rest (i + 1) (recipient.dest :: destinations)
          (fixed_amount + otherAmount remainder_index (recipient, i))).map fun p => (p.1,
            ⟨otherAmount remainder_index (recipient, i),
              api.scriptForDestination recipient.dest⟩ :: p.2)
      else .error .signedOverflow := by
  simp only [addOutputs, if_neg h, otherAmount, bind, Except.bind, checked_add]
  split_ifs
  · dsimp only
    cases addOutputs api remainder_index rest (i + 1) (recipient.dest :: destinations)
      (fixed_amount + 0) <;> rfl
  · rfl
  · dsimp only
    cases addOutputs api remainder_index rest (i + 1) (recipient.dest :: destinations)
      (fixed_amount + recipient.nAmount) <;> rfl
  · rfl

theorem addOutputs_spec (api : AddressApi) (remainder_index : Int) (recipients : List CRecipient)
    (i : Nat) (destinations : List Destination) {fixed_amount : CAmount} (hfit : Fits fixed_amount) :
    match addOutputs api remainder_index recipients i destinations fixed_amount with
    | .ok (sum, vout) =>
        TotalsFit (Different destinations) (otherAmount remainder_index) (recipients.zipIdx i)
          fixed_amount ∧
        sum = fixed_amount + ((recipients.zipIdx i).map (otherAmount remainder_index)).sum ∧
        vout = (recipients.zipIdx i).map fun p =>
          ⟨otherAmount remainder_index p, api.scriptForDestination p.1.dest⟩
    | .error .signedOverflow => ¬TotalsFit (Different destinations) (otherAmount remainder_index)
          (recipients.zipIdx i) fixed_amount
    | .error (.error _) => TotalsFit (Different destinations) (otherAmount remainder_index)
          (recipients.zipIdx i) fixed_amount := by
  induction recipients generalizing i destinations fixed_amount with
  | nil => simpa [addOutputs, totalsFit_nil (different_nil _)] using hfit
  | cons recipient rest ih =>
    rw [List.zipIdx_cons, totalsFit_cons (different_nil _)]
    by_cases hseen : recipient.dest ∈ destinations
    · simp only [addOutputs, if_pos hseen]
      exact ⟨hfit, totalsFit_of_not fun done h => h.2 (recipient, i) (by simp) hseen⟩
    · rw [addOutputs_cons api remainder_index hseen]
      have hcons := funext (different_cons (p := (recipient, i)) hseen)
      simp only at hcons
      rw [hcons]
      split_ifs with hnext
      · have := ih (i + 1) (recipient.dest :: destinations) hnext
        cases hrun : addOutputs api remainder_index rest (i + 1) (recipient.dest :: destinations)
            (fixed_amount + otherAmount remainder_index (recipient, i)) with
        | error e =>
          rw [hrun] at this
          rcases e with _ | text <;> simpa [hfit, Except.map] using this
        | ok p =>
          rw [hrun] at this
          simp_all [Except.map, add_assoc]
      · rintro ⟨-, hall⟩
        have := hall 0 (different_nil _)
        simp_all

/-! ## The end of the construction -/

def InMoneyRange (n : Int) : Prop := 0 ≤ n ∧ n ≤ MAX_MONEY

/-- What Core promises of its functions. -/
structure LawfulCore (w : CoreWallet) : Prop where
  fee : ∀ control vsize, 0 ≤ vsize → InMoneyRange (w.getFee (w.getMinimumFeeRate control).1 vsize)
  bump : ∀ inputs rate, ∀ fee ∈ w.calculateCombinedBumpFee inputs rate, InMoneyRange fee
  dust : ∀ script, InMoneyRange (w.getDustThreshold script)
  /-- Every coin is listed once. -/
  coins : ∀ control params, (w.availableCoins control params).Nodup
  /-- Signing writes the scripts of the inputs. -/
  sign : ∀ tx signed, w.signTransaction tx = some signed → SamePayment signed tx

theorem fits_of_inMoneyRange_add {a b : Int} (ha : InMoneyRange a) (hb : InMoneyRange b) :
    Fits (a + b) := by
  simp only [InMoneyRange, MAX_MONEY, Fits, smallest, largest] at *
  omega

namespace CoreWallet

variable {w : CoreWallet}

def feeOf (w : CoreWallet) (tx : Transaction) (inputs : List OutPoint) (rate : CAmount) : CAmount :=
  w.getFee rate (w.calculateMaximumSignedTxSize tx none).vsize +
    (w.calculateCombinedBumpFee inputs rate).getD 0

theorem checkAndSign_ok {tx : Transaction} {fee : CAmount} {sign : Bool} {lockTime : Nat}
    {result : CreatedTransactionResult} (h : w.checkAndSign tx fee sign lockTime = .ok result) :
    tx.vout.any w.isDust = false ∧ result.fee = fee ∧
      (if sign then w.signTransaction { tx with nLockTime := lockTime }
        else some { tx with nLockTime := lockTime }) = some result.tx := by
  unfold checkAndSign at h
  split at h
  · simp at h
  · rename_i hdust
    simp only at h
    split at h
    · simp at h
    · rename_i signed hsigned
      injection h with h
      subst h
      exact ⟨by simpa using hdust, rfl, hsigned⟩

theorem checkAndSign_ne_overflow (tx : Transaction) (fee : CAmount) (sign : Bool) (lockTime : Nat) :
    w.checkAndSign tx fee sign lockTime ≠ .error .signedOverflow := by
  unfold checkAndSign
  split
  · simp
  · simp only
    split <;> simp

theorem payRemainder_ok {tx : Transaction} {inputs : List OutPoint}
    {rate total fixed_amount : CAmount} {remainder_index : Nat} {sign : Bool} {lockTime : Nat}
    {result : CreatedTransactionResult}
    (h : w.payRemainder tx inputs rate total fixed_amount remainder_index sign lockTime =
      .ok result) :
    0 ≤ (w.calculateMaximumSignedTxSize tx none).vsize ∧ result.fee = w.feeOf tx inputs rate ∧
      result.fee ≤ w.m_default_max_tx_fee ∧
      w.checkAndSign { tx with vout := tx.vout.modify remainder_index fun output =>
          { output with nValue := total - result.fee - fixed_amount } } result.fee sign lockTime =
        .ok result := by
  unfold payRemainder at h
  simp only [checked_add, checked_sub, bind, Except.bind] at h
  split_ifs at h with hsize hweight hfee
  · simp only at h
    split_ifs at h with hmax hcover hleft
    · simp only at h
      split_ifs at h with hfixed hrest
      · simp only at h
        obtain ⟨-, hresult, -⟩ := checkAndSign_ok h
        rw [hresult]
        exact ⟨Int.not_lt.mp hsize, rfl, Int.not_lt.mp hmax, h⟩

theorem feeOf_nonneg (hw : LawfulCore w) {tx : Transaction} (inputs : List OutPoint)
    (control : SendControl) (hsize : 0 ≤ (w.calculateMaximumSignedTxSize tx none).vsize) :
    0 ≤ w.feeOf tx inputs (w.getMinimumFeeRate control).1 ∧
      Fits (w.feeOf tx inputs (w.getMinimumFeeRate control).1) := by
  have hfee := hw.fee control _ hsize
  have hbump : InMoneyRange
      ((w.calculateCombinedBumpFee inputs (w.getMinimumFeeRate control).1).getD 0) := by
    cases h : w.calculateCombinedBumpFee inputs (w.getMinimumFeeRate control).1 with
    | none => exact ⟨Int.le_refl 0, by decide⟩
    | some fee => exact hw.bump _ _ fee h
  exact ⟨Int.add_nonneg hfee.1 hbump.1, fits_of_inMoneyRange_add hfee hbump⟩

theorem payRemainder_ne_overflow (hw : LawfulCore w) {tx : Transaction} {inputs : List OutPoint}
    {control : SendControl} {total fixed_amount : Int} (htotal : Fits total)
    (hfixed : 0 ≤ fixed_amount) (remainder_index : Nat) (sign : Bool) (lockTime : Nat) :
    w.payRemainder tx inputs (w.getMinimumFeeRate control).1 total fixed_amount remainder_index sign
      lockTime ≠ .error .signedOverflow := by
  unfold payRemainder
  simp only [checked_add, checked_sub, bind, Except.bind]
  split_ifs with hsize hweight hfee
  · simp
  · simp
  · have hnonneg := (feeOf_nonneg hw inputs control (Int.not_lt.mp hsize)).1
    unfold feeOf at hnonneg
    generalize (w.getFee (w.getMinimumFeeRate control).1 (w.calculateMaximumSignedTxSize tx none).vsize +
      (w.calculateCombinedBumpFee inputs (w.getMinimumFeeRate control).1).getD 0 : Int) = fee at *
    simp only
    split_ifs with hmax hcover hleft
    · simp
    · simp
    · simp only
      split_ifs with hless hrest
      · simp
      · exact checkAndSign_ne_overflow _ _ _ _
      · exact absurd (fits_sub hleft hfixed (Int.not_lt.mp hless)) hrest
    · exact absurd (fits_sub htotal hnonneg (Int.le_of_lt (Int.not_le.mp hcover))) hleft
  · exact absurd (feeOf_nonneg hw inputs control (Int.not_lt.mp hsize)).2 hfee

end CoreWallet

end GuiQml.Wallet
