import GuiQml.Wallet.SendAllSteps
import Mathlib.Algebra.Order.BigOperators.Group.List
import Mathlib.Data.List.Dedup
import Mathlib.Tactic.Linarith
import Mathlib.Tactic.Ring

/-!
# What a send-all transaction pays

The sums of `CreateSendAllTransaction` are signed 64-bit ones. A call that succeeds spends exactly the inputs'
value, and one whose sums do not fit never gets there.
-/

namespace GuiQml.Wallet

open GuiQml.Int64

/-! ## The recipients of the form -/

theorem mapM_getElem? {α β : Type} {f : α → Option β} {l : List α} {l' : List β}
    (h : l.mapM f = some l') {i : Nat} {b : β} (hb : l'[i]? = some b) :
    ∃ a, l[i]? = some a ∧ f a = some b := by
  induction l generalizing l' i with
  | nil =>
    simp only [List.mapM_nil, Option.pure_def, Option.some.injEq] at h
    subst h
    simp at hb
  | cons a rest ih =>
    simp only [List.mapM_cons, Option.bind_eq_bind, Option.bind_eq_some_iff, Option.pure_def,
      Option.some.injEq] at h
    obtain ⟨first, hfirst, others, hothers, rfl⟩ := h
    rcases i with _ | i
    · exact ⟨a, rfl, by simpa [hfirst] using hb⟩
    · exact ih hothers (by simpa using hb)

theorem buildRecipients_getElem? {api : AddressApi} {rows : List SendRecipient}
    {maximum : Option Nat} {recipients : List CRecipient}
    (h : WalletQmlModel.buildRecipients api rows maximum = some recipients) {i : Nat}
    {recipient : CRecipient} (hi : recipients[i]? = some recipient) :
    ∃ row, rows[i]? = some row ∧ recipient.nAmount = row.cAmount ∧
      (maximum ≠ some i → row.isValid = true) := by
  simp only [WalletQmlModel.buildRecipients, Option.bind_eq_bind, Option.bind_eq_some_iff] at h
  obtain ⟨vec_send, hvec, h⟩ := h
  split at h
  · simp at h
  · obtain rfl : vec_send = recipients := by simpa using h
    obtain ⟨⟨row, j⟩, hzip, hbuilt⟩ := mapM_getElem? hvec hi
    obtain ⟨hrow, rfl⟩ : rows[i]? = some row ∧ i = j := by
      simpa [List.getElem?_zipIdx] using hzip
    simp only at hbuilt
    split at hbuilt
    · simp at hbuilt
    · rename_i hvalid
      simp only [Option.bind_eq_some_iff, Option.some.injEq] at hbuilt
      obtain ⟨destination, -, rfl⟩ := hbuilt
      exact ⟨row, hrow, rfl, fun hmax => by simp_all⟩

theorem otherAmount_nonneg {api : AddressApi} {rows : List SendRecipientFields}
    {maximum : Option Nat} {recipients : List CRecipient} {remainder_index : Int}
    (hbuild : WalletQmlModel.buildRecipients api (rows.map (·.row)) maximum = some recipients)
    (hmax : ∀ j ∈ maximum, (j : Int) = remainder_index) {p : CRecipient × Nat}
    (hp : p ∈ recipients.zipIdx) : 0 ≤ otherAmount remainder_index p := by
  unfold otherAmount
  split_ifs with hindex
  · exact Int.le_refl 0
  · obtain ⟨row, hrow, hamount, hvalid⟩ :=
      buildRecipients_getElem? hbuild (List.mem_zipIdx_iff_getElem?.mp hp)
    obtain ⟨fields, -, rfl⟩ : ∃ fields, rows[p.2]? = some fields ∧ fields.row = row := by
      simpa using hrow
    rw [hamount]
    exact Int.le_of_lt (SendRecipientFields.pos_of_isValid
      (hvalid fun h => hindex (hmax p.2 (by simp [h]))))

/-! ## The transaction -/

/-- What a transaction that sends everything has to be. -/
structure SendsAll (api : AddressApi) (w : CoreWallet) (recipients : List CRecipient)
    (control : SendControl) (remainder_index : Int) (result : CreatedTransactionResult) : Prop where
  inputs_once : (result.tx.vin.map (·.prevout)).Nodup
  inputs : ∀ o, o ∈ result.tx.vin.map (·.prevout) ↔
    if control.selected = [] then o ∈ w.availableSendAllCoins control else o ∈ control.selected
  scripts : result.tx.vout.map (·.scriptPubKey) =
    recipients.map fun recipient => api.scriptForDestination recipient.dest
  amounts : ∀ (i : Nat) recipient output, recipients[i]? = some recipient →
    result.tx.vout[i]? = some output → (i : Int) ≠ remainder_index →
    output.nValue = recipient.nAmount
  conserved : (result.tx.vout.map (·.nValue)).sum + result.fee =
    (result.tx.vin.map fun input => w.valueOf input.prevout).sum
  fits : Fits ((result.tx.vin.map fun input => w.valueOf input.prevout).sum)
  nonneg : 0 ≤ result.fee ∧ ∀ output ∈ result.tx.vout, 0 ≤ output.nValue
  no_dust : ∀ output ∈ result.tx.vout, w.isDust output = false
  fee_le : result.fee ≤ w.m_default_max_tx_fee

/-- The checks in front of the sums pass. -/
def ReachesSums (w : CoreWallet) (recipients : List CRecipient) (control : SendControl)
    (remainder_index : Int) : Prop :=
  0 ≤ remainder_index ∧ remainder_index < recipients.length ∧
    control.m_feerate.all ((w.getMinimumFeeRate control).1 ≤ ·) = true ∧
    ((w.getMinimumFeeRate control).2 = true → w.m_allow_fallback_fee = true) ∧
    w.sendAllInputs control ≠ []

/-- The running totals of the inputs' values fit, up to the first one that cannot be spent, and so
do those of the fixed amounts, up to the first repeated address. -/
def AmountsFit (w : CoreWallet) (recipients : List CRecipient) (control : SendControl)
    (remainder_index : Int) : Prop :=
  TotalsFit w.Spendable w.valueOf (w.sendAllInputs control) 0 ∧
    (w.Spendable (w.sendAllInputs control) →
      TotalsFit (Different []) (otherAmount remainder_index) recipients.zipIdx 0)

theorem createSendAll_cases (api : AddressApi) (w : CoreWallet) (recipients : List CRecipient)
    (control : SendControl) (remainder_index : Int) (sign : Bool) (lockTime : Nat) :
    (¬ReachesSums w recipients control remainder_index ∧
      ∃ text, createSendAllTransaction api (some w) recipients control remainder_index sign
        lockTime = .error (.error text)) ∨
    (ReachesSums w recipients control remainder_index ∧
      createSendAllTransaction api (some w) recipients control remainder_index sign lockTime = do
        let (total, vin) ← w.addInputs (w.sendAllInputs control) 0
        let (fixed_amount, vout) ← addOutputs api remainder_index recipients 0 [] 0
        w.payRemainder ⟨control.m_version, vin, vout, 0⟩ (w.sendAllInputs control)
          (w.getMinimumFeeRate control).1 total fixed_amount remainder_index.toNat sign
          lockTime) := by
  unfold createSendAllTransaction
  simp only
  split_ifs with hindex hrate hfallback hempty
  · exact .inl ⟨fun h => by have := h.1; have := h.2.1; omega, _, rfl⟩
  · refine .inl ⟨fun h => ?_, _, rfl⟩
    have := h.2.2.1
    cases hfee : control.m_feerate with
    | none => simp [hfee] at hrate
    | some feerate => exact Int.not_le.mpr (by simpa [hfee] using hrate) (by simpa [hfee] using this)
  · exact .inl ⟨fun h => by have := h.2.2.2.1; simp_all, _, rfl⟩
  · exact .inl ⟨fun h => h.2.2.2.2 (List.isEmpty_iff.mp hempty), _, rfl⟩
  · refine .inr ⟨⟨by omega, by omega, ?_, ?_, by simpa using hempty⟩, rfl⟩
    · cases hfee : control.m_feerate <;> simp_all
    · simp_all

theorem sum_modify {l : List TxOut} {i : Nat} {output : TxOut} (h : l[i]? = some output)
    (n : CAmount) :
    ((l.modify i fun o => { o with nValue := n }).map (·.nValue)).sum + output.nValue =
      (l.map (·.nValue)).sum + n := by
  induction l generalizing i with
  | nil => simp at h
  | cons o rest ih =>
    rcases i with _ | i
    · obtain rfl : o = output := by simpa using h
      simp only [List.modify_zero_cons, List.map_cons, List.sum_cons]
      linarith
    · have := ih (i := i) (by simpa using h)
      simp only [List.modify_succ_cons, List.map_cons, List.sum_cons]
      linarith

theorem createSendAll_overflow_iff {api : AddressApi} {w : CoreWallet} (hw : LawfulCore w)
    {recipients : List CRecipient} {control : SendControl} {remainder_index : Int}
    (hamounts : ∀ p ∈ recipients.zipIdx, 0 ≤ otherAmount remainder_index p) (sign : Bool)
    (lockTime : Nat) :
    createSendAllTransaction api (some w) recipients control remainder_index sign lockTime =
        .error .signedOverflow ↔
      ReachesSums w recipients control remainder_index ∧
        ¬AmountsFit w recipients control remainder_index := by
  rcases createSendAll_cases api w recipients control remainder_index sign lockTime with
    ⟨hno, text, hrun⟩ | ⟨hreach, hrun⟩
  · rw [hrun]
    simp [hno]
  · rw [hrun]
    simp only [hreach, true_and, AmountsFit, bind, Except.bind]
    have hin := @CoreWallet.addInputs_spec w (w.sendAllInputs control) 0 (by decide)
    have hout := @addOutputs_spec api remainder_index recipients 0 [] 0 (by decide)
    cases hinputs : w.addInputs (w.sendAllInputs control) 0 with
    | error e =>
      rw [hinputs] at hin
      rcases e with _ | text
      · simp only [true_iff]
        exact fun h => hin h.1
      · simp [hin.1, hin.2]
    | ok p =>
      obtain ⟨total, vin⟩ := p
      rw [hinputs] at hin
      obtain ⟨hfits, hspend, rfl, -⟩ := hin
      cases houtputs : addOutputs api remainder_index recipients 0 [] 0 with
      | error e =>
        rw [houtputs] at hout
        rcases e with _ | text
        · simp only [true_iff]
          exact fun h => hout (h.2 hspend)
        · simp [hfits, hspend, hout]
      | ok q =>
        obtain ⟨fixed_amount, vout⟩ := q
        rw [houtputs] at hout
        obtain ⟨houtfits, rfl, -⟩ := hout
        have hpos : 0 ≤ (recipients.zipIdx.map (otherAmount remainder_index)).sum :=
          List.sum_nonneg fun value hvalue => by
            obtain ⟨p, hp, rfl⟩ := List.mem_map.mp hvalue
            exact hamounts p hp
        simp only [hfits, hspend, houtfits, true_and, not_true_eq_false, true_implies, iff_false]
        exact CoreWallet.payRemainder_ne_overflow hw (hfits.whole hspend) (by simpa using hpos) _ _ _

theorem mem_sendAllInputs {w : CoreWallet} {control : SendControl} (o : OutPoint) :
    o ∈ w.sendAllInputs control ↔
      if control.selected = [] then o ∈ w.availableSendAllCoins control
      else o ∈ control.selected := by
  unfold CoreWallet.sendAllInputs CCoinControl.listSelected
  by_cases h : control.selected = []
  · simp [h]
  · simp [h, List.dedup_eq_nil]

theorem nodup_sendAllInputs {w : CoreWallet} (hw : LawfulCore w) (control : SendControl) :
    (w.sendAllInputs control).Nodup := by
  unfold CoreWallet.sendAllInputs CCoinControl.listSelected
  split_ifs
  · exact hw.coins _ _
  · exact List.nodup_dedup _

/-- The outputs of the loop over the recipients. -/
def outputsFor (api : AddressApi) (remainder_index : Int) (recipients : List CRecipient) :
    List TxOut :=
  recipients.zipIdx.map fun p => ⟨otherAmount remainder_index p, api.scriptForDestination p.1.dest⟩

theorem outputsFor_getElem? (api : AddressApi) (remainder_index : Int)
    (recipients : List CRecipient) (i : Nat) :
    (outputsFor api remainder_index recipients)[i]? = recipients[i]?.map fun recipient =>
      ⟨otherAmount remainder_index (recipient, i), api.scriptForDestination recipient.dest⟩ := by
  simp [outputsFor, List.getElem?_zipIdx, Function.comp_def]

section Remainder

variable {api : AddressApi} {recipients : List CRecipient} {remainder_index : Int}
  {remainder : CAmount}

/-- The outputs with the remainder in its place. -/
def withRemainder (remainder_index : Int) (remainder : CAmount) (vout : List TxOut) : List TxOut :=
  vout.modify remainder_index.toNat fun output => { output with nValue := remainder }

theorem withRemainder_scripts :
    (withRemainder remainder_index remainder (outputsFor api remainder_index recipients)).map
      (·.scriptPubKey) = recipients.map fun recipient => api.scriptForDestination recipient.dest := by
  apply List.ext_getElem?
  intro i
  simp only [withRemainder, List.getElem?_map, List.getElem?_modify, outputsFor_getElem?]
  cases recipients[i]? with
  | none => rfl
  | some recipient => by_cases h : remainder_index.toNat = i <;> simp [h]

theorem withRemainder_amount {i : Nat} {recipient : CRecipient} {output : TxOut}
    (hlow : 0 ≤ remainder_index) (hi : recipients[i]? = some recipient)
    (ho : (withRemainder remainder_index remainder
      (outputsFor api remainder_index recipients))[i]? = some output)
    (hne : (i : Int) ≠ remainder_index) : output.nValue = recipient.nAmount := by
  have hindex : remainder_index.toNat ≠ i := by omega
  simp only [withRemainder, List.getElem?_modify, outputsFor_getElem?, hi, Option.map_eq_map,
    Option.map_some, if_neg hindex, Option.some.injEq] at ho
  subst ho
  simp [otherAmount, hne]

theorem withRemainder_sum (hlow : 0 ≤ remainder_index)
    (hhigh : remainder_index < recipients.length) :
    ((withRemainder remainder_index remainder (outputsFor api remainder_index recipients)).map
      (·.nValue)).sum = (recipients.zipIdx.map (otherAmount remainder_index)).sum + remainder := by
  have hlt : remainder_index.toNat < recipients.length := by omega
  have hout : (outputsFor api remainder_index recipients)[remainder_index.toNat]? =
      some ⟨0, api.scriptForDestination recipients[remainder_index.toNat].dest⟩ := by
    simp [outputsFor_getElem?, List.getElem?_eq_getElem hlt, otherAmount, hlow]
  have hsum := sum_modify hout remainder
  have hvalues : (outputsFor api remainder_index recipients).map (·.nValue) =
      recipients.zipIdx.map (otherAmount remainder_index) := by
    simp [outputsFor, Function.comp_def]
  rw [hvalues] at hsum
  simpa [withRemainder] using hsum

end Remainder

theorem createSendAll_built {api : AddressApi} {w : CoreWallet} {recipients : List CRecipient}
    {control : SendControl} {remainder_index : Int} {sign : Bool} {lockTime : Nat}
    {result : CreatedTransactionResult}
    (h : createSendAllTransaction api (some w) recipients control remainder_index sign lockTime =
      .ok result) :
    ∃ vin tx,
      let total := ((w.sendAllInputs control).map w.valueOf).sum
      let fixed_amount := (recipients.zipIdx.map (otherAmount remainder_index)).sum
      let built : Transaction := ⟨control.m_version, vin, withRemainder remainder_index
        (total - result.fee - fixed_amount) (outputsFor api remainder_index recipients), lockTime⟩
      (0 ≤ remainder_index ∧ remainder_index < recipients.length) ∧ Fits total ∧
        vin.map (·.prevout) = w.sendAllInputs control ∧
        0 ≤ (w.calculateMaximumSignedTxSize tx none).vsize ∧
        result.fee = w.feeOf tx (w.sendAllInputs control) (w.getMinimumFeeRate control).1 ∧
        result.fee ≤ w.m_default_max_tx_fee ∧ built.vout.any w.isDust = false ∧
        (if sign then w.signTransaction built else some built) = some result.tx := by
  rcases createSendAll_cases api w recipients control remainder_index sign lockTime with
    ⟨-, text, hrun⟩ | ⟨⟨hlow, hhigh, -⟩, hrun⟩
  · simp [hrun] at h
  have hin := @CoreWallet.addInputs_spec w (w.sendAllInputs control) 0 (by decide)
  have hout := @addOutputs_spec api remainder_index recipients 0 [] 0 (by decide)
  rw [hrun] at h
  simp only [bind, Except.bind] at h
  cases hinputs : w.addInputs (w.sendAllInputs control) 0 with
  | error e => simp [hinputs] at h
  | ok p =>
  cases houtputs : addOutputs api remainder_index recipients 0 [] 0 with
  | error e => simp [hinputs, houtputs] at h
  | ok q =>
  obtain ⟨total, vin⟩ := p
  obtain ⟨fixed_amount, vout⟩ := q
  rw [hinputs] at hin
  rw [houtputs] at hout
  simp only [hinputs, houtputs] at h
  obtain ⟨hfits, hspend, rfl, hvin⟩ := hin
  obtain ⟨-, rfl, rfl⟩ := hout
  simp only [zero_add] at h
  obtain ⟨hsize, hfee, hmaximum, hfinish⟩ := CoreWallet.payRemainder_ok h
  obtain ⟨hdust, -, hsigned⟩ := CoreWallet.checkAndSign_ok hfinish
  exact ⟨vin, _, ⟨hlow, hhigh⟩, by simpa using hfits.whole hspend, hvin, hsize, hfee, hmaximum,
    hdust, hsigned⟩

/-- A transaction that is built sends everything. -/
theorem createSendAll_ok {api : AddressApi} {w : CoreWallet} (hw : LawfulCore w)
    {recipients : List CRecipient} {control : SendControl} {remainder_index : Int} {sign : Bool}
    {lockTime : Nat} {result : CreatedTransactionResult}
    (h : createSendAllTransaction api (some w) recipients control remainder_index sign lockTime =
      .ok result) :
    SendsAll api w recipients control remainder_index result := by
  obtain ⟨vin, tx, ⟨hlow, hhigh⟩, hfits, hvin, hsize, hfee, hmaximum, hdust, hsigned⟩ :=
    createSendAll_built h
  have hpay : SamePayment result.tx ⟨control.m_version, vin, withRemainder remainder_index
      (((w.sendAllInputs control).map w.valueOf).sum - result.fee -
        (recipients.zipIdx.map (otherAmount remainder_index)).sum)
      (outputsFor api remainder_index recipients), lockTime⟩ := by
    split_ifs at hsigned
    · exact hw.sign _ _ hsigned
    · rw [← Option.some.inj hsigned]
      exact SamePayment.refl _
  have hprevouts : result.tx.vin.map (·.prevout) = w.sendAllInputs control := by
    have := congrArg (List.map Prod.fst) hpay.1
    simpa [Function.comp_def, hvin] using this
  have hvout := hpay.2.1
  have hall : ∀ output ∈ result.tx.vout, w.isDust output = false := by
    rw [hvout]
    simpa using hdust
  have hvalue : (result.tx.vin.map fun input => w.valueOf input.prevout).sum =
      ((w.sendAllInputs control).map w.valueOf).sum := by
    rw [← hprevouts, List.map_map]
    rfl
  refine ⟨?_, ?_, ?_, ?_, ?_, ?_, ⟨?_, ?_⟩, hall, hmaximum⟩
  · rw [hprevouts]
    exact nodup_sendAllInputs hw control
  · rw [hprevouts]
    exact mem_sendAllInputs
  · rw [hvout]
    exact withRemainder_scripts
  · intro i recipient output hi ho hne
    rw [hvout] at ho
    exact withRemainder_amount hlow hi ho hne
  · rw [hvalue, hvout, withRemainder_sum hlow hhigh]
    linarith
  · rw [hvalue]
    exact hfits
  · rw [hfee]
    exact (CoreWallet.feeOf_nonneg hw _ control hsize).1
  · intro output ho
    have := hall output ho
    simp only [CoreWallet.isDust, decide_eq_false_iff_not] at this
    exact Int.le_trans (hw.dust _).1 (Int.not_lt.mp this)

/-- With the recipients of a form, the sums overflow where the inputs' values or the fixed amounts are too many to
add up. -/
theorem form_overflow_iff {api : AddressApi} {w : CoreWallet} (hw : LawfulCore w)
    {rows : List SendRecipientFields} {maximum : Option Nat} {recipients : List CRecipient}
    (hbuild : WalletQmlModel.buildRecipients api (rows.map (·.row)) maximum = some recipients)
    {remainder_index : Int} (hmax : ∀ j ∈ maximum, (j : Int) = remainder_index)
    (control : SendControl) (sign : Bool) (lockTime : Nat) :
    createSendAllTransaction api (some w) recipients control remainder_index sign lockTime =
        .error .signedOverflow ↔
      ReachesSums w recipients control remainder_index ∧ ¬AmountsFit w recipients control remainder_index :=
  createSendAll_overflow_iff hw (fun _ hp => otherAmount_nonneg hbuild hmax hp) sign lockTime

/-! ### A form with one coin -/

/-- A wallet with one confirmed coin of all the money there is. -/
def oneCoin : CoreWallet where
  getMinimumFeeRate control := (control.m_feerate.getD 1000, false)
  m_allow_fallback_fee := false
  availableCoins _ _ := [⟨1, 0⟩]
  getWalletTx hash := if hash = 1 then some ⟨2, [], [⟨MAX_MONEY, [0]⟩], 0⟩ else none
  isSpent _ := false
  isMine output := output.scriptPubKey = [0]
  getTxDepthInMainChain _ := 6
  m_signal_rbf := true
  calculateMaximumSignedTxSize tx _ :=
    ⟨11 + 68 * tx.vin.length + 31 * tx.vout.length, 42 + 272 * tx.vin.length + 124 * tx.vout.length⟩
  getFee rate vsize := max 0 (min (rate * vsize / 1000) MAX_MONEY)
  calculateCombinedBumpFee _ _ := some 0
  m_default_max_tx_fee := 10000000
  getDustThreshold _ := 294
  signTransaction tx := some { tx with vin := tx.vin.map fun i => { i with scriptWitness := [[1]] } }

theorem oneCoin_lawful : LawfulCore oneCoin where
  fee control vsize _ := by
    simp only [oneCoin, InMoneyRange, MAX_MONEY]
    omega
  bump _ _ fee hfee := by
    obtain rfl : 0 = fee := by simpa [oneCoin] using hfee
    simp [InMoneyRange, MAX_MONEY]
  dust _ := by simp [oneCoin, InMoneyRange, MAX_MONEY]
  coins _ _ := by simp [oneCoin]
  sign tx signed h := by
    obtain rfl := Option.some.inj h
    exact ⟨by simp [Function.comp_def], rfl, rfl, rfl⟩

/-- Addresses that are the scripts' own characters. -/
def plainAddresses : AddressApi where
  decodeDestination address := if address.isEmpty then none else some address
  encodeDestination destination := destination
  scriptForDestination destination := destination.toList.map fun c => c.toNat.toUInt8
  extractDestination _ := none
  isUnspendable _ := false
  trimmed text := text

theorem createSendAll_ok_two_rows :
    ∃ result, createSendAllTransaction plainAddresses (some oneCoin) [⟨"a", 5000, false⟩, ⟨"b", 0, false⟩] {} 1 true
        0 = .ok result ∧
      SendsAll plainAddresses oneCoin [⟨"a", 5000, false⟩, ⟨"b", 0, false⟩] {} 1 result :=
  ⟨_, rfl, @createSendAll_ok plainAddresses oneCoin oneCoin_lawful _ _ _ true 0 _ rfl⟩

end GuiQml.Wallet
