import GuiQml.Wallet.SendAll

/-!
# Fee previews

The previews of `walletqmlmodel.cpp`: what `requestFeeEstimatesNow` works out for every fee option of
the send form, and the one that the form shows.
-/

namespace GuiQml.Wallet

open GuiQml.Int64

variable {Psbt : Type}

structure SendFeePreview where
  fee : CAmount := 0
  inputs : Nat := 0
  rate_per_kvb : CAmount := 0
  maximum_amount : Option CAmount := none
  sweeps_wallet : Bool := false
  deriving DecidableEq, Repr

/-- The parts of `interfaces::Wallet` that a preview asks. -/
structure WalletInterface where
  wallet : Option CoreWallet
  createTransaction :
    List CRecipient → SendControl → Bool → Except String CreatedTransactionResult
  getMinimumFee : Nat → SendControl → CAmount
  getRequiredFee : Nat → CAmount
  getDefaultAddressType : OutputType

def FEE_RATE_BASIS_VBYTES : Nat := 1000

def STANDARD_FEE_TARGETS : List Nat := [2, WalletQmlModel.defaultStandardFeeTarget, 10]

def fallbackFeeMultiplier (target : Nat) : Int :=
  match STANDARD_FEE_TARGETS.findIdx? (· = target) with
  | some i => STANDARD_FEE_TARGETS.length - i
  | none => 1

def amountPlusFeeExceedsBalance (amount fee balance : CAmount) : Bool :=
  if balance < amount then true else balance - amount < fee

def transactionSweepsAvailableFunds (wallet : Option CoreWallet) (tx : Transaction)
    (control : SendControl) : Bool :=
  match wallet with
  | none => false
  | some w =>
    if tx.vout.any w.isMine then false
    else
      let available := w.availableSendAllCoins control
      !available.isEmpty && available.all fun coin => tx.vin.any fun input => input.prevout = coin

/-! ## The coin control of a preview -/

def SendControl.applySelectedInputsPolicy (control : SendControl) : SendControl :=
  { control with toCCoinControl := WalletQmlModel.applySelectedInputsPolicy control.toCCoinControl }

def SendControl.applyRegtestStaticFeeOverride (a : WalletAnswers Psbt) (control : SendControl) :
    SendControl :=
  { control with
    toCCoinControl := WalletQmlModel.applyRegtestStaticFeeOverride a control.toCCoinControl }

/-- `dummy` are the destinations of each type for a dummy key. -/
def previewChangeDestination (dummy : OutputType → Destination) : OutputType → Option Destination
  | .unknown => none
  | change_type => some (dummy change_type)

def SendControl.applyPreviewChangeDestination (dummy : OutputType → Destination)
    (change_type : OutputType) (control : SendControl) : SendControl :=
  match previewChangeDestination dummy change_type with
  | none => control
  | some destination => { control with destChange := some destination }

/-! ## One preview -/

/-- The values of the selected inputs, or nothing when one of them is no longer available. -/
def CoreWallet.sumSelected (w : CoreWallet) : List OutPoint → CAmount → Option CAmount
  | [], total => some total
  | input :: rest, total => do
    let output ← w.findOutput input
    if w.isSpent input || !w.isMine output then none
    else
      let total ← (add total output.nValue).toOption
      w.sumSelected rest total

def sumAmounts : List CRecipient → CAmount → Option CAmount
  | [], total => some total
  | recipient :: rest, total => do
    let total ← (add total recipient.nAmount).toOption
    sumAmounts rest total

/-- No value stands also for a sum that overflows. -/
def estimateInsufficientSelectedInputsFee (api : AddressApi) (wallet : Option CoreWallet)
    (recipients : List CRecipient) (control : SendControl) : Option SendFeePreview := do
  let w ← wallet
  let (rate, fallback) := w.getMinimumFeeRate control
  let inputs := control.listSelected
  if inputs.isEmpty || control.m_allow_other_inputs || rate ≤ 0 ||
      control.m_feerate.any (· < rate) || (fallback && !w.m_allow_fallback_fee) then none
  else
    let input_amount ← w.sumSelected inputs 0
    let send_amount ← sumAmounts recipients 0
    let tx : Transaction := ⟨control.m_version, inputs.map fun input => ⟨input, [], 0xffffffff, []⟩,
      recipients.map fun recipient =>
        ⟨recipient.nAmount, api.scriptForDestination recipient.dest⟩, 0⟩
    let size := w.calculateMaximumSignedTxSize tx (some control)
    if size.vsize < 0 then none
    else
      let fee ← (add (w.getFee rate size.vsize)
        ((w.calculateCombinedBumpFee inputs rate).getD 0)).toOption
      if amountPlusFeeExceedsBalance send_amount fee input_amount then
        some { fee, inputs := inputs.length, rate_per_kvb := rate }
      else none

section Previews

variable (api : AddressApi) (i : WalletInterface) (recipients : List CRecipient)

/-- `lockTime` is picked for the transaction that the preview builds and drops. -/
def tryPreviewFee (coin_control : SendControl) (remainder_index : Int) (lockTime : Nat) :
    Option SendFeePreview :=
  let result :=
    if 0 ≤ remainder_index then
      (createSendAllTransaction api i.wallet recipients coin_control remainder_index false
        lockTime).toOption
    else (i.createTransaction recipients coin_control false).toOption
  match result with
  | none =>
    if remainder_index < 0 then
      estimateInsufficientSelectedInputsFee api i.wallet recipients coin_control
    else none
  | some result =>
    some {
      fee := result.fee
      inputs := result.tx.vin.length
      rate_per_kvb :=
        coin_control.m_feerate.getD (i.getMinimumFee FEE_RATE_BASIS_VBYTES coin_control)
      maximum_amount :=
        if 0 ≤ remainder_index then result.tx.vout[remainder_index.toNat]?.map (·.nValue) else none
      sweeps_wallet := result.change_pos.isNone &&
        transactionSweepsAvailableFunds i.wallet result.tx coin_control }

variable (dummy : OutputType → Destination) (base_coin_control : SendControl)
  (preview_change_type : OutputType)

def estimateCoinControl (a : WalletAnswers Psbt) (target : Nat) : SendControl :=
  let control := base_coin_control.applySelectedInputsPolicy
  let control := { control with m_feerate := none, m_confirm_target := some target }
  (control.applyPreviewChangeDestination dummy preview_change_type).applyRegtestStaticFeeOverride a

def estimatePreviewFee (a : WalletAnswers Psbt) (target : Nat) (remainder_index : Int)
    (lockTime : Nat) : Option SendFeePreview :=
  let coin_control := estimateCoinControl dummy base_coin_control preview_change_type a target
  match tryPreviewFee api i recipients coin_control remainder_index lockTime with
  | some fee => some fee
  | none =>
    -- A maximum amount must use the same fee policy as final construction.
    if 0 ≤ remainder_index ∨ a.isRegtest then none
    else
      let required_fee_per_k := i.getRequiredFee FEE_RATE_BASIS_VBYTES
      if required_fee_per_k ≤ 0 then none
      else
        let fallback_coin_control := { coin_control with
          m_confirm_target := none
          m_feerate := some (required_fee_per_k * fallbackFeeMultiplier target) }
        tryPreviewFee api i recipients fallback_coin_control remainder_index lockTime

def customCoinControl (fee_rate_per_kvb : CAmount) : SendControl :=
  let control := base_coin_control.applySelectedInputsPolicy
  let control := { control with
    m_confirm_target := none, m_feerate := some fee_rate_per_kvb, fOverrideFeeRate := true }
  control.applyPreviewChangeDestination dummy preview_change_type

def estimateCustomPreviewFee (fee_rate_per_kvb : CAmount) (remainder_index : Int)
    (lockTime : Nat) : Option SendFeePreview :=
  tryPreviewFee api i recipients
    (customCoinControl dummy base_coin_control preview_change_type fee_rate_per_kvb)
    remainder_index lockTime

end Previews

/-! ## The previews of the form -/

/-- `m_fee_estimates` and `m_custom_fee_estimate`. -/
structure FeeEstimates where
  m_fee_estimates : List (Nat × SendFeePreview) := []
  m_custom_fee_estimate : Option SendFeePreview := none

section Form

variable (api : AddressApi) (i : WalletInterface) (dummy : OutputType → Destination)
  (a : WalletAnswers Psbt) (m_coin_control : SendControl)

/-- The estimates for a form with the rows `rows`. An index of -1 stands for no maximum row. -/
def requestFeeEstimatesNow (rows : List SendRecipient) (maximum : Option Nat) (lockTime : Nat) :
    FeeEstimates :=
  if !a.hasWallet then {}
  else match WalletQmlModel.buildRecipients api rows maximum with
  | none => {}
  | some recipients =>
    let remainder_index : Int := maximum.elim (-1) Nat.cast
    let preview_change_type := m_coin_control.m_change_type.getD i.getDefaultAddressType
    { m_fee_estimates := STANDARD_FEE_TARGETS.filterMap fun target =>
        (estimatePreviewFee api i recipients dummy m_coin_control preview_change_type a target
          remainder_index lockTime).map (target, ·)
      m_custom_fee_estimate :=
        if a.customFeeEnabled then a.customFeeRatePerKvB.bind fun rate =>
          estimateCustomPreviewFee api i recipients dummy m_coin_control preview_change_type rate
            remainder_index lockTime
        else none }

def feeTargetBlocks : Nat :=
  m_coin_control.m_confirm_target.getD WalletQmlModel.defaultStandardFeeTarget

def selectedFeePreview (estimates : FeeEstimates) : Option SendFeePreview :=
  if a.customFeeEnabled then
    if a.customFeeRatePerKvB.isSome then estimates.m_custom_fee_estimate else none
  else estimates.m_fee_estimates.lookup (feeTargetBlocks m_coin_control)

/-- The preview of the fee option that the form has selected. -/
def previewFor (recipients : List CRecipient) (remainder_index : Int) (lockTime : Nat) :
    Option SendFeePreview :=
  let preview_change_type := m_coin_control.m_change_type.getD i.getDefaultAddressType
  if a.customFeeEnabled then a.customFeeRatePerKvB.bind fun rate =>
    estimateCustomPreviewFee api i recipients dummy m_coin_control preview_change_type rate
      remainder_index lockTime
  else
    estimatePreviewFee api i recipients dummy m_coin_control preview_change_type a
      (feeTargetBlocks m_coin_control) remainder_index lockTime

end Form

def SendAllFailure.text : SendAllFailure → String
  | .signedOverflow => ""
  | .error text => text

/-- The answers of a wallet whose `CreateSendAllTransaction` works on `wallet`. -/
def WalletAnswers.withSendAll (a : WalletAnswers Psbt) (api : AddressApi)
    (wallet : Option CoreWallet) (m_coin_control : SendControl) (lockTime : Nat) :
    WalletAnswers Psbt :=
  { a with
    coinControl := m_coin_control.toCCoinControl
    createSendAllTransaction := fun recipients control remainder_index sign =>
      (Wallet.createSendAllTransaction api wallet recipients
        { m_coin_control with toCCoinControl := control } remainder_index sign lockTime).mapError
        SendAllFailure.text }

end GuiQml.Wallet
