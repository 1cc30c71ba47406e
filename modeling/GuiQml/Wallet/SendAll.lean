import GuiQml.Lib.Int64
import GuiQml.Wallet.Send

/-!
# Sending everything

`CreateSendAllTransaction` of `walletqmlmodel.cpp`, which pays what is left of the inputs to one of
the recipients. Core's wallet is a `CoreWallet`, the functions of it that the code calls.
-/

namespace GuiQml.Wallet

open GuiQml.Int64

/-! ## The rows of the form -/

def MAX_MONEY : CAmount := 2100000000000000

/-- The fields of a `SendRecipient`. -/
structure SendRecipientFields where
  address : Address
  label : String
  message : String
  satoshi : CAmount
  amountIsSet : Bool
  addressError : String
  amountError : String
  hasPaymentRequest : Bool

namespace SendRecipientFields

def isValid (f : SendRecipientFields) : Bool :=
  f.addressError.isEmpty && f.amountError.isEmpty && decide (0 < f.satoshi) && !f.address.isEmpty

def row (f : SendRecipientFields) : SendRecipient :=
  ⟨f.address, f.label, f.message, f.satoshi, f.isValid, f.hasPaymentRequest⟩

/-- `validateAmount` of a row of a wallet with the cached balance `balanceSatoshi`. -/
def validateAmount (api : AddressApi) (isDust : TxOut → Bool) (balanceSatoshi : CAmount)
    (f : SendRecipientFields) : SendRecipientFields :=
  { f with amountError :=
      if !f.amountIsSet then ""
      else if f.satoshi ≤ 0 then "Amount must be greater than zero"
      else if MAX_MONEY < f.satoshi then "Amount exceeds maximum limit of 21,000,000 BTC"
      else if !f.address.isEmpty && f.addressError.isEmpty &&
          (api.decodeDestination f.address).any fun destination =>
            isDust ⟨f.satoshi, api.scriptForDestination destination⟩ then
        "Amount is too small to send."
      else if balanceSatoshi < f.satoshi then "Amount exceeds available balance"
      else "" }

theorem pos_of_isValid {f : SendRecipientFields} (h : f.isValid = true) : 0 < f.satoshi := by
  simp only [isValid, Bool.and_eq_true, decide_eq_true_eq] at h
  exact h.1.2

end SendRecipientFields

/-! ## Core's wallet -/

inductive OutputType
  | legacy
  | p2shSegwit
  | bech32
  | bech32m
  | unknown
  deriving DecidableEq, Repr

/-- A coin control with the fields that only building a transaction reads. -/
structure SendControl extends CCoinControl where
  destChange : Option Destination := none
  m_change_type : Option OutputType := none
  m_version : Nat := 2

/-- `ListSelected`. The selection is a map, whose keys are the coins. -/
def CCoinControl.listSelected (control : CCoinControl) : List OutPoint := control.selected.dedup

structure CoinFilterParams where
  min_amount : CAmount := 1
  skip_locked : Bool := true

structure TxSize where
  vsize : Int
  weight : Int

/-- A `CWallet` with its chain, as far as the code reads it. A fee rate is its fee per kvB. -/
structure CoreWallet where
  /-- The rate, and whether its reason is `FeeReason::FALLBACK`. -/
  getMinimumFeeRate : SendControl → CAmount × Bool
  m_allow_fallback_fee : Bool
  /-- The outpoints of `AvailableCoins(..).All()`. -/
  availableCoins : SendControl → CoinFilterParams → List OutPoint
  getWalletTx : Nat → Option Transaction
  isSpent : OutPoint → Bool
  isMine : TxOut → Bool
  getTxDepthInMainChain : Transaction → Int
  m_signal_rbf : Bool
  calculateMaximumSignedTxSize : Transaction → Option SendControl → TxSize
  /-- `CFeeRate::GetFee` of a rate and a size. -/
  getFee : CAmount → Int → CAmount
  calculateCombinedBumpFee : List OutPoint → CAmount → Option CAmount
  m_default_max_tx_fee : CAmount
  /-- `GetDustThreshold` at `relayDustFee`. -/
  getDustThreshold : Script → CAmount
  signTransaction : Transaction → Option Transaction

namespace CoreWallet

variable (w : CoreWallet)

def isDust (output : TxOut) : Bool := output.nValue < w.getDustThreshold output.scriptPubKey

def availableSendAllCoins (control : SendControl) : List OutPoint :=
  w.availableCoins { control with selected := [] } { min_amount := 0, skip_locked := true }

/-- The output that an outpoint names, when its transaction is in the wallet. -/
def findOutput (input : OutPoint) : Option TxOut :=
  (w.getWalletTx input.hash).bind (·.vout[input.n]?)

end CoreWallet

/-! ## Building the transaction -/

inductive SendAllFailure
  | signedOverflow
  | error (text : String)
  deriving DecidableEq, Repr

/-- An operation on amounts, inside the construction. -/
def checked : Except Fault CAmount → Except SendAllFailure CAmount
  | .ok n => .ok n
  | .error .signedOverflow => .error .signedOverflow

def TRUC_VERSION : Nat := 3

def MAX_STANDARD_TX_WEIGHT : Int := 400000

def MAX_BIP125_RBF_SEQUENCE : Nat := 0xfffffffd

def MAX_SEQUENCE_NONFINAL : Nat := 0xfffffffe

namespace CoreWallet

variable (w : CoreWallet)

def sendAllInputs (control : SendControl) : List OutPoint :=
  if control.listSelected.isEmpty then w.availableSendAllCoins control else control.listSelected

/-- The checks of one input, and its value. -/
def checkInput (input : OutPoint) : Except SendAllFailure CAmount :=
  match w.getWalletTx input.hash with
  | none => .error (.error "A selected input is no longer available.")
  | some source =>
    match source.vout[input.n]? with
    | none => .error (.error "A selected input is no longer available.")
    | some output =>
      if w.isSpent input || !w.isMine output then
        .error (.error "A selected input is no longer available.")
      else if w.getTxDepthInMainChain source = 0 ∧ source.version = TRUC_VERSION then
        .error (.error "Cannot spend an unconfirmed version 3 input in this transaction.")
      else .ok output.nValue

/-- The loop over the inputs, which adds their values to `total`. -/
def addInputs : List OutPoint → CAmount → Except SendAllFailure (CAmount × List TxIn)
  | [], total => .ok (total, [])
  | input :: rest, total => do
    let value ← w.checkInput input
    let total ← checked (add total value)
    let sequence := if w.m_signal_rbf then MAX_BIP125_RBF_SEQUENCE else MAX_SEQUENCE_NONFINAL
    let (total, vin) ← addInputs rest total
    return (total, ⟨input, [], sequence, []⟩ :: vin)

end CoreWallet

/-- The loop over the recipients from the one with index `i` on. The one with the remainder has no
amount yet. -/
def addOutputs (api : AddressApi) (remainder_index : Int) :
    List CRecipient → Nat → List Destination → CAmount →
      Except SendAllFailure (CAmount × List TxOut)
  | [], _, _, fixed_amount => .ok (fixed_amount, [])
  | recipient :: rest, i, destinations, fixed_amount =>
    if recipient.dest ∈ destinations then
      .error (.error "Each recipient must have a different address when using maximum.")
    else do
      let value := if (i : Int) = remainder_index then 0 else recipient.nAmount
      let fixed_amount ← checked (add fixed_amount value)
      let (fixed_amount, vout) ← addOutputs api remainder_index rest (i + 1)
        (recipient.dest :: destinations) fixed_amount
      return (fixed_amount, ⟨value, api.scriptForDestination recipient.dest⟩ :: vout)

namespace CoreWallet

variable (w : CoreWallet)

/-- `CreateSendAllTransaction` from the dust check on. The lock time is the one that
`DiscourageFeeSniping` picks at random. -/
def checkAndSign (tx : Transaction) (fee : CAmount) (sign : Bool) (lockTime : Nat) :
    Except SendAllFailure CreatedTransactionResult :=
  if tx.vout.any w.isDust then
    .error (.error "The amount after fees is below the dust threshold.")
  else
    let tx := { tx with nLockTime := lockTime }
    match if sign then w.signTransaction tx else some tx with
    | none => .error (.error "Signing transaction failed.")
    | some tx => .ok ⟨tx, fee, none⟩

/-- `CreateSendAllTransaction` from the size of the transaction on. -/
def payRemainder (tx : Transaction) (inputs : List OutPoint) (rate total fixed_amount : CAmount)
    (remainder_index : Nat) (sign : Bool) (lockTime : Nat) :
    Except SendAllFailure CreatedTransactionResult :=
  let size := w.calculateMaximumSignedTxSize tx none
  if size.vsize < 0 then .error (.error "Unable to determine the transaction size.")
  else if MAX_STANDARD_TX_WEIGHT < size.weight then .error (.error "Transaction too large.")
  else do
    let fee ← checked (add (w.getFee rate size.vsize)
      ((w.calculateCombinedBumpFee inputs rate).getD 0))
    if w.m_default_max_tx_fee < fee then
      .error (.error "Transaction fee exceeds the maximum configured fee.")
    else if total ≤ fee then
      .error (.error "Selected inputs do not cover the amount plus fee")
    else
      let left ← checked (sub total fee)
      if left < fixed_amount then
        .error (.error "Selected inputs do not cover the amount plus fee")
      else
        let remainder ← checked (sub left fixed_amount)
        let vout := tx.vout.modify remainder_index fun output => { output with nValue := remainder }
        w.checkAndSign { tx with vout } fee sign lockTime

end CoreWallet

def createSendAllTransaction (api : AddressApi) (wallet : Option CoreWallet)
    (recipients : List CRecipient) (control : SendControl) (remainder_index : Int) (sign : Bool)
    (lockTime : Nat) : Except SendAllFailure CreatedTransactionResult :=
  match wallet with
  | none => .error (.error "Unable to prepare a send-all transaction.")
  | some w =>
    if remainder_index < 0 ∨ recipients.length ≤ remainder_index then
      .error (.error "Unable to prepare a send-all transaction.")
    else
      let (rate, fallback) := w.getMinimumFeeRate control
      if control.m_feerate.any (· < rate) then
        .error (.error "Fee rate is below the minimum fee rate.")
      else if fallback && !w.m_allow_fallback_fee then
        .error (.error "Fee estimation failed. Fallbackfee is disabled.")
      else
        let inputs := w.sendAllInputs control
        if inputs.isEmpty then .error (.error "No available inputs to use maximum.")
        else do
          let (total, vin) ← w.addInputs inputs 0
          let (fixed_amount, vout) ← addOutputs api remainder_index recipients 0 [] 0
          w.payRemainder ⟨control.m_version, vin, vout, 0⟩ inputs rate total fixed_amount
            remainder_index.toNat sign lockTime

end GuiQml.Wallet
