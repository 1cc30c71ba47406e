import Mathlib.Algebra.Ring.Int.Defs
import Mathlib.Data.List.Basic

/-!
# Transactions and the reviewed draft

The parts of a transaction that the send flow reads, and `walletqmlmodeltransaction.cpp`. Core's
script and address functions are the fields of `AddressApi`.
-/

namespace GuiQml.Wallet

/-! ## Transactions -/

abbrev CAmount := Int
abbrev Script := List UInt8
abbrev Address := String

structure OutPoint where
  hash : Nat
  n : Nat
  deriving DecidableEq, Repr

structure TxIn where
  prevout : OutPoint
  scriptSig : Script
  nSequence : Nat
  scriptWitness : List Script
  deriving DecidableEq, Repr

structure TxOut where
  nValue : CAmount
  scriptPubKey : Script
  deriving DecidableEq, Repr

structure Transaction where
  version : Nat
  vin : List TxIn
  vout : List TxOut
  nLockTime : Nat
  deriving DecidableEq, Repr

def TxIn.clearScripts (input : TxIn) : TxIn := { input with scriptSig := [], scriptWitness := [] }

def clearTransactionInputScripts (tx : Transaction) : Transaction :=
  { tx with vin := tx.vin.map TxIn.clearScripts }

/-- The same inputs, outputs, version and lock time. Signatures may differ. -/
def SamePayment (a b : Transaction) : Prop :=
  a.vin.map (fun i => (i.prevout, i.nSequence)) = b.vin.map (fun i => (i.prevout, i.nSequence)) ∧
    a.vout = b.vout ∧ a.version = b.version ∧ a.nLockTime = b.nLockTime

theorem SamePayment.refl (a : Transaction) : SamePayment a a := ⟨rfl, rfl, rfl, rfl⟩

theorem SamePayment.symm {a b : Transaction} (h : SamePayment a b) : SamePayment b a :=
  ⟨h.1.symm, h.2.1.symm, h.2.2.1.symm, h.2.2.2.symm⟩

theorem SamePayment.trans {a b c : Transaction} (h : SamePayment a b) (h' : SamePayment b c) :
    SamePayment a c :=
  ⟨h.1.trans h'.1, h.2.1.trans h'.2.1, h.2.2.1.trans h'.2.2.1, h.2.2.2.trans h'.2.2.2⟩

theorem samePayment_clear (tx : Transaction) :
    SamePayment (clearTransactionInputScripts tx) tx := by
  refine ⟨?_, rfl, rfl, rfl⟩
  simp [clearTransactionInputScripts, TxIn.clearScripts, Function.comp_def]

/-! ## Addresses -/

abbrev Destination := String

/-- Core's address functions and the Qt one used beside them. -/
structure AddressApi where
  /-- No value where `IsValidDestination` fails. -/
  decodeDestination : Address → Option Destination
  encodeDestination : Destination → Address
  scriptForDestination : Destination → Script
  extractDestination : Script → Option Destination
  isUnspendable : Script → Bool
  trimmed : String → String

/-- The letters and digits of the two alphabets of addresses. -/
def isBitcoinAddressChar (c : Char) : Bool :=
  ('0' ≤ c && c ≤ '9') || ('a' ≤ c && c ≤ 'z') || ('A' ≤ c && c ≤ 'Z' && c != 'I' && c != 'O')

def MAX_BITCOIN_ADDRESS_LENGTH : Nat := 90

/-- What `BitcoinAddress::setAddress` keeps of a text. -/
def setAddress (input : String) : Address :=
  String.ofList ((input.toList.filter isBitcoinAddressChar).take MAX_BITCOIN_ADDRESS_LENGTH)

/-- A row of the send form. `isValid` stands for the two checks the row makes of its own fields. -/
structure SendRecipient where
  address : Address
  label : String
  message : String
  cAmount : CAmount
  isValid : Bool
  hasPaymentRequest : Bool
  deriving DecidableEq, Repr

/-- The row left by `SendRecipientsListModel::clear`. -/
def SendRecipient.blank : SendRecipient := ⟨"", "", "", 0, false, false⟩

/-! ## The draft shown for review -/

structure ReviewedRecipient where
  address : Address
  label : String
  amount : CAmount
  paymentRequest : Bool
  deriving DecidableEq, Repr

structure WalletQmlModelTransaction where
  m_recipient_labels : List (Address × String)
  m_amount : CAmount
  m_fee : CAmount := 0
  m_wtx : Option Transaction := none
  m_reviewed_recipients : List ReviewedRecipient := []
  m_review_target_blocks : Int := 0
  m_review_fee_rate : String := ""
  deriving DecidableEq, Repr

namespace WalletQmlModelTransaction

/-- The constructor. A later row with the same address replaces the label of an earlier one. -/
def new (api : AddressApi) (recipients : List SendRecipient) : WalletQmlModelTransaction where
  m_recipient_labels := recipients.foldl (fun labels entry =>
    if (api.trimmed entry.label).isEmpty then labels
    else labels.filter (·.1 ≠ entry.address) ++ [(entry.address, entry.label)]) []
  m_amount := (recipients.map (·.cAmount)).sum

def setWtx (t : WalletQmlModelTransaction) (newTx : Transaction) : WalletQmlModelTransaction :=
  { t with m_wtx := some newTx }

def setTransactionFee (t : WalletQmlModelTransaction) (newFee : CAmount) :
    WalletQmlModelTransaction := { t with m_fee := newFee }

def setReviewFeeDetails (t : WalletQmlModelTransaction) (targetBlocks : Int) (feeRate : String) :
    WalletQmlModelTransaction :=
  { t with m_review_target_blocks := targetBlocks, m_review_fee_rate := feeRate }

/-- The sum of all outputs but the change. -/
def reassignAmounts (t : WalletQmlModelTransaction) (nChangePosRet : Int) :
    WalletQmlModelTransaction :=
  match t.m_wtx with
  | none => t
  | some tx => { t with m_amount :=
      ((tx.vout.zipIdx.filter fun p => (p.2 : Int) ≠ nChangePosRet).map (·.1.nValue)).sum }

/-- The inner loop of `captureReviewedRecipients`: the first unused output with the script and the
amount, or else the first unused one with the script. -/
def matchOutput (script : Script) (amount : CAmount) :
    List ((TxOut × Bool) × Nat) → Option Nat → Option Nat
  | [], found => found
  | ((out, used), i) :: rest, found =>
    if used || out.scriptPubKey ≠ script then matchOutput script amount rest found
    else if out.nValue = amount then some i
    else matchOutput script amount rest (found.or (some i))

/-- The outer loop: `used` marks the outputs taken by earlier rows. -/
def matchRecipients (api : AddressApi) (vout : List TxOut) :
    List SendRecipient → List Bool → Option (List ReviewedRecipient)
  | [], _ => some []
  | recipient :: rest, used => do
    let destination ← api.decodeDestination recipient.address
    let script := api.scriptForDestination destination
    let i ← matchOutput script recipient.cAmount (vout.zip used).zipIdx none
    let out ← vout[i]?
    let snapshot ← matchRecipients api vout rest (used.set i true)
    some (⟨recipient.address, recipient.label, out.nValue, recipient.hasPaymentRequest⟩ :: snapshot)

def captureReviewedRecipients (api : AddressApi) (t : WalletQmlModelTransaction)
    (recipients : List SendRecipient) : Option WalletQmlModelTransaction := do
  let tx ← t.m_wtx
  let snapshot ← matchRecipients api tx.vout recipients (List.replicate tx.vout.length false)
  some { t with m_reviewed_recipients := snapshot }

@[simp] theorem setWtx_m_wtx (t : WalletQmlModelTransaction) (tx : Transaction) :
    (t.setWtx tx).m_wtx = some tx := rfl

@[simp] theorem setTransactionFee_m_wtx (t : WalletQmlModelTransaction) (fee : CAmount) :
    (t.setTransactionFee fee).m_wtx = t.m_wtx := rfl

@[simp] theorem setReviewFeeDetails_m_wtx (t : WalletQmlModelTransaction) (n : Int) (r : String) :
    (t.setReviewFeeDetails n r).m_wtx = t.m_wtx := rfl

@[simp] theorem reassignAmounts_m_wtx (t : WalletQmlModelTransaction) (n : Int) :
    (t.reassignAmounts n).m_wtx = t.m_wtx := by
  unfold reassignAmounts
  split <;> rfl

@[simp] theorem setTransactionFee_m_fee (t : WalletQmlModelTransaction) (fee : CAmount) :
    (t.setTransactionFee fee).m_fee = fee := rfl

@[simp] theorem setReviewFeeDetails_m_fee (t : WalletQmlModelTransaction) (n : Int) (r : String) :
    (t.setReviewFeeDetails n r).m_fee = t.m_fee := rfl

@[simp] theorem reassignAmounts_m_fee (t : WalletQmlModelTransaction) (n : Int) :
    (t.reassignAmounts n).m_fee = t.m_fee := by
  unfold reassignAmounts
  split <;> rfl

theorem captureReviewedRecipients_m_wtx {api : AddressApi} {t t' : WalletQmlModelTransaction}
    {recipients : List SendRecipient} (h : captureReviewedRecipients api t recipients = some t') :
    t'.m_wtx = t.m_wtx := by
  simp only [captureReviewedRecipients, Option.bind_eq_bind, Option.bind_eq_some_iff,
    Option.some.injEq] at h
  obtain ⟨tx, -, snapshot, -, rfl⟩ := h
  rfl

end WalletQmlModelTransaction

end GuiQml.Wallet
