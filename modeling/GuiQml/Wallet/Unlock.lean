import GuiQml.Lib.Program
import GuiQml.Wallet.Send

/-!
# Unlocking for one action

`walletunlock.cpp` and the three operations that take a passphrase: `prepareTransactionInternal` and
`sendTransactionInternal` of `walletqmlmodel.cpp`, and `confirmFeeBumpInternal` of
`bumptransactionmodel.cpp`. Every call of the unlocked wallet may throw. Nobody else locks or unlocks the
wallet meanwhile.
-/

namespace GuiQml.Wallet.Unlock

open Program

variable {Psbt Model : Type}

/-- What a wallet is asked to do. -/
inductive Ask
  | unlock
  | lock
  | getAvailableBalance
  | createTransaction (sign : Bool)
  | createSendAllTransaction (sign : Bool)
  | transactionSweepsAvailableFunds
  | fillPSBT (sign : Bool)
  | commitTransaction
  | setAddressBook
  | transactionCanBeBumped
  | signBumpTransaction
  | commitBumpTransaction
  deriving DecidableEq, Repr

def Ask.signs : Ask → Bool
  | .createTransaction sign | .createSendAllTransaction sign | .fillPSBT sign => sign
  | .signBumpTransaction => true
  | _ => false

def Ask.commits : Ask → Bool
  | .commitTransaction | .commitBumpTransaction => true
  | _ => false

/-- One call of an operation: the model, the wallet's lock and the passphrase of the call. -/
structure Session (Model : Type) where
  model : Model
  isCrypted : Bool
  isLocked : Bool
  /-- What the model shows of the two. -/
  m_is_encrypted : Bool := false
  m_is_locked : Bool := false
  /-- The bytes in the buffer of the passphrase, while there is one. -/
  passphrase : Option (List UInt8) := none
  /-- What was left in buffers that are gone. -/
  freed : List (List UInt8) := []
  /-- `m_active` of the guard, false where there is no guard. -/
  m_active : Bool := false
  /-- What the wallet was asked, in that order. -/
  asked : List Ask := []

def secureStringFromQString (value : String) : List UInt8 := value.toUTF8.toList

/-- `ClearSecureString`, on the bytes of the buffer. -/
def clearSecureString (value : List UInt8) : List UInt8 := List.replicate value.length 0

namespace Session

variable (s : Session Model)

def clearPassphrase : Session Model := { s with passphrase := s.passphrase.map clearSecureString }

/-- `passphrase.reset()`, and what becomes of the parameter when the call ends. -/
def resetPassphrase : Session Model :=
  { s with passphrase := none, freed := s.freed ++ s.passphrase.toList }

def refreshSecurityState (hasWallet : Bool) : Session Model :=
  { s with
    m_is_encrypted := hasWallet && s.isCrypted
    m_is_locked := hasWallet && s.isLocked }

/-- `WalletRelockGuard::relock`, also on every way out of the guard's scope. -/
def relock (refresh_security_state : Session Model → Session Model) : Session Model :=
  if s.m_active then
    let s := refresh_security_state
      { s with isLocked := s.isLocked || s.isCrypted, asked := s.asked ++ [.lock] }
    { s with m_active := false }
  else s

end Session

section Programs

-- The exception of a call of the wallet, if it throws one.
variable (throws : Ask → Option String)

def ask (call : Ask) : Program (Session Model) Unit := do
  modify fun s => { s with asked := s.asked ++ [call] }
  match throws call with
  | some what => throw what
  | none => return

def getModel : Program (Session Model) Model := return (← get).model

def setModel (model : Model) : Program (Session Model) Unit := modify fun s => { s with model }

/-- What is done where there is nothing to unlock: the passphrase is wiped and reset, if there is one. -/
def dropPassphrase : Program (Session Model) Unit := modify fun s => s.clearPassphrase.resetPassphrase

/-- Whether the wallet is locked and there is no passphrase for it. -/
def needsPassphrase (privateKeysDisabled : Bool) : Program (Session Model) Bool := do
  let s ← get
  return !privateKeysDisabled && s.isCrypted && s.isLocked && s.passphrase.isNone

-- Whether the wallet unlocks with these bytes.
variable (unlocks : List UInt8 → Bool)

def tryUnlockWithPassphrase : Program (Session Model) WalletUnlockResult := do
  let s ← get
  if !s.isCrypted || !s.isLocked then
    modify Session.clearPassphrase
    return .alreadyUnlocked
  let unlocked := unlocks (s.passphrase.getD [])
  modify fun s => { s with isLocked := s.isLocked && !unlocked, asked := s.asked ++ [.unlock] }
  modify Session.clearPassphrase
  return if unlocked then .unlockedNowRelockRequired else .incorrectPassphrase

/-- Whether to lock again, or nothing where the passphrase was wrong. -/
def unlockWith (incorrect : Model → Model) (unlocked : Session Model → Session Model) :
    Program (Session Model) (Option Bool) := do
  let s ← get
  if s.passphrase.isNone then
    return some false
  let result ← tryUnlockWithPassphrase unlocks
  modify Session.resetPassphrase
  match result with
  | .incorrectPassphrase =>
    modify fun s => { s with model := incorrect s.model }
    return none
  | .alreadyUnlocked => return some false
  | .unlockedNowRelockRequired =>
    modify unlocked
    return some true

/-- The scope of a guard. What it does by hand is to relock earlier. -/
def withRelockGuard {α : Type} (refresh_security_state : Session Model → Session Model) (active : Bool)
    (body : Program (Session Model) Unit → Program (Session Model) α) : Program (Session Model) α := do
  modify fun s => { s with m_active := active }
  ensure (·.relock refresh_security_state) (body (modify (·.relock refresh_security_state)))

/-! ## Preparing and sending -/

section Wallet

variable (api : AddressApi) (psbtApi : PsbtApi Psbt) (a : WalletAnswers Psbt)

abbrev WalletProgram (Psbt α : Type) := Program (Session (WalletQmlModel Psbt)) α

def setTransactionStatus (error : String) (needs_unlock : Bool := false) : WalletProgram Psbt Unit := do
  setModel ((← getModel).setTransactionStatus error needs_unlock)

/-- The wallet is there. -/
def unlockForAction : WalletProgram Psbt (Option Bool) :=
  unlockWith unlocks (·.setTransactionStatus "The wallet password you entered was incorrect.")
    (·.refreshSecurityState true)

/-- `prepareTransactionInternal` from the coin control on, under the guard. -/
def createUnlocked (vec_send : List CRecipient) (relock : WalletProgram Psbt Unit) :
    WalletProgram Psbt Bool := do
  let s ← getModel
  match WalletQmlModel.prepareCoinControl a with
  | none => return false
  | some control =>
    ask throws .getAvailableBalance
    if s.m_maximum_recipient = none ∧ a.getAvailableBalance control < (vec_send.map (·.nAmount)).sum then
      relock
      setTransactionStatus (WalletQmlModel.insufficientFundsText control)
      return false
    let sign := !a.privateKeysDisabled
    ask throws (if s.m_maximum_recipient.isSome then .createSendAllTransaction sign else .createTransaction sign)
    match s.createForReview a vec_send control with
    | .error e =>
      relock
      setTransactionStatus e
      return false
    | .ok result =>
      let out := s.adoptPrepared api a control result
      setModel { s with
        m_send_recipients := out.state.m_send_recipients
        m_current_transaction := some (WalletQmlModelTransaction.new api out.state.m_send_recipients)
        m_current_psbt := none
        m_current_transaction_source := .sendDraft }
      if result.change_pos.isNone then
        ask throws .transactionSweepsAvailableFunds
      setModel out.state
      if out.result then
        relock
        return true
      -- The recipients do not match, and only the guard relocks.
      return false

def prepareTransactionInternal : WalletProgram Psbt Bool := do
  setTransactionStatus ""
  let s ← getModel
  if a.hasWallet && !a.available then
    dropPassphrase
    setTransactionStatus "This wallet is closing."
    return false
  if !a.hasWallet || s.m_send_recipients.isEmpty then
    dropPassphrase
    setTransactionStatus "Enter at least one valid recipient to continue."
    return false
  if !WalletQmlModel.allValid api s.m_send_recipients then
    dropPassphrase
    setTransactionStatus (WalletQmlModel.validationError api s.m_send_recipients)
    return false
  match WalletQmlModel.buildRecipients api s.m_send_recipients s.m_maximum_recipient with
  | none =>
    dropPassphrase
    setTransactionStatus "Enter at least one valid recipient to continue."
    return false
  | some vec_send =>
    if ← needsPassphrase a.privateKeysDisabled then
      modify (·.refreshSecurityState true)
      setTransactionStatus "Enter your wallet password to prepare this transaction." true
      return false
    match ← unlockForAction unlocks with
    | none => return false
    | some relock =>
      withRelockGuard (·.refreshSecurityState true) relock (createUnlocked throws api a vec_send)

/-- The wallet commits a transaction that is signed, and the labels of the draft are saved. -/
def commit (current : WalletQmlModelTransaction) (after : WalletQmlModel Psbt → WalletQmlModel Psbt) :
    WalletProgram Psbt Bool := do
  ask throws .commitTransaction
  let s ← getModel
  (s.saveSentRecipientLabels api a current).forM fun _ => ask throws .setAddressBook
  setModel (after s)
  return true

/-- The PSBT that the unlocked wallet signs, under the guard. -/
def signUnlocked (psbt : Psbt) (relock : WalletProgram Psbt Unit) :
    WalletProgram Psbt (Option Transaction) := do
  ask throws (.fillPSBT true)
  match a.fillPSBT ⟨true, true⟩ psbt with
  | .threw what => throw what
  | .error e =>
    setTransactionStatus (a.psbtErrorText e)
    return none
  | .filled psbt complete _ =>
    match complete, (psbtApi.finalizeAndExtractPSBT psbt).2 with
    | true, some signed_tx =>
      relock
      return some signed_tx
    | _, _ =>
      setTransactionStatus "Only PSBTs this wallet can fully sign are supported right now."
      return none

/-- The branch of `sendTransactionInternal` with a PSBT. -/
def sendPsbt (current : WalletQmlModelTransaction) (psbt : Psbt) : WalletProgram Psbt Bool := do
  let s ← getModel
  if !s.m_current_transaction_can_send then
    dropPassphrase
    setTransactionStatus s.cannotSendText
    return false
  match (psbtApi.finalizeAndExtractPSBT psbt).2 with
  | some signed_tx =>
    dropPassphrase
    commit throws api a current (·.finishDraft current signed_tx true)
  | none =>
    if a.privateKeysDisabled && !a.hasExternalSigner then
      dropPassphrase
      setTransactionStatus "This wallet cannot sign transactions."
      return false
    if ← needsPassphrase a.privateKeysDisabled then
      setTransactionStatus "Enter your wallet password to send this transaction." true
      return false
    match ← unlockForAction unlocks with
    | none => return false
    | some relock =>
      match ← withRelockGuard (·.refreshSecurityState true) relock (signUnlocked throws psbtApi a psbt) with
      | none => return false
      | some signed_tx => commit throws api a current (·.finishDraft current signed_tx true)

/-- The branch without a PSBT. The transaction was signed when it was prepared. -/
def sendPlain (current : WalletQmlModelTransaction) : WalletProgram Psbt Bool := do
  dropPassphrase
  match current.m_wtx with
  | none =>
    setTransactionStatus "Review a transaction before sending it."
    return false
  | some _ =>
    if a.privateKeysDisabled && !a.hasExternalSigner then
      setTransactionStatus "This wallet cannot sign transactions."
      return false
    commit throws api a current fun s => { s with m_current_transaction_source := .none }.clearTransactionStatus

def sendTransactionInternal : WalletProgram Psbt Bool := do
  setTransactionStatus ""
  let s ← getModel
  if a.hasWallet && !a.available then
    dropPassphrase
    setTransactionStatus "This wallet is closing."
    return false
  if !a.hasWallet then
    dropPassphrase
    setTransactionStatus "Review a transaction before sending it."
    return false
  match s.m_current_transaction with
  | none =>
    dropPassphrase
    setTransactionStatus "Review a transaction before sending it."
    return false
  | some current =>
    match s.m_current_psbt with
    | some psbt => sendPsbt throws unlocks api psbtApi a current psbt
    | none => sendPlain throws api a current

end Wallet

/-! ## Raising a fee -/

section Bump

inductive BumpState
  | idle | preparing | needsConfirmation | committing | succeeded | failed
  deriving DecidableEq, Repr

structure BumpTransactionModel where
  m_state : BumpState := .idle
  m_original_txid : String := ""
  m_bump_mtx : Transaction
  m_new_txid : String := ""
  m_error : String := ""
  m_needs_unlock : Bool := false

/-- What the wallet answers to one call. -/
structure BumpAnswers where
  hasWallet : Bool
  privateKeysDisabled : Bool
  transactionCanBeBumped : String → Bool
  signBumpTransaction : Transaction → Option Transaction
  /-- The new id, or the errors. -/
  commitBumpTransaction : String → Transaction → Except (List String) String
  /-- Whether `m_security_state_changed_fn` is set. It refreshes what the wallet model shows. -/
  m_security_state_changed_fn : Bool

namespace BumpTransactionModel

variable (s : BumpTransactionModel)

def setError (error : String) : BumpTransactionModel :=
  { s with m_error := error, m_needs_unlock := false, m_state := .failed }

def setUnlockRequired (error : String) : BumpTransactionModel :=
  { s with m_error := error, m_needs_unlock := true }

end BumpTransactionModel

variable (a : BumpAnswers)

abbrev BumpProgram (α : Type) := Program (Session BumpTransactionModel) α

def securityStateChanged (s : Session BumpTransactionModel) : Session BumpTransactionModel :=
  if a.m_security_state_changed_fn then s.refreshSecurityState true else s

def setError (error : String) : BumpProgram Unit := do
  setModel ((← getModel).setError error)

/-- The wallet is there. -/
def unlockForCommit : BumpProgram (Option Bool) :=
  unlockWith unlocks (·.setUnlockRequired "The wallet password you entered was incorrect.")
    (securityStateChanged a)

/-- `confirmFeeBumpInternal` under the guard. What is left of the transaction is not read again. -/
def bumpUnlocked (relock : BumpProgram Unit) : BumpProgram Bool := do
  let s ← getModel
  setModel { s with m_needs_unlock := false, m_state := .committing }
  ask throws .transactionCanBeBumped
  if !a.transactionCanBeBumped s.m_original_txid then
    relock
    setError "Transaction can no longer be bumped."
    return false
  ask throws .signBumpTransaction
  match a.signBumpTransaction s.m_bump_mtx with
  | none =>
    relock
    setError "Failed to sign transaction."
    return false
  | some signed =>
    ask throws .commitBumpTransaction
    match a.commitBumpTransaction s.m_original_txid signed with
    | .error errors =>
      relock
      setError (errors.head?.getD "Failed to commit transaction.")
      return false
    | .ok bumped_txid =>
      relock
      setModel { s with
        m_new_txid := bumped_txid
        m_needs_unlock := false
        m_state := .succeeded }
      return true

def confirmFeeBumpInternal : BumpProgram Bool := do
  let s ← getModel
  if !a.hasWallet || s.m_state ≠ .needsConfirmation then
    dropPassphrase
    return false
  if ← needsPassphrase a.privateKeysDisabled then
    setModel (s.setUnlockRequired "Enter your wallet password to update this transaction.")
    return false
  match ← unlockForCommit unlocks a with
  | none => return false
  | some relock => withRelockGuard (securityStateChanged a) relock (bumpUnlocked throws a)

end Bump

/-! ## Calls -/

/-- A call with a passphrase or without one, up to where its parameter is destroyed. -/
def call (operation : Program (Session Model) Bool) (s : Session Model) (passphrase : Option String) :
    Except String Bool × Session Model :=
  let (result, s) := operation.exec { s with passphrase := passphrase.map secureStringFromQString }
  (result, s.resetPassphrase)

/-- A model and a wallet before a call. -/
def Session.start (model : Model) (isCrypted isLocked m_is_encrypted m_is_locked : Bool) : Session Model where
  model
  isCrypted
  isLocked
  m_is_encrypted
  m_is_locked

end Programs
end GuiQml.Wallet.Unlock
