import GuiQml.Wallet.Transaction

/-!
# The send flow of a wallet

The send operations of `walletqmlmodel.cpp`: preparing a transaction, importing a PSBT, approving on
an external signer, saving as a PSBT, sending, broadcasting and discarding. The draft is kept twice,
in `m_current_transaction` and in `m_current_psbt`.

A `PartiallySignedTransaction` is any type with the operations of `PsbtApi`. What the wallet, the
node and the disk answer during one call is a `WalletAnswers`, another one for every call.
-/

namespace GuiQml.Wallet

variable {Psbt : Type}

/-! ## What the code around the wallet model answers -/

/-- Core's functions on a PSBT, and the two of `psbtqmlmodel.cpp` that read one. -/
structure PsbtApi (Psbt : Type) where
  ofTransaction : Transaction → Psbt
  getUnsignedTx : Psbt → Option Transaction
  inputsSize : Psbt → Nat
  outputsSize : Psbt → Nat
  finalizePSBT : Psbt → Psbt × Bool
  finalizeAndExtractPSBT : Psbt → Psbt × Option Transaction
  /-- The fee of `AnalyzePSBT`. -/
  analyzeFee : Psbt → Option CAmount
  countPSBTUnsignedInputs : Psbt → Nat
  multisigPsbtInputSigInfo : Psbt → Nat → Option (Int × Int)

inductive PSBTError
  | externalSignerNotFound
  | externalSignerFailed
  | other (code : Nat)
  deriving DecidableEq, Repr

structure FillOptions where
  sign : Bool
  bip32_derivs : Bool

/-- `fillPSBT` throws, returns an error, or fills the PSBT. -/
inductive FillResult (Psbt : Type)
  | threw (what : String)
  | error (e : PSBTError)
  | filled (psbt : Psbt) (complete : Bool) (n_signed : Nat)

structure CreatedTransactionResult where
  tx : Transaction
  fee : CAmount
  change_pos : Option Nat

structure CRecipient where
  dest : Destination
  nAmount : CAmount
  fSubtractFeeFromAmount : Bool

/-- The coin-control fields that the send flow sets. -/
structure CCoinControl where
  selected : List OutPoint := []
  m_allow_other_inputs : Bool := true
  m_confirm_target : Option Nat := none
  m_feerate : Option CAmount := none
  fOverrideFeeRate : Bool := false

inductive WalletUnlockResult
  | incorrectPassphrase
  | alreadyUnlocked
  | unlockedNowRelockRequired

/-- The answers to one call: of the wallet, the node, the disk and the form's fee settings. -/
structure WalletAnswers (Psbt : Type) where
  hasWallet : Bool
  unloadRequested : Bool
  hasNode : Bool
  hasImportedPsbtModel : Bool
  privateKeysDisabled : Bool
  hasExternalSigner : Bool
  isCrypted : Bool
  isLocked : Bool
  tryUnlockWithPassphrase : String → WalletUnlockResult
  isRegtest : Bool
  defaultTransactionMinFee : CAmount
  customFeeEnabled : Bool
  /-- `ParseCustomFeeRatePerKvB` of the typed rate. -/
  customFeeRatePerKvB : Option CAmount
  feeTargetBlocks : Int
  estimatedFeeRate : String
  coinControl : CCoinControl
  getAvailableBalance : CCoinControl → CAmount
  createTransaction : List CRecipient → CCoinControl → Bool → Except String CreatedTransactionResult
  createSendAllTransaction :
    List CRecipient → CCoinControl → Nat → Bool → Except String CreatedTransactionResult
  transactionSweepsAvailableFunds : Transaction → CCoinControl → Bool
  txinIsMine : TxIn → Bool
  txoutIsMine : TxOut → Bool
  addressLabel : Address → String
  addressBookLabel : Address → Option String
  knowsTransaction : Transaction → Bool
  fillPSBT : FillOptions → Psbt → FillResult Psbt
  psbtErrorText : PSBTError → String
  loadPsbtFromFile : String → Except String Psbt
  savePsbtToFile : Psbt → String → String
  /-- The translated error and the node's own text, or nothing for `TransactionError::OK`. -/
  broadcastTransaction : Transaction → Option (String × String)

def WalletAnswers.available (a : WalletAnswers Psbt) : Bool := a.hasWallet && !a.unloadRequested

/-! ## The state -/

inductive CurrentTransactionSource
  | none
  | sendDraft
  | importedPsbt
  deriving DecidableEq, Repr

structure WalletQmlModel (Psbt : Type) where
  m_send_recipients : List SendRecipient := [SendRecipient.blank]
  m_maximum_recipient : Option Nat := none
  m_current_transaction : Option WalletQmlModelTransaction := none
  m_current_psbt : Option Psbt := none
  m_current_transaction_source : CurrentTransactionSource := .none
  m_current_transaction_can_send : Bool := false
  m_current_transaction_sweeps_wallet : Bool := false
  m_current_transaction_can_broadcast : Bool := false
  m_current_transaction_review_message : String := ""
  m_transaction_error : String := ""
  m_transaction_needs_unlock : Bool := false
  m_imported_psbt_error : String := ""

/-- What a call does outside the model, and the milestones of the draft on the way. -/
inductive Effect (Psbt : Type)
  /-- `createTransaction` or `CreateSendAllTransaction` returned `tx`. -/
  | created (tx : Transaction) (sign : Bool)
  /-- `FinalizeAndExtractPSBT` returned true. -/
  | extracted (tx : Transaction)
  /-- `captureReviewedRecipients` took its snapshot of `tx`. -/
  | captured (tx : Transaction)
  | commitTransaction (tx : Transaction)
  | broadcastTransaction (tx : Transaction) (accepted : Bool)
  | savePsbtToFile (psbt : Psbt)
  | setAddressBook (address : Address) (label : String)
  | currentTransactionChanged
  | externalSignerApprovalFailed (message : String) (signer_not_found : Bool)
  | externalSignerApprovalSucceeded
  | externalSignerApprovalPartiallySucceeded

/-- What a call leaves: the new state, its result and its effects in order. -/
structure Outcome (Psbt ρ : Type) where
  state : WalletQmlModel Psbt
  result : ρ
  effects : List (Effect Psbt)

namespace WalletQmlModel

variable (s : WalletQmlModel Psbt)

def setTransactionStatus (error : String) (needs_unlock : Bool := false) : WalletQmlModel Psbt :=
  { s with m_transaction_error := error, m_transaction_needs_unlock := needs_unlock }

def clearTransactionStatus : WalletQmlModel Psbt := s.setTransactionStatus ""

/-- Set the status and return false. -/
def failWith (error : String) (needs_unlock : Bool := false) : Outcome Psbt Bool :=
  ⟨s.setTransactionStatus error needs_unlock, false, []⟩

/-! ## Preparing -/

/-- `SendRecipientsListModel::allValid`, with the destinations of the rows before. -/
def allValidFrom (api : AddressApi) : List SendRecipient → List (Option Destination) → Bool
  | [], _ => true
  | recipient :: rest, seen =>
    let destination := api.decodeDestination recipient.address
    recipient.isValid && !seen.contains destination && allValidFrom api rest (destination :: seen)

def allValid (api : AddressApi) (recipients : List SendRecipient) : Bool :=
  !recipients.isEmpty && allValidFrom api recipients []

/-- The loop of `validationError`, over rows of a form with `count` of them. -/
def validationErrorFrom (api : AddressApi) (count : Nat) :
    List SendRecipient → List (Option Destination) → String
  | [], _ => ""
  | recipient :: rest, seen =>
    let destination := api.decodeDestination recipient.address
    if !recipient.isValid then
      if count > 1 then "Complete every recipient before continuing." else ""
    else if seen.contains destination then "Recipient addresses must be unique."
    else validationErrorFrom api count rest (destination :: seen)

def validationError (api : AddressApi) (recipients : List SendRecipient) : String :=
  if recipients.isEmpty then "Enter at least one valid recipient to continue."
  else validationErrorFrom api recipients.length recipients []

/-- The row `maximum` may have no amount yet. -/
def buildRecipients (api : AddressApi) (recipients : List SendRecipient) (maximum : Option Nat) :
    Option (List CRecipient) := do
  let vec_send ← recipients.zipIdx.mapM fun (recipient, i) =>
    if maximum ≠ some i ∧ !recipient.isValid then none
    else do
      let destination ← api.decodeDestination recipient.address
      some ⟨destination, recipient.cAmount, false⟩
  if vec_send.isEmpty then none else some vec_send

/-- Manually selected coins should be the only wallet inputs used. -/
def applySelectedInputsPolicy (control : CCoinControl) : CCoinControl :=
  { control with m_allow_other_inputs := control.selected.isEmpty }

def applyRegtestStaticFeeOverride (a : WalletAnswers Psbt) (control : CCoinControl) :
    CCoinControl :=
  if a.isRegtest then
    { control with m_confirm_target := none, m_feerate := some a.defaultTransactionMinFee }
  else control

def defaultStandardFeeTarget : Nat := 6

/-- The coin control of the transaction, or nothing when the custom rate does not parse. -/
def prepareCoinControl (a : WalletAnswers Psbt) : Option CCoinControl :=
  let control := applySelectedInputsPolicy a.coinControl
  if a.customFeeEnabled then
    a.customFeeRatePerKvB.map fun rate =>
      { control with m_confirm_target := none, m_feerate := some rate, fOverrideFeeRate := true }
  else
    some (applyRegtestStaticFeeOverride a { control with
      m_feerate := none
      m_confirm_target := some (control.m_confirm_target.getD defaultStandardFeeTarget) })

/-- The unlocked state, or nothing when the passphrase was wrong. -/
def unlockForAction (a : WalletAnswers Psbt) (passphrase : Option String) :
    Except (WalletQmlModel Psbt) (WalletQmlModel Psbt) :=
  match passphrase with
  | none => .ok s
  | some passphrase =>
    match a.tryUnlockWithPassphrase passphrase with
    | .incorrectPassphrase =>
      .error (s.setTransactionStatus "The wallet password you entered was incorrect.")
    | .alreadyUnlocked | .unlockedNowRelockRequired => .ok s

def setAmount (recipients : List SendRecipient) (i : Nat) (amount : CAmount) :
    List SendRecipient :=
  recipients.modify i fun recipient => { recipient with cAmount := amount }

/-- The success branch of `prepareTransactionInternal`: the new transaction becomes the draft. -/
def adoptPrepared (api : AddressApi) (a : WalletAnswers Psbt) (control : CCoinControl)
    (result : CreatedTransactionResult) : Outcome Psbt Bool :=
  let newTx := result.tx
  -- Show the maximum recipient's actual output amount in the review as well.
  let recipients := match s.m_maximum_recipient with
    | none => s.m_send_recipients
    | some index =>
      setAmount s.m_send_recipients index ((newTx.vout[index]?.map (·.nValue)).getD 0)
  let draft := (WalletQmlModelTransaction.new api recipients).setWtx newTx
  let s := { s with
    m_send_recipients := recipients
    m_current_psbt := none
    m_current_transaction_source := .sendDraft
    m_current_transaction_sweeps_wallet :=
      result.change_pos.isNone && a.transactionSweepsAvailableFunds newTx control
    m_current_transaction_can_send := true
    m_current_transaction_can_broadcast := false
    m_current_transaction_review_message := "" }
  match draft.captureReviewedRecipients api recipients with
  | none =>
    { s with m_current_transaction := none, m_current_transaction_can_send := false }.failWith
      "Unable to match the prepared transaction's recipients."
  | some draft =>
    let draft := (draft.setTransactionFee result.fee).setReviewFeeDetails a.feeTargetBlocks
      a.estimatedFeeRate
    let draft := match s.m_maximum_recipient with
      | none => draft
      | some _ => draft.reassignAmounts (result.change_pos.elim (-1) Nat.cast)
    ⟨{ s with m_current_transaction := some draft }, true,
      [.captured newTx, .currentTransactionChanged]⟩

def createForReview (a : WalletAnswers Psbt) (vec_send : List CRecipient) (control : CCoinControl) :
    Except String CreatedTransactionResult :=
  match s.m_maximum_recipient with
  | some index => a.createSendAllTransaction vec_send control index !a.privateKeysDisabled
  | none => a.createTransaction vec_send control !a.privateKeysDisabled

def insufficientFundsText (control : CCoinControl) : String :=
  if control.selected.isEmpty
  then "The wallet does not have enough balance for this transaction."
  else "Selected inputs do not cover the amount plus fee"

/-- `prepareTransactionInternal` from the balance check on. -/
def createAndAdopt (api : AddressApi) (a : WalletAnswers Psbt) (vec_send : List CRecipient)
    (control : CCoinControl) : Outcome Psbt Bool :=
  let total := (vec_send.map (·.nAmount)).sum
  if s.m_maximum_recipient = none ∧ a.getAvailableBalance control < total then
    s.failWith (insufficientFundsText control)
  else match s.createForReview a vec_send control with
  | .error e => s.failWith e
  | .ok result =>
    let out := s.adoptPrepared api a control result
    { out with effects := .created result.tx (!a.privateKeysDisabled) :: out.effects }

def prepareTransactionInternal (api : AddressApi) (a : WalletAnswers Psbt)
    (passphrase : Option String) : Outcome Psbt Bool :=
  let s := s.clearTransactionStatus
  if a.hasWallet && !a.available then s.failWith "This wallet is closing."
  else if !a.hasWallet || s.m_send_recipients.isEmpty then
    s.failWith "Enter at least one valid recipient to continue."
  else if !allValid api s.m_send_recipients then
    s.failWith (validationError api s.m_send_recipients)
  else match buildRecipients api s.m_send_recipients s.m_maximum_recipient with
  | none => s.failWith "Enter at least one valid recipient to continue."
  | some vec_send =>
    if !a.privateKeysDisabled && a.isCrypted && a.isLocked && passphrase.isNone then
      s.failWith "Enter your wallet password to prepare this transaction." true
    else match s.unlockForAction a passphrase with
    | .error s => ⟨s, false, []⟩
    | .ok s =>
      match prepareCoinControl a with
      | none => ⟨s, false, []⟩
      | some control => s.createAndAdopt api a vec_send control

/-! ## Importing -/

/-- The recipients of an imported transaction, or the reason why it cannot be reviewed. -/
def draftRecipients (api : AddressApi) (a : WalletAnswers Psbt) (can_send : Bool) :
    List TxOut → Except String (List SendRecipient)
  | [] => .ok []
  | output :: rest =>
    match api.extractDestination output.scriptPubKey with
    | none =>
      if output.nValue = 0 ∧ api.isUnspendable output.scriptPubKey then
        draftRecipients api a can_send rest
      else .error "Only PSBTs with standard address outputs are supported right now."
    | some destination =>
      if can_send && a.txoutIsMine output then draftRecipients api a can_send rest
      else do
        let address := api.encodeDestination destination
        let recipients ← draftRecipients api a can_send rest
        .ok (⟨setAddress address, a.addressLabel address, "", output.nValue, true, false⟩ :: recipients)

def checkDraftRecipients (recipients : List SendRecipient) : Option String :=
  if recipients.isEmpty then some "The PSBT does not have any recipient outputs to review."
  else if recipients.length > 25 then
    some "The PSBT has more recipients than this send flow supports."
  else if (recipients.map (·.cAmount)).sum ≤ 0 then
    some "The PSBT does not send a positive amount."
  else none

/-- What the import finds out about a PSBT before it touches the draft. -/
structure ImportAnalysis where
  analysis_tx : Transaction
  fee : Option CAmount
  can_send : Bool
  can_broadcast : Bool
  review_message : String
  recipients : List SendRecipient

def importReviewMessage (fee_is_known : Bool) (multisig_sig_info : Option (Int × Int))
    (ready : Bool) : String :=
  if !fee_is_known then
    "The transaction fee is missing or invalid. Add valid input information before broadcasting."
  else match multisig_sig_info with
  | some (required, total) => s!"This transaction requires {required} of {total} signatures."
  | none => if ready then "" else "This wallet does not have the keys to sign this transaction."

/-- `tryImportPsbtToReview` after `fillPSBT` succeeded on the finalized copy. -/
def analyzeFilled (api : AddressApi) (psbtApi : PsbtApi Psbt) (a : WalletAnswers Psbt)
    (spends_only_wallet_inputs : Bool) (could_sign : Nat) (filled : Psbt) :
    Except String ImportAnalysis :=
  let (analysis_psbt, complete) := psbtApi.finalizePSBT filled
  match psbtApi.getUnsignedTx analysis_psbt with
  | none => .error "The PSBT does not contain an unsigned transaction."
  | some analysis_tx =>
    let multisig_sig_info := if complete then none else
      (List.range (psbtApi.inputsSize analysis_psbt)).findSome?
        (psbtApi.multisigPsbtInputSigInfo analysis_psbt)
    let fee := psbtApi.analyzeFee analysis_psbt
    let fee_is_known := fee.any (0 ≤ ·)
    let unsigned_inputs := psbtApi.countPSBTUnsignedInputs analysis_psbt
    let wallet_has_signer := !a.privateKeysDisabled || a.hasExternalSigner
    let can_send := fee_is_known && multisig_sig_info.isNone && spends_only_wallet_inputs &&
      (complete || (wallet_has_signer && decide (0 < unsigned_inputs) &&
        decide (unsigned_inputs ≤ could_sign)))
    let can_broadcast := fee_is_known && complete
    let review_message :=
      importReviewMessage fee_is_known multisig_sig_info (can_send || can_broadcast)
    match draftRecipients api a can_send analysis_tx.vout with
    | .error reason => .error reason
    | .ok recipients =>
      match checkDraftRecipients recipients with
      | some reason => .error reason
      | none =>
        .ok ⟨analysis_tx, fee, can_send, can_broadcast, review_message, recipients⟩

/-- The checks of `tryImportPsbtToReview`. There is no answer where `fillPSBT` throws. -/
def analyzeImport (api : AddressApi) (psbtApi : PsbtApi Psbt) (a : WalletAnswers Psbt)
    (psbt : Psbt) : Option (Except String ImportAnalysis) :=
  if !a.hasWallet then some (.error "No wallet is loaded.")
  else match psbtApi.getUnsignedTx psbt with
  | none => some (.error "The PSBT does not contain an unsigned transaction.")
  | some unsigned_tx =>
    if unsigned_tx.vin.isEmpty || unsigned_tx.vout.isEmpty then
      some (.error "The PSBT has no inputs or outputs.")
    else if psbtApi.inputsSize psbt ≠ unsigned_tx.vin.length ∨
        psbtApi.outputsSize psbt ≠ unsigned_tx.vout.length then
      some (.error "The PSBT is malformed.")
    else
      let spends_only_wallet_inputs := unsigned_tx.vin.all a.txinIsMine
      match a.fillPSBT ⟨false, false⟩ (psbtApi.finalizePSBT psbt).1 with
      | .threw _ => none
      | .error e => some (.error (a.psbtErrorText e))
      | .filled filled _ could_sign =>
        some (analyzeFilled api psbtApi a spends_only_wallet_inputs could_sign filled)

inductive PsbtImportResult
  | psbtUnsupported
  | walletCanSign
  | walletCannotSign
  | transactionAlreadyKnown
  deriving DecidableEq, Repr

def setImportError (error : String) : Outcome Psbt PsbtImportResult :=
  ⟨{ s with m_imported_psbt_error := error }, .psbtUnsupported, []⟩

/-- The end of `tryImportPsbtToReview`: the imported transaction becomes the draft. The rows that
`clear` replaces are gone before the next call, and with them the maximum row. -/
def adoptImported (api : AddressApi) (psbt : Psbt) (analysis : ImportAnalysis) :
    Outcome Psbt PsbtImportResult :=
  let s := { s with m_send_recipients := analysis.recipients, m_maximum_recipient := none }
  let draft := (WalletQmlModelTransaction.new api analysis.recipients).setWtx analysis.analysis_tx
  match draft.captureReviewedRecipients api analysis.recipients with
  | none =>
    { s with m_current_transaction := none }.setImportError
      "Unable to match the imported transaction's recipients."
  | some draft =>
    let draft := match analysis.fee with
      | none => draft
      | some fee => draft.setTransactionFee fee
    ⟨{ s with
        m_current_transaction := some draft
        m_current_psbt := some psbt
        m_current_transaction_source := .importedPsbt
        m_current_transaction_can_send := analysis.can_send
        m_current_transaction_can_broadcast := analysis.can_broadcast
        m_current_transaction_review_message := analysis.review_message
        m_imported_psbt_error := "" },
      if analysis.can_send then .walletCanSign else .walletCannotSign,
      [.captured analysis.analysis_tx, .currentTransactionChanged]⟩

def importFailureText (reason : String) : String :=
  if reason.isEmpty then "This PSBT is not supported yet." else reason

def importPsbtFromFile (api : AddressApi) (psbtApi : PsbtApi Psbt) (a : WalletAnswers Psbt)
    (path : String) : Outcome Psbt PsbtImportResult :=
  let s := s.clearTransactionStatus
  if !a.hasImportedPsbtModel then ⟨s, .psbtUnsupported, []⟩
  else if a.hasWallet && !a.available then s.setImportError "This wallet is closing."
  else match a.loadPsbtFromFile path with
  | .error load_err => s.setImportError load_err
  | .ok psbt =>
    if a.hasWallet && (psbtApi.getUnsignedTx psbt).any a.knowsTransaction then
      ⟨s, .transactionAlreadyKnown, []⟩
    else match analyzeImport api psbtApi a psbt with
    | none => ⟨s, .psbtUnsupported, []⟩
    | some (.error reason) =>
      s.setImportError (importFailureText reason)
    | some (.ok analysis) => s.adoptImported api psbt analysis

/-! ## Approving on an external signer -/

/-- The PSBT of the draft: the one kept, or a fresh one without scripts. -/
def draftPsbt (psbtApi : PsbtApi Psbt) (current_tx : Transaction) : Psbt :=
  s.m_current_psbt.getD (psbtApi.ofTransaction (clearTransactionInputScripts current_tx))

def approvalFailed (message : String) (signer_not_found : Bool) : Outcome Psbt Unit :=
  ⟨s, (), [.externalSignerApprovalFailed message signer_not_found]⟩

def signErrorText (a : WalletAnswers Psbt) : PSBTError → String
  | .externalSignerNotFound => "External signer not found. Connect one device and try again."
  | .externalSignerFailed => "External signer failed to sign. Try again."
  | e => a.psbtErrorText e

/-- `approveExternalSignerTransaction` once the PSBT is as complete as the signer makes it. -/
def adoptApproved (psbtApi : PsbtApi Psbt) (current : WalletQmlModelTransaction) (psbtx : Psbt) :
    Outcome Psbt Unit :=
  match psbtApi.finalizeAndExtractPSBT psbtx with
  | (psbtx, none) =>
    ⟨{ s with
        m_current_psbt := some psbtx
        m_current_transaction_can_send := false
        m_current_transaction_can_broadcast := false
        m_current_transaction_review_message :=
          "Signed on external signer. More signatures are required." }, (),
      [.currentTransactionChanged, .externalSignerApprovalPartiallySucceeded]⟩
  | (psbtx, some signed_tx) =>
    ⟨{ s with
        m_current_psbt := some psbtx
        m_current_transaction := some (current.setWtx signed_tx)
        m_current_transaction_can_send := true
        m_current_transaction_can_broadcast := false
        m_current_transaction_review_message := "" }, (),
      [.extracted signed_tx, .currentTransactionChanged, .externalSignerApprovalSucceeded]⟩

def approveExternalSignerTransaction (psbtApi : PsbtApi Psbt) (a : WalletAnswers Psbt) :
    Outcome Psbt Unit :=
  match s.m_current_transaction with
  | none => s.approvalFailed "External signer not available." true
  | some current =>
    if !a.available || !a.hasExternalSigner then
      s.approvalFailed "External signer not available." true
    else match current.m_wtx with
    | none =>
      s.approvalFailed "Couldn't prepare transaction for external signing." false
    | some current_tx =>
      match a.fillPSBT ⟨false, true⟩ (s.draftPsbt psbtApi current_tx) with
      | .threw what => s.approvalFailed what false
      | .error e => s.approvalFailed (a.psbtErrorText e) (e = .externalSignerNotFound)
      | .filled psbtx true _ => s.adoptApproved psbtApi current psbtx
      | .filled psbtx false _ =>
        match a.fillPSBT ⟨true, true⟩ psbtx with
        | .threw what => s.approvalFailed what false
        | .error e => s.approvalFailed (signErrorText a e) (e = .externalSignerNotFound)
        | .filled psbtx _ _ => s.adoptApproved psbtApi current psbtx

/-! ## Broadcasting and sending -/

/-- The draft after its transaction went out. -/
def finishDraft (current : WalletQmlModelTransaction) (tx : Transaction) (can_send : Bool) :
    WalletQmlModel Psbt :=
  { s with
    m_current_transaction := some (current.setWtx tx)
    m_current_psbt := none
    m_current_transaction_source := .none
    m_current_transaction_can_send := can_send
    m_current_transaction_can_broadcast := false
    m_current_transaction_review_message := "" }.clearTransactionStatus

def broadcastFailureText (translated error_string : String) : String :=
  "Transaction broadcast failed: " ++
    if error_string.isEmpty then translated else translated ++ ": " ++ error_string

/-- `broadcastCurrentTransaction` with the PSBT of the draft at hand. -/
def broadcastPsbt (psbtApi : PsbtApi Psbt) (a : WalletAnswers Psbt)
    (current : WalletQmlModelTransaction) (psbt : Psbt) : Outcome Psbt Bool :=
  if !(psbtApi.analyzeFee psbt).any (0 ≤ ·) then
    s.failWith "The transaction fee is missing or invalid."
  else match (psbtApi.finalizeAndExtractPSBT psbt).2 with
  | none => s.failWith "This transaction is not fully signed."
  | some tx =>
    match a.broadcastTransaction tx with
    | some (translated, error_string) =>
      let out := s.failWith (broadcastFailureText translated error_string)
      { out with effects := [.extracted tx, .broadcastTransaction tx false] }
    | none =>
      ⟨s.finishDraft current tx false, true,
        [.extracted tx, .broadcastTransaction tx true, .currentTransactionChanged]⟩

def broadcastCurrentTransaction (psbtApi : PsbtApi Psbt) (a : WalletAnswers Psbt) :
    Outcome Psbt Bool :=
  let s := s.clearTransactionStatus
  if a.hasWallet && !a.available then s.failWith "This wallet is closing."
  else match s.m_current_transaction, s.m_current_psbt with
  | some current, some psbt =>
    if !a.hasNode || !s.m_current_transaction_can_broadcast then
      s.failWith "This transaction is not ready to broadcast."
    else s.broadcastPsbt psbtApi a current psbt
  | _, _ => s.failWith "This transaction is not ready to broadcast."

/-- Persist only user-provided notes, and only of a draft made by the send form. -/
def saveSentRecipientLabels (api : AddressApi) (a : WalletAnswers Psbt)
    (current : WalletQmlModelTransaction) : List (Effect Psbt) :=
  if s.m_current_transaction_source ≠ .sendDraft then []
  else current.m_recipient_labels.filterMap fun (address, label) =>
    if (api.decodeDestination address).isNone || a.addressBookLabel address = some label then none
    else some (.setAddressBook address label)

/-- Hand the signed PSBT's transaction to the wallet. -/
def commitPsbt (api : AddressApi) (a : WalletAnswers Psbt) (current : WalletQmlModelTransaction)
    (signed_tx : Transaction) : Outcome Psbt Bool :=
  ⟨s.finishDraft current signed_tx true, true,
    .extracted signed_tx :: .commitTransaction signed_tx :: s.saveSentRecipientLabels api a current⟩

/-- The PSBT branch of `sendTransactionInternal`, when the PSBT is not complete as it is. -/
def signAndCommit (api : AddressApi) (psbtApi : PsbtApi Psbt) (a : WalletAnswers Psbt)
    (current : WalletQmlModelTransaction) (psbt : Psbt) (passphrase : Option String) :
    Outcome Psbt Bool :=
  if a.privateKeysDisabled && !a.hasExternalSigner then
    s.failWith "This wallet cannot sign transactions."
  else if !a.privateKeysDisabled && a.isCrypted && a.isLocked && passphrase.isNone then
    s.failWith "Enter your wallet password to send this transaction." true
  else match s.unlockForAction a passphrase with
  | .error s => ⟨s, false, []⟩
  | .ok s =>
    match a.fillPSBT ⟨true, true⟩ psbt with
    | .threw _ => ⟨s, false, []⟩
    | .error e => s.failWith (a.psbtErrorText e)
    | .filled psbt complete _ =>
      match complete, (psbtApi.finalizeAndExtractPSBT psbt).2 with
      | true, some signed_tx => s.commitPsbt api a current signed_tx
      | _, _ => s.failWith "Only PSBTs this wallet can fully sign are supported right now."

def cannotSendText : String :=
  if s.m_current_transaction_review_message.isEmpty
  then "This transaction cannot be sent from this wallet."
  else s.m_current_transaction_review_message

def sendPsbt (api : AddressApi) (psbtApi : PsbtApi Psbt) (a : WalletAnswers Psbt)
    (current : WalletQmlModelTransaction) (psbt : Psbt) (passphrase : Option String) :
    Outcome Psbt Bool :=
  if !s.m_current_transaction_can_send then
    s.failWith s.cannotSendText
  else match (psbtApi.finalizeAndExtractPSBT psbt).2 with
  | some signed_tx => s.commitPsbt api a current signed_tx
  | none => s.signAndCommit api psbtApi a current psbt passphrase

/-- The branch of `sendTransactionInternal` without a PSBT. It reads neither `can_send` nor the
source of the draft, and it leaves the draft in place. -/
def sendPlain (api : AddressApi) (a : WalletAnswers Psbt) (current : WalletQmlModelTransaction) :
    Outcome Psbt Bool :=
  match current.m_wtx with
  | none => s.failWith "Review a transaction before sending it."
  | some signed_tx =>
    if a.privateKeysDisabled && !a.hasExternalSigner then
      s.failWith "This wallet cannot sign transactions."
    else
      ⟨{ s with m_current_transaction_source := .none }.clearTransactionStatus, true,
        .commitTransaction signed_tx :: s.saveSentRecipientLabels api a current⟩

def sendTransactionInternal (api : AddressApi) (psbtApi : PsbtApi Psbt) (a : WalletAnswers Psbt)
    (passphrase : Option String) : Outcome Psbt Bool :=
  let s := s.clearTransactionStatus
  if a.hasWallet && !a.available then s.failWith "This wallet is closing."
  else if !a.hasWallet then s.failWith "Review a transaction before sending it."
  else match s.m_current_transaction with
  | none => s.failWith "Review a transaction before sending it."
  | some current =>
    match s.m_current_psbt with
    | some psbt => s.sendPsbt api psbtApi a current psbt passphrase
    | none => s.sendPlain api a current

/-! ## Saving and discarding -/

def writePsbt (a : WalletAnswers Psbt) (psbtx : Psbt) (path : String) : Outcome Psbt String :=
  ⟨s, a.savePsbtToFile psbtx path, [.savePsbtToFile psbtx]⟩

def saveCurrentTransactionAsPsbt (psbtApi : PsbtApi Psbt) (a : WalletAnswers Psbt)
    (path : String) : Outcome Psbt String :=
  if a.hasWallet && !a.available then ⟨s, "This wallet is closing.", []⟩
  else if !a.hasWallet then ⟨s, "No transaction is prepared.", []⟩
  else match s.m_current_transaction.bind (·.m_wtx) with
  | none => ⟨s, "No transaction is prepared.", []⟩
  | some current_tx =>
    let psbtx := s.draftPsbt psbtApi current_tx
    if s.m_current_psbt.isSome && (s.m_current_transaction_source = .importedPsbt ||
        !s.m_current_transaction_can_send) then s.writePsbt a psbtx path
    else match a.fillPSBT ⟨false, true⟩ psbtx with
    | .threw what => ⟨s, what, []⟩
    | .error e => ⟨s, a.psbtErrorText e, []⟩
    | .filled psbtx _ _ => s.writePsbt a psbtx path

def discardCurrentTransaction : Outcome Psbt Unit :=
  let had_transaction_state := s.m_current_transaction.isSome || s.m_current_psbt.isSome ||
    s.m_current_transaction_can_send || s.m_current_transaction_can_broadcast ||
    !s.m_current_transaction_review_message.isEmpty
  ⟨{ s with
      m_current_transaction := none
      m_current_psbt := none
      m_current_transaction_source := .none
      m_current_transaction_can_send := false
      m_current_transaction_can_broadcast := false
      m_current_transaction_review_message := ""
      m_send_recipients := [SendRecipient.blank]
      m_maximum_recipient := none }.clearTransactionStatus, (),
    if had_transaction_state then [.currentTransactionChanged] else []⟩

end WalletQmlModel

/-! ## Calls -/

/-- A call of the GUI: one of the send operations, or an edit of the send form between two. -/
inductive Call
  | prepareTransaction (passphrase : Option String)
  | importPsbtFromFile (path : String)
  | approveExternalSignerTransaction
  | saveCurrentTransactionAsPsbt (path : String)
  | sendTransaction (passphrase : Option String)
  | broadcastCurrentTransaction
  | discardCurrentTransaction
  | editForm (recipients : List SendRecipient) (maximum : Option Nat)

/-- The state after a call and the effects of the call, without its result. -/
def perform (api : AddressApi) (psbtApi : PsbtApi Psbt) (s : WalletQmlModel Psbt)
    (call : Call) (a : WalletAnswers Psbt) : WalletQmlModel Psbt × List (Effect Psbt) :=
  match call with
  | .prepareTransaction passphrase =>
    let out := s.prepareTransactionInternal api a passphrase
    (out.state, out.effects)
  | .importPsbtFromFile path =>
    let out := s.importPsbtFromFile api psbtApi a path
    (out.state, out.effects)
  | .approveExternalSignerTransaction =>
    let out := s.approveExternalSignerTransaction psbtApi a
    (out.state, out.effects)
  | .saveCurrentTransactionAsPsbt path =>
    let out := s.saveCurrentTransactionAsPsbt psbtApi a path
    (out.state, out.effects)
  | .sendTransaction passphrase =>
    let out := s.sendTransactionInternal api psbtApi a passphrase
    (out.state, out.effects)
  | .broadcastCurrentTransaction =>
    let out := s.broadcastCurrentTransaction psbtApi a
    (out.state, out.effects)
  | .discardCurrentTransaction =>
    let out := s.discardCurrentTransaction
    (out.state, out.effects)
  | .editForm recipients maximum =>
    ({ s with m_send_recipients := recipients, m_maximum_recipient := maximum }, [])

end GuiQml.Wallet
