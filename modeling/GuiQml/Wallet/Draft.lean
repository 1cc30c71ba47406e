import GuiQml.Wallet.Send

/-!
# What a call does with the draft

Seven operations read and write the two halves of the draft. `Turn` lists what one call can do with
it, and `perform_turn` says that no call does anything else.
-/

namespace GuiQml.Wallet

variable {Psbt : Type}

/-! ## The draft alone -/

/-- The fields that decide what can be sent. -/
structure Draft (Psbt : Type) where
  transaction : Option WalletQmlModelTransaction
  psbt : Option Psbt
  source : CurrentTransactionSource
  can_send : Bool
  can_broadcast : Bool

namespace WalletQmlModel

variable (s : WalletQmlModel Psbt)

def draft : Draft Psbt where
  transaction := s.m_current_transaction
  psbt := s.m_current_psbt
  source := s.m_current_transaction_source
  can_send := s.m_current_transaction_can_send
  can_broadcast := s.m_current_transaction_can_broadcast

@[simp] theorem setTransactionStatus_draft (error : String) (needs_unlock : Bool) :
    (s.setTransactionStatus error needs_unlock).draft = s.draft := rfl

@[simp] theorem clearTransactionStatus_draft : s.clearTransactionStatus.draft = s.draft := rfl

theorem unlockForAction_draft {a : WalletAnswers Psbt} {passphrase : Option String}
    {s' : WalletQmlModel Psbt}
    (h : s.unlockForAction a passphrase = .ok s' ∨ s.unlockForAction a passphrase = .error s') :
    s'.draft = s.draft := by
  cases passphrase with
  | none =>
    rcases h with h | h <;> cases h
    rfl
  | some passphrase =>
    simp only [unlockForAction] at h
    rcases h with h | h <;> split at h <;> cases h <;> rfl

end WalletQmlModel

/-- An effect that is no milestone of the draft and hands nothing out. -/
def Effect.quiet : Effect Psbt → Bool
  | .captured _ | .commitTransaction _ | .broadcastTransaction _ _ | .savePsbtToFile _ => false
  | _ => true

/-- The wallet and Core's finalizers turned the first PSBT into the second. -/
inductive Reworked (psbtApi : PsbtApi Psbt) (a : WalletAnswers Psbt) (p : Psbt) : Psbt → Prop
  | refl : Reworked psbtApi a p p
  | filled {q r options complete n_signed} : Reworked psbtApi a p q →
      a.fillPSBT options q = .filled r complete n_signed → Reworked psbtApi a p r
  | finalized {q} : Reworked psbtApi a p q → Reworked psbtApi a p (psbtApi.finalizePSBT q).1
  | extracted {q} : Reworked psbtApi a p q →
      Reworked psbtApi a p (psbtApi.finalizeAndExtractPSBT q).1

/-- The PSBT of a draft that shows `tx`. -/
def Draft.psbtOf (d : Draft Psbt) (psbtApi : PsbtApi Psbt) (tx : Transaction) : Psbt :=
  d.psbt.getD (psbtApi.ofTransaction (clearTransactionInputScripts tx))

/-- The draft after its transaction went out. -/
def Draft.finished (current : WalletQmlModelTransaction) (tx : Transaction) (can_send : Bool) :
    Draft Psbt := ⟨some (current.setWtx tx), none, .none, can_send, false⟩

/-- What a call can do with the draft `d`, and the effects it has then. -/
inductive Turn (psbtApi : PsbtApi Psbt) (a : WalletAnswers Psbt) (d : Draft Psbt) :
    Call → Draft Psbt → List (Effect Psbt) → Prop
  | kept {call es} : (∀ e ∈ es, e.quiet) → Turn psbtApi a d call d es
  | dropped {call psbt source can_send can_broadcast es} :
      (can_broadcast = true → d.can_broadcast = true) → (∀ e ∈ es, e.quiet) →
      Turn psbtApi a d call ⟨none, psbt, source, can_send, can_broadcast⟩ es
  | prepared {passphrase current tx} : current.m_wtx = some tx →
      Turn psbtApi a d (.prepareTransaction passphrase)
        ⟨some current, none, .sendDraft, true, false⟩
        [.created tx !a.privateKeysDisabled, .captured tx, .currentTransactionChanged]
  | imported {path current tx psbt analysis_psbt can_send can_broadcast} :
      current.m_wtx = some tx → Reworked psbtApi a psbt analysis_psbt →
      psbtApi.getUnsignedTx analysis_psbt = some tx →
      Turn psbtApi a d (.importPsbtFromFile path)
        ⟨some current, some psbt, .importedPsbt, can_send, can_broadcast⟩
        [.captured tx, .currentTransactionChanged]
  | signedPartially {current tx psbtx es} :
      d.transaction = some current → current.m_wtx = some tx →
      Reworked psbtApi a (d.psbtOf psbtApi tx) psbtx → (∀ e ∈ es, e.quiet) →
      Turn psbtApi a d .approveExternalSignerTransaction
        ⟨some current, some psbtx, d.source, false, false⟩ es
  | signed {current tx psbtx signed_tx es} :
      d.transaction = some current → current.m_wtx = some tx →
      Reworked psbtApi a (d.psbtOf psbtApi tx) psbtx →
      (psbtApi.finalizeAndExtractPSBT psbtx).2 = some signed_tx → (∀ e ∈ es, e.quiet) →
      Turn psbtApi a d .approveExternalSignerTransaction
        ⟨some (current.setWtx signed_tx), some (psbtApi.finalizeAndExtractPSBT psbtx).1, d.source,
          true, false⟩ es
  | broadcast {current psbt tx} :
      d.transaction = some current → d.psbt = some psbt → d.can_broadcast = true →
      (psbtApi.finalizeAndExtractPSBT psbt).2 = some tx →
      Turn psbtApi a d .broadcastCurrentTransaction (.finished current tx false)
        [.extracted tx, .broadcastTransaction tx true, .currentTransactionChanged]
  | refused {current psbt tx} :
      d.transaction = some current → d.psbt = some psbt → d.can_broadcast = true →
      (psbtApi.finalizeAndExtractPSBT psbt).2 = some tx →
      Turn psbtApi a d .broadcastCurrentTransaction d
        [.extracted tx, .broadcastTransaction tx false]
  | committedPsbt {passphrase current psbt psbtx tx es} :
      a.available = true → d.transaction = some current → d.psbt = some psbt → d.can_send = true →
      Reworked psbtApi a psbt psbtx → (psbtApi.finalizeAndExtractPSBT psbtx).2 = some tx →
      (∀ e ∈ es, e.quiet) →
      Turn psbtApi a d (.sendTransaction passphrase) (.finished current tx true)
        (.extracted tx :: .commitTransaction tx :: es)
  | committedPlain {passphrase current tx es} :
      a.available = true → d.transaction = some current → d.psbt = none →
      current.m_wtx = some tx → (a.privateKeysDisabled = true → a.hasExternalSigner = true) →
      (∀ e ∈ es, e.quiet) →
      Turn psbtApi a d (.sendTransaction passphrase) { d with source := .none }
        (.commitTransaction tx :: es)
  | saved {path current tx psbtx} :
      d.transaction = some current → current.m_wtx = some tx →
      Reworked psbtApi a (d.psbtOf psbtApi tx) psbtx →
      Turn psbtApi a d (.saveCurrentTransactionAsPsbt path) d [.savePsbtToFile psbtx]

/-! ## Every operation takes a turn -/

section Operations

variable {api : AddressApi} {psbtApi : PsbtApi Psbt} {a : WalletAnswers Psbt}
  {s : WalletQmlModel Psbt}

/-- An outcome that is a turn of the draft, for the call `call`. -/
def Outcome.Turns {ρ : Type} (out : Outcome Psbt ρ) (psbtApi : PsbtApi Psbt)
    (a : WalletAnswers Psbt) (d : Draft Psbt) (call : Call) : Prop :=
  Turn psbtApi a d call out.state.draft out.effects

theorem Turn.of_silent {ρ : Type} {d : Draft Psbt} {call : Call} {out : Outcome Psbt ρ}
    (hd : out.state.draft = d) (he : out.effects = []) : out.Turns psbtApi a d call := by
  unfold Outcome.Turns
  rw [hd, he]
  exact .kept (by simp)

theorem failWith_turns {d : Draft Psbt} {call : Call} {error : String} {needs_unlock : Bool}
    (hd : s.draft = d) : (s.failWith error needs_unlock).Turns psbtApi a d call :=
  Turn.of_silent hd rfl

theorem adoptPrepared_turns {d : Draft Psbt} {control : CCoinControl}
    {result : CreatedTransactionResult} {passphrase : Option String} :
    Turn psbtApi a d (.prepareTransaction passphrase)
      (s.adoptPrepared api a control result).state.draft
      (.created result.tx (!a.privateKeysDisabled) ::
        (s.adoptPrepared api a control result).effects) := by
  simp only [WalletQmlModel.adoptPrepared]
  split
  · refine .dropped (fun h => nomatch h) ?_
    simp [Effect.quiet, WalletQmlModel.failWith]
  · rename_i draft hdraft
    have hwtx : draft.m_wtx = some result.tx :=
      WalletQmlModelTransaction.captureReviewedRecipients_m_wtx hdraft
    refine .prepared ?_
    split <;> simpa using hwtx

theorem createAndAdopt_turns {vec_send : List CRecipient} {control : CCoinControl}
    {passphrase : Option String} :
    (s.createAndAdopt api a vec_send control).Turns psbtApi a s.draft
      (.prepareTransaction passphrase) := by
  simp only [WalletQmlModel.createAndAdopt]
  split
  · exact failWith_turns rfl
  · split
    · exact failWith_turns rfl
    · exact adoptPrepared_turns

theorem prepareTransaction_turns {passphrase : Option String} :
    (s.prepareTransactionInternal api a passphrase).Turns psbtApi a s.draft
      (.prepareTransaction passphrase) := by
  simp only [WalletQmlModel.prepareTransactionInternal]
  iterate 3 (split; · exact failWith_turns rfl)
  split
  · exact failWith_turns rfl
  split
  · exact failWith_turns rfl
  split
  · rename_i hunlock
    exact Turn.of_silent
      (WalletQmlModel.unlockForAction_draft s.clearTransactionStatus (.inr hunlock)) rfl
  · rename_i s' hunlock
    have hd : s'.draft = s.draft :=
      WalletQmlModel.unlockForAction_draft s.clearTransactionStatus (.inl hunlock)
    split
    · exact Turn.of_silent hd rfl
    · exact hd ▸ createAndAdopt_turns

theorem analyzeFilled_tx {spends_only_wallet_inputs : Bool} {could_sign : Nat} {filled : Psbt}
    {analysis : WalletQmlModel.ImportAnalysis}
    (h : WalletQmlModel.analyzeFilled api psbtApi a spends_only_wallet_inputs could_sign filled =
      .ok analysis) :
    psbtApi.getUnsignedTx (psbtApi.finalizePSBT filled).1 = some analysis.analysis_tx := by
  simp only [WalletQmlModel.analyzeFilled] at h
  split at h
  · cases h
  · rename_i analysis_tx htx
    split at h
    · cases h
    · split at h <;> cases h
      exact htx

/-- The transaction under review is the unsigned transaction of a reworked copy of the PSBT. -/
theorem analyzeImport_tx {psbt : Psbt} {analysis : WalletQmlModel.ImportAnalysis}
    (h : WalletQmlModel.analyzeImport api psbtApi a psbt = some (.ok analysis)) :
    ∃ analysis_psbt, Reworked psbtApi a psbt analysis_psbt ∧
      psbtApi.getUnsignedTx analysis_psbt = some analysis.analysis_tx := by
  unfold WalletQmlModel.analyzeImport at h
  repeat' split at h
  all_goals try simp at h
  case _ filled _ could_sign hfill =>
    exact ⟨_, .finalized (.filled (.finalized .refl) hfill), analyzeFilled_tx h⟩

theorem adoptImported_turns {path : String} {psbt : Psbt}
    {analysis : WalletQmlModel.ImportAnalysis}
    (h : WalletQmlModel.analyzeImport api psbtApi a psbt = some (.ok analysis)) :
    (s.adoptImported api psbt analysis).Turns psbtApi a s.draft (.importPsbtFromFile path) := by
  obtain ⟨analysis_psbt, hre, htx⟩ := analyzeImport_tx h
  simp only [WalletQmlModel.adoptImported]
  split
  · exact .dropped (fun h => h) (by simp [WalletQmlModel.setImportError])
  · rename_i draft hdraft
    have hwtx : draft.m_wtx = some analysis.analysis_tx :=
      WalletQmlModelTransaction.captureReviewedRecipients_m_wtx hdraft
    refine .imported ?_ hre htx
    split <;> simpa using hwtx

theorem importPsbtFromFile_turns {path : String} :
    (s.importPsbtFromFile api psbtApi a path).Turns psbtApi a s.draft
      (.importPsbtFromFile path) := by
  simp only [WalletQmlModel.importPsbtFromFile]
  split
  · exact Turn.of_silent rfl rfl
  split
  · exact Turn.of_silent rfl rfl
  split
  · exact Turn.of_silent rfl rfl
  split
  · exact Turn.of_silent rfl rfl
  split
  · exact Turn.of_silent rfl rfl
  · exact Turn.of_silent rfl rfl
  · exact adoptImported_turns (s := s.clearTransactionStatus) (by assumption)

theorem approvalFailed_turns {d : Draft Psbt} {call : Call} {message : String}
    {signer_not_found : Bool} (hd : s.draft = d) :
    (s.approvalFailed message signer_not_found).Turns psbtApi a d call := by
  subst hd
  exact .kept (by simp [WalletQmlModel.approvalFailed, Effect.quiet])

theorem adoptApproved_turns {current : WalletQmlModelTransaction} {tx : Transaction} {psbtx : Psbt}
    (hcurrent : s.m_current_transaction = some current) (htx : current.m_wtx = some tx)
    (hre : Reworked psbtApi a (s.draftPsbt psbtApi tx) psbtx) :
    (s.adoptApproved psbtApi current psbtx).Turns psbtApi a s.draft
      .approveExternalSignerTransaction := by
  unfold WalletQmlModel.adoptApproved
  split
  · rename_i psbtx' hfin
    have hre' := hre.extracted
    rw [hfin] at hre'
    exact hcurrent ▸ Turn.signedPartially hcurrent htx hre' (by simp [Effect.quiet])
  · rename_i psbtx' signed_tx hfin
    have hturn : Turn psbtApi a s.draft .approveExternalSignerTransaction
        ⟨some (current.setWtx signed_tx), some (psbtApi.finalizeAndExtractPSBT psbtx).1,
          s.draft.source, true, false⟩
        [.extracted signed_tx, .currentTransactionChanged, .externalSignerApprovalSucceeded] :=
      .signed hcurrent htx hre (by rw [hfin]) (by simp [Effect.quiet])
    rw [hfin] at hturn
    exact hturn

theorem approve_turns :
    (s.approveExternalSignerTransaction psbtApi a).Turns psbtApi a s.draft
      .approveExternalSignerTransaction := by
  unfold WalletQmlModel.approveExternalSignerTransaction
  split
  · exact approvalFailed_turns rfl
  rename_i current hcurrent
  split
  · exact approvalFailed_turns rfl
  split
  · exact approvalFailed_turns rfl
  rename_i tx htx
  split
  · exact approvalFailed_turns rfl
  · exact approvalFailed_turns rfl
  · rename_i hfill
    exact adoptApproved_turns hcurrent htx (.filled .refl hfill)
  · rename_i hfill
    split
    · exact approvalFailed_turns rfl
    · exact approvalFailed_turns rfl
    · rename_i hsign
      exact adoptApproved_turns hcurrent htx (.filled (.filled .refl hfill) hsign)

theorem broadcastPsbt_turns {current : WalletQmlModelTransaction} {psbt : Psbt}
    (hcurrent : s.m_current_transaction = some current) (hpsbt : s.m_current_psbt = some psbt)
    (hcan : s.m_current_transaction_can_broadcast = true) :
    (s.broadcastPsbt psbtApi a current psbt).Turns psbtApi a s.draft
      .broadcastCurrentTransaction := by
  unfold WalletQmlModel.broadcastPsbt
  split
  · exact failWith_turns rfl
  split
  · exact failWith_turns rfl
  rename_i tx htx
  split
  · exact .refused hcurrent hpsbt hcan htx
  · exact .broadcast hcurrent hpsbt hcan htx

theorem broadcast_turns :
    (s.broadcastCurrentTransaction psbtApi a).Turns psbtApi a s.draft
      .broadcastCurrentTransaction := by
  simp only [WalletQmlModel.broadcastCurrentTransaction]
  split
  · exact failWith_turns rfl
  split
  · rename_i current psbt hcurrent hpsbt
    split
    · exact failWith_turns rfl
    · rename_i hready
      refine broadcastPsbt_turns (s := s.clearTransactionStatus) hcurrent hpsbt ?_
      simp_all
  · exact failWith_turns rfl

theorem labels_quiet {current : WalletQmlModelTransaction} :
    ∀ e ∈ s.saveSentRecipientLabels api a current, e.quiet = true := by
  intro e he
  unfold WalletQmlModel.saveSentRecipientLabels at he
  split at he
  · simp at he
  · obtain ⟨⟨address, label⟩, -, hlabel⟩ := List.mem_filterMap.mp he
    dsimp only at hlabel
    split at hlabel
    · cases hlabel
    · exact Option.some.inj hlabel ▸ rfl

theorem sendPsbt_turns {current : WalletQmlModelTransaction} {psbt : Psbt}
    {passphrase : Option String} (ha : a.available = true)
    (hcurrent : s.m_current_transaction = some current) (hpsbt : s.m_current_psbt = some psbt) :
    (s.sendPsbt api psbtApi a current psbt passphrase).Turns psbtApi a s.draft
      (.sendTransaction passphrase) := by
  unfold WalletQmlModel.sendPsbt
  split
  · exact failWith_turns rfl
  rename_i hcan
  have hcan : s.draft.can_send = true := by simpa [WalletQmlModel.draft] using hcan
  split
  · rename_i tx htx
    exact .committedPsbt ha hcurrent hpsbt hcan .refl htx labels_quiet
  unfold WalletQmlModel.signAndCommit
  split
  · exact failWith_turns rfl
  split
  · exact failWith_turns rfl
  split
  · rename_i hunlock
    exact Turn.of_silent (s.unlockForAction_draft (.inr hunlock)) rfl
  rename_i s' hunlock
  have hd : s'.draft = s.draft := s.unlockForAction_draft (.inl hunlock)
  split
  · exact Turn.of_silent hd rfl
  · exact failWith_turns hd
  rename_i hfill
  split
  · rename_i tx htx
    exact .committedPsbt ha hcurrent hpsbt hcan (.filled .refl hfill) htx labels_quiet
  · exact failWith_turns hd

theorem sendPlain_turns {current : WalletQmlModelTransaction} {passphrase : Option String}
    (ha : a.available = true) (hcurrent : s.m_current_transaction = some current)
    (hpsbt : s.m_current_psbt = none) :
    (s.sendPlain api a current).Turns psbtApi a s.draft (.sendTransaction passphrase) := by
  unfold WalletQmlModel.sendPlain
  split
  · exact failWith_turns rfl
  rename_i tx htx
  split
  · exact failWith_turns rfl
  · exact .committedPlain ha hcurrent hpsbt htx (by simp_all) labels_quiet

theorem sendTransaction_turns {passphrase : Option String} :
    (s.sendTransactionInternal api psbtApi a passphrase).Turns psbtApi a s.draft
      (.sendTransaction passphrase) := by
  simp only [WalletQmlModel.sendTransactionInternal]
  split
  · exact failWith_turns rfl
  split
  · exact failWith_turns rfl
  have ha : a.available = true := by simp_all
  split
  · exact failWith_turns rfl
  rename_i current hcurrent
  split
  · rename_i psbt hpsbt
    exact sendPsbt_turns (s := s.clearTransactionStatus) ha hcurrent hpsbt
  · rename_i hpsbt
    exact sendPlain_turns (s := s.clearTransactionStatus) ha hcurrent hpsbt

theorem saveAsPsbt_turns {path : String} :
    (s.saveCurrentTransactionAsPsbt psbtApi a path).Turns psbtApi a s.draft
      (.saveCurrentTransactionAsPsbt path) := by
  simp only [WalletQmlModel.saveCurrentTransactionAsPsbt]
  split
  · exact Turn.of_silent rfl rfl
  split
  · exact Turn.of_silent rfl rfl
  split
  · exact Turn.of_silent rfl rfl
  rename_i tx hshown
  obtain ⟨current, hcurrent, htx⟩ := Option.bind_eq_some_iff.mp hshown
  split
  · exact .saved hcurrent htx .refl
  split
  · exact Turn.of_silent rfl rfl
  · exact Turn.of_silent rfl rfl
  · rename_i hfill
    exact .saved hcurrent htx (.filled .refl hfill)

theorem discard_turns :
    (s.discardCurrentTransaction).Turns psbtApi a s.draft .discardCurrentTransaction := by
  refine .dropped (fun h => nomatch h) ?_
  simp only [WalletQmlModel.discardCurrentTransaction]
  split <;> simp [Effect.quiet]

theorem perform_turn (api : AddressApi) (psbtApi : PsbtApi Psbt) (s : WalletQmlModel Psbt)
    (call : Call) (a : WalletAnswers Psbt) :
    Turn psbtApi a s.draft call (perform api psbtApi s call a).1.draft
      (perform api psbtApi s call a).2 := by
  cases call with
  | prepareTransaction passphrase => exact prepareTransaction_turns
  | importPsbtFromFile path => exact importPsbtFromFile_turns
  | approveExternalSignerTransaction => exact approve_turns
  | saveCurrentTransactionAsPsbt path => exact saveAsPsbt_turns
  | sendTransaction passphrase => exact sendTransaction_turns
  | broadcastCurrentTransaction => exact broadcast_turns
  | discardCurrentTransaction => exact discard_turns
  | editForm recipients maximum => exact .kept (by simp [perform])

end Operations

end GuiQml.Wallet
