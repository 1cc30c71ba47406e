import GuiQml.Wallet.Reviewed
import GuiQml.Wallet.Captured

/-!
# Imports that end without a review

`importPsbtFromFile` overwrites the form and the current transaction before its last check. An output that
becomes a recipient has an address, and the address leads back to the script of the output, so that check
finds an output for every recipient.
-/

namespace GuiQml.Wallet

open WalletQmlModelTransaction

variable {Psbt : Type}

/-- What Core says about the destinations that it finds in scripts: they stand for the whole script, and
their addresses decode to them. An address has at most so many letters and digits. -/
structure AddressApi.Lawful (api : AddressApi) : Prop where
  script : ∀ script destination, api.extractDestination script = some destination →
    api.scriptForDestination destination = script
  decode : ∀ script destination, api.extractDestination script = some destination →
    api.decodeDestination (api.encodeDestination destination) = some destination
  text : ∀ script destination, api.extractDestination script = some destination →
    (∀ c ∈ (api.encodeDestination destination).toList, isBitcoinAddressChar c = true) ∧
      (api.encodeDestination destination).toList.length ≤ MAX_BITCOIN_ADDRESS_LENGTH

/-- The reviewed draft and the form are as before. -/
structure SameReview (s s' : WalletQmlModel Psbt) : Prop where
  transaction : s'.m_current_transaction = s.m_current_transaction
  psbt : s'.m_current_psbt = s.m_current_psbt
  source : s'.m_current_transaction_source = s.m_current_transaction_source
  can_send : s'.m_current_transaction_can_send = s.m_current_transaction_can_send
  can_broadcast : s'.m_current_transaction_can_broadcast = s.m_current_transaction_can_broadcast
  review_message : s'.m_current_transaction_review_message = s.m_current_transaction_review_message
  recipients : s'.m_send_recipients = s.m_send_recipients
  maximum : s'.m_maximum_recipient = s.m_maximum_recipient

/-! ## Recipients of outputs -/

section Recipients

variable {api : AddressApi} {a : WalletAnswers Psbt} {can_send : Bool}

theorem setAddress_of_text {address : Address}
    (hchars : ∀ c ∈ address.toList, isBitcoinAddressChar c = true)
    (hlength : address.toList.length ≤ MAX_BITCOIN_ADDRESS_LENGTH) : setAddress address = address := by
  rw [setAddress, List.filter_eq_self.mpr hchars, List.take_of_length_le hlength]
  simp

theorem scriptOf_output (hapi : api.Lawful) {script : Script} {destination : Destination}
    (h : api.extractDestination script = some destination) {row : SendRecipient}
    (hrow : row.address = setAddress (api.encodeDestination destination)) :
    scriptOf api row = some script := by
  obtain ⟨hchars, hlength⟩ := hapi.text script destination h
  rw [scriptOf, hrow, setAddress_of_text hchars hlength, hapi.decode script destination h, Option.map_some,
    hapi.script script destination h]

theorem draftRecipients_cons {output : TxOut} {rest : List TxOut} {recipients : List SendRecipient}
    (h : WalletQmlModel.draftRecipients api a can_send (output :: rest) = .ok recipients) :
    WalletQmlModel.draftRecipients api a can_send rest = .ok recipients ∨
      ∃ destination row others, api.extractDestination output.scriptPubKey = some destination ∧
        row.address = setAddress (api.encodeDestination destination) ∧
        WalletQmlModel.draftRecipients api a can_send rest = .ok others ∧ recipients = row :: others := by
  unfold WalletQmlModel.draftRecipients at h
  split at h
  · split at h
    · exact .inl h
    · cases h
  · rename_i destination hdest
    split at h
    · exact .inl h
    · cases hrest : WalletQmlModel.draftRecipients api a can_send rest with
      | error reason =>
        rw [hrest] at h
        cases h
      | ok others =>
        rw [hrest] at h
        obtain rfl := Except.ok.inj h
        exact .inr ⟨destination, _, others, hdest, rfl, rfl, rfl⟩

/-- Each recipient comes from an output of its own, so there are enough outputs for all. -/
theorem draftRecipients_enough (hapi : api.Lawful) {vout : List TxOut} {recipients : List SendRecipient}
    (h : WalletQmlModel.draftRecipients api a can_send vout = .ok recipients) :
    (∀ row ∈ recipients, (scriptOf api row).isSome = true) ∧ EnoughOutputs api vout recipients := by
  induction vout generalizing recipients with
  | nil =>
    obtain rfl := Except.ok.inj h
    exact ⟨by simp, by intro script; simp⟩
  | cons output rest ih =>
    rcases draftRecipients_cons h with hskip | ⟨destination, row, others, hdest, hrow, hothers, rfl⟩
    · obtain ⟨hdecode, henough⟩ := ih hskip
      refine ⟨hdecode, fun script => ?_⟩
      have := henough script
      rw [List.countP_cons]
      omega
    · obtain ⟨hdecode, henough⟩ := ih hothers
      have hscript := scriptOf_output hapi hdest hrow
      constructor
      · intro other hother
        rcases List.mem_cons.mp hother with rfl | hother
        · rw [hscript]
          rfl
        · exact hdecode other hother
      · intro script
        have := henough script
        rw [List.countP_cons, List.countP_cons, hscript]
        by_cases heq : output.scriptPubKey = script <;> simp [heq] <;> omega

end Recipients

/-! ## The last check -/

section Import

variable {api : AddressApi} {psbtApi : PsbtApi Psbt} {a : WalletAnswers Psbt} {s : WalletQmlModel Psbt}

theorem analyzeFilled_recipients {spends_only_wallet_inputs : Bool} {could_sign : Nat} {filled : Psbt}
    {analysis : WalletQmlModel.ImportAnalysis}
    (h : WalletQmlModel.analyzeFilled api psbtApi a spends_only_wallet_inputs could_sign filled =
      .ok analysis) :
    ∃ can_send, WalletQmlModel.draftRecipients api a can_send analysis.analysis_tx.vout =
      .ok analysis.recipients := by
  simp only [WalletQmlModel.analyzeFilled] at h
  split at h
  · cases h
  split at h
  · cases h
  · rename_i recipients hrecipients
    split at h <;> cases h
    exact ⟨_, hrecipients⟩

theorem analyzeImport_recipients {psbt : Psbt} {analysis : WalletQmlModel.ImportAnalysis}
    (h : WalletQmlModel.analyzeImport api psbtApi a psbt = some (.ok analysis)) :
    ∃ can_send, WalletQmlModel.draftRecipients api a can_send analysis.analysis_tx.vout =
      .ok analysis.recipients := by
  unfold WalletQmlModel.analyzeImport at h
  repeat' split at h
  all_goals try simp at h
  exact analyzeFilled_recipients h

theorem adoptImported_reviews (hapi : api.Lawful) {psbt : Psbt} {analysis : WalletQmlModel.ImportAnalysis}
    (h : WalletQmlModel.analyzeImport api psbtApi a psbt = some (.ok analysis)) :
    (s.adoptImported api psbt analysis).result = .walletCanSign ∨
      (s.adoptImported api psbt analysis).result = .walletCannotSign := by
  obtain ⟨can_send, hrecipients⟩ := analyzeImport_recipients h
  obtain ⟨hdecode, henough⟩ := draftRecipients_enough hapi hrecipients
  obtain ⟨snapshot, hsnapshot⟩ := Option.isSome_iff_exists.mp
    ((matchRecipients_isSome_of_unused hdecode).mpr henough)
  have hcaptured : captureReviewedRecipients api
      ((new api analysis.recipients).setWtx analysis.analysis_tx) analysis.recipients = _ :=
    captureReviewedRecipients_eq (setWtx_m_wtx (new api analysis.recipients) analysis.analysis_tx)
  rw [hsnapshot, Option.map_some] at hcaptured
  simp only [WalletQmlModel.adoptImported, hcaptured]
  split
  · exact .inl rfl
  · exact .inr rfl

/-- An import that does not end in a review leaves the reviewed draft and the form as they were. -/
theorem import_keeps_review (hapi : api.Lawful) (path : String)
    (hcan : (s.importPsbtFromFile api psbtApi a path).result ≠ .walletCanSign)
    (hcannot : (s.importPsbtFromFile api psbtApi a path).result ≠ .walletCannotSign) :
    SameReview s (s.importPsbtFromFile api psbtApi a path).state := by
  have hstatus : ∀ error, SameReview s (s.clearTransactionStatus.setImportError error).state :=
    fun _ => ⟨rfl, rfl, rfl, rfl, rfl, rfl, rfl, rfl⟩
  have hsilent : SameReview s s.clearTransactionStatus := ⟨rfl, rfl, rfl, rfl, rfl, rfl, rfl, rfl⟩
  simp only [WalletQmlModel.importPsbtFromFile] at hcan hcannot ⊢
  split
  · exact hsilent
  split
  · exact hstatus _
  split
  · exact hstatus _
  split
  · exact hsilent
  split
  · exact hsilent
  · exact hstatus _
  · rename_i hmodel hclosing _ psbt hload hknown _ analysis hanalysis
    exfalso
    simp only [hmodel, hclosing, hload, hknown, hanalysis, Bool.false_eq_true, if_false] at hcan hcannot
    rcases adoptImported_reviews (s := s.clearTransactionStatus) hapi hanalysis with hreview | hreview
    · exact hcan hreview
    · exact hcannot hreview

end Import

/-! ## An output that no address stands for -/

namespace OneCoin

/-- The addresses of a wallet that knows one script. -/
def oneScript : AddressApi where
  decodeDestination := some
  encodeDestination := id
  scriptForDestination _ := [81]
  extractDestination script := if script = [81] then some "receiver" else none
  isUnspendable _ := false
  trimmed := id

theorem oneScript_lawful : oneScript.Lawful where
  script script destination h := by
    simp only [oneScript] at h ⊢
    split at h
    · exact Eq.symm ‹_›
    · cases h
  decode _ _ _ := rfl
  text script destination h := by
    simp only [oneScript] at h
    split at h
    · obtain rfl := Option.some.inj h
      exact ⟨List.all_eq_true.mp (by decide), by decide⟩
    · cases h

/-- A file that pays a script without an address. -/
def strangeFile : WalletAnswers CoinPsbt :=
  { answers false false with
    loadPsbtFromFile := fun _ => .ok ⟨{ unsignedTx with vout := [⟨100, [82]⟩] }, false⟩ }

/-- The file is refused while a prepared transaction is under review, which stays. -/
theorem import_keeps_prepared : SameReview (prepared false false)
    ((prepared false false).importPsbtFromFile oneScript psbtApi strangeFile "file.psbt").state :=
  import_keeps_review oneScript_lawful "file.psbt" (by decide) (by decide)

end OneCoin

end GuiQml.Wallet
