import GuiQml.Wallet.FeePreview
import GuiQml.Wallet.Conserved
import GuiQml.Wallet.Reviewed
import GuiQml.Wallet.Captured
import Mathlib.Tactic.Ring

/-!
# The previewed amount is the prepared one

A preview and `prepareTransactionInternal` set up the coin control in two places. They build the same
transaction, up to the lock time and the signatures.
-/

namespace GuiQml.Wallet

open GuiQml.Int64

variable {Psbt : Type}

/-! ## What sending everything does not read -/

/-- Core's fee rate and its list of coins do not depend on where change would go. -/
structure IgnoresChange (w : CoreWallet) : Prop where
  rate : ∀ control destination,
    w.getMinimumFeeRate { control with destChange := destination } = w.getMinimumFeeRate control
  coins : ∀ control destination params,
    w.availableCoins { control with destChange := destination } params =
      w.availableCoins control params

theorem createSendAll_destChange {w : CoreWallet} (hw : IgnoresChange w) (api : AddressApi)
    (recipients : List CRecipient) (control : SendControl) (destination : Option Destination)
    (remainder_index : Int) (sign : Bool) (lockTime : Nat) :
    createSendAllTransaction api (some w) recipients { control with destChange := destination }
        remainder_index sign lockTime =
      createSendAllTransaction api (some w) recipients control remainder_index sign lockTime := by
  have hinputs : w.sendAllInputs { control with destChange := destination } =
      w.sendAllInputs control := by
    unfold CoreWallet.sendAllInputs CoreWallet.availableSendAllCoins
    rw [← hw.coins { control with selected := [] } destination]
  unfold createSendAllTransaction
  simp only [hinputs, hw.rate control destination]

theorem checkAndSign_again {w : CoreWallet} {tx : Transaction} {fee : CAmount} {lockTime : Nat}
    {unsigned : CreatedTransactionResult} (h : w.checkAndSign tx fee false lockTime = .ok unsigned)
    (sign : Bool) (lockTime' : Nat) :
    w.checkAndSign tx fee sign lockTime' =
      w.checkAndSign unsigned.tx unsigned.fee sign lockTime' := by
  obtain ⟨-, hfee, htx⟩ := CoreWallet.checkAndSign_ok h
  rw [hfee, ← Option.some.inj htx]
  rfl

/-- Signing comes last: everything before it is as for the unsigned transaction. -/
theorem payRemainder_sign {w : CoreWallet} {tx : Transaction} {inputs : List OutPoint}
    {rate total fixed_amount : CAmount} {remainder_index lockTime : Nat}
    {unsigned : CreatedTransactionResult}
    (h : w.payRemainder tx inputs rate total fixed_amount remainder_index false lockTime =
      .ok unsigned) (sign : Bool) (lockTime' : Nat) :
    w.payRemainder tx inputs rate total fixed_amount remainder_index sign lockTime' =
      w.checkAndSign unsigned.tx unsigned.fee sign lockTime' := by
  unfold CoreWallet.payRemainder at *
  simp only [checked_add, checked_sub, bind, Except.bind] at *
  split_ifs at h with hsize hweight hfee
  rw [if_neg hsize, if_neg hweight, if_pos hfee]
  simp only at h ⊢
  split_ifs at h with hmax hcover hleft
  rw [if_neg hmax, if_neg hcover, if_pos hleft]
  simp only at h ⊢
  split_ifs at h with hfixed hrest
  rw [if_neg hfixed, if_pos hrest]
  exact checkAndSign_again h sign lockTime'

theorem createSendAll_sign {api : AddressApi} {w : CoreWallet} {recipients : List CRecipient}
    {control : SendControl} {remainder_index : Int} {lockTime : Nat}
    {unsigned : CreatedTransactionResult}
    (h : createSendAllTransaction api (some w) recipients control remainder_index false lockTime =
      .ok unsigned) (sign : Bool) (lockTime' : Nat) :
    createSendAllTransaction api (some w) recipients control remainder_index sign lockTime' =
      w.checkAndSign unsigned.tx unsigned.fee sign lockTime' := by
  unfold createSendAllTransaction at *
  simp only at *
  split_ifs at h with hindex hrate hfallback hempty
  rw [if_neg hindex, if_neg hrate, if_neg hfallback, if_neg hempty]
  simp only [bind, Except.bind] at *
  cases hinputs : w.addInputs (w.sendAllInputs control) 0 with
  | error e => simp [hinputs] at h
  | ok p =>
    cases houtputs : addOutputs api remainder_index recipients 0 [] 0 with
    | error e => simp [hinputs, houtputs] at h
    | ok q =>
      simp only [hinputs, houtputs] at h
      exact payRemainder_sign h sign lockTime'

/-- The recipient with another amount. -/
def CRecipient.setAmount (n : CAmount) (recipient : CRecipient) : CRecipient :=
  { recipient with nAmount := n }

theorem addOutputs_setAmount (api : AddressApi) {remainder_index : Int} (n : CAmount)
    (recipients : List CRecipient) {i j : Nat} (hj : ((i + j : Nat) : Int) = remainder_index)
    (destinations : List Destination) (fixed_amount : CAmount) :
    addOutputs api remainder_index (recipients.modify j (·.setAmount n)) i destinations
        fixed_amount = addOutputs api remainder_index recipients i destinations fixed_amount := by
  induction recipients generalizing i j destinations fixed_amount with
  | nil => simp
  | cons recipient rest ih =>
    rcases j with _ | j
    · have hi : (i : Int) = remainder_index := by simpa using hj
      simp only [List.modify_zero_cons, addOutputs, CRecipient.setAmount, if_pos hi]
    · rw [List.modify_succ_cons]
      simp only [addOutputs, ih (i := i + 1) (j := j) (by rw [← hj]; push_cast; ring)]

theorem createSendAll_setAmount (api : AddressApi) (wallet : Option CoreWallet)
    (recipients : List CRecipient) (control : SendControl) (index : Nat) (n : CAmount) (sign : Bool)
    (lockTime : Nat) :
    createSendAllTransaction api wallet (recipients.modify index (·.setAmount n)) control index sign
        lockTime =
      createSendAllTransaction api wallet recipients control index sign lockTime := by
  have houtputs : addOutputs api index (recipients.modify index (·.setAmount n)) 0 [] 0 =
      addOutputs api index recipients 0 [] 0 :=
    addOutputs_setAmount api n recipients (by simp) [] 0
  unfold createSendAllTransaction
  simp only [List.length_modify, houtputs]

/-! ## The form -/

theorem mapM_modify {α β : Type} {F : α × Nat → Option β} {f : α → α} {g : β → β} (l : List α)
    {i j : Nat} (h : ∀ a, F (f a, i + j) = (F (a, i + j)).map g) :
    ((l.modify j f).zipIdx i).mapM F = ((l.zipIdx i).mapM F).map (·.modify j g) := by
  induction l generalizing i j with
  | nil => simp
  | cons a rest ih =>
    rcases j with _ | j
    · have ha := h a
      simp only [Nat.add_zero] at ha
      simp only [List.modify_zero_cons, List.zipIdx_cons, List.mapM_cons, ha]
      cases F (a, i) <;> cases (rest.zipIdx (i + 1)).mapM F <;> simp
    · have hrest := ih (i := i + 1) (j := j) (by rwa [show i + 1 + j = i + (j + 1) by omega])
      simp only [List.modify_succ_cons, List.zipIdx_cons, List.mapM_cons, hrest]
      cases F (a, i) <;> cases (rest.zipIdx (i + 1)).mapM F <;> simp

/-- The row shows the amount `n`, which it takes for valid or not. -/
def SendRecipient.setMaximum (n : CAmount) (valid : Bool) (row : SendRecipient) : SendRecipient :=
  { row with cAmount := n, isValid := valid }

theorem buildRecipients_setMaximum (api : AddressApi) (rows : List SendRecipient) (index : Nat)
    (n : CAmount) (valid : Bool) :
    WalletQmlModel.buildRecipients api (rows.modify index (·.setMaximum n valid)) (some index) =
      (WalletQmlModel.buildRecipients api rows (some index)).map
        (·.modify index (·.setAmount n)) := by
  unfold WalletQmlModel.buildRecipients
  rw [mapM_modify (g := (·.setAmount n)) rows]
  · cases rows.zipIdx.mapM fun (p : SendRecipient × Nat) =>
        if some index ≠ some p.2 ∧ (!p.1.isValid) = true then none
        else do
          let destination ← api.decodeDestination p.1.address
          some (⟨destination, p.1.cAmount, false⟩ : CRecipient) with
    | none => rfl
    | some recipients => by_cases h : recipients = [] <;> simp [h]
  · intro row
    simp [SendRecipient.setMaximum, CRecipient.setAmount]

/-! ## Every recipient is matched -/

theorem mapM_map {α β γ : Type} {f : α → Option β} {g : α → γ} {h : β → γ} {l : List α}
    {l' : List β} (hl : l.mapM f = some l') (hf : ∀ a b, f a = some b → g a = h b) :
    l.map g = l'.map h := by
  induction l generalizing l' with
  | nil =>
    obtain rfl : [] = l' := by simpa using hl
    rfl
  | cons a rest ih =>
    simp only [List.mapM_cons, Option.bind_eq_bind, Option.bind_eq_some_iff, Option.pure_def,
      Option.some.injEq] at hl
    obtain ⟨b, hb, others, hothers, rfl⟩ := hl
    rw [List.map_cons, List.map_cons, hf a b hb, ih hothers]

theorem buildRecipients_scripts {api : AddressApi} {rows : List SendRecipient}
    {maximum : Option Nat} {recipients : List CRecipient}
    (h : WalletQmlModel.buildRecipients api rows maximum = some recipients) :
    rows.map (scriptOf api) =
      recipients.map fun recipient => some (api.scriptForDestination recipient.dest) := by
  simp only [WalletQmlModel.buildRecipients, Option.bind_eq_bind, Option.bind_eq_some_iff] at h
  obtain ⟨vec_send, hvec, h⟩ := h
  split at h
  · simp at h
  obtain rfl : vec_send = recipients := by simpa using h
  rw [← mapM_map hvec (g := fun p => scriptOf api p.1)]
  · conv_lhs => rw [← List.zipIdx_map_fst 0 rows]
    rw [List.map_map]
    rfl
  · rintro ⟨row, i⟩ recipient hbuilt
    simp only at hbuilt
    split at hbuilt
    · simp at hbuilt
    · simp only [Option.bind_eq_some_iff, Option.some.injEq] at hbuilt
      obtain ⟨destination, hdest, rfl⟩ := hbuilt
      simp [scriptOf, hdest]

theorem matchRecipients_of_scripts {api : AddressApi} {vout : List TxOut}
    {rows : List SendRecipient} {recipients : List CRecipient}
    (hvout : vout.map (·.scriptPubKey) =
      recipients.map fun recipient => api.scriptForDestination recipient.dest)
    (hrows : rows.map (scriptOf api) =
      recipients.map fun recipient => some (api.scriptForDestination recipient.dest)) :
    (WalletQmlModelTransaction.matchRecipients api vout rows
      (List.replicate vout.length false)).isSome = true := by
  have hdecode : ∀ row ∈ rows, (scriptOf api row).isSome = true := by
    intro row hrow
    have : scriptOf api row ∈ rows.map (scriptOf api) := List.mem_map_of_mem hrow
    rw [hrows] at this
    obtain ⟨recipient, -, h⟩ := List.mem_map.mp this
    rw [← h]
    rfl
  apply (matchRecipients_isSome_of_unused hdecode).mpr
  intro script
  have hcount : rows.countP (fun row => scriptOf api row = some script) =
      (rows.map (scriptOf api)).countP (· = some script) := by
    rw [List.countP_map]
    rfl
  have hpaid : vout.countP (fun out => out.scriptPubKey = script) =
      (vout.map (·.scriptPubKey)).countP (· = script) := by
    rw [List.countP_map]
    rfl
  rw [hpaid, hvout, hcount, hrows, List.countP_map, List.countP_map]
  simp [Function.comp_def]

/-! ## One coin control for both -/

theorem applyPreviewChangeDestination_eq (dummy : OutputType → Destination)
    (change_type : OutputType) (control : SendControl) :
    ∃ destination, control.applyPreviewChangeDestination dummy change_type =
      { control with destChange := destination } := by
  unfold SendControl.applyPreviewChangeDestination
  cases previewChangeDestination dummy change_type with
  | none => exact ⟨control.destChange, rfl⟩
  | some destination => exact ⟨some destination, rfl⟩

section Preview

variable {api : AddressApi} {i : WalletInterface} {recipients : List CRecipient}
  {dummy : OutputType → Destination} {a : WalletAnswers Psbt} {m_coin_control : SendControl}
  {index lockTime : Nat} {preview : SendFeePreview}

theorem tryPreviewFee_some {control : SendControl}
    (h : tryPreviewFee api i recipients control index lockTime = some preview) :
    ∃ unsigned, createSendAllTransaction api i.wallet recipients control index false lockTime =
        .ok unsigned ∧ preview.fee = unsigned.fee ∧
      preview.maximum_amount = unsigned.tx.vout[index]?.map (·.nValue) := by
  have hindex : (0 : Int) ≤ index := by omega
  unfold tryPreviewFee at h
  simp only [if_pos hindex] at h
  cases hrun : createSendAllTransaction api i.wallet recipients control index false lockTime with
  | error e =>
    rw [hrun] at h
    simp only [Except.toOption, Option.ite_none_right_eq_some] at h
    exact absurd h.1 (by omega)
  | ok unsigned =>
    rw [hrun] at h
    simp only [Except.toOption, Option.some.injEq] at h
    subst h
    exact ⟨unsigned, rfl, rfl, by simp⟩

/-- With a maximum row there is no preview at a fallback rate. -/
theorem estimatePreviewFee_maximum {control : SendControl} {change_type : OutputType}
    {target : Nat} :
    estimatePreviewFee api i recipients dummy control change_type a target index lockTime =
      tryPreviewFee api i recipients (estimateCoinControl dummy control change_type a target)
        index lockTime := by
  unfold estimatePreviewFee
  simp only
  split
  · rename_i h
    exact h.symm
  · rename_i h
    rw [if_pos (.inl (by omega)), h]

/-- The coin control of the selected preview is the one that the transaction is prepared with, but
for the change destination. -/
theorem previewFor_some
    (h : previewFor api i dummy a m_coin_control recipients index lockTime = some preview) :
    ∃ control destination,
      WalletQmlModel.prepareCoinControl { a with coinControl := m_coin_control.toCCoinControl } =
        some control ∧
      tryPreviewFee api i recipients
        { m_coin_control with toCCoinControl := control, destChange := destination } index
        lockTime = some preview := by
  unfold previewFor at h
  simp only at h
  split_ifs at h with hcustom
  · obtain ⟨rate, hrate, h⟩ := Option.bind_eq_some_iff.mp h
    unfold estimateCustomPreviewFee customCoinControl at h
    obtain ⟨destination, hdest⟩ := applyPreviewChangeDestination_eq dummy
      (m_coin_control.m_change_type.getD i.getDefaultAddressType) {
        m_coin_control.applySelectedInputsPolicy with
        m_confirm_target := none, m_feerate := some rate, fOverrideFeeRate := true }
    rw [hdest] at h
    exact ⟨_, destination, by
      simp only [WalletQmlModel.prepareCoinControl, hcustom, hrate, if_true, Option.map_some]
      rfl, h⟩
  · rw [estimatePreviewFee_maximum] at h
    unfold estimateCoinControl at h
    obtain ⟨destination, hdest⟩ := applyPreviewChangeDestination_eq dummy
      (m_coin_control.m_change_type.getD i.getDefaultAddressType) {
        m_coin_control.applySelectedInputsPolicy with
        m_feerate := none, m_confirm_target := some (feeTargetBlocks m_coin_control) }
    simp only at h
    rw [hdest] at h
    exact ⟨_, destination, by
      simp only [WalletQmlModel.prepareCoinControl, hcustom, Bool.false_eq_true, if_false]
      rfl, h⟩

theorem lookup_filterMap {β : Type} {f : Nat → Option β} {l : List Nat} {target : Nat} {b : β}
    (h : (l.filterMap fun t => (f t).map (t, ·)).lookup target = some b) :
    f target = some b := by
  induction l with
  | nil => simp at h
  | cons t rest ih =>
    cases ht : f t with
    | none =>
      rw [List.filterMap_cons_none (by simp [ht])] at h
      exact ih h
    | some c =>
      rw [List.filterMap_cons_some (b := (t, c)) (by simp [ht]), List.lookup_cons] at h
      by_cases heq : target = t
      · subst heq
        simp only [beq_self_eq_true, Option.some.injEq] at h
        rw [ht, h]
      · rw [beq_false_of_ne heq] at h
        exact ih h

theorem selectedFeePreview_some {rows : List SendRecipient}
    (h : selectedFeePreview a m_coin_control
      (requestFeeEstimatesNow api i dummy a m_coin_control rows (some index) lockTime) =
        some preview) :
    ∃ recipients, WalletQmlModel.buildRecipients api rows (some index) = some recipients ∧
      previewFor api i dummy a m_coin_control recipients index lockTime = some preview := by
  unfold requestFeeEstimatesNow selectedFeePreview at h
  by_cases hwallet : (!a.hasWallet) = true
  · simp [hwallet] at h
  rw [if_neg hwallet] at h
  cases hbuild : WalletQmlModel.buildRecipients api rows (some index) with
  | none => simp [hbuild] at h
  | some recipients =>
    simp only [hbuild, Option.elim_some] at h
    refine ⟨recipients, rfl, ?_⟩
    unfold previewFor
    by_cases hcustom : a.customFeeEnabled = true
    · simp only [hcustom, if_true] at h ⊢
      split_ifs at h
      exact h
    · simp only [hcustom, Bool.false_eq_true, if_false] at h ⊢
      exact lookup_filterMap (f := fun target => estimatePreviewFee api i recipients dummy
        m_coin_control _ a target index lockTime) h

end Preview

/-! ## Preparing -/

section Prepare

variable {api : AddressApi} {a : WalletAnswers Psbt} {s : WalletQmlModel Psbt}
  {passphrase : Option String}

def WalletAnswers.needsPassphrase (a : WalletAnswers Psbt) : Bool :=
  !a.privateKeysDisabled && a.isCrypted && a.isLocked

/-- The wallet need not be unlocked, or the passphrase unlocks it. -/
def WalletAnswers.unlocks (a : WalletAnswers Psbt) : Option String → Bool
  | none => !a.needsPassphrase
  | some passphrase =>
    match a.tryUnlockWithPassphrase passphrase with
    | .incorrectPassphrase => false
    | .alreadyUnlocked | .unlockedNowRelockRequired => true

/-- What `prepareTransactionInternal` asks before it builds anything. -/
def MayPrepare (api : AddressApi) (a : WalletAnswers Psbt) (rows : List SendRecipient)
    (passphrase : Option String) : Bool :=
  a.available && WalletQmlModel.allValid api rows && a.unlocks passphrase

theorem unlockForAction_eq (s : WalletQmlModel Psbt)
    (h : (a.needsPassphrase && passphrase.isNone) = false) :
    (a.unlocks passphrase = true ∧ s.unlockForAction a passphrase = .ok s) ∨
      (a.unlocks passphrase = false ∧ ∃ s', s.unlockForAction a passphrase = .error s') := by
  unfold WalletAnswers.unlocks WalletQmlModel.unlockForAction
  cases passphrase with
  | none => exact .inl ⟨by simpa using h, rfl⟩
  | some passphrase =>
    simp only
    cases a.tryUnlockWithPassphrase passphrase with
    | incorrectPassphrase => exact .inr ⟨rfl, _, rfl⟩
    | alreadyUnlocked => exact .inl ⟨rfl, rfl⟩
    | unlockedNowRelockRequired => exact .inl ⟨rfl, rfl⟩

theorem prepare_refuses (h : MayPrepare api a s.m_send_recipients passphrase = false) :
    (s.prepareTransactionInternal api a passphrase).result = false := by
  unfold WalletQmlModel.prepareTransactionInternal
  simp only
  split_ifs with hclosing hform hvalid hlocked
  · rfl
  · rfl
  · rfl
  · cases WalletQmlModel.buildRecipients api s.clearTransactionStatus.m_send_recipients
      s.clearTransactionStatus.m_maximum_recipient <;> rfl
  cases WalletQmlModel.buildRecipients api s.clearTransactionStatus.m_send_recipients
      s.clearTransactionStatus.m_maximum_recipient with
  | none => rfl
  | some vec_send =>
    simp only
    have hneeds : (a.needsPassphrase && passphrase.isNone) = false := Bool.eq_false_iff.mpr hlocked
    rcases unlockForAction_eq s.clearTransactionStatus hneeds with ⟨hunlock, -⟩ | ⟨-, s', hrun⟩
    · have havailable : a.available = true := by simp_all
      have hall : WalletQmlModel.allValid api s.m_send_recipients = true :=
        (Bool.not_eq_false _).mp fun hno => hvalid (by
          rw [Bool.not_eq_true']
          exact hno)
      simp [MayPrepare, havailable, hall, hunlock] at h
    · rw [hrun]

theorem prepare_builds (h : MayPrepare api a s.m_send_recipients passphrase = true)
    {vec_send : List CRecipient} {control : CCoinControl}
    (hbuild : WalletQmlModel.buildRecipients api s.m_send_recipients s.m_maximum_recipient =
      some vec_send)
    (hcontrol : WalletQmlModel.prepareCoinControl a = some control) :
    s.prepareTransactionInternal api a passphrase =
      s.clearTransactionStatus.createAndAdopt api a vec_send control := by
  simp only [MayPrepare, Bool.and_eq_true] at h
  obtain ⟨⟨havailable, hvalid⟩, hunlock⟩ := h
  have hwallet : a.hasWallet = true := by
    simp only [WalletAnswers.available, Bool.and_eq_true] at havailable
    exact havailable.1
  have hrows : s.m_send_recipients.isEmpty = false := by
    simp only [WalletQmlModel.allValid, Bool.and_eq_true, Bool.not_eq_true'] at hvalid
    exact hvalid.1
  have hneeds : (a.needsPassphrase && passphrase.isNone) = false := by
    cases passphrase with
    | none => simpa [WalletAnswers.unlocks] using hunlock
    | some passphrase => simp
  have hok : s.clearTransactionStatus.unlockForAction a passphrase =
      .ok s.clearTransactionStatus := by
    rcases unlockForAction_eq s.clearTransactionStatus hneeds with ⟨-, hrun⟩ | ⟨hno, -⟩
    · exact hrun
    · simp [hunlock] at hno
  unfold WalletQmlModel.prepareTransactionInternal
  unfold WalletAnswers.needsPassphrase at hneeds
  have hform : s.clearTransactionStatus.m_send_recipients = s.m_send_recipients := rfl
  have hmaximum : s.clearTransactionStatus.m_maximum_recipient = s.m_maximum_recipient := rfl
  simp only [hform, hmaximum, hwallet, havailable, hrows, hvalid, hbuild, hneeds, hok, hcontrol,
    Bool.not_true, Bool.and_false, Bool.false_eq_true, if_false, Bool.or_self]

theorem createAndAdopt_error {vec_send : List CRecipient} {control : CCoinControl} {index : Nat}
    {e : String} (hmax : s.m_maximum_recipient = some index)
    (h : s.createForReview a vec_send control = .error e) :
    (s.createAndAdopt api a vec_send control).result = false := by
  unfold WalletQmlModel.createAndAdopt
  simp only
  rw [if_neg (by simp [hmax]), h]
  rfl

theorem createAndAdopt_ok {vec_send : List CRecipient} {control : CCoinControl} {index : Nat}
    {result : CreatedTransactionResult} (hmax : s.m_maximum_recipient = some index)
    (h : s.createForReview a vec_send control = .ok result) :
    (s.createAndAdopt api a vec_send control).result =
        (s.adoptPrepared api a control result).result ∧
      (s.createAndAdopt api a vec_send control).state =
        (s.adoptPrepared api a control result).state := by
  unfold WalletQmlModel.createAndAdopt
  simp only
  rw [if_neg (by simp [hmax]), h]
  exact ⟨rfl, rfl⟩

theorem setAmount_scripts (rows : List SendRecipient) (index : Nat) (n : CAmount) :
    (WalletQmlModel.setAmount rows index n).map (scriptOf api) = rows.map (scriptOf api) := by
  apply List.ext_getElem?
  intro i
  simp only [WalletQmlModel.setAmount, List.getElem?_map, List.getElem?_modify]
  cases rows[i]? with
  | none => rfl
  | some row => by_cases h : index = i <;> simp [h, scriptOf]

theorem setAmount_dest (recipients : List CRecipient) (index : Nat) (n : CAmount) :
    ((recipients.modify index (·.setAmount n)).map fun recipient =>
      some (api.scriptForDestination recipient.dest)) =
    recipients.map fun recipient => some (api.scriptForDestination recipient.dest) := by
  apply List.ext_getElem?
  intro i
  simp only [List.getElem?_map, List.getElem?_modify]
  cases recipients[i]? with
  | none => rfl
  | some recipient => by_cases h : index = i <;> simp [h, CRecipient.setAmount]

theorem adoptPrepared_matched {control : CCoinControl} {result : CreatedTransactionResult}
    {recipients : List CRecipient} {index : Nat} (hmax : s.m_maximum_recipient = some index)
    (hvout : result.tx.vout.map (·.scriptPubKey) =
      recipients.map fun recipient => api.scriptForDestination recipient.dest)
    (hrows : s.m_send_recipients.map (scriptOf api) =
      recipients.map fun recipient => some (api.scriptForDestination recipient.dest)) :
    (s.adoptPrepared api a control result).result = true ∧
      ∃ draft, (s.adoptPrepared api a control result).state.m_current_transaction = some draft ∧
        draft.m_wtx = some result.tx ∧ draft.m_fee = result.fee := by
  obtain ⟨snapshot, hsnapshot⟩ := Option.isSome_iff_exists.mp
    (matchRecipients_of_scripts hvout ((setAmount_scripts s.m_send_recipients index
      ((result.tx.vout[index]?.map (·.nValue)).getD 0)).trans hrows))
  unfold WalletQmlModel.adoptPrepared
  simp only [hmax, WalletQmlModelTransaction.captureReviewedRecipients,
    WalletQmlModelTransaction.setWtx_m_wtx, Option.bind_eq_bind, Option.bind_some, hsnapshot]
  refine ⟨trivial, _, rfl, ?_, ?_⟩
  · simp
  · simp

end Prepare

/-! ## The previewed amount -/

section Prepared

variable {api : AddressApi} {w : CoreWallet} {recipients : List CRecipient} {control : SendControl}
  {remainder_index : Int} {lockTime : Nat} {unsigned : CreatedTransactionResult}

theorem createSendAll_scripts
    (h : createSendAllTransaction api (some w) recipients control remainder_index false lockTime =
      .ok unsigned) :
    unsigned.tx.vout.map (·.scriptPubKey) =
      recipients.map fun recipient => api.scriptForDestination recipient.dest := by
  obtain ⟨vin, tx, -, -, -, -, -, -, -, htx⟩ := createSendAll_built h
  rw [← Option.some.inj htx]
  exact withRemainder_scripts

theorem createSendAll_again
    (h : createSendAllTransaction api (some w) recipients control remainder_index false lockTime =
      .ok unsigned) (sign : Bool) (lockTime' : Nat) :
    createSendAllTransaction api (some w) recipients control remainder_index sign lockTime' =
      match if sign then w.signTransaction { unsigned.tx with nLockTime := lockTime' }
        else some { unsigned.tx with nLockTime := lockTime' } with
      | none => .error (.error "Signing transaction failed.")
      | some tx => .ok ⟨tx, unsigned.fee, none⟩ := by
  obtain ⟨vin, tx, -, -, -, -, -, -, hdust, htx⟩ := createSendAll_built h
  have hkeep : unsigned.tx.vout.any w.isDust = false := by
    rw [← Option.some.inj htx]
    exact hdust
  rw [createSendAll_sign h sign lockTime', CoreWallet.checkAndSign]
  exact if_neg (Bool.eq_false_iff.mp hkeep)

theorem createSendAll_amount {index : Nat}
    (h : createSendAllTransaction api (some w) recipients control index false lockTime =
      .ok unsigned) :
    ∃ amount, unsigned.tx.vout[index]?.map (·.nValue) = some amount := by
  obtain ⟨vin, tx, ⟨-, hhigh⟩, -⟩ := createSendAll_built h
  have hlength := congrArg List.length (createSendAll_scripts h)
  rw [List.length_map, List.length_map] at hlength
  have hindex : index < unsigned.tx.vout.length := by omega
  exact ⟨_, by rw [List.getElem?_eq_getElem hindex, Option.map_some]⟩

end Prepared

section Main

variable {api : AddressApi} {i : WalletInterface} {dummy : OutputType → Destination}
  {a : WalletAnswers Psbt} {m_coin_control : SendControl} {rows : List SendRecipient} {index : Nat}
  {recipients : List CRecipient} {lockTime : Nat} {preview : SendFeePreview}

/-- Core's promises that the previews rely on. Signing does not change the amounts. -/
structure PreviewLaws (w : CoreWallet) : Prop extends IgnoresChange w where
  sign : ∀ tx signed, w.signTransaction tx = some signed → signed.vout = tx.vout

theorem createForReview_maximum {s : WalletQmlModel Psbt} (hmax : s.m_maximum_recipient = some index)
    (control : CCoinControl) (n : CAmount) :
    s.createForReview (a.withSendAll api i.wallet m_coin_control lockTime)
        (recipients.modify index (·.setAmount n)) control =
      (createSendAllTransaction api i.wallet recipients { m_coin_control with toCCoinControl := control }
        index (!a.privateKeysDisabled) lockTime).mapError SendAllFailure.text := by
  simp only [WalletQmlModel.createForReview, hmax]
  change (createSendAllTransaction api i.wallet _ { m_coin_control with toCCoinControl := control }
    index (!a.privateKeysDisabled) lockTime).mapError SendAllFailure.text = _
  rw [createSendAll_setAmount]

theorem createAndAdopt_previewed {w : CoreWallet} (hlaws : PreviewLaws w) (hi : i.wallet = some w)
    {s : WalletQmlModel Psbt} (hmax : s.m_maximum_recipient = some index) {n : CAmount}
    (hform : WalletQmlModel.buildRecipients api s.m_send_recipients s.m_maximum_recipient =
      some (recipients.modify index (·.setAmount n))) {control : CCoinControl}
    {unsigned : CreatedTransactionResult}
    (hrun : createSendAllTransaction api (some w) recipients
      { m_coin_control with toCCoinControl := control } index false lockTime = .ok unsigned)
    (lockTime' : Nat) :
    let out := s.createAndAdopt api (a.withSendAll api i.wallet m_coin_control lockTime')
      (recipients.modify index (·.setAmount n)) control
    (out.result = true ↔ (a.privateKeysDisabled = false →
        (w.signTransaction { unsigned.tx with nLockTime := lockTime' }).isSome = true)) ∧
      (out.result = true → ∃ draft tx, out.state.m_current_transaction = some draft ∧
        draft.m_wtx = some tx ∧ tx.vout = unsigned.tx.vout ∧ draft.m_fee = unsigned.fee) := by
  intro out
  have hcreate := @createForReview_maximum _ api i a m_coin_control index recipients lockTime' s hmax control n
  rw [hi, createSendAll_again hrun (!a.privateKeysDisabled) lockTime'] at hcreate
  cases hsigned : (if !a.privateKeysDisabled then
      w.signTransaction { unsigned.tx with nLockTime := lockTime' }
    else some { unsigned.tx with nLockTime := lockTime' } : Option Transaction) with
  | none =>
    rw [hsigned] at hcreate
    have hno : out.result = false := createAndAdopt_error hmax (hi ▸ hcreate)
    have hdisabled : a.privateKeysDisabled = false := by
      cases h : a.privateKeysDisabled <;> simp [h] at hsigned ⊢
    simp only [hdisabled, Bool.not_false, if_true] at hsigned
    simp [hno, hdisabled, hsigned]
  | some tx =>
    rw [hsigned] at hcreate
    obtain ⟨hresult, hstate⟩ :=
      @createAndAdopt_ok _ api _ _ _ _ _ _ hmax (hi ▸ hcreate)
    have hvout : tx.vout = unsigned.tx.vout := by
      split_ifs at hsigned
      · exact hlaws.sign { unsigned.tx with nLockTime := lockTime' } tx hsigned
      · rw [← Option.some.inj hsigned]
    obtain ⟨hmatched, draft, hdraft, hwtx, hfee⟩ :=
      @adoptPrepared_matched _ api (a.withSendAll api i.wallet m_coin_control lockTime') s control
        ⟨tx, unsigned.fee, none⟩ recipients index hmax (by rw [← createSendAll_scripts hrun, ← hvout])
        ((buildRecipients_scripts hform).trans (setAmount_dest recipients index n))
    have hyes : out.result = true := hresult.trans hmatched
    refine ⟨iff_of_true hyes fun hdisabled => ?_, fun _ => ?_⟩
    · rw [hdisabled] at hsigned
      exact Option.isSome_iff_exists.mpr ⟨tx, hsigned⟩
    · exact ⟨draft, tx, by rw [hstate, hdraft], hwtx, hvout, hfee⟩

/-- A preview with a maximum amount is what `prepareTransactionInternal` prepares, on the same form
and on the form that shows the previewed amount. It prepares nothing only when the wallet is closing,
a row is not valid, the wallet stays locked or it cannot sign. -/
theorem preview_is_prepared (hw : ∀ w ∈ i.wallet, PreviewLaws w)
    (hbuild : WalletQmlModel.buildRecipients api rows (some index) = some recipients)
    (hpreview : previewFor api i dummy a m_coin_control recipients index lockTime = some preview)
    {s : WalletQmlModel Psbt} (hmax : s.m_maximum_recipient = some index) {n : CAmount}
    {valid : Bool} (hrows : s.m_send_recipients = rows.modify index (·.setMaximum n valid))
    (lockTime' : Nat) (passphrase : Option String) :
    let answers := a.withSendAll api i.wallet m_coin_control lockTime'
    let out := s.prepareTransactionInternal api answers passphrase
    ∃ w control unsigned, i.wallet = some w ∧
      WalletQmlModel.prepareCoinControl answers = some control ∧
      createSendAllTransaction api (some w) recipients
        { m_coin_control with toCCoinControl := control } index false lockTime' = .ok unsigned ∧
      (out.result = true ↔ MayPrepare api answers s.m_send_recipients passphrase = true ∧
        (a.privateKeysDisabled = false → (w.signTransaction unsigned.tx).isSome = true)) ∧
      (out.result = true → ∃ draft tx amount,
        out.state.m_current_transaction = some draft ∧ draft.m_wtx = some tx ∧
        preview.maximum_amount = some amount ∧ tx.vout[index]?.map (·.nValue) = some amount ∧
        draft.m_fee = preview.fee) := by
  intro answers out
  obtain ⟨control, destination, hcontrol, htry⟩ := previewFor_some hpreview
  obtain ⟨first, hfirst, hfee, hamount⟩ := tryPreviewFee_some htry
  cases hi : i.wallet with
  | none =>
    rw [hi] at hfirst
    simp [createSendAllTransaction] at hfirst
  | some w =>
  have hlaws := hw w hi
  rw [hi] at hfirst
  have hrun := (createSendAll_destChange hlaws.toIgnoresChange api recipients
    { m_coin_control with toCCoinControl := control } destination index false lockTime).symm.trans
    hfirst
  have hsame := createSendAll_again hrun false lockTime'
  simp only [Bool.false_eq_true, if_false] at hsame
  refine ⟨w, control, _, rfl, hcontrol, hsame, ?_⟩
  have hform : WalletQmlModel.buildRecipients api s.m_send_recipients s.m_maximum_recipient =
      some (recipients.modify index (·.setAmount n)) := by
    rw [hmax, hrows, buildRecipients_setMaximum, hbuild, Option.map_some]
  cases hmay : MayPrepare api answers s.m_send_recipients passphrase with
  | false =>
    have hno : out.result = false := prepare_refuses hmay
    simp [hno]
  | true =>
  have hout : out = s.clearTransactionStatus.createAndAdopt api answers
      (recipients.modify index (·.setAmount n)) control := prepare_builds hmay hform hcontrol
  have hmaximum : s.clearTransactionStatus.m_maximum_recipient = some index := hmax
  obtain ⟨hresult, hdraft⟩ := @createAndAdopt_previewed _ api i a m_coin_control index recipients
    lockTime w hlaws hi s.clearTransactionStatus hmaximum n hform control first hrun lockTime'
  rw [hout]
  refine ⟨hresult.trans (and_iff_right rfl).symm, fun hyes => ?_⟩
  obtain ⟨draft, tx, hcurrent, hwtx, hvout, hdraftFee⟩ := hdraft hyes
  obtain ⟨amount, hfound⟩ := createSendAll_amount hrun
  exact ⟨draft, tx, amount, hcurrent, hwtx, by rw [hamount, hfound], by rw [hvout, hfound],
    by rw [hdraftFee, hfee]⟩

end Main

/-! ### A form with one coin -/

def coinInterface : WalletInterface where
  wallet := some oneCoin
  createTransaction _ _ _ := .error ""
  getMinimumFee size _ := size
  getRequiredFee size := size
  getDefaultAddressType := .bech32

theorem oneCoin_previewLaws : PreviewLaws oneCoin where
  rate _ _ := rfl
  coins _ _ _ := rfl
  sign tx signed h := by
    obtain rfl := Option.some.inj h
    rfl

/-- One row with an amount, and one with the maximum. -/
def twoRows : List SendRecipient := [⟨"a", "", "", 5000, true, false⟩, ⟨"b", "", "", 0, false, false⟩]

/-- The form that shows the maximum amount `n`. -/
def maximumForm (n : CAmount) : WalletQmlModel OneCoin.CoinPsbt where
  m_send_recipients := twoRows.modify 1 (·.setMaximum n true)
  m_maximum_recipient := some 1

def twoRowsPreview : SendFeePreview where
  fee := 141
  inputs := 1
  rate_per_kvb := 1000
  maximum_amount := some 2099999999994859
  sweeps_wallet := true

def twoRecipients : List CRecipient := [⟨"a", 5000, false⟩, ⟨"b", 0, false⟩]

theorem twoRows_build :
    WalletQmlModel.buildRecipients plainAddresses twoRows (some 1) = some twoRecipients := rfl

theorem preview_is_prepared_two_rows :
    let out := (maximumForm 2099999999994859).prepareTransactionInternal plainAddresses
      ((OneCoin.answers false false).withSendAll plainAddresses coinInterface.wallet {} 7) none
    out.result = true ∧ ∃ draft tx, out.state.m_current_transaction = some draft ∧
      draft.m_wtx = some tx ∧ tx.vout[1]?.map (·.nValue) = twoRowsPreview.maximum_amount ∧
      draft.m_fee = twoRowsPreview.fee := by
  obtain ⟨w, control, unsigned, hw, -, -, hiff, hdraft⟩ := @preview_is_prepared _ plainAddresses
    coinInterface (fun _ => "change") (OneCoin.answers false false) {} twoRows 1 twoRecipients 0
    twoRowsPreview (by rintro w ⟨⟩; exact oneCoin_previewLaws) twoRows_build (by decide)
    (maximumForm 2099999999994859) rfl 2099999999994859 true rfl 7 none
  obtain rfl := Option.some.inj hw
  have hresult := hiff.mpr ⟨by decide, fun _ => rfl⟩
  obtain ⟨draft, tx, amount, hd, htx, hmaximum, hout, hfee⟩ := hdraft hresult
  exact ⟨hresult, draft, tx, hd, htx, by rw [hout, hmaximum], hfee⟩

/-- The wallet is locked, and no passphrase was given. -/
theorem locked_wallet_prepares_nothing :
    let a := { OneCoin.answers false false with isCrypted := true, isLocked := true }
    previewFor plainAddresses coinInterface (fun _ => "change") a {} twoRecipients 1 0 =
        some twoRowsPreview ∧
      twoRowsPreview.maximum_amount = some 2099999999994859 ∧
      let out := (maximumForm 2099999999994859).prepareTransactionInternal plainAddresses
        (a.withSendAll plainAddresses coinInterface.wallet {} 7) none
      out.result = false ∧ out.state.m_current_transaction = none := by
  refine ⟨by decide, rfl, rfl, rfl⟩

end GuiQml.Wallet
