import GuiQml.Lib.Run
import GuiQml.Wallet.Draft

/-!
# What leaves the wallet was reviewed

Whatever is committed, broadcast or saved pays what the user last saw: the two halves of the draft
never describe different payments while a transaction is shown.
-/

namespace GuiQml.Wallet

variable {Psbt : Type}

/-! ## What Core promises -/

/-- Core's finalizers do not change the unsigned transaction of a PSBT, and a transaction taken from
a PSBT only adds scripts to it. -/
structure PsbtApi.Lawful (psbtApi : PsbtApi Psbt) : Prop where
  ofTransaction : ∀ tx, psbtApi.getUnsignedTx (psbtApi.ofTransaction (clearTransactionInputScripts tx))
    = some (clearTransactionInputScripts tx)
  finalizePSBT : ∀ psbt, psbtApi.getUnsignedTx (psbtApi.finalizePSBT psbt).1 =
    psbtApi.getUnsignedTx psbt
  finalizeAndExtractPSBT : ∀ psbt, psbtApi.getUnsignedTx (psbtApi.finalizeAndExtractPSBT psbt).1 =
    psbtApi.getUnsignedTx psbt
  extracted : ∀ psbt tx, (psbtApi.finalizeAndExtractPSBT psbt).2 = some tx →
    ∃ unsigned_tx, psbtApi.getUnsignedTx psbt = some unsigned_tx ∧ SamePayment tx unsigned_tx

/-- `fillPSBT` does not change the unsigned transaction either. -/
def WalletAnswers.FillKeepsTx (a : WalletAnswers Psbt) (psbtApi : PsbtApi Psbt) : Prop :=
  ∀ options psbt filled complete n_signed,
    a.fillPSBT options psbt = .filled filled complete n_signed →
    psbtApi.getUnsignedTx filled = psbtApi.getUnsignedTx psbt

/-- The PSBT is one of the payment `tx`. -/
def PsbtApi.Pays (psbtApi : PsbtApi Psbt) (psbt : Psbt) (tx : Transaction) : Prop :=
  ∃ unsigned_tx, psbtApi.getUnsignedTx psbt = some unsigned_tx ∧ SamePayment unsigned_tx tx

section Laws

variable {psbtApi : PsbtApi Psbt} {a : WalletAnswers Psbt} {p q : Psbt} {tx tx' : Transaction}

theorem Reworked.getUnsignedTx (h : Reworked psbtApi a p q) (hlaw : psbtApi.Lawful)
    (hfill : a.FillKeepsTx psbtApi) : psbtApi.getUnsignedTx q = psbtApi.getUnsignedTx p := by
  induction h with
  | refl => rfl
  | filled _ hf ih => exact (hfill _ _ _ _ _ hf).trans ih
  | finalized _ ih => exact (hlaw.finalizePSBT _).trans ih
  | extracted _ ih => exact (hlaw.finalizeAndExtractPSBT _).trans ih

theorem PsbtApi.Pays.trans (h : psbtApi.Pays p tx) (h' : SamePayment tx tx') :
    psbtApi.Pays p tx' := by
  obtain ⟨u, hu, hs⟩ := h
  exact ⟨u, hu, hs.trans h'⟩

theorem Reworked.pays (h : Reworked psbtApi a p q) (hlaw : psbtApi.Lawful)
    (hfill : a.FillKeepsTx psbtApi) (hp : psbtApi.Pays p tx) : psbtApi.Pays q tx := by
  unfold PsbtApi.Pays
  rw [h.getUnsignedTx hlaw hfill]
  exact hp

theorem PsbtApi.Pays.extracted (hp : psbtApi.Pays p tx) (hlaw : psbtApi.Lawful)
    (h : (psbtApi.finalizeAndExtractPSBT p).2 = some tx') : SamePayment tx' tx := by
  obtain ⟨u, hu, hs⟩ := hp
  obtain ⟨v, hv, ht⟩ := hlaw.extracted _ _ h
  cases hu.symm.trans hv
  exact ht.trans hs

end Laws

/-! ## The two halves agree -/

/-- The transaction that `m_current_transaction` shows. -/
def Draft.shown (d : Draft Psbt) : Option Transaction := d.transaction.bind (·.m_wtx)

/-- A draft with a transaction shows one, and its PSBT is one of the same payment. -/
structure Draft.Coherent (psbtApi : PsbtApi Psbt) (d : Draft Psbt) : Prop where
  shows : ∀ current, d.transaction = some current → ∃ tx, current.m_wtx = some tx
  psbt : ∀ tx psbt, d.shown = some tx → d.psbt = some psbt → psbtApi.Pays psbt tx

/-- The effect hands out nothing but the payment `tx`. -/
def Effect.Pays (psbtApi : PsbtApi Psbt) (tx : Transaction) : Effect Psbt → Prop
  | .commitTransaction sent | .broadcastTransaction sent _ => SamePayment sent tx
  | .savePsbtToFile psbt => psbtApi.Pays psbt tx
  | _ => True

def Effect.capturedTx : Effect Psbt → Option Transaction
  | .captured tx => some tx
  | _ => none

/-- The effect hands a transaction or a PSBT to the wallet, the network or a file. -/
def Effect.handsOut : Effect Psbt → Bool
  | .commitTransaction _ | .broadcastTransaction _ _ | .savePsbtToFile _ => true
  | _ => false

theorem capturedTx_of_quiet {e : Effect Psbt} (h : e.quiet = true) : e.capturedTx = none := by
  cases e <;> simp_all [Effect.quiet, Effect.capturedTx]

theorem pays_of_quiet {e : Effect Psbt} (h : e.quiet = true) (psbtApi : PsbtApi Psbt)
    (tx : Transaction) : e.Pays psbtApi tx := by
  cases e <;> simp_all [Effect.quiet, Effect.Pays]

theorem Effect.Pays.trans {psbtApi : PsbtApi Psbt} {e : Effect Psbt} {tx tx' : Transaction}
    (h : e.Pays psbtApi tx) (h' : SamePayment tx tx') : e.Pays psbtApi tx' := by
  cases e with
  | commitTransaction | broadcastTransaction => exact SamePayment.trans h h'
  | savePsbtToFile => exact PsbtApi.Pays.trans h h'
  | _ => trivial

theorem handsOut_of_quiet {e : Effect Psbt} (h : e.quiet = true) : e.handsOut = false := by
  cases e <;> simp_all [Effect.quiet, Effect.handsOut]

/-- What a turn does to the payment under review: it captures another one, it shows none, or it goes
on with the one shown and hands out no other. -/
inductive Review (psbtApi : PsbtApi Psbt) (d d' : Draft Psbt) (es : List (Effect Psbt)) : Prop
  | captured (tx) : d'.shown = some tx → Runs.lastSome Effect.capturedTx es = some tx →
      (∀ e ∈ es, e.handsOut = false) → Review psbtApi d d' es
  | none : d'.transaction = none → (∀ e ∈ es, e.quiet) → Review psbtApi d d' es
  | same (tx tx') : d.shown = some tx → d'.shown = some tx' → SamePayment tx' tx →
      (∀ e ∈ es, e.capturedTx = Option.none) → (∀ e ∈ es, e.Pays psbtApi tx) →
      Review psbtApi d d' es

section Turns

variable {psbtApi : PsbtApi Psbt} {a : WalletAnswers Psbt} {d d' : Draft Psbt} {call : Call}
  {es : List (Effect Psbt)}

theorem Draft.Coherent.psbtOf (h : d.Coherent psbtApi) (hlaw : psbtApi.Lawful)
    {tx : Transaction} (htx : d.shown = some tx) : psbtApi.Pays (d.psbtOf psbtApi tx) tx := by
  unfold Draft.psbtOf
  cases hp : d.psbt with
  | none => exact ⟨_, hlaw.ofTransaction tx, samePayment_clear tx⟩
  | some psbt => exact h.psbt tx psbt htx hp

theorem shown_of {current : WalletQmlModelTransaction} {tx : Transaction}
    (hc : d.transaction = some current) (htx : current.m_wtx = some tx) : d.shown = some tx := by
  simp [Draft.shown, hc, htx]

theorem Review.of_quiet (h : d.Coherent psbtApi) (hq : ∀ e ∈ es, e.quiet) :
    Review psbtApi d d es := by
  cases hd : d.transaction with
  | none => exact .none hd hq
  | some current =>
    obtain ⟨tx, htx⟩ := h.shows current hd
    exact .same tx tx (shown_of hd htx) (shown_of hd htx) (.refl tx)
      (fun e he => capturedTx_of_quiet (hq e he)) fun e he => pays_of_quiet (hq e he) psbtApi tx

theorem coherent_of_none (h : d.transaction = none) : d.Coherent psbtApi where
  shows _ hc := by simp [h] at hc
  psbt _ _ hs := by simp [Draft.shown, h] at hs

theorem finished_coherent (current : WalletQmlModelTransaction) (tx : Transaction)
    (can_send : Bool) : (Draft.finished current tx can_send).Coherent psbtApi where
  shows _ h := by cases h; exact ⟨tx, rfl⟩
  psbt _ _ _ h := nomatch h

/-- The step lemma: a turn keeps the halves together, and treats the payment as `Review` says. -/
theorem Turn.review (h : Turn psbtApi a d call d' es) (hlaw : psbtApi.Lawful)
    (hfill : a.FillKeepsTx psbtApi) (hc : d.Coherent psbtApi) :
    d'.Coherent psbtApi ∧ Review psbtApi d d' es := by
  cases h with
  | kept hq => exact ⟨hc, .of_quiet hc hq⟩
  | dropped _ hq => exact ⟨coherent_of_none rfl, .none rfl hq⟩
  | @prepared _ current tx htx =>
    refine ⟨⟨?_, nofun⟩, .captured tx htx rfl (by simp [Effect.handsOut])⟩
    rintro _ ⟨⟩
    exact ⟨tx, htx⟩
  | @imported _ current tx psbt analysis_psbt _ _ htx hre hu =>
    refine ⟨⟨?_, ?_⟩, .captured tx htx rfl (by simp [Effect.handsOut])⟩
    · rintro _ ⟨⟩
      exact ⟨tx, htx⟩
    · intro tx' _ hshown hp
      cases hp
      cases htx.symm.trans hshown
      exact ⟨tx, (hre.getUnsignedTx hlaw hfill).symm.trans hu, .refl tx⟩
  | @signedPartially current tx psbtx _ hcur htx hre hq =>
    have hp := hre.pays hlaw hfill (hc.psbtOf hlaw (shown_of hcur htx))
    refine ⟨⟨?_, ?_⟩, .same tx tx (shown_of hcur htx) (shown_of rfl htx) (.refl tx)
      (fun e he => capturedTx_of_quiet (hq e he)) fun e he => pays_of_quiet (hq e he) psbtApi tx⟩
    · rintro _ ⟨⟩
      exact ⟨tx, htx⟩
    · intro tx' _ hshown hpsbt
      cases hpsbt
      cases htx.symm.trans hshown
      exact hp
  | @signed current tx psbtx signed_tx _ hcur htx hre hx hq =>
    have hp := hre.pays hlaw hfill (hc.psbtOf hlaw (shown_of hcur htx))
    have hsame : SamePayment signed_tx tx := hp.extracted hlaw hx
    refine ⟨⟨?_, ?_⟩, .same tx signed_tx (shown_of hcur htx) rfl hsame
      (fun e he => capturedTx_of_quiet (hq e he)) fun e he => pays_of_quiet (hq e he) psbtApi tx⟩
    · rintro _ ⟨⟩
      exact ⟨signed_tx, rfl⟩
    · intro tx' _ hshown hpsbt
      cases hpsbt
      cases hshown
      exact (hre.extracted.pays hlaw hfill (hc.psbtOf hlaw (shown_of hcur htx))).trans hsame.symm
  | @broadcast current psbt tx hcur hpsbt _ hx =>
    obtain ⟨tx₀, htx⟩ := hc.shows current hcur
    have hsame := (hc.psbt tx₀ psbt (shown_of hcur htx) hpsbt).extracted hlaw hx
    exact ⟨finished_coherent current tx false, .same tx₀ tx (shown_of hcur htx) rfl hsame
      (by simp [Effect.capturedTx]) (by simpa [Effect.Pays] using hsame)⟩
  | @refused current psbt tx hcur hpsbt _ hx =>
    obtain ⟨tx₀, htx⟩ := hc.shows current hcur
    have hsame := (hc.psbt tx₀ psbt (shown_of hcur htx) hpsbt).extracted hlaw hx
    exact ⟨hc, .same tx₀ tx₀ (shown_of hcur htx) (shown_of hcur htx) (.refl tx₀)
      (by simp [Effect.capturedTx]) (by simpa [Effect.Pays] using hsame)⟩
  | @committedPsbt _ current psbt psbtx tx es _ hcur hpsbt _ hre hx hq =>
    obtain ⟨tx₀, htx⟩ := hc.shows current hcur
    have hp := hre.pays hlaw hfill (hc.psbt tx₀ psbt (shown_of hcur htx) hpsbt)
    have hsame : SamePayment tx tx₀ := hp.extracted hlaw hx
    refine ⟨finished_coherent current tx true, .same tx₀ tx (shown_of hcur htx) rfl hsame ?_ ?_⟩
    · simpa [Effect.capturedTx] using fun e he => capturedTx_of_quiet (hq e he)
    · simpa [Effect.Pays, hsame] using fun e he => pays_of_quiet (hq e he) psbtApi tx₀
  | @committedPlain _ current tx es _ hcur hpsbt htx _ hq =>
    refine ⟨⟨hc.shows, hc.psbt⟩, .same tx tx (shown_of hcur htx) (shown_of hcur htx) (.refl tx)
      ?_ ?_⟩
    · simpa [Effect.capturedTx] using fun e he => capturedTx_of_quiet (hq e he)
    · simpa [Effect.Pays, SamePayment.refl] using fun e he => pays_of_quiet (hq e he) psbtApi tx
  | @saved _ current tx psbtx hcur htx hre =>
    have hp := hre.pays hlaw hfill (hc.psbtOf hlaw (shown_of hcur htx))
    exact ⟨hc, .same tx tx (shown_of hcur htx) (shown_of hcur htx) (.refl tx)
      (by simp [Effect.capturedTx]) (by simpa [Effect.Pays] using hp)⟩

end Turns

/-! ## A wallet with one coin -/

namespace OneCoin

/-- A PSBT that is its transaction and a mark whether the only input is signed. -/
structure CoinPsbt where
  tx : Transaction
  signed : Bool

def signTx (tx : Transaction) : Transaction :=
  { tx with vin := tx.vin.map fun input => { input with scriptSig := [48] } }

theorem signTx_samePayment (tx : Transaction) : SamePayment (signTx tx) tx :=
  ⟨by simp [signTx, Function.comp_def], rfl, rfl, rfl⟩

def unsignedTx : Transaction := ⟨2, [⟨⟨7, 0⟩, [], 0, []⟩], [⟨100, [81]⟩], 0⟩

def psbtApi : PsbtApi CoinPsbt where
  ofTransaction tx := ⟨tx, false⟩
  getUnsignedTx psbt := some psbt.tx
  inputsSize psbt := psbt.tx.vin.length
  outputsSize psbt := psbt.tx.vout.length
  finalizePSBT psbt := (psbt, psbt.signed)
  finalizeAndExtractPSBT psbt := (psbt, if psbt.signed then some (signTx psbt.tx) else none)
  analyzeFee _ := some 1
  countPSBTUnsignedInputs psbt := if psbt.signed then 0 else psbt.tx.vin.length
  multisigPsbtInputSigInfo _ _ := none

def addressApi : AddressApi where
  decodeDestination := some
  encodeDestination := id
  scriptForDestination _ := [81]
  extractDestination _ := some "receiver"
  isUnspendable _ := false
  trimmed := id

/-- The answers of an unlocked wallet whose key flags are the two arguments. -/
def answers (privateKeysDisabled hasExternalSigner : Bool) : WalletAnswers CoinPsbt where
  hasWallet := true
  unloadRequested := false
  hasNode := true
  hasImportedPsbtModel := true
  privateKeysDisabled := privateKeysDisabled
  hasExternalSigner := hasExternalSigner
  isCrypted := false
  isLocked := false
  tryUnlockWithPassphrase _ := .alreadyUnlocked
  isRegtest := false
  defaultTransactionMinFee := 1000
  customFeeEnabled := false
  customFeeRatePerKvB := none
  feeTargetBlocks := 6
  estimatedFeeRate := ""
  coinControl := {}
  getAvailableBalance _ := 1000
  createTransaction _ _ sign := .ok ⟨if sign then signTx unsignedTx else unsignedTx, 1, none⟩
  createSendAllTransaction _ _ _ sign :=
    .ok ⟨if sign then signTx unsignedTx else unsignedTx, 1, none⟩
  transactionSweepsAvailableFunds _ _ := false
  txinIsMine _ := true
  txoutIsMine _ := false
  addressLabel _ := ""
  addressBookLabel _ := none
  knowsTransaction _ := false
  fillPSBT options psbt :=
    .filled { psbt with signed := psbt.signed || options.sign } (psbt.signed || options.sign) 1
  psbtErrorText _ := ""
  loadPsbtFromFile _ := .ok ⟨unsignedTx, false⟩
  savePsbtToFile _ _ := ""
  broadcastTransaction _ := none

def recipient : SendRecipient := ⟨"receiver", "", "", 100, true, false⟩

theorem psbtApi_lawful : psbtApi.Lawful where
  ofTransaction _ := rfl
  finalizePSBT _ := rfl
  finalizeAndExtractPSBT _ := rfl
  extracted psbt tx h := by
    refine ⟨psbt.tx, rfl, ?_⟩
    simp only [psbtApi] at h
    split at h
    · cases h
      exact signTx_samePayment psbt.tx
    · cases h

theorem answers_fillKeepsTx (privateKeysDisabled hasExternalSigner : Bool) :
    (answers privateKeysDisabled hasExternalSigner).FillKeepsTx psbtApi := by
  rintro _ psbt _ _ _ ⟨⟩
  rfl

def fillForm : Call := .editForm [recipient] none

/-- A call on the wallet whose key flags are the two arguments. -/
def call (privateKeysDisabled hasExternalSigner : Bool) (s : WalletQmlModel CoinPsbt)
    (call : Call) : WalletQmlModel CoinPsbt × List (Effect CoinPsbt) :=
  perform addressApi psbtApi s call (answers privateKeysDisabled hasExternalSigner)

def filled : WalletQmlModel CoinPsbt := (call false false {} fillForm).1

/-- The form was filled in and the transaction prepared. -/
def prepared (privateKeysDisabled hasExternalSigner : Bool) : WalletQmlModel CoinPsbt :=
  (call privateKeysDisabled hasExternalSigner filled (.prepareTransaction none)).1

def preparedTx (privateKeysDisabled : Bool) : Transaction :=
  if privateKeysDisabled then unsignedTx else signTx unsignedTx

def preparedLog (privateKeysDisabled : Bool) : List (Effect CoinPsbt) :=
  [.created (preparedTx privateKeysDisabled) !privateKeysDisabled,
    .captured (preparedTx privateKeysDisabled), .currentTransactionChanged]

end OneCoin

/-! ## Runs -/

/-- One call on the model, answered in any way that keeps to what Core promises. -/
def SendStep (api : AddressApi) (psbtApi : PsbtApi Psbt) (s : WalletQmlModel Psbt)
    (es : List (Effect Psbt)) (s' : WalletQmlModel Psbt) : Prop :=
  ∃ call a, WalletAnswers.FillKeepsTx a psbtApi ∧ perform api psbtApi s call a = (s', es)

/-- While a transaction is shown, it is the payment of the last capture. -/
structure Reviewed (psbtApi : PsbtApi Psbt) (d : Draft Psbt) (log : List (Effect Psbt)) : Prop where
  coherent : d.Coherent psbtApi
  shown : ∀ tx, d.shown = some tx →
    ∃ captured, Runs.lastSome Effect.capturedTx log = some captured ∧ SamePayment tx captured

section Runs

variable {api : AddressApi} {psbtApi : PsbtApi Psbt} {s s' : WalletQmlModel Psbt}
  {log es : List (Effect Psbt)}

theorem SendStep.review (h : SendStep api psbtApi s es s') (hlaw : psbtApi.Lawful)
    (hc : s.draft.Coherent psbtApi) :
    s'.draft.Coherent psbtApi ∧ Review psbtApi s.draft s'.draft es := by
  obtain ⟨call, a, hfill, hp⟩ := h
  have hturn := perform_turn api psbtApi s call a
  rw [hp] at hturn
  exact hturn.review hlaw hfill hc

theorem Reviewed.step (h : Reviewed psbtApi s.draft log) (hlaw : psbtApi.Lawful)
    (hstep : SendStep api psbtApi s es s') : Reviewed psbtApi s'.draft (log ++ es) := by
  obtain ⟨hc, hreview⟩ := hstep.review hlaw h.coherent
  refine ⟨hc, fun tx htx => ?_⟩
  cases hreview with
  | captured tx' htx' hlast _ =>
    cases htx'.symm.trans htx
    exact ⟨tx, Runs.lastSome_append_of_some hlast, .refl tx⟩
  | none hnone _ => simp [Draft.shown, hnone] at htx
  | same tx₀ tx' htx₀ htx' hsame hquiet _ =>
    cases htx'.symm.trans htx
    obtain ⟨captured, hlast, hs⟩ := h.shown tx₀ htx₀
    exact ⟨captured, (Runs.lastSome_append_of_none log es hquiet).trans hlast, hsame.trans hs⟩

theorem Reviewed.run (hlaw : psbtApi.Lawful)
    (h : Runs.Run (SendStep api psbtApi) {} s log) : Reviewed psbtApi s.draft log :=
  h.invariant (I := fun s log => Reviewed psbtApi s.draft log)
    ⟨coherent_of_none rfl, fun _ hs => by simp [Draft.shown, WalletQmlModel.draft] at hs⟩
    fun _ _ _ _ hi hs => hi.step hlaw hs

/-- In every run, what a call commits, broadcasts or saves pays the transaction that was captured
last, and the one shown before and after the call. -/
theorem handed_out_is_reviewed (hlaw : psbtApi.Lawful)
    (hrun : Runs.Run (SendStep api psbtApi) {} s log) (hstep : SendStep api psbtApi s es s')
    {e : Effect Psbt} (he : e ∈ es) (hout : e.handsOut = true) :
    ∃ captured shown shown',
      Runs.lastSome Effect.capturedTx log = some captured ∧
      Runs.lastSome Effect.capturedTx (log ++ es) = some captured ∧
      s.draft.shown = some shown ∧ s'.draft.shown = some shown' ∧
      e.Pays psbtApi captured ∧ e.Pays psbtApi shown ∧ e.Pays psbtApi shown' := by
  have hi := Reviewed.run hlaw hrun
  obtain ⟨-, hreview⟩ := hstep.review hlaw hi.coherent
  cases hreview with
  | captured _ _ _ hnone => simp [hnone e he] at hout
  | none _ hquiet => simp [handsOut_of_quiet (hquiet e he)] at hout
  | same shown shown' hshown hshown' hsame hquiet hpays =>
    obtain ⟨captured, hlast, hs⟩ := hi.shown shown hshown
    exact ⟨captured, shown, shown', hlast,
      (Runs.lastSome_append_of_none log es hquiet).trans hlast, hshown, hshown',
      (hpays e he).trans hs, hpays e he, (hpays e he).trans hsame.symm⟩

end Runs

theorem OneCoin.sendStep (s : WalletQmlModel CoinPsbt) (c : Call) :
    SendStep addressApi psbtApi s (OneCoin.call false false s c).2
      (OneCoin.call false false s c).1 :=
  ⟨c, _, answers_fillKeepsTx false false, rfl⟩

theorem OneCoin.prepared_run :
    Runs.Run (SendStep addressApi psbtApi) {} (prepared false false) (preparedLog false) :=
  .snoc (.snoc .nil (sendStep {} fillForm)) (sendStep filled (.prepareTransaction none))

/-- A prepared transaction is sent: what the wallet gets is what was captured. -/
theorem handed_out_is_reviewed_prepared :
    ∃ captured shown shown',
      Runs.lastSome Effect.capturedTx (OneCoin.preparedLog false) = some captured ∧
      Runs.lastSome Effect.capturedTx (OneCoin.preparedLog false ++
        [.commitTransaction (OneCoin.preparedTx false)]) = some captured ∧
      (OneCoin.prepared false false).draft.shown = some shown ∧
      (OneCoin.call false false (OneCoin.prepared false false) (.sendTransaction none)).1.draft.shown
        = some shown' ∧
      Effect.Pays OneCoin.psbtApi captured (.commitTransaction (OneCoin.preparedTx false)) ∧
      Effect.Pays OneCoin.psbtApi shown (.commitTransaction (OneCoin.preparedTx false)) ∧
      Effect.Pays OneCoin.psbtApi shown' (.commitTransaction (OneCoin.preparedTx false)) :=
  handed_out_is_reviewed OneCoin.psbtApi_lawful OneCoin.prepared_run
    (OneCoin.sendStep (OneCoin.prepared false false) (.sendTransaction none))
    (List.mem_singleton.mpr rfl) rfl

end GuiQml.Wallet
