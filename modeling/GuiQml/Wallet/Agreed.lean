import GuiQml.Wallet.Relocked

/-!
# The calls with a passphrase and the draft

Where nothing is thrown, `prepareTransactionInternal` and `sendTransactionInternal` leave the draft that the
model without the lock computes, from a wallet that answers as this one does.
-/

namespace GuiQml.Wallet.Unlock

open Program

variable {Psbt : Type} {unlocks : List UInt8 → Bool} {start : Session (WalletQmlModel Psbt)}
  {m : WalletQmlModel Psbt} {refresh : Session (WalletQmlModel Psbt) → Session (WalletQmlModel Psbt)}
  {e : Session (WalletQmlModel Psbt) → Prop}

/-- The answers of the same wallet, with those that its lock gives. -/
def answersOf (unlocks : List UInt8 → Bool) (a : WalletAnswers Psbt) (isCrypted isLocked : Bool) :
    WalletAnswers Psbt :=
  { a with
    isCrypted
    isLocked
    tryUnlockWithPassphrase := fun passphrase =>
      if !isCrypted || !isLocked then .alreadyUnlocked
      else if unlocks (secureStringFromQString passphrase) then .unlockedNowRelockRequired
      else .incorrectPassphrase }

/-! ## Steps -/

/-- What the model is, whatever the wallet and the passphrase are. -/
def Shows (m : WalletQmlModel Psbt) (s : Session (WalletQmlModel Psbt)) : Prop := s.model = m

theorem setModel_shows {m' : WalletQmlModel Psbt} :
    Ends (Shows m) (setModel m') (fun _ => Shows m') e := Ends.modify fun _ _ => rfl

theorem ask_shows (call : Ask) : Ends (Shows m) (ask (fun _ => none) call) (fun _ => Shows m) e := by
  unfold ask
  apply Ends.bind (r := fun _ => Shows m)
  · exact Ends.modify fun _ hs => hs
  intro _
  exact Ends.pure fun _ hs => hs

theorem getModel_shows : Ends (Shows m) getModel (fun model s => model = m ∧ Shows m s) e := by
  apply getModel_ends.weaken (fun _ hs => hs) _ fun _ hs => hs
  rintro model s ⟨rfl, hs⟩
  exact ⟨hs, hs⟩

theorem setTransactionStatus_shows (error : String) (needs_unlock : Bool) :
    Ends (Shows m) (setTransactionStatus error needs_unlock)
      (fun _ => Shows (m.setTransactionStatus error needs_unlock)) e := by
  unfold setTransactionStatus
  apply Ends.bind getModel_shows
  intro model
  apply Ends.assume
  rintro rfl
  exact setModel_shows

theorem relock_model (hrefresh : OnlyShows refresh) (s : Session (WalletQmlModel Psbt)) :
    (s.relock refresh).model = s.model := by
  unfold Session.relock
  split
  · obtain ⟨encrypted, locked, heq⟩ := hrefresh
      { s with isLocked := s.isLocked || s.isCrypted, asked := s.asked ++ [.lock] }
    dsimp only
    rw [heq]
  · rfl

/-- The program ends with the model and the result of `out`. What is thrown has no result. -/
def Leaves (p : Session (WalletQmlModel Psbt) → Prop) (x : WalletProgram Psbt Bool)
    (out : Outcome Psbt Bool) : Prop :=
  Ends p x (fun result s => result = out.result ∧ Shows out.state s) (Shows out.state)

namespace Leaves

variable {p : Session (WalletQmlModel Psbt) → Prop} {x y : WalletProgram Psbt Bool} {out out' : Outcome Psbt Bool}

theorem bind {β : Type} {x : WalletProgram Psbt β} {f : β → WalletProgram Psbt Bool}
    {r : β → Session (WalletQmlModel Psbt) → Prop} (hx : Ends p x r (Shows out.state))
    (hf : ∀ b, Leaves (r b) (f b) out) : Leaves p (x >>= f) out := Ends.bind hx hf

theorem ite {c : Prop} [Decidable c] (hx : c → Leaves p x out) (hy : ¬ c → Leaves p y out') :
    Leaves p (if c then x else y) (if c then out else out') := by
  split
  · rename_i hc
    exact hx hc
  · rename_i hc
    exact hy hc

theorem assume {c : Prop} (h : c → Leaves p x out) : Leaves (fun s => c ∧ p s) x out := Ends.assume h

theorem pure {result : Bool} (hp : ∀ s, p s → Shows out.state s) (hresult : result = out.result) :
    Leaves p (Pure.pure result) out := Ends.pure fun s hs => ⟨hresult, hp s hs⟩

theorem weaken {p' : Session (WalletQmlModel Psbt) → Prop} (h : Leaves p x out) (hp : ∀ s, p' s → p s) :
    Leaves p' x out := Ends.weaken h hp (fun _ _ hs => hs) fun _ hs => hs

end Leaves

theorem withRelockGuard_model {α : Type} {active : Bool} {body : WalletProgram Psbt Unit → WalletProgram Psbt α}
    (hrefresh : OnlyShows refresh) (q : α → WalletQmlModel Psbt → Prop) (thrown : WalletQmlModel Psbt)
    (hbody : ∀ relock, (∀ m e, Ends (Shows m) relock (fun _ => Shows m) e) →
      Ends (Shows m) (body relock) (fun result s => q result s.model) (Shows thrown)) :
    Ends (Shows m) (withRelockGuard refresh active body) (fun result s => q result s.model) (Shows thrown) := by
  unfold withRelockGuard
  apply Ends.bind (r := fun _ => Shows m)
  · exact Ends.modify fun _ hs => hs
  intro _
  apply Ends.ensure
  simp only [Shows, relock_model hrefresh]
  apply hbody
  exact fun m e => Ends.modify fun s hs => (relock_model hrefresh s).trans hs

theorem failWith_leaves (error : String) (needs_unlock : Bool) :
    Leaves (Shows m)
      (do
        setTransactionStatus error needs_unlock
        return false)
      (m.failWith error needs_unlock) := by
  apply Leaves.bind (setTransactionStatus_shows error needs_unlock)
  intro _
  exact Leaves.pure (fun _ hs => hs) rfl

theorem refuse_leaves {p : Session (WalletQmlModel Psbt) → Prop} {x : WalletProgram Psbt Unit}
    (hx : ∀ e, Ends p x (fun _ => Shows m) e) (error : String) (needs_unlock : Bool) :
    Leaves p
      (do
        x
        setTransactionStatus error needs_unlock
        return false)
      (m.failWith error needs_unlock) := by
  apply Leaves.bind (hx _)
  intro _
  exact failWith_leaves error needs_unlock

/-! ## The passphrase -/

/-- The model, before the wallet is asked for anything. -/
def Before (start : Session (WalletQmlModel Psbt)) (m : WalletQmlModel Psbt) (s : Session (WalletQmlModel Psbt)) :
    Prop := Shows m s ∧ Untouched start s

theorem Before.model {s : Session (WalletQmlModel Psbt)} (h : Before start m s) (m' : WalletQmlModel Psbt) :
    Before start m' { s with model := m' } := ⟨rfl, untouched_model s m' h.2⟩

theorem setTransactionStatus_before (error : String) (needs_unlock : Bool) :
    Ends (Before start m) (setTransactionStatus error needs_unlock)
      (fun _ => Before start (m.setTransactionStatus error needs_unlock)) e := by
  unfold setTransactionStatus
  apply Ends.bind (getModel_ends (p := Before start m))
  intro model
  apply Ends.modify
  rintro s ⟨rfl, hmodel, h⟩
  obtain rfl := hmodel
  exact Before.model ⟨rfl, h⟩ _

theorem tryUnlockWithPassphrase_agrees {passphrase : String} (a : WalletAnswers Psbt)
    (hbytes : start.passphrase = some (secureStringFromQString passphrase)) :
    Ends (Before start m) (tryUnlockWithPassphrase unlocks)
      (fun result s => result =
        (answersOf unlocks a start.isCrypted start.isLocked).tryUnlockWithPassphrase passphrase ∧ Shows m s)
      e := by
  unfold tryUnlockWithPassphrase answersOf
  apply Ends.bind (r := fun seen s => (seen.isCrypted = start.isCrypted ∧ seen.isLocked = start.isLocked ∧
    seen.passphrase = start.passphrase) ∧ Shows m s)
  · apply Ends.get
    rintro s ⟨hs, h⟩
    exact ⟨⟨h.isCrypted, h.isLocked, h.passphrase⟩, hs⟩
  intro seen
  apply Ends.assume
  rintro ⟨hcrypted, hlocked, hgiven⟩
  rw [hcrypted, hlocked, hgiven, hbytes]
  apply Ends.ite
  · intro hunlocked
    apply Ends.bind (r := fun _ => Shows m)
    · exact Ends.modify fun _ hs => hs
    intro _
    exact Ends.pure fun _ hs => ⟨(if_pos hunlocked).symm, hs⟩
  · intro hlocked
    apply Ends.bind (r := fun _ => Shows m)
    · exact Ends.modify fun _ hs => hs
    intro _
    apply Ends.bind (r := fun _ => Shows m)
    · exact Ends.modify fun _ hs => hs
    intro _
    exact Ends.pure fun _ hs => ⟨(if_neg hlocked).symm, hs⟩

theorem unlockForAction_agrees {passphrase : Option String} (a : WalletAnswers Psbt)
    (hbytes : start.passphrase = passphrase.map secureStringFromQString) :
    Ends (Before start m) (unlockForAction unlocks)
      (fun relock s => match m.unlockForAction (answersOf unlocks a start.isCrypted start.isLocked) passphrase with
        | .error refused => relock = none ∧ Shows refused s
        | .ok unlocked => relock.isSome = true ∧ Shows unlocked s) e := by
  unfold unlockForAction unlockWith WalletQmlModel.unlockForAction
  apply Ends.bind (r := fun seen s => seen.passphrase = start.passphrase ∧ Before start m s)
  · exact Ends.get fun s hs => ⟨hs.2.passphrase, hs⟩
  intro seen
  apply Ends.assume
  intro hseen
  rw [hseen, hbytes]
  cases passphrase with
  | none =>
    apply Ends.ite
    · intro _
      exact Ends.pure fun s hs => ⟨rfl, hs.1⟩
    · intro hsome
      exact absurd rfl hsome
  | some passphrase =>
    apply Ends.ite
    · intro hnone
      cases hnone
    intro _
    apply Ends.bind (tryUnlockWithPassphrase_agrees a hbytes)
    intro result
    apply Ends.assume
    rintro rfl
    apply Ends.bind (r := fun _ => Shows m)
    · exact Ends.modify fun _ hs => hs
    intro _
    dsimp only
    cases (answersOf unlocks a start.isCrypted start.isLocked).tryUnlockWithPassphrase passphrase with
    | incorrectPassphrase =>
      apply Ends.bind (r := fun _ => Shows
        (m.setTransactionStatus "The wallet password you entered was incorrect."))
      · apply Ends.modify
        rintro s rfl
        rfl
      intro _
      exact Ends.pure fun _ hs => ⟨rfl, hs⟩
    | alreadyUnlocked => exact Ends.pure fun _ hs => ⟨rfl, hs⟩
    | unlockedNowRelockRequired =>
      apply Ends.bind (r := fun _ => Shows m)
      · exact Ends.modify fun _ hs => hs
      intro _
      exact Ends.pure fun _ hs => ⟨rfl, hs⟩

theorem needsPassphrase_agrees {passphrase : Option String} {privateKeysDisabled : Bool}
    (hbytes : start.passphrase = passphrase.map secureStringFromQString) :
    Ends (Before start m) (needsPassphrase privateKeysDisabled)
      (fun needs s => needs = (!privateKeysDisabled && start.isCrypted && start.isLocked && passphrase.isNone) ∧
        Before start m s) e := by
  unfold needsPassphrase
  apply Ends.bind (r := fun seen s => (seen.isCrypted = start.isCrypted ∧ seen.isLocked = start.isLocked ∧
    seen.passphrase = start.passphrase) ∧ Before start m s)
  · apply Ends.get
    exact fun s hs => ⟨⟨hs.2.isCrypted, hs.2.isLocked, hs.2.passphrase⟩, hs⟩
  intro seen
  apply Ends.assume
  rintro ⟨hcrypted, hlocked, hgiven⟩
  rw [hcrypted, hlocked, hgiven, hbytes, Option.isNone_map]
  exact Ends.pure fun s hs => ⟨rfl, hs⟩

/-! ## Preparing -/

variable {api : AddressApi} {a : WalletAnswers Psbt}

theorem createUnlocked_leaves {vec_send : List CRecipient} {relock : WalletProgram Psbt Unit}
    (hrelock : ∀ m e, Ends (Shows m) relock (fun _ => Shows m) e) :
    Leaves (Shows m) (createUnlocked (fun _ => none) api a vec_send relock)
      (match WalletQmlModel.prepareCoinControl a with
      | none => ⟨m, false, []⟩
      | some control => m.createAndAdopt api a vec_send control) := by
  unfold createUnlocked WalletQmlModel.createAndAdopt
  apply Leaves.bind getModel_shows
  intro s
  apply Leaves.assume
  rintro rfl
  cases WalletQmlModel.prepareCoinControl a with
  | none => exact Leaves.pure (fun _ hs => hs) rfl
  | some control =>
    dsimp only
    apply Leaves.bind (ask_shows _)
    intro _
    apply Leaves.ite
    · intro _
      exact refuse_leaves (hrelock s) _ _
    intro _
    apply Leaves.bind (ask_shows _)
    intro _
    cases s.createForReview a vec_send control with
    | error e => exact refuse_leaves (hrelock s) _ _
    | ok result =>
      dsimp only
      generalize s.adoptPrepared api a control result = out
      have hadopt : ∀ m', Leaves (Shows m') (do
          setModel out.state
          if out.result = true then
            relock
            return true
          return false) { out with effects := .created result.tx (!a.privateKeysDisabled) :: out.effects } := by
        intro m'
        apply Leaves.bind setModel_shows
        intro _
        split
        · rename_i hmatched
          apply Leaves.bind (hrelock _ _)
          intro _
          exact Leaves.pure (fun _ hs => hs) hmatched.symm
        · rename_i hmatched
          exact Leaves.pure (fun _ hs => hs) (Bool.eq_false_iff.mpr hmatched).symm
      apply Leaves.bind setModel_shows
      intro _
      split
      · apply Leaves.bind (ask_shows _)
        intro _
        exact hadopt _
      · exact hadopt _

theorem before_shows (s : Session (WalletQmlModel Psbt)) (h : Before start m s) : Shows m s := h.1

theorem dropPassphrase_before : Ends (Before start m) dropPassphrase (fun _ => Shows m) e :=
  Ends.modify fun _ hs => hs.1

theorem getModel_before : Ends (Before start m) getModel (fun model s => model = m ∧ Before start m s) e := by
  apply getModel_ends.weaken (fun _ hs => hs) _ fun _ hs => hs
  rintro model s ⟨rfl, hs⟩
  exact ⟨hs.1, hs⟩

theorem unlock_leaves {passphrase : Option String} {f : Bool → WalletProgram Psbt Bool}
    {g : WalletQmlModel Psbt → Outcome Psbt Bool}
    (hbytes : start.passphrase = passphrase.map secureStringFromQString)
    (hf : ∀ unlocked active, Leaves (Shows unlocked) (f active) (g unlocked)) :
    Leaves (Before start m)
      (do
        match ← unlockForAction unlocks with
        | none => return false
        | some relock => f relock)
      (match m.unlockForAction (answersOf unlocks a start.isCrypted start.isLocked) passphrase with
      | .error refused => ⟨refused, false, []⟩
      | .ok unlocked => g unlocked) := by
  apply Leaves.bind (unlockForAction_agrees a hbytes)
  intro relock
  cases m.unlockForAction (answersOf unlocks a start.isCrypted start.isLocked) passphrase with
  | error refused =>
    apply Leaves.assume
    rintro rfl
    exact Leaves.pure (fun _ hs => hs) rfl
  | ok unlocked =>
    apply Leaves.assume
    intro hsome
    cases relock with
    | none => cases hsome
    | some active => exact hf unlocked active

theorem prepare_leaves {passphrase : Option String}
    (hbytes : start.passphrase = passphrase.map secureStringFromQString) :
    Leaves (Before start m) (prepareTransactionInternal (fun _ => none) unlocks api a)
      (m.prepareTransactionInternal api (answersOf unlocks a start.isCrypted start.isLocked) passphrase) := by
  unfold prepareTransactionInternal WalletQmlModel.prepareTransactionInternal
  apply Leaves.bind (setTransactionStatus_before "" false)
  intro _
  apply Leaves.bind (getModel_before (m := m.clearTransactionStatus))
  intro s
  apply Leaves.assume
  intro hs
  dsimp only
  rw [← hs]
  apply Leaves.ite (fun _ => refuse_leaves (fun _ => dropPassphrase_before) _ _)
  intro _
  apply Leaves.ite (fun _ => refuse_leaves (fun _ => dropPassphrase_before) _ _)
  intro _
  apply Leaves.ite (fun _ => refuse_leaves (fun _ => dropPassphrase_before) _ _)
  intro _
  cases WalletQmlModel.buildRecipients api s.m_send_recipients s.m_maximum_recipient with
  | none => exact refuse_leaves (fun _ => dropPassphrase_before) _ _
  | some vec_send =>
    apply Leaves.bind (needsPassphrase_agrees hbytes)
    intro needs
    apply Leaves.assume
    rintro rfl
    apply Leaves.ite
    · intro _
      exact refuse_leaves (fun _ => Ends.modify fun _ hs => hs.1) _ _
    intro _
    apply unlock_leaves hbytes
    intro unlocked active
    exact withRelockGuard_model (onlyShows_refresh true) (fun result m => result = _ ∧ m = _) _
      fun relock hrelock => createUnlocked_leaves hrelock

/-! ## Sending -/

variable {psbtApi : PsbtApi Psbt} {current : WalletQmlModelTransaction}

theorem commit_leaves {after : WalletQmlModel Psbt → WalletQmlModel Psbt} {out : Outcome Psbt Bool}
    (hstate : after m = out.state) (hresult : true = out.result) :
    Leaves (Shows m) (commit (fun _ => none) api a current after) out := by
  unfold commit
  apply Leaves.bind (ask_shows _)
  intro _
  apply Leaves.bind getModel_shows
  intro s
  apply Leaves.assume
  rintro rfl
  apply Leaves.bind (Ends.forM fun _ _ => ask_shows _)
  intro _
  apply Leaves.bind setModel_shows
  intro _
  exact Leaves.pure (fun _ hs => hs.trans hstate) hresult

/-- What is signed is committed next, and nothing else is left to do without it. -/
def SignedOr (api : AddressApi) (a : WalletAnswers Psbt) (current : WalletQmlModelTransaction)
    (out : Outcome Psbt Bool) (m : WalletQmlModel Psbt) : Option Transaction → WalletQmlModel Psbt → Prop
  | none, m' => out.result = false ∧ m' = out.state
  | some signed_tx, m' => out = m.commitPsbt api a current signed_tx ∧ m' = m

theorem signUnlocked_signs {psbt : Psbt} {relock : WalletProgram Psbt Unit} {out : Outcome Psbt Bool}
    (hrelock : ∀ m e, Ends (Shows m) relock (fun _ => Shows m) e)
    (hout : out = match a.fillPSBT ⟨true, true⟩ psbt with
      | .threw _ => ⟨m, false, []⟩
      | .error e => m.failWith (a.psbtErrorText e)
      | .filled psbt complete _ =>
        match complete, (psbtApi.finalizeAndExtractPSBT psbt).2 with
        | true, some signed_tx => m.commitPsbt api a current signed_tx
        | _, _ => m.failWith "Only PSBTs this wallet can fully sign are supported right now.") :
    Ends (Shows m) (signUnlocked (fun _ => none) psbtApi a psbt relock)
      (fun signed_tx s => SignedOr api a current out m signed_tx s.model) (Shows out.state) := by
  have hfail : ∀ error, Ends (Shows m)
      (do
        setTransactionStatus error
        return none)
      (fun signed_tx s => SignedOr api a current (m.failWith error) m signed_tx s.model)
      (Shows (m.failWith error).state) := by
    intro error
    apply Ends.bind (setTransactionStatus_shows error false)
    intro _
    exact Ends.pure fun _ hs => ⟨rfl, hs⟩
  unfold signUnlocked
  apply Ends.bind (ask_shows _)
  intro _
  rw [hout]
  cases a.fillPSBT ⟨true, true⟩ psbt with
  | threw what => exact Ends.throw fun _ hs => hs
  | error e => exact hfail _
  | filled psbt complete n_signed =>
    dsimp only
    generalize (psbtApi.finalizeAndExtractPSBT psbt).2 = extracted
    cases complete with
    | false => exact hfail _
    | true =>
      cases extracted with
      | none => exact hfail _
      | some signed_tx =>
        apply Ends.bind (hrelock _ _)
        intro _
        exact Ends.pure fun _ hs => ⟨rfl, hs⟩

theorem sendPsbt_leaves {psbt : Psbt} {passphrase : Option String}
    (hbytes : start.passphrase = passphrase.map secureStringFromQString) :
    Leaves (Before start m) (sendPsbt (fun _ => none) unlocks api psbtApi a current psbt)
      (m.sendPsbt api psbtApi (answersOf unlocks a start.isCrypted start.isLocked) current psbt passphrase) := by
  unfold sendPsbt WalletQmlModel.sendPsbt WalletQmlModel.signAndCommit
  apply Leaves.bind getModel_before
  intro s
  apply Leaves.assume
  rintro rfl
  apply Leaves.ite (fun _ => refuse_leaves (fun _ => dropPassphrase_before) _ _)
  intro _
  cases (psbtApi.finalizeAndExtractPSBT psbt).2 with
  | some signed_tx =>
    apply Leaves.bind dropPassphrase_before
    intro _
    exact commit_leaves rfl rfl
  | none =>
    dsimp only
    apply Leaves.ite (fun _ => refuse_leaves (fun _ => dropPassphrase_before) _ _)
    intro _
    apply Leaves.bind (needsPassphrase_agrees hbytes)
    intro needs
    apply Leaves.assume
    rintro rfl
    apply Leaves.ite
    · intro _
      exact Leaves.weaken (failWith_leaves _ _) before_shows
    intro _
    apply unlock_leaves hbytes
    intro unlocked active
    apply Leaves.bind (withRelockGuard_model (onlyShows_refresh true)
      (SignedOr api (answersOf unlocks a start.isCrypted start.isLocked) current _ unlocked) _
      fun relock hrelock => signUnlocked_signs hrelock rfl)
    intro signed_tx
    cases signed_tx with
    | none => exact Ends.pure fun _ hs => ⟨hs.1.symm, hs.2⟩
    | some signed_tx =>
      apply Leaves.assume
      intro hout
      rw [hout]
      exact commit_leaves rfl rfl

theorem sendPlain_leaves :
    Leaves (Before start m) (sendPlain (fun _ => none) api a current) (m.sendPlain api a current) := by
  unfold sendPlain WalletQmlModel.sendPlain
  apply Leaves.bind dropPassphrase_before
  intro _
  cases current.m_wtx with
  | none => exact failWith_leaves _ _
  | some signed_tx =>
    dsimp only
    apply Leaves.ite (fun _ => failWith_leaves _ _)
    intro _
    exact commit_leaves rfl rfl

theorem send_leaves {passphrase : Option String}
    (hbytes : start.passphrase = passphrase.map secureStringFromQString) :
    Leaves (Before start m) (sendTransactionInternal (fun _ => none) unlocks api psbtApi a)
      (m.sendTransactionInternal api psbtApi (answersOf unlocks a start.isCrypted start.isLocked) passphrase) := by
  unfold sendTransactionInternal WalletQmlModel.sendTransactionInternal
  apply Leaves.bind (setTransactionStatus_before "" false)
  intro _
  apply Leaves.bind (getModel_before (m := m.clearTransactionStatus))
  intro s
  apply Leaves.assume
  intro hs
  dsimp only
  rw [← hs]
  apply Leaves.ite (fun _ => refuse_leaves (fun _ => dropPassphrase_before) _ _)
  intro _
  apply Leaves.ite (fun _ => refuse_leaves (fun _ => dropPassphrase_before) _ _)
  intro _
  cases s.m_current_transaction with
  | none => exact refuse_leaves (fun _ => dropPassphrase_before) _ _
  | some current =>
    dsimp only
    cases s.m_current_psbt with
    | some psbt => exact sendPsbt_leaves hbytes
    | none => exact sendPlain_leaves

/-! ## Calls -/

theorem call_leaves {operation : WalletProgram Psbt Bool} {out : Outcome Psbt Bool}
    {isCrypted isLocked m_is_encrypted m_is_locked : Bool} {passphrase : Option String}
    (h : ∀ start : Session (WalletQmlModel Psbt), start.isCrypted = isCrypted → start.isLocked = isLocked →
      start.passphrase = passphrase.map secureStringFromQString → Leaves (Before start m) operation out) :
    (call operation (.start m isCrypted isLocked m_is_encrypted m_is_locked) passphrase).2.model = out.state ∧
      ∀ result, (call operation (.start m isCrypted isLocked m_is_encrypted m_is_locked) passphrase).1 =
        .ok result → result = out.result := by
  let start : Session (WalletQmlModel Psbt) :=
    { Session.start m isCrypted isLocked m_is_encrypted m_is_locked with
      passphrase := passphrase.map secureStringFromQString }
  have hleaves := h start rfl rfl rfl start ⟨rfl, rfl, rfl, rfl, rfl, rfl, rfl⟩
  change (operation.exec start).2.model = out.state ∧ ∀ result, (operation.exec start).1 = .ok result → _
  match operation.exec start, hleaves with
  | (.ok _, s), ⟨hresult, hmodel⟩ =>
    refine ⟨hmodel, ?_⟩
    rintro result ⟨⟩
    exact hresult
  | (.error _, s), hmodel =>
    refine ⟨hmodel, ?_⟩
    rintro result ⟨⟩

/-- The calls with a passphrase leave the draft and the result of the model without the lock. -/
theorem calls_agree (unlocks : List UInt8 → Bool) (api : AddressApi) (psbtApi : PsbtApi Psbt)
    (a : WalletAnswers Psbt) (m : WalletQmlModel Psbt) (isCrypted isLocked m_is_encrypted m_is_locked : Bool)
    (passphrase : Option String) :
    let start := Session.start m isCrypted isLocked m_is_encrypted m_is_locked
    let a' := answersOf unlocks a isCrypted isLocked
    let prepared := call (prepareTransactionInternal (fun _ => none) unlocks api a) start passphrase
    let sent := call (sendTransactionInternal (fun _ => none) unlocks api psbtApi a) start passphrase
    (prepared.2.model = (m.prepareTransactionInternal api a' passphrase).state ∧
      ∀ result, prepared.1 = .ok result → result = (m.prepareTransactionInternal api a' passphrase).result) ∧
    sent.2.model = (m.sendTransactionInternal api psbtApi a' passphrase).state ∧
      ∀ result, sent.1 = .ok result → result = (m.sendTransactionInternal api psbtApi a' passphrase).result := by
  refine ⟨?_, ?_⟩
  · apply call_leaves
    rintro start rfl rfl hbytes
    exact prepare_leaves hbytes
  · apply call_leaves
    rintro start rfl rfl hbytes
    exact send_leaves hbytes

end GuiQml.Wallet.Unlock
