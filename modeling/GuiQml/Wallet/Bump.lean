import GuiQml.Lib.Reach
import GuiQml.Wallet.Relocked

/-!
# Raising a fee

`BumpTransactionModel` while its page is open: it prepares, the user confirms or gives up. What the wallet makes of a
call is given with it, and the calls may throw.
-/

namespace GuiQml.Wallet.Bump

open Program Unlock

/-! ## The model -/

/-- What `createBumpTransaction` makes. -/
structure Created where
  old_fee : CAmount
  new_fee : CAmount
  mtx : Transaction

/-- What came of `createBumpTransaction`. -/
inductive Creation
  | created (bump : Created)
  | failed (errors : List String)
  | threw

/-- A fee bump that was prepared: of which transaction, and how. -/
structure Prepared where
  txid : String
  bump : Created

/-- How often the wallet was asked to commit a bump. -/
def commits (s : Session BumpTransactionModel) : Nat := s.asked.count .commitBumpTransaction

structure Dialog where
  /-- The wallet is there. -/
  m_wallet : Bool := true
  session : Session BumpTransactionModel
  m_old_fee : CAmount := 0
  m_new_fee : CAmount := 0
  /-- All that were prepared, the last one last. -/
  prepared : List Prepared := []
  /-- How often the wallet had been asked to commit a bump when the last one was prepared. -/
  before : Nat := 0
  /-- The wallet's answers to the confirmation that succeeded last. -/
  answered : Option BumpAnswers := none

/-- `CMutableTransaction{}`. -/
def emptyTransaction : Transaction := ⟨2, [], [], 0⟩

inductive Event
  | prepareFeeBump (txid : String) (creation : Creation)
  | confirm (passphrase : Option String) (answers : BumpAnswers) (throws : Ask → Option String)
    (unlocks : List UInt8 → Bool)
  | reset
  | detachWallet
  /-- Somebody else locks or unlocks the wallet. -/
  | walletLocks (isCrypted isLocked : Bool)

namespace Dialog

-- `uint256::FromHex`, written as `GetHex` writes it.
variable (fromHex : String → Option String) (d : Dialog)

def setModel (model : BumpTransactionModel) : Dialog := { d with session := { d.session with model } }

def prepareFeeBump (txid : String) (creation : Creation) : Dialog :=
  let m := d.session.model
  if !d.m_wallet then d.setModel (m.setError "No wallet available.")
  else
    match fromHex txid with
    | none => d.setModel (m.setError "Invalid transaction ID.")
    | some parsed =>
      let m := { m with m_needs_unlock := false, m_state := .preparing }
      match creation with
      | .threw => d.setModel m
      | .failed errors => d.setModel (m.setError (errors.head?.getD "Failed to create bump transaction."))
      | .created bump =>
        { d with
          m_old_fee := bump.old_fee
          m_new_fee := bump.new_fee
          prepared := d.prepared ++ [Prepared.mk parsed bump]
          before := commits d.session }.setModel
          { m with m_original_txid := parsed, m_bump_mtx := bump.mtx, m_state := .needsConfirmation }

/-- `confirmFeeBump`, and `confirmFeeBumpWithPassphrase` where there is a passphrase. -/
def confirm (passphrase : Option String) (answers : BumpAnswers) (throws : Ask → Option String)
    (unlocks : List UInt8 → Bool) : Dialog :=
  let answers := { answers with hasWallet := d.m_wallet }
  let (result, session) := call (confirmFeeBumpInternal throws unlocks answers) d.session passphrase
  match result with
  | .ok true => { d with session, answered := some answers }
  | _ => { d with session }

def reset : Dialog := { d with m_old_fee := 0, m_new_fee := 0 }.setModel { m_bump_mtx := emptyTransaction }

def step : Event → Dialog
  | .prepareFeeBump txid creation => d.prepareFeeBump fromHex txid creation
  | .confirm passphrase answers throws unlocks => d.confirm passphrase answers throws unlocks
  | .reset => d.reset
  | .detachWallet => { d with m_wallet := false }
  | .walletLocks isCrypted isLocked => { d with session := { d.session with isCrypted, isLocked } }

def start (isCrypted isLocked : Bool) : Dialog :=
  { session := Session.start { m_bump_mtx := emptyTransaction } isCrypted isLocked isCrypted isLocked }

end Dialog

/-! ## What a confirmation does -/

def Stands (n : Nat) (m : BumpTransactionModel) (s : Session BumpTransactionModel) : Prop :=
  s.model = m ∧ commits s = n

variable {n : Nat} {m m' : BumpTransactionModel} {throws : Ask → Option String} {unlocks : List UInt8 → Bool}
  {a : BumpAnswers} {e : Session BumpTransactionModel → Prop}

theorem setModel_stands : Ends (Stands n m) (setModel m') (fun _ => Stands n m') e :=
  Ends.modify fun _ hs => ⟨rfl, hs.2⟩

theorem getModel_stands : Ends (Stands n m) getModel (fun model s => model = m ∧ Stands n m s) e := by
  apply getModel_ends.weaken (fun _ hs => hs) _ fun _ hs => hs
  rintro model s ⟨rfl, hs⟩
  exact ⟨hs.1, hs⟩

theorem stands_asked {s : Session BumpTransactionModel} (h : Stands n m s) (call : Ask) :
    Stands (n + [call].count .commitBumpTransaction) m { s with asked := s.asked ++ [call] } := by
  refine ⟨h.1, ?_⟩
  have hcommits := h.2
  unfold commits at hcommits ⊢
  rw [List.count_append, hcommits]

theorem ask_stands (call : Ask) : Ends (Stands n m) (ask throws call)
    (fun _ => Stands (n + [call].count .commitBumpTransaction) m)
    (Stands (n + [call].count .commitBumpTransaction) m) := by
  unfold ask
  apply Ends.bind (r := fun _ => Stands (n + [call].count .commitBumpTransaction) m)
  · exact Ends.modify fun s hs => stands_asked hs call
  intro _
  split
  · exact Ends.throw fun _ hs => hs
  · exact Ends.pure fun _ hs => hs

theorem stands_securityStateChanged {s : Session BumpTransactionModel} (h : Stands n m s) :
    Stands n m (securityStateChanged a s) := by
  unfold securityStateChanged
  split
  · exact h
  · exact h

theorem stands_relock {s : Session BumpTransactionModel} (h : Stands n m s) :
    Stands n m (s.relock (securityStateChanged a)) := by
  unfold Session.relock
  split
  · have hlock : Stands n m { s with isLocked := s.isLocked || s.isCrypted, asked := s.asked ++ [.lock] } :=
      stands_asked h .lock
    exact stands_securityStateChanged hlock
  · exact h

theorem setError_stands (error : String) :
    Ends (Stands n m) (setError error) (fun _ => Stands n (m.setError error)) e := by
  unfold setError
  apply Ends.bind getModel_stands
  intro model
  apply Ends.assume
  rintro rfl
  exact setModel_stands

theorem dropPassphrase_stands : Ends (Stands n m) dropPassphrase (fun _ => Stands n m) e :=
  Ends.modify fun _ hs => hs

theorem needsPassphrase_stands {disabled : Bool} :
    Ends (Stands n m) (needsPassphrase disabled) (fun _ => Stands n m) e := by
  unfold needsPassphrase
  apply Ends.bind (Ends.get (q := fun _ => Stands n m) fun _ hs => hs)
  intro _
  exact Ends.pure fun _ hs => hs

theorem tryUnlockWithPassphrase_stands :
    Ends (Stands n m) (tryUnlockWithPassphrase unlocks) (fun _ => Stands n m) e := by
  unfold tryUnlockWithPassphrase
  apply Ends.bind (Ends.get (q := fun _ => Stands n m) fun _ hs => hs)
  intro s
  apply Ends.ite
  · intro _
    apply Ends.bind (r := fun _ => Stands n m)
    · exact Ends.modify fun _ hs => hs
    intro _
    exact Ends.pure fun _ hs => hs
  intro _
  apply Ends.bind (r := fun _ => Stands n m)
  · exact Ends.modify fun s hs => stands_asked hs .unlock
  intro _
  apply Ends.bind (r := fun _ => Stands n m)
  · exact Ends.modify fun _ hs => hs
  intro _
  exact Ends.pure fun _ hs => hs

theorem unlockWith_stands {incorrect : BumpTransactionModel → BumpTransactionModel} :
    Ends (Stands n m) (unlockWith unlocks incorrect (securityStateChanged a))
      (fun relock => Stands n (if relock.isNone then incorrect m else m)) e := by
  unfold unlockWith
  apply Ends.bind (Ends.get (q := fun _ => Stands n m) fun _ hs => hs)
  intro s
  apply Ends.ite
  · intro _
    exact Ends.pure fun _ hs => hs
  intro _
  apply Ends.bind tryUnlockWithPassphrase_stands
  intro result
  apply Ends.bind (r := fun _ => Stands n m)
  · exact Ends.modify fun _ hs => hs
  intro _
  cases result with
  | incorrectPassphrase =>
    apply Ends.bind (r := fun _ => Stands n (incorrect m))
    · apply Ends.modify
      rintro s ⟨rfl, hcommits⟩
      exact ⟨rfl, hcommits⟩
    intro _
    exact Ends.pure fun _ hs => hs
  | alreadyUnlocked => exact Ends.pure fun _ hs => hs
  | unlockedNowRelockRequired =>
    apply Ends.bind (r := fun _ => Stands n m)
    · exact Ends.modify fun _ hs => stands_securityStateChanged hs
    intro _
    exact Ends.pure fun _ hs => hs

/-- The wallet was asked to commit once, and it signed and committed what was prepared. -/
def Committed (a : BumpAnswers) (n : Nat) (m : BumpTransactionModel) (s : Session BumpTransactionModel) : Prop :=
  ∃ signed, a.signBumpTransaction m.m_bump_mtx = some signed ∧
    a.commitBumpTransaction m.m_original_txid signed = .ok s.model.m_new_txid ∧
    s.model.m_state = .succeeded ∧ s.model.m_original_txid = m.m_original_txid ∧ commits s = n + 1

/-- What was prepared cannot be confirmed any more, and the wallet was asked to commit it once at most. -/
structure Ended (n : Nat) (s : Session BumpTransactionModel) : Prop where
  state : s.model.m_state = .failed ∨ s.model.m_state = .committing
  commits : commits s ≤ n + 1

theorem bumpUnlocked_ends {relock : BumpProgram Unit}
    (hrelock : ∀ n m e, Ends (Stands n m) relock (fun _ => Stands n m) e) :
    Ends (Stands n m) (bumpUnlocked throws a relock)
      (fun result s => if result then Committed a n m s else Ended n s) (Ended n) := by
  have hended {k : Nat} (hk : k ≤ n + 1) : ∀ s,
      Stands k { m with m_needs_unlock := false, m_state := .committing } s → Ended n s := by
    rintro s ⟨hmodel, hcommits⟩
    exact ⟨by rw [hmodel]; exact .inr rfl, by rw [hcommits]; exact hk⟩
  have hfail {k : Nat} (hk : k ≤ n + 1) : ∀ error,
      Ends (Stands k { m with m_needs_unlock := false, m_state := .committing })
        (do
          relock
          setError error
          return false)
        (fun result s => if result then Committed a n m s else Ended n s) (Ended n) := by
    intro error
    apply Ends.bind (hrelock _ _ _)
    intro _
    apply Ends.bind (setError_stands error)
    intro _
    apply Ends.pure
    rintro s ⟨hmodel, hcommits⟩
    exact ⟨by rw [hmodel]; exact .inl rfl, by rw [hcommits]; exact hk⟩
  unfold bumpUnlocked
  apply Ends.bind getModel_stands
  intro model
  apply Ends.assume
  rintro rfl
  apply Ends.bind setModel_stands
  intro _
  apply Ends.bind ((ask_stands _).weaken (fun _ hs => hs) (fun _ _ hs => hs) (hended (by simp)))
  intro _
  apply Ends.ite (fun _ => hfail (by simp) _)
  intro _
  apply Ends.bind ((ask_stands _).weaken (fun _ hs => hs) (fun _ _ hs => hs) (hended (by simp)))
  intro _
  split
  · exact hfail (by simp) _
  rename_i signed hsigned
  -- from here on the wallet is asked to commit
  apply Ends.bind ((ask_stands _).weaken (fun _ hs => hs) (fun _ _ hs => hs) (hended (by simp)))
  intro _
  split
  · exact hfail (by simp) _
  · rename_i bumped_txid hcommitted
    apply Ends.bind (hrelock _ _ _)
    intro _
    apply Ends.bind setModel_stands
    intro _
    apply Ends.pure
    rintro s ⟨hmodel, hcommits⟩
    refine ⟨signed, hsigned, ?_, ?_, ?_, ?_⟩
    · rw [hmodel]
      exact hcommitted
    · rw [hmodel]
    · rw [hmodel]
    · simpa using hcommits

/-- The bump that waits for its confirmation is the same. -/
structure SameBump (m m' : BumpTransactionModel) : Prop where
  txid : m'.m_original_txid = m.m_original_txid
  mtx : m'.m_bump_mtx = m.m_bump_mtx

/-- The wallet was asked to commit nothing, and what was prepared stands as it did. -/
structure Refused (n : Nat) (m : BumpTransactionModel) (s : Session BumpTransactionModel) : Prop where
  state : s.model.m_state = m.m_state
  same : SameBump m s.model
  new_txid : s.model.m_new_txid = m.m_new_txid
  commits : commits s = n

theorem relock_keeps (s : Session BumpTransactionModel) :
    (s.relock (securityStateChanged a)).model = s.model ∧ commits (s.relock (securityStateChanged a)) = commits s :=
  stands_relock ⟨rfl, rfl⟩

theorem Committed.relock {s : Session BumpTransactionModel} (h : Committed a n m s) :
    Committed a n m (s.relock (securityStateChanged a)) := by
  obtain ⟨hmodel, hkept⟩ := relock_keeps (a := a) s
  obtain ⟨signed, hsigned, hcommitted, hstate, htxid, hcommits⟩ := h
  refine ⟨signed, hsigned, ?_, ?_, ?_, ?_⟩
  · rwa [hmodel]
  · rwa [hmodel]
  · rwa [hmodel]
  · rwa [hkept]

theorem Ended.relock {s : Session BumpTransactionModel} (h : Ended n s) :
    Ended n (s.relock (securityStateChanged a)) := by
  obtain ⟨hmodel, hkept⟩ := relock_keeps (a := a) s
  refine ⟨?_, ?_⟩
  · rw [hmodel]
    exact h.state
  · rw [hkept]
    exact h.commits

theorem withRelockGuard_ends {active : Bool} : Ends (Stands n m)
    (withRelockGuard (securityStateChanged a) active (bumpUnlocked throws a))
    (fun result s => if result then Committed a n m s else Ended n s) (Ended n) := by
  have hrelock : ∀ n m e, Ends (Stands n m) (modify (·.relock (securityStateChanged a)) : BumpProgram Unit)
      (fun _ => Stands n m) e := fun n m e => Ends.modify fun s hs => stands_relock hs
  unfold withRelockGuard
  apply Ends.bind (r := fun _ => Stands n m)
  · exact Ends.modify fun _ hs => hs
  intro _
  apply Ends.ensure
  refine (bumpUnlocked_ends hrelock).weaken (fun _ hs => hs) (fun result s hs => ?_) fun s hs => hs.relock
  cases result with
  | true => exact hs.relock
  | false => exact hs.relock

theorem confirmFeeBumpInternal_bump : Ends (Stands n m) (confirmFeeBumpInternal throws unlocks a)
    (fun result s =>
      if result then m.m_state = .needsConfirmation ∧ Committed a n m s
      else Refused n m s ∨ m.m_state = .needsConfirmation ∧ Ended n s)
    (fun s => m.m_state = .needsConfirmation ∧ Ended n s) := by
  have hrefused : ∀ s, Stands n m s → Refused n m s := by
    rintro s ⟨rfl, hcommits⟩
    exact ⟨rfl, ⟨rfl, rfl⟩, rfl, hcommits⟩
  have hunlock (error : String) : ∀ s, Stands n (m.setUnlockRequired error) s → Refused n m s := by
    rintro s ⟨hmodel, hcommits⟩
    exact ⟨by rw [hmodel]; rfl, by rw [hmodel]; exact ⟨rfl, rfl⟩, by rw [hmodel]; rfl, hcommits⟩
  unfold confirmFeeBumpInternal
  apply Ends.bind getModel_stands
  intro model
  apply Ends.assume
  rintro rfl
  apply Ends.ite
  · intro _
    apply Ends.bind dropPassphrase_stands
    intro _
    exact Ends.pure fun s hs => .inl (hrefused s hs)
  intro hready
  have hstate : model.m_state = .needsConfirmation := by
    simp only [Bool.or_eq_true, Bool.not_eq_true', decide_eq_true_eq, not_or, not_not, ne_eq] at hready
    exact hready.2
  apply Ends.bind needsPassphrase_stands
  intro needs
  apply Ends.ite
  · intro _
    apply Ends.bind setModel_stands
    intro _
    exact Ends.pure fun s hs => .inl (hunlock _ s hs)
  intro _
  apply Ends.bind unlockWith_stands
  intro relock
  cases relock with
  | none => exact Ends.pure fun s hs => .inl (hunlock _ s hs)
  | some active =>
    refine withRelockGuard_ends.weaken (fun _ hs => hs) (fun result s hs => ?_) fun s hs => ⟨hstate, hs⟩
    cases result with
    | true => exact ⟨hstate, hs⟩
    | false => exact .inr ⟨hstate, hs⟩

/-! ## What every event keeps -/

/-- The page shows what was prepared last. -/
structure ShowsBump (d : Dialog) (p : Prepared) : Prop where
  last : d.prepared.getLast? = some p
  txid : d.session.model.m_original_txid = p.txid
  old_fee : d.m_old_fee = p.bump.old_fee
  new_fee : d.m_new_fee = p.bump.new_fee

/-- Its transaction is the one that a confirmation has signed. -/
structure Holds (d : Dialog) (p : Prepared) : Prop extends ShowsBump d p where
  mtx : d.session.model.m_bump_mtx = p.bump.mtx

/-- The wallet signed and committed the transaction of `p`. -/
def Done (d : Dialog) (p : Prepared) : Prop :=
  ∃ a ∈ d.answered, ∃ signed, a.signBumpTransaction p.bump.mtx = some signed ∧
    a.commitBumpTransaction p.txid signed = .ok d.session.model.m_new_txid

/-- What is prepared and waits for its confirmation. -/
def waiting (d : Dialog) : Nat := if d.session.model.m_state = .needsConfirmation then 1 else 0

structure Sound (d : Dialog) : Prop where
  ready : d.session.model.m_state = .needsConfirmation → ∃ p, Holds d p
  done : d.session.model.m_state = .succeeded → ∃ p, ShowsBump d p ∧ Done d p
  once : commits d.session + waiting d ≤ d.before + 1
  unprepared : d.prepared = [] → commits d.session = 0

variable {fromHex : String → Option String} {d : Dialog}

theorem sound_start (isCrypted isLocked : Bool) : Sound (Dialog.start isCrypted isLocked) where
  ready h := by simp [Dialog.start, Session.start] at h
  done h := by simp [Dialog.start, Session.start] at h
  once := Nat.zero_le 1
  unprepared _ := rfl

theorem sound_idle {m : BumpTransactionModel} (h : Sound d) (hready : m.m_state ≠ .needsConfirmation)
    (hdone : m.m_state ≠ .succeeded) (old_fee new_fee : CAmount) :
    Sound ({ d with m_old_fee := old_fee, m_new_fee := new_fee }.setModel m) where
  ready hstate := absurd hstate hready
  done hstate := absurd hstate hdone
  once := by
    have honce : commits d.session ≤ d.before + 1 := le_trans (Nat.le_add_right _ _) h.once
    have hwaiting : waiting ({ d with m_old_fee := old_fee, m_new_fee := new_fee }.setModel m) = 0 := if_neg hready
    rw [hwaiting]
    exact honce
  unprepared := h.unprepared

theorem sound_prepareFeeBump (h : Sound d) (txid : String) (creation : Creation) :
    Sound (d.prepareFeeBump fromHex txid creation) := by
  have hidle {m : BumpTransactionModel} (hready : m.m_state ≠ .needsConfirmation)
      (hdone : m.m_state ≠ .succeeded) : Sound (d.setModel m) := sound_idle h hready hdone d.m_old_fee d.m_new_fee
  have hfailed {m : BumpTransactionModel} (error : String) : Sound (d.setModel (m.setError error)) :=
    hidle (by simp [BumpTransactionModel.setError]) (by simp [BumpTransactionModel.setError])
  unfold Dialog.prepareFeeBump
  dsimp only
  split
  · exact hfailed _
  cases fromHex txid with
  | none => exact hfailed _
  | some parsed =>
    cases creation with
    | threw => exact hidle (by simp) (by simp)
    | failed errors => exact hfailed _
    | created bump =>
      refine ⟨fun _ => ⟨⟨parsed, bump⟩, ?_⟩, fun hstate => by simp [Dialog.setModel] at hstate, ?_, ?_⟩
      · exact ⟨⟨by simp [Dialog.setModel], rfl, rfl, rfl⟩, rfl⟩
      · exact Nat.le_refl _
      · simp [Dialog.setModel]

theorem ShowsBump.same {d' : Dialog} {p : Prepared} (h : ShowsBump d p) (hprepared : d'.prepared = d.prepared)
    (htxid : d'.session.model.m_original_txid = d.session.model.m_original_txid) (hold : d'.m_old_fee = d.m_old_fee)
    (hnew : d'.m_new_fee = d.m_new_fee) : ShowsBump d' p where
  last := hprepared ▸ h.last
  txid := htxid.trans h.txid
  old_fee := hold.trans h.old_fee
  new_fee := hnew.trans h.new_fee

theorem Holds.same {d' : Dialog} {p : Prepared} (h : Holds d p) (hprepared : d'.prepared = d.prepared)
    (hsame : SameBump d.session.model d'.session.model) (hold : d'.m_old_fee = d.m_old_fee)
    (hnew : d'.m_new_fee = d.m_new_fee) : Holds d' p :=
  ⟨h.toShowsBump.same hprepared hsame.txid hold hnew, hsame.mtx.trans h.mtx⟩

theorem sound_refused {s : Session BumpTransactionModel} (h : Sound d)
    (hrefused : Refused (commits d.session) d.session.model s) : Sound { d with session := s } where
  ready hstate := by
    obtain ⟨p, hp⟩ := h.ready (hrefused.state.symm.trans hstate)
    exact ⟨p, hp.same rfl hrefused.same rfl rfl⟩
  done hstate := by
    obtain ⟨p, hp, a, ha, signed, hsigned, hcommitted⟩ := h.done (hrefused.state.symm.trans hstate)
    refine ⟨p, hp.same rfl hrefused.same.txid rfl rfl, a, ha, signed, hsigned, ?_⟩
    dsimp only
    rw [hrefused.new_txid]
    exact hcommitted
  once := by
    have honce := h.once
    unfold waiting at honce ⊢
    dsimp only
    rw [hrefused.commits, hrefused.state]
    exact honce
  unprepared hnone := hrefused.commits.trans (h.unprepared hnone)

/-- What waits for its confirmation was not handed to the wallet yet. -/
theorem commits_le (h : Sound d) (hready : d.session.model.m_state = .needsConfirmation) :
    commits d.session ≤ d.before := by
  have honce := h.once
  unfold waiting at honce
  rw [if_pos hready] at honce
  exact Nat.le_of_succ_le_succ honce

theorem prepared_ne_nil (h : Sound d) (hready : d.session.model.m_state = .needsConfirmation) : d.prepared ≠ [] := by
  obtain ⟨p, hp⟩ := h.ready hready
  rintro hnone
  have hlast := hp.last
  simp [hnone] at hlast

theorem sound_ended {s : Session BumpTransactionModel} (h : Sound d)
    (hready : d.session.model.m_state = .needsConfirmation)
    (hended : Ended (commits d.session) s) : Sound { d with session := s } where
  ready hstate := by rcases hended.state with hs | hs <;> simp [hs] at hstate
  done hstate := by rcases hended.state with hs | hs <;> simp [hs] at hstate
  once := by
    have hwaiting : waiting { d with session := s } = 0 := by
      rcases hended.state with hs | hs <;> simp [waiting, hs]
    rw [hwaiting]
    exact le_trans hended.commits (Nat.succ_le_succ (commits_le h hready))
  unprepared hnone := (prepared_ne_nil h hready hnone).elim

theorem sound_committed {s : Session BumpTransactionModel} (h : Sound d)
    (hready : d.session.model.m_state = .needsConfirmation)
    (hcommitted : Committed a (commits d.session) d.session.model s) :
    Sound { d with session := s, answered := some a } := by
  obtain ⟨signed, hsigned, hnew, hstate, htxid, hcommits⟩ := hcommitted
  obtain ⟨p, hp⟩ := h.ready hready
  refine ⟨fun hneeds => ?_, fun _ => ⟨p, hp.toShowsBump.same rfl htxid rfl rfl, a, rfl, signed, ?_, ?_⟩, ?_,
    fun hnone => (prepared_ne_nil h hready hnone).elim⟩
  · simp [hstate] at hneeds
  · rw [← hp.mtx]
    exact hsigned
  · rw [← hp.txid]
    exact hnew
  · have hwaiting : waiting { d with session := s, answered := some a } = 0 := by simp [waiting, hstate]
    rw [hwaiting]
    dsimp only
    rw [hcommits]
    exact Nat.succ_le_succ (commits_le h hready)

theorem sound_confirm (h : Sound d) (passphrase : Option String) (answers : BumpAnswers)
    (throws : Ask → Option String) (unlocks : List UInt8 → Bool) :
    Sound (d.confirm passphrase answers throws unlocks) := by
  have hcall := @confirmFeeBumpInternal_bump (commits d.session) d.session.model throws unlocks
    { answers with hasWallet := d.m_wallet }
    { d.session with passphrase := passphrase.map secureStringFromQString } ⟨rfl, rfl⟩
  unfold Dialog.confirm call
  dsimp only
  generalize (confirmFeeBumpInternal throws unlocks { answers with hasWallet := d.m_wallet }).exec
    { d.session with passphrase := passphrase.map secureStringFromQString } = out at hcall ⊢
  obtain ⟨result, s⟩ := out
  match result, hcall with
  | .error _, ⟨hready, hended⟩ => exact sound_ended h hready ⟨hended.state, hended.commits⟩
  | .ok true, ⟨hready, hcommitted⟩ => exact sound_committed h hready hcommitted
  | .ok false, .inl hrefused =>
    exact sound_refused h ⟨hrefused.state, hrefused.same, hrefused.new_txid, hrefused.commits⟩
  | .ok false, .inr ⟨hready, hended⟩ => exact sound_ended h hready ⟨hended.state, hended.commits⟩

theorem sound_wallet (h : Sound d) (m_wallet isCrypted isLocked : Bool) :
    Sound { d with m_wallet, session := { d.session with isCrypted, isLocked } } := by
  refine ⟨fun hstate => ?_, fun hstate => ?_, h.once, h.unprepared⟩
  · obtain ⟨p, hp⟩ := h.ready hstate
    exact ⟨p, hp.same rfl ⟨rfl, rfl⟩ rfl rfl⟩
  · obtain ⟨p, hp, hdone⟩ := h.done hstate
    exact ⟨p, hp.same rfl rfl rfl rfl, hdone⟩

theorem sound_step (h : Sound d) (e : Event) : Sound (d.step fromHex e) := by
  cases e with
  | prepareFeeBump txid creation => exact sound_prepareFeeBump h txid creation
  | confirm passphrase answers throws unlocks => exact sound_confirm h passphrase answers throws unlocks
  | reset => exact sound_idle h (by simp) (by simp) 0 0
  | detachWallet => exact sound_wallet h false d.session.isCrypted d.session.isLocked
  | walletLocks isCrypted isLocked => exact sound_wallet h d.m_wallet isCrypted isLocked

end GuiQml.Wallet.Bump
