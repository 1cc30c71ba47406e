import GuiQml.Wallet.Reviewed

/-!
# What is sent is signed, and sent once

`sendTransactionInternal` without a PSBT commits the transaction of the draft whatever its source
is, and leaves it there. `SendsDraft` says when that goes well.
-/

namespace GuiQml.Wallet

open Runs

variable {Psbt : Type}

/-! ## The two promises, over a log -/

/-- The transaction that an effect hands to the wallet or to the network. -/
def Effect.sentTx : Effect Psbt → Option Transaction
  | .commitTransaction tx | .broadcastTransaction tx _ => some tx
  | _ => none

/-- A commit, or a broadcast that the node accepted. -/
def Effect.goesOut : Effect Psbt → Bool
  | .commitTransaction _ | .broadcastTransaction _ true => true
  | _ => false

/-- `tx` was created with `sign = true`, or it was extracted from a complete PSBT. -/
def FullySigned (log : List (Effect Psbt)) (tx : Transaction) : Prop :=
  .created tx true ∈ log ∨ .extracted tx ∈ log

def SignedWhenSent (log : List (Effect Psbt)) : Prop :=
  Each (fun before e => ∀ tx, e.sentTx = some tx → FullySigned before tx) log

/-- Between a transaction that went out and the next one that is sent, another draft was captured
for review. -/
def SentOnce (log : List (Effect Psbt)) : Prop :=
  ∀ pre mid post e e', log = pre ++ e :: mid ++ e' :: post → e.goesOut = true →
    e'.sentTx ≠ none → ∃ x ∈ mid, x.capturedTx ≠ none

/-- Whether the draft went out, as far as an effect tells. -/
def Effect.outMark : Effect Psbt → Option Bool
  | .captured _ => some false
  | e => if e.goesOut then some true else none

/-- A draft went out, and none was captured since. -/
def Spent (log : List (Effect Psbt)) : Prop := lastSome Effect.outMark log = some true

theorem outMark_of_quiet {e : Effect Psbt} (h : e.quiet = true) : e.outMark = none := by
  cases e <;> simp_all [Effect.quiet, Effect.outMark, Effect.goesOut]

theorem sentTx_of_quiet {e : Effect Psbt} (h : e.quiet = true) : e.sentTx = none := by
  cases e <;> simp_all [Effect.quiet, Effect.sentTx]

theorem spent_of_uncaptured {pre mid : List (Effect Psbt)} {e : Effect Psbt}
    (he : e.goesOut = true) (hmid : ∀ x ∈ mid, x.capturedTx = none) :
    Spent (pre ++ e :: mid) := by
  refine lastSome_of_stays ?_ fun x hx => ?_
  · cases e <;> simp_all [Effect.outMark, Effect.goesOut]
  · have hx := hmid x hx
    cases x <;> simp_all [Effect.outMark, Effect.capturedTx]

theorem sentOnce_of_each {log : List (Effect Psbt)}
    (h : Each (fun before e => e.sentTx ≠ none → ¬ Spent before) log) : SentOnce log := by
  intro pre mid post e e' hlog he he'
  by_contra hmid
  push Not at hmid
  exact h (pre ++ e :: mid) e' post hlog he' (spent_of_uncaptured he hmid)

/-! ## When sending goes well -/

/-- The call is not one of the two kinds of `sendTransaction` that go wrong: of a draft that already
went out, or of one without a PSBT that the wallet did not sign. -/
def SendsDraft (d : Draft Psbt) (a : WalletAnswers Psbt) : Call → Prop
  | .sendTransaction _ => a.available = true → d.transaction ≠ none →
    (d.psbt ≠ none → d.can_send = true → d.source ≠ .none) ∧
    (d.psbt = none → (a.privateKeysDisabled = true → a.hasExternalSigner = true) →
      d.source ≠ .none ∧ a.privateKeysDisabled = false)
  | _ => True

/-- One call on a wallet with these key flags, made where `allowed` permits it. -/
def WalletStep (api : AddressApi) (psbtApi : PsbtApi Psbt)
    (allowed : Draft Psbt → WalletAnswers Psbt → Call → Prop)
    (privateKeysDisabled hasExternalSigner : Bool) (s : WalletQmlModel Psbt)
    (es : List (Effect Psbt)) (s' : WalletQmlModel Psbt) : Prop :=
  ∃ call a, WalletAnswers.privateKeysDisabled a = privateKeysDisabled ∧
    a.hasExternalSigner = hasExternalSigner ∧ allowed s.draft a call ∧
    perform api psbtApi s call a = (s', es)

/-- What the draft says about the log. -/
structure Accounted (signs : Bool) (d : Draft Psbt) (log : List (Effect Psbt)) : Prop where
  created : ∀ tx, d.shown = some tx → d.psbt = none → d.source ≠ .none → .created tx signs ∈ log
  broadcastable : d.transaction ≠ none → d.can_broadcast = true → d.psbt ≠ none
  spent : Spent log → (d.transaction = none ∨ d.source = .none) ∧ d.can_broadcast = false

section Turns

variable {psbtApi : PsbtApi Psbt} {a : WalletAnswers Psbt} {d d' : Draft Psbt} {call : Call}
  {log es : List (Effect Psbt)}

theorem spent_append_of_unmarked (h : ∀ e ∈ es, e.outMark = none) :
    Spent (log ++ es) ↔ Spent log := by
  unfold Spent
  rw [lastSome_append_of_none log es h]

theorem Accounted.append {signs : Bool} (hi : Accounted signs d log)
    (h : ∀ e ∈ es, e.outMark = none) : Accounted signs d (log ++ es) where
  created tx htx hp hs := List.mem_append_left es (hi.created tx htx hp hs)
  broadcastable := hi.broadcastable
  spent hs := hi.spent ((spent_append_of_unmarked h).mp hs)

theorem not_spent_of_captured {tx : Transaction} :
    ¬ Spent (log ++ [.captured tx, .currentTransactionChanged]) := by
  have hmark : lastSome Effect.outMark
      (log ++ (.captured tx : Effect Psbt) :: [.currentTransactionChanged]) = some false :=
    lastSome_of_stays rfl (by simp [Effect.outMark, Effect.goesOut])
  simp [Spent, hmark]

theorem not_spent_of_prepared {tx : Transaction} {signs : Bool} :
    ¬ Spent (log ++ [.created tx signs, .captured tx, .currentTransactionChanged]) := by
  rw [show log ++ [Effect.created tx signs, .captured tx, .currentTransactionChanged] =
    (log ++ [.created tx signs]) ++ [.captured tx, .currentTransactionChanged] by simp]
  exact not_spent_of_captured

/-- A draft that went out has no source, so nothing more can be asked of the account. -/
theorem finished_accounted {signs : Bool} (current : WalletQmlModelTransaction) (tx : Transaction)
    (can_send : Bool) (log : List (Effect Psbt)) :
    Accounted signs (Draft.finished current tx can_send) log where
  created _ _ _ hs := absurd rfl hs
  broadcastable _ hb := nomatch hb
  spent _ := ⟨.inr rfl, rfl⟩

theorem Turn.accounted (h : Turn psbtApi a d call d' es)
    (hi : Accounted (!a.privateKeysDisabled) d log) :
    Accounted (!a.privateKeysDisabled) d' (log ++ es) := by
  cases h with
  | kept hq => exact hi.append fun e he => outMark_of_quiet (hq e he)
  | dropped hcb hq =>
    refine ⟨nofun, fun h => absurd rfl h, fun hs => ⟨.inl rfl, ?_⟩⟩
    have hs := (spent_append_of_unmarked fun e he => outMark_of_quiet (hq e he)).mp hs
    exact Bool.eq_false_iff.mpr fun hc => by simpa [(hi.spent hs).2] using hcb hc
  | @prepared _ current tx htx =>
    refine ⟨fun tx' htx' _ _ => ?_, fun _ hb => (nomatch hb), fun hs => ?_⟩
    · cases htx.symm.trans htx'
      simp
    · exact absurd hs not_spent_of_prepared
  | imported htx hre hu =>
    exact ⟨fun _ _ hp _ => (nomatch hp), fun _ _ hp => (nomatch hp),
      fun hs => absurd hs not_spent_of_captured⟩
  | signedPartially hcur htx hre hq =>
    refine ⟨fun _ _ hp _ => (nomatch hp), fun _ hb => (nomatch hb), fun hs => ⟨.inr ?_, rfl⟩⟩
    have hs := (spent_append_of_unmarked fun e he => outMark_of_quiet (hq e he)).mp hs
    exact (hi.spent hs).1.resolve_left (by simp [hcur])
  | signed hcur htx hre hx hq =>
    refine ⟨fun _ _ hp _ => (nomatch hp), fun _ hb => (nomatch hb), fun hs => ⟨.inr ?_, rfl⟩⟩
    have hs := (spent_append_of_unmarked fun e he => outMark_of_quiet (hq e he)).mp hs
    exact (hi.spent hs).1.resolve_left (by simp [hcur])
  | broadcast => exact finished_accounted _ _ _ _
  | refused => exact hi.append (by simp [Effect.outMark, Effect.goesOut])
  | committedPsbt => exact finished_accounted _ _ _ _
  | committedPlain _ hcur hpsbt =>
    refine ⟨fun _ _ _ hs => absurd rfl hs, hi.broadcastable, fun _ => ⟨.inr rfl, ?_⟩⟩
    exact Bool.eq_false_iff.mpr fun hb => hi.broadcastable (by simp [hcur]) hb hpsbt
  | saved => exact hi.append (by simp [Effect.outMark, Effect.goesOut])

/-- What an effect that sends something needs of the events before it. -/
def SendsWell (before : List (Effect Psbt)) (e : Effect Psbt) : Prop :=
  ∀ tx, e.sentTx = some tx → FullySigned before tx ∧ ¬ Spent before

theorem sendsWell_of_unsent (h : ∀ e ∈ es, e.sentTx = none) :
    Each (fun pre => SendsWell (log ++ pre)) es :=
  .of_forall fun pre e he tx htx => by simp [h e he] at htx

theorem sendsWell_of_quiet (hq : ∀ e ∈ es, e.quiet) :
    Each (fun pre => SendsWell (log ++ pre)) es :=
  sendsWell_of_unsent fun e he => sentTx_of_quiet (hq e he)

theorem not_spent_of {signs : Bool} (hi : Accounted signs d log)
    (h : d.can_broadcast = true ∨ d.transaction ≠ none ∧ d.source ≠ .none) : ¬ Spent log := by
  intro hs
  obtain ⟨hdraft, hcb⟩ := hi.spent hs
  rcases h with h | ⟨ht, hsrc⟩
  · simp [hcb] at h
  · exact hdraft.elim ht hsrc

theorem sendsWell_extracted {tx : Transaction} {e : Effect Psbt} (htx : e.sentTx = some tx)
    (hs : ¬ Spent log) (hes : ∀ x ∈ es, x.sentTx = none) :
    Each (fun pre => SendsWell (log ++ pre)) (.extracted tx :: e :: es) := by
  refine .cons (fun _ h => nomatch h) (.cons (fun tx' htx' => ?_) ?_)
  · cases htx.symm.trans htx'
    refine ⟨.inr (by simp), fun hspent => hs ?_⟩
    exact (spent_append_of_unmarked (by simp [Effect.outMark, Effect.goesOut])).mp hspent
  · exact .of_forall fun pre x hx tx' htx' => by simp [hes x hx] at htx'

theorem Turn.sendsWell (h : Turn psbtApi a d call d' es)
    (hi : Accounted (!a.privateKeysDisabled) d log) (hok : SendsDraft d a call) :
    Each (fun pre => SendsWell (log ++ pre)) es := by
  cases h with
  | kept hq => exact sendsWell_of_quiet hq
  | dropped _ hq => exact sendsWell_of_quiet hq
  | prepared | imported | saved => exact sendsWell_of_unsent (by simp [Effect.sentTx])
  | signedPartially _ _ _ hq => exact sendsWell_of_quiet hq
  | signed _ _ _ _ hq => exact sendsWell_of_quiet hq
  | broadcast _ _ hcb =>
    exact sendsWell_extracted rfl (not_spent_of hi (.inl hcb)) (by simp [Effect.sentTx])
  | refused _ _ hcb =>
    exact sendsWell_extracted rfl (not_spent_of hi (.inl hcb)) (by simp)
  | committedPsbt ha hcur hpsbt hcan _ _ hq =>
    have hsource := (hok ha (by simp [hcur])).1 (by simp [hpsbt]) hcan
    exact sendsWell_extracted rfl (not_spent_of hi (.inr ⟨by simp [hcur], hsource⟩))
      fun e he => sentTx_of_quiet (hq e he)
  | @committedPlain _ current tx _ ha hcur hpsbt htx hsigner hq =>
    obtain ⟨hsource, hkeys⟩ := (hok ha (by simp [hcur])).2 hpsbt hsigner
    have hcreated := hi.created tx (shown_of hcur htx) hpsbt hsource
    refine .cons (fun tx' htx' => ?_) ?_
    · cases htx'
      simp only [hkeys, Bool.not_false] at hcreated
      exact ⟨.inl (by simpa using hcreated), by
        simpa using not_spent_of hi (.inr ⟨by simp [hcur], hsource⟩)⟩
    · exact .of_forall fun pre x hx tx' htx' => by simp [sentTx_of_quiet (hq x hx)] at htx'

end Turns

/-! ## Runs -/

section Runs

variable {api : AddressApi} {psbtApi : PsbtApi Psbt} {privateKeysDisabled hasExternalSigner : Bool}
  {s : WalletQmlModel Psbt} {log : List (Effect Psbt)}

theorem careful_run (h : Run (WalletStep api psbtApi SendsDraft privateKeysDisabled
    hasExternalSigner) {} s log) :
    Accounted (!privateKeysDisabled) s.draft log ∧ Each SendsWell log := by
  refine h.invariant (I := fun s log =>
    Accounted (!privateKeysDisabled) s.draft log ∧ Each SendsWell log) ?_ ?_
  · refine ⟨⟨fun _ h => ?_, fun h => absurd rfl h, fun h => ?_⟩, .nil⟩
    · simp [Draft.shown, WalletQmlModel.draft] at h
    · simp [Spent] at h
  · rintro s log es s' ⟨hi, heach⟩ ⟨call, a, rfl, -, hok, hp⟩
    have hturn := perform_turn api psbtApi s call a
    rw [hp] at hturn
    exact ⟨hturn.accounted hi, heach.append (hturn.sendsWell hi hok)⟩

/-- In a run in which every `sendTransaction` is of a draft that did not go out yet, and that the
wallet signed or keeps as a PSBT, what is sent is signed and is sent once. -/
theorem sent_signed_and_once (h : Run (WalletStep api psbtApi SendsDraft privateKeysDisabled
    hasExternalSigner) {} s log) : SignedWhenSent log ∧ SentOnce log := by
  have hwell := (careful_run h).2
  refine ⟨fun pre e post heq tx htx => (hwell pre e post heq tx htx).1, sentOnce_of_each ?_⟩
  intro pre e post heq hsent
  obtain ⟨tx, htx⟩ := Option.ne_none_iff_exists'.mp hsent
  exact (hwell pre e post heq tx htx).2

end Runs

theorem OneCoin.walletStep {allowed : Draft CoinPsbt → WalletAnswers CoinPsbt → Call → Prop}
    (privateKeysDisabled hasExternalSigner : Bool) (s : WalletQmlModel CoinPsbt) (c : Call)
    (h : allowed s.draft (answers privateKeysDisabled hasExternalSigner) c) :
    WalletStep addressApi psbtApi allowed privateKeysDisabled hasExternalSigner s
      (OneCoin.call privateKeysDisabled hasExternalSigner s c).2
      (OneCoin.call privateKeysDisabled hasExternalSigner s c).1 :=
  ⟨c, _, rfl, rfl, h, rfl⟩

/-- Preparing and sending once. -/
theorem sent_signed_and_once_prepared :
    SignedWhenSent (OneCoin.preparedLog false ++
        [.commitTransaction (OneCoin.preparedTx false)]) ∧
      SentOnce (OneCoin.preparedLog false ++
        [.commitTransaction (OneCoin.preparedTx false)]) :=
  @sent_signed_and_once _ OneCoin.addressApi OneCoin.psbtApi false false _ _
    (.snoc (.snoc (.snoc .nil (OneCoin.walletStep false false _ OneCoin.fillForm trivial))
        (OneCoin.walletStep false false _ (.prepareTransaction none) trivial))
      (OneCoin.walletStep false false (OneCoin.prepared false false) (.sendTransaction none)
        fun _ _ => ⟨fun h => absurd rfl h, fun _ _ => ⟨nofun, rfl⟩⟩))

/-- Sending right after preparing: an external-signer wallet commits the unsigned transaction, and a
wallet with keys commits the same transaction on every further call. -/
theorem sends_unsigned_and_twice :
    (∃ s log, Run (WalletStep OneCoin.addressApi OneCoin.psbtApi (fun _ _ _ => True) true true)
      {} s log ∧ ¬ SignedWhenSent log) ∧
    ∃ s log, Run (WalletStep OneCoin.addressApi OneCoin.psbtApi (fun _ _ _ => True) false false)
      {} s log ∧ ¬ SentOnce log := by
  constructor
  · refine ⟨_, _, .snoc (.snoc (.snoc .nil (OneCoin.walletStep _ _ _ OneCoin.fillForm trivial))
      (OneCoin.walletStep _ _ _ (.prepareTransaction none) trivial))
      (OneCoin.walletStep _ _ _ (.sendTransaction none) trivial), fun h => ?_⟩
    have hsigned := h (OneCoin.preparedLog true)
      (.commitTransaction (OneCoin.preparedTx true)) [] rfl _ rfl
    simp [FullySigned, OneCoin.preparedLog] at hsigned
  · refine ⟨_, _, .snoc (.snoc (.snoc (.snoc .nil
      (OneCoin.walletStep _ _ _ OneCoin.fillForm trivial))
      (OneCoin.walletStep _ _ _ (.prepareTransaction none) trivial))
      (OneCoin.walletStep _ _ _ (.sendTransaction none) trivial))
      (OneCoin.walletStep _ _ _ (.sendTransaction none) trivial), fun h => ?_⟩
    obtain ⟨x, hx, -⟩ := h (OneCoin.preparedLog false) [] []
      (.commitTransaction (OneCoin.preparedTx false))
      (.commitTransaction (OneCoin.preparedTx false)) rfl rfl (by simp [Effect.sentTx])
    simp at hx

end GuiQml.Wallet
