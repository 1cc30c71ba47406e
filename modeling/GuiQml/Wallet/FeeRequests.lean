import GuiQml.Lib.Reach
import GuiQml.Wallet.Previewed

/-!
# The fee estimates of the form

`scheduleFeeEstimates`, its timer and the tasks of the worker. A task knows what it was asked for only by a
number, which every schedule, request and clear moves on. The amount that an estimate fills in has listeners
that may schedule again, which `m_updating_maximum` keeps them from.
-/

namespace GuiQml.Wallet

open GuiQml.Int64

variable {Psbt : Type}

/-- What an estimate is for. Row numbers past the end stand for a recipient that was removed. -/
structure SendDraft (Psbt : Type) where
  m_send_recipients : List SendRecipientFields
  m_maximum_recipient : Option Nat := none
  m_coin_control : SendControl := {}
  m_wallet : WalletInterface
  /-- The fee settings, and what else the wallet answers. -/
  answers : WalletAnswers Psbt
  balanceSatoshi : CAmount := 0

/-- What a task is given of the draft. -/
structure FeeRequest where
  remainder_index : Int
  recipients : List CRecipient
  base_coin_control : SendControl
  preview_change_type : OutputType
  custom_fee_enabled : Bool
  custom_fee_rate_per_kvb : Option CAmount

/-- The wallet as the worker finds it. -/
structure WorkerWallet (Psbt : Type) where
  wallet : WalletInterface
  answers : WalletAnswers Psbt
  dummy : OutputType → Destination
  lockTime : Nat

/-- The task of a request. -/
def FeeRequest.estimates (api : AddressApi) (w : WorkerWallet Psbt) (request : FeeRequest) : FeeEstimates where
  m_fee_estimates := STANDARD_FEE_TARGETS.filterMap fun target =>
    (estimatePreviewFee api w.wallet request.recipients w.dummy request.base_coin_control
      request.preview_change_type w.answers target request.remainder_index w.lockTime).map (target, ·)
  m_custom_fee_estimate :=
    if request.custom_fee_enabled then request.custom_fee_rate_per_kvb.bind fun rate =>
      estimateCustomPreviewFee api w.wallet request.recipients w.dummy request.base_coin_control
        request.preview_change_type rate request.remainder_index w.lockTime
    else none

namespace SendDraft

variable (api : AddressApi) (d : SendDraft Psbt)

def buildRecipients : Option (List CRecipient) :=
  if !d.answers.hasWallet then none
  else WalletQmlModel.buildRecipients api (d.m_send_recipients.map SendRecipientFields.row)
    d.m_maximum_recipient

/-- `indexOf` of the maximum recipient. -/
def remainderIndex : Int :=
  match d.m_maximum_recipient with
  | some i => if i < d.m_send_recipients.length then i else -1
  | none => -1

/-- The first half of `requestFeeEstimatesNow`. -/
def capture : Option FeeRequest :=
  (d.buildRecipients api).map fun recipients =>
    { remainder_index := d.remainderIndex
      recipients
      base_coin_control := d.m_coin_control
      preview_change_type := d.m_coin_control.m_change_type.getD d.m_wallet.getDefaultAddressType
      custom_fee_enabled := d.answers.customFeeEnabled
      custom_fee_rate_per_kvb := d.answers.customFeeRatePerKvB }

/-- What the recipients but the maximum one leave of the available balance. -/
def grossRemainder : CAmount :=
  (d.m_send_recipients.zipIdx.filter fun (_, i) => d.m_maximum_recipient ≠ some i).foldl
    (fun remainder (recipient, _) => remainder - recipient.satoshi)
    (d.answers.getAvailableBalance (WalletQmlModel.applySelectedInputsPolicy d.m_coin_control.toCCoinControl))

end SendDraft

/-- On one wallet, the task of what is captured works out the estimates of `requestFeeEstimatesNow`. -/
theorem SendDraft.estimates_of_capture (api : AddressApi) (d : SendDraft Psbt) (dummy : OutputType → Destination)
    (lockTime : Nat) (hmaximum : ∀ i ∈ d.m_maximum_recipient, i < d.m_send_recipients.length) :
    requestFeeEstimatesNow api d.m_wallet dummy d.answers d.m_coin_control
        (d.m_send_recipients.map SendRecipientFields.row) d.m_maximum_recipient lockTime =
      ((d.capture api).map (FeeRequest.estimates api ⟨d.m_wallet, d.answers, dummy, lockTime⟩)).getD {} := by
  have hindex : d.remainderIndex = d.m_maximum_recipient.elim (-1) Nat.cast := by
    unfold SendDraft.remainderIndex
    cases hmax : d.m_maximum_recipient with
    | none => rfl
    | some i => exact if_pos (hmaximum i hmax)
  unfold requestFeeEstimatesNow SendDraft.capture SendDraft.buildRecipients
  split
  · rfl
  · cases WalletQmlModel.buildRecipients api _ d.m_maximum_recipient with
    | none => rfl
    | some recipients =>
      dsimp only [Option.map_some, Option.getD_some]
      rw [hindex]
      rfl

/-! ## The form -/

structure FeeForm (Psbt : Type) where
  draft : SendDraft Psbt
  estimates : FeeEstimates := {}
  m_fee_estimate_request_id : Nat := 0
  m_fee_estimate_revision : Nat := 0
  m_fee_estimate_pending : Bool := false
  m_updating_maximum : Bool := false
  /-- Whether `m_fee_estimation_timer` runs. -/
  timer_active : Bool := false
  /-- What the worker has not answered, with the numbers. -/
  requests : List (Nat × FeeRequest) := []

/-- What listens to the amount of a recipient. -/
inductive Listener (Psbt : Type)
  | schedule
  | edit (change : SendDraft Psbt → SendDraft Psbt)

structure FormEnv (Psbt : Type) where
  api : AddressApi
  isDust : TxOut → Bool
  listeners : List (Listener Psbt)

namespace FeeForm

variable (env : FormEnv Psbt) (s : FeeForm Psbt)

def clearFeeEstimates : FeeForm Psbt :=
  let estimates_changed := !s.estimates.m_fee_estimates.isEmpty
  let custom_estimate_changed := s.estimates.m_custom_fee_estimate.isSome
  let pending_changed := s.m_fee_estimate_pending
  { s with
    m_fee_estimate_request_id := s.m_fee_estimate_request_id + 1
    estimates := {}
    m_fee_estimate_pending := false
    m_fee_estimate_revision :=
      if estimates_changed || custom_estimate_changed || pending_changed then s.m_fee_estimate_revision + 1
      else s.m_fee_estimate_revision }

/-- A listener is told. `schedule` is its way back into the form. -/
def tell (schedule : FeeForm Psbt → FeeForm Psbt) (s : FeeForm Psbt) : Listener Psbt → FeeForm Psbt
  | .schedule => schedule s
  | .edit change => { s with draft := change s.draft }

/-- `setSatoshi` of the maximum recipient's amount. The connection that takes the maximum back looks at
`m_updating_maximum`. -/
def setMaximumSatoshi (schedule : FeeForm Psbt → FeeForm Psbt) (new_amount : CAmount) (s : FeeForm Psbt) :
    FeeForm Psbt :=
  match s.draft.m_maximum_recipient with
  | none => s
  | some i =>
    match s.draft.m_send_recipients[i]? with
    | none => s
    | some recipient =>
      if recipient.satoshi = new_amount && recipient.amountIsSet then s
      else
        let recipient := { recipient with satoshi := new_amount, amountIsSet := true }.validateAmount
          env.api env.isDust s.draft.balanceSatoshi
        let s := { s with draft := { s.draft with
          m_send_recipients := s.draft.m_send_recipients.set i recipient
          m_maximum_recipient :=
            if !s.m_updating_maximum then none else s.draft.m_maximum_recipient } }
        env.listeners.foldl (tell schedule) s

/-- `QScopedValueRollback` on `m_updating_maximum`. -/
def updatingMaximum (update : FeeForm Psbt → FeeForm Psbt) : FeeForm Psbt :=
  { update { s with m_updating_maximum := true } with m_updating_maximum := s.m_updating_maximum }

/-- Until the maximum recipient has an address, it shows what the others leave. -/
def showGrossRemainder (schedule : FeeForm Psbt → FeeForm Psbt) : FeeForm Psbt :=
  if s.draft.answers.hasWallet && (s.draft.m_maximum_recipient.bind (s.draft.m_send_recipients[·]?)).any
      (·.address.isEmpty) then
    s.updatingMaximum (setMaximumSatoshi env schedule (max 0 s.draft.grossRemainder))
  else s

/-- Where the recipients are valid. -/
def restartTimer : FeeForm Psbt :=
  let estimates_changed := !s.estimates.m_fee_estimates.isEmpty
  let custom_estimate_changed := s.estimates.m_custom_fee_estimate.isSome
  let pending_changed := !s.m_fee_estimate_pending
  { s with
    m_fee_estimate_request_id := s.m_fee_estimate_request_id + 1
    estimates := {}
    m_fee_estimate_pending := true
    m_fee_estimate_revision :=
      if estimates_changed || custom_estimate_changed || pending_changed then s.m_fee_estimate_revision + 1
      else s.m_fee_estimate_revision
    timer_active := true }

/-- `depth` bounds how deep the listeners come back. -/
def scheduleFeeEstimates : Nat → FeeForm Psbt → FeeForm Psbt
  | 0, s => s
  | depth + 1, s =>
    if s.m_updating_maximum then s
    else
      let s := { s with timer_active := false }.showGrossRemainder env (scheduleFeeEstimates depth)
      if (s.draft.buildRecipients env.api).isNone then s.clearFeeEstimates else s.restartTimer

def requestFeeEstimatesNow : FeeForm Psbt :=
  match s.draft.capture env.api with
  | none => s.clearFeeEstimates
  | some request =>
    let request_id := s.m_fee_estimate_request_id + 1
    { s with
      m_fee_estimate_request_id := request_id
      m_fee_estimate_pending := true
      m_fee_estimate_revision :=
        if !s.m_fee_estimate_pending then s.m_fee_estimate_revision + 1 else s.m_fee_estimate_revision
      requests := s.requests ++ [(request_id, request)] }

def updateMaximumAmount (depth : Nat) : FeeForm Psbt :=
  match selectedFeePreview s.draft.answers s.draft.m_coin_control s.estimates with
  | none => s
  | some preview =>
    match preview.maximum_amount with
    | none => s
    | some amount => s.updatingMaximum (setMaximumSatoshi env (scheduleFeeEstimates env depth) amount)

def applyFeeEstimates (depth : Nat) (estimates : FeeEstimates) (request_id : Nat) : FeeForm Psbt :=
  if request_id ≠ s.m_fee_estimate_request_id then s
  else
    let estimates_changed := s.estimates.m_fee_estimates ≠ estimates.m_fee_estimates
    let custom_estimate_changed := s.estimates.m_custom_fee_estimate ≠ estimates.m_custom_fee_estimate
    let s := { s with estimates }.updateMaximumAmount env depth
    let pending_changed := s.m_fee_estimate_pending
    { s with
      m_fee_estimate_pending := false
      m_fee_estimate_revision :=
        if estimates_changed || custom_estimate_changed || pending_changed then s.m_fee_estimate_revision + 1
        else s.m_fee_estimate_revision }

def setFeeTargetBlocks (depth target_blocks : Nat) : FeeForm Psbt :=
  if s.draft.m_coin_control.m_confirm_target ≠ some target_blocks then
    { s with draft := { s.draft with m_coin_control := { s.draft.m_coin_control with
      m_confirm_target := some target_blocks } } }.updateMaximumAmount env depth
  else s

/-! ## Steps -/

inductive Event (Psbt : Type)
  /-- Whatever changes the draft otherwise, on its own. -/
  | edit (draft : SendDraft Psbt)
  | setFeeTargetBlocks (target_blocks : Nat)
  | schedule
  /-- Both callers have stopped the timer. -/
  | clear
  | timeout
  /-- A request of those not answered comes back. -/
  | returned (k : Nat) (w : WorkerWallet Psbt)
  | threw (k : Nat)

def finish (depth k : Nat) (result : FeeRequest → FeeEstimates) : FeeForm Psbt :=
  match s.requests[k]? with
  | none => s
  | some (request_id, request) =>
    { s with requests := s.requests.eraseIdx k }.applyFeeEstimates env depth (result request) request_id

def step (depth : Nat) (s : FeeForm Psbt) : Event Psbt → FeeForm Psbt
  | .edit draft => { s with draft }
  | .setFeeTargetBlocks target_blocks => s.setFeeTargetBlocks env depth target_blocks
  | .schedule => s.scheduleFeeEstimates env (depth + 1)
  | .clear => { s with timer_active := false }.clearFeeEstimates
  | .timeout =>
    -- The timer is single-shot.
    if s.timer_active then { s with timer_active := false }.requestFeeEstimatesNow env else s
  | .returned k w => s.finish env depth k (FeeRequest.estimates env.api w)
  | .threw k => s.finish env depth k fun _ => {}

/-- The form opens. -/
def start (draft : SendDraft Psbt) : FeeForm Psbt := { draft }

/-! ## What is asked of the form -/

/-- A schedule or a clear. -/
def Event.Renews : Event Psbt → Prop
  | .schedule | .clear => True
  | _ => False

def Event.Fills : Event Psbt → Prop
  | .returned .. | .threw _ | .setFeeTargetBlocks _ => True
  | _ => False

/-- The timer fired and `request` was captured under that number, and nothing has superseded it since. -/
def Asked (depth : Nat) (draft : SendDraft Psbt) (Supersedes : Event Psbt → Prop) (events : List (Event Psbt))
    (request_id : Nat) (request : FeeRequest) : Prop :=
  ∃ before after, events = before ++ .timeout :: after ∧ (∀ e ∈ after, ¬Supersedes e) ∧
    let s := before.foldl (step env depth) (start draft)
    s.timer_active = true ∧ s.draft.capture env.api = some request ∧
      request_id = s.m_fee_estimate_request_id + 1

/-- The form after `events` shows the fees of its draft, and says so while it waits for them. -/
structure FeesCurrent (depth : Nat) (draft : SendDraft Psbt) (events : List (Event Psbt)) (s : FeeForm Psbt) :
    Prop where
  shown : s.estimates = {} ∨ ∃ request_id request, ∃ w : WorkerWallet Psbt,
    Asked env depth draft Event.Renews events request_id request ∧
      s.estimates = request.estimates env.api w
  pending : s.m_fee_estimate_pending = true ↔ s.timer_active = true ∨ ∃ request_id request,
    Asked env depth draft Event.Renews events request_id request ∧ (request_id, request) ∈ s.requests
  /-- Filling in the maximum schedules nothing and asks for nothing. -/
  filled : ∀ e : Event Psbt, e.Fills →
    (s.step env depth e).timer_active = s.timer_active ∧
      (s.step env depth e).m_fee_estimate_request_id = s.m_fee_estimate_request_id ∧
      (s.step env depth e).requests.Sublist s.requests

/-! ## Only the draft -/

section Frame

variable (env : FormEnv Psbt) (depth : Nat) {s t : FeeForm Psbt}

/-- Only the draft differs. -/
def Redrafted (s t : FeeForm Psbt) : Prop := ∃ draft, t = { s with draft }

theorem Redrafted.refl (s : FeeForm Psbt) : Redrafted s s := ⟨s.draft, rfl⟩

theorem Redrafted.trans {u : FeeForm Psbt} (h : Redrafted s t) (h' : Redrafted t u) : Redrafted s u := by
  obtain ⟨draft, rfl⟩ := h
  obtain ⟨draft', rfl⟩ := h'
  exact ⟨draft', rfl⟩

theorem schedule_of_updating (h : s.m_updating_maximum = true) : scheduleFeeEstimates env depth s = s := by
  cases depth with
  | zero => rfl
  | succ depth => exact if_pos h

theorem tell_of_updating (h : s.m_updating_maximum = true) (l : Listener Psbt) :
    tell (scheduleFeeEstimates env depth) s l = tell id s l := by
  cases l with
  | schedule => exact schedule_of_updating env depth h
  | edit change => rfl

theorem redrafted_tell (l : Listener Psbt) : Redrafted s (tell id s l) := by
  cases l with
  | schedule => exact .refl s
  | edit change => exact ⟨_, rfl⟩

theorem listeners_of_updating (listeners : List (Listener Psbt)) (h : s.m_updating_maximum = true) :
    listeners.foldl (tell (scheduleFeeEstimates env depth)) s = listeners.foldl (tell id) s := by
  induction listeners generalizing s with
  | nil => rfl
  | cons l listeners ih =>
    rw [List.foldl_cons, List.foldl_cons, tell_of_updating env depth h]
    refine ih ?_
    obtain ⟨draft, hdraft⟩ := redrafted_tell (s := s) l
    rw [hdraft]
    exact h

theorem redrafted_listeners (listeners : List (Listener Psbt)) :
    Redrafted s (listeners.foldl (tell id) s) := by
  induction listeners generalizing s with
  | nil => exact .refl s
  | cons l listeners ih => exact (redrafted_tell l).trans ih

theorem setMaximumSatoshi_of_updating (amount : CAmount) (h : s.m_updating_maximum = true) :
    setMaximumSatoshi env (scheduleFeeEstimates env depth) amount s = setMaximumSatoshi env id amount s := by
  unfold setMaximumSatoshi
  split
  · rfl
  split
  · rfl
  split
  · rfl
  · exact listeners_of_updating env depth env.listeners h

theorem redrafted_setMaximumSatoshi (amount : CAmount) : Redrafted s (setMaximumSatoshi env id amount s) := by
  unfold setMaximumSatoshi
  split
  · exact .refl s
  split
  · exact .refl s
  split
  · exact .refl s
  · have hset (draft : SendDraft Psbt) : Redrafted s { s with draft } := ⟨draft, rfl⟩
    exact (hset _).trans (redrafted_listeners env.listeners)

theorem updatingMaximum_eq (s : FeeForm Psbt) (amount : CAmount) :
    s.updatingMaximum (setMaximumSatoshi env (scheduleFeeEstimates env depth) amount) =
      s.updatingMaximum (setMaximumSatoshi env id amount) := by
  unfold updatingMaximum
  rw [setMaximumSatoshi_of_updating env depth amount rfl]

theorem redrafted_updatingMaximum (amount : CAmount) :
    Redrafted s (s.updatingMaximum (setMaximumSatoshi env (scheduleFeeEstimates env depth) amount)) := by
  rw [updatingMaximum_eq]
  obtain ⟨draft, hdraft⟩ :=
    redrafted_setMaximumSatoshi env (s := { s with m_updating_maximum := true }) amount
  refine ⟨draft, ?_⟩
  unfold updatingMaximum
  rw [hdraft]

theorem showGrossRemainder_eq (s : FeeForm Psbt) :
    s.showGrossRemainder env (scheduleFeeEstimates env depth) = s.showGrossRemainder env id := by
  unfold showGrossRemainder
  rw [updatingMaximum_eq]

theorem redrafted_showGrossRemainder :
    Redrafted s (s.showGrossRemainder env (scheduleFeeEstimates env depth)) := by
  unfold showGrossRemainder
  split
  · exact redrafted_updatingMaximum env depth _
  · exact .refl s

theorem redrafted_updateMaximumAmount : Redrafted s (s.updateMaximumAmount env depth) := by
  unfold updateMaximumAmount
  split
  · exact .refl s
  split
  · exact .refl s
  · exact redrafted_updatingMaximum env depth _

/-- A listener that comes back finds the guard, so one level is as good as any. -/
theorem scheduleFeeEstimates_depth (s : FeeForm Psbt) :
    scheduleFeeEstimates env (depth + 1) s = scheduleFeeEstimates env 1 s := by
  unfold scheduleFeeEstimates
  rw [showGrossRemainder_eq, showGrossRemainder_eq]

/-! ## What a step does -/

theorem schedule_cases (h : s.m_updating_maximum = false) : ∃ draft : SendDraft Psbt,
    s.scheduleFeeEstimates env (depth + 1) =
        { s with draft, timer_active := false }.clearFeeEstimates ∨
      s.scheduleFeeEstimates env (depth + 1) = { s with draft, timer_active := false }.restartTimer := by
  obtain ⟨draft, hdraft⟩ :=
    redrafted_showGrossRemainder env depth (s := { s with timer_active := false })
  refine ⟨draft, ?_⟩
  unfold scheduleFeeEstimates
  rw [if_neg (by simp [h])]
  dsimp only
  rw [hdraft]
  split
  · exact .inl rfl
  · exact .inr rfl

theorem request_cases (s : FeeForm Psbt) : s.requestFeeEstimatesNow env = s.clearFeeEstimates ∨
    ∃ request m_fee_estimate_revision, s.draft.capture env.api = some request ∧
      s.requestFeeEstimatesNow env =
        { s with
          m_fee_estimate_request_id := s.m_fee_estimate_request_id + 1
          m_fee_estimate_pending := true
          m_fee_estimate_revision
          requests := s.requests ++ [(s.m_fee_estimate_request_id + 1, request)] } := by
  unfold requestFeeEstimatesNow
  split
  · exact .inl rfl
  next request hcapture => exact .inr ⟨request, _, hcapture, rfl⟩

theorem finish_cases (k : Nat) (result : FeeRequest → FeeEstimates) :
    s.finish env depth k result = s ∨ ∃ request_id request, s.requests[k]? = some (request_id, request) ∧
      (request_id ≠ s.m_fee_estimate_request_id ∧
          s.finish env depth k result = { s with requests := s.requests.eraseIdx k } ∨
        request_id = s.m_fee_estimate_request_id ∧ ∃ draft m_fee_estimate_revision,
          s.finish env depth k result = { s with
            draft
            estimates := result request
            m_fee_estimate_pending := false
            m_fee_estimate_revision
            requests := s.requests.eraseIdx k }) := by
  unfold finish
  split
  · exact .inl rfl
  next request_id request hrequest =>
    refine .inr ⟨request_id, request, hrequest, ?_⟩
    unfold applyFeeEstimates
    split
    next hid => exact .inl ⟨hid, rfl⟩
    next hid =>
      obtain ⟨draft, hdraft⟩ := redrafted_updateMaximumAmount env depth
        (s := { s with requests := s.requests.eraseIdx k, estimates := result request })
      dsimp only
      rw [hdraft]
      exact .inr ⟨not_not.mp hid, draft, _, rfl⟩

theorem setFeeTargetBlocks_cases (target_blocks : Nat) :
    Redrafted s (s.setFeeTargetBlocks env depth target_blocks) := by
  unfold setFeeTargetBlocks
  split
  · have hset (draft : SendDraft Psbt) : Redrafted s { s with draft } := ⟨draft, rfl⟩
    exact (hset _).trans (redrafted_updateMaximumAmount env depth)
  · exact .refl s

end Frame

/-! ## Runs -/

section Runs

variable {env : FormEnv Psbt} {depth : Nat} {draft : SendDraft Psbt} {events : List (Event Psbt)}
  {s t : FeeForm Psbt} {e : Event Psbt}

theorem Asked.snoc {Supersedes : Event Psbt → Prop} {request_id : Nat} {request : FeeRequest}
    (h : Asked env depth draft Supersedes events request_id request) (he : ¬Supersedes e) :
    Asked env depth draft Supersedes (events ++ [e]) request_id request := by
  obtain ⟨before, after, rfl, hafter, hfired⟩ := h
  refine ⟨before, after ++ [e], by simp, fun e' he' => ?_, hfired⟩
  rcases List.mem_append.mp he' with he' | he'
  · exact hafter e' he'
  · rw [List.mem_singleton.mp he']
    exact he

/-- The requests, and what they are for, when `events` led to `s`. -/
structure Sound (env : FormEnv Psbt) (depth : Nat) (draft : SendDraft Psbt) (events : List (Event Psbt))
    (s : FeeForm Psbt) : Prop where
  not_updating : s.m_updating_maximum = false
  le : ∀ r ∈ s.requests, r.1 ≤ s.m_fee_estimate_request_id
  nodup : (s.requests.map Prod.fst).Nodup
  asked : ∀ r ∈ s.requests, r.1 = s.m_fee_estimate_request_id →
    Asked env depth draft Event.Renews events r.1 r.2
  timer : s.timer_active = true →
    s.estimates = {} ∧ ∀ r ∈ s.requests, r.1 ≠ s.m_fee_estimate_request_id
  pending : s.m_fee_estimate_pending = true ↔
    s.timer_active = true ∨ ∃ r ∈ s.requests, r.1 = s.m_fee_estimate_request_id
  shown : s.estimates = {} ∨ ∃ request_id request, ∃ w : WorkerWallet Psbt,
    Asked env depth draft Event.Renews events request_id request ∧
      s.estimates = request.estimates env.api w

namespace Sound

theorem start (env : FormEnv Psbt) (depth : Nat) (draft : SendDraft Psbt) :
    Sound env depth draft [] (start draft) where
  not_updating := rfl
  le := by simp [FeeForm.start]
  nodup := List.nodup_nil
  asked := by simp [FeeForm.start]
  timer h := by cases h
  pending := by simp [FeeForm.start]
  shown := .inl rfl

theorem shown_snoc (h : Sound env depth draft events s) (he : ¬e.Renews) :
    s.estimates = {} ∨ ∃ request_id request, ∃ w : WorkerWallet Psbt,
      Asked env depth draft Event.Renews (events ++ [e]) request_id request ∧
        s.estimates = request.estimates env.api w := by
  rcases h.shown with hshown | ⟨request_id, request, w, hasked, hshown⟩
  · exact .inl hshown
  · exact .inr ⟨request_id, request, w, hasked.snoc he, hshown⟩

theorem redrafted (h : Sound env depth draft events s) (hst : Redrafted s t) (he : ¬e.Renews) :
    Sound env depth draft (events ++ [e]) t := by
  obtain ⟨draft', rfl⟩ := hst
  exact ⟨h.not_updating, h.le, h.nodup, fun r hr hid => (h.asked r hr hid).snoc he, h.timer, h.pending,
    h.shown_snoc he⟩

theorem stale (h : Sound env depth draft events s) {r : Nat × FeeRequest} (hr : r ∈ s.requests) :
    r.1 ≠ s.m_fee_estimate_request_id + 1 := Nat.ne_of_lt (Nat.lt_succ_of_le (h.le r hr))

theorem clear (h : Sound env depth draft events s) (draft' : SendDraft Psbt)
    (events' : List (Event Psbt)) : Sound env depth draft events'
      { s with draft := draft', timer_active := false }.clearFeeEstimates where
  not_updating := h.not_updating
  le r hr := Nat.le_succ_of_le (h.le r hr)
  nodup := h.nodup
  asked _ hr hid := absurd hid (h.stale hr)
  timer htimer := by cases htimer
  pending := by
    constructor
    · exact fun hpending => by cases hpending
    · rintro (htimer | ⟨r, hr, hid⟩)
      · cases htimer
      · exact absurd hid (h.stale hr)
  shown := .inl rfl

theorem restart (h : Sound env depth draft events s) (draft' : SendDraft Psbt)
    (events' : List (Event Psbt)) : Sound env depth draft events'
      { s with draft := draft', timer_active := false }.restartTimer where
  not_updating := h.not_updating
  le r hr := Nat.le_succ_of_le (h.le r hr)
  nodup := h.nodup
  asked _ hr hid := absurd hid (h.stale hr)
  timer _ := ⟨rfl, fun _ hr => h.stale hr⟩
  pending := ⟨fun _ => .inl rfl, fun _ => rfl⟩
  shown := .inl rfl

theorem request (h : Sound env depth draft events s) (htimer : s.timer_active = true)
    (hs : events.foldl (step env depth) (FeeForm.start draft) = s) :
    Sound env depth draft (events ++ [.timeout])
      ({ s with timer_active := false }.requestFeeEstimatesNow env) := by
  rcases request_cases env { s with timer_active := false } with
    hclear | ⟨request, revision, hcapture, hrequest⟩
  · rw [hclear]
    exact h.clear s.draft _
  · rw [hrequest]
    have hasked : Asked env depth draft Event.Renews (events ++ [.timeout])
        (s.m_fee_estimate_request_id + 1) request :=
      ⟨events, [], rfl, by simp, by rw [hs]; exact htimer, by rw [hs]; exact hcapture, by rw [hs]⟩
    constructor
    · exact h.not_updating
    · intro r hr
      rcases List.mem_append.mp hr with hr | hr
      · exact Nat.le_succ_of_le (h.le r hr)
      · rw [List.mem_singleton.mp hr]
    · rw [List.map_append, List.nodup_append]
      refine ⟨h.nodup, List.nodup_singleton _, ?_⟩
      intro number hnumber other hother
      obtain ⟨r, hr, rfl⟩ := List.mem_map.mp hnumber
      rw [List.map_singleton, List.mem_singleton] at hother
      rw [hother]
      exact h.stale hr
    · intro r hr hid
      rcases List.mem_append.mp hr with hr | hr
      · exact absurd hid (h.stale hr)
      · rw [List.mem_singleton.mp hr]
        exact hasked
    · exact fun htimer => by cases htimer
    · exact ⟨fun _ => .inr ⟨_, List.mem_append_right _ (List.mem_singleton_self _), rfl⟩, fun _ => rfl⟩
    · exact .inl (h.timer htimer).1

theorem nodup_eraseIdx (h : Sound env depth draft events s) (k : Nat) :
    ((s.requests.eraseIdx k).map Prod.fst).Nodup :=
  ((List.eraseIdx_sublist s.requests k).map Prod.fst).nodup h.nodup

theorem other (h : Sound env depth draft events s) {k : Nat} {r r' : Nat × FeeRequest}
    (hk : s.requests[k]? = some r) (hr' : r' ∈ s.requests.eraseIdx k) : r'.1 ≠ r.1 := by
  obtain ⟨i, hne, hi⟩ := List.mem_eraseIdx_iff_getElem?.mp hr'
  intro hid
  have hlt : i < s.requests.length := (List.getElem?_eq_some_iff.mp hi).1
  refine hne ((List.getElem?_inj (by simpa using hlt) h.nodup).mp ?_)
  rw [List.getElem?_map, List.getElem?_map, hi, hk, Option.map_some, Option.map_some, hid]

theorem dropped (h : Sound env depth draft events s) {k : Nat} {r : Nat × FeeRequest}
    (hk : s.requests[k]? = some r) (hid : r.1 ≠ s.m_fee_estimate_request_id) (he : ¬e.Renews) :
    Sound env depth draft (events ++ [e]) { s with requests := s.requests.eraseIdx k } := by
  have hmem {r : Nat × FeeRequest} (hr : r ∈ s.requests.eraseIdx k) : r ∈ s.requests :=
    List.mem_of_mem_eraseIdx hr
  refine ⟨h.not_updating, fun r hr => h.le r (hmem hr), h.nodup_eraseIdx k,
    fun r hr hid => (h.asked r (hmem hr) hid).snoc he,
    fun htimer => ⟨(h.timer htimer).1, fun r hr => (h.timer htimer).2 r (hmem hr)⟩, ?_, h.shown_snoc he⟩
  rw [h.pending]
  refine or_congr_right ⟨?_, ?_⟩
  · rintro ⟨r', hr', hcurrent⟩
    obtain ⟨i, hi⟩ := List.mem_iff_getElem?.mp hr'
    refine ⟨r', List.mem_eraseIdx_iff_getElem?.mpr ⟨i, ?_, hi⟩, hcurrent⟩
    rintro rfl
    rw [hk] at hi
    exact hid (by rw [← hcurrent, ← Option.some.inj hi])
  · exact fun ⟨r', hr', hcurrent⟩ => ⟨r', hmem hr', hcurrent⟩

theorem applied (h : Sound env depth draft events s) {k : Nat} {r : Nat × FeeRequest}
    (hk : s.requests[k]? = some r) (hid : r.1 = s.m_fee_estimate_request_id) {estimates : FeeEstimates}
    (hresult : estimates = {} ∨ ∃ w : WorkerWallet Psbt, estimates = r.2.estimates env.api w)
    (he : ¬e.Renews) (draft' : SendDraft Psbt) (m_fee_estimate_revision : Nat) :
    Sound env depth draft (events ++ [e]) { s with
      draft := draft'
      estimates
      m_fee_estimate_pending := false
      m_fee_estimate_revision
      requests := s.requests.eraseIdx k } := by
  have hmem {r : Nat × FeeRequest} (hr : r ∈ s.requests.eraseIdx k) : r ∈ s.requests :=
    List.mem_of_mem_eraseIdx hr
  have hin : r ∈ s.requests := List.mem_of_getElem? hk
  have hnone {r' : Nat × FeeRequest} (hr' : r' ∈ s.requests.eraseIdx k) :
      r'.1 ≠ s.m_fee_estimate_request_id := hid ▸ h.other hk hr'
  have htimer : ¬s.timer_active = true := fun htimer => (h.timer htimer).2 r hin hid
  refine ⟨h.not_updating, fun r' hr' => h.le r' (hmem hr'), h.nodup_eraseIdx k,
    fun r' hr' hcurrent => absurd hcurrent (hnone hr'), fun hactive => absurd hactive htimer, ?_, ?_⟩
  · constructor
    · exact fun hpending => by cases hpending
    · rintro (hactive | ⟨r', hr', hcurrent⟩)
      · exact absurd hactive htimer
      · exact absurd hcurrent (hnone hr')
  · rcases hresult with hempty | ⟨w, hw⟩
    · exact .inl hempty
    · exact .inr ⟨r.1, r.2, w, (h.asked r hin hid).snoc he, hw⟩

theorem finish (h : Sound env depth draft events s) (k : Nat) {result : FeeRequest → FeeEstimates}
    (hresult : ∀ request, result request = {} ∨
      ∃ w : WorkerWallet Psbt, result request = request.estimates env.api w) (he : ¬e.Renews) :
    Sound env depth draft (events ++ [e]) (s.finish env depth k result) := by
  rcases finish_cases env depth k result with heq | ⟨request_id, request, hk, hcase⟩
  · rw [heq]
    exact h.redrafted (.refl s) he
  rcases hcase with ⟨hid, heq⟩ | ⟨hid, draft', revision, heq⟩
  · rw [heq]
    exact h.dropped hk hid he
  · rw [heq]
    exact h.applied hk hid (hresult request) he draft' revision

theorem step (h : Sound env depth draft events s)
    (hs : events.foldl (step env depth) (FeeForm.start draft) = s) (e : Event Psbt) :
    Sound env depth draft (events ++ [e]) (s.step env depth e) := by
  cases e with
  | edit draft' => exact h.redrafted ⟨draft', rfl⟩ id
  | setFeeTargetBlocks target_blocks => exact h.redrafted (setFeeTargetBlocks_cases env depth target_blocks) id
  | schedule =>
    obtain ⟨draft', heq | heq⟩ := schedule_cases env depth h.not_updating
    · dsimp only [FeeForm.step]
      rw [heq]
      exact h.clear draft' _
    · dsimp only [FeeForm.step]
      rw [heq]
      exact h.restart draft' _
  | clear => exact h.clear s.draft _
  | timeout =>
    dsimp only [FeeForm.step]
    split
    next htimer => exact h.request htimer hs
    next => exact h.redrafted (.refl s) id
  | returned k w => exact h.finish k (fun _ => .inr ⟨w, rfl⟩) id
  | threw k => exact h.finish k (fun _ => .inl rfl) id

theorem run (env : FormEnv Psbt) (depth : Nat) (draft : SendDraft Psbt) (events : List (Event Psbt)) :
    Sound env depth draft events (events.foldl (FeeForm.step env depth) (FeeForm.start draft)) := by
  induction events using List.reverseRecOn with
  | nil => exact .start env depth draft
  | append_singleton events e ih =>
    rw [List.foldl_append]
    exact ih.step rfl e

end Sound

theorem filled_step (s : FeeForm Psbt) (he : e.Fills) : (s.step env depth e).timer_active = s.timer_active ∧
    (s.step env depth e).m_fee_estimate_request_id = s.m_fee_estimate_request_id ∧
    (s.step env depth e).requests.Sublist s.requests := by
  have hfinish (k : Nat) (result : FeeRequest → FeeEstimates) :
      (s.finish env depth k result).timer_active = s.timer_active ∧
        (s.finish env depth k result).m_fee_estimate_request_id = s.m_fee_estimate_request_id ∧
        (s.finish env depth k result).requests.Sublist s.requests := by
    rcases finish_cases env depth k result with heq | ⟨_, _, _, ⟨_, heq⟩ | ⟨_, draft', revision, heq⟩⟩
    · rw [heq]
      exact ⟨rfl, rfl, .refl _⟩
    · rw [heq]
      exact ⟨rfl, rfl, List.eraseIdx_sublist ..⟩
    · rw [heq]
      exact ⟨rfl, rfl, List.eraseIdx_sublist ..⟩
  cases e with
  | setFeeTargetBlocks target_blocks =>
    obtain ⟨draft', hdraft⟩ := setFeeTargetBlocks_cases env depth (s := s) target_blocks
    dsimp only [step]
    rw [hdraft]
    exact ⟨rfl, rfl, .refl _⟩
  | returned k w => exact hfinish k _
  | threw k => exact hfinish k _
  | edit | schedule | clear | timeout => exact he.elim

theorem quiet_run (htimer : s.timer_active = false) (hevents : ∀ e ∈ events, ¬Event.Renews e) :
    (events.foldl (step env depth) s).m_fee_estimate_request_id = s.m_fee_estimate_request_id := by
  induction events generalizing s with
  | nil => rfl
  | cons e events ih =>
    have he : ¬e.Renews := hevents e (List.mem_cons_self ..)
    have hstep : (s.step env depth e).timer_active = false ∧
        (s.step env depth e).m_fee_estimate_request_id = s.m_fee_estimate_request_id := by
      by_cases hfills : e.Fills
      · obtain ⟨hactive, hid, -⟩ := @filled_step _ env depth e s hfills
        exact ⟨hactive.trans htimer, hid⟩
      cases e with
      | edit => exact ⟨htimer, rfl⟩
      | timeout =>
        dsimp only [step]
        rw [if_neg (by simp [htimer])]
        exact ⟨htimer, rfl⟩
      | schedule | clear => exact absurd trivial he
      | setFeeTargetBlocks | returned | threw => exact absurd trivial hfills
    rw [List.foldl_cons, ih hstep.1 fun e' he' => hevents e' (List.mem_cons_of_mem e he')]
    exact hstep.2

theorem Asked.current {request_id : Nat} {request : FeeRequest}
    (h : Asked env depth draft Event.Renews events request_id request) :
    (events.foldl (step env depth) (start draft)).m_fee_estimate_request_id = request_id := by
  obtain ⟨before, after, rfl, hafter, htimer, hcapture, rfl⟩ := h
  rw [List.foldl_append, List.foldl_cons]
  generalize before.foldl (step env depth) (start draft) = s at htimer hcapture ⊢
  dsimp only [step]
  rw [if_pos htimer]
  unfold requestFeeEstimatesNow
  dsimp only
  rw [hcapture]
  exact quiet_run rfl hafter

/-- In every run the form shows the fees of its draft. -/
theorem feesCurrent_run (env : FormEnv Psbt) (depth : Nat) (draft : SendDraft Psbt)
    (events : List (Event Psbt)) :
    FeesCurrent env depth draft events (events.foldl (step env depth) (start draft)) := by
  have hsound := Sound.run env depth draft events
  refine ⟨hsound.shown, hsound.pending.trans (or_congr_right ⟨?_, ?_⟩), fun e he => filled_step _ he⟩
  · rintro ⟨⟨request_id, request⟩, hr, hid⟩
    exact ⟨request_id, request, hsound.asked _ hr hid, hr⟩
  · rintro ⟨request_id, request, hasked, hr⟩
    exact ⟨_, hr, hasked.current.symm⟩

end Runs

/-! ### A request that is superseded -/

def Event.Fires : Event Psbt → Prop
  | .timeout => True
  | _ => False

def plainForm : FormEnv OneCoin.CoinPsbt := ⟨plainAddresses, fun _ => false, [.schedule]⟩

/-- One row that pays 5000 satoshis to `address`. -/
def oneRowDraft (address : Address) : SendDraft OneCoin.CoinPsbt where
  m_send_recipients := [⟨address, "", "", 5000, true, "", "", false⟩]
  m_wallet := coinInterface
  answers := OneCoin.answers false false

/-- The newest request still runs when the address is taken out. -/
theorem not_pending_of_superseded : ¬∀ events,
    let s := events.foldl (step plainForm 0) (start (oneRowDraft "a"))
    s.m_fee_estimate_pending = true ↔ s.timer_active = true ∨ ∃ request_id request,
      Asked plainForm 0 (oneRowDraft "a") Event.Fires events request_id request ∧
        (request_id, request) ∈ s.requests := by
  intro h
  have hpending := (h [.schedule, .timeout, .edit (oneRowDraft ""), .schedule]).mpr
    (.inr ⟨2, _, ⟨[.schedule], _, rfl, by simp [Event.Fires], rfl, rfl, rfl⟩,
      by exact List.mem_singleton_self _⟩)
  exact absurd hpending (by decide)

end FeeForm

end GuiQml.Wallet
