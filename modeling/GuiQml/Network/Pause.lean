import GuiQml.Network.Model

/-!
# What is shown of the network, and what was asked for

The shown pause is a copy of the network state that is right once no news of it is left. A request that is
dropped, because it seems to be met or because an action under way asks the same, is met in the end only
if the network was as asked when it was dropped.
-/

namespace GuiQml.Network

open Feeds Reach

variable {s : System}

/-! ## The invariant -/

/-- What the worker knows when it has counted the changes. -/
def StageAgrees (s : System) : Stage → Prop
  | .counted generation => generation ≤ s.m_notifications.network_generation
  | .returned paused generation => s.feed.Agrees generation !paused
  | _ => True

/-- The last request is met unless an error is shown, or it is still to be asked of the node. -/
def AskedFor (s : System) (pause : Bool) : Prop :=
  match s.action with
  | none => s.model.m_network_action_error = "" → s.active = !pause
  | some action => s.model.m_network_desired_pause = pause ∧
      (action.requested = pause → action.stage ≠ .submitted → action.stage ≠ .threw → s.active = !pause)

structure Inv (s : System) : Prop where
  action : s.model.m_network_action_pending = s.action.isSome
  status : s.model.m_status_pending = s.status.isSome
  again : s.model.m_status_again = true → s.status.isSome = true
  ready : s.model.m_node_ready = true → s.model.m_backend_queries_ready = true
  delivery : s.m_notifications.network_active.isSome = true → s.m_notifications.delivery_pending = true
  ordered : s.feed.Ordered
  status_le : ∀ read ∈ s.status, read.network_generation ≤ s.m_notifications.network_generation
  status_read : ∀ read ∈ s.status, ∀ network_active, read.result = some (.read network_active) →
    network_active.isSome = read.ready ∧ ∀ active ∈ network_active,
      s.feed.Agrees read.network_generation active
  stage : ∀ action ∈ s.action, StageAgrees s action.stage
  asked : ∀ pause ∈ s.asked, AskedFor s pause

/-- The shown pause follows the network, or a status read will tell it. -/
def Shown (s : System) : Prop :=
  s.feed.Tracks (!s.model.m_pause) ∨ s.model.m_status_again = true ∨
    ∃ read ∈ s.status, read.ready = true ∧
      read.network_generation = s.m_notifications.network_generation

/-! ## Status reads -/

theorem Inv.refreshStatus (h : Inv s) : Inv s.refreshStatus := by
  unfold System.refreshStatus
  split
  · exact h
  split
  next hpending =>
    have hsome : s.status.isSome = true := h.status.symm.trans hpending
    exact ⟨h.action, h.status, fun _ => hsome, h.ready, h.delivery, h.ordered, h.status_le,
      h.status_read, h.stage, h.asked⟩
  · refine ⟨h.action, rfl, fun _ => rfl, h.ready, h.delivery, h.ordered, ?_, ?_, h.stage, h.asked⟩
    · intro read hread
      obtain rfl := Option.some.inj hread
      exact Nat.le_refl _
    · intro read hread network_active hresult
      obtain rfl := Option.some.inj hread
      cases hresult

theorem shown_refreshStatus (h : Inv s) (hready : s.model.m_node_ready = true) :
    Shown s.refreshStatus := by
  unfold System.refreshStatus
  rw [if_neg (by simp [h.ready hready])]
  split
  · exact .inr (.inl rfl)
  · exact .inr (.inr ⟨_, rfl, hready, rfl⟩)

theorem Shown.refreshStatus (h : Shown s) (hinv : Inv s) : Shown s.refreshStatus := by
  unfold System.refreshStatus
  split
  · exact h
  split
  · exact .inr (.inl rfl)
  next hnone =>
    have hstatus : s.status = none := by
      have := hinv.status
      cases hs : s.status with
      | none => rfl
      | some read =>
        rw [hs] at this
        exact absurd this hnone
    have hagain : s.model.m_status_again ≠ true := fun hagain => by
      have := hinv.again hagain
      rw [hstatus] at this
      cases this
    rcases h with h | h | ⟨read, hread, -⟩
    · exact .inl h
    · exact absurd h hagain
    · rw [hstatus] at hread
      cases hread

/-! ## News -/

theorem Inv.news (h : Inv s) {s' : System} (hmodel : s'.model = s.model) (hstatus : s'.status = s.status)
    (haction : s'.action = s.action)
    (hle : s.m_notifications.network_generation ≤ s'.m_notifications.network_generation)
    (hagrees : ∀ n v, s.feed.Agrees n v → s'.feed.Agrees n v) (hordered : s'.feed.Ordered)
    (hdelivery : s'.m_notifications.network_active.isSome = true →
      s'.m_notifications.delivery_pending = true)
    (hasked : ∀ pause ∈ s'.asked, AskedFor s' pause) : Inv s' where
  action := by rw [hmodel, haction, h.action]
  status := by rw [hmodel, hstatus, h.status]
  again := by
    rw [hmodel, hstatus]
    exact h.again
  ready := by
    rw [hmodel]
    exact h.ready
  delivery := hdelivery
  ordered := hordered
  status_le := by
    rw [hstatus]
    exact fun read hread => Nat.le_trans (h.status_le read hread) hle
  status_read := by
    rw [hstatus]
    intro read hread network_active hresult
    obtain ⟨hready, hread⟩ := h.status_read read hread network_active hresult
    exact ⟨hready, fun active hactive => hagrees _ _ (hread active hactive)⟩
  stage := by
    rw [haction]
    intro action hmem
    have hstage := h.stage action hmem
    revert hstage
    cases action.stage with
    | counted generation => exact fun hstage => Nat.le_trans hstage hle
    | returned paused generation => exact fun hstage => hagrees _ _ hstage
    | _ => exact fun _ => trivial
  asked := hasked

theorem Inv.setNetworkActive (h : Inv s) (active : Bool)
    (hasked : ∀ pause ∈ s.asked, s.active ≠ active → AskedFor { s with active } pause) :
    Inv (s.setNetworkActive active) := by
  unfold System.setNetworkActive
  split
  · exact h
  next hchanged =>
    have hordered : (s.feed.change active).Ordered := .change active
    exact h.news rfl rfl rfl (Nat.le_refl _) (fun _ _ hagrees => hagrees.change active) hordered
      h.delivery fun pause hpause => hasked pause hpause hchanged

theorem Inv.post (h : Inv s) {active : Bool} {unposted : List Bool}
    (hunposted : s.unposted = active :: unposted) :
    Inv ({ s with unposted }.notifyNetworkActiveChanged active) :=
  h.news rfl rfl rfl (Nat.le_succ _) (fun _ _ hagrees => hagrees.post) (h.ordered.post hunposted)
    (fun _ => rfl) h.asked

theorem Inv.taken (h : Inv s) (delivery_pending : Bool) :
    Inv { s with m_notifications := { s.m_notifications with
      delivery_pending, peers := false, network_active := none, warnings := false } } :=
  h.news rfl rfl rfl (Nat.le_refl _) (fun _ _ hagrees => hagrees.take) h.ordered.take
    (fun hnone => nomatch hnone) h.asked

theorem Inv.showNetwork (h : Inv s) (paused : Bool) : Inv (s.showNetwork paused) :=
  ⟨h.action, h.status, h.again, h.ready, h.delivery, h.ordered, h.status_le, h.status_read, h.stage,
    h.asked⟩

theorem Inv.publishNotifications (h : Inv s) (delivery_pending : Bool) :
    Inv { s with m_notifications := { s.m_notifications with delivery_pending } }.publishNotifications := by
  have htaken := h.taken delivery_pending
  unfold System.publishNotifications
  dsimp only
  split
  · refine Inv.showNetwork ?_ _
    split
    · exact htaken.refreshStatus
    · exact htaken
  · split
    · exact htaken.refreshStatus
    · exact htaken

theorem refreshStatus_feed (s : System) : s.refreshStatus.feed = s.feed := by
  unfold System.refreshStatus
  split_ifs <;> rfl

/-- Who takes the news shows it. -/
theorem Shown.publishNotifications (h : Shown s) (hinv : Inv s) (delivery_pending : Bool) :
    Shown { s with m_notifications := { s.m_notifications with delivery_pending } }.publishNotifications := by
  have htaken := hinv.taken delivery_pending
  unfold System.publishNotifications
  dsimp only
  split
  next active hactive =>
    have htracks : s.feed.take.Tracks !!active := by
      rw [Bool.not_not]
      exact .taken hinv.ordered hactive
    refine .inl ?_
    split
    · show System.refreshStatus _ |>.feed.Tracks _
      rw [refreshStatus_feed]
      exact htracks
    · exact htracks
  next hnone =>
    have hshown : Shown { s with m_notifications := { s.m_notifications with
        delivery_pending, peers := false, network_active := none, warnings := false } } := by
      rcases h with h | h | ⟨read, hread, hready⟩
      · exact .inl (h.take hnone)
      · exact .inr (.inl h)
      · exact .inr (.inr ⟨read, hread, hready⟩)
    split
    · exact hshown.refreshStatus htaken
    · exact hshown

/-! ## Completions -/

theorem Inv.statusDone (h : Inv s) : Inv { s with
    model := { s.model with m_status_pending := false, m_status_again := false }, status := none } where
  action := h.action
  status := rfl
  again := fun hagain => nomatch hagain
  ready := h.ready
  delivery := h.delivery
  ordered := h.ordered
  status_le := fun _ hread => nomatch hread
  status_read := fun _ hread => nomatch hread
  stage := h.stage
  asked := h.asked

theorem Inv.statusReturned (h : Inv s) (read : StatusRead) (network_active : Option Bool) :
    Inv (s.statusReturned read network_active) := by
  unfold System.statusReturned
  dsimp only
  cases network_active with
  | none =>
    dsimp only
    split
    · exact h.statusDone.refreshStatus
    · exact h.statusDone
  | some active =>
    dsimp only
    split_ifs
    · exact (h.statusDone.showNetwork _).refreshStatus
    · exact h.statusDone.showNetwork _
    · exact h.statusDone.refreshStatus
    · exact h.statusDone

theorem Inv.statusThrew (h : Inv s) : Inv s.statusThrew := by
  unfold System.statusThrew
  dsimp only
  split
  · exact h.statusDone.refreshStatus
  · exact h.statusDone

theorem shown_statusReturned (h : Inv s) (hready : s.model.m_node_ready = true) (hshown : Shown s)
    {read : StatusRead} (hread : s.status = some read) {network_active : Option Bool}
    (hresult : read.result = some (.read network_active)) :
    Shown (s.statusReturned read network_active) := by
  obtain ⟨hsome, hagrees⟩ := h.status_read read hread network_active hresult
  unfold System.statusReturned
  dsimp only
  cases network_active with
  | none =>
    dsimp only
    split
    · exact shown_refreshStatus h.statusDone hready
    next hquiet =>
      rw [Bool.or_eq_true, not_or] at hquiet
      rcases hshown with htracks | hagain | ⟨read', hread', hready', -⟩
      · exact .inl htracks
      · exact absurd hagain hquiet.1
      · obtain rfl : read = read' := Option.some.inj (hread.symm.trans hread')
        rw [hready'] at hsome
        cases hsome
  | some active =>
    dsimp only
    have hcurrent : read.network_generation = s.m_notifications.network_generation →
        s.feed.Tracks !!active := fun hcurrent => by
      rw [Bool.not_not]
      exact (hagrees active rfl).tracks hcurrent
    split_ifs with hnetwork hagain hagain
    · exact shown_refreshStatus (h.statusDone.showNetwork _) hready
    · exact .inl (hcurrent hnetwork)
    · exact shown_refreshStatus h.statusDone hready
    · rw [Bool.or_eq_true, not_or] at hagain
      rcases hshown with htracks | hagain' | ⟨read', hread', -, hnetwork'⟩
      · exact .inl htracks
      · exact absurd hagain' hagain.1
      · obtain rfl : read = read' := Option.some.inj (hread.symm.trans hread')
        exact absurd hnetwork' hnetwork

theorem shown_statusThrew (h : Inv s) (hready : s.model.m_node_ready = true)
    (htold : s.model.m_status_again = true ∨ s.feed.Tracks !s.model.m_pause) : Shown s.statusThrew := by
  unfold System.statusThrew
  dsimp only
  split
  · exact shown_refreshStatus h.statusDone hready
  next hquiet => exact .inl (htold.resolve_left hquiet)

/-! ## Network actions -/

theorem refreshStatus_frame (s : System) : ∃ pending again status, s.refreshStatus = { s with
    model := { s.model with m_status_pending := pending, m_status_again := again }, status } := by
  unfold System.refreshStatus
  split_ifs
  · exact ⟨_, _, _, rfl⟩
  · exact ⟨s.model.m_status_pending, true, s.status, rfl⟩
  · exact ⟨true, s.model.m_status_again, _, rfl⟩

theorem publishNotifications_frame (s : System) : ∃ pending again known paused status m_notifications,
    s.publishNotifications = { s with
      model := { s.model with
        m_status_pending := pending
        m_status_again := again
        m_network_known := known
        m_pause := paused }
      status, m_notifications } := by
  unfold System.publishNotifications
  dsimp only
  obtain ⟨pending, again, status, hrefresh⟩ := refreshStatus_frame { s with
    m_notifications := { s.m_notifications with peers := false, network_active := none, warnings := false } }
  rw [hrefresh]
  split
  · split
    · exact ⟨_, _, _, _, _, _, rfl⟩
    · exact ⟨s.model.m_status_pending, s.model.m_status_again, _, _, s.status, _, rfl⟩
  · split
    · exact ⟨_, _, s.model.m_network_known, s.model.m_pause, _, _, rfl⟩
    · exact ⟨s.model.m_status_pending, s.model.m_status_again, s.model.m_network_known, s.model.m_pause,
        s.status, _, rfl⟩

theorem Inv.submitNetworkAction (h : Inv s) (hpending : s.model.m_network_action_pending = true)
    (hasked : ∀ pause ∈ s.asked, s.model.m_network_desired_pause = pause) :
    Inv s.submitNetworkAction :=
  ⟨hpending, h.status, h.again, h.ready, h.delivery, h.ordered, h.status_le, h.status_read,
    fun _ haction => by
      obtain rfl := Option.some.inj haction
      trivial,
    fun pause hpause => ⟨hasked pause hpause, fun _ hstage => absurd rfl hstage⟩⟩

theorem Inv.actionDone (h : Inv s) (error : String)
    (hmet : ∀ pause ∈ s.asked, error = "" → s.active = !pause) : Inv { s with
      model := { s.model with m_network_action_pending := false, m_network_action_error := error }
      action := none } :=
  ⟨rfl, h.status, h.again, h.ready, h.delivery, h.ordered, h.status_le, h.status_read,
    (fun _ haction => nomatch haction), hmet⟩

/-- An action that is handed back is submitted again, or it was the last request. -/
theorem Inv.actionReturned (h : Inv s) {action : NetworkAction} (haction : s.action = some action)
    {paused : Bool} {generation : Nat} (hstage : action.stage = .returned paused generation) :
    Inv (s.actionReturned action.requested paused generation) := by
  unfold System.actionReturned
  dsimp only
  generalize hs' : (if decide (generation = s.m_notifications.network_generation) = true
    then s.showNetwork paused else s.publishNotifications.refreshStatus) = s'
  have hinv : Inv s' ∧ s'.action = s.action := by
    rw [← hs']
    split
    · exact ⟨h.showNetwork paused, rfl⟩
    · obtain ⟨_, _, _, hrefresh⟩ := refreshStatus_frame s.publishNotifications
      obtain ⟨_, _, _, _, _, _, hpublish⟩ := publishNotifications_frame s
      refine ⟨(h.publishNotifications s.m_notifications.delivery_pending).refreshStatus, ?_⟩
      rw [hrefresh, hpublish]
  have hasked : ∀ pause ∈ s'.asked, s'.model.m_network_desired_pause = pause ∧
      (action.requested = pause → s'.active = !pause) := by
    intro pause hpause
    have := hinv.1.asked pause hpause
    unfold AskedFor at this
    rw [hinv.2, haction] at this
    exact ⟨this.1, fun hrequested => this.2 hrequested (by simp [hstage]) (by simp [hstage])⟩
  have hpending : s'.model.m_network_action_pending = true := by
    rw [hinv.1.action, hinv.2, haction]
    rfl
  split
  · exact hinv.1.submitNetworkAction hpending fun pause hpause => (hasked pause hpause).1
  next hsame =>
    refine hinv.1.actionDone _ fun pause hpause _ => ?_
    obtain ⟨hdesired, hmet⟩ := hasked pause hpause
    exact hmet ((not_not.mp hsame).symm.trans hdesired)

theorem shown_actionReturned (h : Inv s) (hready : s.model.m_node_ready = true)
    {action : NetworkAction} (haction : s.action = some action) {paused : Bool} {generation : Nat}
    (hstage : action.stage = .returned paused generation) :
    Shown (s.actionReturned action.requested paused generation) := by
  have hagrees : s.feed.Agrees generation !paused := by
    have := h.stage action haction
    rwa [hstage] at this
  unfold System.actionReturned
  dsimp only
  generalize hs' : (if decide (generation = s.m_notifications.network_generation) = true
    then s.showNetwork paused else s.publishNotifications.refreshStatus) = s'
  have hs' : Shown s' := by
    rw [← hs']
    split
    next hcurrent => exact .inl (hagrees.tracks (of_decide_eq_true hcurrent))
    · refine shown_refreshStatus (h.publishNotifications s.m_notifications.delivery_pending) ?_
      obtain ⟨_, _, _, _, _, _, hpublish⟩ := publishNotifications_frame s
      rw [hpublish]
      exact hready
  split
  · exact hs'
  · exact hs'

theorem Inv.actionThrew (h : Inv s) : Inv s.actionThrew :=
  h.actionDone _ fun _ _ herror => nomatch herror

/-! ## Runs -/

/-- A request that gives no action of its own finds the network as it asks, unless the one under way has
still to set it, or an error is shown. A status read that throws is followed by another one, or the pause
follows the network without it. -/
def Answered (s : System) : Event → Prop
  | .setPause new_pause => s.model.m_backend_queries_ready = true →
    match s.action with
    | none => s.model.m_pause = new_pause → s.model.m_network_action_error = "" → s.active = !new_pause
    | some action => action.requested = new_pause → action.stage ≠ .submitted → action.stage ≠ .threw →
      s.active = !new_pause
  | .completeStatus => s.model.m_node_ready = true → ∀ read ∈ s.status, read.result = some .threw →
    s.model.m_status_again = true ∨ s.feed.Tracks !s.model.m_pause
  | _ => True

theorem Inv.setPause (h : Inv s) {new_pause : Bool} (hanswered : Answered s (.setPause new_pause)) :
    Inv (s.setPause new_pause) := by
  unfold System.setPause
  split
  · exact h
  next hready =>
  replace hanswered := hanswered (by simpa using hready)
  dsimp only
  split
  next hdropped =>
    refine ⟨h.action, h.status, h.again, h.ready, h.delivery, h.ordered, h.status_le, h.status_read,
      h.stage, fun pause hpause => ?_⟩
    obtain rfl := Option.some.inj hpause
    have hidle := h.action
    unfold AskedFor
    cases haction : s.action with
    | none =>
      rw [haction] at hanswered hidle
      rw [hidle] at hdropped
      exact hanswered (by simpa using hdropped)
    | some action =>
      rw [haction] at hanswered
      exact ⟨rfl, hanswered⟩
  · refine ⟨rfl, h.status, h.again, h.ready, h.delivery, h.ordered, h.status_le, h.status_read,
      fun action haction => ?_, fun pause hpause => ?_⟩
    · obtain rfl := Option.some.inj haction
      trivial
    · exact ⟨Option.some.inj hpause, fun _ hstage => absurd rfl hstage⟩

theorem Inv.toStage (h : Inv s) {action : NetworkAction} (haction : s.action = some action) {stage : Stage}
    (hagrees : StageAgrees s stage)
    (hset : stage ≠ .threw → s.active = (!action.requested) ∨
      action.stage ≠ .submitted ∧ action.stage ≠ .threw) :
    Inv { s with action := some { action with stage } } := by
  have hpending := h.action
  rw [haction] at hpending
  refine ⟨hpending, h.status, h.again, h.ready, h.delivery, h.ordered, h.status_le, h.status_read,
    fun a ha => ?_, fun pause hpause => ?_⟩
  · obtain rfl := Option.some.inj ha
    exact hagrees
  · have hasked := h.asked pause hpause
    unfold AskedFor at hasked
    rw [haction] at hasked
    refine ⟨hasked.1, fun hrequested _ hthrew => ?_⟩
    rcases hset hthrew with hactive | ⟨hsubmitted, hthrew⟩
    · exact hrequested ▸ hactive
    · exact hasked.2 hrequested hsubmitted hthrew

theorem Inv.work (h : Inv s) {action : NetworkAction} (haction : s.action = some action) :
    Inv (s.work action) := by
  have hagrees := h.stage action haction
  unfold System.work
  split
  next hstage =>
    have hset : Inv (s.setNetworkActive (!action.requested)) := by
      refine h.setNetworkActive _ fun pause hpause _ => ?_
      have hasked := h.asked pause hpause
      unfold AskedFor at hasked ⊢
      dsimp only
      rw [haction] at hasked ⊢
      exact ⟨hasked.1, fun _ hsubmitted => absurd hstage hsubmitted⟩
    have hframe : (s.setNetworkActive (!action.requested)).action = some action ∧
        (s.setNetworkActive (!action.requested)).active = !action.requested := by
      unfold System.setNetworkActive
      split
      next hsame => exact ⟨haction, hsame⟩
      · exact ⟨haction, rfl⟩
    exact hset.toStage hframe.1 trivial fun _ => .inl hframe.2
  next hstage =>
    exact h.toStage haction (Nat.le_refl _) fun _ => .inr (by simp [hstage])
  next generation hstage =>
    rw [hstage] at hagrees
    refine h.toStage haction ?_ fun _ => .inr (by simp [hstage])
    show s.feed.Agrees generation !!s.active
    rw [Bool.not_not]
    exact .read hagrees
  · exact h
  · exact h

theorem Inv.initialized (h : Inv s) : ∃ s', Inv s' ∧ s'.model.m_node_ready = true ∧
    s.initializeResult = s'.refreshStatus := by
  have hready : Inv { s with model := { s.model with m_backend_queries_ready := true } } :=
    ⟨h.action, h.status, h.again, fun _ => rfl, h.delivery, h.ordered, h.status_le, h.status_read, h.stage,
      h.asked⟩
  have hpublished := hready.publishNotifications s.m_notifications.delivery_pending
  obtain ⟨_, _, _, _, _, _, hpublish⟩ :=
    publishNotifications_frame { s with model := { s.model with m_backend_queries_ready := true } }
  unfold System.initializeResult
  dsimp only
  rw [hpublish] at hpublished ⊢
  refine ⟨_, ?_, rfl, rfl⟩
  exact ⟨hpublished.action, hpublished.status, hpublished.again, fun _ => rfl, hpublished.delivery,
    hpublished.ordered, hpublished.status_le, hpublished.status_read, hpublished.stage, hpublished.asked⟩

theorem Inv.statusResult (h : Inv s) {read : StatusRead} (hread : s.status = some read)
    {result : StatusResult} (hresult : ∀ network_active, result = .read network_active →
      network_active = if read.ready then some s.active else none) :
    Inv { s with status := some { read with result := some result } } := by
  have hpending := h.status
  rw [hread] at hpending
  refine ⟨h.action, hpending, fun _ => rfl, h.ready, h.delivery, h.ordered, fun r hr => ?_,
    fun r hr network_active hnetwork => ?_, h.stage, h.asked⟩
  · obtain rfl := Option.some.inj hr
    exact h.status_le read hread
  · obtain rfl := Option.some.inj hr
    rw [hresult network_active (Option.some.inj hnetwork)]
    refine ⟨by cases read.ready <;> rfl, fun active hactive => ?_⟩
    split at hactive
    · obtain rfl := Option.some.inj hactive
      exact .read (h.status_le read hread)
    · cases hactive

/-! ## Every step -/

/-- What an event does, where it does something. -/
inductive Stepped (s : System) : Event → System → Prop
  | idle (e : Event) : Stepped s e s
  | initializeResult : Stepped s .initializeResult s.initializeResult
  | setPause (new_pause : Bool) : Stepped s (.setPause new_pause) (s.setPause new_pause)
  | change {active : Bool} : s.active ≠ active →
      Stepped s (.change active) { s with active, unposted := s.unposted ++ [active], asked := none }
  | post {active : Bool} {unposted : List Bool} : s.unposted = active :: unposted →
      Stepped s .post ({ s with unposted }.notifyNetworkActiveChanged active)
  | numConnectionsChanged : Stepped s .numConnectionsChanged s.notifyNumConnectionsChanged
  | alertChanged : Stepped s .alertChanged s.notifyAlertChanged
  | deliver : Stepped s .deliver s.deliver
  | readStatus {read : StatusRead} : s.status = some read →
      Stepped s .readStatus { s with status := some { read with
        result := some (.read (if read.ready then some s.active else none)) } }
  | throwStatus {read : StatusRead} : s.status = some read →
      Stepped s .throwStatus { s with status := some { read with result := some .threw } }
  | statusReturned {read : StatusRead} {network_active : Option Bool} : s.status = some read →
      read.result = some (.read network_active) → Stepped s .completeStatus (s.statusReturned read network_active)
  | statusThrew {read : StatusRead} : s.status = some read → read.result = some .threw →
      Stepped s .completeStatus s.statusThrew
  | work {action : NetworkAction} : s.action = some action → Stepped s .work (s.work action)
  | throwAction {action : NetworkAction} : s.action = some action →
      Stepped s .throwAction { s with action := some { action with stage := .threw } }
  | actionReturned {action : NetworkAction} {paused : Bool} {generation : Nat} : s.action = some action →
      action.stage = .returned paused generation →
      Stepped s .completeAction (s.actionReturned action.requested paused generation)
  | actionThrew : Stepped s .completeAction s.actionThrew

theorem stepped (s : System) (e : Event) : Stepped s e (step s e) := by
  cases e with
  | initializeResult => exact .initializeResult
  | setPause new_pause => exact .setPause new_pause
  | change active =>
    dsimp only [step, System.setNetworkActive]
    split
    · exact .idle _
    next hchanged => exact .change hchanged
  | post =>
    dsimp only [step]
    split
    · exact .idle _
    next hunposted => exact .post hunposted
  | numConnectionsChanged => exact .numConnectionsChanged
  | alertChanged => exact .alertChanged
  | deliver =>
    dsimp only [step]
    split
    · exact .deliver
    · exact .idle _
  | readStatus =>
    dsimp only [step]
    split
    next read hread =>
      split
      · exact .readStatus hread
      · exact .idle _
    · exact .idle _
  | throwStatus =>
    dsimp only [step]
    split
    next read hread =>
      split
      · exact .throwStatus hread
      · exact .idle _
    · exact .idle _
  | completeStatus =>
    dsimp only [step]
    split
    next read hread =>
      split
      next hresult => exact .statusReturned hread hresult
      next hresult => exact .statusThrew hread hresult
      · exact .idle _
    · exact .idle _
  | work =>
    dsimp only [step]
    split
    next action haction => exact .work haction
    · exact .idle _
  | throwAction =>
    dsimp only [step]
    split
    next action haction =>
      split
      · exact .idle _
      · exact .idle _
      · exact .throwAction haction
    · exact .idle _
  | completeAction =>
    dsimp only [step]
    split
    next action haction =>
      split
      next hstage => exact .actionReturned haction hstage
      · exact .actionThrew
      · exact .idle _
    · exact .idle _

theorem Inv.step (h : Inv s) {e : Event} (hanswered : Answered s e) : Inv (step s e) := by
  have hstepped := stepped s e
  generalize Network.step s e = s' at hstepped
  cases hstepped with
  | idle => exact h
  | initializeResult =>
    obtain ⟨s', hinv, -, heq⟩ := h.initialized
    rw [heq]
    exact hinv.refreshStatus
  | setPause new_pause => exact h.setPause hanswered
  | @change active _ =>
    have hordered : (s.feed.change active).Ordered := .change active
    exact h.news rfl rfl rfl (Nat.le_refl _) (fun _ _ hagrees => hagrees.change active) hordered
      h.delivery fun _ hpause => by cases hpause
  | post hunposted => exact h.post hunposted
  | numConnectionsChanged | alertChanged =>
    exact h.news rfl rfl rfl (Nat.le_refl _) (fun _ _ hagrees => hagrees) h.ordered (fun _ => rfl) h.asked
  | deliver => exact h.publishNotifications false
  | readStatus hread =>
    refine h.statusResult hread fun network_active hresult => ?_
    cases hresult
    rfl
  | throwStatus hread => exact h.statusResult hread fun network_active hresult => by cases hresult
  | statusReturned _ _ => exact h.statusReturned ..
  | statusThrew _ _ => exact h.statusThrew
  | work haction => exact h.work haction
  | throwAction haction => exact h.toStage haction trivial fun hthrew => absurd rfl hthrew
  | actionReturned haction hstage => exact h.actionReturned haction hstage
  | actionThrew => exact h.actionThrew

theorem step_ready (e : Event) (he : e ≠ .initializeResult) :
    (step s e).model.m_node_ready = s.model.m_node_ready := by
  have hrefresh : ∀ s : System, s.refreshStatus.model.m_node_ready = s.model.m_node_ready := fun s => by
    obtain ⟨_, _, _, hframe⟩ := refreshStatus_frame s
    rw [hframe]
  have hpublish : ∀ s : System, s.publishNotifications.model.m_node_ready = s.model.m_node_ready := fun s => by
    obtain ⟨_, _, _, _, _, _, hframe⟩ := publishNotifications_frame s
    rw [hframe]
  have hstepped := stepped s e
  generalize step s e = s' at hstepped
  cases hstepped with
  | initializeResult => exact absurd rfl he
  | setPause =>
    dsimp only [System.setPause]
    split_ifs <;> rfl
  | deliver => exact hpublish _
  | statusReturned _ _ =>
    unfold System.statusReturned
    dsimp only
    split <;> split_ifs <;> simp only [hrefresh] <;> rfl
  | statusThrew _ _ =>
    unfold System.statusThrew
    dsimp only
    split
    · exact hrefresh _
    · rfl
  | work _ =>
    dsimp only [System.work, System.setNetworkActive]
    split
    · split <;> rfl
    all_goals rfl
  | actionReturned _ _ =>
    unfold System.actionReturned
    dsimp only
    split_ifs <;> simp only [System.submitNetworkAction, hrefresh, hpublish] <;> rfl
  | _ => rfl

theorem Shown.step (h : Inv s) (hready : s.model.m_node_ready = true) (hshown : Shown s) {e : Event}
    (hanswered : Answered s e) (he : e ≠ .initializeResult) : Shown (step s e) := by
  have hstepped := stepped s e
  generalize Network.step s e = s' at hstepped
  cases hstepped with
  | initializeResult => exact absurd rfl he
  | setPause =>
    dsimp only [System.setPause]
    split_ifs
    · exact hshown
    · exact hshown
    · exact hshown
  | change _ => exact .inl (Feed.Tracks.change (f := s.feed) _ _)
  | post _ => exact .inl (.inr (.inl rfl))
  | deliver => exact hshown.publishNotifications h false
  | readStatus hread | throwStatus hread =>
    rcases hshown with hshown | hshown | ⟨read', hread', hcurrent⟩
    · exact .inl hshown
    · exact .inr (.inl hshown)
    · obtain rfl := Option.some.inj (hread.symm.trans hread')
      exact .inr (.inr ⟨_, rfl, hcurrent⟩)
  | statusReturned hread hresult => exact shown_statusReturned h hready hshown hread hresult
  | @statusThrew read hread hresult => exact shown_statusThrew h hready (hanswered hready read hread hresult)
  | @work action _ =>
    unfold System.work System.setNetworkActive
    split
    · split
      · exact hshown
      · exact .inl (Feed.Tracks.change (f := s.feed) (!action.requested) _)
    all_goals exact hshown
  | actionReturned haction hstage => exact shown_actionReturned h hready haction hstage
  | _ => exact hshown

/-! ## What holds when nothing is pending -/

/-- No action is pending, the pause is that of the node, and the last request is met or refused. -/
structure Settled (s : System) : Prop where
  action : s.model.m_network_action_pending = false
  pause : s.model.m_pause = !s.active
  asked : ∀ pause ∈ s.asked, s.model.m_network_action_error = "" → s.active = !pause

theorem Inv.start (active : Bool) : Inv { active } where
  action := rfl
  status := rfl
  again := fun h => nomatch h
  ready := fun h => nomatch h
  delivery := fun h => nomatch h
  ordered := ⟨(fun _ hv => nomatch hv), fun _ _ hv => nomatch hv⟩
  status_le := fun _ h => nomatch h
  status_read := fun _ h => nomatch h
  stage := fun _ h => nomatch h
  asked := fun _ h => nomatch h

theorem inv_run {active : Bool} (h : Reaches step Answered { active } s) :
    Inv s ∧ (s.model.m_node_ready = true → Shown s) := by
  refine h.invariant (I := fun s => Inv s ∧ (s.model.m_node_ready = true → Shown s))
    ⟨.start active, fun hready => nomatch hready⟩ fun s e hs hanswered => ⟨hs.1.step hanswered, ?_⟩
  intro hready
  by_cases he : e = .initializeResult
  · obtain ⟨s', hinv, hready', heq⟩ := hs.1.initialized
    rw [he, show step s .initializeResult = s'.refreshStatus from heq]
    exact shown_refreshStatus hinv hready'
  · rw [step_ready e he] at hready
    exact (hs.2 hready).step hs.1 hready hanswered he

theorem settled_of_quiet {active : Bool} (h : Reaches step Answered { active } s)
    (hready : s.model.m_node_ready = true) (hquiet : Quiet s) : Settled s := by
  obtain ⟨hinv, hshown⟩ := inv_run h
  have hnone : s.m_notifications.network_active = none := by
    cases hnews : s.m_notifications.network_active with
    | none => rfl
    | some active =>
      have := hinv.delivery (by rw [hnews]; rfl)
      rw [hquiet.delivery] at this
      cases this
  refine ⟨?_, ?_, fun pause hpause => ?_⟩
  · rw [hinv.action, hquiet.action]
    rfl
  · have htracks : s.feed.Tracks !s.model.m_pause := by
      rcases hshown hready with htracks | hagain | ⟨read, hread, -⟩
      · exact htracks
      · have := hinv.again hagain
        rw [hquiet.status] at this
        cases this
      · rw [hquiet.status] at hread
        cases hread
    rw [← show (!s.model.m_pause) = s.active from htracks.eq_of_quiet hquiet.unposted hnone, Bool.not_not]
  · have := hinv.asked pause hpause
    unfold AskedFor at this
    rwa [hquiet.action] at this

/-- The network is paused by the user once the startup is over. -/
theorem settled_of_quiet_paused : Settled (([.initializeResult, .readStatus, .completeStatus,
    .setPause true, .work, .post, .deliver, .work, .work, .completeAction] : List Event).foldl step
      { active := true }) := by
  have hstart : Reaches step Answered ({ active := true } : System) _ := .refl
  have hread := (hstart.snoc .initializeResult trivial).snoc .readStatus trivial
  have hready := hread.snoc .completeStatus fun _ read hread hthrew => by
    obtain rfl := Option.some.inj hread
    cases hthrew
  have hasked := hready.snoc (.setPause true) fun _ hpause => absurd hpause (by decide)
  have hset := ((hasked.snoc .work trivial).snoc .post trivial).snoc .deliver trivial
  exact settled_of_quiet (((hset.snoc .work trivial).snoc .work trivial).snoc .completeAction trivial)
    rfl ⟨rfl, rfl, rfl, rfl⟩

/-- The network is paused from outside. Before its notification the user asks for what is still shown. -/
theorem not_settled_after_dropped_request :
    ∃ s, Reaches step (fun _ _ => True) { active := true } s ∧ s.model.m_node_ready = true ∧ Quiet s ∧
      ¬Settled s := by
  refine ⟨_, Reaches.events (fun _ _ => trivial) .refl [.initializeResult, .readStatus, .completeStatus,
    .change false, .setPause false, .post, .deliver], rfl, ⟨rfl, rfl, rfl, rfl⟩, fun h => ?_⟩
  exact absurd (h.asked false rfl rfl) (by decide)

end GuiQml.Network
