import GuiQml.ChainSync.Model

/-!
# What the chain callbacks leave shown
-/

namespace GuiQml.ChainSync

variable {nPowTargetSpacing now : Int} {m : NodeModel} {s : System}

/-! ## What is shown -/

structure ShowsBlock (m : NodeModel) (block : Block) (active : Bool) : Prop where
  m_block_tip_height : m.m_block_tip_height = block.tip.block_height
  m_block_tip_time : m.m_block_tip_time = block.tip.block_time
  m_verification_progress : m.m_verification_progress = block.progress
  m_block_sync_active : m.m_block_sync_active = active

structure ShowsHeader (nPowTargetSpacing now : Int) (m : NodeModel) (header : Header) : Prop where
  m_header_tip_height : m.m_header_tip_height = header.tip.block_height
  m_header_tip_time : m.m_header_tip_time = header.tip.block_time
  m_header_presync : m.m_header_presync = header.presync
  m_header_sync_active : m.m_header_sync_active =
    NodeModel.headerActive nPowTargetSpacing now header.tip.block_height header.tip.block_time
  m_header_sync_progress : m.m_header_sync_progress =
    NodeModel.headerProgress nPowTargetSpacing now header.tip.block_height header.tip.block_time

/-- Whether the block sync is shown as active after the last block notification. -/
def System.blockActive (s : System) (block : Block) : Bool :=
  decide (block.state ≠ .POST_INIT) && !s.download_ended

structure CaughtUp (t : SyncState) : Prop where
  node_ready : t.node_ready = true
  block_sync_active : t.block_sync_active = false
  header_sync_active : t.header_sync_active = false
  header_presync : t.header_presync = false
  height : t.header_tip_height ≤ t.block_tip_height

def Behind (t : SyncState) : Prop := t.header_tip_height - t.block_tip_height > HEADER_HEIGHT_DELTA_SYNC

/-- The decision changed once, on the state that is left, or not at all. -/
inductive Decided (m m' : NodeModel) : Prop
  | kept : m'.m_initial_sync_complete = m.m_initial_sync_complete →
      m'.initialSyncCompleteChanged = m.initialSyncCompleteChanged → Decided m m'
  | completed : m.m_initial_sync_complete = false → m'.m_initial_sync_complete = true →
      m'.initialSyncCompleteChanged = m.initialSyncCompleteChanged ++ [m'.sync] → CaughtUp m'.sync →
      Decided m m'
  | resumed : m.m_initial_sync_complete = true → m'.m_initial_sync_complete = false →
      m'.initialSyncCompleteChanged = m.initialSyncCompleteChanged ++ [m'.sync] → Behind m'.sync →
      Decided m m'

theorem Decided.refl (m : NodeModel) : Decided m m := .kept rfl rfl

/-! ## One decision -/

namespace NodeModel

theorem updateSyncCompletion_applying (h : m.m_applying_sync_snapshot = true) :
    m.updateSyncCompletion = m := by
  unfold updateSyncCompletion
  simp [h]

theorem updateSyncCompletion_eq (m : NodeModel) : ∃ complete changes, m.updateSyncCompletion =
    { m with m_initial_sync_complete := complete, initialSyncCompleteChanged := changes } := by
  unfold updateSyncCompletion setInitialSyncComplete
  split
  · exact ⟨_, _, rfl⟩
  · split <;> split <;> exact ⟨_, _, rfl⟩

theorem updateSyncCompletion_decided (m : NodeModel) : Decided m m.updateSyncCompletion := by
  unfold updateSyncCompletion
  split
  · exact .refl m
  · split
    next hcomplete =>
      split
      next hbehind => exact .resumed hcomplete rfl rfl hbehind
      next => exact .refl m
    next hcomplete =>
      split
      next => exact .refl m
      next hcaught =>
        simp only [Bool.or_eq_true, Bool.not_eq_eq_eq_not, Bool.not_true, decide_eq_true_eq, not_or,
          Bool.not_eq_false, Bool.not_eq_true] at hcaught
        obtain ⟨⟨⟨⟨hready, hblock⟩, hheader⟩, hpresync⟩, hheight⟩ := hcaught
        exact .completed (Bool.eq_false_iff.mpr hcomplete) rfl rfl
          ⟨hready, hblock, hheader, hpresync, Int.not_lt.mp hheight⟩

/-! ## The setters while a snapshot is applied -/

theorem setBlockTipHeight_applying (h : m.m_applying_sync_snapshot = true) (new_height : Int) :
    m.setBlockTipHeight new_height = { m with m_block_tip_height := new_height } := by
  unfold setBlockTipHeight
  split
  · exact updateSyncCompletion_applying h
  next hsame => simp only [ne_eq, Decidable.not_not] at hsame; rw [hsame]

theorem setVerificationProgress_eq (new_progress : Rat) :
    m.setVerificationProgress new_progress = { m with m_verification_progress := new_progress } := by
  unfold setVerificationProgress
  split
  · rfl
  next hsame => simp only [ne_eq, Decidable.not_not] at hsame; rw [hsame]

theorem setBlockSyncActive_applying (h : m.m_applying_sync_snapshot = true) (active : Bool) :
    m.setBlockSyncActive active = { m with m_block_sync_active := active } := by
  unfold setBlockSyncActive
  split
  next hsame => rw [← hsame]
  next => exact updateSyncCompletion_applying h

theorem setNodeReady_applying (h : m.m_applying_sync_snapshot = true) (ready : Bool) :
    m.setNodeReady ready = { m with m_node_ready := ready } := by
  unfold setNodeReady
  split
  next hsame => rw [← hsame]
  next => exact updateSyncCompletion_applying h

theorem setHeaderSyncState_applying (h : m.m_applying_sync_snapshot = true) (height block_time : Int)
    (presync : Bool) :
    m.setHeaderSyncState nPowTargetSpacing now height block_time presync =
      { m with
        m_header_tip_height := height
        m_header_tip_time := block_time
        m_header_sync_active := headerActive nPowTargetSpacing now height block_time
        m_header_presync := presync
        m_header_sync_progress := headerProgress nPowTargetSpacing now height block_time } := by
  unfold setHeaderSyncState
  dsimp only
  split
  next => exact updateSyncCompletion_applying h
  next hsame =>
    simp only [ne_eq, not_or, Decidable.not_not] at hsame
    obtain ⟨hactive, hpresync, hprogress⟩ := hsame
    rw [← hactive, ← hpresync, ← hprogress]
    exact updateSyncCompletion_applying h

/-! ## Applying a snapshot -/

@[simp] theorem publishHeader_none : m.publishHeader nPowTargetSpacing now none = m := rfl

@[simp] theorem publishBlock_none : m.publishBlock none = m := rfl

theorem publishHeader_applying (h : m.m_applying_sync_snapshot = true) (header : Header) :
    m.publishHeader nPowTargetSpacing now (some header) =
      { m with
        m_seen_header_tip := true
        m_header_tip_height := header.tip.block_height
        m_header_tip_time := header.tip.block_time
        m_header_sync_active :=
          headerActive nPowTargetSpacing now header.tip.block_height header.tip.block_time
        m_header_presync := header.presync
        m_header_sync_progress :=
          headerProgress nPowTargetSpacing now header.tip.block_height header.tip.block_time } := by
  simp [publishHeader, setHeaderSyncState_applying, h]

theorem publishBlock_applying (h : m.m_applying_sync_snapshot = true) (block : Block) :
    m.publishBlock (some block) =
      { m with
        m_seen_block_tip := true
        m_block_tip_time := block.tip.block_time
        m_block_tip_height := block.tip.block_height
        m_verification_progress := block.progress
        m_block_sync_active := decide (block.state ≠ .POST_INIT) } := by
  simp [publishBlock, setBlockTipHeight_applying, setVerificationProgress_eq, setBlockSyncActive_applying, h]

/-! ## The parts of the model -/

/-- What is shown of the block tip, and whether a notification of one was. -/
def blockPart (m : NodeModel) : Int × Int × Rat × Bool × Bool :=
  (m.m_block_tip_height, m.m_block_tip_time, m.m_verification_progress, m.m_block_sync_active,
    m.m_seen_block_tip)

def headerPart (m : NodeModel) : Int × Int × Bool × Bool × Rat × Bool :=
  (m.m_header_tip_height, m.m_header_tip_time, m.m_header_presync, m.m_header_sync_active,
    m.m_header_sync_progress, m.m_seen_header_tip)

def decision (m : NodeModel) : Bool × List SyncState :=
  (m.m_initial_sync_complete, m.initialSyncCompleteChanged)

def flags (m : NodeModel) : Bool × Bool × Bool :=
  (m.m_applying_sync_snapshot, m.m_workers_stopping, m.m_shutdown_requested)

section

variable (m)

@[simp] theorem updateSyncCompletion_blockPart : m.updateSyncCompletion.blockPart = m.blockPart := by
  obtain ⟨complete, changes, h⟩ := updateSyncCompletion_eq m
  rw [h]
  rfl

@[simp] theorem updateSyncCompletion_headerPart : m.updateSyncCompletion.headerPart = m.headerPart := by
  obtain ⟨complete, changes, h⟩ := updateSyncCompletion_eq m
  rw [h]
  rfl

@[simp] theorem updateSyncCompletion_flags : m.updateSyncCompletion.flags = m.flags := by
  obtain ⟨complete, changes, h⟩ := updateSyncCompletion_eq m
  rw [h]
  rfl

@[simp] theorem setNodeReady_blockPart (ready : Bool) : (m.setNodeReady ready).blockPart = m.blockPart := by
  unfold setNodeReady
  split
  · rfl
  · exact updateSyncCompletion_blockPart _

@[simp] theorem setNodeReady_headerPart (ready : Bool) :
    (m.setNodeReady ready).headerPart = m.headerPart := by
  unfold setNodeReady
  split
  · rfl
  · exact updateSyncCompletion_headerPart _

@[simp] theorem setNodeReady_flags (ready : Bool) : (m.setNodeReady ready).flags = m.flags := by
  unfold setNodeReady
  split
  · rfl
  · exact updateSyncCompletion_flags _

@[simp] theorem publishNetwork_blockPart (network_active : Option Bool) :
    (m.publishNetwork network_active).blockPart = m.blockPart := by
  cases network_active <;> rfl

@[simp] theorem publishNetwork_headerPart (network_active : Option Bool) :
    (m.publishNetwork network_active).headerPart = m.headerPart := by
  cases network_active <;> rfl

@[simp] theorem publishNetwork_flags (network_active : Option Bool) :
    (m.publishNetwork network_active).flags = m.flags := by
  cases network_active <;> rfl

@[simp] theorem publishNetwork_decision (network_active : Option Bool) :
    (m.publishNetwork network_active).decision = m.decision := by
  cases network_active <;> rfl

/-- What `publishNotifications` does with the flag set. -/
def snapshot (nPowTargetSpacing now : Int) (header : Option Header) (block : Option Block) : NodeModel :=
  m.applying fun m => (m.publishHeader nPowTargetSpacing now header).publishBlock block

variable (header : Option Header) (block : Option Block)

theorem snapshot_block (b : Block) : (m.snapshot nPowTargetSpacing now header (some b)).blockPart =
    (b.tip.block_height, b.tip.block_time, b.progress, decide (b.state ≠ .POST_INIT), true) := by
  cases header <;>
    simp [snapshot, applying, publishBlock_applying, publishHeader_applying, blockPart]

theorem snapshot_no_block :
    (m.snapshot nPowTargetSpacing now header none).blockPart = m.blockPart := by
  cases header <;> simp [snapshot, applying, publishHeader_applying, blockPart]

theorem snapshot_header (h : Header) :
    (m.snapshot nPowTargetSpacing now (some h) block).headerPart =
      (h.tip.block_height, h.tip.block_time, h.presync,
        headerActive nPowTargetSpacing now h.tip.block_height h.tip.block_time,
        headerProgress nPowTargetSpacing now h.tip.block_height h.tip.block_time, true) := by
  cases block <;>
    simp [snapshot, applying, publishBlock_applying, publishHeader_applying, headerPart]

theorem snapshot_no_header :
    (m.snapshot nPowTargetSpacing now none block).headerPart = m.headerPart := by
  cases block <;> simp [snapshot, applying, publishBlock_applying, headerPart]

@[simp] theorem snapshot_flags :
    (m.snapshot nPowTargetSpacing now header block).flags = m.flags := by
  cases header <;> cases block <;>
    simp [snapshot, applying, publishBlock_applying, publishHeader_applying, flags]

@[simp] theorem snapshot_decision :
    (m.snapshot nPowTargetSpacing now header block).decision = m.decision := by
  cases header <;> cases block <;>
    simp [snapshot, applying, publishBlock_applying, publishHeader_applying, decision]

end

section

variable (h : m.m_applying_sync_snapshot = true) (tip_info : BlockAndHeaderTipInfo)
  (initial_block_download : Bool)

include h

theorem applyTipInfo_flags :
    (m.applyTipInfo nPowTargetSpacing now tip_info initial_block_download).flags = m.flags := by
  unfold applyTipInfo
  cases hblock : m.m_seen_block_tip <;> cases hheader : m.m_seen_header_tip <;>
    cases initial_block_download <;>
    simp [setBlockTipHeight_applying, setVerificationProgress_eq, setBlockSyncActive_applying,
      setHeaderSyncState_applying, setNodeReady_applying, flags, h, hblock, hheader]

theorem applyTipInfo_decision :
    (m.applyTipInfo nPowTargetSpacing now tip_info initial_block_download).decision = m.decision := by
  unfold applyTipInfo
  cases hblock : m.m_seen_block_tip <;> cases hheader : m.m_seen_header_tip <;>
    cases initial_block_download <;>
    simp [setBlockTipHeight_applying, setVerificationProgress_eq, setBlockSyncActive_applying,
      setHeaderSyncState_applying, setNodeReady_applying, decision, h, hblock, hheader]

/-- The end of the initial download is shown at once, anything else only where no notification came. -/
theorem applyTipInfo_block (hseen : m.m_seen_block_tip = true) :
    (m.applyTipInfo nPowTargetSpacing now tip_info initial_block_download).blockPart =
      (m.m_block_tip_height, m.m_block_tip_time, m.m_verification_progress,
        m.m_block_sync_active && initial_block_download, true) := by
  unfold applyTipInfo
  cases hheader : m.m_seen_header_tip <;> cases initial_block_download <;>
    simp [setBlockSyncActive_applying, setHeaderSyncState_applying, setNodeReady_applying, blockPart, h,
      hseen, hheader]

theorem applyTipInfo_header (hseen : m.m_seen_header_tip = true) :
    (m.applyTipInfo nPowTargetSpacing now tip_info initial_block_download).headerPart =
      m.headerPart := by
  unfold applyTipInfo
  cases hblock : m.m_seen_block_tip <;> cases initial_block_download <;>
    simp [setBlockTipHeight_applying, setVerificationProgress_eq, setBlockSyncActive_applying,
      setNodeReady_applying, headerPart, h, hblock, hseen]

end

end NodeModel

/-! ## What is kept -/

/-- The mailbox holds something. -/
def Notifications.Holds (box : Notifications) : Prop :=
  box.block.isSome ∨ box.header.isSome ∨ box.peers.isSome ∨ box.network_active.isSome ∨
    box.warnings = true ∨ box.bans = true

structure BeforeShutdown (s : System) : Prop where
  m_shutdown_requested : s.model.m_shutdown_requested = false
  m_workers_stopping : s.model.m_workers_stopping = false

/-- The last notification of each kind is in the mailbox or shown. -/
structure Kept (nPowTargetSpacing : Int) (s : System) : Prop where
  deliveries : s.deliveries = if s.m_notifications.delivery_pending then 1 else 0
  attached : s.model.m_workers_stopping = false → s.m_notifications.receiver = true
  block : ∀ b ∈ s.m_notifications.block, s.last_block = some b ∧ s.download_ended = false
  header : ∀ h ∈ s.m_notifications.header, s.last_header = some h
  shown_block : s.m_notifications.block = none → ∀ b ∈ s.last_block,
    s.model.blockPart =
      (b.tip.block_height, b.tip.block_time, b.progress, s.blockActive b, true)
  shown_header : s.m_notifications.header = none → ∀ h ∈ s.last_header,
    s.model.headerPart =
      (h.tip.block_height, h.tip.block_time, h.presync,
        NodeModel.headerActive nPowTargetSpacing s.header_shown_at h.tip.block_height h.tip.block_time,
        NodeModel.headerProgress nPowTargetSpacing s.header_shown_at h.tip.block_height h.tip.block_time,
        true)
  status : s.status_unseen = true → s.m_notifications.peers.isSome ∨ s.m_notifications.warnings = true
  bans : s.bans_unseen = true → s.m_notifications.bans = true

structure Inv (nPowTargetSpacing : Int) (s : System) : Prop where
  kept : Kept nPowTargetSpacing s
  applying : s.model.m_applying_sync_snapshot = false
  expected : BeforeShutdown s → s.m_notifications.Holds →
    s.m_notifications.delivery_pending = true ∨ s.delivering = true

/-! ## Callbacks -/

theorem Kept.schedule (h : Kept nPowTargetSpacing s) : Kept nPowTargetSpacing s.schedule := by
  unfold System.schedule
  split
  · exact h
  next hidle =>
    have hnone : s.deliveries = 0 := by
      have := h.deliveries
      simp_all
    exact { h with deliveries := by simp [hnone] }

theorem schedule_pending (hattached : s.m_notifications.receiver = true) :
    s.schedule.m_notifications.delivery_pending = true := by
  unfold System.schedule
  split
  next hbusy => simpa [hattached] using hbusy
  next => rfl

theorem Kept.scheduled (h : Kept nPowTargetSpacing s)
    (happlying : s.model.m_applying_sync_snapshot = false) :
    Inv nPowTargetSpacing s.schedule := by
  have hmodel : s.schedule.model = s.model := by
    unfold System.schedule
    split <;> rfl
  refine ⟨h.schedule, by rw [hmodel]; exact happlying, fun hbefore _ => ?_⟩
  have hstopping := hbefore.m_workers_stopping
  rw [hmodel] at hstopping
  exact .inl (schedule_pending (h.attached hstopping))

section

variable (h : Inv nPowTargetSpacing s)

include h

theorem Inv.notifyBlockTip (block : Block) : Inv nPowTargetSpacing (s.notifyBlockTip block) := by
  refine Kept.scheduled { h.kept with block := ?_, shown_block := by nofun } h.applying
  rintro b hb
  cases hb
  exact ⟨rfl, rfl⟩

theorem Inv.notifyHeaderTip (header : Header) : Inv nPowTargetSpacing (s.notifyHeaderTip header) := by
  refine Kept.scheduled { h.kept with header := ?_, shown_header := by nofun } h.applying
  rintro _ hheader
  cases hheader
  rfl

theorem Inv.notifyNumConnectionsChanged (total : Int) :
    Inv nPowTargetSpacing (s.notifyNumConnectionsChanged total) :=
  Kept.scheduled { h.kept with status := fun _ => .inl rfl } h.applying

theorem Inv.notifyNetworkActiveChanged (active : Bool) :
    Inv nPowTargetSpacing (s.notifyNetworkActiveChanged active) :=
  Kept.scheduled { h.kept with } h.applying

theorem Inv.notifyAlertChanged : Inv nPowTargetSpacing s.notifyAlertChanged :=
  Kept.scheduled { h.kept with status := fun _ => .inr rfl } h.applying

theorem Inv.notifyBannedListChanged : Inv nPowTargetSpacing s.notifyBannedListChanged :=
  Kept.scheduled { h.kept with bans := fun _ => rfl } h.applying

theorem Inv.deliver (hqueued : 0 < s.deliveries) : Inv nPowTargetSpacing s.deliver := by
  have hone : s.deliveries - 1 = 0 := by
    have := h.kept.deliveries
    split at this <;> omega
  exact ⟨{ h.kept with deliveries := hone }, h.applying, fun _ _ => .inr rfl⟩

end

/-! ## Publishing -/

theorem publishNotifications_eq (hbefore : BeforeShutdown s) :
    s.publishNotifications nPowTargetSpacing now =
      { s with
        m_notifications := { s.m_notifications with
          block := none, header := none, peers := none, network_active := none, warnings := false
          bans := false }
        model := ((s.model.snapshot nPowTargetSpacing now s.m_notifications.header
          s.m_notifications.block).updateSyncCompletion).publishNetwork s.m_notifications.network_active
        header_shown_at := if s.m_notifications.header.isSome then now else s.header_shown_at
        status_unseen :=
          s.status_unseen && !(s.m_notifications.peers.isSome || s.m_notifications.warnings)
        bans_unseen := s.bans_unseen && !s.m_notifications.bans } := by
  unfold System.publishNotifications
  rw [if_neg (by simp [hbefore.m_workers_stopping, hbefore.m_shutdown_requested])]
  rfl

theorem publishNotifications_shut (hshut : ¬ BeforeShutdown s) :
    s.publishNotifications nPowTargetSpacing now = s := by
  unfold System.publishNotifications
  refine if_pos (Decidable.byContradiction fun hopen => hshut ?_)
  simp only [Bool.or_eq_true, not_or, Bool.not_eq_true] at hopen
  exact ⟨hopen.2, hopen.1⟩

theorem publishNotifications_empty (hbefore : BeforeShutdown s) :
    ¬ (s.publishNotifications nPowTargetSpacing now).m_notifications.Holds := by
  rw [publishNotifications_eq hbefore]
  simp [Notifications.Holds]

theorem publishNotifications_flags :
    (s.publishNotifications nPowTargetSpacing now).model.flags = s.model.flags := by
  unfold System.publishNotifications
  split
  · rfl
  · simp only [NodeModel.publishNetwork_flags, NodeModel.updateSyncCompletion_flags]
    exact NodeModel.snapshot_flags ..

theorem Kept.publishNotifications (h : Kept nPowTargetSpacing s) (hbefore : BeforeShutdown s) :
    Kept nPowTargetSpacing (s.publishNotifications nPowTargetSpacing now) := by
  rw [publishNotifications_eq hbefore]
  constructor
  case deliveries => exact h.deliveries
  case attached => exact fun _ => h.attached hbefore.m_workers_stopping
  case block | header => nofun
  case shown_block =>
    intro _ b hb
    simp only [NodeModel.publishNetwork_blockPart, NodeModel.updateSyncCompletion_blockPart]
    cases hblock : s.m_notifications.block with
    | some b' =>
      obtain ⟨hlast, hended⟩ := h.block b' hblock
      obtain rfl : b' = b := Option.some.inj (hlast.symm.trans hb)
      simp [NodeModel.snapshot_block, System.blockActive, hended]
    | none =>
      rw [NodeModel.snapshot_no_block]
      exact h.shown_block hblock b hb
  case shown_header =>
    intro _ b hb
    simp only [NodeModel.publishNetwork_headerPart, NodeModel.updateSyncCompletion_headerPart]
    cases hheader : s.m_notifications.header with
    | some b' =>
      obtain rfl : b' = b := Option.some.inj ((h.header b' hheader).symm.trans hb)
      exact NodeModel.snapshot_header ..
    | none =>
      rw [NodeModel.snapshot_no_header]
      exact h.shown_header hheader b hb
  case status =>
    intro hunseen
    simp only [Bool.and_eq_true, Bool.not_eq_eq_eq_not, Bool.not_true, Bool.or_eq_false_iff] at hunseen
    obtain ⟨hunseen, hpeers, hwarnings⟩ := hunseen
    have := h.status hunseen
    simp [hpeers, hwarnings] at this
  case bans =>
    intro hunseen
    simp only [Bool.and_eq_true, Bool.not_eq_eq_eq_not, Bool.not_true] at hunseen
    simp [h.bans hunseen.1] at hunseen

/-- The state in which a startup publishes. -/
def System.starting (s : System) : System :=
  { s with model := { s.model with m_backend_queries_ready := true, m_applying_sync_snapshot := true } }

/-- What a startup does once everything is published. -/
def System.addTipInfo (nPowTargetSpacing : Int) (s : System) (saved : Bool) (now : Int)
    (tip_info : BlockAndHeaderTipInfo) (initial_block_download : Bool) : System :=
  let m := s.model.applyTipInfo nPowTargetSpacing now tip_info initial_block_download
  { s with
    model := { m with m_applying_sync_snapshot := saved }.updateSyncCompletion
    header_shown_at := if s.model.m_seen_header_tip then s.header_shown_at else now
    download_ended := s.download_ended || !initial_block_download }

theorem initialized_eq (tip_info : BlockAndHeaderTipInfo) (initial_block_download : Bool) :
    s.initialized nPowTargetSpacing now tip_info initial_block_download =
      (s.starting.publishNotifications nPowTargetSpacing now).addTipInfo nPowTargetSpacing
        s.model.m_applying_sync_snapshot now tip_info initial_block_download := rfl

theorem addTipInfo_flags (happlying : s.model.m_applying_sync_snapshot = true) (saved : Bool)
    (tip_info : BlockAndHeaderTipInfo) (initial_block_download : Bool) :
    (s.addTipInfo nPowTargetSpacing saved now tip_info initial_block_download).model.flags =
      (saved, s.model.m_workers_stopping, s.model.m_shutdown_requested) := by
  have hflags := @NodeModel.applyTipInfo_flags nPowTargetSpacing now _ happlying tip_info initial_block_download
  simp only [NodeModel.flags, Prod.mk.injEq] at hflags
  unfold System.addTipInfo
  rw [NodeModel.updateSyncCompletion_flags]
  simp [NodeModel.flags, hflags.2]

theorem Kept.addTipInfo (h : Kept nPowTargetSpacing s) (hempty : ¬ s.m_notifications.Holds)
    (happlying : s.model.m_applying_sync_snapshot = true) (saved : Bool)
    (tip_info : BlockAndHeaderTipInfo) (initial_block_download : Bool) :
    Kept nPowTargetSpacing
      (s.addTipInfo nPowTargetSpacing saved now tip_info initial_block_download) := by
  simp only [Notifications.Holds, not_or, Option.not_isSome_iff_eq_none] at hempty
  obtain ⟨hblock, hheader, -⟩ := hempty
  have hflags := @addTipInfo_flags nPowTargetSpacing now s happlying saved tip_info initial_block_download
  simp only [NodeModel.flags, Prod.mk.injEq] at hflags
  refine { h with attached := ?_, block := ?_, shown_block := ?_, shown_header := ?_ }
  · intro hstopping
    exact h.attached (hflags.2.1 ▸ hstopping)
  · intro b hb
    simp [System.addTipInfo, hblock] at hb
  · intro _ b hb
    have hshown := h.shown_block hblock b hb
    simp only [NodeModel.blockPart, Prod.mk.injEq] at hshown
    obtain ⟨hheight, htime, hprogress, hactive, hseen⟩ := hshown
    unfold System.addTipInfo
    rw [NodeModel.updateSyncCompletion_blockPart]
    have hpart := @NodeModel.applyTipInfo_block nPowTargetSpacing now _ happlying tip_info
      initial_block_download hseen
    refine Eq.trans hpart ?_
    simp [hheight, htime, hprogress, hactive, System.blockActive, Bool.and_assoc]
  · intro _ b hb
    have hshown := h.shown_header hheader b hb
    have hseen : s.model.m_seen_header_tip = true := by
      simp only [NodeModel.headerPart, Prod.mk.injEq] at hshown
      exact hshown.2.2.2.2.2
    unfold System.addTipInfo
    rw [NodeModel.updateSyncCompletion_headerPart]
    have hpart := @NodeModel.applyTipInfo_header nPowTargetSpacing now _ happlying tip_info
      initial_block_download hseen
    refine Eq.trans hpart ?_
    simpa [hseen] using hshown

/-! ## Every event -/

theorem Inv.published (h : Inv nPowTargetSpacing s) (hbefore : BeforeShutdown s) :
    Inv nPowTargetSpacing (s.publishNotifications nPowTargetSpacing now) := by
  have hflags := @publishNotifications_flags nPowTargetSpacing now s
  simp only [NodeModel.flags, Prod.mk.injEq] at hflags
  exact ⟨h.kept.publishNotifications hbefore, hflags.1.trans h.applying,
    fun _ hholds => absurd hholds (publishNotifications_empty hbefore)⟩

theorem initialized_inv (h : Inv nPowTargetSpacing s) (hbefore : BeforeShutdown s)
    (tip_info : BlockAndHeaderTipInfo) (initial_block_download : Bool) :
    Inv nPowTargetSpacing (s.initialized nPowTargetSpacing now tip_info initial_block_download) ∧
      ¬ (s.initialized nPowTargetSpacing now tip_info initial_block_download).m_notifications.Holds := by
  have hstarting : Kept nPowTargetSpacing s.starting := { h.kept with }
  have hbefore' : BeforeShutdown s.starting := ⟨hbefore.1, hbefore.2⟩
  have hempty := @publishNotifications_empty nPowTargetSpacing now s.starting hbefore'
  have hflags := @publishNotifications_flags nPowTargetSpacing now s.starting
  have happlying : (s.starting.publishNotifications nPowTargetSpacing now).model.m_applying_sync_snapshot
      = true := congrArg Prod.fst hflags
  rw [initialized_eq]
  have hkept := @Kept.addTipInfo nPowTargetSpacing now _ (hstarting.publishNotifications hbefore') hempty
    happlying s.model.m_applying_sync_snapshot tip_info initial_block_download
  have hsaved := congrArg Prod.fst (@addTipInfo_flags nPowTargetSpacing now _ happlying
    s.model.m_applying_sync_snapshot tip_info initial_block_download)
  exact ⟨⟨hkept, hsaved.trans h.applying, fun _ hholds => absurd hholds hempty⟩, hempty⟩

theorem beginShutdown_inv (h : Inv nPowTargetSpacing s) : Inv nPowTargetSpacing s.beginShutdown := by
  unfold System.beginShutdown
  split
  · exact h
  · have hflags := NodeModel.setNodeReady_flags { s.model with m_workers_stopping := true } false
    simp only [NodeModel.flags, Prod.mk.injEq] at hflags
    obtain ⟨happlying, hstopped, -⟩ := hflags
    refine ⟨{ h.kept with attached := ?_, shown_block := ?_, shown_header := ?_ }, ?_, ?_⟩
    · intro hstopping
      exact absurd (hstopped.symm.trans hstopping) (by decide)
    · intro hnone b hb
      exact (NodeModel.setNodeReady_blockPart ..).trans (h.kept.shown_block hnone b hb)
    · intro hnone b hb
      exact (NodeModel.setNodeReady_headerPart ..).trans (h.kept.shown_header hnone b hb)
    · exact happlying.trans h.applying
    · intro hbefore
      exact absurd (hstopped.symm.trans hbefore.m_workers_stopping) (by decide)

theorem requestShutdown_inv (h : Inv nPowTargetSpacing s) : Inv nPowTargetSpacing s.requestShutdown := by
  unfold System.requestShutdown NodeModel.requestShutdown
  split
  · exact h
  · exact ⟨{ h.kept with }, h.applying, fun hbefore => nomatch hbefore.m_shutdown_requested⟩

/-- A startup that succeeds before a shutdown ends like one, any other only asks for a shutdown. -/
theorem initializeResult_cases (nPowTargetSpacing now : Int) (s : System) (success : Bool)
    (tip_info : BlockAndHeaderTipInfo) (initial_block_download shutdown_requested : Bool) :
    s.initializeResult nPowTargetSpacing now success tip_info initial_block_download
        shutdown_requested = s ∨
      s.initializeResult nPowTargetSpacing now success tip_info initial_block_download
        shutdown_requested = s.requestShutdown ∨
      BeforeShutdown s ∧
        s.initializeResult nPowTargetSpacing now success tip_info initial_block_download
          shutdown_requested = s.initialized nPowTargetSpacing now tip_info initial_block_download := by
  unfold System.initializeResult
  split
  · exact .inl rfl
  next hrunning =>
    split
    · exact .inr (.inl rfl)
    next hshutdown =>
      split
      · split
        · exact .inr (.inl rfl)
        · exact .inl rfl
      next hsuccess =>
        simp only [Bool.or_eq_true, not_or, Bool.not_eq_true] at hrunning
        refine .inr (.inr ⟨⟨?_, hrunning.1⟩, rfl⟩)
        simp_all

theorem initializeResult_inv (h : Inv nPowTargetSpacing s) (success : Bool)
    (tip_info : BlockAndHeaderTipInfo) (initial_block_download shutdown_requested : Bool) :
    Inv nPowTargetSpacing
      (s.initializeResult nPowTargetSpacing now success tip_info initial_block_download
        shutdown_requested) := by
  rcases initializeResult_cases nPowTargetSpacing now s success tip_info initial_block_download
    shutdown_requested with heq | heq | ⟨hbefore, heq⟩ <;> rw [heq]
  · exact h
  · exact requestShutdown_inv h
  · exact (initialized_inv h hbefore tip_info initial_block_download).1

theorem step_inv (h : Inv nPowTargetSpacing s) (e : Event) (hallowed : Allowed s e) :
    Inv nPowTargetSpacing (step nPowTargetSpacing s e) := by
  cases e with
  | blockTip block => exact h.notifyBlockTip block
  | headerTip header => exact h.notifyHeaderTip header
  | numConnectionsChanged total => exact h.notifyNumConnectionsChanged total
  | networkActiveChanged active => exact h.notifyNetworkActiveChanged active
  | alertChanged => exact h.notifyAlertChanged
  | bannedListChanged => exact h.notifyBannedListChanged
  | deliver => exact h.deliver hallowed.2
  | publish now =>
    unfold step
    dsimp only
    by_cases hbefore : BeforeShutdown s
    · have hpublished := @Inv.published nPowTargetSpacing now s h hbefore
      exact ⟨{ hpublished.kept with }, hpublished.applying,
        fun _ hholds => absurd hholds (publishNotifications_empty hbefore)⟩
    · rw [publishNotifications_shut hbefore]
      exact ⟨{ h.kept with }, h.applying, fun hopen => absurd ⟨hopen.1, hopen.2⟩ hbefore⟩
  | actionSuperseded now =>
    unfold step
    dsimp only
    by_cases hbefore : BeforeShutdown s
    · rw [if_neg (by simp [hbefore.m_shutdown_requested])]
      exact h.published hbefore
    · rw [publishNotifications_shut hbefore, ite_self]
      exact h
  | initializeResult now success tip_info initial_block_download shutdown_requested =>
    exact initializeResult_inv h ..
  | startupFailureDialogShown =>
    exact ⟨{ h.kept with }, h.applying, fun hbefore => h.expected ⟨hbefore.1, hbefore.2⟩⟩
  | requestShutdown => exact requestShutdown_inv h
  | beginShutdown => exact beginShutdown_inv h
  | handleRunawayException =>
    exact ⟨{ h.kept with }, h.applying, fun hbefore => nomatch hbefore.m_shutdown_requested⟩

theorem start_inv (backend_ready : Bool) : Inv nPowTargetSpacing (start backend_ready) := by
  refine ⟨?_, rfl, ?_⟩
  · constructor <;> simp [start]
  · intro _ hholds
    simp [start, Notifications.Holds] at hholds

/-! ## The decision at each event -/

theorem Decided.of_decision {m' : NodeModel} (h : Decided m m') {m₀ : NodeModel}
    (hm : m.decision = m₀.decision) : Decided m₀ m' := by
  simp only [NodeModel.decision, Prod.mk.injEq] at hm
  obtain ⟨hcomplete, hchanges⟩ := hm
  cases h with
  | kept h₁ h₂ => exact .kept (h₁.trans hcomplete) (h₂.trans hchanges)
  | completed h₁ h₂ h₃ h₄ => exact .completed (hcomplete ▸ h₁) h₂ (hchanges ▸ h₃) h₄
  | resumed h₁ h₂ h₃ h₄ => exact .resumed (hcomplete ▸ h₁) h₂ (hchanges ▸ h₃) h₄

theorem Decided.publishNetwork {m' : NodeModel} (h : Decided m m') (network_active : Option Bool) :
    Decided m (m'.publishNetwork network_active) := by
  cases network_active with
  | none => exact h
  | some network_active =>
    cases h with
    | kept h₁ h₂ => exact .kept h₁ h₂
    | completed h₁ h₂ h₃ h₄ => exact .completed h₁ h₂ h₃ h₄
    | resumed h₁ h₂ h₃ h₄ => exact .resumed h₁ h₂ h₃ h₄

theorem publishNotifications_decided :
    Decided s.model (s.publishNotifications nPowTargetSpacing now).model := by
  unfold System.publishNotifications
  split
  · exact .refl _
  · exact ((NodeModel.updateSyncCompletion_decided _).of_decision
      (NodeModel.snapshot_decision ..)).publishNetwork _

theorem setNodeReady_decided (ready : Bool) : Decided m (m.setNodeReady ready) := by
  unfold NodeModel.setNodeReady
  split
  · exact .refl _
  · exact (NodeModel.updateSyncCompletion_decided _).of_decision rfl

theorem initialized_decided (hbefore : BeforeShutdown s) (tip_info : BlockAndHeaderTipInfo)
    (initial_block_download : Bool) :
    Decided s.model
      (s.initialized nPowTargetSpacing now tip_info initial_block_download).model := by
  have hbefore' : BeforeShutdown s.starting := ⟨hbefore.1, hbefore.2⟩
  have happlying : (s.starting.publishNotifications nPowTargetSpacing now).model.m_applying_sync_snapshot
      = true := congrArg Prod.fst (@publishNotifications_flags nPowTargetSpacing now s.starting)
  -- with the flag set, publishing decides nothing
  have hpublished : (s.starting.publishNotifications nPowTargetSpacing now).model.decision =
      s.model.decision := by
    have hflags := @NodeModel.snapshot_flags nPowTargetSpacing now s.starting.model
      s.starting.m_notifications.header s.starting.m_notifications.block
    rw [publishNotifications_eq hbefore', NodeModel.publishNetwork_decision,
      NodeModel.updateSyncCompletion_applying (congrArg Prod.fst hflags)]
    exact NodeModel.snapshot_decision ..
  rw [initialized_eq]
  exact (NodeModel.updateSyncCompletion_decided _).of_decision
    ((NodeModel.applyTipInfo_decision happlying ..).trans hpublished)

/-! ## What is shown in the end -/

/-- What is shown is what the last callbacks said. -/
structure Shown (nPowTargetSpacing : Int) (s : System) : Prop where
  block : ∀ b ∈ s.last_block, ShowsBlock s.model b (s.blockActive b)
  header : ∀ h ∈ s.last_header, ShowsHeader nPowTargetSpacing s.header_shown_at s.model h
  status : s.status_unseen = false
  bans : s.bans_unseen = false

theorem Kept.shown (h : Kept nPowTargetSpacing s) (hempty : ¬ s.m_notifications.Holds) :
    Shown nPowTargetSpacing s := by
  simp only [Notifications.Holds, not_or, Bool.not_eq_true, Option.isSome_eq_false_iff,
    Option.isNone_iff_eq_none] at hempty
  obtain ⟨hblock, hheader, hpeers, -, hwarnings, hbans⟩ := hempty
  constructor
  case block =>
    intro b hb
    have hshown := h.shown_block hblock b hb
    simp only [NodeModel.blockPart, Prod.mk.injEq] at hshown
    obtain ⟨hheight, htime, hprogress, hactive, -⟩ := hshown
    exact ⟨hheight, htime, hprogress, hactive⟩
  case header =>
    intro b hb
    have hshown := h.shown_header hheader b hb
    simp only [NodeModel.headerPart, Prod.mk.injEq] at hshown
    obtain ⟨hheight, htime, hpresync, hactive, hprogress, -⟩ := hshown
    exact ⟨hheight, htime, hpresync, hactive, hprogress⟩
  case status =>
    have := h.status
    simpa [hpeers, hwarnings] using this
  case bans =>
    have := h.bans
    simpa [hbans] using this

/-- The decision changes at most once, and the sync is completed on what was published last. -/
structure DecidesOnce (nPowTargetSpacing : Int) (s s' : System) : Prop where
  decided : Decided s.model s'.model
  published : s.model.m_initial_sync_complete = false → s'.model.m_initial_sync_complete = true →
    Shown nPowTargetSpacing s'

theorem DecidesOnce.same {s' : System} (h : s'.model.decision = s.model.decision) :
    DecidesOnce nPowTargetSpacing s s' := by
  simp only [NodeModel.decision, Prod.mk.injEq] at h
  refine ⟨.kept h.1 h.2, fun hnot hcomplete => ?_⟩
  rw [h.1, hnot] at hcomplete
  cases hcomplete

@[simp] theorem schedule_model : s.schedule.model = s.model := by
  unfold System.schedule
  split <;> rfl

theorem requestShutdown_decides : DecidesOnce nPowTargetSpacing s s.requestShutdown := by
  refine .same ?_
  unfold System.requestShutdown NodeModel.requestShutdown
  split <;> rfl

theorem setNodeReady_false (hnot : m.m_initial_sync_complete = false) :
    (m.setNodeReady false).m_initial_sync_complete = false := by
  unfold NodeModel.setNodeReady
  split
  · exact hnot
  · unfold NodeModel.updateSyncCompletion
    simp [hnot]

theorem beginShutdown_decides : DecidesOnce nPowTargetSpacing s s.beginShutdown := by
  unfold System.beginShutdown
  split
  · exact .same rfl
  · have hdecided := @setNodeReady_decided { s.model with m_workers_stopping := true } false
    refine ⟨hdecided.of_decision rfl, fun hnot hcomplete => ?_⟩
    exact absurd (hcomplete.symm.trans (setNodeReady_false hnot)) (by decide)

theorem publishNotifications_decides (h : Inv nPowTargetSpacing s) :
    DecidesOnce nPowTargetSpacing s (s.publishNotifications nPowTargetSpacing now) := by
  by_cases hbefore : BeforeShutdown s
  · exact ⟨publishNotifications_decided, fun _ _ =>
      (h.published hbefore).kept.shown (publishNotifications_empty hbefore)⟩
  · rw [publishNotifications_shut hbefore]
    exact .same rfl

theorem initializeResult_decides (h : Inv nPowTargetSpacing s) (success : Bool)
    (tip_info : BlockAndHeaderTipInfo) (initial_block_download shutdown_requested : Bool) :
    DecidesOnce nPowTargetSpacing s
      (s.initializeResult nPowTargetSpacing now success tip_info initial_block_download
        shutdown_requested) := by
  rcases initializeResult_cases nPowTargetSpacing now s success tip_info initial_block_download
    shutdown_requested with heq | heq | ⟨hbefore, heq⟩ <;> rw [heq]
  · exact .same rfl
  · exact requestShutdown_decides
  · obtain ⟨hinv, hempty⟩ := initialized_inv h hbefore tip_info initial_block_download
    exact ⟨initialized_decided hbefore .., fun _ _ => hinv.kept.shown hempty⟩

theorem step_decides (h : Inv nPowTargetSpacing s) (e : Event) :
    DecidesOnce nPowTargetSpacing s (step nPowTargetSpacing s e) := by
  cases e with
  | blockTip | headerTip | numConnectionsChanged | networkActiveChanged | alertChanged
  | bannedListChanged => exact .same (congrArg _ schedule_model)
  | deliver | startupFailureDialogShown | handleRunawayException => exact .same rfl
  | publish now =>
    have hpublished := @publishNotifications_decides nPowTargetSpacing now s h
    exact ⟨hpublished.decided, fun hnot hcomplete => { hpublished.published hnot hcomplete with }⟩
  | actionSuperseded now =>
    unfold step
    dsimp only
    split
    · exact .same rfl
    · exact publishNotifications_decides h
  | initializeResult => exact initializeResult_decides h ..
  | requestShutdown => exact requestShutdown_decides
  | beginShutdown => exact beginShutdown_decides

/-- No notification of the chain is lost, and the end of the initial sync is decided on what was published
together. -/
theorem chain_followed {backend_ready : Bool}
    (h : Reach.Reaches (step nPowTargetSpacing) Allowed (start backend_ready) s) :
    s.deliveries ≤ 1 ∧
      (BeforeShutdown s → s.deliveries = 0 → s.delivering = false → Shown nPowTargetSpacing s) ∧
      ∀ e, Allowed s e → DecidesOnce nPowTargetSpacing s (step nPowTargetSpacing s e) := by
  have hinv : Inv nPowTargetSpacing s := h.invariant (start_inv backend_ready) fun _ e hs => step_inv hs e
  refine ⟨?_, fun hbefore hqueue hidle => ?_, fun e _ => step_decides hinv e⟩
  · rw [hinv.kept.deliveries]
    split <;> decide
  · refine hinv.kept.shown fun hholds => ?_
    rcases hinv.expected hbefore hholds with hpending | hdelivering
    · have := hinv.kept.deliveries
      simp [hpending, hqueue] at this
    · simp [hidle] at hdelivering

/-- A tip is notified while the delivery of another is between its two parts. -/
def gap : List Event :=
  [.headerTip ⟨⟨7, 70⟩, false⟩, .deliver, .blockTip ⟨.POST_INIT, ⟨7, 70⟩, 1⟩, .publish 70, .deliver,
    .publish 70]

theorem chain_followed_gap : Shown 600 (gap.foldl (step 600) (start true)) := by
  have hstart : Reach.Reaches (step 600) Allowed (start true) (start true) := .refl
  have hplays : Reach.Plays (step 600) Allowed (start true) gap :=
    ⟨trivial, ⟨rfl, by decide⟩, trivial, rfl, ⟨rfl, by decide⟩, rfl, trivial⟩
  obtain ⟨-, hshown, -⟩ := chain_followed (hstart.play hplays)
  exact hshown ⟨rfl, rfl⟩ rfl rfl

/-- A startup that finds the initial download ended after the last block was notified. -/
def caughtUp : List Event :=
  [.blockTip ⟨.INIT_DOWNLOAD, ⟨7, 70⟩, 1⟩, .deliver, .publish 70,
    .initializeResult 70 true ⟨7, 70, 7, 70, 1⟩ false false]

/-- The block sync is then not shown as the notification said. -/
theorem block_sync_not_shown :
    ∃ s block, Reach.Reaches (step 600) Allowed (start false) s ∧ BeforeShutdown s ∧ s.deliveries = 0 ∧
      s.delivering = false ∧ s.last_block = some block ∧
      ¬ ShowsBlock s.model block (decide (block.state ≠ .POST_INIT)) := by
  have hstart : Reach.Reaches (step 600) Allowed (start false) (start false) := .refl
  have hplays : Reach.Plays (step 600) Allowed (start false) caughtUp :=
    ⟨trivial, ⟨rfl, by decide⟩, rfl, rfl, trivial⟩
  refine ⟨caughtUp.foldl (step 600) (start false), _, hstart.play hplays, ⟨rfl, rfl⟩, rfl, rfl, rfl, ?_⟩
  intro hshows
  exact absurd hshows.m_block_sync_active (by decide)

end GuiQml.ChainSync
