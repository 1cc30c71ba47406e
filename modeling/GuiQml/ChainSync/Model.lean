import GuiQml.Lib.Reach
import Mathlib.Data.Rat.Defs

/-!
# Following the chain

The part of `NodeModel` that shows the block tip and the header tip and decides whether the initial sync
is complete. Callbacks of the node write to the mailbox from any thread, and a delivery on the GUI thread
first clears the pending flag and then, later, takes what the mailbox holds. Doubles are exact here, and
of a status read only that it was asked for is kept.
-/

namespace GuiQml.ChainSync

def HEADER_HEIGHT_DELTA_SYNC : Int := 24

inductive SynchronizationState
  | INIT_REINDEX
  | INIT_DOWNLOAD
  | POST_INIT
  deriving DecidableEq

structure BlockTip where
  block_height : Int
  block_time : Int

structure Block where
  state : SynchronizationState
  tip : BlockTip
  progress : Rat

structure Header where
  tip : BlockTip
  presync : Bool

structure Notifications where
  /-- The model is attached. -/
  receiver : Bool := true
  delivery_pending : Bool := false
  block : Option Block := none
  header : Option Header := none
  peers : Option Int := none
  last_peer_total : Option Int := none
  network_active : Option Bool := none
  warnings : Bool := false
  bans : Bool := false
  status_generation : Nat := 0
  network_generation : Nat := 0

structure BlockAndHeaderTipInfo where
  block_height : Int
  block_time : Int
  header_height : Int
  header_time : Int
  verification_progress : Rat

/-- What the decision about the initial sync looks at, and the decision. -/
structure SyncState where
  initial_sync_complete : Bool
  node_ready : Bool
  block_sync_active : Bool
  header_sync_active : Bool
  header_presync : Bool
  block_tip_height : Int
  header_tip_height : Int

structure NodeModel where
  m_block_tip_height : Int := 0
  m_block_tip_time : Int := 0
  m_verification_progress : Rat := 0
  m_block_sync_active : Bool := false
  m_seen_block_tip : Bool := false
  m_header_tip_height : Int := 0
  m_header_tip_time : Int := 0
  m_header_sync_active : Bool := false
  m_header_presync : Bool := false
  m_header_sync_progress : Rat := 0
  m_seen_header_tip : Bool := false
  m_network_known : Bool := false
  m_pause : Bool := false
  m_node_ready : Bool := false
  m_backend_queries_ready : Bool
  m_initial_sync_complete : Bool := false
  m_applying_sync_snapshot : Bool := false
  m_startup_failure_dialog_shown : Bool := false
  m_shutdown_requested : Bool := false
  m_workers_stopping : Bool := false
  m_fatal_exception : Bool := false
  /-- The state at each `initialSyncCompleteChanged`, oldest first. -/
  initialSyncCompleteChanged : List SyncState := []

namespace NodeModel

variable (nPowTargetSpacing : Int) (m : NodeModel)

def sync : SyncState :=
  { initial_sync_complete := m.m_initial_sync_complete
    node_ready := m.m_node_ready
    block_sync_active := m.m_block_sync_active
    header_sync_active := m.m_header_sync_active
    header_presync := m.m_header_presync
    block_tip_height := m.m_block_tip_height
    header_tip_height := m.m_header_tip_height }

def setInitialSyncComplete (complete : Bool) : NodeModel :=
  let m := { m with m_initial_sync_complete := complete }
  { m with initialSyncCompleteChanged := m.initialSyncCompleteChanged ++ [m.sync] }

def updateSyncCompletion : NodeModel :=
  if m.m_applying_sync_snapshot then m
  else if m.m_initial_sync_complete then
    if m.m_header_tip_height - m.m_block_tip_height > HEADER_HEIGHT_DELTA_SYNC then
      m.setInitialSyncComplete false
    else m
  else if !m.m_node_ready || m.m_block_sync_active || m.m_header_sync_active || m.m_header_presync ||
      decide (m.m_block_tip_height < m.m_header_tip_height) then m
  else m.setInitialSyncComplete true

def setBlockTipHeight (new_height : Int) : NodeModel :=
  if new_height ≠ m.m_block_tip_height then
    { m with m_block_tip_height := new_height }.updateSyncCompletion
  else m

def setVerificationProgress (new_progress : Rat) : NodeModel :=
  if new_progress ≠ m.m_verification_progress then { m with m_verification_progress := new_progress }
  else m

def setNodeReady (ready : Bool) : NodeModel :=
  if m.m_node_ready = ready then m else { m with m_node_ready := ready }.updateSyncCompletion

def setBlockSyncActive (active : Bool) : NodeModel :=
  if m.m_block_sync_active = active then m
  else { m with m_block_sync_active := active }.updateSyncCompletion

def estimateHeadersLeft (now block_time : Int) : Int := (now - block_time).tdiv nPowTargetSpacing

def headerActive (now height block_time : Int) : Bool :=
  decide (height > 0) &&
    decide (estimateHeadersLeft nPowTargetSpacing now block_time > HEADER_HEIGHT_DELTA_SYNC)

def headerProgress (now height block_time : Int) : Rat :=
  if headerActive nPowTargetSpacing now height block_time then
    height / (height + estimateHeadersLeft nPowTargetSpacing now block_time : Int)
  else 0

/-- `now` is what `GetTime` returns. -/
def setHeaderSyncState (now height block_time : Int) (presync : Bool) : NodeModel :=
  let m := { m with m_header_tip_height := height, m_header_tip_time := block_time }
  let active := headerActive nPowTargetSpacing now height block_time
  let progress := headerProgress nPowTargetSpacing now height block_time
  let m :=
    if m.m_header_sync_active ≠ active ∨ m.m_header_presync ≠ presync ∨
        m.m_header_sync_progress ≠ progress then
      { m with
        m_header_sync_active := active, m_header_presync := presync
        m_header_sync_progress := progress }
    else m
  m.updateSyncCompletion

/-- What runs while `m_applying_sync_snapshot` is set, and put back afterwards. -/
def applying (apply : NodeModel → NodeModel) : NodeModel :=
  { apply { m with m_applying_sync_snapshot := true } with
    m_applying_sync_snapshot := m.m_applying_sync_snapshot }

def publishHeader (now : Int) : Option Header → NodeModel
  | some header =>
    { m with m_seen_header_tip := true }.setHeaderSyncState nPowTargetSpacing now
      header.tip.block_height header.tip.block_time header.presync
  | none => m

def publishBlock : Option Block → NodeModel
  | some block =>
    let m := { m with m_seen_block_tip := true, m_block_tip_time := block.tip.block_time }
    let m := m.setBlockTipHeight block.tip.block_height
    let m := m.setVerificationProgress block.progress
    m.setBlockSyncActive (decide (block.state ≠ .POST_INIT))
  | none => m

def publishNetwork : Option Bool → NodeModel
  | some network_active => { m with m_network_known := true, m_pause := !network_active }
  | none => m

/-- The part of `initializeResult` that applies what the startup has read, once what was notified is
published. -/
def applyTipInfo (now : Int) (tip_info : BlockAndHeaderTipInfo) (initial_block_download : Bool) :
    NodeModel :=
  let m :=
    if !m.m_seen_block_tip then
      let m := { m with m_block_tip_time := tip_info.block_time }
      let m := m.setBlockTipHeight tip_info.block_height
      let m := m.setVerificationProgress tip_info.verification_progress
      m.setBlockSyncActive initial_block_download
    else m
  let m := if !initial_block_download then m.setBlockSyncActive false else m
  let m :=
    if !m.m_seen_header_tip then
      m.setHeaderSyncState nPowTargetSpacing now tip_info.header_height tip_info.header_time false
    else m
  m.setNodeReady true

def requestShutdown : NodeModel :=
  if m.m_shutdown_requested then m else { m with m_shutdown_requested := true }

end NodeModel

structure System where
  model : NodeModel
  m_notifications : Notifications := {}
  /-- The deliveries in the queue of the GUI thread. -/
  deliveries : Nat := 0
  /-- A delivery has cleared the flag and has still to publish. -/
  delivering : Bool := false
  last_block : Option Block := none
  last_header : Option Header := none
  /-- A startup reported the end of the initial download after the last block notification. -/
  download_ended : Bool := false
  /-- When the header state was last computed. -/
  header_shown_at : Int := 0
  /-- The peers or the warnings changed, and no status read was asked for since. -/
  status_unseen : Bool := false
  /-- The bans changed, and `bannedListChanged` was not emitted since. -/
  bans_unseen : Bool := false

namespace System

variable (nPowTargetSpacing : Int) (s : System)

/-! ## Callbacks of the node -/

def schedule : System :=
  if !s.m_notifications.receiver || s.m_notifications.delivery_pending then s
  else
    { s with
      m_notifications := { s.m_notifications with delivery_pending := true }
      deliveries := s.deliveries + 1 }

def notifyBlockTip (block : Block) : System :=
  { s with
    m_notifications := { s.m_notifications with block := some block }
    last_block := some block, download_ended := false }.schedule

def notifyHeaderTip (header : Header) : System :=
  { s with
    m_notifications := { s.m_notifications with header := some header }
    last_header := some header }.schedule

def notifyNumConnectionsChanged (total : Int) : System :=
  { s with
    m_notifications := { s.m_notifications with
      peers := some total
      last_peer_total := some total
      status_generation := s.m_notifications.status_generation + 1 }
    status_unseen := true }.schedule

def notifyNetworkActiveChanged (active : Bool) : System :=
  { s with m_notifications := { s.m_notifications with
      network_active := some active
      network_generation := s.m_notifications.network_generation + 1
      status_generation := s.m_notifications.status_generation + 1 } }.schedule

def notifyAlertChanged : System :=
  { s with
    m_notifications := { s.m_notifications with
      warnings := true
      status_generation := s.m_notifications.status_generation + 1 }
    status_unseen := true }.schedule

def notifyBannedListChanged : System :=
  { s with m_notifications := { s.m_notifications with bans := true }, bans_unseen := true }.schedule

/-! ## The GUI thread -/

/-- The first part of a delivery. -/
def deliver : System :=
  { s with
    m_notifications := { s.m_notifications with delivery_pending := false }
    deliveries := s.deliveries - 1, delivering := true }

def publishNotifications (now : Int) : System :=
  if s.model.m_workers_stopping || s.model.m_shutdown_requested then s
  else
    let box := s.m_notifications
    let s := { s with m_notifications := { box with
      block := none, header := none, peers := none, network_active := none, warnings := false
      bans := false } }
    let m := s.model.applying fun m =>
      (m.publishHeader nPowTargetSpacing now box.header).publishBlock box.block
    let m := m.updateSyncCompletion
    { s with
      model := m.publishNetwork box.network_active
      header_shown_at := if box.header.isSome then now else s.header_shown_at
      status_unseen := s.status_unseen && !(box.peers.isSome || box.warnings)
      bans_unseen := s.bans_unseen && !box.bans }

def detachNotifications : System :=
  { s with m_notifications := { s.m_notifications with receiver := false } }

def requestShutdown : System := { s with model := s.model.requestShutdown }

def beginShutdown : System :=
  if s.model.m_workers_stopping then s
  else
    let s := s.detachNotifications
    { s with model := { s.model with m_workers_stopping := true }.setNodeReady false }

def handleRunawayException : System :=
  { s with model := { s.model with
      m_backend_queries_ready := false, m_shutdown_requested := true, m_fatal_exception := true } }

/-- The end of a startup that succeeds. -/
def initialized (now : Int) (tip_info : BlockAndHeaderTipInfo) (initial_block_download : Bool) : System :=
  let saved := s.model.m_applying_sync_snapshot
  let s := { s with model := { s.model with
    m_backend_queries_ready := true, m_applying_sync_snapshot := true } }
  let s := s.publishNotifications nPowTargetSpacing now
  let m := s.model.applyTipInfo nPowTargetSpacing now tip_info initial_block_download
  { s with
    model := { m with m_applying_sync_snapshot := saved }.updateSyncCompletion
    header_shown_at := if s.model.m_seen_header_tip then s.header_shown_at else now
    download_ended := s.download_ended || !initial_block_download }

def initializeResult (now : Int) (success : Bool) (tip_info : BlockAndHeaderTipInfo)
    (initial_block_download shutdown_requested : Bool) : System :=
  if s.model.m_workers_stopping || s.model.m_fatal_exception then s
  else if success && (s.model.m_shutdown_requested || shutdown_requested) then s.requestShutdown
  else if !success then
    if s.model.m_startup_failure_dialog_shown || shutdown_requested then s.requestShutdown else s
  else s.initialized nPowTargetSpacing now tip_info initial_block_download

end System

inductive Event
  | blockTip (block : Block)
  | headerTip (header : Header)
  | numConnectionsChanged (total : Int)
  | networkActiveChanged (active : Bool)
  | alertChanged
  | bannedListChanged
  | deliver
  | publish (now : Int)
  /-- A network action ends that another command has superseded. -/
  | actionSuperseded (now : Int)
  | initializeResult (now : Int) (success : Bool) (tip_info : BlockAndHeaderTipInfo)
      (initial_block_download shutdown_requested : Bool)
  | startupFailureDialogShown
  | requestShutdown
  | beginShutdown
  | handleRunawayException

variable (nPowTargetSpacing : Int)

def step (s : System) : Event → System
  | .blockTip block => s.notifyBlockTip block
  | .headerTip header => s.notifyHeaderTip header
  | .numConnectionsChanged total => s.notifyNumConnectionsChanged total
  | .networkActiveChanged active => s.notifyNetworkActiveChanged active
  | .alertChanged => s.notifyAlertChanged
  | .bannedListChanged => s.notifyBannedListChanged
  | .deliver => s.deliver
  | .publish now => { s.publishNotifications nPowTargetSpacing now with delivering := false }
  | .actionSuperseded now =>
    if s.model.m_shutdown_requested then s else s.publishNotifications nPowTargetSpacing now
  | .initializeResult now success tip_info initial_block_download shutdown_requested =>
    s.initializeResult nPowTargetSpacing now success tip_info initial_block_download shutdown_requested
  | .startupFailureDialogShown => { s with model := { s.model with m_startup_failure_dialog_shown := true } }
  | .requestShutdown => s.requestShutdown
  | .beginShutdown => s.beginShutdown
  | .handleRunawayException => s.handleRunawayException

/-- Callbacks come at any time; the GUI thread finishes a delivery before it does anything else. -/
def Allowed (s : System) : Event → Prop
  | .blockTip _ | .headerTip _ | .numConnectionsChanged _ | .networkActiveChanged _ | .alertChanged
  | .bannedListChanged => True
  | .deliver => s.delivering = false ∧ 0 < s.deliveries
  | .publish _ => s.delivering = true
  | _ => s.delivering = false

def start (backend_ready : Bool) : System :=
  { model := { m_backend_queries_ready := backend_ready } }

end GuiQml.ChainSync
