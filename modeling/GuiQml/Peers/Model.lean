import GuiQml.Lib.Keyed
import Mathlib.Data.List.Count

/-!
# The peers and their details

`PeerListModel` holds what the node last said of its peers, and a `PeerDetailsModel` points into it. What stood
in the list before is freed when the list is replaced. The proxy makes the details and keeps them by the id of
the node. Its rows are those of the list model, which Qt maps.
-/

namespace GuiQml.Peers

structure CNodeStats where
  nodeid : Int
  m_addr_name : String := ""
  deriving DecidableEq, Repr

structure CNodeCombinedStats where
  nodeStats : CNodeStats
  fNodeStateStatsAvailable : Bool
  deriving DecidableEq, Repr

/-- A row of the list that stood once so many lists were freed. -/
structure StatsPtr where
  generation : Nat
  row : Nat
  deriving DecidableEq, Repr

/-- A `qint64` as an `int`. -/
def toInt (n : Int) : Int := n.bmod 4294967296

/-! ## The list -/

structure PeerListModel where
  m_peers_data : List CNodeCombinedStats := []
  /-- What `m_peers_data` held before, the last first. -/
  freed : List (List CNodeCombinedStats) := []
  m_backend_ready : Bool
  m_stopping : Bool := false
  m_auto_refresh_requested : Bool := false
  m_timer_active : Bool := false

inductive Slot
  | onModelDataChanged
  | onModelReset
  deriving DecidableEq, Repr

namespace PeerListModel

variable (model : PeerListModel)

/-- The address of a row, while the list stands. -/
def pointer (row : Nat) : StatsPtr := ⟨model.freed.length, row⟩

/-- What is read through a pointer, and nothing where it dangles. -/
def deref (p : StatsPtr) : Option CNodeCombinedStats :=
  if p.generation = model.freed.length then model.m_peers_data[p.row]? else none

/-- `data` at an index of the row. -/
def data (row : Int) : Option CNodeCombinedStats := if row < 0 then none else model.m_peers_data[row.toNat]?

def startAutoRefresh : PeerListModel :=
  if model.m_stopping then model
  else { model with
    m_auto_refresh_requested := true
    m_timer_active := if model.m_backend_ready then true else model.m_timer_active }

def stopAutoRefresh : PeerListModel := { model with m_auto_refresh_requested := false, m_timer_active := false }

def beginShutdown : PeerListModel := { model with m_stopping := true }.stopAutoRefresh

/-- The loop stops at the first row that holds another node. -/
def orderChanged : List CNodeCombinedStats → List CNodeCombinedStats → Bool
  | a :: as, b :: bs => if a.nodeStats.nodeid ≠ b.nodeStats.nodeid then true else orderChanged as bs
  | _, _ => false

/-- What the node replies, and the signal that the model emits once it has taken it up. -/
def refresh (nodes_stats : Option (List CNodeCombinedStats)) : PeerListModel × Option Slot :=
  if model.m_stopping || !model.m_backend_ready then (model, none)
  else match nodes_stats with
    | none => (model, none)
    | some new_peers_data =>
      let count_changed := model.m_peers_data.length != new_peers_data.length
      let order_changed := !count_changed && orderChanged model.m_peers_data new_peers_data
      let model' := { model with m_peers_data := new_peers_data, freed := model.m_peers_data :: model.freed }
      if count_changed || order_changed then (model', some .onModelReset)
      else if new_peers_data.length > 0 then (model', some .onModelDataChanged)
      else (model', none)

def backendInitialized (nodes_stats : Option (List CNodeCombinedStats)) : PeerListModel × Option Slot :=
  if model.m_stopping || model.m_backend_ready then (model, none)
  else
    let done := { model with m_backend_ready := true }.refresh nodes_stats
    (if done.1.m_auto_refresh_requested then { done.1 with m_timer_active := true } else done.1, done.2)

end PeerListModel

/-! ## The details of a peer -/

inductive Signal
  | dataChanged
  | disconnected
  deriving DecidableEq, Repr

structure PeerDetailsModel where
  m_row : Int := -1
  m_node_id : Int
  m_combinedStats : StatsPtr
  m_disconnected : Bool := false
  /-- How many lists had been freed when it was made. -/
  made : Nat
  deriving DecidableEq, Repr

/-- The row in which a loop over the rows finds the node. -/
def PeerListModel.rowOf (model : PeerListModel) (node_id : Int) : Option Nat :=
  model.m_peers_data.findIdx? fun rec => toInt rec.nodeStats.nodeid = node_id

namespace PeerDetailsModel

def new (model : PeerListModel) (rec : CNodeCombinedStats) (p : StatsPtr) : PeerDetailsModel where
  m_row := ((model.rowOf (toInt rec.nodeStats.nodeid)).map Int.ofNat).getD (-1)
  m_node_id := toInt rec.nodeStats.nodeid
  m_combinedStats := p
  made := model.freed.length

variable (model : PeerListModel) (details : PeerDetailsModel)

/-- It takes up a row, and says so where all of it is there. -/
def follow (row : Nat) : PeerDetailsModel × Option Signal :=
  ({ details with m_row := row, m_combinedStats := model.pointer row },
    if (model.deref (model.pointer row)).any (·.fNodeStateStatsAvailable) then some .dataChanged else none)

def disconnect : PeerDetailsModel × Option Signal :=
  if details.m_disconnected then (details, none) else ({ details with m_disconnected := true }, some .disconnected)

def onModelDataChanged : PeerDetailsModel × Option Signal :=
  match model.data details.m_row with
  | none => details.disconnect
  | some rec =>
    if toInt rec.nodeStats.nodeid ≠ details.m_node_id then details.disconnect
    else details.follow model details.m_row.toNat

def onModelReset : PeerDetailsModel × Option Signal :=
  if details.m_disconnected then (details, none)
  else match model.rowOf details.m_node_id with
    | some row => details.follow model row
    | none => details.disconnect

def call : Slot → PeerDetailsModel × Option Signal
  | .onModelDataChanged => details.onModelDataChanged model
  | .onModelReset => details.onModelReset model

end PeerDetailsModel

/-- The ids fit in an `int` and no two peers share one. -/
structure Numbered (peers : List CNodeCombinedStats) : Prop where
  keyed : Keyed (fun rec : CNodeCombinedStats => rec.nodeStats.nodeid) peers
  int : ∀ rec ∈ peers, -2147483648 ≤ rec.nodeStats.nodeid ∧ rec.nodeStats.nodeid < 2147483648

/-! ## The proxy -/

/-- Details that the proxy has made, with the id that its connection to their `disconnected` has captured. -/
structure Tracked where
  node_id : Int
  details : PeerDetailsModel
  deriving DecidableEq, Repr

/-- The objects are numbered as they are made. -/
structure System where
  model : PeerListModel
  objects : List Tracked := []
  m_detail_models : Int → Option Nat := fun _ => none
  /-- The slots that the signal of the list model has still to call. -/
  calls : List (Slot × Nat) := []
  /-- The objects that `deleteLater` was called for. -/
  posted : List Nat := []
  deleted : List Nat := []
  emitted : List (Nat × Signal) := []

inductive Event
  | startAutoRefresh
  | stopAutoRefresh
  | beginShutdown
  | backendInitialized (nodes_stats : Option (List CNodeCombinedStats))
  | refresh (nodes_stats : Option (List CNodeCombinedStats))
  /-- The signal of the list model reaches the next of the details. -/
  | slot
  /-- The details are asked for, at a row of the list model. -/
  | peerDetailsAt (source_row : Nat)
  /-- The event loop destroys what it was asked to. -/
  | deferredDelete
  deriving DecidableEq, Repr

namespace System

variable (s : System)

/-- A signal reaches the details that are there when it is emitted, in the order in which they were made. -/
def emit (done : PeerListModel × Option Slot) : System :=
  { s with
    model := done.1
    calls := match done.2 with
      | none => s.calls
      | some slot => ((List.range s.objects.length).filter fun o => !s.deleted.contains o).map (slot, ·) }

/-- What the proxy connects to the signal. -/
def onDisconnected (node_id : Int) (details : Nat) : System :=
  { s with
    m_detail_models := fun k =>
      if k = node_id ∧ s.m_detail_models node_id = some details then none else s.m_detail_models k
    posted := s.posted ++ [details] }

def callSlot (slot : Slot) (o : Nat) : System :=
  match s.objects[o]? with
  | none => s
  | some tracked =>
    let done := tracked.details.call s.model slot
    let s' := { s with
      objects := s.objects.set o { tracked with details := done.1 }
      emitted := s.emitted ++ (done.2.map (o, ·)).toList }
    if done.2 = some .disconnected then s'.onDisconnected tracked.node_id o else s'

/-- The entry of a hash of `QPointer`s, which is null once the object is gone. -/
def existing (node_id : Int) : Option Nat := (s.m_detail_models node_id).filter fun o => !s.deleted.contains o

def peerDetailsAt (source_row : Nat) : System × Option Nat :=
  let rec? := s.model.m_peers_data[source_row]?
  let node_id := (rec?.map fun rec => rec.nodeStats.nodeid).getD 0
  match s.existing node_id with
  | some o => (s, some o)
  | none => match rec? with
    | none => (s, none)
    | some rec =>
      let details := PeerDetailsModel.new s.model rec (s.model.pointer source_row)
      let o := s.objects.length
      ({ s with
        objects := s.objects ++ [⟨node_id, details⟩]
        m_detail_models := fun k => if k = node_id then some o else s.m_detail_models k }, some o)

def step (s : System) : Event → System
  | .startAutoRefresh => { s with model := s.model.startAutoRefresh }
  | .stopAutoRefresh => { s with model := s.model.stopAutoRefresh }
  | .beginShutdown => { s with model := s.model.beginShutdown }
  | .backendInitialized nodes_stats => s.emit (s.model.backendInitialized nodes_stats)
  | .refresh nodes_stats => s.emit (s.model.refresh nodes_stats)
  | .slot => match s.calls with
    | [] => s
    | (slot, o) :: calls => { s with calls }.callSlot slot o
  | .peerDetailsAt source_row => (s.peerDetailsAt source_row).1
  | .deferredDelete => { s with deleted := s.deleted ++ s.posted, posted := [] }

/-- The list model as it is constructed, with the reply to its first `refresh`. -/
def start (backend_ready : Bool) (nodes_stats : Option (List CNodeCombinedStats)) : System :=
  { model := (({ m_backend_ready := backend_ready } : PeerListModel).refresh nodes_stats).1 }

/-- The thread of the models is done with a signal before it comes back to its event loop. -/
def Allowed (s : System) : Event → Prop
  | .refresh nodes_stats | .backendInitialized nodes_stats =>
    s.calls = [] ∧ ∀ peers, nodes_stats = some peers → Numbered peers
  | .deferredDelete => s.calls = []
  | _ => True

end System

end GuiQml.Peers
