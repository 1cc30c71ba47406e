import GuiQml.Lib.Feed
import GuiQml.Lib.Reach

/-!
# Pausing the network

The part of `NodeModel` that shows and sets whether the node's network is active, before a shutdown. Of
the notifications about peers, warnings and the chain only that they ask for a status read is kept, of a
status read only the network. A change of the network and its notification are two steps; who posts a
notification, and when, is left open.
-/

namespace GuiQml.Network

open Feeds

structure Notifications where
  delivery_pending : Bool := false
  peers : Bool := false
  network_active : Option Bool := none
  warnings : Bool := false
  status_generation : Nat := 0
  network_generation : Nat := 0

inductive StatusResult
  | read (network_active : Option Bool)
  | threw

/-- The status read that is submitted, with its result once the worker is done. -/
structure StatusRead where
  generation : Nat
  network_generation : Nat
  ready : Bool
  result : Option StatusResult := none

inductive Stage
  | submitted
  /-- `setNetworkActive` was called. -/
  | set
  | counted (generation : Nat)
  | returned (paused : Bool) (generation : Nat)
  | threw
  deriving DecidableEq

structure NetworkAction where
  requested : Bool
  stage : Stage := .submitted

structure NodeModel where
  m_backend_queries_ready : Bool := false
  m_node_ready : Bool := false
  m_status_pending : Bool := false
  m_status_again : Bool := false
  m_network_known : Bool := false
  m_network_action_pending : Bool := false
  m_network_desired_pause : Bool := false
  m_network_action_error : String := ""
  m_pause : Bool := false

structure System where
  model : NodeModel := {}
  m_notifications : Notifications := {}
  status : Option StatusRead := none
  action : Option NetworkAction := none
  /-- The network state of the node. -/
  active : Bool
  /-- What the changes of it still have to notify, oldest first. -/
  unposted : List Bool := []
  /-- What the last `setPause` asked for, unless the network was changed from outside since. -/
  asked : Option Bool := none

namespace System

variable (s : System)

def feed : Feed Bool :=
  ⟨s.active, s.unposted, s.m_notifications.network_generation, s.m_notifications.network_active⟩

/-- Core notifies a change only. -/
def setNetworkActive (active : Bool) : System :=
  if s.active = active then s else { s with active, unposted := s.unposted ++ [active] }

/-! ## Notifications -/

def schedule : System :=
  { s with m_notifications := { s.m_notifications with delivery_pending := true } }

def notifyNetworkActiveChanged (active : Bool) : System :=
  { s with m_notifications := { s.m_notifications with
      network_active := some active
      network_generation := s.m_notifications.network_generation + 1
      status_generation := s.m_notifications.status_generation + 1 } }.schedule

def notifyNumConnectionsChanged : System :=
  { s with m_notifications := { s.m_notifications with
      peers := true
      status_generation := s.m_notifications.status_generation + 1 } }.schedule

def notifyAlertChanged : System :=
  { s with m_notifications := { s.m_notifications with
      warnings := true
      status_generation := s.m_notifications.status_generation + 1 } }.schedule

def refreshStatus : System :=
  if !s.model.m_backend_queries_ready then s
  else if s.model.m_status_pending then { s with model := { s.model with m_status_again := true } }
  else
    { s with
      model := { s.model with m_status_pending := true }
      status := some
        { generation := s.m_notifications.status_generation
          network_generation := s.m_notifications.network_generation
          ready := s.model.m_node_ready } }

def showNetwork (paused : Bool) : System :=
  { s with model := { s.model with m_network_known := true, m_pause := paused } }

def publishNotifications : System :=
  let box := s.m_notifications
  let s := { s with m_notifications := { box with
      peers := false, network_active := none, warnings := false } }
  let s := if box.peers || box.warnings then s.refreshStatus else s
  match box.network_active with
  | some network_active => s.showNetwork !network_active
  | none => s

/-- The delivery that `schedule` has queued. -/
def deliver : System :=
  { s with m_notifications := { s.m_notifications with delivery_pending := false } }.publishNotifications

/-! ## Status reads -/

def statusReturned (read : StatusRead) (network_active : Option Bool) : System :=
  let s := { s with model := { s.model with m_status_pending := false }, status := none }
  let current : Bool := read.generation = s.m_notifications.status_generation
  let s := match network_active with
    | some active =>
      if read.network_generation = s.m_notifications.network_generation then s.showNetwork !active else s
    | none => s
  let again := s.model.m_status_again
  let s := { s with model := { s.model with m_status_again := false } }
  if again || !current then s.refreshStatus else s

def statusThrew : System :=
  let s := { s with model := { s.model with m_status_pending := false }, status := none }
  let again := s.model.m_status_again
  let s := { s with model := { s.model with m_status_again := false } }
  if again then s.refreshStatus else s

/-! ## Network actions -/

def submitNetworkAction : System :=
  { s with action := some { requested := s.model.m_network_desired_pause } }

def setPause (new_pause : Bool) : System :=
  if !s.model.m_backend_queries_ready then s
  else
    let s := { s with
      model := { s.model with m_network_desired_pause := new_pause }
      asked := some new_pause }
    if s.model.m_network_action_pending || s.model.m_pause = new_pause then s
    else
      { s with model := { s.model with
          m_network_action_pending := true
          m_network_action_error := "" } }.submitNetworkAction

def actionReturned (requested paused : Bool) (generation : Nat) : System :=
  let current : Bool := generation = s.m_notifications.network_generation
  let s := if current then s.showNetwork paused else s.publishNotifications.refreshStatus
  if s.model.m_network_desired_pause ≠ requested then s.submitNetworkAction
  else
    { s with
      model := { s.model with
        m_network_action_pending := false
        m_network_action_error :=
          if current && paused ≠ requested then "Unable to change network activity."
          else s.model.m_network_action_error }
      action := none }

def actionThrew : System :=
  { s with
    model := { s.model with
      m_network_action_pending := false
      m_network_action_error := "Unable to change network activity." }
    action := none }

/-- The next step of the worker on the action. -/
def work (action : NetworkAction) : System :=
  match action.stage with
  | .submitted =>
    { s.setNetworkActive (!action.requested) with action := some { action with stage := .set } }
  | .set =>
    { s with action := some { action with stage := .counted s.m_notifications.network_generation } }
  | .counted generation =>
    { s with action := some { action with stage := .returned (!s.active) generation } }
  | .returned .. | .threw => s

/-- The last part of a startup that succeeds. -/
def initializeResult : System :=
  let s := { s with model := { s.model with m_backend_queries_ready := true } }
  let s := s.publishNotifications
  { s with model := { s.model with m_node_ready := true } }.refreshStatus

end System

inductive Event
  | initializeResult
  | setPause (new_pause : Bool)
  /-- The network is changed from outside. -/
  | change (active : Bool)
  /-- The next notification of a change is posted. -/
  | post
  | numConnectionsChanged
  | alertChanged
  | deliver
  | readStatus
  | throwStatus
  | completeStatus
  | work
  | throwAction
  | completeAction
  deriving DecidableEq

def step (s : System) : Event → System
  | .initializeResult => s.initializeResult
  | .setPause new_pause => s.setPause new_pause
  | .change active =>
    if s.active = active then s else { s.setNetworkActive active with asked := none }
  | .post =>
    match s.unposted with
    | [] => s
    | active :: unposted => { s with unposted }.notifyNetworkActiveChanged active
  | .numConnectionsChanged => s.notifyNumConnectionsChanged
  | .alertChanged => s.notifyAlertChanged
  | .deliver => if s.m_notifications.delivery_pending then s.deliver else s
  | .readStatus =>
    match s.status with
    | some read =>
      if read.result.isNone then
        { s with status := some { read with
            result := some (.read (if read.ready then some s.active else none)) } }
      else s
    | none => s
  | .throwStatus =>
    match s.status with
    | some read =>
      if read.result.isNone then { s with status := some { read with result := some .threw } } else s
    | none => s
  | .completeStatus =>
    match s.status with
    | some read =>
      match read.result with
      | some (.read network_active) => s.statusReturned read network_active
      | some .threw => s.statusThrew
      | none => s
    | none => s
  | .work =>
    match s.action with
    | some action => s.work action
    | none => s
  | .throwAction =>
    match s.action with
    | some action =>
      match action.stage with
      | .returned .. | .threw => s
      | _ => { s with action := some { action with stage := .threw } }
    | none => s
  | .completeAction =>
    match s.action with
    | some action =>
      match action.stage with
      | .returned paused generation => s.actionReturned action.requested paused generation
      | .threw => s.actionThrew
      | _ => s
    | none => s

/-- No command, status read or notification is pending. -/
structure Quiet (s : System) : Prop where
  action : s.action = none
  status : s.status = none
  unposted : s.unposted = []
  delivery : s.m_notifications.delivery_pending = false

end GuiQml.Network
