import GuiQml.Lib.Reach
import Mathlib.Data.Finset.Insert

/-!
# The shutdown of the application

`QmlShutdownCoordinator` and `QmlInitExecutor`, with the workers of its two executors. What is called and
what is emitted is written down. What the worker finds out, where it throws and what the participants do
is open.
-/

namespace GuiQml.Shutdown

structure Participant where
  before_interrupt : Bool
  number : Nat
  deriving DecidableEq

inductive Note
  | begun (participant : Participant)
  /-- The participant emits that it has finished. -/
  | signalled (participant : Participant)
  | appInitMain
  | appInitMainReturned
  | subscribed
  | unsubscribed
  | startShutdown
  | startShutdownReturned
  | appShutdown
  | appShutdownReturned
  | shutdownResult
  | finished
  deriving DecidableEq

/-! ## Executors -/

/-- A `BackendExecutor` with one worker, which is at some stage of the task it runs. -/
structure Executor (Task Stage Result : Type) where
  /-- Oldest first. -/
  waiting : List Task := []
  running : Option Stage := none
  /-- What the GUI has not collected, oldest first. -/
  returned : List Result := []
  m_stopping : Bool := false
  m_drained : Bool := false

namespace Executor

variable {Task Stage Result : Type} (e : Executor Task Stage Result)

def submit (task : Task) : Executor Task Stage Result :=
  if e.m_stopping then e else { e with waiting := e.waiting ++ [task] }

/-- The worker ends its task. Once the executor stops nobody collects the result. -/
def ends (result : Result) : Executor Task Stage Result :=
  { e with running := none, returned := if e.m_stopping then [] else e.returned ++ [result] }

def shutdown : Executor Task Stage Result := { e with m_stopping := true, returned := [] }

end Executor

/-! ## The initialisation, the interruption and the shutdown of the node -/

inductive InitTask
  | initializeNode
  | shutdown
  deriving DecidableEq

inductive InitStage
  | appInitMain
  /-- It has returned. -/
  | subscribe (success : Bool)
  | results
  | appShutdown
  deriving DecidableEq

inductive InitResult
  | initialized
  | completed (completed : Bool)
  | threw
  deriving DecidableEq

inductive InterruptResult
  | interrupted
  | threw
  deriving DecidableEq

structure WorkerState where
  pending_subscription_factory : Bool
  subscription : Bool := false
  stopping : Bool := false
  initialization_threw : Bool := false

structure QmlInitExecutor where
  m_worker_state : WorkerState
  m_init_and_shutdown_executor : Executor InitTask InitStage InitResult := {}
  m_interrupt_executor : Executor Unit Unit InterruptResult := {}
  m_initialize_requested : Bool := false
  m_interrupt_requested : Bool := false
  m_shutdown_requested : Bool := false
  m_app_shutdown_complete : Bool := false
  m_shutdown_result_emitted : Bool := false
  m_runaway_exception : Bool := false

namespace QmlInitExecutor

variable (e : QmlInitExecutor)

/-- `initialize`. -/
def initializeNode : QmlInitExecutor :=
  if e.m_initialize_requested || e.m_shutdown_requested || e.m_runaway_exception then e
  else
    { e with
      m_initialize_requested := true
      m_init_and_shutdown_executor := e.m_init_and_shutdown_executor.submit .initializeNode }

def interrupt : QmlInitExecutor :=
  if e.m_interrupt_requested || e.m_runaway_exception then e
  else
    { e with
      m_interrupt_requested := true
      m_worker_state := { e.m_worker_state with stopping := true }
      m_interrupt_executor := e.m_interrupt_executor.submit () }

def shutdown : QmlInitExecutor :=
  if e.m_shutdown_requested || e.m_runaway_exception then e
  else
    { e with
      m_shutdown_requested := true
      m_worker_state := { e.m_worker_state with stopping := true }
      m_init_and_shutdown_executor := e.m_init_and_shutdown_executor.submit .shutdown }

end QmlInitExecutor

/-! ## The coordinator -/

structure QmlShutdownCoordinator where
  m_pending_participants : Int := 0
  m_shutdown_requested : Bool := false
  m_draining_after_interrupt : Bool := false
  m_draining_before_interrupt : Bool := false
  /-- The participants whose signal was counted. -/
  completed : Finset Participant := ∅

structure System where
  coordinator : QmlShutdownCoordinator := {}
  executor : QmlInitExecutor
  /-- The participants that are still to be begun, in order. -/
  to_begin : List Participant := []
  /-- The callbacks of `shutdownAll` that have not run. -/
  callbacks : Nat := 0
  /-- Newest first. -/
  journal : List Note := []

def start (subscribes : Bool) : System :=
  { executor := { m_worker_state := { pending_subscription_factory := subscribes } } }

/-- What was added before, in order. -/
def participants (before_interrupt : Bool) (count : Nat) : List Participant :=
  (List.range count).map (⟨before_interrupt, ·⟩)

inductive Event
  | initializeNode
  | requestShutdown
  /-- The next participant is begun. What happens before the one after it may happen inside this one. -/
  | begin
  | signal (participant : Participant)
  /-- The worker takes its next task. A shutdown may throw at once. -/
  | takeInit (throws : Bool)
  | appInitMainReturns (success : Bool)
  | appInitMainThrows
  | subscribe (node_shutdown_requested throws : Bool)
  | results (throws : Bool)
  | appShutdownReturns
  | appShutdownThrows
  | collectInit
  | takeInterrupt
  /-- After it has returned the task may still throw. -/
  | startShutdownReturns (throws : Bool)
  | startShutdownThrows
  | collectInterrupt
  | drainInit
  | drainInterrupt
  /-- The callback of `shutdownAll` runs. -/
  | allDrained

namespace System

variable (s : System)

def note (note : Note) : System := { s with journal := note :: s.journal }

def finishShutdown : System :=
  if s.executor.m_runaway_exception || !s.executor.m_app_shutdown_complete ||
      s.executor.m_shutdown_result_emitted then s
  else if !s.executor.m_init_and_shutdown_executor.m_drained || !s.executor.m_interrupt_executor.m_drained then
    s
  else
    { s with
      executor := { s.executor with m_shutdown_result_emitted := true }
      callbacks := s.callbacks + 1 }.note .shutdownResult

def handleRunawayException : System :=
  { s with executor := { s.executor with m_runaway_exception := true } }

/-! ### Participants -/

def participantFinished (before_interrupt : Bool) : System :=
  let coordinator :=
    { s.coordinator with m_pending_participants := s.coordinator.m_pending_participants - 1 }
  if coordinator.m_pending_participants ≠ 0 then { s with coordinator }
  else if before_interrupt then
    { s with
      coordinator := { coordinator with m_draining_before_interrupt := false }
      executor := s.executor.interrupt }
  else { s with coordinator, executor := s.executor.shutdown }

/-- The handler of the signal of a participant. -/
def handleSignal (participant : Participant) : System :=
  let draining :=
    if participant.before_interrupt then s.coordinator.m_draining_before_interrupt
    else s.coordinator.m_draining_after_interrupt
  if !draining || participant ∈ s.coordinator.completed then s
  else
    { s with coordinator := { s.coordinator with
        completed := insert participant s.coordinator.completed }
      }.participantFinished participant.before_interrupt

def requestShutdown (before : Nat) : System :=
  if s.coordinator.m_shutdown_requested then s
  else
    let coordinator := { s.coordinator with
      m_shutdown_requested := true
      m_pending_participants := before }
    if before = 0 then { s with coordinator, executor := s.executor.interrupt }
    else
      { s with
        coordinator := { coordinator with m_draining_before_interrupt := true }
        to_begin := participants true before ++ s.to_begin }

def drainAfterInterrupt (after : Nat) : System :=
  if s.coordinator.m_draining_after_interrupt then s
  else
    let coordinator := { s.coordinator with
      m_draining_after_interrupt := true
      m_pending_participants := after }
    if after = 0 then { s with coordinator, executor := s.executor.shutdown }
    else { s with coordinator, to_begin := participants false after ++ s.to_begin }

def begin : System :=
  match s.to_begin with
  | participant :: to_begin => { s with to_begin }.note (.begun participant)
  | [] => s

/-! ### The worker of the initialisation and the shutdown -/

def withInit (e : Executor InitTask InitStage InitResult) : System :=
  { s with executor := { s.executor with m_init_and_shutdown_executor := e } }

def initializationThrew : System :=
  { s with executor := { s.executor with
      m_worker_state := { s.executor.m_worker_state with initialization_threw := true }
      m_init_and_shutdown_executor := s.executor.m_init_and_shutdown_executor.ends .threw } }

def retireSubscription : System :=
  let retired := { s with executor := { s.executor with
    m_worker_state := { s.executor.m_worker_state with
      subscription := false
      pending_subscription_factory := false } } }
  if s.executor.m_worker_state.subscription then retired.note .unsubscribed else retired

def takeInit (throws : Bool) : System :=
  let e := s.executor.m_init_and_shutdown_executor
  match e.running, e.waiting with
  | none, .initializeNode :: waiting =>
    (s.withInit { e with waiting, running := some .appInitMain }).note .appInitMain
  | none, .shutdown :: waiting =>
    if s.executor.m_worker_state.initialization_threw then
      s.withInit ({ e with waiting }.ends (.completed false))
    else if throws then s.withInit ({ e with waiting }.ends .threw)
    else
      (s.withInit { e with waiting, running := some .appShutdown }).retireSubscription.note .appShutdown
  | _, _ => s

def appInitMainReturns (success : Bool) : System :=
  let e := s.executor.m_init_and_shutdown_executor
  match e.running with
  | some .appInitMain => (s.withInit { e with running := some (.subscribe success) }).note .appInitMainReturned
  | _ => s

def appInitMainThrows : System :=
  match s.executor.m_init_and_shutdown_executor.running with
  | some .appInitMain => s.initializationThrew
  | _ => s

def subscribe (node_shutdown_requested throws : Bool) : System :=
  let e := s.executor.m_init_and_shutdown_executor
  let state := s.executor.m_worker_state
  match e.running with
  | some (.subscribe success) =>
    if success && state.pending_subscription_factory && !state.stopping && !node_shutdown_requested then
      let s := { s with executor := { s.executor with
        m_worker_state := { state with pending_subscription_factory := false } } }
      if throws then s.initializationThrew
      else
        { s with executor := { s.executor with
            m_worker_state := { s.executor.m_worker_state with subscription := true }
            m_init_and_shutdown_executor := { e with running := some .results } } }.note .subscribed
    else if throws then s.initializationThrew
    else s.withInit { e with running := some .results }
  | _ => s

def results (throws : Bool) : System :=
  match s.executor.m_init_and_shutdown_executor.running with
  | some .results =>
    if throws then s.initializationThrew
    else s.withInit (s.executor.m_init_and_shutdown_executor.ends .initialized)
  | _ => s

def appShutdownReturns : System :=
  match s.executor.m_init_and_shutdown_executor.running with
  | some .appShutdown =>
    (s.withInit (s.executor.m_init_and_shutdown_executor.ends (.completed true))).note .appShutdownReturned
  | _ => s

def appShutdownThrows : System :=
  match s.executor.m_init_and_shutdown_executor.running with
  | some .appShutdown => s.withInit (s.executor.m_init_and_shutdown_executor.ends .threw)
  | _ => s

def shutdownDone (completed : Bool) : System :=
  if !completed then s
  else
    { s with executor := { s.executor with
        m_app_shutdown_complete := true
        m_init_and_shutdown_executor := s.executor.m_init_and_shutdown_executor.shutdown
        m_interrupt_executor := s.executor.m_interrupt_executor.shutdown } }

def collectInit : System :=
  let e := s.executor.m_init_and_shutdown_executor
  match e.returned with
  | .initialized :: returned => s.withInit { e with returned }
  | .completed completed :: returned => (s.withInit { e with returned }).shutdownDone completed
  | .threw :: returned => (s.withInit { e with returned }).handleRunawayException
  | [] => s

def drainInit : System :=
  let e := s.executor.m_init_and_shutdown_executor
  if e.m_stopping && e.waiting.isEmpty && e.running.isNone && !e.m_drained then
    (s.withInit { e with m_drained := true }).finishShutdown
  else s

/-! ### The worker of the interruption -/

def withInterrupt (e : Executor Unit Unit InterruptResult) : System :=
  { s with executor := { s.executor with m_interrupt_executor := e } }

def takeInterrupt : System :=
  let e := s.executor.m_interrupt_executor
  match e.running, e.waiting with
  | none, _ :: waiting => (s.withInterrupt { e with waiting, running := some () }).note .startShutdown
  | _, _ => s

def startShutdownReturns (throws : Bool) : System :=
  let e := s.executor.m_interrupt_executor
  match e.running with
  | some _ =>
    (s.withInterrupt (e.ends (if throws then .threw else .interrupted))).note .startShutdownReturned
  | none => s

def startShutdownThrows : System :=
  let e := s.executor.m_interrupt_executor
  match e.running with
  | some _ => s.withInterrupt (e.ends .threw)
  | none => s

def collectInterrupt (after : Nat) : System :=
  let e := s.executor.m_interrupt_executor
  match e.returned with
  | .interrupted :: returned =>
    let s := s.withInterrupt { e with returned }
    if !s.executor.m_runaway_exception then s.drainAfterInterrupt after else s
  | .threw :: returned => (s.withInterrupt { e with returned }).handleRunawayException
  | [] => s

def drainInterrupt : System :=
  let e := s.executor.m_interrupt_executor
  if e.m_stopping && e.waiting.isEmpty && e.running.isNone && !e.m_drained then
    (s.withInterrupt { e with m_drained := true }).finishShutdown
  else s

def allDrained : System :=
  match s.callbacks with
  | callbacks + 1 => { s with callbacks }.note .finished
  | 0 => s

end System

/-- The step of a system with that many participants before and after the interruption. -/
def step (before after : Nat) (s : System) : Event → System
  | .initializeNode => { s with executor := s.executor.initializeNode }
  | .requestShutdown => s.requestShutdown before
  | .begin => s.begin
  | .signal participant => (s.note (.signalled participant)).handleSignal participant
  | .takeInit throws => s.takeInit throws
  | .appInitMainReturns success => s.appInitMainReturns success
  | .appInitMainThrows => s.appInitMainThrows
  | .subscribe node_shutdown_requested throws => s.subscribe node_shutdown_requested throws
  | .results throws => s.results throws
  | .appShutdownReturns => s.appShutdownReturns
  | .appShutdownThrows => s.appShutdownThrows
  | .collectInit => s.collectInit
  | .takeInterrupt => s.takeInterrupt
  | .startShutdownReturns throws => s.startShutdownReturns throws
  | .startShutdownThrows => s.startShutdownThrows
  | .collectInterrupt => s.collectInterrupt after
  | .drainInit => s.drainInit
  | .drainInterrupt => s.drainInterrupt
  | .allDrained => s.allDrained

end GuiQml.Shutdown
