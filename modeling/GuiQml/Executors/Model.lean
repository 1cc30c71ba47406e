import GuiQml.Lib.Reach
import Mathlib.Data.Finset.Erase
import Mathlib.Data.Finset.Insert
import Mathlib.Logic.Function.Basic

/-!
# The model of the executors

Any number of `BackendExecutor`s, the registry they are in, and the threads that are being joined. Tasks,
completions and the callers of `JoinThreadAsync` are open: a handler that runs code of others is cut there,
and what this code does are the events up to the rest of the handler.
-/

namespace GuiQml.Executors

inductive Outcome
  | returned
  | threw
  deriving DecidableEq

/-- What is kept of a task for the GUI. -/
structure Task (R : Type) where
  receiver : R
  has_failed : Bool

/-- A call that is queued for the worker. -/
inductive WorkerEvent
  | runTask (id : Nat)
  | releaseTask (id : Nat)
  | releaseAllTasks
  deriving DecidableEq

def WorkerEvent.task : WorkerEvent → Option Nat
  | .runTask id => some id
  | _ => none

/-- How far the thread of an executor is. -/
inductive Stage
  | running
  | quitPosted
  | quitting
  | finished
  | joining
  | gone
  deriving DecidableEq

structure BackendExecutor (R : Type) where
  alive : Bool := true
  /-- Oldest first. -/
  m_gui_completions : List (Nat × Task R) := []
  m_next_task_id : Nat := 0
  m_stopping : Bool := false
  m_drained : Bool := false
  /-- Oldest first. -/
  queue : List WorkerEvent := []
  m_retained_tasks : List Nat := []
  current : Option Nat := none
  /-- The `completed` signals that are not delivered, oldest first. -/
  completed : List (Nat × Outcome) := []
  /-- The completions whose handler is not over. -/
  returning : List Nat := []
  thread : Stage := .running

/-- A thread that is being joined: that of an executor, or one of another owner with its receiver. -/
inductive Joining (E R : Type)
  | executor (e : E)
  | other (number : Nat) (receiver : R)
  deriving DecidableEq

inductive Note (E R : Type)
  | registered (e : E)
  | unregistered (e : E)
  | accepted (e : E) (id : Nat) (receiver : R)
  | refused (e : E)
  | ran (e : E) (id : Nat)
  | returned (e : E) (id : Nat)
  | threw (e : E) (id : Nat)
  | done (e : E) (id : Nat)
  | failed (e : E) (id : Nat)
  | shutdown (e : E)
  | drained (e : E)
  | destroyed (receiver : R)
  | joinStarted (joining : Joining E R)
  | joinEnded (joining : Joining E R)
  | notified (number : Nat) (receiver : R)
  | asked (number : Nat) (receiver : R)
  /-- The callback is queued for its receiver. -/
  | queued (number : Nat)
  deriving DecidableEq

/-- What is left to do in a handler. -/
inductive Call
  | notifyExecutors
  | notifyJoins
  deriving DecidableEq

structure System (E R : Type) where
  executors : E → Option (BackendExecutor R) := fun _ => none
  owners_by_thread : List E := []
  /-- The callbacks of `shutdownAll` in the registry of the executors, with their numbers. -/
  drain_callbacks : List (Nat × R) := []
  pending_joins : Int := 0
  /-- Those in the registry of the joins. -/
  join_callbacks : List (Nat × R) := []
  joining : Finset (Joining E R) := ∅
  next_join : Nat := 0
  next_callback : Nat := 0
  destroyed : Finset R := ∅
  calls : List Call := []
  /-- Newest first. -/
  journal : List (Note E R) := []

inductive Event (E R : Type)
  | construct (e : E)
  | submit (e : E) (task : Task R)
  | shutdown (e : E)
  /-- The destructor. -/
  | destroy (e : E)
  | destroyReceiver (receiver : R)
  | work (e : E)
  | taskReturns (e : E)
  | taskThrows (e : E)
  | completed (e : E)
  | afterCompletion (e : E)
  | quit (e : E)
  | finish (e : E)
  | finished (e : E)
  | joinThread (receiver : R)
  | joined (joining : Joining E R)
  | call
  | shutdownAll (receiver : R)

namespace System

variable {E R : Type} [DecidableEq E] [DecidableEq R] (s : System E R)

def note (note : Note E R) : System E R := { s with journal := note :: s.journal }

def set (e : E) (x : BackendExecutor R) : System E R :=
  { s with executors := Function.update s.executors e (some x) }

/-! ## The GUI side of an executor -/

def construct (e : E) : System E R :=
  match s.executors e with
  | some _ => s
  | none => ({ s with owners_by_thread := s.owners_by_thread ++ [e] }.set e {}).note (.registered e)

/-- `enqueue`, and what it returns. -/
def submit (e : E) (task : Task R) : System E R :=
  match s.executors e with
  | some x =>
    if !x.alive then s
    else if x.m_stopping then s.note (.refused e)
    else
      let id := x.m_next_task_id + 1
      (s.set e { x with
        m_next_task_id := id
        m_gui_completions := x.m_gui_completions ++ [(id, task)]
        queue := x.queue ++ [.runTask id] }).note (.accepted e id task.receiver)
  | none => s

def shutdown (e : E) : System E R :=
  match s.executors e with
  | some x =>
    if !x.alive || x.m_stopping then s
    else
      (s.set e { x with
        m_stopping := true
        m_gui_completions := []
        queue := x.queue ++ [.releaseAllTasks] }).note (.shutdown e)
  | none => s

/-- What was posted to the executor goes with it. -/
def destroy (e : E) : System E R :=
  let s := s.shutdown e
  match s.executors e with
  | some x => s.set e { x with alive := false, completed := [] }
  | none => s

/-- The handler of `completed`, up to the end of the completion. -/
def completed (e : E) : System E R :=
  match s.executors e with
  | some x =>
    match x.alive, x.completed with
    | true, (id, outcome) :: completed =>
      match x.m_gui_completions.lookup id with
      | none => s.set e { x with completed }
      | some task =>
        let s := s.set e { x with
          completed
          m_gui_completions := x.m_gui_completions.filter (·.1 ≠ id)
          returning := id :: x.returning }
        if task.receiver ∈ s.destroyed then s
        else
          match outcome with
          | .returned => s.note (.done e id)
          | .threw => if task.has_failed then s.note (.failed e id) else s
    | _, _ => s
  | none => s

/-- The rest of that handler. -/
def afterCompletion (e : E) : System E R :=
  match s.executors e with
  | some x =>
    match x.returning with
    | id :: returning =>
      let x := { x with returning }
      if !x.alive || x.m_stopping then s.set e x
      else s.set e { x with queue := x.queue ++ [.releaseTask id] }
    | [] => s
  | none => s

/-! ## The worker -/

/-- The worker takes its next event. Behind `releaseAllTasks` nothing is queued. -/
def work (e : E) : System E R :=
  match s.executors e with
  | some x =>
    match x.thread, x.current, x.queue with
    | .running, none, .runTask id :: queue =>
      (s.set e { x with queue, current := some id, m_retained_tasks := x.m_retained_tasks ++ [id] }).note
        (.ran e id)
    | .running, none, .releaseTask id :: queue =>
      s.set e { x with queue, m_retained_tasks := x.m_retained_tasks.filter (· ≠ id) }
    | .running, none, .releaseAllTasks :: queue =>
      s.set e { x with queue, m_retained_tasks := [], thread := .quitPosted }
    | _, _, _ => s
  | none => s

/-- Once the executor stops, nobody is connected to `completed`. -/
def taskEnds (e : E) (outcome : Outcome) : System E R :=
  match s.executors e with
  | some x =>
    match x.current with
    | some id =>
      (s.set e { x with
        current := none
        completed :=
          if x.alive && !x.m_stopping then x.completed ++ [(id, outcome)] else x.completed }).note
        (match outcome with
          | .returned => .returned e id
          | .threw => .threw e id)
    | none => s
  | none => s

def quit (e : E) : System E R :=
  match s.executors e with
  | some x => if x.thread = .quitPosted then s.set e { x with thread := .quitting } else s
  | none => s

def finish (e : E) : System E R :=
  match s.executors e with
  | some x => if x.thread = .quitting then s.set e { x with thread := .finished } else s
  | none => s

/-! ## Joins -/

def joinThreadAsync (joining : Joining E R) : System E R :=
  { s with
    pending_joins := s.pending_joins + 1
    joining := insert joining s.joining }.note (.joinStarted joining)

/-- The handler of `QThread::finished`. -/
def finished (e : E) : System E R :=
  match s.executors e with
  | some x =>
    if x.thread = .finished then (s.set e { x with thread := .joining }).joinThreadAsync (.executor e) else s
  | none => s

def joinThread (receiver : R) : System E R :=
  { s with next_join := s.next_join + 1 }.joinThreadAsync (.other s.next_join receiver)

/-- A callback is queued, unless its receiver is gone. -/
def queueCallback (callback : Nat × R) : System E R :=
  if callback.2 ∈ s.destroyed then s else s.note (.queued callback.1)

def notifyJoins : System E R :=
  if s.pending_joins ≠ 0 then s else s.join_callbacks.foldl queueCallback { s with join_callbacks := [] }

def waitForThreadJoins (callback : Nat × R) : System E R :=
  { s with join_callbacks := s.join_callbacks ++ [callback] }.notifyJoins

/-- A callback is passed on to the joins, unless its receiver is gone. -/
def passOn (callback : Nat × R) : System E R :=
  if callback.2 ∈ s.destroyed then s else s.waitForThreadJoins callback

def notifyExecutors : System E R :=
  if !s.owners_by_thread.isEmpty then s else s.drain_callbacks.foldl passOn { s with drain_callbacks := [] }

/-- What an executor does once its thread is joined, up to the end of `drained`. -/
def executorJoined (e : E) : System E R :=
  let s := { s with owners_by_thread := s.owners_by_thread.filter (· ≠ e) }.note (.unregistered e)
  match s.executors e with
  | some x =>
    if x.alive then (s.set e { x with thread := .gone, m_drained := true }).note (.drained e)
    else s.set e { x with thread := .gone }
  | none => s

/-- A thread is joined. -/
def joined (joining : Joining E R) : System E R :=
  if joining ∉ s.joining then s
  else
    let s := { s with
      joining := s.joining.erase joining
      pending_joins := s.pending_joins - 1 }.note (.joinEnded joining)
    match joining with
    | .executor e => { s with calls := .notifyExecutors :: .notifyJoins :: s.calls }.executorJoined e
    | .other number receiver =>
      let s := { s with calls := .notifyJoins :: s.calls }
      if receiver ∈ s.destroyed then s else s.note (.notified number receiver)

def call : System E R :=
  match s.calls with
  | .notifyExecutors :: calls => { s with calls }.notifyExecutors
  | .notifyJoins :: calls => { s with calls }.notifyJoins
  | [] => s

def shutdownAll (receiver : R) : System E R :=
  let s := { s with
    next_callback := s.next_callback + 1
    drain_callbacks := s.drain_callbacks ++ [(s.next_callback, receiver)] }.note
      (.asked s.next_callback receiver)
  (s.owners_by_thread.foldl shutdown s).notifyExecutors

end System

def step {E R : Type} [DecidableEq E] [DecidableEq R] (s : System E R) : Event E R → System E R
  | .construct e => s.construct e
  | .submit e task => s.submit e task
  | .shutdown e => s.shutdown e
  | .destroy e => s.destroy e
  | .destroyReceiver receiver =>
    { s with destroyed := insert receiver s.destroyed }.note (.destroyed receiver)
  | .work e => s.work e
  | .taskReturns e => s.taskEnds e .returned
  | .taskThrows e => s.taskEnds e .threw
  | .completed e => s.completed e
  | .afterCompletion e => s.afterCompletion e
  | .quit e => s.quit e
  | .finish e => s.finish e
  | .finished e => s.finished e
  | .joinThread receiver => s.joinThread receiver
  | .joined joining => s.joined joining
  | .call => s.call
  | .shutdownAll receiver => s.shutdownAll receiver

end GuiQml.Executors
