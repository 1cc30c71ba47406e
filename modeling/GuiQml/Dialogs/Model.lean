import Mathlib.Data.List.Basic
import Mathlib.Data.UInt

/-!
# The runtime dialogs

The message boxes and questions of `NodeModel` on the GUI thread. A blocking call waits in an event loop of its
own, and whatever comes meanwhile runs on top of it, so the thread is a stack. Anything may also come while a
signal is emitted. A runaway exception, after which the process only exits, is left out.
-/

namespace GuiQml.Dialogs

/-! ## Requests -/

/-- The flags of `CClientUIInterface`. -/
structure CClientUIInterface where
  ICON_WARNING : UInt32
  ICON_ERROR : UInt32
  MODAL : UInt32
  BTN_MASK : UInt32
  BTN_OK : UInt32
  BTN_CANCEL : UInt32
  BTN_CANCEL_ne : BTN_CANCEL ≠ BTN_OK

structure RuntimeDialogRequest where
  message : String := ""
  style : UInt32 := 0
  question : Bool := false
  answer : Bool := false
  answered : Bool := false
  button : UInt32 := 0
  /-- Whether it points to the loop of the caller. -/
  loop : Bool := false

/-- What QML shows. -/
structure RuntimeDialog where
  title : String := ""
  message : String := ""
  icon : String := ""
  buttons : UInt32 := 0
  question : Bool := false
  deriving DecidableEq

section Styles

variable (ui : CClientUIInterface) (style : UInt32)

def RuntimeDialogTitle : String :=
  if style &&& ui.ICON_ERROR ≠ 0 then "Error"
  else if style &&& ui.ICON_WARNING ≠ 0 then "Warning"
  else "Information"

def RuntimeDialogIcon : String :=
  if style &&& ui.ICON_ERROR ≠ 0 then "image://images/error"
  else if style &&& ui.ICON_WARNING ≠ 0 then "image://images/alert-filled"
  else "image://images/info-filled"

def RuntimeDialogButtons : UInt32 :=
  let buttons := style &&& ui.BTN_MASK
  if buttons ≠ 0 then buttons else ui.BTN_OK

def HasMultipleRuntimeDialogButtons (buttons : UInt32) : Bool := buttons &&& (buttons - 1) ≠ 0

def RuntimeDialogRequest.dialog (request : RuntimeDialogRequest) : RuntimeDialog where
  title := RuntimeDialogTitle ui request.style
  message := request.message
  icon := RuntimeDialogIcon ui request.style
  buttons := RuntimeDialogButtons ui request.style
  question := request.question || HasMultipleRuntimeDialogButtons (RuntimeDialogButtons ui request.style)

def isBlocking (question : Bool) : Bool := style &&& ui.MODAL ≠ 0 || question

end Styles

/-! ## The GUI thread -/

/-- A request is told by its number, in the order in which they are made. -/
structure NodeModel where
  m_shutdown_requested : Bool := false
  m_workers_stopping : Bool := false
  m_runtime_dialogs_enabled : Bool := false
  m_startup_failure_dialog_shown : Bool := false
  m_startup_error_messages : List String := []
  m_startup_warning_messages : List String := []
  m_runtime_dialog_visible : Bool := false
  m_runtime_dialog : RuntimeDialog := {}
  m_runtime_dialog_active : Option Nat := none
  m_runtime_dialog_queue : List Nat := []

/-- Where a function on the stack is. -/
inductive Frame
  /-- `loop.exec()`, and whether the loop was told to quit. -/
  | exec (request : Nat) (quit : Bool)
  /-- The signal that the dialog of a call is shown. -/
  | shown (request : Nat) (blocking : Bool)
  /-- The signal at the end of `answerRuntimeDialog`. -/
  | answered
  /-- The loop of `requestShutdown`, or the signal before it. -/
  | cancelling
  /-- The signal at its end. -/
  | requestedShutdown
  deriving DecidableEq

inductive Returned
  | answer (request : Nat) (value : Bool)
  /-- `false`, without waiting. -/
  | at_once
  deriving DecidableEq

structure Gui where
  model : NodeModel := {}
  requests : List RuntimeDialogRequest := []
  /-- The innermost one first. -/
  frames : List Frame := []
  /-- The requests shown so far, the answers and what the calls returned, oldest first. -/
  shown : List Nat := []
  answers : List (Nat × UInt32) := []
  returned : List Returned := []

inductive Event
  | showRuntimeDialog (message : String) (style : UInt32) (question : Bool)
  | answerRuntimeDialog (button : UInt32)
  | requestShutdown
  /-- The innermost function goes on. -/
  | resume
  | initializeResult
  | beginShutdown

namespace Gui

section Functions

variable (ui : CClientUIInterface) (trimmed : String → String) (g : Gui)

def recordMessage (messages : List String) (message : String) : List String :=
  let message := trimmed message
  if message.isEmpty || message ∈ messages then messages else messages ++ [message]

def returnAtOnce : Gui := { g with returned := g.returned ++ [.at_once] }

/-- What stands under the signal is `frame`. -/
def showRuntimeDialogRequest (request : Nat) (frame : Frame) : Gui :=
  { g with
    model := { g.model with
      m_runtime_dialog_active := some request
      m_runtime_dialog := (g.requests.getD request {}).dialog ui
      m_runtime_dialog_visible := true }
    shown := g.shown ++ [request]
    frames := frame :: g.frames }

/-- The dialog of a call is made and shown or queued. -/
def makeRequest (message : String) (style : UInt32) (question : Bool) : Gui :=
  let request := g.requests.length
  let blocking := isBlocking ui style question
  let failure := !g.model.m_runtime_dialogs_enabled && (question || style &&& ui.ICON_ERROR ≠ 0)
  let g : Gui := { g with
    requests := g.requests ++
      [({ message := message, style := style, question := question, loop := blocking } : RuntimeDialogRequest)]
    model := { g.model with
      m_startup_failure_dialog_shown := g.model.m_startup_failure_dialog_shown || failure } }
  if g.model.m_runtime_dialog_active.isSome then
    let g : Gui := { g with
      model := { g.model with m_runtime_dialog_queue := g.model.m_runtime_dialog_queue ++ [request] } }
    if blocking then { g with frames := .exec request false :: g.frames } else g.returnAtOnce
  else g.showRuntimeDialogRequest ui request (.shown request blocking)

def recordStartupWarningMessage (message : String) : Gui :=
  let messages := recordMessage trimmed g.model.m_startup_warning_messages message
  { g with model := { g.model with m_startup_warning_messages := messages } }

def recordStartupErrorMessage (message : String) : Gui :=
  let messages := recordMessage trimmed g.model.m_startup_error_messages message
  { g with model := { g.model with m_startup_error_messages := messages } }

def showRuntimeDialogOnGuiThread (message : String) (style : UInt32) (question : Bool) : Gui :=
  if g.model.m_shutdown_requested || g.model.m_workers_stopping then g.returnAtOnce
  else if !g.model.m_runtime_dialogs_enabled && !question && style &&& ui.ICON_WARNING ≠ 0 then
    (g.recordStartupWarningMessage trimmed message).returnAtOnce
  else if !g.model.m_runtime_dialogs_enabled && !question && style &&& ui.MODAL = 0 then
    let g := if style &&& ui.ICON_ERROR ≠ 0 then g.recordStartupErrorMessage trimmed message else g
    g.returnAtOnce
  else g.makeRequest ui message style question

def showStartupWarnings : Gui :=
  if g.model.m_startup_warning_messages.isEmpty then g
  else
    let warnings := "\n\n".intercalate g.model.m_startup_warning_messages
    let g : Gui := { g with model := { g.model with m_startup_warning_messages := [] } }
    g.showRuntimeDialogOnGuiThread ui trimmed warnings ui.ICON_WARNING false

/-- What `initializeResult` does about dialogs once the node is up. -/
def initializeResult : Gui :=
  if g.model.m_workers_stopping || g.model.m_shutdown_requested then g
  else
    let g : Gui := { g with
      model := { g.model with m_startup_error_messages := [], m_runtime_dialogs_enabled := true } }
    g.showStartupWarnings ui trimmed

/-- `quit` does nothing to a loop that does not run. -/
def quitLoop (request : Nat) : List Frame → List Frame :=
  List.map fun frame => if frame = .exec request false then .exec request true else frame

def setAnswer (button : UInt32) (request : RuntimeDialogRequest) : RuntimeDialogRequest :=
  { request with button := button, answer := button == ui.BTN_OK, answered := true }

/-- What stands under the signal at the end is `frame`. -/
def answerRuntimeDialog (button : UInt32) (frame : Frame) : Gui :=
  match g.model.m_runtime_dialog_active with
  | none => g
  | some request =>
    let g : Gui := { g with
      model := { g.model with m_runtime_dialog_active := none }
      requests := g.requests.modify request (setAnswer ui button)
      frames := if (g.requests.getD request {}).loop then quitLoop request g.frames else g.frames
      answers := g.answers ++ [(request, button)] }
    match g.model.m_runtime_dialog_queue with
    | next_dialog :: rest =>
      let g : Gui := { g with model := { g.model with m_runtime_dialog_queue := rest } }
      g.showRuntimeDialogRequest ui next_dialog frame
    | [] => { g with model := { g.model with m_runtime_dialog_visible := false }, frames := frame :: g.frames }

def requestShutdown : Gui :=
  if g.model.m_shutdown_requested then g
  else { g with model := { g.model with m_shutdown_requested := true }, frames := .cancelling :: g.frames }

/-- The end of a blocking call. -/
def returnAnswer (request : Nat) : Gui :=
  { g with
    requests := g.requests.modify request fun r => { r with loop := false }
    returned := g.returned ++ [.answer request (g.requests.getD request {}).answer] }

/-- What goes on below the frame that is left. -/
def withFrames (frames : List Frame) : Gui := { g with frames := frames }

def resume : Gui :=
  match g.frames with
  | [] => g
  | .exec request quit :: frames => if quit then (g.withFrames frames).returnAnswer request else g
  | .shown request blocking :: frames =>
    if !blocking then (g.withFrames frames).returnAtOnce
    else if (g.requests.getD request {}).answered then (g.withFrames frames).returnAnswer request
    else g.withFrames (.exec request false :: frames)
  | .answered :: frames => g.withFrames frames
  | .cancelling :: frames =>
    if g.model.m_runtime_dialog_active.isSome then
      (g.withFrames frames).answerRuntimeDialog ui ui.BTN_CANCEL .cancelling
    else g.withFrames (.requestedShutdown :: frames)
  | .requestedShutdown :: frames => g.withFrames frames

def step (g : Gui) : Event → Gui
  | .showRuntimeDialog message style question => showRuntimeDialogOnGuiThread ui trimmed g message style question
  | .answerRuntimeDialog button => g.answerRuntimeDialog ui button .answered
  | .requestShutdown => g.requestShutdown
  | .resume => g.resume ui
  | .initializeResult => g.initializeResult ui trimmed
  | .beginShutdown => { g with model := { g.model with m_workers_stopping := true } }

def run (events : List Event) : Gui := events.foldl (step ui trimmed) {}

end Functions

end Gui

end GuiQml.Dialogs
