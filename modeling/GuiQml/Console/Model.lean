import GuiQml.Console.Markup
import GuiQml.Lib.Recent

/-!
# The console

`RpcConsoleModel` with its output rows, its worker thread and what waits for either thread. The parser is the
one function of it that is called here: not executing, it gives the command as the history may hold it. The
list of the commands to complete from and the colours that no row uses are left out.
-/

namespace GuiQml.Console

def HISTORY_MAX : Nat := 50

def kMaxRows : Nat := 5000

/-- What `RPCParseCommandLine` makes of a command that it does not execute. -/
inductive Parsed
  | accepted (filtered : QString)
  | unbalanced
  | runtimeError (what : QString)

/-- What the code calls: `QChar::isSpace`, the parser and `UniValue::read`. -/
structure Calls where
  isSpace : Char → Bool
  RPCParseCommandLine : QString → Parsed
  read : QString → Option UniValue

def Calls.trimmed (calls : Calls) (text : QString) : QString :=
  ((text.dropWhile calls.isSpace).reverse.dropWhile calls.isSpace).reverse

inductive MessageCategory
  | CMD_REQUEST
  | CMD_REPLY
  | CMD_ERROR
  deriving DecidableEq, Repr

structure Row where
  timestamp : QString
  contentHtml : QString
  category : MessageCategory

structure RpcConsoleModel where
  m_key_color : QColor
  m_executing : Bool := false
  m_stopping : Bool := false
  /-- The oldest first. -/
  m_history : List QString := []
  m_history_idx : Int := -1
  m_pending_text : QString := []
  m_last_wallet_name : QString := []
  /-- The rows of `m_output_model`. -/
  m_rows : List Row := []

/-- What the worker says of a command: the time, the category and the text. -/
structure Result where
  time : QString
  category : MessageCategory
  rawText : QString

/-- The arguments of `RpcConsoleWorker::execute`. -/
structure Execution where
  command : QString
  wallet_name : QString

/-- The model with its worker. The last four say what has been done, in order. -/
structure System where
  model : RpcConsoleModel
  /-- The calls of `execute` that wait for the worker thread. -/
  posted : List Execution := []
  running : Option Execution := none
  /-- The calls of `onResultReady` that wait for the main thread. -/
  results : List Result := []
  submitted : List Execution := []
  started : List Execution := []
  received : List Result := []
  /-- How often `stop` was executed on the main thread. -/
  stops : Nat := 0

namespace RpcConsoleModel

variable (m : RpcConsoleModel)

/-- Of `RpcOutputListModel`. -/
def appendRow (row : Row) : RpcConsoleModel :=
  { m with m_rows :=
      (if kMaxRows ≤ m.m_rows.length then m.m_rows.drop (m.m_rows.length - kMaxRows + 1) else m.m_rows) ++ [row] }

def resetAll : RpcConsoleModel := { m with m_rows := [] }

def appendFormattedRow (calls : Calls) (time : QString) (category : MessageCategory) (rawText : QString) :
    RpcConsoleModel :=
  let body := match category with
    | .CMD_REPLY => FormatJsonReply calls.read rawText m.m_key_color
    | .CMD_REQUEST | .CMD_ERROR => EscapeAndConvertWhitespace rawText
  m.appendRow ⟨time, body, category⟩

/-- The row for a wallet other than that of the command before. -/
def showWallet (calls : Calls) (time wallet_name : QString) : RpcConsoleModel :=
  if m.m_last_wallet_name ≠ wallet_name then
    { m.appendFormattedRow calls time .CMD_REQUEST
        (if wallet_name.isEmpty then "Executing command without any wallet".toList
        else "Executing command using \"".toList ++ wallet_name ++ "\" wallet".toList) with
      m_last_wallet_name := wallet_name }
  else m

/-- What a command that is accepted does to the model. -/
def accept (calls : Calls) (time filteredCmd wallet_name : QString) : RpcConsoleModel :=
  let m := { m with
    m_history := Recent.remember HISTORY_MAX m.m_history filteredCmd
    m_history_idx := -1
    m_pending_text := [] }
  { (m.showWallet calls time wallet_name).appendFormattedRow calls time .CMD_REQUEST filteredCmd with
    m_executing := true }

/-- The second is the text for the input field. -/
def browseHistory (direction : Int) (currentText : QString) : RpcConsoleModel × QString :=
  if m.m_history.isEmpty then (m, currentText)
  else
    let m := if m.m_history_idx = -1 then { m with m_pending_text := currentText } else m
    let newIdx := m.m_history_idx + direction
    if newIdx < 0 then ({ m with m_history_idx := -1 }, m.m_pending_text)
    else
      let newIdx : Int := if m.m_history.length ≤ newIdx then m.m_history.length - 1 else newIdx
      ({ m with m_history_idx := newIdx }, m.m_history.getD (m.m_history.length - 1 - newIdx.toNat) [])

def resetHistoryNavigation : RpcConsoleModel := { m with m_history_idx := -1, m_pending_text := [] }

def onResultReady (calls : Calls) (result : Result) : RpcConsoleModel :=
  if m.m_stopping then m
  else { m.appendFormattedRow calls result.time result.category result.rawText with m_executing := false }

end RpcConsoleModel

/-- What happens without a text from the input field. -/
inductive Background
  | clear
  | setKeyColor (color : QColor)
  | beginShutdown
  /-- The worker thread begins the first of its calls. -/
  | start
  /-- `execute` emits its result, which is the last that it does. -/
  | finish (result : Result)
  /-- The main thread takes the first of its calls. -/
  | deliver

inductive Event
  | submit (time command wallet_name : QString)
  | browse (direction : Int) (currentText : QString)
  | resetHistoryNavigation
  | background (event : Background)

namespace System

section Functions

variable (calls : Calls) (c : System)

/-- The second is what it returns. -/
def submitCommand (time command wallet_name : QString) : System × Bool :=
  if c.model.m_stopping then (c, false)
  else
    let trimmed_command := calls.trimmed command
    if trimmed_command.isEmpty then (c, false)
    else
      match calls.RPCParseCommandLine (trimmed_command ++ ['\n']) with
      | .unbalanced =>
        ({ c with model :=
            c.model.appendFormattedRow calls time .CMD_ERROR "Parse error: unbalanced ' or \"".toList }, true)
      | .runtimeError what =>
        ({ c with model := c.model.appendFormattedRow calls time .CMD_ERROR ("Error: ".toList ++ what) }, true)
      | .accepted filtered =>
        if trimmed_command = "stop".toList then ({ c with stops := c.stops + 1 }, true)
        else if c.model.m_executing then (c, false)
        else
          ({ c with
            model := c.model.accept calls time (calls.trimmed filtered) wallet_name
            posted := c.posted ++ [⟨trimmed_command, wallet_name⟩]
            submitted := c.submitted ++ [⟨trimmed_command, wallet_name⟩] }, true)

def start : System :=
  match c.running, c.posted with
  | none, execution :: posted =>
    { c with posted, running := some execution, started := c.started ++ [execution] }
  | _, _ => c

def finish (result : Result) : System :=
  match c.running with
  | none => c
  | some _ => { c with running := none, results := c.results ++ [result] }

def deliver : System :=
  match c.results with
  | [] => c
  | result :: results =>
    { c with results, model := c.model.onResultReady calls result, received := c.received ++ [result] }

def background (c : System) : Background → System
  | .clear => { c with model := c.model.resetAll }
  | .setKeyColor color => { c with model := { c.model with m_key_color := color } }
  | .beginShutdown => { c with model := { c.model with m_stopping := true } }
  | .start => c.start
  | .finish result => c.finish result
  | .deliver => c.deliver calls

def step (c : System) : Event → System
  | .submit time command wallet_name => (c.submitCommand calls time command wallet_name).1
  | .browse direction currentText => { c with model := (c.model.browseHistory direction currentText).1 }
  | .resetHistoryNavigation => { c with model := c.model.resetHistoryNavigation }
  | .background event => c.background calls event

end Functions

end System

/-! ## The page -/

/-- The input field of `CommandConsole.qml`, with no command to complete from. -/
structure Page where
  system : System
  /-- What the field shows. -/
  text : QString := []
  /-- What was last put into it, other than from the history. -/
  typed : QString := []

inductive PageEvent
  | type (text : QString)
  | up
  | down
  | run (time walletName : QString)
  | background (event : Background)

namespace Page

section Functions

variable (calls : Calls) (p : Page)

/-- `onTextChanged` where it is not the history that changes the text. -/
def setText (text : QString) : Page :=
  if text = p.text then p
  else { text, typed := text, system := { p.system with model := p.system.model.resetHistoryNavigation } }

def browse (direction : Int) : Page :=
  let browsed := p.system.model.browseHistory direction p.text
  { p with text := browsed.2, system := { p.system with model := browsed.1 } }

/-- `submitCommand` of the page, which empties the field where the command is taken. -/
def run (time walletName : QString) : Page :=
  if (calls.trimmed p.text).isEmpty then p
  else
    let submitted := p.system.submitCommand calls time (calls.trimmed p.text) walletName
    let p := { p with system := submitted.1 }
    if submitted.2 then p.setText [] else p

def step (p : Page) : PageEvent → Page
  | .type text => p.setText text
  | .up => p.browse 1
  | .down => p.browse (-1)
  | .run time walletName => p.run calls time walletName
  | .background event => { p with system := p.system.background calls event }

end Functions

end Page

end GuiQml.Console
