import GuiQml.Lib.Reach
import GuiQml.Lib.Journal
import Mathlib.Data.Finset.Erase
import Mathlib.Data.Finset.Insert

/-!
# The wallet controller

`WalletQmlController` as the GUI thread runs it, one input after another. What arrives, and when, is open.
What it does with its models is written down.
-/

namespace GuiQml.Controller

/-- A wallet the node has loaded, which is another one each time it loads it. -/
structure Wallet (Name : Type) where
  number : Nat
  getWalletName : Name
  /-- The command of `createWatchOnlyWallet` that creates it. -/
  creation : Option Nat := none
  deriving DecidableEq

structure WalletQmlModel (Name : Type) where
  id : Nat
  m_wallet : Option (Wallet Name)
  deriving DecidableEq

/-- What a task of `m_wallet_command_executor` does on the worker. -/
inductive Command (Name : Type)
  | createWallet (wallet_name : Name) (setup_wallet : Bool)
  | loadWallet (load_target : Name)
  | restoreWallet (restore_wallet_name : Name)
  | migrateWallet (wallet_reference : Name)
  deriving DecidableEq

/-- What comes back from the worker, with the wallet it has got. -/
inductive Outcome (Name : Type)
  | returned (wallet : Option (Wallet Name))
  | threw
  deriving DecidableEq

structure BackendExecutor (Name : Type) where
  /-- What the worker has not taken, oldest first. -/
  tasks : List (Nat × Command Name) := []
  m_gui_completions : List (Nat × Command Name) := []
  m_next_task_id : Nat := 0
  m_stopping : Bool := false

/-- What the executor of a model that shuts down does. -/
structure ModelTask (Name : Type) where
  model : Nat
  wallet : Option (Wallet Name)
  remove_wallet : Bool
  deriving DecidableEq

inductive Note (Name : Type)
  | entered (model : Nat)
  | left (model : Nat)
  | retired (model : Nat)
  | finished (model : Nat)
  | shutdown
  | controllerDrained
  | notificationsDrained
  | walletsDrained
  /-- Models of these names were still closing. -/
  | loadStarted (load_target : Name) (closing : List Name)
  deriving DecidableEq

section names

variable {Name : Type} [DecidableEq Name] [Inhabited Name]

/-- The default name is the empty one. -/
def WalletQmlModel.name (model : WalletQmlModel Name) : Name :=
  match model.m_wallet with
  | some wallet => wallet.getWalletName
  | none => default

def m_empty_wallet : WalletQmlModel Name := { id := 0, m_wallet := none }

def BackendExecutor.submit (e : BackendExecutor Name) (command : Command Name) : BackendExecutor Name :=
  if e.m_stopping then e
  else
    { e with
      m_next_task_id := e.m_next_task_id + 1
      tasks := e.tasks ++ [(e.m_next_task_id + 1, command)]
      m_gui_completions := e.m_gui_completions ++ [(e.m_next_task_id + 1, command)] }

def BackendExecutor.shutdown (e : BackendExecutor Name) : BackendExecutor Name :=
  { e with m_stopping := true, m_gui_completions := [] }

end names

structure WalletQmlController (Name : Type) [Inhabited Name] where
  m_initialized : Bool := false
  m_shutting_down : Bool := false
  m_controller_drained : Bool := false
  m_notifications_drained : Bool := false
  m_shutdown_complete : Bool := false
  m_is_wallet_loaded : Bool := false
  m_wallet_load_in_progress : Bool := false
  m_wallets : List (WalletQmlModel Name) := []
  m_selected_wallet : WalletQmlModel Name := m_empty_wallet
  /-- As they were when they were retired. -/
  m_retiring_wallets : List (WalletQmlModel Name) := []
  m_retiring_wallet_names : Finset Name := ∅
  m_deferred_wallet_name : Name := default
  m_handler_load_wallet : Bool := false
  m_load_notifications : List (Wallet Name) := []
  m_wallet_command_executor : BackendExecutor Name := {}
  next_model : Nat := 1
  model_tasks : List (ModelTask Name) := []
  /-- Newest first. -/
  journal : List (Note Name) := []

namespace WalletQmlController

variable {Name : Type} [DecidableEq Name] [Inhabited Name] (c : WalletQmlController Name)

def note (n : Note Name) : WalletQmlController Name := { c with journal := n :: c.journal }

/-! ## Leaving and shutting down -/

def checkShutdownFinished : WalletQmlController Name :=
  if c.m_shutting_down && c.m_controller_drained && c.m_notifications_drained && c.m_retiring_wallets.isEmpty &&
      !c.m_shutdown_complete then
    { c with m_shutdown_complete := true }.note .walletsDrained
  else c

def retireWallet (model : WalletQmlModel Name) (remove : Bool) : WalletQmlController Name :=
  if model ∈ c.m_retiring_wallets then c
  else
    { c with
      m_retiring_wallets := model :: c.m_retiring_wallets
      m_retiring_wallet_names :=
        if model = m_empty_wallet then c.m_retiring_wallet_names
        else insert model.name c.m_retiring_wallet_names
      model_tasks := c.model_tasks ++ [ModelTask.mk model.id model.m_wallet remove] }.note
      (.retired model.id)

/-- What `retireWallet` connects to `shutdownFinished` of the model. -/
def shutdownFinished (id : Nat) : WalletQmlController Name :=
  match c.m_retiring_wallets.find? fun model => model.id = id with
  | none => c
  | some model =>
    ({ c with
      m_retiring_wallets := c.m_retiring_wallets.erase model
      m_retiring_wallet_names := c.m_retiring_wallet_names.erase model.name }.note
      (.finished model.id)).checkShutdownFinished

def removeWalletModel (wallet_model : WalletQmlModel Name) (remove : Bool) : WalletQmlController Name :=
  if wallet_model = m_empty_wallet ∨ wallet_model ∉ c.m_wallets then c
  else
    let next_selected_wallet := c.m_wallets.find? fun wallet => wallet ≠ wallet_model
    ({ c with
      m_wallets := c.m_wallets.erase wallet_model
      m_selected_wallet :=
        if c.m_selected_wallet = wallet_model then next_selected_wallet.getD m_empty_wallet
        else c.m_selected_wallet
      m_is_wallet_loaded := next_selected_wallet.isSome }.note (.left wallet_model.id)).retireWallet wallet_model remove

/-- What `registerWalletModel` connects to `walletUnloaded` of the model. -/
def walletUnloaded (id : Nat) : WalletQmlController Name :=
  match c.m_wallets.find? fun model => model.id = id with
  | none => c
  | some wallet_model => c.removeWalletModel wallet_model false

def beginShutdown : WalletQmlController Name :=
  if c.m_shutting_down then c
  else
    let stopped := { c with
      m_shutting_down := true, m_handler_load_wallet := false, m_initialized := false
      m_selected_wallet := m_empty_wallet }.note .shutdown
    let removed := c.m_wallets.foldl (fun c wallet => c.removeWalletModel wallet false) stopped
    let retired := removed.retireWallet m_empty_wallet false
    { retired with
      m_load_notifications := []
      m_wallet_command_executor := retired.m_wallet_command_executor.shutdown }

def controllerDrained : WalletQmlController Name :=
  ({ c with m_controller_drained := true }.note .controllerDrained).checkShutdownFinished

def notificationsDrained : WalletQmlController Name :=
  ({ c with m_notifications_drained := true }.note .notificationsDrained).checkShutdownFinished

/-! ## Wallets that arrive -/

/-- The model of a wallet, and the controller that has made it. -/
def newModel (wallet : Wallet Name) : WalletQmlModel Name := { id := c.next_model, m_wallet := some wallet }

def addWalletModel (wallet : Wallet Name) : WalletQmlController Name :=
  { c with
    next_model := c.next_model + 1
    m_selected_wallet := c.newModel wallet
    m_wallets := c.m_wallets ++ [c.newModel wallet]
    m_is_wallet_loaded := true }.note (.entered c.next_model)

def addOrSelectWalletModel (wallet : Option (Wallet Name)) : WalletQmlController Name :=
  match wallet with
  | none => c
  | some wallet =>
    if c.m_shutting_down then
      { c with next_model := c.next_model + 1 }.retireWallet (c.newModel wallet) false
    else
      match c.m_wallets.find? fun wallet_model => wallet_model.name = wallet.getWalletName with
      | some wallet_model => { c with m_selected_wallet := wallet_model, m_is_wallet_loaded := true }
      | none => c.addWalletModel wallet

def handleLoadWallet (wallet : Option (Wallet Name)) : WalletQmlController Name :=
  if (wallet.any fun wallet =>
      c.m_deferred_wallet_name ≠ default ∧ wallet.getWalletName = c.m_deferred_wallet_name) then c
  else c.addOrSelectWalletModel wallet

/-- The handler of `m_handler_load_wallet`, which a thread of the node calls. -/
def notifyLoaded (wallet : Wallet Name) : WalletQmlController Name :=
  if c.m_handler_load_wallet then { c with m_load_notifications := c.m_load_notifications ++ [wallet] } else c

def consumeWalletNotifications : WalletQmlController Name :=
  if c.m_shutting_down then c
  else
    c.m_load_notifications.foldl (fun c wallet => c.handleLoadWallet (some wallet))
      { c with m_load_notifications := [] }

/-- One of the models `initialize` makes of what `getWallets` lists. -/
def listWallet (wallet : Wallet Name) : WalletQmlController Name :=
  { c with
    next_model := c.next_model + 1
    m_wallets := c.m_wallets ++ [c.newModel wallet] }.note (.entered c.next_model)

/-- `initialize`. -/
def initializeWallets (disablewallet : Bool) (wallets : List (Wallet Name)) : WalletQmlController Name :=
  if c.m_initialized || c.m_shutting_down then c
  else if disablewallet then c
  else
    let listed := wallets.foldl listWallet { c with m_handler_load_wallet := true }
    match listed.m_wallets with
    | [] => { listed with m_initialized := true }
    | front :: _ => { listed with m_initialized := true, m_selected_wallet := front, m_is_wallet_loaded := true }

/-! ## What the user asks for -/

def clearWalletLoadStatus : WalletQmlController Name := { c with m_wallet_load_in_progress := false }

def submit (command : Command Name) : WalletQmlController Name :=
  { c with m_wallet_command_executor := c.m_wallet_command_executor.submit command }

/-- The names of the models of a wallet that have not finished their shutdown. -/
def closing : List Name :=
  (c.m_retiring_wallets.filter fun model => model ≠ m_empty_wallet).map WalletQmlModel.name

/-- There is no target where the path is blank, resolves to nothing or has to be migrated first. -/
def startWalletLoad (load_target : Option Name) : WalletQmlController Name :=
  match load_target with
  | none => c.clearWalletLoadStatus
  | some load_target =>
    ({ c.clearWalletLoadStatus with m_wallet_load_in_progress := true }.note
      (.loadStarted load_target c.closing)).submit (.loadWallet load_target)

def setSelectedWallet (path : Name) (load_target : Option Name) : WalletQmlController Name :=
  if path ∈ c.m_retiring_wallet_names then c
  else if !c.m_initialized then c
  else
    match c.m_wallets.find? fun wallet => wallet.name = path with
    | some wallet => { c.clearWalletLoadStatus with m_selected_wallet := wallet }
    | none => c.startWalletLoad load_target

def closeWallet (path : Name) (blank : Bool) : WalletQmlController Name :=
  if !c.m_initialized then c
  else if blank then c
  else
    match c.m_wallets.find? fun wallet => wallet.name = path with
    | none => c.clearWalletLoadStatus
    | some wallet_to_close => c.clearWalletLoadStatus.removeWalletModel wallet_to_close true

def createWalletAsync (wallet_name : Name) (setup_wallet : Bool) : WalletQmlController Name :=
  { c with
    m_deferred_wallet_name := if setup_wallet then wallet_name else c.m_deferred_wallet_name
    m_wallet_load_in_progress := true }.submit (.createWallet wallet_name setup_wallet)

/-- `wallet_name` is trimmed, and `walletNameAvailabilityError` is the empty text where it is `available`. -/
def createSingleSigWallet (wallet_name : Name) (available : Bool) : WalletQmlController Name :=
  if c.m_wallet_load_in_progress then c
  else if !c.m_initialized then c.clearWalletLoadStatus
  else if wallet_name = default ∨ !available then c.clearWalletLoadStatus
  else c.clearWalletLoadStatus.createWalletAsync wallet_name false

/-- `signer` says that a path is configured and one signer is connected. -/
def createExternalSignerWallet (wallet_name : Name) (available signer : Bool) : WalletQmlController Name :=
  if !c.m_initialized then c.clearWalletLoadStatus
  else if wallet_name = default ∨ !available then c.clearWalletLoadStatus
  else if !signer then c.clearWalletLoadStatus
  else c.clearWalletLoadStatus.createWalletAsync wallet_name false

def createWatchOnlyWallet (wallet_name : Name) (xpub_valid available : Bool) : WalletQmlController Name :=
  if c.m_wallet_load_in_progress then c
  else if !c.m_initialized then c.clearWalletLoadStatus
  else if !xpub_valid then c.clearWalletLoadStatus
  else if wallet_name = default ∨ !available then c.clearWalletLoadStatus
  else c.clearWalletLoadStatus.createWalletAsync wallet_name true

/-- There is no name where there is no such file. -/
def importWallet (restore_wallet_name : Option Name) : WalletQmlController Name :=
  if !c.m_initialized then c
  else
    match restore_wallet_name with
    | none => c.clearWalletLoadStatus
    | some restore_wallet_name =>
      { c.clearWalletLoadStatus with m_wallet_load_in_progress := true }.submit (.restoreWallet restore_wallet_name)

/-- There is no reference where the path resolves to nothing or a passphrase is wanted first. -/
def migrateWallet (wallet_reference : Option Name) : WalletQmlController Name :=
  if !c.m_initialized then c
  else
    match wallet_reference with
    | none => c.clearWalletLoadStatus
    | some wallet_reference => c.clearWalletLoadStatus.submit (.migrateWallet wallet_reference)

/-! ## What the commands bring back -/

/-- The completion that was submitted with the command. -/
def complete (command : Command Name) (outcome : Outcome Name) : WalletQmlController Name :=
  match command, outcome with
  | .createWallet wallet_name _, .returned wallet =>
    { c with
      m_deferred_wallet_name :=
        if c.m_deferred_wallet_name = wallet_name then default else c.m_deferred_wallet_name
      m_wallet_load_in_progress := false }.addOrSelectWalletModel wallet
  | .createWallet _ _, .threw => { c with m_deferred_wallet_name := default, m_wallet_load_in_progress := false }
  | .migrateWallet _, .returned wallet => c.handleLoadWallet wallet
  | .migrateWallet _, .threw => c
  | _, .returned wallet => { c with m_wallet_load_in_progress := false }.addOrSelectWalletModel wallet
  | _, .threw => { c with m_wallet_load_in_progress := false }

def completed (id : Nat) (outcome : Outcome Name) : WalletQmlController Name :=
  match c.m_wallet_command_executor.m_gui_completions.find? fun completion => completion.1 = id with
  | none => c
  | some completion =>
    { c with
      m_wallet_command_executor := { c.m_wallet_command_executor with
        m_gui_completions := c.m_wallet_command_executor.m_gui_completions.erase completion } }.complete
      completion.2 outcome

end WalletQmlController

/-! ## The controller as a machine -/

inductive Action (Name : Type)
  | setSelectedWallet (path : Name) (load_target : Option Name)
  | closeWallet (path : Name) (blank : Bool)
  | createSingleSigWallet (wallet_name : Name) (available : Bool)
  | createExternalSignerWallet (wallet_name : Name) (available signer : Bool)
  | createWatchOnlyWallet (wallet_name : Name) (xpub_valid available : Bool)
  | importWallet (restore_wallet_name : Option Name)
  | migrateWallet (wallet_reference : Option Name)
  | clearWalletLoadStatus

inductive Input (Name : Type)
  | initializeWallets (disablewallet : Bool) (wallets : List (Wallet Name))
  | notifyLoaded (wallet : Wallet Name)
  | consumeWalletNotifications
  | takeTask
  | completed (id : Nat) (outcome : Outcome Name)
  | call (action : Action Name)
  | walletUnloaded (model : Nat)
  | beginShutdown
  | takeModelTask (task : ModelTask Name)
  | shutdownFinished (model : Nat)
  | controllerDrained
  | notificationsDrained

namespace WalletQmlController

variable {Name : Type} [DecidableEq Name] [Inhabited Name] (c : WalletQmlController Name)

/-- The worker of `m_wallet_command_executor` takes its oldest task. -/
def takeTask : WalletQmlController Name :=
  { c with
    m_wallet_command_executor := { c.m_wallet_command_executor with
      tasks := c.m_wallet_command_executor.tasks.tail } }

def takeModelTask (task : ModelTask Name) : WalletQmlController Name :=
  { c with model_tasks := c.model_tasks.erase task }

/-- What the user asks for. -/
def call : Action Name → WalletQmlController Name
  | .setSelectedWallet path load_target => c.setSelectedWallet path load_target
  | .closeWallet path blank => c.closeWallet path blank
  | .createSingleSigWallet wallet_name available => c.createSingleSigWallet wallet_name available
  | .createExternalSignerWallet wallet_name available signer =>
    c.createExternalSignerWallet wallet_name available signer
  | .createWatchOnlyWallet wallet_name xpub_valid available =>
    c.createWatchOnlyWallet wallet_name xpub_valid available
  | .importWallet restore_wallet_name => c.importWallet restore_wallet_name
  | .migrateWallet wallet_reference => c.migrateWallet wallet_reference
  | .clearWalletLoadStatus => c.clearWalletLoadStatus

end WalletQmlController

variable {Name : Type} [DecidableEq Name] [Inhabited Name]

def step (c : WalletQmlController Name) : Input Name → WalletQmlController Name
  | .initializeWallets disablewallet wallets => c.initializeWallets disablewallet wallets
  | .notifyLoaded wallet => c.notifyLoaded wallet
  | .consumeWalletNotifications => c.consumeWalletNotifications
  | .takeTask => c.takeTask
  | .completed id outcome => c.completed id outcome
  | .call action => c.call action
  | .walletUnloaded model => c.walletUnloaded model
  | .beginShutdown => c.beginShutdown
  | .takeModelTask task => c.takeModelTask task
  | .shutdownFinished model => c.shutdownFinished model
  | .controllerDrained => c.controllerDrained
  | .notificationsDrained => c.notificationsDrained

end GuiQml.Controller
