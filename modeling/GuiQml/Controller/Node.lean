import GuiQml.Controller.Models

/-!
# The node under the wallet controller

The wallets of the node, the worker of the commands and what is posted to the GUI thread. The controller is the
one of the GUI thread, and every step of this system is at most one step of it.
-/

namespace GuiQml.Controller

open Reach

/-! ## The system -/

/-- What waits for the GUI thread. -/
inductive GuiEvent (Name : Type)
  | consumeWalletNotifications
  /-- A thread of the node has called the unload handler of the model. -/
  | unloaded (model : Nat)
  | walletUnloaded (model : Nat)
  | completed (id : Nat) (outcome : Outcome Name)
  | shutdownFinished (model : Nat)
  deriving DecidableEq

/-- How far the worker has come with its task. -/
inductive Stage (Name : Type)
  | taken
  /-- In the load handler, which has stored the wallet and not posted yet. -/
  | notifying (wallet : Wallet Name)
  | loaded (wallet : Wallet Name)
  deriving DecidableEq

/-- How the task goes on. -/
inductive Progress
  | proceeds
  | fails
  | throws
  deriving DecidableEq

structure Running (Name : Type) where
  id : Nat
  command : Command Name
  stage : Stage Name
  deriving DecidableEq

inductive Event (Name : Type)
  | initializeWallets (disablewallet : Bool)
  | call (action : Action Name)
  | beginShutdown
  /-- The GUI thread takes what was posted first. -/
  | deliver
  /-- Another client of the node loads a wallet. -/
  | load (name : Name)
  /-- A load handler that has stored its wallet posts. -/
  | post
  | unload (wallet : Wallet Name)
  | take
  | work (progress : Progress)
  | workModel (task : ModelTask Name)
  | drainModel (model : Nat)

/-- What the worker gets for the task. -/
def Command.name {Name : Type} : Command Name → Name
  | .createWallet wallet_name _ => wallet_name
  | .loadWallet load_target => load_target
  | .restoreWallet restore_wallet_name => restore_wallet_name
  | .migrateWallet wallet_reference => wallet_reference

/-- The task is one of `createWatchOnlyWallet`. -/
def Command.setup_wallet {Name : Type} : Command Name → Bool
  | .createWallet _ setup_wallet => setup_wallet
  | _ => false

structure System (Name : Type) [Inhabited Name] where
  controller : WalletQmlController Name := {}
  /-- What the node has loaded. -/
  wallets : List (Wallet Name) := []
  next_wallet : Nat := 0
  /-- The load handlers that have stored a wallet and not posted. -/
  posting : Nat := 0
  /-- What is posted to the GUI thread, oldest first. -/
  events : List (GuiEvent Name) := []
  worker : Option (Running Name) := none
  /-- The models whose task has ended. -/
  drained : List Nat := []
  /-- What the setup function has returned for a command of `createWatchOnlyWallet`. -/
  setups : List (Nat × Bool) := []

namespace System

variable {Name : Type} [DecidableEq Name] [Inhabited Name] (s : System Name)

def send (event : GuiEvent Name) : System Name := { s with events := s.events ++ [event] }

def input (i : Input Name) : System Name := { s with controller := step s.controller i }

/-! ### The node -/

/-- The models that are subscribed to the unloading of the wallet. -/
def subscribed (wallet : Wallet Name) : List Nat :=
  (s.controller.m_wallets.filter fun model => model.m_wallet = some wallet).map WalletQmlModel.id ++
    (s.controller.model_tasks.filter fun task => task.wallet = some wallet).map ModelTask.model

def unload (wallet : Wallet Name) : System Name :=
  if wallet ∈ s.wallets then
    { s with
      wallets := s.wallets.erase wallet
      events := s.events ++ (s.subscribed wallet).map .unloaded }
  else s

def newWallet (name : Name) (creation : Option Nat) : Wallet Name :=
  { number := s.next_wallet, getWalletName := name, creation }

/-- The node loads a wallet and calls the load handler, which stores it. -/
def loadWallet (name : Name) (creation : Option Nat) : System Name :=
  { s with
    wallets := s.wallets ++ [s.newWallet name creation]
    next_wallet := s.next_wallet + 1 }.input (.notifyLoaded (s.newWallet name creation))

def load (name : Name) : System Name :=
  if name ∈ s.wallets.map Wallet.getWalletName then s
  else
    { s.loadWallet name none with
      posting := if s.controller.m_handler_load_wallet then s.posting + 1 else s.posting }

def post : System Name :=
  match s.posting with
  | 0 => s
  | posting + 1 => { s with posting }.send .consumeWalletNotifications

/-! ### The worker of the commands -/

def take : System Name :=
  match s.worker, s.controller.m_wallet_command_executor.tasks with
  | none, task :: _ => { s with worker := some ⟨task.1, task.2, .taken⟩ }.input .takeTask
  | _, _ => s

def ends (running : Running Name) (outcome : Outcome Name) : System Name :=
  { s with worker := none }.send (.completed running.id outcome)

/-- The task asks the node for its wallet. -/
def loads (running : Running Name) : System Name :=
  if running.command.name ∈ s.wallets.map Wallet.getWalletName then s.ends running (.returned none)
  else
    let creation := if running.command.setup_wallet then some running.id else none
    let stage := Stage.notifying (s.newWallet running.command.name creation)
    { s.loadWallet running.command.name creation with worker := some { running with stage } }

/-- The task has its wallet and calls the setup function if there is one. -/
def setsUp (running : Running Name) (wallet : Wallet Name) (success : Bool) : System Name :=
  if running.command.setup_wallet then
    let called := { s with setups := (running.id, success) :: s.setups }
    if success then called.ends running (.returned (some wallet))
    else (called.unload wallet).ends running (.returned none)
  else s.ends running (.returned (some wallet))

def work (progress : Progress) : System Name :=
  match s.worker with
  | none => s
  | some running =>
    match running.stage, progress with
    | .taken, .proceeds => s.loads running
    | .taken, .fails => s.ends running (.returned none)
    | .notifying wallet, _ =>
      let posted := if s.controller.m_handler_load_wallet then s.send .consumeWalletNotifications else s
      { posted with worker := some { running with stage := .loaded wallet } }
    | .loaded wallet, .proceeds => s.setsUp running wallet true
    | .loaded wallet, .fails => s.setsUp running wallet false
    | .taken, .throws | .loaded _, .throws => s.ends running .threw

/-! ### The models that retire -/

/-- The executor of a model disconnects its handlers and removes its wallet. -/
def workModel (task : ModelTask Name) : System Name :=
  if task ∈ s.controller.model_tasks then
    let disconnected := { s.input (.takeModelTask task) with drained := task.model :: s.drained }
    match task.wallet with
    | some wallet => if task.remove_wallet then disconnected.unload wallet else disconnected
    | none => disconnected
  else s

def drainModel (model : Nat) : System Name :=
  if model ∈ s.drained then { s with drained := s.drained.erase model }.send (.shutdownFinished model) else s

/-! ### The GUI thread -/

def deliver : System Name :=
  match s.events with
  | [] => s
  | event :: events =>
    let taken := { s with events }
    match event with
    | .consumeWalletNotifications => taken.input .consumeWalletNotifications
    -- A model that shuts down says nothing.
    | .unloaded model =>
      if model ∈ s.controller.m_wallets.map WalletQmlModel.id then taken.send (.walletUnloaded model) else taken
    | .walletUnloaded model => taken.input (.walletUnloaded model)
    | .completed id outcome => taken.input (.completed id outcome)
    | .shutdownFinished model => taken.input (.shutdownFinished model)

def step : Event Name → System Name
  | .initializeWallets disablewallet => s.input (.initializeWallets disablewallet s.wallets)
  | .call action => s.input (.call action)
  | .beginShutdown => s.input .beginShutdown
  | .deliver => s.deliver
  | .load name => s.load name
  | .post => s.post
  | .unload wallet => s.unload wallet
  | .take => s.take
  | .work progress => s.work progress
  | .workModel task => s.workModel task
  | .drainModel model => s.drainModel model

end System

variable {Name : Type} [DecidableEq Name] [Inhabited Name] {s : System Name}

/-! ## The controller of the system -/

/-- What a step of the system is for the controller. -/
inductive Steps (c : WalletQmlController Name) : WalletQmlController Name → Prop
  | stay : Steps c c
  | step (i : Input Name) (hdistinct : Distinct c i) : Steps c (step c i)

theorem unload_controller (wallet : Wallet Name) : (s.unload wallet).controller = s.controller := by
  unfold System.unload
  split <;> rfl

theorem setsUp_controller (running : Running Name) (wallet : Wallet Name) (success : Bool) :
    (s.setsUp running wallet success).controller = s.controller := by
  unfold System.setsUp
  split
  · dsimp only
    split
    · rfl
    · exact unload_controller wallet
  · rfl

theorem deliver_controller : Steps s.controller s.deliver.controller := by
  unfold System.deliver
  split
  · exact .stay
  next event events _ =>
    cases event with
    | consumeWalletNotifications => exact .step .consumeWalletNotifications trivial
    | unloaded model =>
      dsimp only
      split <;> exact .stay
    | walletUnloaded model => exact .step (.walletUnloaded model) trivial
    | completed id outcome => exact .step (.completed id outcome) trivial
    | shutdownFinished model => exact .step (.shutdownFinished model) trivial

theorem work_controller (progress : Progress) : Steps s.controller (s.work progress).controller := by
  unfold System.work
  split
  · exact .stay
  next running _ =>
    split
    · unfold System.loads
      split
      · exact .stay
      · exact .step (.notifyLoaded _) trivial
    · exact .stay
    · dsimp only
      split <;> exact .stay
    next wallet _ =>
      rw [setsUp_controller]
      exact .stay
    next wallet _ =>
      rw [setsUp_controller]
      exact .stay
    · exact .stay
    · exact .stay

theorem workModel_controller (task : ModelTask Name) : Steps s.controller (s.workModel task).controller := by
  unfold System.workModel
  split
  · dsimp only
    split
    · split
      · rw [unload_controller]
        exact .step (.takeModelTask task) trivial
      · exact .step (.takeModelTask task) trivial
    · exact .step (.takeModelTask task) trivial
  · exact .stay

theorem step_controller (hnames : Keyed Wallet.getWalletName s.wallets) (e : Event Name) :
    Steps s.controller (s.step e).controller := by
  cases e with
  | initializeWallets disablewallet => exact .step (.initializeWallets disablewallet s.wallets) hnames
  | call action => exact .step (.call action) trivial
  | beginShutdown => exact .step .beginShutdown trivial
  | deliver => exact deliver_controller
  | load name =>
    show Steps s.controller (s.load name).controller
    unfold System.load
    split
    · exact .stay
    · exact .step (.notifyLoaded _) trivial
  | post =>
    show Steps s.controller s.post.controller
    unfold System.post
    split <;> exact .stay
  | unload wallet =>
    show Steps s.controller (s.unload wallet).controller
    rw [unload_controller]
    exact .stay
  | take =>
    show Steps s.controller s.take.controller
    unfold System.take
    split
    · exact .step .takeTask trivial
    · exact .stay
  | work progress => exact work_controller progress
  | workModel task => exact workModel_controller task
  | drainModel model =>
    show Steps s.controller (s.drainModel model).controller
    unfold System.drainModel
    split <;> exact .stay

/-! ## The wallets of the node -/

/-- A name is loaded once, and a number is never used again. -/
structure Loaded (wallets : List (Wallet Name)) (next : Nat) : Prop where
  names : Keyed Wallet.getWalletName wallets
  fresh : ∀ wallet ∈ wallets, wallet.number < next

namespace Loaded

omit [DecidableEq Name] [Inhabited Name] in
theorem start : Loaded ([] : List (Wallet Name)) 0 := ⟨.nil, fun _ hmem => nomatch hmem⟩

theorem load (h : Loaded s.wallets s.next_wallet) {name : Name} (hname : name ∉ s.wallets.map Wallet.getWalletName)
    (creation : Option Nat) :
    Loaded (s.loadWallet name creation).wallets (s.loadWallet name creation).next_wallet := by
  refine ⟨h.names.snoc hname, fun wallet hmem => ?_⟩
  rcases List.mem_append.1 hmem with hmem | hmem
  · exact Nat.lt_succ_of_lt (h.fresh wallet hmem)
  · rw [List.mem_singleton.1 hmem]
    exact Nat.lt_succ_self _

theorem unload (h : Loaded s.wallets s.next_wallet) (wallet : Wallet Name) :
    Loaded (s.unload wallet).wallets (s.unload wallet).next_wallet := by
  unfold System.unload
  split
  · exact ⟨h.names.erase, fun other hmem => h.fresh other (List.mem_of_mem_erase hmem)⟩
  · exact h

theorem step (h : Loaded s.wallets s.next_wallet) (e : Event Name) :
    Loaded (s.step e).wallets (s.step e).next_wallet := by
  cases e with
  | initializeWallets | call | beginShutdown => exact h
  | deliver =>
    show Loaded s.deliver.wallets s.deliver.next_wallet
    unfold System.deliver
    split
    · exact h
    next event events _ =>
      cases event with
      | unloaded model =>
        dsimp only
        split <;> exact h
      | consumeWalletNotifications | walletUnloaded | completed | shutdownFinished => exact h
  | load name =>
    show Loaded (s.load name).wallets (s.load name).next_wallet
    unfold System.load
    split
    · exact h
    next hname => exact h.load hname none
  | post =>
    show Loaded s.post.wallets s.post.next_wallet
    unfold System.post
    split <;> exact h
  | unload wallet => exact h.unload wallet
  | take =>
    show Loaded s.take.wallets s.take.next_wallet
    unfold System.take
    split <;> exact h
  | work progress =>
    show Loaded (s.work progress).wallets (s.work progress).next_wallet
    unfold System.work
    split
    · exact h
    next running _ =>
      have hsetsUp : ∀ wallet success,
          Loaded (s.setsUp running wallet success).wallets (s.setsUp running wallet success).next_wallet := by
        intro wallet success
        unfold System.setsUp
        split
        · dsimp only
          split
          · exact h
          · exact unload (s := { s with setups := (running.id, success) :: s.setups }) h wallet
        · exact h
      split
      · unfold System.loads
        split
        · exact h
        next hname => exact h.load hname _
      · exact h
      · dsimp only
        split <;> exact h
      · exact hsetsUp _ _
      · exact hsetsUp _ _
      · exact h
      · exact h
  | workModel task =>
    show Loaded (s.workModel task).wallets (s.workModel task).next_wallet
    unfold System.workModel
    split
    · dsimp only
      split
      · split
        · exact unload (s := { s.input (.takeModelTask task) with drained := task.model :: s.drained }) h _
        · exact h
      · exact h
    · exact h
  | drainModel model =>
    show Loaded (s.drainModel model).wallets (s.drainModel model).next_wallet
    unfold System.drainModel
    split <;> exact h

end Loaded

variable {Allowed : System Name → Event Name → Prop}

theorem loaded_run (h : Reaches System.step Allowed {} s) : Loaded s.wallets s.next_wallet :=
  h.invariant (I := fun s => Loaded s.wallets s.next_wallet) .start fun _ e hloaded _ => hloaded.step e

theorem Steps.reaches {c c' : WalletQmlController Name} (h : Steps c c')
    (hreaches : Reaches Controller.step Distinct {} c) : Reaches Controller.step Distinct {} c' := by
  cases h with
  | stay => exact hreaches
  | step i hdistinct => exact hreaches.snoc i hdistinct

theorem controller_run (h : Reaches System.step Allowed {} s) : Reaches Controller.step Distinct {} s.controller := by
  have hstart : Loaded ({} : System Name).wallets ({} : System Name).next_wallet ∧
      Reaches Controller.step Distinct {} ({} : System Name).controller := ⟨.start, .refl⟩
  have hboth := h.invariant
    (I := fun s => Loaded s.wallets s.next_wallet ∧ Reaches Controller.step Distinct {} s.controller) hstart
    fun _ e hboth _ => ⟨hboth.1.step e, (step_controller hboth.1.names e).reaches hboth.2⟩
  exact hboth.2

/-! ## What a call can do -/

section calls

variable {c : WalletQmlController Name}

inductive Called (c : WalletQmlController Name) : Action Name → WalletQmlController Name → Prop
  | shown (action : Action Name) (in_progress : Bool) (selected : WalletQmlModel Name) :
    Called c action { c with m_wallet_load_in_progress := in_progress, m_selected_wallet := selected }
  | submitted (action : Action Name) (command : Command Name) (in_progress : Bool) (journal : List (Note Name))
      (hinitialized : c.m_initialized = true) (hplain : command.setup_wallet = false) :
    Called c action { c with
      m_wallet_load_in_progress := in_progress
      journal := journal
      m_wallet_command_executor := c.m_wallet_command_executor.submit command }
  | watchOnly (wallet_name : Name) (hidle : c.m_wallet_load_in_progress = false)
      (hinitialized : c.m_initialized = true) (hname : wallet_name ≠ default) :
    Called c (.createWatchOnlyWallet wallet_name true true)
      (c.clearWalletLoadStatus.createWalletAsync wallet_name true)
  | closed (path : Name) (model : WalletQmlModel Name) (hinitialized : c.m_initialized = true)
      (hmem : model ∈ c.m_wallets) :
    Called c (.closeWallet path false) (c.clearWalletLoadStatus.removeWalletModel model true)

theorem Called.same (action : Action Name) : Called c action c :=
  .shown action c.m_wallet_load_in_progress c.m_selected_wallet

theorem Called.cleared (action : Action Name) : Called c action c.clearWalletLoadStatus :=
  .shown action false c.m_selected_wallet

theorem call_called (action : Action Name) : Called c action (c.call action) := by
  cases action with
  | setSelectedWallet path load_target =>
    show Called c _ (c.setSelectedWallet path load_target)
    unfold WalletQmlController.setSelectedWallet
    split
    · exact .same _
    · split
      · exact .same _
      next hinitialized =>
        split
        · exact .shown _ false _
        · cases load_target with
          | none => exact .cleared _
          | some load_target =>
            exact .submitted _ (.loadWallet load_target) true (.loadStarted load_target c.closing :: c.journal)
              (by simpa using hinitialized) rfl
  | closeWallet path blank =>
    show Called c _ (c.closeWallet path blank)
    unfold WalletQmlController.closeWallet
    split
    · exact .same _
    next hinitialized =>
      split
      · exact .same _
      next hblank =>
        obtain rfl : blank = false := by simpa using hblank
        split
        · exact .cleared _
        next model hfind =>
          exact .closed path model (by simpa using hinitialized) (List.mem_of_find?_eq_some hfind)
  | createSingleSigWallet wallet_name available =>
    show Called c _ (c.createSingleSigWallet wallet_name available)
    unfold WalletQmlController.createSingleSigWallet
    split
    · exact .same _
    · split
      · exact .cleared _
      next hinitialized =>
        split
        · exact .cleared _
        · exact .submitted _ (.createWallet wallet_name false) true c.journal (by simpa using hinitialized) rfl
  | createExternalSignerWallet wallet_name available signer =>
    show Called c _ (c.createExternalSignerWallet wallet_name available signer)
    unfold WalletQmlController.createExternalSignerWallet
    split
    · exact .cleared _
    next hinitialized =>
      split
      · exact .cleared _
      · split
        · exact .cleared _
        · exact .submitted _ (.createWallet wallet_name false) true c.journal (by simpa using hinitialized) rfl
  | createWatchOnlyWallet wallet_name xpub_valid available =>
    show Called c _ (c.createWatchOnlyWallet wallet_name xpub_valid available)
    unfold WalletQmlController.createWatchOnlyWallet
    split
    · exact .same _
    next hidle =>
      split
      · exact .cleared _
      next hinitialized =>
        split
        · exact .cleared _
        next hvalid =>
          obtain rfl : xpub_valid = true := by simpa using hvalid
          split
          · exact .cleared _
          next hrefused =>
            have hname : wallet_name ≠ default := fun heq => hrefused (.inl heq)
            obtain rfl : available = true := by simpa using (not_or.1 hrefused).2
            exact .watchOnly wallet_name (by simpa using hidle) (by simpa using hinitialized) hname
  | importWallet restore_wallet_name =>
    show Called c _ (c.importWallet restore_wallet_name)
    unfold WalletQmlController.importWallet
    split
    · exact .same _
    next hinitialized =>
      cases restore_wallet_name with
      | none => exact .cleared _
      | some restore_wallet_name =>
        exact .submitted _ (.restoreWallet restore_wallet_name) true c.journal (by simpa using hinitialized) rfl
  | migrateWallet wallet_reference =>
    show Called c _ (c.migrateWallet wallet_reference)
    unfold WalletQmlController.migrateWallet
    split
    · exact .same _
    next hinitialized =>
      cases wallet_reference with
      | none => exact .cleared _
      | some wallet_reference =>
        exact .submitted _ (.migrateWallet wallet_reference) false c.journal (by simpa using hinitialized) rfl
  | clearWalletLoadStatus => exact .cleared _

end calls

/-! ## What an arriving wallet can do -/

section arrivals

variable {c : WalletQmlController Name} {wallet : Wallet Name}

/-- The notification of the wallet is dropped. -/
def Deferred (c : WalletQmlController Name) (wallet : Wallet Name) : Prop :=
  c.m_deferred_wallet_name ≠ default ∧ wallet.getWalletName = c.m_deferred_wallet_name

inductive Arrived (c : WalletQmlController Name) (wallet : Wallet Name) : WalletQmlController Name → Prop
  | selected (model : WalletQmlModel Name) (hmem : model ∈ c.m_wallets) (hname : model.name = wallet.getWalletName) :
    Arrived c wallet { c with m_selected_wallet := model, m_is_wallet_loaded := true }
  | added (hname : wallet.getWalletName ∉ c.m_wallets.map WalletQmlModel.name) :
    Arrived c wallet (c.addWalletModel wallet)

theorem addOrSelectWalletModel_arrived (hrunning : c.m_shutting_down = false) :
    Arrived c wallet (c.addOrSelectWalletModel (some wallet)) := by
  unfold WalletQmlController.addOrSelectWalletModel
  dsimp only
  rw [if_neg (by simp [hrunning])]
  cases hfind : c.m_wallets.find? fun model => model.name = wallet.getWalletName with
  | none => exact .added (Keyed.find?_eq_none.1 hfind)
  | some model => exact .selected model (Keyed.of_find? hfind).1 (Keyed.of_find? hfind).2

theorem handleLoadWallet_arrived (hrunning : c.m_shutting_down = false) :
    Deferred c wallet ∧ c.handleLoadWallet (some wallet) = c ∨
      ¬ Deferred c wallet ∧ Arrived c wallet (c.handleLoadWallet (some wallet)) := by
  unfold WalletQmlController.handleLoadWallet
  split
  next hdeferred => exact .inl ⟨by simpa [Deferred] using hdeferred, rfl⟩
  next hdeferred => exact .inr ⟨by simpa [Deferred] using hdeferred, addOrSelectWalletModel_arrived hrunning⟩

/-- Only the list, the selection and the notes differ. -/
def Arrives (c c' : WalletQmlController Name) : Prop :=
  ∃ wallets selected loaded next journal, c' = { c with
    m_wallets := wallets, m_selected_wallet := selected, m_is_wallet_loaded := loaded, next_model := next
    journal := journal }

omit [DecidableEq Name] in
theorem Arrived.arrives {c' : WalletQmlController Name} (h : Arrived c wallet c') : Arrives c c' := by
  cases h <;> exact ⟨_, _, _, _, _, rfl⟩

omit [DecidableEq Name] in
theorem Arrives.refl : Arrives c c := ⟨_, _, _, _, _, rfl⟩

omit [DecidableEq Name] in
theorem Arrives.trans {c' c'' : WalletQmlController Name} (h : Arrives c c') (h' : Arrives c' c'') :
    Arrives c c'' := by
  obtain ⟨_, _, _, _, _, rfl⟩ := h
  obtain ⟨_, _, _, _, _, rfl⟩ := h'
  exact ⟨_, _, _, _, _, rfl⟩

/-- What every arriving wallet keeps, all of them keep. -/
theorem handleAll_induction {P : WalletQmlController Name → Prop} {wallets : List (Wallet Name)}
    (hrunning : c.m_shutting_down = false) (hstart : P c)
    (hstep : ∀ wallet ∈ wallets, ∀ c' c'', Arrives c c' → P c' → ¬ Deferred c' wallet → Arrived c' wallet c'' →
      P c'') :
    P (wallets.foldl (fun c wallet => c.handleLoadWallet (some wallet)) c) ∧
      Arrives c (wallets.foldl (fun c wallet => c.handleLoadWallet (some wallet)) c) := by
  induction wallets generalizing c with
  | nil => exact ⟨hstart, .refl⟩
  | cons wallet wallets ih =>
    have hfirst : P (c.handleLoadWallet (some wallet)) ∧ Arrives c (c.handleLoadWallet (some wallet)) := by
      rcases @handleLoadWallet_arrived _ _ _ c wallet hrunning with ⟨-, heq⟩ | ⟨hdeferred, harrived⟩
      · rw [heq]
        exact ⟨hstart, .refl⟩
      · exact ⟨hstep wallet List.mem_cons_self c _ .refl hstart hdeferred harrived, harrived.arrives⟩
    have hdown : (c.handleLoadWallet (some wallet)).m_shutting_down = false := by
      obtain ⟨_, _, _, _, _, heq⟩ := hfirst.2
      rw [heq]
      exact hrunning
    obtain ⟨hall, hlast⟩ := ih hdown hfirst.1 fun other hmem c' c'' h =>
      hstep other (List.mem_cons_of_mem _ hmem) c' c'' (hfirst.2.trans h)
    exact ⟨hall, hfirst.2.trans hlast⟩

end arrivals

end GuiQml.Controller
