import GuiQml.Controller.Node

/-!
# The wallet that is set up before it is shown

`createWatchOnlyWallet` remembers one name. The load notification of its wallet is dropped as long as that name
is remembered, and the queue of the GUI thread hands the notification over before the completion.
-/

namespace GuiQml.Controller

open Reach

variable {Name : Type} {events more : List (GuiEvent Name)} {id next : Nat} {outstanding : List Nat}
variable {setups : List (Nat × Bool)} {event : GuiEvent Name}

/-! ## The numbers of the commands -/

/-- The command has returned, or its setup function has. -/
def Past (events : List (GuiEvent Name)) (setups : List (Nat × Bool)) (id : Nat) : Prop :=
  (∃ outcome, .completed id outcome ∈ events) ∨ id ∈ setups.map Prod.fst

/-- A command that waits or runs has not returned. -/
structure Numbered (outstanding : List Nat) (events : List (GuiEvent Name)) (setups : List (Nat × Bool))
    (next : Nat) : Prop where
  distinct : outstanding.Nodup
  bounded : ∀ id ∈ outstanding, id ≤ next ∧ ¬ Past events setups id
  past : ∀ id, Past events setups id → id ≤ next
  once : Keyed Prod.fst setups

namespace Numbered

theorem start : Numbered [] ([] : List (GuiEvent Name)) [] 0 :=
  ⟨.nil, nofun, fun _ hpast => hpast.elim (fun h => nomatch h) (fun h => nomatch h), .nil⟩

theorem submit (h : Numbered outstanding events setups next) :
    Numbered (outstanding ++ [next + 1]) events setups (next + 1) := by
  refine ⟨?_, fun id hid => ?_, fun id hpast => Nat.le_succ_of_le (h.past id hpast), h.once⟩
  · refine List.nodup_append.2 ⟨h.distinct, List.nodup_singleton _, fun id hid id' hid' heq => ?_⟩
    rw [heq, List.mem_singleton.1 hid'] at hid
    exact absurd (h.bounded _ hid).1 (Nat.not_succ_le_self next)
  · rcases List.mem_append.1 hid with hid | hid
    · exact ⟨Nat.le_succ_of_le (h.bounded id hid).1, (h.bounded id hid).2⟩
    · rw [List.mem_singleton.1 hid]
      exact ⟨Nat.le_refl _, fun hpast => absurd (h.past _ hpast) (Nat.not_succ_le_self next)⟩

theorem past_of_sub {events' : List (GuiEvent Name)} (hsub : ∀ id outcome, .completed id outcome ∈ events' →
    .completed id outcome ∈ events) (hpast : Past events' setups id) : Past events setups id :=
  hpast.imp_left fun ⟨outcome, hmem⟩ => ⟨outcome, hsub id outcome hmem⟩

theorem sub (h : Numbered outstanding events setups next) {events' : List (GuiEvent Name)}
    (hsub : ∀ id outcome, .completed id outcome ∈ events' → .completed id outcome ∈ events) :
    Numbered outstanding events' setups next :=
  ⟨h.distinct, fun id hid => ⟨(h.bounded id hid).1, fun hpast => (h.bounded id hid).2 (past_of_sub hsub hpast)⟩,
    fun id hpast => h.past id (past_of_sub hsub hpast), h.once⟩

theorem pop (h : Numbered outstanding (event :: events) setups next) : Numbered outstanding events setups next :=
  h.sub fun _ _ hmem => List.mem_cons_of_mem _ hmem

theorem append (h : Numbered outstanding events setups next)
    (hmore : ∀ id outcome, .completed id outcome ∉ more) : Numbered outstanding (events ++ more) setups next :=
  h.sub fun id outcome hmem => (List.mem_append.1 hmem).resolve_right (hmore id outcome)

theorem ended (h : Numbered outstanding events setups next) (hout : id ∉ outstanding) (hle : id ≤ next)
    (outcome : Outcome Name) : Numbered outstanding (events ++ [.completed id outcome]) setups next := by
  have hpast : ∀ other, Past (events ++ [.completed id outcome]) setups other →
      other = id ∨ Past events setups other := by
    rintro other (⟨outcome', hmem⟩ | hmem)
    · rcases List.mem_append.1 hmem with hmem | hmem
      · exact .inr (.inl ⟨outcome', hmem⟩)
      · cases List.mem_singleton.1 hmem
        exact .inl rfl
    · exact .inr (.inr hmem)
  refine ⟨h.distinct, fun other hother => ⟨(h.bounded other hother).1, fun hp => ?_⟩, fun other hp => ?_, h.once⟩
  · rcases hpast other hp with rfl | hp
    · exact hout hother
    · exact (h.bounded other hother).2 hp
  · rcases hpast other hp with rfl | hp
    · exact hle
    · exact h.past other hp

theorem called (h : Numbered outstanding events setups next) (hout : id ∉ outstanding) (hle : id ≤ next)
    (hnew : id ∉ setups.map Prod.fst) (success : Bool) :
    Numbered outstanding events ((id, success) :: setups) next := by
  have hpast : ∀ other, Past events ((id, success) :: setups) other → other = id ∨ Past events setups other := by
    rintro other (hmem | hmem)
    · exact .inr (.inl hmem)
    · exact (List.mem_cons.1 hmem).imp_right .inr
  refine ⟨h.distinct, fun other hother => ⟨(h.bounded other hother).1, fun hp => ?_⟩, fun other hp => ?_,
    h.once.cons hnew⟩
  · rcases hpast other hp with rfl | hp
    · exact hout hother
    · exact (h.bounded other hother).2 hp
  · rcases hpast other hp with rfl | hp
    · exact hle
    · exact h.past other hp

theorem drop (h : Numbered (id :: outstanding) events setups next) :
    Numbered outstanding events setups next ∧ id ∉ outstanding ∧ id ≤ next ∧ id ∉ setups.map Prod.fst := by
  obtain ⟨hout, hdistinct⟩ := List.nodup_cons.1 h.distinct
  have hid := h.bounded id List.mem_cons_self
  exact ⟨⟨hdistinct, fun other hother => h.bounded other (List.mem_cons_of_mem _ hother), h.past, h.once⟩, hout, hid.1,
    fun hmem => hid.2 (.inr hmem)⟩

end Numbered

/-! ## What stands ahead of a completion -/

def GuiEvent.completes (id : Nat) : GuiEvent Name → Bool
  | .completed other _ => other = id
  | _ => false

/-- The mailbox is emptied before the command completes. -/
def Ahead (id : Nat) : List (GuiEvent Name) → Prop
  | [] => False
  | event :: events => event = .consumeWalletNotifications ∨ event.completes id = false ∧ Ahead id events

namespace Ahead

theorem append (h : Ahead id events) (more : List (GuiEvent Name)) : Ahead id (events ++ more) := by
  induction events with
  | nil => exact False.elim h
  | cons event events ih => exact h.imp_right fun h => ⟨h.1, ih h.2⟩

theorem post (h : ∀ outcome, .completed id outcome ∉ events) :
    Ahead id (events ++ [.consumeWalletNotifications]) := by
  induction events with
  | nil => exact .inl rfl
  | cons event events ih =>
    refine .inr ⟨?_, ih fun outcome hmem => h outcome (List.mem_cons_of_mem _ hmem)⟩
    cases event with
    | completed other outcome =>
      refine decide_eq_false fun heq => ?_
      subst heq
      exact h outcome List.mem_cons_self
    | consumeWalletNotifications | unloaded | walletUnloaded | shutdownFinished => rfl

theorem pop (h : Ahead id (event :: events)) (hevent : event ≠ .consumeWalletNotifications) :
    event.completes id = false ∧ Ahead id events := h.resolve_left hevent

end Ahead

/-! ## A wallet that is being created -/

variable [Inhabited Name] {s : System Name} {name : Name}

/-- The command waits or runs, or its wallet waits in the mailbox and its setup function has not succeeded. -/
def Creating (s : System Name) (id : Nat) (name : Name) : Prop :=
  (id, .createWallet name true) ∈ s.controller.m_wallet_command_executor.tasks ∨
    (∃ stage, s.worker = some ⟨id, .createWallet name true, stage⟩) ∨
    ∃ wallet ∈ s.controller.m_load_notifications,
      wallet.creation = some id ∧ wallet.getWalletName = name ∧ (id, true) ∉ s.setups

/-- The command that completes when the GUI thread takes what was posted first. -/
def completing (s : System Name) : Option (Nat × Command Name × Outcome Name) :=
  match s.events with
  | .completed id outcome :: _ =>
    (s.controller.m_wallet_command_executor.m_gui_completions.find? fun completion => completion.1 = id).map
      fun completion => (id, completion.2, outcome)
  | _ => none

/-- The remembered name is not replaced while another one is wanted, and not forgotten while it still is. -/
def OneName (s : System Name) : Event Name → Prop
  | .call (.createWatchOnlyWallet wallet_name true true) =>
    s.controller.m_wallet_load_in_progress = false → s.controller.m_initialized = true → wallet_name ≠ default →
      ∀ id name, Creating s id name → name = wallet_name
  | .deliver =>
    match completing s with
    | some (id, .createWallet wallet_name _, .returned _) => ∀ other, other ≠ id → ¬ Creating s other wallet_name
    | some (id, .createWallet _ _, .threw) => ∀ other name, other ≠ id → ¬ Creating s other name
    | _ => True
  | _ => True

/-- No wallet of `createWatchOnlyWallet` is in the list or selected unless its setup function has succeeded. -/
def Published (s : System Name) : Prop :=
  ∀ model, (model ∈ s.controller.m_wallets ∨ model = s.controller.m_selected_wallet) →
    ∀ wallet, model.m_wallet = some wallet → ∀ id, wallet.creation = some id →
      (id, true) ∈ s.setups ∧ (id, false) ∉ s.setups

structure Deferring (s : System Name) : Prop where
  remembered : ∀ id name, Creating s id name → name ≠ default ∧ s.controller.m_deferred_wallet_name = name
  mailed : ∀ wallet ∈ s.controller.m_load_notifications, ∀ id, wallet.creation = some id →
    (id, true) ∈ s.setups ∨ (∃ command, s.worker = some ⟨id, command, .notifying wallet⟩) ∨ Ahead id s.events
  working : ∀ running, s.worker = some running → ∀ wallet,
    running.stage = .notifying wallet ∨ running.stage = .loaded wallet → ∀ id, wallet.creation = some id →
      id = running.id ∧ running.command = .createWallet wallet.getWalletName true
  returned : ∀ id wallet, .completed id (.returned (some wallet)) ∈ s.events → ∀ creation,
    wallet.creation = some creation → (creation, true) ∈ s.setups
  published : ∀ model ∈ s.controller.m_wallets, ∀ wallet, model.m_wallet = some wallet → ∀ id,
    wallet.creation = some id → (id, true) ∈ s.setups

/-- Nothing has been asked for before the controller is initialised. -/
structure Unasked (s : System Name) : Prop where
  worker : s.worker = none
  tasks : s.controller.m_wallet_command_executor.tasks = []
  events : ∀ id outcome, .completed id outcome ∉ s.events
  creation : ∀ wallet ∈ s.wallets, wallet.creation = none

def System.commandIds (s : System Name) : List Nat :=
  s.worker.toList.map Running.id ++ s.controller.m_wallet_command_executor.tasks.map Prod.fst

structure Safe (s : System Name) : Prop where
  numbered : Numbered s.commandIds s.events s.setups s.controller.m_wallet_command_executor.m_next_task_id
  deferring : s.controller.m_initialized = true → Deferring s
  unasked : s.controller.m_initialized = false → s.controller.m_shutting_down = false → Unasked s

namespace Deferring

theorem append (h : Deferring s) (hmore : ∀ id wallet, .completed id (.returned (some wallet)) ∉ more) :
    Deferring { s with events := s.events ++ more } where
  remembered := h.remembered
  mailed wallet hmem id hcreation := (h.mailed wallet hmem id hcreation).imp_right (.imp_right fun h => h.append more)
  working := h.working
  returned id wallet hmem := h.returned id wallet ((List.mem_append.1 hmem).resolve_right (hmore id wallet))
  published := h.published

theorem pop (h : Deferring s) {events : List (GuiEvent Name)} (hevents : s.events = event :: events)
    (hevent : event ≠ .consumeWalletNotifications) :
    Deferring { s with events } where
  remembered := h.remembered
  mailed wallet hmem id hcreation :=
    (h.mailed wallet hmem id hcreation).imp_right (.imp_right fun h => ((hevents ▸ h).pop hevent).2)
  working := h.working
  returned id wallet hmem := h.returned id wallet (hevents ▸ List.mem_cons_of_mem _ hmem)
  published := h.published

theorem asked (h : Deferring s) {c : WalletQmlController Name}
    (hwallets : ∀ model ∈ c.m_wallets, model ∈ s.controller.m_wallets)
    (hnotifications : c.m_load_notifications = s.controller.m_load_notifications)
    (hdeferred : c.m_deferred_wallet_name = s.controller.m_deferred_wallet_name)
    (htasks : ∀ id name, (id, .createWallet name true) ∈ c.m_wallet_command_executor.tasks →
      (id, .createWallet name true) ∈ s.controller.m_wallet_command_executor.tasks) :
    Deferring { s with controller := c } where
  remembered id name hcreating := by
    rw [show ({ s with controller := c } : System Name).controller.m_deferred_wallet_name = _ from hdeferred]
    refine h.remembered id name ?_
    rcases hcreating with htask | hworker | ⟨wallet, hmem, hcreation⟩
    · exact .inl (htasks id name htask)
    · exact .inr (.inl hworker)
    · exact .inr (.inr ⟨wallet, hnotifications ▸ hmem, hcreation⟩)
  mailed wallet hmem := h.mailed wallet (hnotifications ▸ hmem)
  working := h.working
  returned := h.returned
  published model hmem := h.published model (hwallets model hmem)

end Deferring

omit [Inhabited Name] in
theorem mem_submit {e : BackendExecutor Name} {command : Command Name} {task : Nat × Command Name}
    (hmem : task ∈ (e.submit command).tasks) : task ∈ e.tasks ∨ task = (e.m_next_task_id + 1, command) := by
  unfold BackendExecutor.submit at hmem
  split at hmem
  · exact .inl hmem
  · exact (List.mem_append.1 hmem).imp_right List.mem_singleton.1

theorem Numbered.submitted (h : Numbered s.commandIds s.events s.setups
    s.controller.m_wallet_command_executor.m_next_task_id) (command : Command Name) :
    Numbered (s.worker.toList.map Running.id ++
        (s.controller.m_wallet_command_executor.submit command).tasks.map Prod.fst) s.events s.setups
      (s.controller.m_wallet_command_executor.submit command).m_next_task_id := by
  unfold BackendExecutor.submit
  split
  · exact h
  · have hsubmit := h.submit
    unfold System.commandIds at hsubmit
    simpa using hsubmit

namespace Safe

theorem start : Safe ({} : System Name) :=
  ⟨.start, nofun, fun _ _ => ⟨rfl, rfl, (fun _ _ hmem => nomatch hmem), fun _ hmem => nomatch hmem⟩⟩

theorem elsewhere (h : Safe s) (posting : Nat) (drained : List Nat) : Safe { s with posting, drained } where
  numbered := h.numbered
  deferring hc :=
    have hdeferring := h.deferring hc
    ⟨hdeferring.remembered, hdeferring.mailed, hdeferring.working, hdeferring.returned, hdeferring.published⟩
  unasked hc hr :=
    have hunasked := h.unasked hc hr
    ⟨hunasked.worker, hunasked.tasks, hunasked.events, hunasked.creation⟩

theorem append (h : Safe s) (more : List (GuiEvent Name)) (hmore : ∀ id outcome, .completed id outcome ∉ more) :
    Safe { s with events := s.events ++ more } where
  numbered := h.numbered.append hmore
  deferring hinitialized := (h.deferring hinitialized).append fun id _ => hmore id _
  unasked hinitialized hrunning :=
    have hunasked := h.unasked hinitialized hrunning
    ⟨hunasked.worker, hunasked.tasks, fun id outcome hmem =>
      (List.mem_append.1 hmem).elim (hunasked.events id outcome) (hmore id outcome), hunasked.creation⟩

theorem pop (h : Safe s) {events : List (GuiEvent Name)} (hevents : s.events = event :: events)
    (hevent : event ≠ .consumeWalletNotifications) : Safe { s with events } where
  numbered := (hevents ▸ h.numbered).pop
  deferring hinitialized := (h.deferring hinitialized).pop hevents hevent
  unasked hinitialized hrunning :=
    have hunasked := h.unasked hinitialized hrunning
    ⟨hunasked.worker, hunasked.tasks, fun id outcome hmem =>
      hunasked.events id outcome (hevents ▸ List.mem_cons_of_mem _ hmem), hunasked.creation⟩

theorem quiet (h : Safe s) {c : WalletQmlController Name}
    (hwallets : ∀ model ∈ c.m_wallets, model ∈ s.controller.m_wallets)
    (hnotifications : c.m_load_notifications = s.controller.m_load_notifications)
    (hdeferred : c.m_deferred_wallet_name = s.controller.m_deferred_wallet_name)
    (htasks : c.m_wallet_command_executor.tasks = s.controller.m_wallet_command_executor.tasks)
    (hnext : c.m_wallet_command_executor.m_next_task_id = s.controller.m_wallet_command_executor.m_next_task_id)
    (hinitialized : c.m_initialized = s.controller.m_initialized)
    (hrunning : c.m_shutting_down = s.controller.m_shutting_down) : Safe { s with controller := c } where
  numbered := by
    have hnumbered := h.numbered
    unfold System.commandIds at hnumbered ⊢
    rw [← htasks, ← hnext] at hnumbered
    exact hnumbered
  deferring hc := by
    refine (h.deferring (hinitialized.symm.trans hc)).asked hwallets hnotifications hdeferred fun id name hmem => ?_
    exact htasks ▸ hmem
  unasked hc hr := by
    have hunasked := h.unasked (hinitialized.symm.trans hc) (hrunning.symm.trans hr)
    exact ⟨hunasked.worker, htasks.trans hunasked.tasks, hunasked.events, hunasked.creation⟩

theorem removeWalletModel [DecidableEq Name] (h : Safe s) (hcore : Core s.controller) {model : WalletQmlModel Name}
    (hmem : model ∈ s.controller.m_wallets) (in_progress remove : Bool) :
    Safe { s with
      controller :=
        { s.controller with m_wallet_load_in_progress := in_progress }.removeWalletModel model remove } := by
  have hcore : Core { s.controller with m_wallet_load_in_progress := in_progress } :=
    ⟨hcore.listed, hcore.retiring, hcore.flagged, hcore.keeps⟩
  rw [removeWalletModel_eq hcore hmem]
  exact h.quiet (fun other hother => List.mem_of_mem_erase hother) rfl rfl rfl rfl rfl rfl

/-! ### What the user asks for -/

theorem submit (h : Safe s) (hinitialized : s.controller.m_initialized = true) {command : Command Name}
    (hplain : command.setup_wallet = false) (in_progress : Bool) (journal : List (Note Name)) :
    Safe { s with controller := { s.controller with
      m_wallet_load_in_progress := in_progress
      journal := journal
      m_wallet_command_executor := s.controller.m_wallet_command_executor.submit command } } where
  numbered := h.numbered.submitted command
  deferring _ := by
    refine (h.deferring hinitialized).asked (fun _ hother => hother) rfl rfl fun id name hmem => ?_
    refine (mem_submit hmem).resolve_right fun hnew => ?_
    rw [← show Command.createWallet name true = command from congrArg Prod.snd hnew] at hplain
    exact nomatch hplain
  unasked hidle := nomatch hinitialized.symm.trans hidle

theorem createWatchOnly (h : Safe s) (hinitialized : s.controller.m_initialized = true) {wallet_name : Name}
    (hname : wallet_name ≠ default) (honly : ∀ id name, Creating s id name → name = wallet_name) :
    Safe { s with controller := s.controller.clearWalletLoadStatus.createWalletAsync wallet_name true } where
  numbered := h.numbered.submitted _
  deferring _ := by
    have hdeferring := h.deferring hinitialized
    refine ⟨fun id name hcreating => ?_, hdeferring.mailed, hdeferring.working, hdeferring.returned,
      hdeferring.published⟩
    have heq : name = wallet_name := by
      rcases hcreating with htask | hcreating
      · rcases mem_submit htask with htask | hnew
        · exact honly id name (.inl htask)
        · exact (Command.createWallet.inj (congrArg Prod.snd hnew)).1
      · exact honly id name (.inr hcreating)
    subst heq
    exact ⟨hname, rfl⟩
  unasked hidle := nomatch hinitialized.symm.trans hidle

theorem call [DecidableEq Name] (h : Safe s) (hcore : Core s.controller) {action : Action Name}
    (hallowed : OneName s (.call action)) : Safe { s with controller := s.controller.call action } := by
  have hcalled := call_called (c := s.controller) action
  generalize s.controller.call action = c at hcalled
  cases hcalled with
  | shown => exact h.quiet (fun _ hother => hother) rfl rfl rfl rfl rfl rfl
  | submitted _ command in_progress journal hinitialized hplain =>
    exact h.submit hinitialized hplain in_progress journal
  | watchOnly wallet_name hidle hinitialized hname =>
    exact h.createWatchOnly hinitialized hname (hallowed hidle hinitialized hname)
  | closed path model hinitialized hmem => exact h.removeWalletModel hcore hmem false true

end Safe

section frames

variable [DecidableEq Name] {c : WalletQmlController Name}

omit [DecidableEq Name] in
theorem notifyLoaded_frame (c : WalletQmlController Name) (wallet : Wallet Name) :
    ∃ notifications, c.notifyLoaded wallet = { c with m_load_notifications := notifications } ∧
      ∀ other ∈ notifications, other ∈ c.m_load_notifications ∨ other = wallet := by
  unfold WalletQmlController.notifyLoaded
  split
  · exact ⟨_, rfl, fun other hmem => (List.mem_append.1 hmem).imp_right List.mem_singleton.1⟩
  · exact ⟨_, rfl, fun other hmem => .inl hmem⟩

theorem retireWallet_executor (model : WalletQmlModel Name) (remove : Bool) :
    (c.retireWallet model remove).m_wallet_command_executor = c.m_wallet_command_executor := by
  unfold WalletQmlController.retireWallet
  split <;> rfl

theorem removeWalletModel_executor (model : WalletQmlModel Name) (remove : Bool) :
    (c.removeWalletModel model remove).m_wallet_command_executor = c.m_wallet_command_executor := by
  unfold WalletQmlController.removeWalletModel
  split
  · rfl
  · exact retireWallet_executor model remove

theorem removeAll_executor (wallets : List (WalletQmlModel Name)) :
    (wallets.foldl (fun c wallet => c.removeWalletModel wallet false) c).m_wallet_command_executor =
      c.m_wallet_command_executor := by
  induction wallets generalizing c with
  | nil => rfl
  | cons wallet wallets ih => exact ih.trans (removeWalletModel_executor wallet false)

theorem beginShutdown_executor (hrunning : c.m_shutting_down = false) :
    c.beginShutdown.m_wallet_command_executor = c.m_wallet_command_executor.shutdown := by
  unfold WalletQmlController.beginShutdown
  rw [if_neg (by simp [hrunning])]
  exact congrArg BackendExecutor.shutdown ((retireWallet_executor _ _).trans (removeAll_executor _))

omit [DecidableEq Name] in
theorem mem_listAll {wallets : List (Wallet Name)} {model : WalletQmlModel Name}
    (hmem : model ∈ (wallets.foldl WalletQmlController.listWallet c).m_wallets) :
    model ∈ c.m_wallets ∨ ∃ wallet ∈ wallets, model.m_wallet = some wallet := by
  induction wallets generalizing c with
  | nil => exact .inl hmem
  | cons wallet wallets ih =>
    rcases ih hmem with hmem | ⟨other, hother, heq⟩
    · rcases List.mem_append.1 hmem with hmem | hmem
      · exact .inl hmem
      · exact .inr ⟨wallet, List.mem_cons_self, by rw [List.mem_singleton.1 hmem]; rfl⟩
    · exact .inr ⟨other, List.mem_cons_of_mem _ hother, heq⟩

end frames

namespace Safe

/-! ### The initialisation and the shutdown -/

theorem listed (h : Unasked s) (hnumbered : Numbered s.commandIds s.events s.setups
      s.controller.m_wallet_command_executor.m_next_task_id) {c : WalletQmlController Name}
    (hexecutor : c.m_wallet_command_executor = s.controller.m_wallet_command_executor)
    (hnotifications : c.m_load_notifications = []) (hinitialized : c.m_initialized = true)
    (hwallets : ∀ model ∈ c.m_wallets, ∃ wallet ∈ s.wallets, model.m_wallet = some wallet) :
    Safe { s with controller := c } where
  numbered := by
    unfold System.commandIds at hnumbered ⊢
    rw [← hexecutor] at hnumbered
    exact hnumbered
  deferring _ := by
    refine ⟨fun id name hcreating => ?_, fun wallet hmem => ?_, fun running hworker => ?_, fun id wallet hmem => ?_,
      fun model hmem wallet hwallet id hcreation => ?_⟩
    · rcases hcreating with htask | ⟨stage, hworker⟩ | ⟨wallet, hmem, -⟩
      · rw [show c.m_wallet_command_executor.tasks = [] by rw [hexecutor]; exact h.tasks] at htask
        exact nomatch htask
      · exact nomatch h.worker.symm.trans hworker
      · rw [hnotifications] at hmem
        exact nomatch hmem
    · rw [hnotifications] at hmem
      exact nomatch hmem
    · exact nomatch h.worker.symm.trans hworker
    · exact absurd hmem (h.events id _)
    · obtain ⟨other, hother, heq⟩ := hwallets model hmem
      obtain rfl := Option.some.inj (hwallet.symm.trans heq)
      exact nomatch hcreation.symm.trans (h.creation wallet hother)
  unasked hidle := nomatch hinitialized.symm.trans hidle

variable [DecidableEq Name]

omit [DecidableEq Name] in
theorem initializeWallets (h : Safe s) (hinv : Inv s.controller) (disablewallet : Bool) :
    Safe { s with controller := s.controller.initializeWallets disablewallet s.wallets } := by
  unfold WalletQmlController.initializeWallets
  split
  · exact h
  next hnew =>
    simp only [Bool.or_eq_true, not_or, Bool.not_eq_true] at hnew
    split
    · exact h
    · have hidle := hinv.idle hnew.1
      have hunasked := h.unasked hnew.1 hnew.2
      have hmem : ∀ model ∈ (s.wallets.foldl WalletQmlController.listWallet
          { s.controller with m_handler_load_wallet := true }).m_wallets,
          model ∈ s.controller.m_wallets ∨ ∃ wallet ∈ s.wallets, model.m_wallet = some wallet := fun _ => mem_listAll
      obtain ⟨next, models, journal, heq, -⟩ :=
        listAll_frame (c := { s.controller with m_handler_load_wallet := true }) s.wallets
      dsimp only
      rw [heq] at hmem ⊢
      have hmodels : ∀ model ∈ models, ∃ wallet ∈ s.wallets, model.m_wallet = some wallet := fun model hin =>
        (hmem model hin).resolve_left fun hold => by
          rw [show s.controller.m_wallets = [] from hidle.wallets] at hold
          exact nomatch hold
      split
      · exact listed hunasked h.numbered rfl hidle.notifications rfl hmodels
      · exact listed hunasked h.numbered rfl hidle.notifications rfl hmodels

theorem beginShutdown (h : Safe s) (hinv : Inv s.controller) :
    Safe { s with controller := s.controller.beginShutdown } := by
  by_cases hrunning : s.controller.m_shutting_down = false
  · obtain ⟨hidle, hdown⟩ := hinv.beginShutdown_stopped hrunning
    refine ⟨?_, (fun hinitialized => nomatch hidle.symm.trans hinitialized),
      fun _ hup => nomatch hdown.symm.trans hup⟩
    have hnumbered := h.numbered
    unfold System.commandIds at hnumbered ⊢
    rw [show s.controller.beginShutdown.m_wallet_command_executor = _ from beginShutdown_executor hrunning]
    exact hnumbered
  · unfold WalletQmlController.beginShutdown
    rw [if_pos (by simpa using hrunning)]
    exact h

/-! ### The GUI thread -/

theorem walletUnloaded (h : Safe s) (hcore : Core s.controller) (id : Nat) :
    Safe { s with controller := s.controller.walletUnloaded id } := by
  unfold WalletQmlController.walletUnloaded
  split
  · exact h
  next model hfind =>
    exact h.removeWalletModel hcore (List.mem_of_find?_eq_some hfind) s.controller.m_wallet_load_in_progress false

theorem shutdownFinished (h : Safe s) (id : Nat) :
    Safe { s with controller := s.controller.shutdownFinished id } := by
  unfold WalletQmlController.shutdownFinished WalletQmlController.checkShutdownFinished
  split
  · exact h
  · split
    · exact h.quiet (fun _ hother => hother) rfl rfl rfl rfl rfl rfl
    · exact h.quiet (fun _ hother => hother) rfl rfl rfl rfl rfl rfl

/-- Every open model of a watch-only wallet is one whose setup function has succeeded. -/
def SetUp (setups : List (Nat × Bool)) (c : WalletQmlController Name) : Prop :=
  ∀ model ∈ c.m_wallets, ∀ wallet, model.m_wallet = some wallet → ∀ id, wallet.creation = some id →
    (id, true) ∈ setups

omit [DecidableEq Name] in
theorem SetUp.arrived {c c' : WalletQmlController Name} {wallet : Wallet Name} (h : SetUp setups c)
    (hwallet : ∀ id, wallet.creation = some id → (id, true) ∈ setups) (harrived : Arrived c wallet c') :
    SetUp setups c' := by
  cases harrived with
  | selected => exact h
  | added hname =>
    intro model hmem other hother id hcreation
    rcases List.mem_append.1 hmem with hmem | hmem
    · exact h model hmem other hother id hcreation
    · rw [List.mem_singleton.1 hmem] at hother
      obtain rfl := Option.some.inj hother
      exact hwallet id hcreation

theorem SetUp.consume {c : WalletQmlController Name} (h : SetUp setups c) (hrunning : c.m_shutting_down = false)
    (hmailed : ∀ wallet ∈ c.m_load_notifications, ∀ id, wallet.creation = some id →
      (id, true) ∈ setups ∨ Deferred c wallet) :
    SetUp setups c.consumeWalletNotifications ∧
      Arrives { c with m_load_notifications := [] } c.consumeWalletNotifications := by
  unfold WalletQmlController.consumeWalletNotifications
  rw [if_neg (by simp [hrunning])]
  refine handleAll_induction hrunning h fun wallet hmem c' c'' harrives hset hkept harrived => ?_
  refine hset.arrived (fun id hcreation =>
    (hmailed wallet hmem id hcreation).resolve_right fun hdeferred => ?_) harrived
  obtain ⟨_, _, _, _, _, rfl⟩ := harrives
  exact hkept hdeferred

theorem SetUp.addOrSelect {c : WalletQmlController Name} (h : SetUp setups c) (hrunning : c.m_shutting_down = false)
    {wallet : Option (Wallet Name)}
    (hbrought : ∀ brought, wallet = some brought → ∀ id, brought.creation = some id → (id, true) ∈ setups) :
    SetUp setups (c.addOrSelectWalletModel wallet) ∧ Arrives c (c.addOrSelectWalletModel wallet) := by
  cases wallet with
  | none => exact ⟨h, .refl⟩
  | some brought =>
    have harrived : Arrived c brought (c.addOrSelectWalletModel (some brought)) :=
      addOrSelectWalletModel_arrived hrunning
    exact ⟨h.arrived (hbrought brought rfl) harrived, harrived.arrives⟩

theorem SetUp.handleLoad {c : WalletQmlController Name} (h : SetUp setups c) (hrunning : c.m_shutting_down = false)
    {wallet : Option (Wallet Name)}
    (hbrought : ∀ brought, wallet = some brought → ∀ id, brought.creation = some id → (id, true) ∈ setups) :
    SetUp setups (c.handleLoadWallet wallet) ∧ Arrives c (c.handleLoadWallet wallet) := by
  unfold WalletQmlController.handleLoadWallet
  split
  · exact ⟨h, .refl⟩
  · exact h.addOrSelect hrunning hbrought

theorem SetUp.complete {c : WalletQmlController Name} (h : SetUp setups c) (hrunning : c.m_shutting_down = false)
    (command : Command Name) {outcome : Outcome Name}
    (hbrought : ∀ brought, outcome = .returned (some brought) → ∀ id, brought.creation = some id →
      (id, true) ∈ setups) :
    SetUp setups (c.complete command outcome) ∧ ∃ deferred in_progress,
      Arrives { c with m_deferred_wallet_name := deferred, m_wallet_load_in_progress := in_progress }
          (c.complete command outcome) ∧
        (deferred = c.m_deferred_wallet_name ∨ ∃ wallet_name setup_wallet,
          command = .createWallet wallet_name setup_wallet ∧
            (outcome = .threw ∨ c.m_deferred_wallet_name = wallet_name)) := by
  cases outcome with
  | returned wallet =>
    have hbrought := fun brought (heq : wallet = some brought) => hbrought brought (congrArg _ heq)
    cases command with
    | createWallet wallet_name setup_wallet =>
      obtain ⟨hset, harrives⟩ := SetUp.addOrSelect (c := { c with
        m_deferred_wallet_name := if c.m_deferred_wallet_name = wallet_name then default
          else c.m_deferred_wallet_name
        m_wallet_load_in_progress := false }) h hrunning hbrought
      refine ⟨hset, _, _, harrives, ?_⟩
      split
      next heq => exact .inr ⟨wallet_name, setup_wallet, rfl, .inr heq⟩
      · exact .inl rfl
    | migrateWallet wallet_reference =>
      obtain ⟨hset, harrives⟩ := h.handleLoad hrunning hbrought
      exact ⟨hset, c.m_deferred_wallet_name, c.m_wallet_load_in_progress, harrives, .inl rfl⟩
    | loadWallet | restoreWallet =>
      obtain ⟨hset, harrives⟩ :=
        SetUp.addOrSelect (c := { c with m_wallet_load_in_progress := false }) h hrunning hbrought
      exact ⟨hset, c.m_deferred_wallet_name, false, harrives, .inl rfl⟩
  | threw =>
    cases command with
    | createWallet wallet_name setup_wallet =>
      exact ⟨h, default, false, .refl, .inr ⟨wallet_name, setup_wallet, rfl, .inl rfl⟩⟩
    | migrateWallet => exact ⟨h, c.m_deferred_wallet_name, c.m_wallet_load_in_progress, .refl, .inl rfl⟩
    | loadWallet | restoreWallet => exact ⟨h, c.m_deferred_wallet_name, false, .refl, .inl rfl⟩

theorem consume (h : Safe s) (hinv : Inv s.controller) {events : List (GuiEvent Name)}
    (hevents : s.events = .consumeWalletNotifications :: events) :
    Safe { s with events, controller := s.controller.consumeWalletNotifications } := by
  have hnumbered : Numbered s.commandIds events s.setups s.controller.m_wallet_command_executor.m_next_task_id :=
    (hevents ▸ h.numbered).pop
  by_cases hinitialized : s.controller.m_initialized = true
  · have hdeferring := h.deferring hinitialized
    obtain ⟨hset, harrives⟩ := SetUp.consume hdeferring.published (hinv.running hinitialized).1
      fun wallet hmem id hcreation => by
        by_cases hsuccess : (id, true) ∈ s.setups
        · exact .inl hsuccess
        · obtain ⟨hne, heq⟩ := hdeferring.remembered id _ (.inr (.inr ⟨wallet, hmem, hcreation, rfl, hsuccess⟩))
          exact .inr ⟨heq ▸ hne, heq.symm⟩
    generalize s.controller.consumeWalletNotifications = c at hset harrives ⊢
    obtain ⟨_, _, _, _, _, rfl⟩ := harrives
    refine ⟨hnumbered, fun _ => ⟨fun id name hcreating => hdeferring.remembered id name ?_,
      (fun _ hmem => nomatch hmem), hdeferring.working,
      fun id wallet hmem => hdeferring.returned id wallet (hevents ▸ List.mem_cons_of_mem _ hmem), hset⟩,
      fun hidle => nomatch hinitialized.symm.trans hidle⟩
    exact hcreating.imp_right (.imp_right fun ⟨_, hmem, _⟩ => nomatch hmem)
  · have hidle := hinv.idle (by simpa using hinitialized)
    have hpopped : Safe { s with events } := by
      refine ⟨hnumbered, fun hc => absurd hc hinitialized, fun hc hr => ?_⟩
      have hunasked := h.unasked hc hr
      exact ⟨hunasked.worker, hunasked.tasks, fun id outcome hmem =>
        hunasked.events id outcome (hevents ▸ List.mem_cons_of_mem _ hmem), hunasked.creation⟩
    unfold WalletQmlController.consumeWalletNotifications
    split
    · exact hpopped
    · rw [hidle.notifications, List.foldl_nil]
      exact hpopped.quiet (fun _ hother => hother) hidle.notifications.symm rfl rfl rfl rfl rfl

omit [DecidableEq Name] in
theorem not_creating (h : Safe s) (hinitialized : s.controller.m_initialized = true) {outcome : Outcome Name}
    {events : List (GuiEvent Name)} (hevents : s.events = .completed id outcome :: events) (name : Name) :
    ¬ Creating s id name := by
  have hpast : Past s.events s.setups id := .inl ⟨outcome, hevents ▸ List.mem_cons_self⟩
  have hout : id ∉ s.commandIds := fun hmem => (h.numbered.bounded id hmem).2 hpast
  have hworker : ∀ running, s.worker = some running → id ≠ running.id := fun running heq hid =>
    hout (List.mem_append_left _ (by simp [heq, hid]))
  rintro (htask | ⟨stage, heq⟩ | ⟨wallet, hmem, hcreation, -, hunset⟩)
  · exact hout (List.mem_append_right _ (List.mem_map_of_mem (f := Prod.fst) htask))
  · exact hworker _ heq rfl
  · rcases (h.deferring hinitialized).mailed wallet hmem id hcreation with hset | ⟨command, heq⟩ | hahead
    · exact hunset hset
    · exact hworker _ heq rfl
    · have hfirst := ((hevents ▸ hahead).pop nofun).1
      simp [GuiEvent.completes] at hfirst

omit [DecidableEq Name] in
theorem settle (h : Safe s) (hinitialized : s.controller.m_initialized = true) {outcome : Outcome Name}
    {events : List (GuiEvent Name)} (hevents : s.events = .completed id outcome :: events)
    {c : WalletQmlController Name}
    (htasks : c.m_wallet_command_executor.tasks = s.controller.m_wallet_command_executor.tasks)
    (hnext : c.m_wallet_command_executor.m_next_task_id = s.controller.m_wallet_command_executor.m_next_task_id)
    (hnotifications : c.m_load_notifications = s.controller.m_load_notifications)
    (hc : c.m_initialized = s.controller.m_initialized) (hset : SetUp s.setups c)
    (hremembers : ∀ other name, other ≠ id → Creating s other name →
      c.m_deferred_wallet_name = s.controller.m_deferred_wallet_name) :
    Safe { s with events, controller := c } where
  numbered := by
    have hnumbered := (hevents ▸ h.numbered).pop
    unfold System.commandIds at hnumbered ⊢
    rw [← htasks, ← hnext] at hnumbered
    exact hnumbered
  deferring _ := by
    have hdeferring := h.deferring hinitialized
    refine ⟨fun other name hcreating => ?_, fun wallet hmem other hcreation => ?_, hdeferring.working,
      fun other wallet hmem => hdeferring.returned other wallet (hevents ▸ List.mem_cons_of_mem _ hmem), hset⟩
    · have hbefore : Creating s other name := by
        rcases hcreating with htask | hworker | ⟨wallet, hmem, hcreation⟩
        · exact .inl (htasks ▸ htask)
        · exact .inr (.inl hworker)
        · exact .inr (.inr ⟨wallet, hnotifications ▸ hmem, hcreation⟩)
      have hother : other ≠ id := fun heq => h.not_creating hinitialized hevents name (heq ▸ hbefore)
      rw [show ({ s with events, controller := c } : System Name).controller.m_deferred_wallet_name = _ from
        hremembers other name hother hbefore]
      exact hdeferring.remembered other name hbefore
    · refine (hdeferring.mailed wallet (hnotifications ▸ hmem) other hcreation).imp_right (.imp_right fun hahead => ?_)
      exact ((hevents ▸ hahead).pop nofun).2
  unasked hidle := nomatch (hc.trans hinitialized).symm.trans hidle

theorem completed (h : Safe s) (hinv : Inv s.controller) {outcome : Outcome Name} {events : List (GuiEvent Name)}
    (hevents : s.events = .completed id outcome :: events) (hallowed : OneName s .deliver) :
    Safe { s with events, controller := s.controller.completed id outcome } := by
  unfold WalletQmlController.completed
  cases hfind : s.controller.m_wallet_command_executor.m_gui_completions.find? fun completion =>
      completion.1 = id with
  | none => exact h.pop hevents nofun
  | some completion =>
    dsimp only
    have hinitialized : s.controller.m_initialized = true := by
      by_contra hidle
      rw [(hinv.idle (by simpa using hidle)).completions] at hfind
      exact nomatch hfind
    have hrunning := (hinv.running hinitialized).1
    have hset := (h.deferring hinitialized).published
    have hbrought : ∀ wallet, outcome = .returned (some wallet) → ∀ creation, wallet.creation = some creation →
        (creation, true) ∈ s.setups := fun wallet heq =>
      (h.deferring hinitialized).returned id wallet (hevents ▸ heq ▸ List.mem_cons_self)
    have hcompleting : completing s = some (id, completion.2, outcome) := by
      unfold completing
      rw [hevents]
      dsimp only
      rw [hfind]
      rfl
    obtain ⟨hkept, deferred, in_progress, harrives, hdeferred⟩ := SetUp.complete (c := { s.controller with
      m_wallet_command_executor := { s.controller.m_wallet_command_executor with
        m_gui_completions := s.controller.m_wallet_command_executor.m_gui_completions.erase completion } })
      hset hrunning completion.2 hbrought
    generalize WalletQmlController.complete _ completion.2 outcome = c at hkept harrives ⊢
    obtain ⟨_, _, _, _, _, rfl⟩ := harrives
    refine h.settle hinitialized hevents rfl rfl rfl rfl hkept fun other name hother hcreating => ?_
    rcases hdeferred with heq | ⟨wallet_name, setup_wallet, hcommand, hforgotten⟩
    · exact heq
    · simp only [OneName, hcompleting, hcommand] at hallowed
      cases outcome with
      | returned wallet =>
        have hforgotten := hforgotten.resolve_left nofun
        have hname := ((h.deferring hinitialized).remembered other name hcreating).2
        have hsame : name = wallet_name := hname.symm.trans hforgotten
        exact absurd (hsame ▸ hcreating) (hallowed other hother)
      | threw => exact absurd hcreating (hallowed other name hother)

theorem deliver (h : Safe s) (hinv : Inv s.controller) (hallowed : OneName s .deliver) : Safe s.deliver := by
  unfold System.deliver
  split
  · exact h
  next event events hevents =>
    cases event with
    | consumeWalletNotifications => exact h.consume hinv hevents
    | unloaded model =>
      have hpopped := h.pop hevents nofun
      dsimp only
      split
      · exact hpopped.append _ fun id outcome hmem => nomatch List.mem_singleton.1 hmem
      · exact hpopped
    | walletUnloaded model => exact (h.pop hevents nofun).walletUnloaded hinv.core model
    | completed id outcome => exact h.completed hinv hevents hallowed
    | shutdownFinished model => exact (h.pop hevents nofun).shutdownFinished model

/-! ### The node -/

theorem unload (h : Safe s) (wallet : Wallet Name) : Safe (s.unload wallet) := by
  unfold System.unload
  split
  · have hposted := h.append ((s.subscribed wallet).map .unloaded) (by simp)
    refine ⟨hposted.numbered, fun hc => ?_, fun hc hr => ?_⟩
    · have hdeferring := hposted.deferring hc
      exact ⟨hdeferring.remembered, hdeferring.mailed, hdeferring.working, hdeferring.returned, hdeferring.published⟩
    · have hunasked := hposted.unasked hc hr
      exact ⟨hunasked.worker, hunasked.tasks, hunasked.events, fun other hmem =>
        hunasked.creation other (List.mem_of_mem_erase hmem)⟩
  · exact h

theorem load (h : Safe s) (name : Name) : Safe (s.load name) := by
  unfold System.load
  split
  · exact h
  · obtain ⟨notifications, heq, hmailbox⟩ := notifyLoaded_frame s.controller (s.newWallet name none)
    unfold System.loadWallet System.input
    dsimp only [step]
    rw [heq]
    refine ⟨h.numbered, fun hc => ?_, fun hc hr => ?_⟩
    · have hdeferring := h.deferring hc
      have hold : ∀ wallet ∈ notifications, ∀ id, wallet.creation = some id →
          wallet ∈ s.controller.m_load_notifications := fun wallet hmem id hcreation =>
        (hmailbox wallet hmem).resolve_right fun hnew => nomatch (congrArg Wallet.creation hnew).symm.trans hcreation
      refine ⟨fun id name hcreating => hdeferring.remembered id name ?_, fun wallet hmem id hcreation =>
        hdeferring.mailed wallet (hold wallet hmem id hcreation) id hcreation, hdeferring.working, hdeferring.returned,
        hdeferring.published⟩
      exact hcreating.imp_right (.imp_right fun ⟨wallet, hmem, hcreation, hrest⟩ =>
        ⟨wallet, hold wallet hmem id hcreation, hcreation, hrest⟩)
    · have hunasked := h.unasked hc hr
      refine ⟨hunasked.worker, hunasked.tasks, hunasked.events, fun wallet hmem => ?_⟩
      rcases List.mem_append.1 hmem with hmem | hmem
      · exact hunasked.creation wallet hmem
      · rw [List.mem_singleton.1 hmem]
        rfl

omit [DecidableEq Name] in
theorem post (h : Safe s) : Safe s.post := by
  unfold System.post
  split
  · exact h
  next posting _ => exact (h.append [.consumeWalletNotifications] (by simp)).elsewhere posting s.drained

theorem take (h : Safe s) : Safe s.take := by
  unfold System.take System.input
  split
  next task tasks hworker htasks =>
    refine ⟨?_, fun hc => ?_, fun hc hr => ?_⟩
    · have hnumbered := h.numbered
      unfold System.commandIds at hnumbered ⊢
      rw [hworker, htasks] at hnumbered
      simpa [step, WalletQmlController.takeTask, htasks] using hnumbered
    · have hdeferring := h.deferring hc
      refine ⟨fun id name hcreating => hdeferring.remembered id name ?_, fun wallet hmem id hcreation => ?_,
        fun running heq wallet hstage => ?_, hdeferring.returned, hdeferring.published⟩
      · rcases hcreating with htask | ⟨stage, heq⟩ | hmailbox
        · exact .inl (List.mem_of_mem_tail htask)
        · refine .inl (htasks ▸ List.mem_cons.2 (.inl ?_))
          obtain ⟨hid, hcommand, -⟩ := Running.mk.inj (Option.some.inj heq)
          exact Prod.ext hid.symm hcommand.symm
        · exact .inr (.inr hmailbox)
      · refine (hdeferring.mailed wallet hmem id hcreation).imp_right (.imp_left fun ⟨command, heq⟩ => ?_)
        exact nomatch hworker.symm.trans heq
      · obtain rfl := Option.some.inj heq
        exact hstage.elim nofun nofun
    · exact nomatch (h.unasked hc hr).tasks.symm.trans htasks
  · exact h

/-! ### The worker -/

variable {running : Running Name}

omit [DecidableEq Name] in
theorem commandIds_eq (hworker : s.worker = some running) :
    s.commandIds = running.id :: s.controller.m_wallet_command_executor.tasks.map Prod.fst := by
  unfold System.commandIds
  rw [hworker]
  rfl

omit [DecidableEq Name] in
theorem returns (h : Safe s) (hworker : s.worker = some running)
    (hstage : ∀ wallet, running.stage ≠ .notifying wallet) {called : List (Nat × Bool)}
    (hcalled : called = s.setups ∨ ∃ success, called = (running.id, success) :: s.setups) {outcome : Outcome Name}
    (hset : s.controller.m_initialized = true → ∀ wallet, outcome = .returned (some wallet) → ∀ id,
      wallet.creation = some id → (id, true) ∈ called) :
    Safe ({ s with setups := called }.ends running outcome) where
  numbered := by
    have hnumbered := h.numbered
    rw [commandIds_eq hworker] at hnumbered
    obtain ⟨hrest, hout, hle, hnew⟩ := hnumbered.drop
    rcases hcalled with rfl | ⟨success, rfl⟩
    · exact hrest.ended hout hle outcome
    · exact (hrest.called hout hle hnew success).ended hout hle outcome
  deferring hc := by
    have hdeferring := h.deferring hc
    have hgrows : ∀ id, (id, true) ∈ s.setups → (id, true) ∈ called := fun id hmem => by
      rcases hcalled with rfl | ⟨success, rfl⟩
      · exact hmem
      · exact List.mem_cons_of_mem _ hmem
    refine ⟨fun id name hcreating => hdeferring.remembered id name ?_, fun wallet hmem id hcreation => ?_,
      (fun _ heq => nomatch heq), fun id wallet hmem creation hcreation => ?_, fun model hmem wallet hwallet id hid =>
        hgrows id (hdeferring.published model hmem wallet hwallet id hid)⟩
    · rcases hcreating with htask | ⟨_, heq⟩ | ⟨wallet, hmem, hcreation, hname, hunset⟩
      · exact .inl htask
      · exact nomatch heq
      · exact .inr (.inr ⟨wallet, hmem, hcreation, hname, fun hdone => hunset (hgrows id hdone)⟩)
    · rcases hdeferring.mailed wallet hmem id hcreation with hdone | ⟨command, heq⟩ | hahead
      · exact .inl (hgrows id hdone)
      · obtain rfl := Option.some.inj (hworker.symm.trans heq)
        exact absurd rfl (hstage wallet)
      · exact .inr (.inr (hahead.append _))
    · rcases List.mem_append.1 hmem with hmem | hmem
      · exact hgrows creation (hdeferring.returned id wallet hmem creation hcreation)
      · obtain ⟨-, heq⟩ := GuiEvent.completed.inj (List.mem_singleton.1 hmem)
        exact hset hc wallet heq.symm creation hcreation
  unasked hc hr := nomatch (h.unasked hc hr).worker.symm.trans hworker

omit [DecidableEq Name] in
theorem ends (h : Safe s) (hworker : s.worker = some running) (hstage : ∀ wallet, running.stage ≠ .notifying wallet)
    {outcome : Outcome Name} (hset : s.controller.m_initialized = true → ∀ wallet,
      outcome = .returned (some wallet) → ∀ id, wallet.creation = some id → (id, true) ∈ s.setups) :
    Safe (s.ends running outcome) :=
  h.returns hworker hstage (.inl rfl) hset

omit [Inhabited Name] [DecidableEq Name] in
theorem eq_createWallet {command : Command Name} (hsetup : command.setup_wallet = true) :
    command = .createWallet command.name true := by
  cases command with
  | createWallet wallet_name setup_wallet =>
    obtain rfl : setup_wallet = true := hsetup
    rfl
  | loadWallet | restoreWallet | migrateWallet => exact nomatch hsetup

theorem loads (h : Safe s) (hworker : s.worker = some running) (hstage : running.stage = .taken) :
    Safe (s.loads running) := by
  unfold System.loads
  split
  · exact h.ends hworker (fun _ heq => nomatch hstage.symm.trans heq) nofun
  · dsimp only
    generalize hcreation : (if running.command.setup_wallet then some running.id else none) = creation
    have hcreates : ∀ id, creation = some id →
        id = running.id ∧ running.command = .createWallet running.command.name true := fun id heq => by
      rw [← hcreation] at heq
      split at heq
      next hsetup => exact ⟨(Option.some.inj heq).symm, eq_createWallet hsetup⟩
      · exact nomatch heq
    obtain ⟨notifications, heq, hmailbox⟩ := notifyLoaded_frame s.controller (s.newWallet running.command.name creation)
    unfold System.loadWallet System.input
    dsimp only [step]
    rw [heq]
    refine ⟨?_, fun hc => ?_, fun hc hr => nomatch (h.unasked hc hr).worker.symm.trans hworker⟩
    · have hnumbered := h.numbered
      rw [commandIds_eq hworker] at hnumbered
      exact hnumbered
    · have hdeferring := h.deferring hc
      have hown : ∀ id name, Command.createWallet name true = running.command → id = running.id → Creating s id name :=
        fun id name hcommand hid => .inr (.inl ⟨running.stage, by rw [hworker, hcommand, hid]⟩)
      refine ⟨fun id name hcreating => hdeferring.remembered id name ?_, fun wallet hmem id hwallet => ?_,
        fun other hother wallet hnotifying id hwallet => ?_, hdeferring.returned, hdeferring.published⟩
      · rcases hcreating with htask | ⟨stage, hother⟩ | ⟨wallet, hmem, hwallet, hname, hunset⟩
        · exact .inl htask
        · obtain ⟨hid, hcommand, -⟩ := Running.mk.inj (Option.some.inj hother)
          exact hown id name hcommand.symm hid.symm
        · rcases hmailbox wallet hmem with hold | rfl
          · exact .inr (.inr ⟨wallet, hold, hwallet, hname, hunset⟩)
          · obtain ⟨hid, hcommand⟩ := hcreates id hwallet
            exact hown id name (by rw [hcommand, ← hname]; rfl) hid
      · rcases hmailbox wallet hmem with hold | rfl
        · refine (hdeferring.mailed wallet hold id hwallet).imp_right (.imp_left fun ⟨command, hother⟩ => ?_)
          obtain rfl := Option.some.inj (hworker.symm.trans hother)
          exact nomatch hstage
        · obtain ⟨hid, -⟩ := hcreates id hwallet
          exact .inr (.inl ⟨running.command, by rw [hid]⟩)
      · obtain rfl := Option.some.inj hother
        rcases hnotifying with hnotifying | hnotifying
        · obtain rfl := Stage.notifying.inj hnotifying
          exact hcreates id hwallet
        · exact nomatch hnotifying

omit [DecidableEq Name] in
theorem notifies (h : Safe s) (hinv : Inv s.controller) (hworker : s.worker = some running) {wallet : Wallet Name}
    (hstage : running.stage = .notifying wallet) :
    Safe { (if s.controller.m_handler_load_wallet then s.send .consumeWalletNotifications else s) with
      worker := some { running with stage := .loaded wallet } } := by
  have hcreating : ∀ id name, Creating { s with worker := some { running with stage := .loaded wallet } } id name →
      Creating s id name := by
    rintro id name (htask | ⟨stage, heq⟩ | hmailbox)
    · exact .inl htask
    · obtain ⟨hid, hcommand, -⟩ := Running.mk.inj (Option.some.inj heq)
      exact .inr (.inl ⟨running.stage, by rw [hworker, ← hid, ← hcommand]⟩)
    · exact .inr (.inr hmailbox)
  have hnumbered := h.numbered
  rw [commandIds_eq hworker] at hnumbered
  have hreturned := (hnumbered.bounded running.id List.mem_cons_self).2
  split
  · refine ⟨hnumbered.append (by simp), fun hc => ?_, fun hc hr => nomatch (h.unasked hc hr).worker.symm.trans hworker⟩
    have hdeferring := h.deferring hc
    refine ⟨fun id name hc => hdeferring.remembered id name (hcreating id name hc), fun other hmem id hcreation => ?_,
      fun next heq other hother id hcreation => ?_, fun id other hmem => ?_, hdeferring.published⟩
    · rcases hdeferring.mailed other hmem id hcreation with hdone | ⟨command, heq⟩ | hahead
      · exact .inl hdone
      · obtain rfl := Option.some.inj (hworker.symm.trans heq)
        exact .inr (.inr (Ahead.post fun outcome hin => hreturned (.inl ⟨outcome, hin⟩)))
      · exact .inr (.inr (hahead.append _))
    · obtain rfl := Option.some.inj heq
      rcases hother with hother | hother
      · exact nomatch hother
      · obtain rfl := Stage.loaded.inj hother
        exact hdeferring.working running hworker wallet (.inl hstage) id hcreation
    · exact hdeferring.returned id other ((List.mem_append.1 hmem).resolve_right fun hnew =>
        nomatch List.mem_singleton.1 hnew)
  next hhandler =>
    refine ⟨hnumbered, fun hc => absurd (hinv.running hc).2 hhandler, fun hc hr =>
      nomatch (h.unasked hc hr).worker.symm.trans hworker⟩

theorem setsUp (h : Safe s) (hworker : s.worker = some running) {wallet : Wallet Name}
    (hstage : running.stage = .loaded wallet) (success : Bool) : Safe (s.setsUp running wallet success) := by
  have hloaded : ∀ other, running.stage ≠ .notifying other := by
    intro other heq
    cases hstage.symm.trans heq
  unfold System.setsUp
  split
  · cases success with
    | true =>
      refine h.returns hworker hloaded (.inr ⟨true, rfl⟩) fun hc other heq id hcreation => ?_
      obtain rfl := Option.some.inj (Outcome.returned.inj heq)
      rw [((h.deferring hc).working running hworker wallet (.inr hstage) id hcreation).1]
      exact List.mem_cons_self
    | false =>
      have hunload : ({ s with setups := (running.id, false) :: s.setups } : System Name).unload wallet =
          { s.unload wallet with setups := (running.id, false) :: (s.unload wallet).setups } := by
        unfold System.unload
        split <;> rfl
      have hkept : (s.unload wallet).worker = some running := by
        unfold System.unload
        split <;> exact hworker
      dsimp only
      rw [if_neg Bool.false_ne_true, hunload]
      refine (h.unload wallet).returns hkept hloaded (.inr ⟨false, rfl⟩) ?_
      intro _ _ heq
      cases heq
  next hplain =>
    refine h.ends hworker hloaded fun hc other heq id hcreation => ?_
    obtain rfl := Option.some.inj (Outcome.returned.inj heq)
    rw [((h.deferring hc).working running hworker wallet (.inr hstage) id hcreation).2] at hplain
    exact absurd rfl hplain

theorem work (h : Safe s) (hinv : Inv s.controller) (progress : Progress) : Safe (s.work progress) := by
  unfold System.work
  split
  · exact h
  next running hworker =>
    split
    next hstage => exact h.loads hworker hstage
    next hstage =>
      exact h.ends hworker (fun _ heq => nomatch hstage.symm.trans heq) fun _ _ heq => nomatch heq
    next wallet hstage =>
      exact h.notifies hinv hworker hstage
    next wallet hstage => exact h.setsUp hworker hstage true
    next wallet hstage => exact h.setsUp hworker hstage false
    next hstage =>
      exact h.ends hworker (fun _ heq => nomatch hstage.symm.trans heq) fun _ _ heq => nomatch heq
    next hstage =>
      exact h.ends hworker (fun _ heq => nomatch hstage.symm.trans heq) fun _ _ heq => nomatch heq

theorem workModel (h : Safe s) (task : ModelTask Name) : Safe (s.workModel task) := by
  have htaken : Safe (s.input (.takeModelTask task)) := h.quiet (fun _ hother => hother) rfl rfl rfl rfl rfl rfl
  have hdisconnected := htaken.elsewhere s.posting (task.model :: s.drained)
  unfold System.workModel
  split
  · dsimp only
    split
    · split
      · exact hdisconnected.unload _
      · exact hdisconnected
    · exact hdisconnected
  · exact h

omit [DecidableEq Name] in
theorem drainModel (h : Safe s) (model : Nat) : Safe (s.drainModel model) := by
  unfold System.drainModel
  split
  · exact (h.append [.shutdownFinished model] (by simp)).elsewhere s.posting (s.drained.erase model)
  · exact h

theorem step (h : Safe s) (hinv : Inv s.controller) {e : Event Name} (hallowed : OneName s e) : Safe (s.step e) := by
  cases e with
  | initializeWallets disablewallet => exact h.initializeWallets hinv disablewallet
  | call action => exact h.call hinv.core hallowed
  | beginShutdown => exact h.beginShutdown hinv
  | deliver => exact h.deliver hinv hallowed
  | load name => exact h.load name
  | post => exact h.post
  | unload wallet => exact h.unload wallet
  | take => exact h.take
  | work progress => exact h.work hinv progress
  | workModel task => exact h.workModel task
  | drainModel model => exact h.drainModel model

end Safe

theorem safe_run [DecidableEq Name] (h : Reaches System.step OneName ({} : System Name) s) :
    Safe s ∧ Inv s.controller := by
  have hstart : Loaded ({} : System Name).wallets ({} : System Name).next_wallet ∧
      Reaches Controller.step Distinct {} ({} : System Name).controller ∧ Safe ({} : System Name) :=
    ⟨.start, .refl, .start⟩
  obtain ⟨-, hcontroller, hsafe⟩ := h.invariant (I := fun s => Loaded s.wallets s.next_wallet ∧
    Reaches Controller.step Distinct {} s.controller ∧ Safe s) hstart fun _ e ⟨hloaded, hreaches, hsafe⟩ hallowed =>
      ⟨hloaded.step e, (step_controller hloaded.names e).reaches hreaches, hsafe.step (inv_run hreaches) hallowed⟩
  exact ⟨hsafe, inv_run hcontroller⟩

/-- As long as one name at a time is wanted, no wallet is shown before it is set up. -/
theorem published_run [DecidableEq Name] (h : Reaches System.step OneName ({} : System Name) s) : Published s := by
  obtain ⟨hsafe, hinv⟩ := safe_run h
  intro model hshown wallet hwallet id hcreation
  have hmem : model ∈ s.controller.m_wallets := by
    rcases hshown with hmem | rfl
    · exact hmem
    · refine hinv.shown.selected.resolve_right fun hempty => ?_
      rw [hempty] at hwallet
      exact nomatch hwallet
  have hinitialized : s.controller.m_initialized = true := by
    by_contra hidle
    rw [(hinv.idle (by simpa using hidle)).wallets] at hmem
    exact nomatch hmem
  have hsuccess := (hsafe.deferring hinitialized).published model hmem wallet hwallet id hcreation
  exact ⟨hsuccess, fun hfailure => nomatch hsafe.numbered.once.inj hsuccess hfailure rfl⟩

theorem not_creating_of_idle (htasks : s.controller.m_wallet_command_executor.tasks = []) (hworker : s.worker = none)
    (hmailbox : s.controller.m_load_notifications = []) (id : Nat) (name : Name) : ¬ Creating s id name := by
  rintro (htask | ⟨stage, heq⟩ | ⟨wallet, hmem, -⟩)
  · exact nomatch htasks ▸ htask
  · exact nomatch hworker.symm.trans heq
  · exact nomatch hmailbox ▸ hmem

/-- A watch-only wallet is created, set up and shown. -/
theorem published_run_created : Published (([.initializeWallets false,
    .call (.createWatchOnlyWallet 1 true true), .take, .work .proceeds, .work .proceeds, .work .proceeds,
    .deliver, .deliver] : List (Event Nat)).foldl System.step {}) := by
  have hstart : Reaches System.step OneName ({} : System Nat) {} := .refl
  refine published_run (hstart.play ⟨trivial, fun _ _ _ id name hcreating => ?_, trivial, trivial, trivial, trivial,
    trivial, fun other _ => ?_, trivial⟩)
  · exact absurd hcreating (not_creating_of_idle rfl rfl rfl id name)
  · exact not_creating_of_idle rfl rfl rfl other 1

/-- Closing some wallet clears the flag, a second creation replaces the name, and the notification of the first
wallet shows it before its setup function is called. -/
theorem not_published_after_second : ∃ s : System Nat, Reaches System.step (fun _ _ => True) {} s ∧
    s.setups = [] ∧ s.controller.m_wallets.map WalletQmlModel.name = [1] ∧ ¬ Published s := by
  refine ⟨_, Reaches.events (fun _ _ => trivial) .refl [.initializeWallets false,
    .call (.createWatchOnlyWallet 1 true true), .call (.closeWallet 9 false),
    .call (.createWatchOnlyWallet 2 true true), .take, .work .proceeds, .work .proceeds, .deliver], rfl, rfl,
    fun h => ?_⟩
  exact nomatch (h _ (.inr rfl) _ rfl 1 rfl).1

end GuiQml.Controller
