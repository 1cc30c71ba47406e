import GuiQml.Controller.Taken

/-!
# The open models are those of the loaded wallets

Whenever nothing is under way, in every run in which no wallet is lost.
-/

namespace GuiQml.Controller

open Reach

variable {Name : Type} [Inhabited Name] [DecidableEq Name] {s : System Name} {wallet : Wallet Name}

/-! ## Every step -/

theorem Tracked.step (h : Tracked s) (hinv : Inv s.controller) (hinitialized : s.controller.m_initialized = true)
    (hloaded : Loaded s.wallets s.next_wallet) {e : Event Name} (hallowed : NoneLost s e)
    (hstays : (s.step e).controller.m_initialized = true) : Tracked (s.step e) := by
  cases e with
  | initializeWallets disablewallet =>
    show Tracked { s with controller := s.controller.initializeWallets disablewallet s.wallets }
    unfold WalletQmlController.initializeWallets
    rw [if_pos (by simp [hinitialized])]
    exact h
  | call action => exact h.call hinv.core action
  | beginShutdown => cases (hinv.beginShutdown_stopped (hinv.running hinitialized).1).1.symm.trans hstays
  | deliver => exact h.deliver hinv hinitialized hloaded hallowed
  | load name => exact h.load hinv hinitialized name
  | post => exact h.post
  | unload wallet => exact h.unload hinv hloaded wallet
  | take => exact h.take
  | work progress => exact h.work hinv hloaded hinitialized hallowed
  | workModel task => exact h.workModel hinv hloaded task
  | drainModel model => exact h.drainModel model

/-! ## Before the initialisation -/

/-- Nothing is under way. -/
structure Fresh (s : System Name) : Prop where
  events : s.events = []
  posting : s.posting = 0
  worker : s.worker = none
  tasks : s.controller.m_wallet_command_executor.tasks = []
  model_tasks : s.controller.model_tasks = []
  drained : s.drained = []

omit [DecidableEq Name] in
theorem listAll_wallets {c : WalletQmlController Name} (wallets : List (Wallet Name)) :
    (wallets.foldl WalletQmlController.listWallet c).m_wallets.map WalletQmlModel.m_wallet =
      c.m_wallets.map WalletQmlModel.m_wallet ++ wallets.map some := by
  induction wallets generalizing c with
  | nil => exact (List.append_nil _).symm
  | cons wallet wallets ih =>
    rw [List.foldl_cons, ih]
    simp [WalletQmlController.listWallet, WalletQmlController.note, WalletQmlController.newModel]

omit [DecidableEq Name] in
theorem Fresh.listed (h : Fresh s) (hloaded : Loaded s.wallets s.next_wallet) {c : WalletQmlController Name}
    (htasks : c.m_wallet_command_executor.tasks = []) (hmodels : c.model_tasks = [])
    (hmailbox : c.m_load_notifications = [])
    (hlisted : c.m_wallets.map WalletQmlModel.m_wallet = s.wallets.map some) :
    Tracked { s with controller := c } where
  mailed hmail := absurd hmailbox hmail
  awaited := by
    have hnone : s.events.filterMap GuiEvent.command ++
        System.commandIds ({ s with controller := c } : System Name) = [] := by
      simp [System.commandIds, h.events, h.worker, htasks]
    rw [show List.filterMap GuiEvent.command ({ s with controller := c } : System Name).events ++ _ = [] from hnone]
    exact .nil
  leaving := by
    have hnone : c.model_tasks.map ModelTask.model ++ s.drained ++ s.events.filterMap GuiEvent.finished = [] := by
      simp [hmodels, h.drained, h.events]
    rw [show List.map ModelTask.model ({ s with controller := c } : System Name).controller.model_tasks ++ _ ++ _ = []
      from hnone]
    exact .nil
  opened := by
    have hdying (id : Nat) : ¬Dying s.events id := by
      rw [h.events]
      rintro (hmem | hmem) <;> cases hmem
    refine ⟨fun model hmodel => ?_, fun id hid => absurd hid (hdying id), fun model _ hid => ?_⟩
    case refine_2 => exact absurd hid (hdying model.id)
    have hmem : model.m_wallet ∈ s.wallets.map some := hlisted ▸ List.mem_map_of_mem hmodel
    obtain ⟨wallet, hwallet, heq⟩ := List.mem_map.mp hmem
    exact ⟨wallet, heq.symm, hloaded.fresh wallet hwallet, .inl hwallet⟩
  known wallet hwallet := by
    have hmem : some wallet ∈ c.m_wallets.map WalletQmlModel.m_wallet := hlisted ▸ List.mem_map_of_mem hwallet
    obtain ⟨model, hmodel, heq⟩ := List.mem_map.mp hmem
    exact .inl ⟨model, hmodel, heq⟩

/-- Nothing is under way before the initialisation, and every wallet is known after it. -/
structure Begun (s : System Name) : Prop where
  tracked : s.controller.m_initialized = true → Tracked s
  fresh : s.controller.m_initialized = false → s.controller.m_shutting_down = false → Fresh s

omit [DecidableEq Name] in
theorem Fresh.begun (h : Fresh s) (hnew : s.controller.m_initialized = false) : Begun s where
  tracked hinitialized := by cases hnew.symm.trans hinitialized
  fresh _ _ := h

omit [DecidableEq Name] in
theorem Tracked.begun (h : Tracked s) (hinitialized : s.controller.m_initialized = true) : Begun s where
  tracked _ := h
  fresh hnew := by cases hnew.symm.trans hinitialized

omit [DecidableEq Name] in
theorem Fresh.initializeWallets (h : Fresh s) (hinv : Inv s.controller) (hnew : s.controller.m_initialized = false)
    (hloaded : Loaded s.wallets s.next_wallet) (disablewallet : Bool) :
    Begun { s with controller := s.controller.initializeWallets disablewallet s.wallets } := by
  have hidle := hinv.idle hnew
  have hlisted : (s.wallets.foldl WalletQmlController.listWallet
      { s.controller with m_handler_load_wallet := true }).m_wallets.map WalletQmlModel.m_wallet =
        s.wallets.map some := by
    rw [listAll_wallets, hidle.wallets]
    rfl
  unfold WalletQmlController.initializeWallets
  split
  next => exact h.begun hnew
  next =>
    split
    next => exact h.begun hnew
    next =>
      obtain ⟨next, models, journal, heq, -⟩ :=
        listAll_frame (c := { s.controller with m_handler_load_wallet := true }) s.wallets
      dsimp only
      rw [heq] at hlisted ⊢
      split
      next => exact Tracked.begun (h.listed hloaded h.tasks h.model_tasks hidle.notifications hlisted) rfl
      next => exact Tracked.begun (h.listed hloaded h.tasks h.model_tasks hidle.notifications hlisted) rfl

theorem Fresh.call (h : Fresh s) (hnew : s.controller.m_initialized = false) (action : Action Name) :
    Begun { s with controller := s.controller.call action } := by
  have hcalled := call_called (c := s.controller) action
  generalize s.controller.call action = c at hcalled
  cases hcalled with
  | shown => exact Fresh.begun ⟨h.events, h.posting, h.worker, h.tasks, h.model_tasks, h.drained⟩ hnew
  | submitted _ _ _ _ hinitialized => cases hnew.symm.trans hinitialized
  | watchOnly _ _ hinitialized => cases hnew.symm.trans hinitialized
  | closed _ _ hinitialized => cases hnew.symm.trans hinitialized

theorem Fresh.load (h : Fresh s) (hinv : Inv s.controller) (hnew : s.controller.m_initialized = false) (name : Name) :
    Begun (s.load name) := by
  have hhandler := (hinv.idle hnew).handler
  unfold System.load
  split
  next => exact h.begun hnew
  next =>
    have hunseen : (s.loadWallet name none).controller = s.controller := by
      rw [System.loadWallet, System.input, Controller.step, WalletQmlController.notifyLoaded,
        if_neg (by simp [hhandler])]
    have hposting : (if s.controller.m_handler_load_wallet then s.posting + 1 else s.posting) = 0 := by
      rw [if_neg (by simp [hhandler]), h.posting]
    exact Fresh.begun ⟨h.events, hposting, h.worker, hunseen.symm ▸ h.tasks, hunseen.symm ▸ h.model_tasks, h.drained⟩
      (hunseen.symm ▸ hnew)

theorem Fresh.unload (h : Fresh s) (hinv : Inv s.controller) (hnew : s.controller.m_initialized = false)
    (wallet : Wallet Name) : Begun (s.unload wallet) := by
  have hnobody : s.subscribed wallet = [] := by
    simp [System.subscribed, (hinv.idle hnew).wallets, h.model_tasks]
  unfold System.unload
  split
  next =>
    have hevents : s.events ++ (s.subscribed wallet).map .unloaded = [] := by rw [h.events, hnobody]; rfl
    exact Fresh.begun ⟨hevents, h.posting, h.worker, h.tasks, h.model_tasks, h.drained⟩ hnew
  next => exact h.begun hnew

theorem Fresh.step (h : Fresh s) (hinv : Inv s.controller) (hnew : s.controller.m_initialized = false)
    (hrunning : s.controller.m_shutting_down = false) (hloaded : Loaded s.wallets s.next_wallet) (e : Event Name) :
    Begun (s.step e) := by
  have hbegun := h.begun hnew
  cases e with
  | initializeWallets disablewallet => exact h.initializeWallets hinv hnew hloaded disablewallet
  | call action => exact h.call hnew action
  | beginShutdown =>
    obtain ⟨hstopped, hdown⟩ := hinv.beginShutdown_stopped hrunning
    refine ⟨fun hinitialized => ?_, fun _ hup => ?_⟩
    · cases hstopped.symm.trans hinitialized
    · cases hdown.symm.trans hup
  | deliver => rwa [System.step, System.deliver, h.events]
  | load name => exact h.load hinv hnew name
  | post => rwa [System.step, System.post, h.posting]
  | unload wallet => exact h.unload hinv hnew wallet
  | take => rwa [System.step, System.take, h.worker, h.tasks]
  | work progress => rwa [System.step, System.work, h.worker]
  | workModel task => rwa [System.step, System.workModel, h.model_tasks, if_neg List.not_mem_nil]
  | drainModel model => rwa [System.step, System.drainModel, h.drained, if_neg List.not_mem_nil]

/-! ## Initialised once -/

section flags

variable {c : WalletQmlController Name}

theorem removeWalletModel_initialized (model : WalletQmlModel Name) (remove : Bool) :
    (c.removeWalletModel model remove).m_initialized = c.m_initialized := by
  unfold WalletQmlController.removeWalletModel
  split
  next => rfl
  next => exact (retireWallet_frame model remove).2.2.2.1

omit [DecidableEq Name] in
theorem checkShutdownFinished_frame :
    c.checkShutdownFinished.m_initialized = c.m_initialized ∧
      c.checkShutdownFinished.m_shutting_down = c.m_shutting_down := by
  unfold WalletQmlController.checkShutdownFinished
  split <;> exact ⟨rfl, rfl⟩

theorem running_of_step (hinv : Inv c) (hinitialized : c.m_initialized = true) (i : Input Name) :
    (Controller.step c i).m_initialized = true ∨ (Controller.step c i).m_shutting_down = true := by
  have hrunning := (hinv.running hinitialized).1
  cases i with
  | beginShutdown => exact .inr (hinv.beginShutdown_stopped hrunning).2
  | initializeWallets disablewallet wallets =>
    refine .inl ?_
    rwa [Controller.step, WalletQmlController.initializeWallets, if_pos (by simp [hinitialized])]
  | notifyLoaded wallet =>
    refine .inl ?_
    rw [Controller.step, WalletQmlController.notifyLoaded]
    split <;> exact hinitialized
  | consumeWalletNotifications =>
    refine .inl ?_
    rw [Controller.step, WalletQmlController.consumeWalletNotifications, if_neg (by simp [hrunning])]
    obtain ⟨_, _, _, _, _, heq⟩ :=
      handleAll_arrives (c := { c with m_load_notifications := [] }) hrunning c.m_load_notifications
    rwa [heq]
  | takeTask | takeModelTask => exact .inl hinitialized
  | completed id outcome =>
    refine .inl ?_
    rw [Controller.step, WalletQmlController.completed]
    split
    next => exact hinitialized
    next completion _ =>
      generalize hcompleting : ({ c with m_wallet_command_executor := _ } : WalletQmlController Name) = before
      have hcompletes := complete_completes (c := before) (hcompleting ▸ hrunning) completion.2 outcome
      generalize before.complete completion.2 outcome = c' at hcompletes
      subst hcompleting
      cases hcompletes with
      | nothing => exact hinitialized
      | dropped => exact hinitialized
      | arrived _ _ _ _ _ harrived =>
        obtain ⟨_, _, _, _, _, rfl⟩ := harrived.arrives
        exact hinitialized
  | call action =>
    refine .inl ?_
    have hcalled := call_called (c := c) action
    show (c.call action).m_initialized = true
    generalize c.call action = c' at hcalled
    cases hcalled with
    | shown | submitted | watchOnly => exact hinitialized
    | closed => exact (removeWalletModel_initialized _ _).trans hinitialized
  | walletUnloaded id =>
    refine .inl ?_
    rw [Controller.step, WalletQmlController.walletUnloaded]
    split
    next => exact hinitialized
    next => exact (removeWalletModel_initialized _ _).trans hinitialized
  | shutdownFinished id =>
    obtain ⟨_, _, _, heq, -⟩ := shutdownFinished_eq hrunning id
    refine .inl ?_
    rwa [Controller.step, heq]
  | controllerDrained | notificationsDrained => exact .inl (checkShutdownFinished_frame.1.trans hinitialized)

theorem down_of_step (hinv : Inv c) (hdown : c.m_shutting_down = true) (i : Input Name) :
    (Controller.step c i).m_shutting_down = true := by
  have hstopped : c.m_initialized = false := by
    by_contra hinitialized
    cases hdown.symm.trans (hinv.running (by simpa using hinitialized)).1
  have hidle := hinv.idle hstopped
  cases i with
  | beginShutdown => rwa [Controller.step, WalletQmlController.beginShutdown, if_pos hdown]
  | initializeWallets disablewallet wallets =>
    rwa [Controller.step, WalletQmlController.initializeWallets, if_pos (by simp [hdown])]
  | notifyLoaded wallet =>
    rw [Controller.step, WalletQmlController.notifyLoaded]
    split <;> exact hdown
  | consumeWalletNotifications => rwa [Controller.step, WalletQmlController.consumeWalletNotifications, if_pos hdown]
  | takeTask | takeModelTask => exact hdown
  | completed id outcome => rwa [Controller.step, WalletQmlController.completed, hidle.completions]
  | call action =>
    have hcalled := call_called (c := c) action
    show (c.call action).m_shutting_down = true
    generalize c.call action = c' at hcalled
    cases hcalled with
    | shown | submitted | watchOnly => exact hdown
    | closed _ _ hinitialized => cases hstopped.symm.trans hinitialized
  | walletUnloaded id => rwa [Controller.step, WalletQmlController.walletUnloaded, hidle.wallets]
  | shutdownFinished id =>
    rw [Controller.step, WalletQmlController.shutdownFinished]
    split
    next => exact hdown
    next => exact checkShutdownFinished_frame.2.trans hdown
  | controllerDrained | notificationsDrained => exact checkShutdownFinished_frame.2.trans hdown

theorem Steps.running {c' : WalletQmlController Name} (h : Steps c c') (hinv : Inv c)
    (hinitialized : c.m_initialized = true) : c'.m_initialized = true ∨ c'.m_shutting_down = true := by
  cases h with
  | stay => exact .inl hinitialized
  | step i _ => exact running_of_step hinv hinitialized i

theorem Steps.down {c' : WalletQmlController Name} (h : Steps c c') (hinv : Inv c)
    (hdown : c.m_shutting_down = true) : c'.m_shutting_down = true := by
  cases h with
  | stay => exact hdown
  | step i _ => exact down_of_step hinv hdown i

end flags

theorem Begun.step (h : Begun s) (hinv : Inv s.controller) (hloaded : Loaded s.wallets s.next_wallet) {e : Event Name}
    (hallowed : NoneLost s e) (hnext : Inv (s.step e).controller) : Begun (s.step e) := by
  have hsteps := step_controller hloaded.names e
  cases hinitialized : s.controller.m_initialized with
  | true =>
    refine ⟨(h.tracked hinitialized).step hinv hinitialized hloaded hallowed, fun hstopped hup => ?_⟩
    rcases hsteps.running hinv hinitialized with hstays | hdown
    · cases hstopped.symm.trans hstays
    · cases hup.symm.trans hdown
  | false =>
    cases hrunning : s.controller.m_shutting_down with
    | false => exact (h.fresh hinitialized hrunning).step hinv hinitialized hrunning hloaded e
    | true =>
      have hdown := hsteps.down hinv hrunning
      refine ⟨fun hagain => ?_, fun _ hup => ?_⟩
      · cases (hnext.running hagain).1.symm.trans hdown
      · cases hup.symm.trans hdown

/-! ## Every run -/

/-- Every event is processed, no handler and no command is under way, and no model retires. -/
structure Quiescent (s : System Name) : Prop where
  events : s.events = []
  posting : s.posting = 0
  worker : s.worker = none
  tasks : s.controller.m_wallet_command_executor.tasks = []
  retiring : s.controller.m_retiring_wallets = []

/-- The open models are one to one those of the wallets that are loaded in the node. -/
def Matched (s : System Name) : Prop :=
  (s.controller.m_wallets.map WalletQmlModel.m_wallet).Perm (s.wallets.map some)

omit [DecidableEq Name] in
theorem Tracked.matched (h : Tracked s) (hinv : Inv s.controller) (hloaded : Loaded s.wallets s.next_wallet)
    (hquiet : Quiescent s) : Matched s := by
  have hmodels : (s.controller.m_wallets.map WalletQmlModel.m_wallet).Nodup := by
    refine List.Nodup.map_on (fun model hmodel other hother heq => ?_) hinv.core.listed.ids.nodup
    refine hinv.core.listed.names.inj hmodel hother ?_
    rw [WalletQmlModel.name, WalletQmlModel.name, heq]
  have hwallets : (s.wallets.map some).Nodup := hloaded.names.nodup.map (Option.some_injective _)
  have hclosed : s.controller.model_tasks = [] := by
    refine List.eq_nil_iff_forall_not_mem.mpr fun task htask => ?_
    have hmem := List.mem_map_of_mem (f := ModelTask.model) htask
    have hretiring := h.leaving.retiring _ (List.mem_append_left _ (List.mem_append_left _ hmem))
    rw [hquiet.retiring] at hretiring
    cases hretiring
  have hemptied : s.controller.m_load_notifications = [] := by
    by_contra hmail
    rcases h.mailed hmail with hposted | hposting | ⟨running, _, hrunning, _⟩
    · rw [hquiet.events] at hposted
      cases hposted
    · exact absurd hquiet.posting (Nat.pos_iff_ne_zero.mp hposting)
    · cases hquiet.worker.symm.trans hrunning
  refine (List.perm_ext_iff_of_nodup hmodels hwallets).mpr fun wallet => ⟨fun hmem => ?_, fun hmem => ?_⟩
  · obtain ⟨model, hmodel, rfl⟩ := List.mem_map.mp hmem
    obtain ⟨wallet, hwallet, -, hopen⟩ := h.opened.wallet model hmodel
    rw [hwallet]
    rcases hopen with hopen | hdying | hdying
    · exact List.mem_map_of_mem hopen
    · rw [hquiet.events] at hdying
      cases hdying
    · rw [hquiet.events] at hdying
      cases hdying
  · obtain ⟨wallet, hwallet, rfl⟩ := List.mem_map.mp hmem
    rcases h.known wallet hwallet with ⟨model, hmodel, heq⟩ | ⟨task, htask, _⟩ | hmail | ⟨_, hrunning, _⟩ | ⟨_, hmem⟩
    · exact heq ▸ List.mem_map_of_mem hmodel
    · rw [hclosed] at htask
      cases htask
    · rw [hemptied] at hmail
      cases hmail
    · cases hquiet.worker.symm.trans hrunning
    · rw [hquiet.events] at hmem
      cases hmem

theorem begun_run (h : Reaches System.step NoneLost ({} : System Name) s) :
    Begun s ∧ Inv s.controller ∧ Loaded s.wallets s.next_wallet := by
  have hstart : Loaded ({} : System Name).wallets ({} : System Name).next_wallet ∧
      Reaches Controller.step Distinct {} ({} : System Name).controller ∧ Begun ({} : System Name) :=
    ⟨.start, .refl, Fresh.begun ⟨rfl, rfl, rfl, rfl, rfl, rfl⟩ rfl⟩
  have hall := h.invariant (I := fun s => Loaded s.wallets s.next_wallet ∧
    Reaches Controller.step Distinct {} s.controller ∧ Begun s) hstart fun s e ⟨hloaded, hreaches, hbegun⟩ hkept => by
    have hnext := (step_controller hloaded.names e).reaches hreaches
    exact ⟨hloaded.step e, hnext, hbegun.step (inv_run hreaches) hloaded hkept (inv_run hnext)⟩
  exact ⟨hall.2.2, inv_run hall.2.1, hall.1⟩

/-- As long as no wallet is lost, the open models are those of the loaded wallets whenever nothing is under way. -/
theorem matched_run (h : Reaches System.step NoneLost ({} : System Name) s)
    (hinitialized : s.controller.m_initialized = true) (hquiet : Quiescent s) : Matched s := by
  obtain ⟨hbegun, hinv, hloaded⟩ := begun_run h
  exact (hbegun.tracked hinitialized).matched hinv hloaded hquiet

/-- Two wallets are loaded and one is unloaded. -/
theorem matched_run_unloaded : Matched (([.initializeWallets false, .load 1, .post, .deliver, .load 2, .post, .deliver,
    .unload ⟨0, 1, none⟩, .deliver, .deliver, .workModel ⟨1, some ⟨0, 1, none⟩, false⟩, .drainModel 1, .deliver] :
      List (Event Nat)).foldl System.step {}) := by
  have hstart : Reaches System.step NoneLost ({} : System Nat) {} := .refl
  refine matched_run (hstart.play ⟨trivial, trivial, trivial, fun wallet hmail => ?_, trivial, trivial,
    fun wallet hmail => ?_, trivial, trivial, trivial, trivial, trivial, trivial, trivial⟩) rfl
    ⟨rfl, rfl, rfl, rfl, rfl⟩
  · obtain rfl := List.mem_singleton.mp hmail
    refine ⟨fun _ _ => List.mem_cons_self, fun hlost _ => absurd hlost (not_or.mpr ⟨fun hdropped => ?_, by decide⟩)⟩
    exact hdropped.1 rfl
  · obtain rfl := List.mem_singleton.mp hmail
    refine ⟨fun _ _ => by decide, fun hlost _ => absurd hlost (not_or.mpr ⟨fun hdropped => ?_, by decide⟩)⟩
    exact hdropped.1 rfl

/-- A wallet is unloaded before the GUI thread hears that it was loaded. -/
theorem not_matched_after_unload : ∃ s : System Nat, Reaches System.step (fun _ _ => True) {} s ∧
    s.controller.m_initialized = true ∧ Quiescent s ∧ ¬Matched s := by
  refine ⟨_, Reaches.events (fun _ _ => trivial) .refl [.initializeWallets false, .load 1, .unload ⟨0, 1, none⟩, .post,
    .deliver], rfl, ⟨rfl, rfl, rfl, rfl, rfl⟩, fun hmatched => ?_⟩
  exact absurd (hmatched.length_eq) (by decide)

end GuiQml.Controller
