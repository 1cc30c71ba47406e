import GuiQml.Controller.Deferred

/-!
# The open models and the wallets of the node

A wallet that is loaded is known to the controller: a model has it, or it is on its way. Where a wallet arrives
after it was unloaded, or is taken for another one of its name, the controller loses it.
-/

namespace GuiQml.Controller

variable {Name : Type}

/-! ## What is posted -/

def GuiEvent.command : GuiEvent Name → Option Nat
  | .completed id _ => some id
  | .consumeWalletNotifications | .unloaded _ | .walletUnloaded _ | .shutdownFinished _ => none

def GuiEvent.finished : GuiEvent Name → Option Nat
  | .shutdownFinished model => some model
  | .consumeWalletNotifications | .unloaded _ | .walletUnloaded _ | .completed _ _ => none

/-- The model has been told that its wallet is unloaded. -/
def Dying (events : List (GuiEvent Name)) (model : Nat) : Prop :=
  .unloaded model ∈ events ∨ .walletUnloaded model ∈ events

/-! ## Commands that are awaited -/

/-- No number is out twice, and each has its completion. -/
structure Awaited (ids : List Nat) (completions : List (Nat × Command Name)) (next : Nat) : Prop where
  distinct : ids.Nodup
  bounded : ∀ id ∈ ids, id ≤ next
  registered : ∀ id ∈ ids, id ∈ completions.map Prod.fst

namespace Awaited

variable {ids ids' : List Nat} {completions : List (Nat × Command Name)} {next id : Nat}

theorem nil : Awaited [] completions next where
  distinct := List.nodup_nil
  bounded id hid := by cases hid
  registered id hid := by cases hid

theorem perm (h : Awaited ids completions next) (hperm : ids'.Perm ids) : Awaited ids' completions next where
  distinct := hperm.nodup_iff.mpr h.distinct
  bounded id hid := h.bounded id (hperm.mem_iff.mp hid)
  registered id hid := h.registered id (hperm.mem_iff.mp hid)

theorem submit (h : Awaited ids completions next) (command : Command Name) :
    Awaited (ids ++ [next + 1]) (completions ++ [(next + 1, command)]) (next + 1) where
  distinct := by
    rw [List.nodup_append]
    refine ⟨h.distinct, List.nodup_singleton _, fun id hid other hother heq => ?_⟩
    rw [List.mem_singleton] at hother
    have hle := h.bounded id hid
    omega
  bounded id hid := by
    rcases List.mem_append.mp hid with hid | hid
    · exact Nat.le_succ_of_le (h.bounded id hid)
    · exact (List.mem_singleton.mp hid).le
  registered id hid := by
    rw [List.map_append, List.mem_append]
    exact (List.mem_append.mp hid).imp (h.registered id) fun hnew => hnew

theorem complete [DecidableEq Name] (h : Awaited (id :: ids) completions next) {completion : Nat × Command Name}
    (hid : completion.1 = id) : Awaited ids (completions.erase completion) next where
  distinct := (List.nodup_cons.mp h.distinct).2
  bounded other hother := h.bounded other (List.mem_cons_of_mem id hother)
  registered other hother := by
    obtain ⟨entry, hentry, rfl⟩ := List.mem_map.mp (h.registered other (List.mem_cons_of_mem id hother))
    have hne : entry ≠ completion := by
      rintro rfl
      exact (List.nodup_cons.mp h.distinct).1 (hid ▸ hother)
    exact List.mem_map_of_mem ((List.mem_erase_of_ne hne).mpr hentry)

end Awaited

/-! ## Models that leave -/

/-- A model whose executor has not finished is one that retires. -/
structure Leaving (ids retiring : List Nat) : Prop where
  distinct : ids.Nodup
  retiring : ∀ id ∈ ids, id ∈ retiring

namespace Leaving

variable {ids ids' retiring : List Nat} {id : Nat}

theorem nil : Leaving [] retiring where
  distinct := List.nodup_nil
  retiring id hid := by cases hid

theorem perm (h : Leaving ids retiring) (hperm : ids'.Perm ids) : Leaving ids' retiring where
  distinct := hperm.nodup_iff.mpr h.distinct
  retiring id hid := h.retiring id (hperm.mem_iff.mp hid)

theorem retire (h : Leaving ids retiring) (hnew : id ∉ retiring) : Leaving (id :: ids) (id :: retiring) where
  distinct := List.nodup_cons.mpr ⟨fun hid => hnew (h.retiring id hid), h.distinct⟩
  retiring other hother := by
    rcases List.mem_cons.mp hother with rfl | hother
    · exact List.mem_cons_self
    · exact List.mem_cons_of_mem id (h.retiring other hother)

theorem finish {retiring' : List Nat} (h : Leaving (id :: ids) retiring)
    (hretiring : ∀ other ∈ retiring, other ≠ id → other ∈ retiring') : Leaving ids retiring' where
  distinct := (List.nodup_cons.mp h.distinct).2
  retiring other hother := by
    refine hretiring other (h.retiring other (List.mem_cons_of_mem id hother)) ?_
    rintro rfl
    exact (List.nodup_cons.mp h.distinct).1 hother

end Leaving

/-! ## Models that are open -/

variable [Inhabited Name]

/-- An open model has a wallet of the node, or has been told that it has not. -/
structure Opened (models : List (WalletQmlModel Name)) (next_model : Nat) (wallets : List (Wallet Name))
    (next_wallet : Nat) (events : List (GuiEvent Name)) : Prop where
  wallet : ∀ model ∈ models, ∃ wallet, model.m_wallet = some wallet ∧ wallet.number < next_wallet ∧
    (wallet ∈ wallets ∨ Dying events model.id)
  bounded : ∀ id, Dying events id → id < next_model
  dead : ∀ model ∈ models, Dying events model.id → ∀ wallet, model.m_wallet = some wallet → wallet ∉ wallets

namespace Opened

variable {models models' : List (WalletQmlModel Name)} {model : WalletQmlModel Name} {next_model next_wallet : Nat}
  {wallets : List (Wallet Name)} {wallet : Wallet Name} {events events' : List (GuiEvent Name)}

omit [Inhabited Name]

theorem heard (h : Opened models next_model wallets next_wallet events)
    (hdying : ∀ id, Dying events' id → Dying events id)
    (hkept : ∀ model ∈ models, Dying events model.id → Dying events' model.id) :
    Opened models next_model wallets next_wallet events' where
  wallet model hmodel := by
    obtain ⟨wallet, hwallet, hnumber, hloaded⟩ := h.wallet model hmodel
    exact ⟨wallet, hwallet, hnumber, hloaded.imp_right (hkept model hmodel)⟩
  bounded id hid := h.bounded id (hdying id hid)
  dead model hmodel hid := h.dead model hmodel (hdying model.id hid)

theorem post (h : Opened models next_model wallets next_wallet events)
    (hdying : ∀ id, Dying events' id ↔ Dying events id) : Opened models next_model wallets next_wallet events' :=
  h.heard (fun id => (hdying id).mp) fun model _ => (hdying model.id).mpr

theorem load (h : Opened models next_model wallets next_wallet events) (hnumber : wallet.number = next_wallet) :
    Opened models next_model (wallets ++ [wallet]) (next_wallet + 1) events where
  wallet model hmodel := by
    obtain ⟨other, hother, hold, hloaded⟩ := h.wallet model hmodel
    exact ⟨other, hother, Nat.lt_succ_of_lt hold, hloaded.imp_left (List.mem_append_left _)⟩
  bounded := h.bounded
  dead model hmodel hid other hother hmem := by
    rcases List.mem_append.mp hmem with hmem | hmem
    · exact h.dead model hmodel hid other hother hmem
    · obtain ⟨old, hold, hlt, -⟩ := h.wallet model hmodel
      obtain rfl := Option.some.inj (hother.symm.trans hold)
      rw [List.mem_singleton.mp hmem, hnumber] at hlt
      exact absurd hlt (Nat.lt_irrefl _)

theorem remove (h : Opened models next_model wallets next_wallet events) (hsub : ∀ model ∈ models', model ∈ models) :
    Opened models' next_model wallets next_wallet events where
  wallet model hmodel := h.wallet model (hsub model hmodel)
  bounded := h.bounded
  dead model hmodel := h.dead model (hsub model hmodel)

theorem add (h : Opened models next_model wallets next_wallet events) (hid : model.id = next_model)
    (hwallet : model.m_wallet = some wallet) (hloaded : wallet ∈ wallets)
    (hfresh : ∀ wallet ∈ wallets, wallet.number < next_wallet) :
    Opened (models ++ [model]) (next_model + 1) wallets next_wallet events where
  wallet other hother := by
    rcases List.mem_append.mp hother with hother | hother
    · exact h.wallet other hother
    · rw [List.mem_singleton.mp hother]
      exact ⟨wallet, hwallet, hfresh wallet hloaded, .inl hloaded⟩
  bounded id hdying := Nat.lt_succ_of_lt (h.bounded id hdying)
  dead other hother hdying := by
    rcases List.mem_append.mp hother with hother | hother
    · exact h.dead other hother hdying
    · rw [List.mem_singleton.mp hother, hid] at hdying
      exact absurd (h.bounded next_model hdying) (Nat.lt_irrefl _)

theorem dying_unloaded {told : List Nat} {id : Nat} :
    Dying (events ++ told.map .unloaded) id ↔ Dying events id ∨ id ∈ told := by
  simp only [Dying, List.mem_append, List.mem_map, GuiEvent.unloaded.injEq, exists_eq_right, reduceCtorEq, and_false,
    exists_false, or_false]
  exact or_right_comm

theorem unload [DecidableEq Name] (h : Opened models next_model wallets next_wallet events) (hnodup : wallets.Nodup)
    {told : List Nat} (htold : ∀ model ∈ models, model.m_wallet = some wallet → model.id ∈ told)
    (hbounded : ∀ id ∈ told, id < next_model)
    (hopen : ∀ model ∈ models, model.id ∈ told → model.m_wallet = some wallet) :
    Opened models next_model (wallets.erase wallet) next_wallet (events ++ told.map .unloaded) where
  wallet model hmodel := by
    obtain ⟨other, hother, hnumber, hloaded⟩ := h.wallet model hmodel
    refine ⟨other, hother, hnumber, ?_⟩
    rw [dying_unloaded]
    by_cases heq : other = wallet
    · exact .inr (.inr (htold model hmodel (heq ▸ hother)))
    · exact hloaded.imp (List.mem_erase_of_ne heq).mpr .inl
  bounded id hid := (dying_unloaded.mp hid).elim (h.bounded id) (hbounded id)
  dead model hmodel hid other hother hmem := by
    rcases dying_unloaded.mp hid with hid | hid
    · exact h.dead model hmodel hid other hother (List.mem_of_mem_erase hmem)
    · obtain rfl := Option.some.inj ((hopen model hmodel hid).symm.trans hother)
      exact hnodup.not_mem_erase hmem

end Opened

/-! ## Who has a wallet -/

variable {s : System Name} {wallet : Wallet Name}

/-- The worker has the wallet, or its result is posted. -/
def Returning (s : System Name) (wallet : Wallet Name) : Prop :=
  (∃ running, s.worker = some running ∧ (running.stage = .notifying wallet ∨ running.stage = .loaded wallet)) ∨
    ∃ id, .completed id (.returned (some wallet)) ∈ s.events

/-- A model is open for the wallet or closes it, or the wallet is on its way to the controller. -/
def Known (s : System Name) (wallet : Wallet Name) : Prop :=
  (∃ model ∈ s.controller.m_wallets, model.m_wallet = some wallet) ∨
    (∃ task ∈ s.controller.model_tasks, task.wallet = some wallet ∧ task.remove_wallet = true) ∨
    wallet ∈ s.controller.m_load_notifications ∨ Returning s wallet

/-- What a load handler has stored is still to be taken. -/
def Mailed (s : System Name) : Prop :=
  s.controller.m_load_notifications ≠ [] → .consumeWalletNotifications ∈ s.events ∨ 0 < s.posting ∨
    ∃ running wallet, s.worker = some running ∧ running.stage = .notifying wallet

structure Steady (s : System Name) : Prop where
  mailed : Mailed s
  awaited : Awaited (s.events.filterMap GuiEvent.command ++ s.commandIds)
    s.controller.m_wallet_command_executor.m_gui_completions s.controller.m_wallet_command_executor.m_next_task_id
  leaving : Leaving (s.controller.model_tasks.map ModelTask.model ++ s.drained ++ s.events.filterMap GuiEvent.finished)
    (s.controller.m_retiring_wallets.map WalletQmlModel.id)
  opened : Opened s.controller.m_wallets s.controller.next_model s.wallets s.next_wallet s.events

structure Tracked (s : System Name) : Prop extends Steady s where
  known : ∀ wallet ∈ s.wallets, Known s wallet

/-- A wallet reaches the controller, where `rest` is what there is besides, and is `dropped` or not. A model is made
of a wallet that is loaded only, and a loaded wallet of which none is made is known already. -/
structure InTime (rest : System Name) (wallet : Wallet Name) (dropped : Prop) : Prop where
  made : ¬dropped → wallet.getWalletName ∉ rest.controller.m_wallets.map WalletQmlModel.name → wallet ∈ rest.wallets
  passed : dropped ∨ wallet.getWalletName ∈ rest.controller.m_wallets.map WalletQmlModel.name →
    wallet ∈ rest.wallets → Known rest wallet

/-- The completion that is awaited is one of `migrateWallet`, which drops a wallet as a notification does. -/
def Migrated (c : WalletQmlController Name) (id : Nat) : Prop :=
  ∃ reference, c.m_wallet_command_executor.m_gui_completions.find? (fun completion => completion.1 = id) =
    some (id, .migrateWallet reference)

/-- No wallet is lost in this step. -/
def NoneLost (s : System Name) : Event Name → Prop
  | .deliver =>
    match s.events with
    | .consumeWalletNotifications :: events => ∀ wallet ∈ s.controller.m_load_notifications,
        InTime { s with events, controller := { s.controller with m_load_notifications := [] } } wallet
          (Deferred s.controller wallet)
    | .completed id (.returned (some wallet)) :: events =>
        InTime { s with events } wallet (Migrated s.controller id ∧ Deferred s.controller wallet)
    | _ => True
  | .work .throws =>
    match s.worker with
    | some ⟨_, _, .loaded wallet⟩ => wallet ∈ s.wallets → Known { s with worker := none } wallet
    | _ => True
  | _ => True

/-! ## Steps of the node and the worker -/

section frames

theorem Known.mono (h : Known s wallet) {s' : System Name}
    (hmodels : ∀ model ∈ s.controller.m_wallets, model ∈ s'.controller.m_wallets)
    (htasks : ∀ task ∈ s.controller.model_tasks, task ∈ s'.controller.model_tasks)
    (hmailbox : ∀ wallet ∈ s.controller.m_load_notifications, wallet ∈ s'.controller.m_load_notifications)
    (hreturning : Returning s wallet → Returning s' wallet) : Known s' wallet := by
  rcases h with ⟨model, hmodel, hwallet⟩ | ⟨task, htask, hwallet⟩ | hmail | hreturn
  · exact .inl ⟨model, hmodels model hmodel, hwallet⟩
  · exact .inr (.inl ⟨task, htasks task htask, hwallet⟩)
  · exact .inr (.inr (.inl (hmailbox wallet hmail)))
  · exact .inr (.inr (.inr (hreturning hreturn)))

theorem Returning.append (more : List (GuiEvent Name)) (h : Returning s wallet) :
    Returning { s with events := s.events ++ more } wallet :=
  h.imp_right fun ⟨id, hmem⟩ => ⟨id, List.mem_append_left _ hmem⟩

end frames

/-- A notification changes nothing that is awaited, leaves or is open. -/
theorem Steady.notified (h : Steady s) : Steady (s.send .consumeWalletNotifications) where
  mailed hmail := (h.mailed hmail).imp_left (List.mem_append_left _)
  awaited := by
    have hnone : ([.consumeWalletNotifications] : List (GuiEvent Name)).filterMap GuiEvent.command = [] := rfl
    rw [System.send, List.filterMap_append, hnone, List.append_nil]
    exact h.awaited
  leaving := by
    have hnone : ([.consumeWalletNotifications] : List (GuiEvent Name)).filterMap GuiEvent.finished = [] := rfl
    rw [System.send, List.filterMap_append, hnone, List.append_nil]
    exact h.leaving
  opened := h.opened.post fun id => by simp [System.send, Dying]

section node

variable [DecidableEq Name]

theorem lt_of_subscribed (hinv : Inv s.controller) (h : Steady s) {id : Nat} (hid : id ∈ s.subscribed wallet) :
    id < s.controller.next_model := by
  rcases List.mem_append.mp hid with hid | hid
  · obtain ⟨model, hmodel, rfl⟩ := List.mem_map.mp hid
    have hentered := (hinv.core.listed.entered _).mp (List.mem_map_of_mem (List.mem_of_mem_filter hmodel))
    exact (hinv.core.listed.noted _ hentered.1).2
  · obtain ⟨task, htask, rfl⟩ := List.mem_map.mp hid
    have hmem : task.model ∈ s.controller.model_tasks.map ModelTask.model :=
      List.mem_map_of_mem (List.mem_of_mem_filter htask)
    have hretiring := h.leaving.retiring _ (List.mem_append_left _ (List.mem_append_left _ hmem))
    exact hinv.core.retiring.noted _ ((hinv.core.retiring.retired _).mp hretiring).1

theorem wallet_of_subscribed (hinv : Inv s.controller) (h : Steady s) {model : WalletQmlModel Name}
    (hmodel : model ∈ s.controller.m_wallets) (hid : model.id ∈ s.subscribed wallet) :
    model.m_wallet = some wallet := by
  rcases List.mem_append.mp hid with hid | hid
  · obtain ⟨other, hother, heq⟩ := List.mem_map.mp hid
    obtain ⟨hother, hwallet⟩ := List.mem_filter.mp hother
    rw [← hinv.core.listed.ids.inj hother hmodel heq]
    simpa using hwallet
  · obtain ⟨task, htask, heq⟩ := List.mem_map.mp hid
    have hmem : task.model ∈ s.controller.model_tasks.map ModelTask.model :=
      List.mem_map_of_mem (List.mem_of_mem_filter htask)
    have hretiring := h.leaving.retiring _ (List.mem_append_left _ (List.mem_append_left _ hmem))
    rw [heq] at hretiring
    exact absurd ((hinv.core.retiring.retired _).mp hretiring).1
      (hinv.core.listed.unretired _ (List.mem_map_of_mem hmodel))

theorem Steady.unload (h : Steady s) (hinv : Inv s.controller) (hloaded : Loaded s.wallets s.next_wallet)
    (wallet : Wallet Name) : Steady (s.unload wallet) := by
  unfold System.unload
  split
  next =>
    constructor
    case mailed => exact fun hmail => (h.mailed hmail).imp_left (List.mem_append_left _)
    case awaited =>
      have hnone : List.filterMap (GuiEvent.command : GuiEvent Name → Option Nat)
          ((s.subscribed wallet).map .unloaded) = [] := by
        simp [List.filterMap_map, GuiEvent.command, Function.comp_def]
      dsimp only
      rw [List.filterMap_append, hnone, List.append_nil]
      exact h.awaited
    case leaving =>
      have hnone : List.filterMap (GuiEvent.finished : GuiEvent Name → Option Nat)
          ((s.subscribed wallet).map .unloaded) = [] := by
        simp [List.filterMap_map, GuiEvent.finished, Function.comp_def]
      dsimp only
      rw [List.filterMap_append, hnone, List.append_nil]
      exact h.leaving
    case opened =>
      refine h.opened.unload hloaded.names.nodup (fun model hmodel hwallet => ?_) (fun id => lt_of_subscribed hinv h)
        fun model hmodel => wallet_of_subscribed hinv h hmodel
      refine List.mem_append_left _ (List.mem_map_of_mem (List.mem_filter.mpr ⟨hmodel, ?_⟩))
      simpa using hwallet
  next => exact h

theorem Known.unload (h : Known s wallet) (other : Wallet Name) : Known (s.unload other) wallet := by
  unfold System.unload
  split
  next =>
    exact h.mono (fun _ hmem => hmem) (fun _ hmem => hmem) (fun _ hmem => hmem) (Returning.append _)
  next => exact h

theorem mem_of_mem_unload {other : Wallet Name} (h : other ∈ (s.unload wallet).wallets) : other ∈ s.wallets := by
  unfold System.unload at h
  split at h
  · exact List.mem_of_mem_erase h
  · exact h

theorem not_mem_unload (hloaded : Loaded s.wallets s.next_wallet) (wallet : Wallet Name) :
    wallet ∉ (s.unload wallet).wallets := by
  unfold System.unload
  split
  · exact hloaded.names.nodup.not_mem_erase
  next hnot => exact hnot

theorem Tracked.unload (h : Tracked s) (hinv : Inv s.controller) (hloaded : Loaded s.wallets s.next_wallet)
    (wallet : Wallet Name) : Tracked (s.unload wallet) where
  toSteady := h.toSteady.unload hinv hloaded wallet
  known other hother := (h.known other (mem_of_mem_unload hother)).unload wallet

omit [DecidableEq Name] in
theorem notifyLoaded_eq (hhandler : s.controller.m_handler_load_wallet = true) (wallet : Wallet Name) :
    s.controller.notifyLoaded wallet =
      { s.controller with m_load_notifications := s.controller.m_load_notifications ++ [wallet] } := by
  rw [WalletQmlController.notifyLoaded, if_pos hhandler]

omit [DecidableEq Name] in
theorem Tracked.stored (h : Tracked s) (hnumber : wallet.number = s.next_wallet) {posting : Nat}
    {worker : Option (Running Name)} (hids : worker.toList.map Running.id = s.worker.toList.map Running.id)
    (hworker : ∀ running, s.worker = some running → worker = some running ∨ running.stage = .taken)
    (hposted : 0 < posting ∨ ∃ running wallet, worker = some running ∧ running.stage = .notifying wallet) :
    Tracked { s with
      controller := { s.controller with m_load_notifications := s.controller.m_load_notifications ++ [wallet] }
      wallets := s.wallets ++ [wallet]
      next_wallet := s.next_wallet + 1
      posting := posting
      worker := worker } where
  mailed _ := .inr hposted
  awaited := by
    unfold System.commandIds
    rw [hids]
    exact h.awaited
  leaving := h.leaving
  opened := h.opened.load hnumber
  known other hother := by
    rcases List.mem_append.mp hother with hother | hother
    · refine (h.known other hother).mono (fun _ hmem => hmem) (fun _ hmem => hmem)
        (fun _ hmem => List.mem_append_left _ hmem) ?_
      rintro (⟨running, hrunning, hstage⟩ | hreturned)
      · rcases hworker running hrunning with hsame | htaken
        · exact .inl ⟨running, hsame, hstage⟩
        · rcases hstage with hstage | hstage <;> cases htaken.symm.trans hstage
      · exact .inr hreturned
    · exact .inr (.inr (.inl (List.mem_append_right _ hother)))

theorem Tracked.load (h : Tracked s) (hinv : Inv s.controller) (hinitialized : s.controller.m_initialized = true)
    (name : Name) : Tracked (s.load name) := by
  have hhandler := (hinv.running hinitialized).2
  unfold System.load
  split
  next => exact h
  next =>
    simp only [System.loadWallet, System.input, Controller.step, notifyLoaded_eq hhandler]
    have hnumber : (s.newWallet name none).number = s.next_wallet := rfl
    exact h.stored hnumber rfl (fun running hrunning => .inl hrunning) (.inl (Nat.succ_pos _))

omit [DecidableEq Name] in
theorem Tracked.post (h : Tracked s) : Tracked s.post := by
  unfold System.post
  split
  next => exact h
  next posting _ =>
    have hposted := h.notified
    exact ⟨⟨fun _ => .inl (List.mem_append_right _ List.mem_cons_self), hposted.awaited, hposted.leaving,
      hposted.opened⟩, fun wallet hwallet => (h.known wallet hwallet).mono (fun _ hmem => hmem) (fun _ hmem => hmem)
        (fun _ hmem => hmem) (Returning.append _)⟩

theorem Tracked.take (h : Tracked s) : Tracked s.take := by
  unfold System.take
  split
  next task tasks hworker htasks =>
    constructor
    case toSteady =>
      refine ⟨fun hmail => ?_, ?_, h.leaving, h.opened⟩
      · rcases h.mailed hmail with hposted | hposting | ⟨running, _, hrunning, -⟩
        · exact .inl hposted
        · exact .inr (.inl hposting)
        · cases hworker.symm.trans hrunning
      · have hawaited := h.awaited
        rw [System.commandIds, hworker, htasks] at hawaited
        simpa [System.commandIds, System.input, Controller.step, WalletQmlController.takeTask, htasks] using hawaited
    case known =>
      intro wallet hwallet
      refine (h.known wallet hwallet).mono (fun _ hmem => hmem) (fun _ hmem => hmem) (fun _ hmem => hmem) ?_
      rintro (⟨running, hrunning, -⟩ | hreturned)
      · cases hworker.symm.trans hrunning
      · exact .inr hreturned
  next => exact h

section worker

variable {running : Running Name}

omit [DecidableEq Name] in
theorem Tracked.ends (h : Tracked s) (hworker : s.worker = some running)
    (hstage : ∀ wallet, running.stage ≠ .notifying wallet) {outcome : Outcome Name}
    (hkept : ∀ wallet ∈ s.wallets, running.stage = .loaded wallet →
      outcome = .returned (some wallet) ∨ Known { s with worker := none } wallet) :
    Tracked (s.ends running outcome) where
  mailed hmail := by
    rcases h.mailed hmail with hposted | hposting | ⟨other, wallet, hother, hnotifying⟩
    · exact .inl (List.mem_append_left _ hposted)
    · exact .inr (.inl hposting)
    · obtain rfl := Option.some.inj (hworker.symm.trans hother)
      exact absurd hnotifying (hstage wallet)
  awaited := by
    have hawaited := h.awaited
    rw [Safe.commandIds_eq hworker] at hawaited
    simpa [System.ends, System.send, System.commandIds, List.filterMap_cons, GuiEvent.command] using hawaited
  leaving := by
    simpa [System.ends, System.send, List.filterMap_cons, GuiEvent.finished] using h.leaving
  opened := h.opened.post fun id => by simp [System.ends, System.send, Dying]
  known wallet hwallet := by
    have hknown : running.stage = .loaded wallet ∨ Known { s with worker := none } wallet := by
      rcases h.known wallet hwallet with hmodel | htask | hmail | ⟨other, hother, hheld⟩ | hreturned
      · exact .inr (.inl hmodel)
      · exact .inr (.inr (.inl htask))
      · exact .inr (.inr (.inr (.inl hmail)))
      · obtain rfl := Option.some.inj (hworker.symm.trans hother)
        exact .inl (hheld.resolve_left (hstage wallet))
      · exact .inr (.inr (.inr (.inr (.inr hreturned))))
    have hposted : Known { s with worker := none } wallet → Known (s.ends running outcome) wallet := fun hknown =>
      hknown.mono (fun _ hmem => hmem) (fun _ hmem => hmem) (fun _ hmem => hmem) (Returning.append _)
    rcases hknown with hloaded | hknown
    · rcases hkept wallet hwallet hloaded with rfl | hknown
      · exact .inr (.inr (.inr (.inr ⟨running.id, List.mem_append_right _ List.mem_cons_self⟩)))
      · exact hposted hknown
    · exact hposted hknown

omit [DecidableEq Name] in
theorem Tracked.notifies (h : Tracked s) (hinv : Inv s.controller) (hinitialized : s.controller.m_initialized = true)
    (hworker : s.worker = some running) (hstage : running.stage = .notifying wallet) :
    Tracked { (if s.controller.m_handler_load_wallet then s.send .consumeWalletNotifications else s) with
      worker := some { running with stage := .loaded wallet } } := by
  rw [if_pos (hinv.running hinitialized).2]
  have hposted := h.notified
  refine ⟨⟨fun _ => .inl (List.mem_append_right _ List.mem_cons_self), ?_, hposted.leaving, hposted.opened⟩,
    fun other hother => ?_⟩
  · have hawaited := hposted.awaited
    rw [System.commandIds, show (s.send .consumeWalletNotifications).worker = some running from hworker] at hawaited
    exact hawaited
  · refine (h.known other hother).mono (fun _ hmem => hmem) (fun _ hmem => hmem) (fun _ hmem => hmem) ?_
    rintro (⟨held, hheld, hwallet⟩ | ⟨id, hmem⟩)
    · obtain rfl := Option.some.inj (hworker.symm.trans hheld)
      rw [hstage] at hwallet
      rcases hwallet with hwallet | hwallet
      · obtain rfl := Stage.notifying.inj hwallet
        exact .inl ⟨_, rfl, .inr rfl⟩
      · cases hwallet
    · exact .inr ⟨id, List.mem_append_left _ hmem⟩

theorem Tracked.loads (h : Tracked s) (hinv : Inv s.controller) (hinitialized : s.controller.m_initialized = true)
    (hworker : s.worker = some running) (hstage : running.stage = .taken) : Tracked (s.loads running) := by
  have hhandler := (hinv.running hinitialized).2
  unfold System.loads
  split
  next =>
    refine h.ends hworker (fun wallet heq => by cases hstage.symm.trans heq) fun wallet _ heq => ?_
    cases hstage.symm.trans heq
  next =>
    simp only [System.loadWallet, System.input, Controller.step, notifyLoaded_eq hhandler]
    generalize hwallet : s.newWallet running.command.name
      (if running.command.setup_wallet then some running.id else none) = wallet
    have hnumber : wallet.number = s.next_wallet := hwallet ▸ rfl
    have hids : (some { running with stage := Stage.notifying wallet }).toList.map Running.id =
        s.worker.toList.map Running.id := by
      rw [hworker]
      rfl
    refine h.stored hnumber hids (fun other hother => .inr ?_) (.inr ⟨_, wallet, rfl, rfl⟩)
    rwa [← Option.some.inj (hworker.symm.trans hother)]

theorem Tracked.setsUp (h : Tracked s) (hinv : Inv s.controller) (hloaded : Loaded s.wallets s.next_wallet)
    (hworker : s.worker = some running) (hstage : running.stage = .loaded wallet) (success : Bool) :
    Tracked (s.setsUp running wallet success) := by
  have hnotifying : ∀ other, running.stage ≠ .notifying other := fun other heq => by cases hstage.symm.trans heq
  have hreturned : ∀ other ∈ s.wallets, running.stage = .loaded other →
      Outcome.returned (some wallet) = .returned (some other) ∨ Known { s with worker := none } other := by
    intro other _ heq
    rw [Stage.loaded.inj (hstage.symm.trans heq)]
    exact .inl rfl
  unfold System.setsUp
  split
  next =>
    have hcalled (setups : List (Nat × Bool)) : Tracked { s with setups := setups } :=
      ⟨⟨h.mailed, h.awaited, h.leaving, h.opened⟩, h.known⟩
    cases success with
    | true => exact (hcalled ((running.id, true) :: s.setups)).ends hworker hnotifying hreturned
    | false =>
      have hkept : System.worker (System.unload { s with setups := (running.id, false) :: s.setups } wallet) =
          some running := by
        unfold System.unload
        split <;> exact hworker
      have hunloaded := (hcalled ((running.id, false) :: s.setups)).unload hinv hloaded wallet
      refine hunloaded.ends hkept hnotifying fun other hother heq => ?_
      rw [← Stage.loaded.inj (hstage.symm.trans heq)] at hother
      exact absurd hother (not_mem_unload (s := { s with setups := (running.id, false) :: s.setups }) hloaded wallet)
  next => exact h.ends hworker hnotifying hreturned

theorem Tracked.work (h : Tracked s) (hinv : Inv s.controller) (hloaded : Loaded s.wallets s.next_wallet)
    (hinitialized : s.controller.m_initialized = true) {progress : Progress} (hallowed : NoneLost s (.work progress)) :
    Tracked (s.work progress) := by
  unfold System.work
  split
  next => exact h
  next running hworker =>
    have htaken {outcome : Outcome Name} (hstage : running.stage = .taken) : Tracked (s.ends running outcome) := by
      refine h.ends hworker (fun wallet heq => by cases hstage.symm.trans heq) fun wallet _ heq => ?_
      cases hstage.symm.trans heq
    split
    next hstage => exact h.loads hinv hinitialized hworker hstage
    next hstage => exact htaken hstage
    next wallet _ hstage => exact h.notifies hinv hinitialized hworker hstage
    next wallet hstage => exact h.setsUp hinv hloaded hworker hstage true
    next wallet hstage => exact h.setsUp hinv hloaded hworker hstage false
    next hstage => exact htaken hstage
    next wallet hstage =>
      refine h.ends hworker (fun other heq => by cases hstage.symm.trans heq) fun other hother heq => .inr ?_
      obtain ⟨id, command, stage⟩ := running
      obtain rfl : stage = .loaded other := heq
      unfold NoneLost at hallowed
      simp only [hworker] at hallowed
      exact hallowed hother

end worker

/-- The executor of a model takes its last task. -/
def disconnected (s : System Name) (task : ModelTask Name) : System Name :=
  { s.input (.takeModelTask task) with drained := task.model :: s.drained }

theorem Steady.disconnected (h : Steady s) {task : ModelTask Name} (hmem : task ∈ s.controller.model_tasks) :
    Steady (disconnected s task) where
  mailed := h.mailed
  awaited := h.awaited
  leaving := by
    refine h.leaving.perm ?_
    have htasks := ((List.perm_cons_erase hmem).map ModelTask.model).symm
    refine (List.perm_middle.trans ?_ : List.Perm _ _).append_right _
    exact htasks.append_right s.drained
  opened := h.opened

theorem Known.disconnected (h : Known s wallet) {task : ModelTask Name}
    (hother : task.wallet = some wallet → task.remove_wallet = false) : Known (disconnected s task) wallet := by
  rcases h with hmodel | ⟨other, hmem, hwallet, hremove⟩ | hmail
  · exact .inl hmodel
  · refine .inr (.inl ⟨other, (List.mem_erase_of_ne ?_).mpr hmem, hwallet, hremove⟩)
    rintro rfl
    exact Bool.false_ne_true ((hother hwallet).symm.trans hremove)
  · exact .inr (.inr hmail)

theorem Tracked.workModel (h : Tracked s) (hinv : Inv s.controller) (hloaded : Loaded s.wallets s.next_wallet)
    (task : ModelTask Name) : Tracked (s.workModel task) := by
  unfold System.workModel
  split
  next hmem =>
    have hsteady := h.toSteady.disconnected hmem
    have hinv : Inv (disconnected s task).controller := hinv.step (i := .takeModelTask task) trivial
    cases hwallet : task.wallet with
    | none =>
      refine ⟨hsteady, fun other hother => (h.known other hother).disconnected fun heq => ?_⟩
      cases hwallet.symm.trans heq
    | some wallet =>
      dsimp only
      split
      next hremove =>
        refine ⟨hsteady.unload hinv hloaded wallet, fun other hother => ?_⟩
        have hknown := h.known other (mem_of_mem_unload (s := disconnected s task) hother)
        refine (hknown.disconnected fun heq => ?_).unload wallet
        obtain rfl := Option.some.inj (hwallet.symm.trans heq)
        exact absurd hother (not_mem_unload (s := disconnected s task) hloaded wallet)
      next hkept =>
        refine ⟨hsteady, fun other hother => (h.known other hother).disconnected fun _ => ?_⟩
        exact Bool.not_eq_true _ ▸ hkept
  next => exact h

omit [DecidableEq Name] in
theorem Tracked.drainModel (h : Tracked s) (model : Nat) : Tracked (s.drainModel model) := by
  unfold System.drainModel
  split
  next hmem =>
    refine ⟨⟨fun hmail => (h.mailed hmail).imp_left (List.mem_append_left _), ?_, ?_, ?_⟩, fun wallet hwallet => ?_⟩
    · simpa [System.send, System.commandIds, List.filterMap_cons, GuiEvent.command] using h.awaited
    · refine h.leaving.perm ?_
      simp only [System.send, List.filterMap_append, List.filterMap_cons, GuiEvent.finished, List.filterMap_nil]
      rw [← List.append_assoc]
      refine (List.perm_append_singleton model _).trans ?_
      have hdrained := (List.perm_cons_erase hmem).symm.append_left (s.controller.model_tasks.map ModelTask.model)
      exact (List.perm_middle.symm.trans hdrained).append_right _
    · exact h.opened.post fun id => by simp [System.send, Dying]
    · exact (h.known wallet hwallet).mono (fun _ hmem => hmem) (fun _ hmem => hmem) (fun _ hmem => hmem)
        (Returning.append _)
  next => exact h

end node

end GuiQml.Controller
