import GuiQml.Controller.Tracked

/-!
# What the GUI thread takes

A model is told that its wallet is unloaded, a model has shut down, the mailbox is emptied or a command returns. What
the user asks for comes between.
-/

namespace GuiQml.Controller

variable {Name : Type} [Inhabited Name] [DecidableEq Name] {s : System Name} {wallet : Wallet Name}

/-! ## Models that leave the list -/

theorem Tracked.removeWalletModel (h : Tracked s) (hcore : Core s.controller) {model : WalletQmlModel Name}
    (hmodel : model ∈ s.controller.m_wallets) (in_progress remove : Bool)
    (hremove : remove = true ∨ ∀ wallet, model.m_wallet = some wallet → wallet ∉ s.wallets) :
    Tracked { s with
      controller :=
        { s.controller with m_wallet_load_in_progress := in_progress }.removeWalletModel model remove } := by
  have hcore : Core { s.controller with m_wallet_load_in_progress := in_progress } :=
    ⟨hcore.listed, hcore.retiring, hcore.flagged, hcore.keeps⟩
  have hnew : model.id ∉ s.controller.m_retiring_wallets.map WalletQmlModel.id := fun hmem =>
    hcore.listed.unretired _ (List.mem_map_of_mem hmodel) ((hcore.retiring.retired _).mp hmem).1
  rw [removeWalletModel_eq hcore hmodel]
  constructor
  case toSteady =>
    refine ⟨h.mailed, h.awaited, ?_, h.opened.remove fun _ => List.mem_of_mem_erase⟩
    refine (h.leaving.retire hnew).perm ?_
    simp only [List.map_append, List.map_cons, List.map_nil]
    exact ((List.perm_append_singleton _ _).append_right _).append_right _
  case known =>
    intro wallet hwallet
    rcases h.known wallet hwallet with ⟨other, hother, heq⟩ | ⟨task, htask, heq⟩ | hmail
    · by_cases hsame : other = model
      · subst hsame
        refine .inr (.inl ⟨_, List.mem_append_right _ List.mem_cons_self, heq, ?_⟩)
        exact hremove.resolve_right fun hnone => hnone wallet heq hwallet
      · exact .inl ⟨other, (List.mem_erase_of_ne hsame).mpr hother, heq⟩
    · exact .inr (.inl ⟨task, List.mem_append_left _ htask, heq⟩)
    · exact .inr (.inr hmail)

/-! ## What the GUI thread takes -/

variable {event : GuiEvent Name} {events : List (GuiEvent Name)}

omit [DecidableEq Name] in
theorem Steady.opened_pop (h : Steady s) (hevents : s.events = event :: events) (hunloaded : ∀ id, event ≠ .unloaded id)
    (hwallet : ∀ id, event ≠ .walletUnloaded id) :
    Opened s.controller.m_wallets s.controller.next_model s.wallets s.next_wallet events := by
  refine h.opened.post fun id => ?_
  rw [hevents, Dying, Dying, List.mem_cons, List.mem_cons, or_iff_right (hunloaded id).symm,
    or_iff_right (hwallet id).symm]

omit [DecidableEq Name] in
theorem Returning.pop (h : Returning s wallet) (hevents : s.events = event :: events)
    (hcommand : event.command = none) : Returning { s with events } wallet := by
  rcases h with hheld | ⟨id, hmem⟩
  · exact .inl hheld
  · refine .inr ⟨id, List.mem_of_ne_of_mem ?_ (hevents ▸ hmem)⟩
    rintro rfl
    cases hcommand

omit [DecidableEq Name] in
theorem Tracked.pop (h : Tracked s) (hevents : s.events = event :: events)
    (hevent : event ≠ .consumeWalletNotifications) (hcommand : event.command = none) (hfinished : event.finished = none)
    (hkept : ∀ model ∈ s.controller.m_wallets, Dying s.events model.id → Dying events model.id) :
    Tracked { s with events } where
  mailed hmail := by
    refine (h.mailed hmail).imp_left fun hmem => ?_
    rw [hevents] at hmem
    exact List.mem_of_ne_of_mem hevent.symm hmem
  awaited := by
    have hawaited := h.awaited
    rw [hevents, List.filterMap_cons_none hcommand] at hawaited
    exact hawaited
  leaving := by
    have hleaving := h.leaving
    rw [hevents, List.filterMap_cons_none hfinished] at hleaving
    exact hleaving
  opened := by
    refine h.opened.heard (fun id hdying => ?_) hkept
    rw [hevents]
    exact hdying.imp (List.mem_cons_of_mem event) (List.mem_cons_of_mem event)
  known wallet hwallet := by
    refine (h.known wallet hwallet).mono (fun _ hmem => hmem) (fun _ hmem => hmem) (fun _ hmem => hmem) ?_
    exact fun hreturning => hreturning.pop hevents hcommand

omit [DecidableEq Name] in
theorem Tracked.unloaded (h : Tracked s) {model : Nat} (hevents : s.events = .unloaded model :: events)
    (hclosed : model ∉ s.controller.m_wallets.map WalletQmlModel.id) : Tracked { s with events } := by
  refine h.pop hevents (fun heq => by cases heq) rfl rfl fun other hother hdying => ?_
  rw [hevents] at hdying
  rcases hdying with hmem | hmem
  · refine .inl (List.mem_of_ne_of_mem (fun heq => ?_) hmem)
    exact hclosed (GuiEvent.unloaded.inj heq ▸ List.mem_map_of_mem hother)
  · exact .inr (List.mem_of_ne_of_mem (fun heq => by cases heq) hmem)

omit [DecidableEq Name] in
theorem Tracked.passes (h : Tracked s) {model : Nat} (hevents : s.events = .unloaded model :: events) :
    Tracked (({ s with events } : System Name).send (.walletUnloaded model)) where
  mailed hmail := by
    refine (h.mailed hmail).imp_left fun hmem => List.mem_append_left _ ?_
    rw [hevents] at hmem
    exact List.mem_of_ne_of_mem (fun heq => by cases heq) hmem
  awaited := by
    have hawaited := h.awaited
    rw [hevents, List.filterMap_cons_none rfl] at hawaited
    simpa [System.send, System.commandIds, List.filterMap_cons, GuiEvent.command] using hawaited
  leaving := by
    have hleaving := h.leaving
    rw [hevents, List.filterMap_cons_none rfl] at hleaving
    simpa [System.send, List.filterMap_cons, GuiEvent.finished] using hleaving
  opened := by
    refine h.opened.post fun id => ?_
    simp only [System.send, hevents, Dying, List.mem_append, List.mem_cons, List.not_mem_nil, or_false,
      GuiEvent.unloaded.injEq, GuiEvent.walletUnloaded.injEq, reduceCtorEq, false_or]
    tauto
  known wallet hwallet := by
    refine (h.known wallet hwallet).mono (fun _ hmem => hmem) (fun _ hmem => hmem) (fun _ hmem => hmem) ?_
    exact fun hreturning => (hreturning.pop hevents rfl).append _

theorem Tracked.walletUnloaded (h : Tracked s) (hcore : Core s.controller) {id : Nat}
    (hevents : s.events = .walletUnloaded id :: events) :
    Tracked { s with events, controller := s.controller.walletUnloaded id } := by
  have hdying : Dying s.events id := .inr (hevents ▸ List.mem_cons_self)
  have hpop (other : Nat) (hne : other ≠ id) (hother : Dying s.events other) : Dying events other := by
    rw [hevents] at hother
    refine hother.imp (List.mem_of_ne_of_mem fun heq => by cases heq) (List.mem_of_ne_of_mem fun heq => ?_)
    exact hne (GuiEvent.walletUnloaded.inj heq)
  unfold WalletQmlController.walletUnloaded
  cases hfind : s.controller.m_wallets.find? fun model => model.id = id with
  | none =>
    refine h.pop hevents (fun heq => by cases heq) rfl rfl fun model hmodel => hpop model.id fun heq => ?_
    exact Keyed.find?_eq_none.mp hfind (heq ▸ List.mem_map_of_mem hmodel)
  | some model =>
    obtain ⟨hmodel, hid⟩ := Keyed.of_find? hfind
    have hremoved := h.removeWalletModel hcore hmodel s.controller.m_wallet_load_in_progress false
      (.inr (h.opened.dead model hmodel (hid.symm ▸ hdying)))
    refine hremoved.pop hevents (fun heq => by cases heq) rfl rfl fun other hother => hpop other.id fun heq => ?_
    rw [removeWalletModel_eq hcore hmodel] at hother
    obtain ⟨hne, hold⟩ := hcore.listed.ids.mem_erase.mp hother
    exact hne (hcore.listed.ids.inj hold hmodel (heq.trans hid.symm))

theorem shutdownFinished_eq {c : WalletQmlController Name} (hrunning : c.m_shutting_down = false) (id : Nat) :
    ∃ retiring names journal, c.shutdownFinished id =
      { c with m_retiring_wallets := retiring, m_retiring_wallet_names := names, journal := journal } ∧
      ∀ model ∈ c.m_retiring_wallets, model.id ≠ id → model ∈ retiring := by
  unfold WalletQmlController.shutdownFinished
  split
  next => exact ⟨_, _, _, rfl, fun _ hmem _ => hmem⟩
  next model hfind =>
    obtain ⟨-, hid⟩ := Keyed.of_find? hfind
    refine ⟨c.m_retiring_wallets.erase model, c.m_retiring_wallet_names.erase model.name,
      .finished model.id :: c.journal, ?_, fun other hother hne => ?_⟩
    · unfold WalletQmlController.checkShutdownFinished
      rw [if_neg (by simp [WalletQmlController.note, hrunning])]
      rfl
    · refine (List.mem_erase_of_ne ?_).mpr hother
      rintro rfl
      exact hne hid

theorem Tracked.shutdownFinished (h : Tracked s) (hrunning : s.controller.m_shutting_down = false) {id : Nat}
    (hevents : s.events = .shutdownFinished id :: events) :
    Tracked { s with events, controller := s.controller.shutdownFinished id } := by
  obtain ⟨retiring, names, journal, heq, hretiring⟩ := shutdownFinished_eq hrunning id
  rw [heq]
  constructor
  case toSteady =>
    constructor
    case mailed =>
      refine fun hmail => (h.mailed hmail).imp_left fun hmem => ?_
      exact List.mem_of_ne_of_mem (fun heq => by cases heq) (hevents ▸ hmem)
    case awaited =>
      have hawaited := h.awaited
      rw [hevents, List.filterMap_cons_none rfl] at hawaited
      exact hawaited
    case leaving =>
      have hleaving := h.leaving
      simp only [hevents, List.filterMap_cons, GuiEvent.finished] at hleaving
      refine (hleaving.perm List.perm_middle.symm).finish fun other hother hne => ?_
      obtain ⟨model, hmodel, rfl⟩ := List.mem_map.mp hother
      exact List.mem_map_of_mem (hretiring model hmodel hne)
    case opened => exact h.opened_pop hevents (fun _ heq => by cases heq) (fun _ heq => by cases heq)
  case known =>
    intro wallet hwallet
    refine (h.known wallet hwallet).mono (fun _ hmem => hmem) (fun _ hmem => hmem) (fun _ hmem => hmem) ?_
    exact fun hreturning => hreturning.pop hevents rfl

/-! ## Wallets that arrive -/

/-- The controller of `s` has models of loaded wallets besides those it had. -/
structure Gained (s : System Name) (c : WalletQmlController Name) : Prop where
  grows : ∀ model ∈ s.controller.m_wallets, model ∈ c.m_wallets
  made : ∀ model ∈ c.m_wallets, model ∈ s.controller.m_wallets ∨ ∃ wallet ∈ s.wallets, model.m_wallet = some wallet
  opened : Opened c.m_wallets c.next_model s.wallets s.next_wallet s.events

section arrivals

variable {c c' : WalletQmlController Name}

omit [DecidableEq Name] in
theorem Arrived.named (h : Arrived c wallet c') : wallet.getWalletName ∈ c'.m_wallets.map WalletQmlModel.name := by
  cases h with
  | selected model hmodel hname => exact hname ▸ List.mem_map_of_mem hmodel
  | added _ => exact List.mem_map_of_mem (a := c.newModel wallet) (List.mem_append_right _ List.mem_cons_self)

omit [DecidableEq Name] in
theorem Arrived.grows (h : Arrived c wallet c') : ∀ model ∈ c.m_wallets, model ∈ c'.m_wallets := by
  cases h with
  | selected => exact fun _ hmem => hmem
  | added _ => exact fun _ hmem => List.mem_append_left _ hmem

omit [DecidableEq Name] in
theorem Gained.named (h : Gained s c) {name : Name} (hmem : name ∈ s.controller.m_wallets.map WalletQmlModel.name) :
    name ∈ c.m_wallets.map WalletQmlModel.name := by
  obtain ⟨model, hmodel, heq⟩ := List.mem_map.mp hmem
  exact heq ▸ List.mem_map_of_mem (h.grows model hmodel)

omit [DecidableEq Name] in
theorem Gained.arrived (h : Gained s c) (harrived : Arrived c wallet c') (hloaded : Loaded s.wallets s.next_wallet)
    (hmade : wallet.getWalletName ∉ s.controller.m_wallets.map WalletQmlModel.name → wallet ∈ s.wallets) :
    Gained s c' where
  grows model hmodel := harrived.grows model (h.grows model hmodel)
  made := by
    cases harrived with
    | selected => exact h.made
    | added hname =>
      intro model hmodel
      rcases List.mem_append.mp hmodel with hold | hnew
      · exact h.made model hold
      · rw [List.mem_singleton.mp hnew]
        exact .inr ⟨wallet, hmade fun hmem => hname (h.named hmem), rfl⟩
  opened := by
    cases harrived with
    | selected => exact h.opened
    | added hname => exact h.opened.add rfl rfl (hmade fun hmem => hname (h.named hmem)) hloaded.fresh

theorem handleAll_grows (hrunning : c.m_shutting_down = false) (wallets : List (Wallet Name)) :
    ∀ model ∈ c.m_wallets,
      model ∈ (wallets.foldl (fun c wallet => c.handleLoadWallet (some wallet)) c).m_wallets := by
  refine (handleAll_induction (P := fun c' => ∀ model ∈ c.m_wallets, model ∈ c'.m_wallets) hrunning
    (fun _ hmem => hmem) ?_).1
  exact fun _ _ _ _ _ hgrows _ harrived model hmodel => harrived.grows model (hgrows model hmodel)

theorem handleAll_arrives (hrunning : c.m_shutting_down = false) (wallets : List (Wallet Name)) :
    Arrives c (wallets.foldl (fun c wallet => c.handleLoadWallet (some wallet)) c) :=
  (handleAll_induction (P := fun _ => True) hrunning trivial fun _ _ _ _ _ _ _ _ => trivial).2

theorem named_of_handled {wallets : List (Wallet Name)} (hrunning : c.m_shutting_down = false)
    (hmem : wallet ∈ wallets) (hkept : ¬Deferred c wallet) :
    wallet.getWalletName ∈
      (wallets.foldl (fun c wallet => c.handleLoadWallet (some wallet)) c).m_wallets.map WalletQmlModel.name := by
  induction wallets generalizing c with
  | nil => cases hmem
  | cons first wallets ih =>
    have harrives : Arrives c (c.handleLoadWallet (some first)) := by
      rcases @handleLoadWallet_arrived _ _ _ c first hrunning with ⟨-, heq⟩ | ⟨-, harrived⟩
      · rw [heq]
        exact .refl
      · exact harrived.arrives
    have hdown : (c.handleLoadWallet (some first)).m_shutting_down = false := by
      obtain ⟨_, _, _, _, _, heq⟩ := harrives
      rw [heq]
      exact hrunning
    rcases List.mem_cons.mp hmem with rfl | hlater
    · rcases @handleLoadWallet_arrived _ _ _ c wallet hrunning with ⟨hdropped, -⟩ | ⟨-, harrived⟩
      · exact absurd hdropped hkept
      · obtain ⟨model, hmodel, heq⟩ := List.mem_map.mp harrived.named
        exact heq ▸ List.mem_map_of_mem (handleAll_grows hdown wallets model hmodel)
    · refine ih (c := c.handleLoadWallet (some first)) hdown hlater fun hdropped => hkept ?_
      obtain ⟨_, _, _, _, _, heq⟩ := harrives
      rw [heq] at hdropped
      exact hdropped

end arrivals

theorem Tracked.consume (h : Tracked s) (hinv : Inv s.controller) (hinitialized : s.controller.m_initialized = true)
    (hloaded : Loaded s.wallets s.next_wallet) (hevents : s.events = .consumeWalletNotifications :: events)
    (hallowed : ∀ wallet ∈ s.controller.m_load_notifications,
      InTime { s with events, controller := { s.controller with m_load_notifications := [] } } wallet
        (Deferred s.controller wallet)) :
    Tracked { s with events, controller := s.controller.consumeWalletNotifications } := by
  have hrunning := (hinv.running hinitialized).1
  have hopened := h.opened_pop hevents (fun _ heq => by cases heq) (fun _ heq => by cases heq)
  have hconsumed : s.controller.consumeWalletNotifications = s.controller.m_load_notifications.foldl
      (fun c wallet => c.handleLoadWallet (some wallet)) { s.controller with m_load_notifications := [] } := by
    rw [WalletQmlController.consumeWalletNotifications, if_neg (by simp [hrunning])]
  have hnamed (wallet : Wallet Name) (hmail : wallet ∈ s.controller.m_load_notifications)
      (hkept : ¬Deferred s.controller wallet) :
      wallet.getWalletName ∈ s.controller.consumeWalletNotifications.m_wallets.map WalletQmlModel.name := by
    rw [hconsumed]
    exact named_of_handled hrunning hmail hkept
  obtain ⟨hgained, harrives⟩ : Gained { s with events } s.controller.consumeWalletNotifications ∧
      Arrives { s.controller with m_load_notifications := [] } s.controller.consumeWalletNotifications := by
    rw [hconsumed]
    refine handleAll_induction (P := Gained { s with events }) hrunning
      ⟨fun _ hmem => hmem, fun _ hmem => .inl hmem, hopened⟩ ?_
    intro wallet hmail c c' harrives hgained hkept harrived
    refine hgained.arrived harrived hloaded ((hallowed wallet hmail).made fun hdropped => hkept ?_)
    obtain ⟨_, _, _, _, _, rfl⟩ := harrives
    exact hdropped
  generalize s.controller.consumeWalletNotifications = c at hnamed hgained harrives ⊢
  obtain ⟨_, _, _, _, _, rfl⟩ := harrives
  have hcommand := h.awaited
  have hfinished := h.leaving
  rw [hevents, List.filterMap_cons_none rfl] at hcommand hfinished
  refine ⟨⟨fun hmail => absurd rfl hmail, hcommand, hfinished, hgained.opened⟩, fun wallet hwallet => ?_⟩
  rcases h.known wallet hwallet with ⟨model, hmodel, heq⟩ | htask | hmail | hreturn
  · exact .inl ⟨model, hgained.grows model hmodel, heq⟩
  · exact .inr (.inl htask)
  · by_cases hpassed : Deferred s.controller wallet ∨
        wallet.getWalletName ∈ s.controller.m_wallets.map WalletQmlModel.name
    · exact ((hallowed wallet hmail).passed hpassed hwallet).mono hgained.grows (fun _ hmem => hmem)
        (fun _ hmem => hmem) fun hreturn => hreturn
    · obtain ⟨hkept, hnew⟩ := not_or.mp hpassed
      obtain ⟨model, hmodel, hname⟩ := List.mem_map.mp (hnamed wallet hmail hkept)
      rcases hgained.made model hmodel with hold | ⟨other, hother, heq⟩
      · exact absurd (hname ▸ List.mem_map_of_mem hold) hnew
      · refine .inl ⟨model, hmodel, ?_⟩
        rw [WalletQmlModel.name, heq] at hname
        rw [heq, hloaded.names.inj hother hwallet hname]
  · exact .inr (.inr (.inr (hreturn.pop hevents rfl)))

/-! ## Commands that return -/

/-- What the completion of a command can do. -/
inductive Completes (c : WalletQmlController Name) (command : Command Name) :
    Outcome Name → WalletQmlController Name → Prop
  | nothing (outcome : Outcome Name) (deferred : Name) (in_progress : Bool)
      (hnone : ∀ wallet, outcome ≠ .returned (some wallet)) :
    Completes c command outcome
      { c with m_deferred_wallet_name := deferred, m_wallet_load_in_progress := in_progress }
  | dropped (wallet_reference : Name) (wallet : Wallet Name) (hcommand : command = .migrateWallet wallet_reference)
      (hdropped : Deferred c wallet) : Completes c command (.returned (some wallet)) c
  | arrived (wallet : Wallet Name) (deferred : Name) (in_progress : Bool) (c' : WalletQmlController Name)
      (hkept : ∀ wallet_reference, command = .migrateWallet wallet_reference → ¬Deferred c wallet)
      (harrived : Arrived { c with m_deferred_wallet_name := deferred, m_wallet_load_in_progress := in_progress }
        wallet c') : Completes c command (.returned (some wallet)) c'

theorem complete_completes {c : WalletQmlController Name} (hrunning : c.m_shutting_down = false)
    (command : Command Name) (outcome : Outcome Name) : Completes c command outcome (c.complete command outcome) := by
  cases outcome with
  | threw =>
    cases command with
    | createWallet => exact .nothing _ default false fun _ heq => by cases heq
    | migrateWallet =>
      exact .nothing _ c.m_deferred_wallet_name c.m_wallet_load_in_progress fun _ heq => by cases heq
    | loadWallet | restoreWallet => exact .nothing _ c.m_deferred_wallet_name false fun _ heq => by cases heq
  | returned wallet =>
    cases wallet with
    | none =>
      cases command with
      | createWallet => exact .nothing _ _ false fun _ heq => by cases heq
      | migrateWallet =>
        exact .nothing _ c.m_deferred_wallet_name c.m_wallet_load_in_progress fun _ heq => by cases heq
      | loadWallet | restoreWallet => exact .nothing _ c.m_deferred_wallet_name false fun _ heq => by cases heq
    | some wallet =>
      cases command with
      | createWallet =>
        exact .arrived wallet _ false _ (fun _ heq => by cases heq) (addOrSelectWalletModel_arrived hrunning)
      | migrateWallet wallet_reference =>
        show Completes c _ _ (c.handleLoadWallet (some wallet))
        rcases @handleLoadWallet_arrived _ _ _ c wallet hrunning with ⟨hdropped, heq⟩ | ⟨hkept, harrived⟩
        · rw [heq]
          exact .dropped wallet_reference wallet rfl hdropped
        · exact .arrived wallet c.m_deferred_wallet_name c.m_wallet_load_in_progress _ (fun _ _ => hkept) harrived
      | loadWallet | restoreWallet =>
        exact .arrived wallet c.m_deferred_wallet_name false _ (fun _ heq => by cases heq)
          (addOrSelectWalletModel_arrived hrunning)

theorem Tracked.settled (h : Tracked s) {id : Nat} {outcome : Outcome Name}
    (hevents : s.events = .completed id outcome :: events) {completion : Nat × Command Name} (hid : completion.1 = id)
    {deferred : Name} {in_progress : Bool} {c : WalletQmlController Name}
    (harrives : Arrives { s.controller with
      m_wallet_command_executor := { s.controller.m_wallet_command_executor with
        m_gui_completions := s.controller.m_wallet_command_executor.m_gui_completions.erase completion }
      m_deferred_wallet_name := deferred
      m_wallet_load_in_progress := in_progress } c)
    (hgained : Gained { s with events } c)
    (hbrought : ∀ wallet ∈ s.wallets, outcome = .returned (some wallet) →
      Known { s with events, controller := c } wallet) :
    Tracked { s with events, controller := c } := by
  have hpop {event : GuiEvent Name} (hmem : event ∈ s.events) : event = .completed id outcome ∨ event ∈ events :=
    List.mem_cons.mp (hevents ▸ hmem)
  obtain ⟨_, _, _, _, _, rfl⟩ := harrives
  have hawaited := h.awaited
  have hleaving := h.leaving
  rw [hevents, List.filterMap_cons_none rfl] at hleaving
  simp only [hevents, List.filterMap_cons, GuiEvent.command, List.cons_append] at hawaited
  refine ⟨⟨fun hmail => ?_, hawaited.complete hid, hleaving, hgained.opened⟩, fun wallet hwallet => ?_⟩
  · exact (h.mailed hmail).imp_left fun hmem => (hpop hmem).resolve_left fun heq => by cases heq
  · rcases h.known wallet hwallet with ⟨model, hmodel, heq⟩ | htask | hmail | hheld | ⟨other, hmem⟩
    · exact .inl ⟨model, hgained.grows model hmodel, heq⟩
    · exact .inr (.inl htask)
    · exact .inr (.inr (.inl hmail))
    · exact .inr (.inr (.inr (.inl hheld)))
    · rcases hpop hmem with heq | hmem
      · exact hbrought wallet hwallet (GuiEvent.completed.inj heq).2.symm
      · exact .inr (.inr (.inr (.inr ⟨other, hmem⟩)))

theorem Tracked.completed (h : Tracked s) (hinv : Inv s.controller) (hinitialized : s.controller.m_initialized = true)
    (hloaded : Loaded s.wallets s.next_wallet) {id : Nat} {outcome : Outcome Name}
    (hevents : s.events = .completed id outcome :: events)
    (hallowed : ∀ wallet, outcome = .returned (some wallet) →
      InTime { s with events } wallet (Migrated s.controller id ∧ Deferred s.controller wallet)) :
    Tracked { s with events, controller := s.controller.completed id outcome } := by
  have hrunning := (hinv.running hinitialized).1
  have hopened := h.opened_pop hevents (fun _ heq => by cases heq) (fun _ heq => by cases heq)
  unfold WalletQmlController.completed
  cases hfind : s.controller.m_wallet_command_executor.m_gui_completions.find? fun completion =>
      completion.1 = id with
  | none =>
    have hregistered := h.awaited.registered id (by simp [hevents, GuiEvent.command])
    exact absurd hregistered (Keyed.find?_eq_none.mp hfind)
  | some completion =>
    obtain ⟨-, hid⟩ := Keyed.of_find? hfind
    dsimp only
    generalize hcompleting : ({ s.controller with
      m_wallet_command_executor := { s.controller.m_wallet_command_executor with
        m_gui_completions := s.controller.m_wallet_command_executor.m_gui_completions.erase completion } } :
      WalletQmlController Name) = c
    have hcompletes := complete_completes (c := c) (hcompleting ▸ hrunning) completion.2 outcome
    generalize c.complete completion.2 outcome = c' at hcompletes
    subst hcompleting
    have hstart : Gained { s with events } s.controller :=
      ⟨fun _ hmem => hmem, fun _ hmem => .inl hmem, hopened⟩
    cases hcompletes with
    | nothing _ deferred in_progress hnone =>
      exact h.settled hevents hid .refl ⟨hstart.grows, hstart.made, hstart.opened⟩
        fun wallet _ heq => absurd heq (hnone wallet)
    | dropped wallet_reference wallet hcommand hdropped =>
      have hmigrated : Migrated s.controller id := ⟨wallet_reference, by rw [hfind, ← hid, ← hcommand]⟩
      refine h.settled hevents hid .refl ⟨hstart.grows, hstart.made, hstart.opened⟩ fun other hother heq => ?_
      obtain rfl := Option.some.inj (Outcome.returned.inj heq)
      have hknown := (hallowed wallet rfl).passed (.inl ⟨hmigrated, hdropped⟩) hother
      exact hknown.mono (fun _ hmem => hmem) (fun _ hmem => hmem) (fun _ hmem => hmem) fun hreturn => hreturn
    | arrived wallet deferred in_progress _ hkept harrived =>
      have hnot : ¬(Migrated s.controller id ∧ Deferred s.controller wallet) := by
        rintro ⟨⟨wallet_reference, hmigrated⟩, hdropped⟩
        obtain rfl := Option.some.inj (hfind.symm.trans hmigrated)
        exact hkept wallet_reference rfl hdropped
      have hgained : Gained { s with events } c' := by
        refine Gained.arrived ?_ harrived hloaded ((hallowed wallet rfl).made hnot)
        exact ⟨hstart.grows, hstart.made, hstart.opened⟩
      refine h.settled hevents hid harrived.arrives hgained fun other hother heq => ?_
      obtain rfl := Option.some.inj (Outcome.returned.inj heq)
      by_cases hnamed : wallet.getWalletName ∈ s.controller.m_wallets.map WalletQmlModel.name
      · have hknown := (hallowed wallet rfl).passed (.inr hnamed) hother
        obtain ⟨_, _, _, _, _, rfl⟩ := harrived.arrives
        exact hknown.mono hgained.grows (fun _ hmem => hmem) (fun _ hmem => hmem) fun hreturn => hreturn
      · cases harrived with
        | selected model hmodel hname => exact absurd (hname ▸ List.mem_map_of_mem hmodel) hnamed
        | added _ => exact .inl ⟨_, List.mem_append_right _ List.mem_cons_self, rfl⟩

theorem Tracked.deliver (h : Tracked s) (hinv : Inv s.controller) (hinitialized : s.controller.m_initialized = true)
    (hloaded : Loaded s.wallets s.next_wallet) (hallowed : NoneLost s .deliver) : Tracked s.deliver := by
  unfold System.deliver
  split
  next => exact h
  next event events hevents =>
    unfold NoneLost at hallowed
    simp only [hevents] at hallowed
    cases event with
    | consumeWalletNotifications => exact h.consume hinv hinitialized hloaded hevents hallowed
    | unloaded model =>
      dsimp only
      split
      next => exact h.passes hevents
      next hclosed => exact h.unloaded hevents hclosed
    | walletUnloaded model => exact h.walletUnloaded hinv.core hevents
    | completed id outcome =>
      refine h.completed hinv hinitialized hloaded hevents fun wallet heq => ?_
      subst heq
      exact hallowed
    | shutdownFinished model => exact h.shutdownFinished (hinv.running hinitialized).1 hevents

/-! ## What the user asks for -/

omit [DecidableEq Name] in
theorem Tracked.submit (h : Tracked s) (command : Command Name) {deferred : Name} {in_progress : Bool}
    {journal : List (Note Name)} :
    Tracked { s with controller := { s.controller with
      m_deferred_wallet_name := deferred
      m_wallet_load_in_progress := in_progress
      journal := journal
      m_wallet_command_executor := s.controller.m_wallet_command_executor.submit command } } := by
  unfold BackendExecutor.submit
  split
  next => exact ⟨⟨h.mailed, h.awaited, h.leaving, h.opened⟩, h.known⟩
  next =>
    refine ⟨⟨h.mailed, ?_, h.leaving, h.opened⟩, h.known⟩
    have hsubmitted := h.awaited.submit command
    unfold System.commandIds at hsubmitted ⊢
    rw [List.append_assoc, List.append_assoc] at hsubmitted
    rw [List.map_append]
    exact hsubmitted

theorem Tracked.call (h : Tracked s) (hcore : Core s.controller) (action : Action Name) :
    Tracked { s with controller := s.controller.call action } := by
  have hcalled := call_called (c := s.controller) action
  generalize s.controller.call action = c at hcalled
  cases hcalled with
  | shown => exact ⟨⟨h.mailed, h.awaited, h.leaving, h.opened⟩, h.known⟩
  | submitted _ command in_progress journal _ _ => exact h.submit command
  | watchOnly wallet_name _ _ _ => exact h.submit (.createWallet wallet_name true)
  | closed path model _ hmodel => exact h.removeWalletModel hcore hmodel false true (.inl rfl)

end GuiQml.Controller
