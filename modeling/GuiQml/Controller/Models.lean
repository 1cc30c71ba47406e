import GuiQml.Controller.Model
import GuiQml.Lib.Keyed

/-!
# The models of the controller

A model enters the list, leaves it and is retired. The shutdown of the controller waits for every model that
has been retired.
-/

namespace GuiQml.Controller

open Journal Reach

variable {Name : Type} {wallets retiring : List (WalletQmlModel Name)} {model : WalletQmlModel Name}
variable {next id : Nat} {journal : List (Note Name)}

theorem mem_note {n n' : Note Name} (hne : n ≠ n') : n ∈ n' :: journal ↔ n ∈ journal :=
  List.mem_cons.trans (or_iff_right hne)

/-! ## The models that retire -/

structure Retiring (retiring : List (WalletQmlModel Name)) (next : Nat) (journal : List (Note Name)) : Prop where
  ids : Keyed WalletQmlModel.id retiring
  retired : ∀ m, m ∈ retiring.map WalletQmlModel.id ↔ .retired m ∈ journal ∧ .finished m ∉ journal
  noted : ∀ m, .retired m ∈ journal → m < next
  finished : ∀ m, .finished m ∈ journal → .retired m ∈ journal

namespace Retiring

theorem note (h : Retiring retiring next journal) (n : Note Name) (hretired : ∀ m, n ≠ .retired m)
    (hfinished : ∀ m, n ≠ .finished m) : Retiring retiring next (n :: journal) where
  ids := h.ids
  retired m := by simp [h.retired m, (hretired m).symm, (hfinished m).symm]
  noted m hm := h.noted m ((List.mem_cons.1 hm).resolve_left (hretired m).symm)
  finished m hm := List.mem_cons_of_mem _ (h.finished m ((List.mem_cons.1 hm).resolve_left (hfinished m).symm))

theorem succ (h : Retiring retiring next journal) : Retiring retiring (next + 1) journal :=
  ⟨h.ids, h.retired, fun m hm => Nat.lt_succ_of_lt (h.noted m hm), h.finished⟩

theorem not_mem (h : Retiring retiring next journal) (hnew : .retired model.id ∉ journal) : model ∉ retiring :=
  fun hmem => hnew ((h.retired model.id).1 (List.mem_map_of_mem hmem)).1

theorem retire (h : Retiring retiring next journal) (hnew : .retired model.id ∉ journal) (hid : model.id < next) :
    Retiring (model :: retiring) next (.retired model.id :: journal) := by
  have hout : model.id ∉ retiring.map WalletQmlModel.id := fun hm => hnew ((h.retired model.id).1 hm).1
  have hunfinished : .finished model.id ∉ journal := fun hm => hnew (h.finished _ hm)
  refine ⟨h.ids.cons hout, fun m => ?_, fun m hm => ?_, fun m hm => ?_⟩
  · by_cases heq : m = model.id
    · subst heq
      simp [hunfinished]
    · rw [List.map_cons, List.mem_cons, h.retired m]
      simp [heq]
  · rcases List.mem_cons.1 hm with heq | hm
    · cases heq
      exact hid
    · exact h.noted m hm
  · exact List.mem_cons_of_mem _ (h.finished m ((List.mem_cons.1 hm).resolve_left nofun))

theorem finish [DecidableEq Name] (h : Retiring retiring next journal) (hmem : model ∈ retiring) :
    Retiring (retiring.erase model) next (.finished model.id :: journal) := by
  have hin := (h.retired model.id).1 (List.mem_map_of_mem hmem)
  refine ⟨h.ids.erase, fun m => ?_, fun m hm => ?_, fun m hm => ?_⟩
  · rw [h.ids.mem_map_erase hmem, h.retired m]
    simp only [List.mem_cons, reduceCtorEq, false_or, Note.finished.injEq, not_or]
    tauto
  · exact h.noted m ((List.mem_cons.1 hm).resolve_left nofun)
  · rcases List.mem_cons.1 hm with heq | hm
    · cases heq
      exact List.mem_cons_of_mem _ hin.1
    · exact List.mem_cons_of_mem _ (h.finished m hm)

end Retiring

/-! ## The models in the list -/

variable [Inhabited Name]

/-- The models in the list are those that have entered and not left. -/
structure Listed (wallets : List (WalletQmlModel Name)) (next : Nat) (journal : List (Note Name)) : Prop where
  names : Keyed WalletQmlModel.name wallets
  ids : Keyed WalletQmlModel.id wallets
  entered : ∀ m, m ∈ wallets.map WalletQmlModel.id ↔ .entered m ∈ journal ∧ .left m ∉ journal
  noted : ∀ m, .entered m ∈ journal → 0 < m ∧ m < next
  positive : 0 < next
  unretired : ∀ m ∈ wallets.map WalletQmlModel.id, .retired m ∉ journal
  left : ∀ m, .left m ∈ journal → .entered m ∈ journal ∧ .retired m ∈ journal

namespace Listed

theorem nil : Listed ([] : List (WalletQmlModel Name)) 1 [] where
  names := .nil
  ids := .nil
  entered m := by simp
  noted m h := by simp at h
  positive := Nat.one_pos
  unretired m h := by simp at h
  left m h := by simp at h

theorem ne_empty (h : Listed wallets next journal) (hmem : model ∈ wallets) : model ≠ m_empty_wallet := fun heq => by
  have hentered := ((h.entered model.id).1 (List.mem_map_of_mem hmem)).1
  have hpos := (h.noted _ hentered).1
  rw [heq] at hpos
  exact absurd hpos (Nat.lt_irrefl 0)

theorem note (h : Listed wallets next journal) (n : Note Name) (hentered : ∀ m, n ≠ .entered m)
    (hleft : ∀ m, n ≠ .left m) (hretired : ∀ m ∈ wallets.map WalletQmlModel.id, n ≠ .retired m) :
    Listed wallets next (n :: journal) where
  names := h.names
  ids := h.ids
  entered m := by simp [h.entered m, (hentered m).symm, (hleft m).symm]
  noted m hm := h.noted m ((List.mem_cons.1 hm).resolve_left (hentered m).symm)
  positive := h.positive
  unretired m hm := fun hretire =>
    (List.mem_cons.1 hretire).elim (fun heq => hretired m hm heq.symm) (h.unretired m hm)
  left m hm := by
    have hm := h.left m ((List.mem_cons.1 hm).resolve_left (hleft m).symm)
    exact ⟨List.mem_cons_of_mem _ hm.1, List.mem_cons_of_mem _ hm.2⟩

theorem append (h : Listed wallets next journal) (hid : model.id = next)
    (hname : model.name ∉ wallets.map WalletQmlModel.name) (hretired : .retired next ∉ journal) :
    Listed (wallets ++ [model]) (next + 1) (.entered next :: journal) := by
  have hnew : .entered next ∉ journal := fun hm => absurd (h.noted next hm).2 (Nat.lt_irrefl _)
  have hout : next ∉ wallets.map WalletQmlModel.id := fun hm => hnew ((h.entered next).1 hm).1
  have hleft : .left next ∉ journal := fun hm => hnew (h.left next hm).1
  refine ⟨h.names.snoc hname, h.ids.snoc (hid ▸ hout), fun m => ?_, fun m hm => ?_, Nat.succ_pos _, fun m hm => ?_,
    fun m hm => ?_⟩
  · by_cases heq : m = next
    · subst heq
      simp [hid, hleft]
    · simp [heq, h.entered m, hid]
  · rcases List.mem_cons.1 hm with heq | hm
    · cases heq
      exact ⟨h.positive, Nat.lt_succ_self _⟩
    · exact ⟨(h.noted m hm).1, Nat.lt_succ_of_lt (h.noted m hm).2⟩
  · rw [List.map_append, List.mem_append, List.map_singleton, List.mem_singleton, hid] at hm
    rcases hm with hm | rfl
    · simpa using h.unretired m hm
    · simpa using hretired
  · have hm := h.left m ((List.mem_cons.1 hm).resolve_left nofun)
    exact ⟨List.mem_cons_of_mem _ hm.1, List.mem_cons_of_mem _ hm.2⟩

theorem remove [DecidableEq Name] (h : Listed wallets next journal) (hmem : model ∈ wallets) :
    Listed (wallets.erase model) next (.retired model.id :: .left model.id :: journal) := by
  have hin := (h.entered model.id).1 (List.mem_map_of_mem hmem)
  refine ⟨h.names.erase, h.ids.erase, fun m => ?_, fun m hm => ?_, h.positive, fun m hm => ?_, fun m hm => ?_⟩
  · rw [h.ids.mem_map_erase hmem, h.entered m]
    simp only [List.mem_cons, reduceCtorEq, false_or, Note.left.injEq, not_or]
    tauto
  · exact h.noted m (by simpa using hm)
  · obtain ⟨hne, hm⟩ := (h.ids.mem_map_erase hmem).1 hm
    simpa [hne] using h.unretired m hm
  · by_cases heq : m = model.id
    · subst heq
      simpa using hin.1
    · have hm : .left m ∈ journal := by simpa [heq] using hm
      simpa using ⟨(h.left m hm).1, .inr (h.left m hm).2⟩

end Listed

/-! ## The controller -/

variable [DecidableEq Name] {c : WalletQmlController Name}

/-- What stands before a note. -/
def Ordered : Note Name → List (Note Name) → Prop
  | .entered m, older => .entered m ∉ older ∧ .retired m ∉ older ∧ .shutdown ∉ older
  | .left m, older => .entered m ∈ older ∧ .left m ∉ older
  | .retired m, older => .retired m ∉ older ∧ .walletsDrained ∉ older
  | .finished m, older => .retired m ∈ older ∧ .finished m ∉ older
  | .walletsDrained, older => .walletsDrained ∉ older ∧ .controllerDrained ∈ older ∧
      .notificationsDrained ∈ older ∧ .retired (m_empty_wallet : WalletQmlModel Name).id ∈ older ∧
      ∀ m, .retired m ∈ older → .finished m ∈ older
  | _, _ => True

structure Shown (wallets : List (WalletQmlModel Name)) (selected : WalletQmlModel Name) (loaded : Bool) : Prop where
  selected : selected ∈ wallets ∨ selected = m_empty_wallet
  loaded : loaded = true ↔ wallets ≠ []

/-- The notes of the shutdown say what the flags say. -/
structure Flagged (shutting_down controller notifications complete : Bool) (journal : List (Note Name)) : Prop where
  shutdown : .shutdown ∈ journal ↔ shutting_down = true
  controller : controller = true → .controllerDrained ∈ journal
  notifications : notifications = true → .notificationsDrained ∈ journal
  drained : .walletsDrained ∈ journal → complete = true
  complete : complete = true → shutting_down = true

/-- Nothing is open or under way before the controller is initialised and after it has begun to shut down. -/
structure Idle (wallets : List (WalletQmlModel Name)) (handler : Bool) (notifications : List (Wallet Name))
    (completions : List (Nat × Command Name)) : Prop where
  wallets : wallets = []
  handler : handler = false
  notifications : notifications = []
  completions : completions = []

namespace Flagged

variable {shutting_down controller notifications complete : Bool}

omit [Inhabited Name] [DecidableEq Name] in
theorem note (h : Flagged shutting_down controller notifications complete journal) (n : Note Name)
    (hshutdown : n ≠ .shutdown) (hdrained : n ≠ .walletsDrained) :
    Flagged shutting_down controller notifications complete (n :: journal) where
  shutdown := by simp [h.shutdown, hshutdown.symm]
  controller hc := List.mem_cons_of_mem _ (h.controller hc)
  notifications hn := List.mem_cons_of_mem _ (h.notifications hn)
  drained hd := h.drained ((List.mem_cons.1 hd).resolve_left hdrained.symm)
  complete := h.complete

end Flagged

/-- Everything but what is shown. -/
structure Core (c : WalletQmlController Name) : Prop where
  listed : Listed c.m_wallets c.next_model c.journal
  retiring : Retiring c.m_retiring_wallets c.next_model c.journal
  flagged : Flagged c.m_shutting_down c.m_controller_drained c.m_notifications_drained c.m_shutdown_complete c.journal
  keeps : Keeps Ordered c.journal

structure Inv (c : WalletQmlController Name) : Prop where
  core : Core c
  shown : Shown c.m_wallets c.m_selected_wallet c.m_is_wallet_loaded
  running : c.m_initialized = true → c.m_shutting_down = false ∧ c.m_handler_load_wallet = true
  idle : c.m_initialized = false → Idle c.m_wallets c.m_handler_load_wallet c.m_load_notifications
    c.m_wallet_command_executor.m_gui_completions
  empty : .retired (m_empty_wallet : WalletQmlModel Name).id ∈ c.journal ↔ c.m_shutting_down = true

/-! ## Leaving -/

theorem retireWallet_eq (hout : model ∉ c.m_retiring_wallets) (hne : model ≠ m_empty_wallet) (remove : Bool) :
    c.retireWallet model remove =
      { c with
        m_retiring_wallets := model :: c.m_retiring_wallets
        m_retiring_wallet_names := insert model.name c.m_retiring_wallet_names
        model_tasks := c.model_tasks ++ [ModelTask.mk model.id model.m_wallet remove]
        journal := .retired model.id :: c.journal } := by
  unfold WalletQmlController.retireWallet
  rw [if_neg hout, if_neg hne]
  rfl

theorem removeWalletModel_eq (hcore : Core c) (hmem : model ∈ c.m_wallets) (remove : Bool) :
    c.removeWalletModel model remove =
      { c with
        m_wallets := c.m_wallets.erase model
        m_selected_wallet :=
          if c.m_selected_wallet = model then (c.m_wallets.find? fun wallet => wallet ≠ model).getD m_empty_wallet
          else c.m_selected_wallet
        m_is_wallet_loaded := (c.m_wallets.find? fun wallet => wallet ≠ model).isSome
        m_retiring_wallets := model :: c.m_retiring_wallets
        m_retiring_wallet_names := insert model.name c.m_retiring_wallet_names
        model_tasks := c.model_tasks ++ [ModelTask.mk model.id model.m_wallet remove]
        journal := .retired model.id :: .left model.id :: c.journal } := by
  have hne := hcore.listed.ne_empty hmem
  have hout : model ∉ c.m_retiring_wallets :=
    hcore.retiring.not_mem (hcore.listed.unretired _ (List.mem_map_of_mem hmem))
  unfold WalletQmlController.removeWalletModel
  rw [if_neg (not_or.2 ⟨hne, not_not.2 hmem⟩)]
  exact retireWallet_eq (by exact hout) hne remove

theorem Core.removeWalletModel (h : Core c) (hmem : model ∈ c.m_wallets) (hopen : .walletsDrained ∉ c.journal)
    (remove : Bool) : Core (c.removeWalletModel model remove) := by
  have hin := List.mem_map_of_mem (f := WalletQmlModel.id) hmem
  have hentered := (h.listed.entered model.id).1 hin
  have hretired := h.listed.unretired _ hin
  rw [removeWalletModel_eq h hmem]
  refine ⟨h.listed.remove hmem, ?_, ?_, ?_⟩
  · exact (h.retiring.note (.left model.id) nofun nofun).retire (by simpa using hretired)
      (h.listed.noted _ hentered.1).2
  · exact (h.flagged.note (.left model.id) nofun nofun).note (.retired model.id) nofun nofun
  · have hleft : Ordered (.left model.id) c.journal := hentered
    have hretire : Ordered (.retired model.id) (.left model.id :: c.journal) :=
      ⟨by simpa using hretired, by simpa using hopen⟩
    exact (h.keeps.write hleft).write hretire

theorem Shown.removeWalletModel (h : Shown c.m_wallets c.m_selected_wallet c.m_is_wallet_loaded) (hcore : Core c)
    (hmem : model ∈ c.m_wallets) (remove : Bool) :
    Shown (c.removeWalletModel model remove).m_wallets (c.removeWalletModel model remove).m_selected_wallet
      (c.removeWalletModel model remove).m_is_wallet_loaded := by
  rw [removeWalletModel_eq hcore hmem]
  have herase : ∀ m, m ∈ c.m_wallets.erase model ↔ m ≠ model ∧ m ∈ c.m_wallets :=
    fun m => hcore.listed.ids.mem_erase
  cases hnext : c.m_wallets.find? fun wallet => wallet ≠ model with
  | none =>
    have hnone : c.m_wallets.erase model = [] := List.eq_nil_iff_forall_not_mem.2 fun m hm =>
      absurd ((herase m).1 hm).1 (by simpa using List.find?_eq_none.1 hnext m ((herase m).1 hm).2)
    refine ⟨?_, by simp [hnone]⟩
    split
    · exact .inr rfl
    next hother =>
      refine h.selected.imp_left fun hselected => (herase _).2 ⟨hother, hselected⟩
  | some other =>
    have hother : other ∈ c.m_wallets.erase model :=
      (herase other).2 ⟨by simpa using List.find?_some hnext, List.mem_of_find?_eq_some hnext⟩
    refine ⟨?_, by simpa using List.ne_nil_of_mem hother⟩
    split
    · exact .inl hother
    next hdifferent => exact h.selected.imp_left fun hselected => (herase _).2 ⟨hdifferent, hselected⟩

theorem Inv.removeWalletModel (h : Inv c) (hinitialized : c.m_initialized = true) (hmem : model ∈ c.m_wallets)
    (remove : Bool) : Inv (c.removeWalletModel model remove) := by
  have hrunning := (h.running hinitialized).1
  have hopen : .walletsDrained ∉ c.journal := fun hdrained =>
    Bool.false_ne_true (hrunning.symm.trans (h.core.flagged.complete (h.core.flagged.drained hdrained)))
  have hcore := h.core.removeWalletModel hmem hopen remove
  have hshown := h.shown.removeWalletModel h.core hmem remove
  have hne : model.id ≠ 0 := fun heq => by
    have hentered := (h.core.listed.entered _).1 (List.mem_map_of_mem hmem)
    exact absurd (h.core.listed.noted _ hentered.1).1 (by rw [heq]; exact Nat.lt_irrefl 0)
  rw [removeWalletModel_eq h.core hmem] at hcore hshown ⊢
  refine ⟨hcore, hshown, h.running, (fun hidle => nomatch hinitialized.symm.trans hidle), ?_⟩
  exact ((mem_note fun heq => hne (Note.retired.inj heq).symm).trans (mem_note (by nofun))).trans h.empty

theorem Inv.walletUnloaded (h : Inv c) (id : Nat) : Inv (c.walletUnloaded id) := by
  unfold WalletQmlController.walletUnloaded
  cases hfind : c.m_wallets.find? fun model => model.id = id with
  | none => exact h
  | some model =>
    have hmem := List.mem_of_find?_eq_some hfind
    cases hinitialized : c.m_initialized with
    | false => exact absurd hmem (by simp [(h.idle hinitialized).wallets])
    | true => exact h.removeWalletModel hinitialized hmem false

omit [DecidableEq Name] in
theorem Inv.clearWalletLoadStatus (h : Inv c) : Inv c.clearWalletLoadStatus :=
  ⟨⟨h.core.listed, h.core.retiring, h.core.flagged, h.core.keeps⟩, h.shown, h.running, h.idle, h.empty⟩

theorem Inv.closeWallet (h : Inv c) (path : Name) (blank : Bool) : Inv (c.closeWallet path blank) := by
  unfold WalletQmlController.closeWallet
  split
  · exact h
  next hinitialized =>
    have hinitialized : c.m_initialized = true := by simpa using hinitialized
    split
    · exact h
    · split
      · exact h.clearWalletLoadStatus
      next model hfind =>
        exact h.clearWalletLoadStatus.removeWalletModel hinitialized (List.mem_of_find?_eq_some hfind) true

/-! ## The shutdown -/

theorem Core.checkShutdownFinished (h : Core c)
    (hempty : c.m_shutting_down = true → .retired (m_empty_wallet : WalletQmlModel Name).id ∈ c.journal) :
    Core c.checkShutdownFinished := by
  unfold WalletQmlController.checkShutdownFinished
  split
  next hfinished =>
    simp only [Bool.and_eq_true, List.isEmpty_iff, Bool.not_eq_true'] at hfinished
    obtain ⟨⟨⟨⟨hshutting, hcontroller⟩, hnotifications⟩, hretiring⟩, hcomplete⟩ := hfinished
    have hnew : .walletsDrained ∉ c.journal := fun hmem =>
      Bool.false_ne_true (hcomplete.symm.trans (h.flagged.drained hmem))
    have hall : ∀ m, .retired m ∈ c.journal → .finished m ∈ c.journal := fun m hm => by
      by_contra hunfinished
      have hin := (h.retiring.retired m).2 ⟨hm, hunfinished⟩
      simp [hretiring] at hin
    refine ⟨h.listed.note _ nofun nofun nofun, h.retiring.note _ nofun nofun, ?_, ?_⟩
    · exact ⟨(mem_note (by nofun)).trans h.flagged.shutdown, fun hc => List.mem_cons_of_mem _ (h.flagged.controller hc),
        fun hn => List.mem_cons_of_mem _ (h.flagged.notifications hn), fun _ => rfl, fun _ => hshutting⟩
    · have hdrained : Ordered .walletsDrained c.journal :=
        ⟨hnew, h.flagged.controller hcontroller, h.flagged.notifications hnotifications, hempty hshutting, hall⟩
      exact h.keeps.write hdrained
  · exact h

theorem Inv.checkShutdownFinished (h : Inv c) : Inv c.checkShutdownFinished := by
  have hcore := h.core.checkShutdownFinished h.empty.2
  revert hcore
  unfold WalletQmlController.checkShutdownFinished
  split
  · exact fun hcore => ⟨hcore, h.shown, h.running, h.idle, (mem_note (by nofun)).trans h.empty⟩
  · exact fun _ => h

theorem Inv.shutdownFinished (h : Inv c) (id : Nat) : Inv (c.shutdownFinished id) := by
  unfold WalletQmlController.shutdownFinished
  cases hfind : c.m_retiring_wallets.find? fun model => model.id = id with
  | none => exact h
  | some model =>
    have hmem := List.mem_of_find?_eq_some hfind
    have hretired := (h.core.retiring.retired model.id).1 (List.mem_map_of_mem hmem)
    have hfinish : Ordered (.finished model.id) c.journal := hretired
    refine Inv.checkShutdownFinished ⟨⟨?_, h.core.retiring.finish hmem, ?_, h.core.keeps.write hfinish⟩, h.shown,
      h.running, h.idle, (mem_note (by nofun)).trans h.empty⟩
    · exact h.core.listed.note _ nofun nofun nofun
    · exact h.core.flagged.note _ nofun nofun

theorem Inv.controllerDrained (h : Inv c) : Inv c.controllerDrained := by
  refine Inv.checkShutdownFinished ⟨⟨h.core.listed.note _ nofun nofun nofun, h.core.retiring.note _ nofun nofun, ?_,
    h.core.keeps.write trivial⟩, h.shown, h.running, h.idle, (mem_note (by nofun)).trans h.empty⟩
  have hflagged := h.core.flagged.note .controllerDrained nofun nofun
  exact ⟨hflagged.shutdown, fun _ => List.mem_cons_self, hflagged.notifications, hflagged.drained,
    hflagged.complete⟩

theorem Inv.notificationsDrained (h : Inv c) : Inv c.notificationsDrained := by
  refine Inv.checkShutdownFinished ⟨⟨h.core.listed.note _ nofun nofun nofun, h.core.retiring.note _ nofun nofun, ?_,
    h.core.keeps.write trivial⟩, h.shown, h.running, h.idle, (mem_note (by nofun)).trans h.empty⟩
  have hflagged := h.core.flagged.note .notificationsDrained nofun nofun
  exact ⟨hflagged.shutdown, hflagged.controller, fun _ => List.mem_cons_self, hflagged.drained,
    hflagged.complete⟩

/-- What holds while the shutdown takes the models out of the list. -/
structure Clearing (c : WalletQmlController Name) : Prop where
  core : Core c
  shown : Shown c.m_wallets c.m_selected_wallet c.m_is_wallet_loaded
  undrained : .walletsDrained ∉ c.journal
  unretired : .retired (m_empty_wallet : WalletQmlModel Name).id ∉ c.journal
  shutting_down : c.m_shutting_down = true
  uninitialized : c.m_initialized = false
  handler : c.m_handler_load_wallet = false

theorem Clearing.removeWalletModel (h : Clearing c) (hmem : model ∈ c.m_wallets) :
    Clearing (c.removeWalletModel model false) := by
  have hcore := h.core.removeWalletModel hmem h.undrained false
  have hshown := h.shown.removeWalletModel h.core hmem false
  have hne : model.id ≠ 0 := fun heq => by
    have hentered := (h.core.listed.entered _).1 (List.mem_map_of_mem hmem)
    exact absurd (h.core.listed.noted _ hentered.1).1 (by rw [heq]; exact Nat.lt_irrefl 0)
  rw [removeWalletModel_eq h.core hmem] at hcore hshown ⊢
  refine ⟨hcore, hshown, by simpa using h.undrained, ?_, h.shutting_down, h.uninitialized, h.handler⟩
  exact ((mem_note fun heq => hne (Note.retired.inj heq).symm).trans (mem_note (by nofun))).not.2 h.unretired

theorem Clearing.removeAll (h : Clearing c) :
    Clearing (c.m_wallets.foldl (fun c wallet => c.removeWalletModel wallet false) c) ∧
      (c.m_wallets.foldl (fun c wallet => c.removeWalletModel wallet false) c).m_wallets = [] := by
  -- The loop runs over a copy of the list it empties.
  generalize hwallets : c.m_wallets = wallets
  induction wallets generalizing c with
  | nil => exact ⟨h, hwallets⟩
  | cons model wallets ih =>
    have hmem : model ∈ c.m_wallets := hwallets ▸ List.mem_cons_self
    refine ih (h.removeWalletModel hmem) ?_
    show (c.removeWalletModel model false).m_wallets = wallets
    rw [removeWalletModel_eq h.core hmem]
    simp [hwallets]

theorem Clearing.retireWallet (h : Clearing c) (hwallets : c.m_wallets = []) :
    Core (c.retireWallet m_empty_wallet false) ∧
      .retired (m_empty_wallet : WalletQmlModel Name).id ∈ (c.retireWallet m_empty_wallet false).journal := by
  unfold WalletQmlController.retireWallet
  rw [if_neg (h.core.retiring.not_mem h.unretired)]
  refine ⟨⟨?_, ?_, ?_, ?_⟩, List.mem_cons_self⟩
  · refine h.core.listed.note _ nofun nofun ?_
    simp [hwallets]
  · exact h.core.retiring.retire h.unretired h.core.listed.positive
  · exact h.core.flagged.note _ nofun nofun
  · have hretire : Ordered (.retired (m_empty_wallet : WalletQmlModel Name).id) c.journal :=
      ⟨h.unretired, h.undrained⟩
    exact h.core.keeps.write hretire

omit [DecidableEq Name] in
theorem Inv.clearing (h : Inv c) (hrunning : c.m_shutting_down = false) :
    Clearing ({ c with
      m_shutting_down := true, m_handler_load_wallet := false, m_initialized := false
      m_selected_wallet := m_empty_wallet }.note .shutdown) where
  core := by
    have hundrained : c.m_shutdown_complete = true → (true : Bool) = true := fun _ => rfl
    refine ⟨h.core.listed.note _ nofun nofun nofun, h.core.retiring.note _ nofun nofun, ?_, h.core.keeps.write trivial⟩
    exact ⟨by simp [WalletQmlController.note], fun hc => List.mem_cons_of_mem _ (h.core.flagged.controller hc),
      fun hn => List.mem_cons_of_mem _ (h.core.flagged.notifications hn),
      fun hd => h.core.flagged.drained ((List.mem_cons.1 hd).resolve_left nofun), hundrained⟩
  shown := ⟨.inr rfl, h.shown.loaded⟩
  undrained := (mem_note (by nofun)).not.2 fun hd =>
    Bool.false_ne_true (hrunning.symm.trans (h.core.flagged.complete (h.core.flagged.drained hd)))
  unretired := (mem_note (by nofun)).not.2 fun hr => Bool.false_ne_true (hrunning.symm.trans (h.empty.1 hr))
  shutting_down := rfl
  uninitialized := rfl
  handler := rfl

theorem retireWallet_frame (model : WalletQmlModel Name) (remove : Bool) :
    (c.retireWallet model remove).m_wallets = c.m_wallets ∧
      (c.retireWallet model remove).m_selected_wallet = c.m_selected_wallet ∧
      (c.retireWallet model remove).m_is_wallet_loaded = c.m_is_wallet_loaded ∧
      (c.retireWallet model remove).m_initialized = c.m_initialized ∧
      (c.retireWallet model remove).m_shutting_down = c.m_shutting_down ∧
      (c.retireWallet model remove).m_handler_load_wallet = c.m_handler_load_wallet := by
  unfold WalletQmlController.retireWallet
  split <;> exact ⟨rfl, rfl, rfl, rfl, rfl, rfl⟩

theorem Clearing.ended (h : Clearing c) (hwallets : c.m_wallets = []) :
    Inv { c.retireWallet m_empty_wallet false with
      m_load_notifications := []
      m_wallet_command_executor := (c.retireWallet m_empty_wallet false).m_wallet_command_executor.shutdown } := by
  obtain ⟨hcore, hempty⟩ := h.retireWallet hwallets
  obtain ⟨hw, hs, hl, hi, hd, hh⟩ := retireWallet_frame (c := c) m_empty_wallet false
  have hshown := h.shown
  rw [← hw, ← hs, ← hl] at hshown
  have hidle := Idle.mk (hw.trans hwallets) (hh.trans h.handler) (rfl : ([] : List (Wallet Name)) = [])
    (rfl : ([] : List (Nat × Command Name)) = [])
  refine ⟨⟨hcore.listed, hcore.retiring, hcore.flagged, hcore.keeps⟩, hshown, ?_, fun _ => hidle, ?_⟩
  · exact fun hinitialized => nomatch (hi.trans h.uninitialized).symm.trans hinitialized
  · exact iff_of_true hempty (hd.trans h.shutting_down)

theorem Inv.beginShutdown (h : Inv c) : Inv c.beginShutdown := by
  unfold WalletQmlController.beginShutdown
  split
  · exact h
  next hrunning =>
    obtain ⟨hclearing, hwallets⟩ := (h.clearing (by simpa using hrunning)).removeAll
    exact hclearing.ended hwallets

theorem Inv.beginShutdown_stopped (h : Inv c) (hrunning : c.m_shutting_down = false) :
    c.beginShutdown.m_initialized = false ∧ c.beginShutdown.m_shutting_down = true := by
  unfold WalletQmlController.beginShutdown
  rw [if_neg (by simp [hrunning])]
  obtain ⟨hclearing, -⟩ := (h.clearing hrunning).removeAll
  exact ⟨(retireWallet_frame _ false).2.2.2.1.trans hclearing.uninitialized,
    (retireWallet_frame _ false).2.2.2.2.1.trans hclearing.shutting_down⟩

/-! ## Wallets that arrive -/

omit [DecidableEq Name] in
theorem Inv.not_mem_shutdown (h : Inv c) (hinitialized : c.m_initialized = true) : .shutdown ∉ c.journal :=
  fun hmem => Bool.false_ne_true ((h.running hinitialized).1.symm.trans (h.core.flagged.shutdown.1 hmem))

omit [DecidableEq Name] in
theorem Core.append {wallet : Wallet Name} (h : Core c) (hopen : .shutdown ∉ c.journal)
    (hname : wallet.getWalletName ∉ c.m_wallets.map WalletQmlModel.name) : Core (c.listWallet wallet) := by
  have hretired : .retired c.next_model ∉ c.journal := fun hm =>
    absurd (h.retiring.noted _ hm) (Nat.lt_irrefl _)
  have hentered : .entered c.next_model ∉ c.journal := fun hm =>
    absurd (h.listed.noted _ hm).2 (Nat.lt_irrefl _)
  refine ⟨h.listed.append rfl hname hretired, h.retiring.succ.note _ nofun nofun, h.flagged.note _ nofun nofun, ?_⟩
  have hrule : Ordered (.entered c.next_model) c.journal := ⟨hentered, hretired, hopen⟩
  exact h.keeps.write hrule

omit [DecidableEq Name] in
theorem Inv.addWalletModel {wallet : Wallet Name} (h : Inv c) (hinitialized : c.m_initialized = true)
    (hname : wallet.getWalletName ∉ c.m_wallets.map WalletQmlModel.name) : Inv (c.addWalletModel wallet) := by
  have hcore := h.core.append (h.not_mem_shutdown hinitialized) hname
  refine ⟨⟨hcore.listed, hcore.retiring, hcore.flagged, hcore.keeps⟩, ⟨.inl ?_, ?_⟩, h.running,
    (fun hidle => nomatch hinitialized.symm.trans hidle), (mem_note (by nofun)).trans h.empty⟩
  · exact List.mem_append_right _ (List.mem_singleton_self _)
  · simp [WalletQmlController.addWalletModel, WalletQmlController.note]

theorem Inv.addOrSelectWalletModel (h : Inv c) (hinitialized : c.m_initialized = true)
    (wallet : Option (Wallet Name)) : Inv (c.addOrSelectWalletModel wallet) := by
  unfold WalletQmlController.addOrSelectWalletModel
  cases wallet with
  | none => exact h
  | some wallet =>
    dsimp only
    rw [if_neg (by simp [(h.running hinitialized).1])]
    cases hfind : c.m_wallets.find? fun wallet_model => wallet_model.name = wallet.getWalletName with
    | none => exact h.addWalletModel hinitialized (Keyed.find?_eq_none.1 hfind)
    | some model =>
      have hmem := List.mem_of_find?_eq_some hfind
      exact ⟨⟨h.core.listed, h.core.retiring, h.core.flagged, h.core.keeps⟩,
        ⟨.inl hmem, iff_of_true rfl (List.ne_nil_of_mem hmem)⟩, h.running, h.idle, h.empty⟩

theorem addOrSelectWalletModel_initialized (wallet : Option (Wallet Name)) :
    (c.addOrSelectWalletModel wallet).m_initialized = c.m_initialized := by
  unfold WalletQmlController.addOrSelectWalletModel WalletQmlController.retireWallet
  split
  · rfl
  · split
    · split <;> rfl
    · split <;> rfl

theorem handleLoadWallet_initialized (wallet : Option (Wallet Name)) :
    (c.handleLoadWallet wallet).m_initialized = c.m_initialized := by
  unfold WalletQmlController.handleLoadWallet
  split
  · rfl
  · exact addOrSelectWalletModel_initialized wallet

theorem Inv.handleLoadWallet (h : Inv c) (hinitialized : c.m_initialized = true) (wallet : Option (Wallet Name)) :
    Inv (c.handleLoadWallet wallet) := by
  unfold WalletQmlController.handleLoadWallet
  split
  · exact h
  · exact h.addOrSelectWalletModel hinitialized wallet

theorem Inv.handleAll (h : Inv c) (hinitialized : c.m_initialized = true) (wallets : List (Wallet Name)) :
    Inv (wallets.foldl (fun c wallet => c.handleLoadWallet (some wallet)) c) := by
  induction wallets generalizing c with
  | nil => exact h
  | cons wallet wallets ih =>
    exact ih (h.handleLoadWallet hinitialized _) ((handleLoadWallet_initialized _).trans hinitialized)

theorem Inv.consumeWalletNotifications (h : Inv c) : Inv c.consumeWalletNotifications := by
  unfold WalletQmlController.consumeWalletNotifications
  split
  · exact h
  · by_cases hinitialized : c.m_initialized = true
    · have hcleared : Inv { c with m_load_notifications := [] } :=
        ⟨⟨h.core.listed, h.core.retiring, h.core.flagged, h.core.keeps⟩, h.shown, h.running,
          (fun hidle => nomatch hinitialized.symm.trans hidle), h.empty⟩
      exact hcleared.handleAll hinitialized _
    · have hidle := h.idle (by simpa using hinitialized)
      rw [hidle.notifications, List.foldl_nil]
      exact ⟨⟨h.core.listed, h.core.retiring, h.core.flagged, h.core.keeps⟩, h.shown, h.running,
        fun _ => ⟨hidle.wallets, hidle.handler, rfl, hidle.completions⟩, h.empty⟩

omit [DecidableEq Name] in
theorem Inv.notifyLoaded (h : Inv c) (wallet : Wallet Name) : Inv (c.notifyLoaded wallet) := by
  unfold WalletQmlController.notifyLoaded
  split
  next hhandler =>
    refine ⟨⟨h.core.listed, h.core.retiring, h.core.flagged, h.core.keeps⟩, h.shown, h.running, fun hidle => ?_,
      h.empty⟩
    exact nomatch hhandler.symm.trans (h.idle hidle).handler
  · exact h

omit [DecidableEq Name] in
theorem Core.listAll {wallets : List (Wallet Name)} (h : Core c) (hopen : .shutdown ∉ c.journal)
    (hnames : (c.m_wallets.map WalletQmlModel.name ++ wallets.map Wallet.getWalletName).Nodup) :
    Core (wallets.foldl WalletQmlController.listWallet c) := by
  induction wallets generalizing c with
  | nil => exact h
  | cons wallet wallets ih =>
    have hname : wallet.getWalletName ∉ c.m_wallets.map WalletQmlModel.name := fun hmem =>
      (List.nodup_append.1 hnames).2.2 _ hmem _ List.mem_cons_self rfl
    refine ih (h.append hopen hname) ((mem_note (by nofun)).not.2 hopen) ?_
    simpa [WalletQmlController.listWallet, WalletQmlController.note, WalletQmlController.newModel,
      WalletQmlModel.name] using hnames

omit [DecidableEq Name] in
theorem listAll_frame (wallets : List (Wallet Name)) :
    ∃ next models journal, wallets.foldl WalletQmlController.listWallet c =
      { c with next_model := next, m_wallets := models, journal := journal } ∧
      ∀ m, .retired m ∈ journal ↔ .retired m ∈ c.journal := by
  induction wallets generalizing c with
  | nil => exact ⟨_, _, _, rfl, fun _ => .rfl⟩
  | cons wallet wallets ih =>
    obtain ⟨next, models, journal, heq, hretired⟩ := ih (c := c.listWallet wallet)
    exact ⟨next, models, journal, heq, fun m => (hretired m).trans (mem_note (by nofun))⟩

omit [DecidableEq Name] in
theorem Inv.initializeWallets (h : Inv c) (disablewallet : Bool) {wallets : List (Wallet Name)}
    (hnames : (wallets.map Wallet.getWalletName).Nodup) : Inv (c.initializeWallets disablewallet wallets) := by
  unfold WalletQmlController.initializeWallets
  split
  · exact h
  next hnew =>
    simp only [Bool.or_eq_true, not_or, Bool.not_eq_true] at hnew
    split
    · exact h
    · have hidle := h.idle hnew.1
      have hopen : .shutdown ∉ c.journal := fun hmem =>
        Bool.false_ne_true (hnew.2.symm.trans (h.core.flagged.shutdown.1 hmem))
      have hstart : Core { c with m_handler_load_wallet := true } :=
        ⟨h.core.listed, h.core.retiring, h.core.flagged, h.core.keeps⟩
      have hcore : Core (wallets.foldl WalletQmlController.listWallet { c with m_handler_load_wallet := true }) :=
        hstart.listAll hopen (by simpa [hidle.wallets] using hnames)
      obtain ⟨next, models, journal, heq, hretired⟩ :=
        listAll_frame (c := { c with m_handler_load_wallet := true }) wallets
      dsimp only
      rw [heq] at hcore ⊢
      have hempty := (hretired _).trans h.empty
      have hselected : c.m_selected_wallet = m_empty_wallet :=
        h.shown.selected.resolve_left (by simp [hidle.wallets])
      split
      next hnone =>
        have hloaded : c.m_is_wallet_loaded = true ↔ models ≠ [] := by
          rw [h.shown.loaded, hidle.wallets, show models = [] from hnone]
        exact ⟨⟨hcore.listed, hcore.retiring, hcore.flagged, hcore.keeps⟩, ⟨.inr hselected, hloaded⟩,
          fun _ => ⟨hnew.2, rfl⟩, (fun hidle => nomatch hidle), hempty⟩
      next front rest hsome =>
        have hsome : models = front :: rest := hsome
        refine ⟨⟨hcore.listed, hcore.retiring, hcore.flagged, hcore.keeps⟩, ⟨.inl ?_, ?_⟩, fun _ => ⟨hnew.2, rfl⟩,
          (fun hidle => nomatch hidle), hempty⟩
        · exact hsome ▸ List.mem_cons_self
        · exact iff_of_true rfl (hsome ▸ List.cons_ne_nil _ _)

/-! ## What the user asks for and what comes back -/

omit [DecidableEq Name] in
theorem Inv.asked (h : Inv c) (hinitialized : c.m_initialized = true) (in_progress : Bool) (deferred : Name)
    (executor : BackendExecutor Name) :
    Inv { c with
      m_wallet_load_in_progress := in_progress
      m_deferred_wallet_name := deferred
      m_wallet_command_executor := executor } :=
  ⟨⟨h.core.listed, h.core.retiring, h.core.flagged, h.core.keeps⟩, h.shown, h.running,
    (fun hidle => nomatch hinitialized.symm.trans hidle), h.empty⟩

omit [DecidableEq Name] in
theorem Inv.createWalletAsync (h : Inv c) (hinitialized : c.m_initialized = true) (wallet_name : Name)
    (setup_wallet : Bool) : Inv (c.clearWalletLoadStatus.createWalletAsync wallet_name setup_wallet) :=
  h.asked hinitialized true _ _

theorem Inv.startWalletLoad (h : Inv c) (hinitialized : c.m_initialized = true) (load_target : Option Name) :
    Inv (c.startWalletLoad load_target) := by
  unfold WalletQmlController.startWalletLoad
  cases load_target with
  | none => exact h.clearWalletLoadStatus
  | some load_target =>
    have hnoted : Inv (c.note (.loadStarted load_target c.closing)) :=
      ⟨⟨h.core.listed.note _ nofun nofun nofun, h.core.retiring.note _ nofun nofun, h.core.flagged.note _ nofun nofun,
        h.core.keeps.write trivial⟩, h.shown, h.running, h.idle, (mem_note (by nofun)).trans h.empty⟩
    exact hnoted.asked hinitialized true _ _

theorem Inv.setSelectedWallet (h : Inv c) (path : Name) (load_target : Option Name) :
    Inv (c.setSelectedWallet path load_target) := by
  unfold WalletQmlController.setSelectedWallet
  split
  · exact h
  · split
    · exact h
    next hinitialized =>
      split
      next wallet hfind =>
        have hmem := List.mem_of_find?_eq_some hfind
        exact ⟨⟨h.core.listed, h.core.retiring, h.core.flagged, h.core.keeps⟩, ⟨.inl hmem, h.shown.loaded⟩, h.running,
          h.idle, h.empty⟩
      · exact h.startWalletLoad (by simpa using hinitialized) load_target

theorem Inv.createSingleSigWallet (h : Inv c) (wallet_name : Name) (available : Bool) :
    Inv (c.createSingleSigWallet wallet_name available) := by
  unfold WalletQmlController.createSingleSigWallet
  split
  · exact h
  · split
    · exact h.clearWalletLoadStatus
    next hinitialized =>
      split
      · exact h.clearWalletLoadStatus
      · exact h.createWalletAsync (by simpa using hinitialized) _ _

theorem Inv.createExternalSignerWallet (h : Inv c) (wallet_name : Name) (available signer : Bool) :
    Inv (c.createExternalSignerWallet wallet_name available signer) := by
  unfold WalletQmlController.createExternalSignerWallet
  split
  · exact h.clearWalletLoadStatus
  next hinitialized =>
    split
    · exact h.clearWalletLoadStatus
    · split
      · exact h.clearWalletLoadStatus
      · exact h.createWalletAsync (by simpa using hinitialized) _ _

theorem Inv.createWatchOnlyWallet (h : Inv c) (wallet_name : Name) (xpub_valid available : Bool) :
    Inv (c.createWatchOnlyWallet wallet_name xpub_valid available) := by
  unfold WalletQmlController.createWatchOnlyWallet
  split
  · exact h
  · split
    · exact h.clearWalletLoadStatus
    next hinitialized =>
      split
      · exact h.clearWalletLoadStatus
      · split
        · exact h.clearWalletLoadStatus
        · exact h.createWalletAsync (by simpa using hinitialized) _ _

omit [DecidableEq Name] in
theorem Inv.importWallet (h : Inv c) (restore_wallet_name : Option Name) :
    Inv (c.importWallet restore_wallet_name) := by
  unfold WalletQmlController.importWallet
  split
  · exact h
  next hinitialized =>
    cases restore_wallet_name with
    | none => exact h.clearWalletLoadStatus
    | some => exact h.asked (by simpa using hinitialized) true _ _

omit [DecidableEq Name] in
theorem Inv.migrateWallet (h : Inv c) (wallet_reference : Option Name) : Inv (c.migrateWallet wallet_reference) := by
  unfold WalletQmlController.migrateWallet
  split
  · exact h
  next hinitialized =>
    cases wallet_reference with
    | none => exact h.clearWalletLoadStatus
    | some => exact h.asked (by simpa using hinitialized) false _ _

theorem Inv.complete (h : Inv c) (hinitialized : c.m_initialized = true) (command : Command Name)
    (outcome : Outcome Name) : Inv (c.complete command outcome) := by
  have hdone := fun in_progress deferred => h.asked hinitialized in_progress deferred c.m_wallet_command_executor
  cases outcome with
  | returned wallet =>
    cases command with
    | createWallet => exact (hdone false _).addOrSelectWalletModel hinitialized wallet
    | migrateWallet => exact h.handleLoadWallet hinitialized wallet
    | loadWallet | restoreWallet => exact (hdone false _).addOrSelectWalletModel hinitialized wallet
  | threw =>
    cases command with
    | createWallet => exact hdone false _
    | migrateWallet => exact h
    | loadWallet | restoreWallet => exact hdone false _

theorem Inv.completed (h : Inv c) (id : Nat) (outcome : Outcome Name) : Inv (c.completed id outcome) := by
  unfold WalletQmlController.completed
  split
  · exact h
  next completion hfind =>
    have hinitialized : c.m_initialized = true := by
      by_contra hidle
      rw [(h.idle (by simpa using hidle)).completions] at hfind
      exact nomatch hfind
    have hcollected := h.asked hinitialized c.m_wallet_load_in_progress c.m_deferred_wallet_name
      { c.m_wallet_command_executor with
        m_gui_completions := c.m_wallet_command_executor.m_gui_completions.erase completion }
    exact hcollected.complete hinitialized completion.2 outcome

/-! ## Every run -/

/-- The node never lists one wallet name twice. -/
def Distinct : WalletQmlController Name → Input Name → Prop
  | _, .initializeWallets _ wallets => (wallets.map Wallet.getWalletName).Nodup
  | _, _ => True

omit [DecidableEq Name] in
theorem Inv.start : Inv ({} : WalletQmlController Name) where
  core := {
    listed := .nil
    retiring := ⟨.nil, fun m => by simp, fun m hm => by simp at hm, fun m hm => by simp at hm⟩
    flagged := ⟨by simp, nofun, nofun, fun hm => by simp at hm, nofun⟩
    keeps := trivial }
  shown := ⟨.inr rfl, by simp⟩
  running := nofun
  idle _ := ⟨rfl, rfl, rfl, rfl⟩
  empty := by simp

theorem Inv.call (h : Inv c) (action : Action Name) : Inv (c.call action) := by
  cases action with
  | setSelectedWallet path load_target => exact h.setSelectedWallet path load_target
  | closeWallet path blank => exact h.closeWallet path blank
  | createSingleSigWallet wallet_name available => exact h.createSingleSigWallet wallet_name available
  | createExternalSignerWallet wallet_name available signer =>
    exact h.createExternalSignerWallet wallet_name available signer
  | createWatchOnlyWallet wallet_name xpub_valid available =>
    exact h.createWatchOnlyWallet wallet_name xpub_valid available
  | importWallet restore_wallet_name => exact h.importWallet restore_wallet_name
  | migrateWallet wallet_reference => exact h.migrateWallet wallet_reference
  | clearWalletLoadStatus => exact h.clearWalletLoadStatus

theorem Inv.step (h : Inv c) {i : Input Name} (hallowed : Distinct c i) : Inv (step c i) := by
  cases i with
  | initializeWallets disablewallet wallets => exact h.initializeWallets disablewallet hallowed
  | notifyLoaded wallet => exact h.notifyLoaded wallet
  | consumeWalletNotifications => exact h.consumeWalletNotifications
  | takeTask =>
    exact ⟨⟨h.core.listed, h.core.retiring, h.core.flagged, h.core.keeps⟩, h.shown, h.running, h.idle, h.empty⟩
  | completed id outcome => exact h.completed id outcome
  | call action => exact h.call action
  | walletUnloaded id => exact h.walletUnloaded id
  | beginShutdown => exact h.beginShutdown
  | takeModelTask task =>
    exact ⟨⟨h.core.listed, h.core.retiring, h.core.flagged, h.core.keeps⟩, h.shown, h.running, h.idle, h.empty⟩
  | shutdownFinished id => exact h.shutdownFinished id
  | controllerDrained => exact h.controllerDrained
  | notificationsDrained => exact h.notificationsDrained

theorem inv_run (h : Reaches step Distinct ({} : WalletQmlController Name) c) : Inv c :=
  h.invariant .start fun _ _ hinv hallowed => hinv.step hallowed

/-- What the list, the selection and the shutdown keep. -/
structure Sound (c : WalletQmlController Name) : Prop where
  names : (c.m_wallets.map WalletQmlModel.name).Nodup
  selected : c.m_selected_wallet ∈ c.m_wallets ∨ c.m_selected_wallet = m_empty_wallet
  loaded : c.m_is_wallet_loaded = true ↔ c.m_wallets ≠ []
  entered : ∀ m, m ∈ c.m_wallets.map WalletQmlModel.id ↔ .entered m ∈ c.journal ∧ .left m ∉ c.journal
  retired : ∀ m, .left m ∈ c.journal → c.journal.count (.retired m) = 1
  shutdown : c.m_shutting_down = true → c.m_wallets = []
  drained : c.journal.count .walletsDrained ≤ 1
  ordered : Keeps Ordered c.journal

theorem sound_run (h : Reaches step Distinct ({} : WalletQmlController Name) c) : Sound c where
  names := (inv_run h).core.listed.names
  selected := (inv_run h).shown.selected
  loaded := (inv_run h).shown.loaded
  entered := (inv_run h).core.listed.entered
  retired m hleft := by
    have hretired := ((inv_run h).core.listed.left m hleft).2
    have honce : c.journal.count (.retired m) ≤ 1 :=
      Keeps.count_le_one (fun older hrule => hrule.1) (inv_run h).core.keeps
    exact Nat.le_antisymm honce (List.count_pos_iff.2 hretired)
  shutdown hdown := ((inv_run h).idle (by
    by_contra hinitialized
    exact nomatch hdown.symm.trans ((inv_run h).running (by simpa using hinitialized)).1)).wallets
  drained := Keeps.count_le_one (fun older hrule => hrule.1) (inv_run h).core.keeps
  ordered := (inv_run h).core.keeps

/-- Two wallets are open, one is closed and the controller shuts down. -/
theorem sound_run_drained : Sound (([.initializeWallets false [⟨1, 1, none⟩, ⟨2, 2, none⟩],
    .call (.closeWallet 1 false), .beginShutdown, .shutdownFinished 0, .shutdownFinished 1,
    .controllerDrained, .notificationsDrained, .shutdownFinished 2] : List (Input Nat)).foldl step {}) := by
  have hstart : Reaches step Distinct ({} : WalletQmlController Nat) {} := .refl
  have hdistinct : [1, 2].Nodup := by decide
  exact sound_run (hstart.play ⟨hdistinct, trivial, trivial, trivial, trivial, trivial, trivial, trivial, trivial⟩)

end GuiQml.Controller
