import GuiQml.Controller.Model

/-!
# The names of the models that close

`m_retiring_wallet_names` is a set of names, and the models that retire are several of one name where a wallet
is closed and loaded and closed again.
-/

namespace GuiQml.Controller

open Reach

variable {Name : Type} [DecidableEq Name] [Inhabited Name] {c : WalletQmlController Name}
variable {model : WalletQmlModel Name}

/-- The set says which wallets are closing, and none of them is loaded. -/
structure Guarded (c : WalletQmlController Name) : Prop where
  names : ∀ name, name ∈ c.m_retiring_wallet_names ↔
    ∃ model ∈ c.m_retiring_wallets, model ≠ m_empty_wallet ∧ model.name = name
  loads : ∀ load_target closing, .loadStarted load_target closing ∈ c.journal → load_target ∉ closing

/-- A model that finishes is the last of its name, and a path that is loaded and is not the name of its wallet does
not lead to one that is closing. -/
def Separate (c : WalletQmlController Name) : Input Name → Prop
  | .shutdownFinished id => ∀ model ∈ c.m_retiring_wallets, model.id = id →
      ∀ other ∈ c.m_retiring_wallets, other ≠ model → other ≠ m_empty_wallet → other.name ≠ model.name
  | .call (.setSelectedWallet path (some load_target)) =>
      path ∉ c.m_retiring_wallet_names → c.m_initialized = true → (∀ wallet ∈ c.m_wallets, wallet.name ≠ path) →
        load_target = path ∨ load_target ∉ c.closing
  | _ => True

/-! ## What retires and finishes -/

structure Closings (retiring : List (WalletQmlModel Name)) (names : Finset Name) (journal : List (Note Name)) :
    Prop where
  nodup : retiring.Nodup
  names : ∀ name, name ∈ names ↔ ∃ model ∈ retiring, model ≠ m_empty_wallet ∧ model.name = name
  loads : ∀ load_target closing, .loadStarted load_target closing ∈ journal → load_target ∉ closing

def Closed (c : WalletQmlController Name) : Prop :=
  Closings c.m_retiring_wallets c.m_retiring_wallet_names c.journal

omit [DecidableEq Name] in
theorem Closings.note {retiring : List (WalletQmlModel Name)} {names : Finset Name} {journal : List (Note Name)}
    (h : Closings retiring names journal) (n : Note Name)
    (hn : ∀ load_target closing, n ≠ .loadStarted load_target closing) : Closings retiring names (n :: journal) :=
  ⟨h.nodup, h.names, fun load_target closing hmem =>
    h.loads load_target closing ((List.mem_cons.1 hmem).resolve_left (hn load_target closing).symm)⟩

namespace Closed

theorem retireWallet (h : Closed c) (model : WalletQmlModel Name) (remove : Bool) :
    Closed (c.retireWallet model remove) := by
  unfold WalletQmlController.retireWallet
  split
  · exact h
  next hnew =>
    have hretired := Closings.note h (.retired model.id) nofun
    refine ⟨List.nodup_cons.2 ⟨hnew, h.nodup⟩, fun name => ?_, hretired.loads⟩
    show name ∈ (if model = m_empty_wallet then c.m_retiring_wallet_names
        else insert model.name c.m_retiring_wallet_names) ↔
      ∃ other ∈ model :: c.m_retiring_wallets, other ≠ m_empty_wallet ∧ other.name = name
    by_cases hempty : model = m_empty_wallet
    · rw [if_pos hempty, h.names name]
      simp [hempty]
    · rw [if_neg hempty, Finset.mem_insert, h.names name]
      simp [hempty, eq_comm]

theorem removeWalletModel (h : Closed c) (model : WalletQmlModel Name) (remove : Bool) :
    Closed (c.removeWalletModel model remove) := by
  unfold WalletQmlController.removeWalletModel
  split
  · exact h
  · refine retireWallet ?_ model remove
    exact Closings.note h _ nofun

theorem removeAll (h : Closed c) (wallets : List (WalletQmlModel Name)) :
    Closed (wallets.foldl (fun c wallet => c.removeWalletModel wallet false) c) := by
  induction wallets generalizing c with
  | nil => exact h
  | cons wallet wallets ih => exact ih (h.removeWalletModel wallet false)

omit [DecidableEq Name] in
theorem checkShutdownFinished (h : Closed c) : Closed c.checkShutdownFinished := by
  unfold WalletQmlController.checkShutdownFinished
  split
  · exact Closings.note h .walletsDrained nofun
  · exact h

theorem shutdownFinished (h : Closed c) {id : Nat} (hlast : Separate c (.shutdownFinished id)) :
    Closed (c.shutdownFinished id) := by
  unfold WalletQmlController.shutdownFinished
  cases hfind : c.m_retiring_wallets.find? fun model => model.id = id with
  | none => exact h
  | some model =>
    have hmem := List.mem_of_find?_eq_some hfind
    have hother := hlast model hmem (by simpa using List.find?_some hfind)
    have hfinished := Closings.note h (.finished model.id) nofun
    refine checkShutdownFinished ⟨h.nodup.erase model, fun name => ?_, hfinished.loads⟩
    show name ∈ c.m_retiring_wallet_names.erase model.name ↔
      ∃ other ∈ c.m_retiring_wallets.erase model, other ≠ m_empty_wallet ∧ other.name = name
    simp only [Finset.mem_erase, h.names name, h.nodup.mem_erase_iff]
    constructor
    · rintro ⟨hname, other, hin, hne, rfl⟩
      exact ⟨other, ⟨fun heq => hname (congrArg _ heq), hin⟩, hne, rfl⟩
    · rintro ⟨other, ⟨hdifferent, hin⟩, hne, rfl⟩
      exact ⟨hother other hin hdifferent hne, other, hin, hne, rfl⟩

theorem beginShutdown (h : Closed c) : Closed c.beginShutdown := by
  unfold WalletQmlController.beginShutdown
  split
  · exact h
  · refine retireWallet (removeAll ?_ c.m_wallets) m_empty_wallet false
    exact Closings.note h .shutdown nofun

/-! ## What starts a load -/

theorem setSelectedWallet (h : Closed c) {path : Name} {load_target : Option Name}
    (hopen : Separate c (.call (.setSelectedWallet path load_target))) :
    Closed (c.setSelectedWallet path load_target) := by
  unfold WalletQmlController.setSelectedWallet
  split
  · exact h
  next hpath =>
    split
    · exact h
    next hinitialized =>
      split
      · exact h
      next hnone =>
        unfold WalletQmlController.startWalletLoad
        cases load_target with
        | none => exact h
        | some load_target =>
          have hshut : ∀ wallet ∈ c.m_wallets, wallet.name ≠ path := by simpa using hnone
          have hclosed : load_target ∉ c.closing := by
            rcases hopen hpath (by simpa using hinitialized) hshut with rfl | hopen
            · intro hmem
              obtain ⟨model, hin, hname⟩ := List.mem_map.1 hmem
              obtain ⟨hin, hne⟩ := List.mem_filter.1 hin
              exact hpath ((h.names load_target).2 ⟨model, hin, by simpa using hne, hname⟩)
            · exact hopen
          refine ⟨h.nodup, h.names, fun target closing hmem => ?_⟩
          rcases List.mem_cons.1 hmem with heq | hmem
          · cases heq
            exact hclosed
          · exact h.loads target closing hmem

/-! ## Every other input -/

theorem addOrSelectWalletModel (h : Closed c) (wallet : Option (Wallet Name)) :
    Closed (c.addOrSelectWalletModel wallet) := by
  unfold WalletQmlController.addOrSelectWalletModel
  cases wallet with
  | none => exact h
  | some wallet =>
    dsimp only
    split
    · refine retireWallet ?_ _ false
      exact h
    · split
      · exact h
      · exact Closings.note h _ nofun

theorem handleLoadWallet (h : Closed c) (wallet : Option (Wallet Name)) : Closed (c.handleLoadWallet wallet) := by
  unfold WalletQmlController.handleLoadWallet
  split
  · exact h
  · exact h.addOrSelectWalletModel wallet

theorem handleAll (h : Closed c) (wallets : List (Wallet Name)) :
    Closed (wallets.foldl (fun c wallet => c.handleLoadWallet (some wallet)) c) := by
  induction wallets generalizing c with
  | nil => exact h
  | cons wallet wallets ih => exact ih (h.handleLoadWallet _)

theorem consumeWalletNotifications (h : Closed c) : Closed c.consumeWalletNotifications := by
  unfold WalletQmlController.consumeWalletNotifications
  split
  · exact h
  · refine handleAll ?_ _
    exact h

omit [DecidableEq Name] in
theorem listAll (h : Closed c) (wallets : List (Wallet Name)) :
    Closed (wallets.foldl WalletQmlController.listWallet c) := by
  induction wallets generalizing c with
  | nil => exact h
  | cons wallet wallets ih => exact ih (Closings.note h (.entered c.next_model) nofun)

omit [DecidableEq Name] in
theorem initializeWallets (h : Closed c) (disablewallet : Bool) (wallets : List (Wallet Name)) :
    Closed (c.initializeWallets disablewallet wallets) := by
  unfold WalletQmlController.initializeWallets
  split
  · exact h
  · split
    · exact h
    · have hlisted :
          Closed (wallets.foldl WalletQmlController.listWallet { c with m_handler_load_wallet := true }) := by
        refine listAll ?_ wallets
        exact h
      dsimp only
      split <;> exact hlisted

theorem walletUnloaded (h : Closed c) (id : Nat) : Closed (c.walletUnloaded id) := by
  unfold WalletQmlController.walletUnloaded
  split
  · exact h
  · exact h.removeWalletModel _ false

theorem closeWallet (h : Closed c) (path : Name) (blank : Bool) : Closed (c.closeWallet path blank) := by
  unfold WalletQmlController.closeWallet
  split
  · exact h
  · split
    · exact h
    · split
      · exact h
      · refine removeWalletModel ?_ _ true
        exact h

theorem complete (h : Closed c) (command : Command Name) (outcome : Outcome Name) :
    Closed (c.complete command outcome) := by
  cases outcome with
  | returned wallet =>
    cases command with
    | createWallet | loadWallet | restoreWallet =>
      refine addOrSelectWalletModel ?_ wallet
      exact h
    | migrateWallet => exact h.handleLoadWallet wallet
  | threw => cases command <;> exact h

theorem completed (h : Closed c) (id : Nat) (outcome : Outcome Name) : Closed (c.completed id outcome) := by
  unfold WalletQmlController.completed
  split
  · exact h
  · refine complete ?_ _ outcome
    exact h

theorem call (h : Closed c) {action : Action Name} (hallowed : Separate c (.call action)) :
    Closed (c.call action) := by
  cases action with
  | setSelectedWallet path load_target => exact h.setSelectedWallet hallowed
  | closeWallet path blank => exact h.closeWallet path blank
  | createSingleSigWallet wallet_name available =>
    show Closed (c.createSingleSigWallet wallet_name available)
    unfold WalletQmlController.createSingleSigWallet
    split_ifs <;> exact h
  | createExternalSignerWallet wallet_name available signer =>
    show Closed (c.createExternalSignerWallet wallet_name available signer)
    unfold WalletQmlController.createExternalSignerWallet
    split_ifs <;> exact h
  | createWatchOnlyWallet wallet_name xpub_valid available =>
    show Closed (c.createWatchOnlyWallet wallet_name xpub_valid available)
    unfold WalletQmlController.createWatchOnlyWallet
    split_ifs <;> exact h
  | importWallet restore_wallet_name =>
    show Closed (c.importWallet restore_wallet_name)
    unfold WalletQmlController.importWallet
    split
    · exact h
    · cases restore_wallet_name <;> exact h
  | migrateWallet wallet_reference =>
    show Closed (c.migrateWallet wallet_reference)
    unfold WalletQmlController.migrateWallet
    split
    · exact h
    · cases wallet_reference <;> exact h
  | clearWalletLoadStatus => exact h

theorem step (h : Closed c) {i : Input Name} (hallowed : Separate c i) : Closed (step c i) := by
  cases i with
  | initializeWallets disablewallet wallets => exact h.initializeWallets disablewallet wallets
  | notifyLoaded wallet =>
    show Closed (c.notifyLoaded wallet)
    unfold WalletQmlController.notifyLoaded
    split <;> exact h
  | consumeWalletNotifications => exact h.consumeWalletNotifications
  | takeTask => exact h
  | completed id outcome => exact h.completed id outcome
  | call action => exact h.call hallowed
  | walletUnloaded id => exact h.walletUnloaded id
  | beginShutdown => exact h.beginShutdown
  | takeModelTask task => exact h
  | shutdownFinished id => exact h.shutdownFinished hallowed
  | controllerDrained => exact checkShutdownFinished (Closings.note h .controllerDrained nofun)
  | notificationsDrained => exact checkShutdownFinished (Closings.note h .notificationsDrained nofun)

end Closed

/-- As long as a model that finishes is the last of its name, the set says which wallets are closing. -/
theorem guarded_run (h : Reaches step Separate ({} : WalletQmlController Name) c) : Guarded c := by
  have hstart : Closed ({} : WalletQmlController Name) := ⟨.nil, by simp, by simp⟩
  have hclosed : Closed c := h.invariant hstart fun _ _ hc hallowed => hc.step hallowed
  exact ⟨hclosed.names, hclosed.loads⟩

/-- A wallet is closed and selected again once it has closed. -/
theorem guarded_run_reopened : Guarded (([.initializeWallets false [⟨1, 1, none⟩], .call (.closeWallet 1 false),
    .call (.setSelectedWallet 1 (some 1)), .shutdownFinished 1,
    .call (.setSelectedWallet 1 (some 1))] : List (Input Nat)).foldl step {}) := by
  have hstart : Reaches step Separate ({} : WalletQmlController Nat) {} := .refl
  have hlast : Separate (([.initializeWallets false [⟨1, 1, none⟩], .call (.closeWallet 1 false),
    .call (.setSelectedWallet 1 (some 1))] : List (Input Nat)).foldl step {}) (.shutdownFinished 1) := by
    intro model hmem _ other hother hne
    exact absurd ((List.mem_singleton.1 hother).trans (List.mem_singleton.1 hmem).symm) hne
  exact guarded_run (hstart.play ⟨trivial, trivial, fun _ _ _ => .inl rfl, hlast, fun _ _ _ => .inl rfl, trivial⟩)

/-- The node loads a wallet again while its first model closes, the second one is closed too, and the first one
finishes. The wallet is loaded although the second model is closing. -/
theorem not_guarded_after_reload : ∃ c : WalletQmlController Nat,
    Reaches step (fun _ _ => True) {} c ∧ c.m_retiring_wallets.map WalletQmlModel.name = [1] ∧
      1 ∉ c.m_retiring_wallet_names ∧ .loadStarted 1 [1] ∈ c.journal ∧ ¬ Guarded c := by
  refine ⟨_, Reaches.events (fun _ _ => trivial) .refl [.initializeWallets false [⟨1, 1, none⟩],
    .call (.closeWallet 1 false), .notifyLoaded ⟨2, 1, none⟩, .consumeWalletNotifications,
    .call (.closeWallet 1 false), .shutdownFinished 1, .call (.setSelectedWallet 1 (some 1))],
    by decide, by decide, by decide, fun h => ?_⟩
  exact h.loads 1 [1] (by decide) (by decide)

end GuiQml.Controller
