import GuiQml.Lib.Pipeline
import GuiQml.Lib.Reach
import GuiQml.Settings.Changes
import GuiQml.Settings.Persist

/-!
# The options model

`OptionsQmlModel` while it is not stopping: its setters, the commands they run on the worker, and what
comes back. Data directory selections and the check that the page makes of a signer path have no commands
and are left out, as is whether a restart is required. What a snapshot reads of the store is a parameter.
-/

namespace GuiQml.Options

open GuiQml.Settings Pipelines

/-! ## The store -/

inductive GuiKey
  | LANGUAGE | DISPLAY_UNIT | THIRD_PARTY_TRANSACTION_URLS | MONEY_FONT_CHOICE
  deriving DecidableEq

inductive GuiValue
  | int (value : Int)
  | text (value : Str)
  deriving DecidableEq

structure Store where
  args : ArgsManager
  gui : GuiKey → Option GuiValue

/-- What is shown of the settings. Of a status it is whether the setting can be edited. -/
structure Snapshot where
  core : Values
  statuses : Name → Bool
  dbcache : Int
  mempool : Int
  threads : Int
  signer : Str
  data_dir : Str
  default_data_dir : Str
  custom_data_dir : Str
  language : Str
  display_unit : Int
  transaction_urls : Str
  money_font : Str

/-! ## Commands -/

/-- What the outside does to a command that returns. -/
structure Attempt where
  /-- What the mutation throws, with no text where it is no `std::exception`. -/
  mutation_throws : Option String := none
  /-- The errors of `WriteSettingsFile`, where it fails. -/
  write_errors : Option (List String) := none
  gui_synced : Bool := true
  signerPathError : Str → String := fun _ => ""

inductive Command
  | load
  | core (session : Session) (name : Name)
  | override (name : Name) (value : SettingsValue)
  | signer (normalized_path : Str)
  | language (new_language : Str)
  | gui (key : GuiKey) (value : GuiValue)

section Commands

variable (api : CoreApi) (attempt : Attempt)

/-- The settings under `keys` as they were `before`. -/
def restore (keys : List Name) (before args : ArgsManager) : ArgsManager :=
  { args with rw_settings := fun key =>
      if key ∈ keys then before.rw_settings key else args.rw_settings key }

def failed (keys : List Name) (before args : ArgsManager) (failure : String) : ArgsManager × Option String :=
  (restore keys before args, some (if failure = "" then PersistSettings.unableToSave else failure))

/-- The arguments and the error, `none` where they are saved. Nobody else writes under `keys` meanwhile. -/
def persistSettings (args : ArgsManager) (keys : List Name)
    (mutation : ArgsManager → ArgsManager × Bool) : ArgsManager × Option String :=
  match attempt.mutation_throws with
  | some what => failed keys args (mutation args).1 what
  | none =>
    let (written, accepted) := mutation args
    if !accepted then failed keys args written PersistSettings.cannotBeChanged
    else match attempt.write_errors with
      | none => (written, none)
      | some errors => failed keys args written (PersistSettings.joinErrors errors)

def saveGuiSetting (gui : GuiKey → Option GuiValue) (key : GuiKey) (value : GuiValue) :
    (GuiKey → Option GuiValue) × String :=
  if attempt.gui_synced then (Function.update gui key (some value), "")
  else (gui, "Unable to save application settings.")

def forceSetting (args : ArgsManager) (name : Name) (value : SettingsValue) : ArgsManager :=
  { args with forced_settings :=
      Function.update args.forced_settings name (if value.isNull then none else some value) }

/-- The store and the error, empty for success. -/
def Command.run (store : Store) : Command → Store × String
  | .load => (store, "")
  | .core session name =>
    let (args, error) := persistSettings attempt store.args (runtimeChangeKeys name)
      fun args => session.writeToArgs api args name
    ({ store with args }, error.getD "")
  | .override name value =>
    let (args, error) := persistSettings attempt store.args (overrideKeys name)
      fun args => writeCoreSettingOverride api args name value
    let args := if error.isNone && name = .signer then forceSetting args .signer value else args
    ({ store with args }, error.getD "")
  | .signer normalized_path =>
    let path_error := attempt.signerPathError normalized_path
    if path_error ≠ "" then (store, path_error)
    else
      let value : SettingsValue := if normalized_path.isEmpty then .null else .str normalized_path
      let (args, error) := persistSettings attempt store.args (overrideKeys .signer)
        fun args => writeCoreSettingOverride api args .signer value
      let args := if error.isNone then forceSetting args .signer value else args
      ({ store with args }, error.getD "")
  | .language new_language =>
    match persistSettings attempt store.args (overrideKeys .lang)
      fun args => writeCoreSettingOverride api args .lang (.str new_language) with
    | (args, some error) => ({ store with args }, error)
    | (args, none) =>
      let saved := saveGuiSetting attempt store.gui .LANGUAGE (.text new_language)
      (⟨args, saved.1⟩, saved.2)
  | .gui key value =>
    let saved := saveGuiSetting attempt store.gui key value
    ({ store with gui := saved.1 }, saved.2)

end Commands

/-! ## The model -/

structure OptionsQmlModel where
  m_core_settings : Session :=
    { m_values := { proxy_address := defaultProxyAddress, tor_address := defaultProxyAddress }
      m_locked := onboardingCoreSettingNames }
  m_core_setting_statuses : Name → Bool := fun _ => false
  m_dbcache_size_mib : Int
  m_max_mempool_size_mb : Int
  m_script_threads : Int
  m_external_signer_path : Str := []
  m_dataDir : Str := []
  m_default_data_dir : Str := []
  m_custom_datadir_string : Str := []
  m_language : Str := []
  m_display_unit : Int := 0
  m_third_party_transaction_urls : Str := []
  m_money_font_choice : Str := []
  m_ready : Bool := false
  m_pending : Bool := false
  m_pending_commands : Nat := 0
  m_command_revision : Nat := 0
  m_error : String := ""

namespace OptionsQmlModel

variable (m : OptionsQmlModel)

def shown : Snapshot where
  core := m.m_core_settings.m_values
  statuses := m.m_core_setting_statuses
  dbcache := m.m_dbcache_size_mib
  mempool := m.m_max_mempool_size_mb
  threads := m.m_script_threads
  signer := m.m_external_signer_path
  data_dir := m.m_dataDir
  default_data_dir := m.m_default_data_dir
  custom_data_dir := m.m_custom_datadir_string
  language := m.m_language
  display_unit := m.m_display_unit
  transaction_urls := m.m_third_party_transaction_urls
  money_font := m.m_money_font_choice

def coreSettingStatuses (name : Name) : Bool := m.m_ready && m.m_core_setting_statuses name

def canEditCoreSetting (name : Name) : Bool := m.m_ready && m.coreSettingStatuses name

def refreshCoreSettingStatuses : OptionsQmlModel :=
  { m with m_core_settings := { m.m_core_settings with
      m_locked := onboardingCoreSettingNames.filter fun name => !m.coreSettingStatuses name } }

def setError (error : String) : OptionsQmlModel := { m with m_error := error }

def setPending (pending : Bool) : OptionsQmlModel :=
  if m.m_pending = pending then m
  else { m with m_pending := pending }.refreshCoreSettingStatuses

def applySnapshot (snapshot : Snapshot) : OptionsQmlModel :=
  { m with
    m_core_setting_statuses := snapshot.statuses
    m_core_settings :=
      (m.m_core_settings.setTouchedSettings []).applyPreviewValuesPreservingTouched snapshot.core []
    m_dbcache_size_mib := snapshot.dbcache
    m_max_mempool_size_mb := snapshot.mempool
    m_script_threads := snapshot.threads
    m_external_signer_path := snapshot.signer
    m_dataDir := snapshot.data_dir
    m_default_data_dir := snapshot.default_data_dir
    m_custom_datadir_string := snapshot.custom_data_dir
    m_language := snapshot.language
    m_display_unit := snapshot.display_unit
    m_third_party_transaction_urls := snapshot.transaction_urls
    m_money_font_choice := snapshot.money_font
    m_ready := true }.refreshCoreSettingStatuses

def commandDone : OptionsQmlModel :=
  let m := { m with m_pending_commands := m.m_pending_commands - 1 }
  if m.m_pending_commands = 0 then m.setPending false else m

/-- Only the snapshot of the command that was given last is taken over. -/
def commandReturned (revision : Nat) (snapshot : Snapshot) (error : String) : OptionsQmlModel :=
  let m := if revision = m.m_command_revision then m.applySnapshot snapshot else m
  let m := if error = "" then m else m.setError error
  m.commandDone

def commandThrew (what : Option String) : OptionsQmlModel :=
  (m.setError (what.getD "Unable to load or save settings.")).commandDone

end OptionsQmlModel

/-! ## The model with its worker and the store -/

structure Submitted where
  revision : Nat
  command : Command

inductive Outcome
  | returned (snapshot : Snapshot) (error : String)
  | threw (what : Option String)

structure Finished where
  revision : Nat
  outcome : Outcome
  /-- How many commands had run when the snapshot was read. -/
  ran : Nat

structure System where
  model : OptionsQmlModel
  commands : Pipeline Submitted Finished := {}
  store : Store
  /-- How many commands have run. -/
  ran : Nat := 0
  /-- The states of the store since the last command took effect. -/
  stores : List Store := []

inductive Edit
  | core (change : CoreChange)
  | setDbcacheSizeMiB (new_dbcache_size_mib : Int)
  | setMaxMempoolSizeMB (new_max_mempool_size_mb : Int)
  | setScriptThreads (new_script_threads : Int)
  | setExternalSignerPath (path : Str)
  | setLanguage (new_language : Str)
  | setDisplayUnit (new_display_unit : Int)
  | setThirdPartyTransactionUrls (urls : Str)
  | setMoneyFontChoice (choice : Str)

namespace System

variable (s : System)

def runCommand (command : Command) : System :=
  let m := if s.model.m_pending_commands = 0 then s.model.setError "" else s.model
  let m := { m with
    m_pending_commands := m.m_pending_commands + 1
    m_command_revision := m.m_command_revision + 1 }
  { s with
    model := m.setPending true
    commands := s.commands.submit ⟨m.m_command_revision, command⟩ }

def applyRuntimeCoreChange (accepted : Bool) (name : Name) (before after : Values) : System :=
  if !accepted || before = after then s
  else s.runCommand (.core { m_values := after } name)

/-- The change is made first, then handed to `applyRuntimeCoreChange`. -/
def changeCore (api : CoreApi) (change : CoreChange) : System :=
  let before := s.model.m_core_settings.m_values
  let (session, accepted) := change.apply api s.model.m_core_settings
  let s := { s with model := { s.model with m_core_settings := session } }
  s.applyRuntimeCoreChange accepted change.name before session.m_values

def writeCoreSettingOverride (name : Name) (value : SettingsValue) : System :=
  if !s.model.canEditCoreSetting name then s else s.runCommand (.override name value)

/-- The setter of the number `name`. -/
def setCoreInt (name : Name) (get : OptionsQmlModel → Int)
    (set : Int → OptionsQmlModel → OptionsQmlModel) (value : Int) : System :=
  if !s.model.canEditCoreSetting name then s
  else if value = get s.model then s
  else { s with model := set value s.model }.writeCoreSettingOverride name (.int value)

def setDbcacheSizeMiB (new_dbcache_size_mib : Int) : System :=
  s.setCoreInt .dbcache (·.m_dbcache_size_mib) (fun value m => { m with m_dbcache_size_mib := value })
    new_dbcache_size_mib

def setMaxMempoolSizeMB (new_max_mempool_size_mb : Int) : System :=
  s.setCoreInt .maxmempool (·.m_max_mempool_size_mb)
    (fun value m => { m with m_max_mempool_size_mb := value }) new_max_mempool_size_mb

def setScriptThreads (new_script_threads : Int) : System :=
  s.setCoreInt .par (·.m_script_threads) (fun value m => { m with m_script_threads := value })
    new_script_threads

def setExternalSignerPath (normalizeCommandPath : Str → Str) (path : Str) : System :=
  if !s.model.canEditCoreSetting .signer then s
  else
    let normalized_path := normalizeCommandPath path
    if normalized_path = s.model.m_external_signer_path then s
    else { s with model := { s.model with m_external_signer_path := normalized_path } }.runCommand
      (.signer normalized_path)

def setLanguage (new_language : Str) : System :=
  if !s.model.canEditCoreSetting .lang || new_language = s.model.m_language then s
  else { s with model := { s.model with m_language := new_language } }.runCommand (.language new_language)

def persistGuiSetting (key : GuiKey) (value : GuiValue) : System :=
  if !s.model.m_ready then s else s.runCommand (.gui key value)

/-- The setter of a value that only the GUI has. -/
def setGuiValue {α : Type} [DecidableEq α] (key : GuiKey) (gui : α → GuiValue)
    (get : OptionsQmlModel → α) (set : α → OptionsQmlModel → OptionsQmlModel) (value : α) : System :=
  if !s.model.m_ready || value = get s.model then s
  else { s with model := set value s.model }.persistGuiSetting key (gui value)

def normalizeDisplayUnit (display_unit : Int) : Int :=
  if 0 ≤ display_unit ∧ display_unit ≤ 3 then display_unit else 0

def setDisplayUnit (new_display_unit : Int) : System :=
  s.setGuiValue .DISPLAY_UNIT .int (·.m_display_unit) (fun value m => { m with m_display_unit := value })
    (normalizeDisplayUnit new_display_unit)

def setThirdPartyTransactionUrls (urls : Str) : System :=
  s.setGuiValue .THIRD_PARTY_TRANSACTION_URLS .text (·.m_third_party_transaction_urls)
    (fun value m => { m with m_third_party_transaction_urls := value }) urls

def setMoneyFontChoice (choice : Str) : System :=
  s.setGuiValue .MONEY_FONT_CHOICE .text (·.m_money_font_choice)
    (fun value m => { m with m_money_font_choice := value })
    (if choice = "best_system".toList then choice else "embedded".toList)

end System

section Steps

variable (api : CoreApi) (normalizeCommandPath : Str → Str) (readSnapshot : Store → Snapshot)

/-- The command that the constructor gives is outstanding. -/
def start (store : Store) : System :=
  { model :=
      { m_dbcache_size_mib := api.DEFAULT_DB_CACHE >>> 20
        m_max_mempool_size_mb := api.DEFAULT_MAX_MEMPOOL_SIZE_MB
        m_script_threads := api.DEFAULT_SCRIPTCHECK_THREADS }
    store : System }.runCommand .load

inductive Event
  | edit (edit : Edit)
  /-- The worker runs the oldest command. -/
  | work (attempt : Attempt)
  /-- The oldest command throws, and leaves the store as `left`. -/
  | throw (what : Option String) (left : Store)
  | complete
  /-- Somebody else writes to the store. -/
  | write (store : Store)

def edit (s : System) : Edit → System
  | .core change => s.changeCore api change
  | .setDbcacheSizeMiB value => s.setDbcacheSizeMiB value
  | .setMaxMempoolSizeMB value => s.setMaxMempoolSizeMB value
  | .setScriptThreads value => s.setScriptThreads value
  | .setExternalSignerPath path => s.setExternalSignerPath normalizeCommandPath path
  | .setLanguage value => s.setLanguage value
  | .setDisplayUnit value => s.setDisplayUnit value
  | .setThirdPartyTransactionUrls urls => s.setThirdPartyTransactionUrls urls
  | .setMoneyFontChoice choice => s.setMoneyFontChoice choice

/-- The command at the head of the pipeline has run, and left `store`. -/
def finish (s : System) (submitted : Submitted) (waiting : List Submitted) (outcome : Outcome)
    (store : Store) : System :=
  { s with
    commands := ⟨waiting, s.commands.returned ++ [⟨submitted.revision, outcome, s.ran + 1⟩]⟩
    store
    ran := s.ran + 1
    stores := [store] }

/-- The model once the command has come back. -/
def completed (m : OptionsQmlModel) (finished : Finished) : OptionsQmlModel :=
  match finished.outcome with
  | .returned snapshot error => m.commandReturned finished.revision snapshot error
  | .threw what => m.commandThrew what

def complete (s : System) : System :=
  match s.commands.returned with
  | [] => s
  | finished :: returned =>
    { s with
      model := completed s.model finished
      commands := ⟨s.commands.waiting, returned⟩ }

def step (s : System) : Event → System
  | .edit e => edit api normalizeCommandPath s e
  | .work attempt =>
    match s.commands.waiting with
    | [] => s
    | submitted :: waiting =>
      let (store, error) := submitted.command.run api attempt s.store
      finish s submitted waiting (.returned (readSnapshot store) error) store
  | .throw what left =>
    match s.commands.waiting with
    | [] => s
    | submitted :: waiting => finish s submitted waiting (.threw what) left
  | .complete => complete s
  | .write store => { s with store, stores := s.stores ++ [store] }

end Steps

end GuiQml.Options
