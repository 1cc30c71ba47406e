import GuiQml.Onboarding.Model

/-!
# Previewing a setup and applying it

`QmlOnboardingSettings::Preview` and `ApplyToArgs`. What they call of Core, and what they ask the file
system, is a parameter. Of the profile only whether there is one is kept.
-/

namespace GuiQml.Settings

/-! ## Arguments -/

namespace ArgsManager

variable (api : CoreApi) (args : ArgsManager)

/-- The arguments right after parsing. -/
def fresh (command_line_options : Name → List SettingsValue) : ArgsManager where
  command_line_options
  forced_settings _ := none
  config _ := .null
  rw_settings _ := none
  settings_path := true

/-- A forced value comes first, then the last one of the command line. -/
def getSetting (name : Name) : SettingsValue :=
  match args.forced_settings name, (args.command_line_options name).getLast? with
  | some value, _ => value
  | none, some value => value
  | none, none => args.getPersistentSetting name

def isArgSet (name : Name) : Bool := !(args.getSetting name).isNull

def getBoolArg (name : Name) (default_value : Bool) : Bool :=
  (api.settingToBool (args.getSetting name)).getD default_value

/-- Empty for a negated argument. -/
def getPathArg (name : Name) (default_value : Str) : Str :=
  if args.getSetting name = .bool false then []
  else
    let path := (api.settingToString (args.getSetting name)).getD []
    if path.isEmpty then default_value else path

def softSetArg (name : Name) (value : Str) : ArgsManager :=
  if args.isArgSet name then args
  else { args with forced_settings := Function.update args.forced_settings name (some (.str value)) }

/-- The arguments once they are asked for a settings file. -/
def withSettingsPath : ArgsManager :=
  { args with
    settings_path := !(args.getPathArg api (.other "settings") "settings.json".toList).isEmpty }

end ArgsManager

section CoreSettings

variable (api : CoreApi) (args : ArgsManager)

/-- The address in force, the one kept for later, or the default. -/
def loadEffectiveAddress (name : Name) : Str :=
  let setting := proxyAddressFromSetting api (args.getSetting name)
  let address := if setting.isEmpty then
      (api.settingToString (args.getPersistentSetting name.prev)).getD []
    else setting
  if address.isEmpty then defaultProxyAddress else address

def loadEffectiveValues : Values where
  listen := (api.settingToBool (args.getSetting .listen)).getD api.DEFAULT_LISTEN
  natpmp := (api.settingToBool (args.getSetting .natpmp)).getD api.DEFAULT_NATPMP
  server := (api.settingToBool (args.getSetting .server)).getD false
  prune := pruneEnabled api (args.getSetting .prune)
  prune_size_gb :=
    if pruneEnabled api (args.getSetting .prune) then
      pruneSizeGBFromSetting api (args.getSetting .prune)
    else pruneSizeGBFromSetting api (args.getPersistentSetting (.prev .prune))
  proxy_enabled := !(proxyAddressFromSetting api (args.getSetting .proxy)).isEmpty
  proxy_address := loadEffectiveAddress api args .proxy
  tor_enabled := !(proxyAddressFromSetting api (args.getSetting .onion)).isEmpty
  tor_address := loadEffectiveAddress api args .onion

/-- Where the value of a setting comes from. -/
inductive SettingSource
  | command_line | startup | settings_json | bitcoin_conf | default
  deriving DecidableEq

def coreSettingSource (name : Name) : SettingSource :=
  if isCommandLineOverridden args name then .command_line
  else if !(forcedParameterInteractionValue args name).isNull then .startup
  else if !((args.rw_settings name).getD .null).isNull then .settings_json
  else if !(args.config name).isNull then .bitcoin_conf
  else .default

end CoreSettings

end GuiQml.Settings

namespace GuiQml.Onboarding

open GuiQml.Settings

/-! ## Data directories -/

/-- What is known of a path. -/
structure FileInfo where
  pathExists : Str → Bool
  isDir : Str → Bool
  isWritable : Str → Bool
  /-- The directory of a path, the directory of that one and so on up to the root. -/
  parents : Str → List Str

namespace FileInfo

variable (info : FileInfo)

/-- The error of the first directory that is there, empty if it can be written to. -/
def parentError : List Str → String
  | [] => "The data directory cannot be created here."
  | parent_path :: parents =>
    if !info.pathExists parent_path then parentError parents
    else if !info.isDir parent_path || !info.isWritable parent_path then
      "The parent directory is not writable."
    else ""

def validateCustomDataDir (dirs : DataDirs) (path : Str) : String :=
  let local_path := dirs.normalizeLocalPath path
  if local_path.isEmpty then "Choose a data directory."
  else if info.pathExists local_path && !info.isDir local_path then
    "The selected path exists and is not a directory."
  else if info.pathExists local_path && !info.isWritable local_path then
    "The selected directory is not writable."
  else info.parentError (info.parents local_path)

/-- Whether the directory is there or could be made. -/
def ensureDataDir (dirs : DataDirs) (created : Bool) (path : Str) : Except String Unit :=
  let validation_error := info.validateCustomDataDir dirs (dirs.normalizeLocalPath path)
  if validation_error ≠ "" then .error validation_error
  else if !created then .error "The selected data directory could not be created."
  else .ok ()

end FileInfo

def normalizedDataDirPath (dirs : DataDirs) (selection : Selection) : Str :=
  let normalized := dirs.normalizeLocalPath selection.path
  if normalized.isEmpty then dirs.defaultDataDirString else normalized

def hasExplicitDataDirArg (api : CoreApi) (args : ArgsManager) : Bool :=
  args.isArgSet (.other "datadir") && !(args.getPathArg api (.other "datadir") []).isEmpty

def applyDataDirArg (api : CoreApi) (dirs : DataDirs) (args : ArgsManager) (path : Str) : ArgsManager :=
  if hasExplicitDataDirArg api args || dirs.isDefaultDataDir path then args
  else args.softSetArg (.other "datadir") (dirs.normalizeLocalPath path)

/-! ## Core -/

inductive ChainType
  | main | testnet | testnet4 | signet | regtest
  deriving DecidableEq

structure ChainParams where
  assumedBlockchainSize : Int
  assumedChainStateSize : Int

/-- What configuration files say before a network is selected, and once it is. -/
abbrev ConfigFiles := Option ChainType → Name → SettingsValue

/-- The functions of Core and of Qt. Those of the arguments have the configuration files as they are. -/
structure StartupApi (V : Type) where
  api : CoreApi
  qt : QVariantApi V
  dirs : DataDirs
  info : FileInfo
  getChainType : ArgsManager → Except String ChainType
  createChainParams : ArgsManager → ChainType → Except String ChainParams
  readConfigFiles : ArgsManager → Except String ConfigFiles
  initParameterInteraction : ArgsManager → Name → Option SettingsValue
  getDataDirBase : ArgsManager → Str
  /-- The directory of a chain within a data directory. -/
  chainDir : ChainType → Str
  absPathJoin : Str → Str → Str
  existingProfile : ArgsManager → (config_file_path_available : Bool) → Bool

/-- What a settings file holds, or why it cannot be read. -/
abbrev SettingsFile := Except (List String) RwSettings

/-- The settings files by their paths, and the legacy stores of each chain. -/
structure Disk (V : Type) where
  settings : Str → Option SettingsFile
  qml : ChainType → QSettings V
  bitcoin_qt : ChainType → QSettings V

namespace Disk

variable {V : Type} (disk : Disk V)

/-- A file that is not there reads as empty. -/
def readSettings (path : Str) : SettingsFile := (disk.settings path).getD (.ok fun _ => none)

/-- Without a path there is nothing to read. -/
def readSettingsFile (path : Option Str) (args : ArgsManager) : Except (List String) ArgsManager :=
  match path with
  | none => .ok args
  | some path => (disk.readSettings path).map fun rw_settings => { args with rw_settings }

def writeSettings (path : Str) (settings : RwSettings) : Disk V :=
  { disk with settings := Function.update disk.settings path (some (.ok settings)) }

def withStores (chain : ChainType) (qml bitcoin_qt : QSettings V) : Disk V :=
  { disk with
    qml := Function.update disk.qml chain qml
    bitcoin_qt := Function.update disk.bitcoin_qt chain bitcoin_qt }

def clearLegacyGuiSettings (chain : ChainType) : Disk V :=
  disk.withStores chain ((disk.qml chain).remove (legacyCoreKeys false))
    ((disk.bitcoin_qt chain).remove (legacyCoreKeys true))

end Disk

/-- The first of some errors. -/
def front (default_error : String) (errors : List String) : String := errors.headD default_error

namespace StartupApi

variable {V : Type} (core : StartupApi V)

/-- `ReadConfigFiles` and `SelectConfigNetwork`, and the chain that is selected. -/
def readConfig (args : ArgsManager) : Except String (ArgsManager × ChainType) := do
  let config ← core.readConfigFiles args
  let args := { args with config := config none }
  let chain ← core.getChainType args
  let _ ← core.createChainParams args chain
  return ({ args with config := config (some chain) }, chain)

/-- The settings file of a chain, if there is one. -/
def getSettingsPath (args : ArgsManager) (chain : ChainType) (backup : Bool) : Option Str :=
  let setting := args.getPathArg core.api (.other "settings") "settings.json".toList
  if setting.isEmpty then none
  else
    some (core.absPathJoin (core.absPathJoin (core.getDataDirBase args) (core.chainDir chain))
      (setting ++ if backup then ".bak".toList else []))

def isSelectionApplied (selection : Selection) (args : ArgsManager) : Bool :=
  shouldApplyDataDirBeforeConfig
    ⟨selection.source, core.dirs.isDefaultDataDir (normalizedDataDirPath core.dirs selection)⟩
    (hasExplicitDataDirArg core.api args)

/-- `MigrateCoreSettings`. An error is where something throws, and its text. -/
def migrate (mode : MigrationMode) (error : Option (MigrationError × String)) (disk : Disk V)
    (args : ArgsManager) : Disk V × Except String ArgsManager :=
  let args := args.withSettingsPath core.api
  if !args.settings_path then (disk, .ok args)
  else
    match core.getChainType args, error with
    | .error text, _ => (disk, .error text)
    | .ok chain, some (error, text) =>
      let (qml, bitcoin_qt) := interruptedMigration core.api core.qt args (disk.qml chain)
        (disk.bitcoin_qt chain) mode error
      (disk.withStores chain qml bitcoin_qt, .error text)
    | .ok chain, none =>
      let m := migrateCoreSettings core.api core.qt args (disk.qml chain) (disk.bitcoin_qt chain) mode
      (disk.withStores chain m.qml m.bitcoin_qt, .ok m.args)

/-! ## Previewing -/

def coreSettingStatuses (args : ArgsManager) : CoreSettingStatuses where
  locked := onboardingCoreSettingNames.filter (isCommandLineOverridden args)
  prune_default := coreSettingSource args .prune = .default

def failedPreview (error : String) : PreviewOutcome :=
  .result
    { ok := false
      error
      values := {}
      core_setting_statuses := {}
      assumed_blockchain_size := 0
      assumed_chainstate_size := 0
      existing_profile := false }

def chainParams (args : ArgsManager) : Except String ChainParams := do
  core.createChainParams args (← core.getChainType args)

/-- The settings file and the migration, unless the settings are reset. -/
def previewSettings (migration_error : Option (MigrationError × String)) (disk : Disk V)
    (args : ArgsManager) : Except PreviewOutcome ArgsManager :=
  if args.getBoolArg core.api (.other "resetguisettings") false then .ok args
  else do
    let chain ← (core.getChainType args).mapError fun _ => .threw
    let args ← (disk.readSettingsFile (core.getSettingsPath args chain false) args).mapError
      fun errors => failedPreview (front "Settings file could not be read." errors)
    (core.migrate .preview migration_error disk args).2.mapError failedPreview

/-- The arguments of a preview up to the parameter interaction, and whether there is a configuration
file to look for. A parse error comes in place of a command line. -/
def previewArgs (migration_error : Option (MigrationError × String)) (disk : Disk V)
    (argv : Except String (Name → List SettingsValue)) (selection : Selection) :
    Except PreviewOutcome (ArgsManager × Bool) :=
  let data_dir := normalizedDataDirPath core.dirs selection
  let validation_error := core.info.validateCustomDataDir core.dirs data_dir
  if validation_error ≠ "" then .error (failedPreview validation_error)
  else do
    let command_line_options ← argv.mapError failedPreview
    let args := ArgsManager.fresh command_line_options
    let _ ← (core.chainParams args).mapError failedPreview
    let apply_datadir_before_config := core.isSelectionApplied selection args
    let custom_datadir_exists := apply_datadir_before_config && core.info.pathExists data_dir
    if !apply_datadir_before_config || custom_datadir_exists then
      let args := if custom_datadir_exists then applyDataDirArg core.api core.dirs args data_dir else args
      let (args, _) ← (core.readConfig args).mapError failedPreview
      return (← core.previewSettings migration_error disk args, true)
    else
      -- a directory that is not there has no files, only the legacy stores
      let _ ← (core.getChainType args).mapError fun _ => .threw
      if args.getBoolArg core.api (.other "resetguisettings") false then return (args, false)
      else return (← (core.migrate .preview migration_error disk args).2.mapError failedPreview, false)

def preview (migration_error : Option (MigrationError × String)) (disk : Disk V)
    (argv : Except String (Name → List SettingsValue)) (selection : Selection) : PreviewOutcome :=
  match core.previewArgs migration_error disk argv selection with
  | .error outcome => outcome
  | .ok (args, config_file_path_available) =>
    let args := { args with forced_settings := core.initParameterInteraction args }
    match core.chainParams args with
    | .error _ => .threw
    | .ok chain_params =>
      .result
        { ok := true
          error := ""
          values := loadEffectiveValues core.api args
          core_setting_statuses := coreSettingStatuses args
          assumed_blockchain_size := chain_params.assumedBlockchainSize
          assumed_chainstate_size := chain_params.assumedChainStateSize
          existing_profile := core.existingProfile args config_file_path_available }

/-! ## Applying -/

/-- How the writes of a call go. -/
structure ApplyAttempt where
  data_dir_created : Bool := true
  backup : Except (List String) Unit := .ok ()
  migration_error : Option (MigrationError × String) := none
  settings_directory : Except String Unit := .ok ()
  settings_written : Except (List String) Unit := .ok ()
  selection_saved : Bool := true
  selected_data_dir_created : Bool := true

variable (attempt : ApplyAttempt)

/-- With `-resetguisettings`: a settings file that is there is backed up, and nothing of it stays. -/
def resetSettings (disk : Disk V) (args : ArgsManager) (chain : ChainType) :
    Disk V × Except String ArgsManager :=
  let backed_up : Except String (Disk V) :=
    match core.getSettingsPath args chain false with
    | none => .ok disk
    | some path =>
      if (disk.settings path).isNone then .ok disk
      else do
        let args ← (disk.readSettingsFile (some path) args).mapError
          (front "Settings file could not be read.")
        attempt.backup.mapError (front "Settings file backup could not be written.")
        match core.getSettingsPath args chain true with
        | none => throw "Attempt to write settings file when dynamic settings are disabled."
        | some backup_path => return disk.writeSettings backup_path args.rw_settings
  let args := { args with rw_settings := fun _ => none }
  match backed_up, core.getChainType args with
  | .error error, _ => (disk, .error error)
  | .ok disk, .error error => (disk, .error error)
  | .ok disk, .ok chain => (disk.clearLegacyGuiSettings chain, .ok args)

/-- Without it: the settings file is read, and the legacy stores are migrated. -/
def loadSettings (disk : Disk V) (args : ArgsManager) (chain : ChainType) :
    Disk V × Except String ArgsManager :=
  match disk.readSettingsFile (core.getSettingsPath args chain false) args with
  | .error errors => (disk, .error (front "Settings file could not be read." errors))
  | .ok args => core.migrate .persist attempt.migration_error disk args

def writeSettingsFile (disk : Disk V) (args : ArgsManager) (chain : ChainType) :
    Except String (Disk V) :=
  match core.getSettingsPath args chain false with
  | none => .ok disk
  | some path => do
    attempt.settings_directory
    attempt.settings_written.mapError (front "Settings file could not be written.")
    return disk.writeSettings path args.rw_settings

/-- `PersistDefaultDataDirSelection` or `PersistGuiDataDirSelection`. -/
def persistSelection (disk : Disk V) (data_dir : Str) (chain : ChainType) : Except String (Disk V) := do
  if !core.dirs.isDefaultDataDir data_dir then
    core.info.ensureDataDir core.dirs attempt.selected_data_dir_created
      (core.dirs.normalizeLocalPath data_dir)
  if attempt.selection_saved then return disk.clearLegacyGuiSettings chain
  else throw "Unable to save the selected data directory."

/-- The rest of a call: the touched settings, the mark, the settings file and the selection. -/
def saveSettings (disk : Disk V) (startup : Startup V) (data_dir : Str) (args : ArgsManager)
    (chain : ChainType) : Disk V × Except String ArgsManager :=
  let (args, touched_settings_written) := startup.writeTouchedSettings args
  if !touched_settings_written then
    (disk, .error "One or more startup settings could not be written.")
  else
    let args := setRwSetting args .qml_onboarded (.bool true)
    match core.writeSettingsFile attempt disk args chain with
    | .error error => (disk, .error error)
    | .ok disk =>
      if shouldPersistGuiDataDirSelection startup.data_dir_selection startup.explicit_datadir then
        match core.persistSelection attempt disk data_dir chain with
        | .error error => (disk, .error error)
        | .ok disk => (disk, .ok args)
      else (disk, .ok args)

/-- The files after a call, and the arguments it leaves or its error. -/
def applyToArgs (disk : Disk V) (args : ArgsManager) (selection : Selection)
    (touched_settings : List Name) (values : Values) : Disk V × Except String ArgsManager :=
  let data_dir := normalizedDataDirPath core.dirs selection
  let explicit_datadir := hasExplicitDataDirArg core.api args
  let apply_datadir_before_config := core.isSelectionApplied selection args
  match if apply_datadir_before_config then
      core.info.ensureDataDir core.dirs attempt.data_dir_created data_dir
    else .ok () with
  | .error error => (disk, .error error)
  | .ok () =>
    let args := if apply_datadir_before_config then
        applyDataDirArg core.api core.dirs args data_dir
      else args
    match core.readConfig args with
    | .error error => (disk, .error error)
    | .ok (args, chain) =>
      let loaded := if args.getBoolArg core.api (.other "resetguisettings") false then
          core.resetSettings attempt disk args chain
        else core.loadSettings attempt disk args chain
      match loaded with
      | (disk, .error error) => (disk, .error error)
      | (disk, .ok args) =>
        core.saveSettings attempt disk
          { api := core.api
            qt := core.qt
            initParameterInteraction := core.initParameterInteraction
            args
            explicit_datadir
            data_dir_selection := ⟨selection.source, core.dirs.isDefaultDataDir data_dir⟩
            touched_settings
            values }
          data_dir args chain

end StartupApi

end GuiQml.Onboarding
