import GuiQml.Settings.Session
import GuiQml.Settings.Migration

/-!
# Applying the choices of onboarding

`QmlOnboardingSettings::ApplyToArgs` without `-resetguisettings`. A call starts from the files with fresh
arguments, and a file operation of it succeeds or not as an `Attempt` says.
-/

namespace GuiQml.Settings

inductive DataDirSource
  | Default | ExplicitArg | GuiSetting | LegacyGuiSetting | UserSelection | Config
  deriving DecidableEq

structure DataDirSelection where
  source : DataDirSource
  /-- Whether the normalized path is the default one. -/
  is_default : Bool

def isGuiOwnedDataDirSource (source : DataDirSource) : Bool :=
  source = .GuiSetting || source = .LegacyGuiSetting || source = .UserSelection

def shouldApplyDataDirBeforeConfig (selection : DataDirSelection) (explicit_datadir_arg : Bool) : Bool :=
  !explicit_datadir_arg && isGuiOwnedDataDirSource selection.source && !selection.is_default

def shouldPersistGuiDataDirSelection (selection : DataDirSelection) (explicit_datadir_arg : Bool) :
    Bool :=
  !explicit_datadir_arg && isGuiOwnedDataDirSource selection.source

/-- What outlives a call. -/
structure Files (V : Type) where
  settings : RwSettings
  qml : QSettings V
  bitcoin_qt : QSettings V

/-- Which file operations of a call succeed. -/
structure Attempt where
  ensureDataDir : Bool := true
  readConfigFiles : Bool := true
  selectParams : Bool := true
  readSettingsFile : Bool := true
  migration_error : Option MigrationError := none
  writeSettingsFile : Bool := true
  persistDataDirSelection : Bool := true

/-- What is the same in every call. -/
structure Startup (V : Type) where
  api : CoreApi
  qt : QVariantApi V
  /-- The forced settings after `InitParameterInteraction`. -/
  initParameterInteraction : ArgsManager → Name → Option SettingsValue
  /-- The arguments as parsed, with what `bitcoin.conf` says and without saved settings. -/
  args : ArgsManager
  explicit_datadir : Bool
  data_dir_selection : DataDirSelection
  touched_settings : List Name
  values : Values

namespace Startup

variable {V : Type} (startup : Startup V)

def readSettingsFile (files : Files V) : ArgsManager :=
  { startup.args with
    rw_settings := if startup.args.settings_path then files.settings else fun _ => none }

def session (args : ArgsManager) : Session :=
  { m_values := startup.values
    m_locked := onboardingCoreSettingNames.filter (isCommandLineOverridden args)
    m_touched_settings := startup.touched_settings }

/-- The touched settings are written under the parameter interaction, which is then taken back. -/
def writeTouchedSettings (args : ArgsManager) : ArgsManager × Bool :=
  let adjusted := { args with forced_settings := startup.initParameterInteraction args }
  let (written, ok) := (startup.session adjusted).writeTouchedToArgs startup.api adjusted
  ({ written with forced_settings := args.forced_settings }, ok)

/-- Whether the call gets as far as the migration. -/
def readsFiles (attempt : Attempt) : Bool :=
  (!shouldApplyDataDirBeforeConfig startup.data_dir_selection startup.explicit_datadir ||
    attempt.ensureDataDir) &&
  attempt.readConfigFiles && attempt.selectParams &&
  (!startup.args.settings_path || attempt.readSettingsFile)

/-- `ApplyToArgs` from the migrated settings on. -/
def applyMigrated (attempt : Attempt) (files : Files V) (args : ArgsManager) : Files V × Bool :=
  let (args, touched_settings_written) := startup.writeTouchedSettings args
  if !touched_settings_written then (files, false)
  else
    let args := setRwSetting args .qml_onboarded (.bool true)
    if args.settings_path && !attempt.writeSettingsFile then (files, false)
    else
      let files := if args.settings_path then { files with settings := args.rw_settings } else files
      (files,
        !shouldPersistGuiDataDirSelection startup.data_dir_selection startup.explicit_datadir ||
          attempt.persistDataDirSelection)

/-- The files after the call, and whether it returns true. -/
def applyToArgs (attempt : Attempt) (files : Files V) : Files V × Bool :=
  if !startup.readsFiles attempt then (files, false)
  else
    let args := startup.readSettingsFile files
    match if startup.args.settings_path then attempt.migration_error else none with
    | some error =>
      let (qml, bitcoin_qt) :=
        interruptedMigration startup.api startup.qt args files.qml files.bitcoin_qt .persist error
      ({ files with qml, bitcoin_qt }, false)
    | none =>
      let m := migrateCoreSettings startup.api startup.qt args files.qml files.bitcoin_qt .persist
      startup.applyMigrated attempt { files with qml := m.qml, bitcoin_qt := m.bitcoin_qt } m.args

end Startup

end GuiQml.Settings
